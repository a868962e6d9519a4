import Riser.Connect.Unauthenticated

/-!
# Requests that are rejected

A request that fails to parse is answered with an error, and the connection reads the next one.  How many
bytes of the rejected request are still to come is not known then: what the next `read` returns is parsed
from its first byte.  So an argument of a rejected request that arrives by itself is a request of its own,
and if it looks like one, it is **executed** (`arguments_executed`): a client that can make another send a
value, in a request that will be rejected, can have commands executed.

`untouched_iff` says exactly when this does not happen, for every way the bytes are cut into reads: if
`Process` refuses each of the reads by itself.  This is the case if the request comes in one read, since
it is rejected.  `refuses_iff` says on the bytes of a read what is refused: fewer than three tokens, no
command, no password, or what the parser of the command does not accept (`Command.Declines`).
-/

namespace Riser

open Cpp

/-! ## What the parsers refuse -/

/-- The error codes. -/
lemma errorText_ne_none_iff (st : ℤ) : errorText st ≠ none ↔ -5 ≤ st ∧ st ≤ -1 := by
  unfold errorText authReqFail authFail
  split_ifs <;> simp <;> omega

/-- A `set` (`setex`) is refused for its tokens, its key or its delimiters.  Otherwise what is missing of
the value is returned, and a huge length can make that an error code. -/
def ValueDeclined (n : ℕ) (marks : Str) (lines : ℕ) (v : List Str) (data : Str) : Prop :=
  v.length < n ∨ 250 ≤ (argOf v 3).length ∨ ∀ pos ∈ headerEnd data marks lines,
    -5 ≤ toInt32 (lengthOf (v.getD n []) - (data.length - pos) : ℕ) ∧
      toInt32 (lengthOf (v.getD n []) - (data.length - pos) : ℕ) ≤ -1

/-- **What the parser of a command does not accept**, of the tokens `v` of the bytes.  A `reply` only
closes the connection, and an `auth` only counts where there is a password. -/
def Command.Declines (cfg : Config) (v : List Str) (data : Str) : Command → Prop
  | .get | .ttl | .del | .keyExists | .keys => v.length ≠ 5
  | .set => ValueDeclined 5 (lit "*3") 6 v data
  | .setex => ValueDeclined 7 (lit "*4") 8 v data
  | .mset => (toInt32 (atoi ((v.getD 0 []).drop 1) - 1)).tmod 2 ≠ 0 ∨
      headerEnd data (v.getD 0 []) 3 = none
  | .mget => v.length < 5 ∨ (v.length : ℤ) ≠ toInt32 (toInt32 (lengthOf (v.getD 0 [])) * 2 + 1)
  | .slave => v.length ≠ 7 ∨ argOf v 5 ≠ lit "clear"
  | .rep => v.length < 7
  | .reply => v.length ≠ 5 ∨ v.getD 4 [] ≠ lit "close"
  | .auth => v.length ≠ 5 ∨ cfg.auth = [] ∨ argOf v 3 ≠ cfg.auth
  | .info | .ping | .randomkey | .quit => False

/-- Nothing comes of what a parser has returned: an error is answered, or no command is under way. -/
def Declined (st : ℤ) (r : GentRedis) : Prop := errorText st = none → r.curstatus.Idle

section Declined

variable {cfg : Config} {now : ℕ} {r r' : GentRedis} {v : List Str} {data : Str} {st : ℤ}

lemma declined_of_error (h : errorText st ≠ none) : Declined st r := fun hnone => absurd hnone h

/-- A parser that returns an error code, … -/
lemma declined_iff_of_error {code : ℤ} {r₁ : GentRedis} {p : Prop}
    (h : (Except.ok (code, r₁) : Parsed) = .ok (st, r')) (hcode : errorText code ≠ none) (hp : p) :
    Declined st r' ↔ p := by
  obtain ⟨rfl, rfl⟩ := Prod.mk.inj (Except.ok.inj h)
  exact iff_of_true (declined_of_error hcode) hp

/-- … one that leaves no command under way, … -/
lemma declined_iff_of_idle {code : ℤ} {r₁ : GentRedis} {p : Prop}
    (h : (Except.ok (code, r₁) : Parsed) = .ok (st, r')) (hidle : r₁.curstatus.Idle) (hp : p) :
    Declined st r' ↔ p := by
  obtain ⟨rfl, rfl⟩ := Prod.mk.inj (Except.ok.inj h)
  exact iff_of_true (fun _ => hidle) hp

/-- … and one that does. -/
lemma declined_iff_of_busy {code : ℤ} {r₁ : GentRedis} {p : Prop}
    (h : (Except.ok (code, r₁) : Parsed) = .ok (st, r')) (hcode : errorText code = none)
    (hbusy : ¬ r₁.curstatus.Idle) (hp : ¬ p) : Declined st r' ↔ p := by
  obtain ⟨rfl, rfl⟩ := Prod.mk.inj (Except.ok.inj h)
  exact iff_of_false (fun hdec => hbusy (hdec hcode)) hp

lemma keyParser_declined {wrong : ℤ} (hwrong : errorText wrong ≠ none) (hauth : Authed cfg r)
    (h : keyParser wrong cfg v r = .ok (st, r')) : Declined st r' ↔ v.length ≠ 5 := by
  rw [keyParser, withAuth_eq hauth] at h
  split_ifs at h with hlen
  · exact declined_iff_of_error h hwrong hlen
  · obtain ⟨key, -, h⟩ := bind_eq_ok.mp h
    exact declined_iff_of_busy h rfl (by simp [Status.Idle]) hlen

lemma plainParser_declined (hauth : Authed cfg r) (h : plainParser cfg r = .ok (st, r')) :
    Declined st r' ↔ False := by
  rw [plainParser, withAuth_eq hauth] at h
  exact declined_iff_of_busy h rfl (by simp [Status.Idle]) id

lemma valueParser_declined {n lines : ℕ} {marks : Str} {body : ℕ → GentRedis → Parsed}
    (hauth : Authed cfg r) (hv : ∀ t ∈ v, Clean t) (hn : 5 ≤ n)
    (hbody : ∀ {pos r₁}, body pos r₁ = .ok (st, r') →
      ∃ expire, takeContent v n data pos { r₁ with expire := expire } = .ok (st, r'))
    (h : valueParser n marks lines body cfg v data r = .ok (st, r')) :
    Declined st r' ↔ ValueDeclined n marks lines v data := by
  rcases valueParser_cases marks lines body data hauth hv hn with
    ⟨hwhy, code, r₁, hcode, heq⟩ | ⟨pos, hle, hkey, hend, heq⟩
  · obtain ⟨rfl, rfl⟩ := Prod.mk.inj (Except.ok.inj (heq.symm.trans h))
    refine iff_of_true (declined_of_error (by rcases hcode with rfl | rfl <;> decide)) ?_
    rcases hwhy with hnum | hlong | hnone
    · exact Or.inl hnum
    · exact Or.inr (Or.inl hlong)
    · refine Or.inr (Or.inr fun pos hpos => ?_)
      rw [hnone] at hpos
      cases hpos
  · obtain ⟨expire, htake⟩ := hbody (heq.symm.trans h)
    obtain ⟨line, hline, hst, rfl⟩ := takeContent_spec hv htake
    have hget : v.getD n [] = line := by rw [List.getD_eq_getElem?_getD, hline, Option.getD_some]
    rw [List.length_drop, ← hget] at hst
    have hdec : Declined st { r with
        auth := true, curstatus := .CONN_NREAD, keystr := argOf v 3, expire := expire
        content := (data.drop pos).take (lengthOf line), rlbytes := lengthOf line } ↔
        errorText st ≠ none :=
      ⟨fun hdec hnone => absurd (hdec hnone) (by simp [Status.Idle]), declined_of_error⟩
    rw [hdec, errorText_ne_none_iff, hst]
    constructor
    · intro hcode
      refine Or.inr (Or.inr fun pos' hpos' => ?_)
      obtain rfl := Option.some.inj (hend.symm.trans hpos')
      exact hcode
    · rintro (hnum | hlong | hall)
      · omega
      · omega
      · exact hall pos hend

/-- The loop over the pairs is done, or waits. -/
lemma itemLoop_status {n : ℕ} {m m' : MsetData} (h : itemLoop n data m = .ok (st, m')) :
    st = 0 ∨ st = mgetReq := by
  induction n generalizing data m with
  | zero =>
      rw [itemLoop] at h
      split_ifs at h
      · exact Or.inr (Prod.mk.inj (Except.ok.inj h)).1.symm
      · exact Or.inl (Prod.mk.inj (Except.ok.inj h)).1.symm
  | succ n ih =>
      have hwait : ∀ {m₁ : MsetData} {d : Str}, (Except.ok (m₁.wait d) : Except Fault (ℤ × MsetData))
          = .ok (st, m') → st = 0 ∨ st = mgetReq :=
        fun hw => Or.inr (Prod.mk.inj (Except.ok.inj hw)).1.symm
      rw [itemLoop] at h
      obtain ⟨key, -, h⟩ := bind_eq_ok.mp h
      cases key with
      | none => exact hwait h
      | some m₁ =>
          obtain ⟨len, -, h⟩ := bind_eq_ok.mp h
          cases len with
          | none => exact hwait h
          | some m₂ =>
              dsimp only at h
              split_ifs at h
              · exact hwait h
              · obtain ⟨value, -, h⟩ := bind_eq_ok.mp h
                obtain ⟨rest, -, h⟩ := bind_eq_ok.mp h
                exact ih h

lemma mset_declined (hauth : Authed cfg r) (hv : ∀ t ∈ v, Clean t) (hnum : 3 ≤ v.length)
    (h : GentProcessMset.parser cfg v data r = .ok (st, r')) :
    Declined st r' ↔ Command.Declines cfg v data .mset := by
  have hfirst : v[0]? = some (v.getD 0 []) := by simp [List.getD, show 0 < v.length by omega]
  have hne : 1 ≤ (v.getD 0 []).length :=
    List.length_pos_of_ne_nil (hv _ (List.mem_of_getElem? hfirst)).1
  rw [GentProcessMset.parser, withAuth_eq hauth, if_neg (by omega), elemAt_of_eq_some hfirst, ok_bind,
    substrFrom_of_le hne, ok_bind] at h
  dsimp only at h
  rw [Command.Declines]
  split_ifs at h with hodd
  · exact declined_iff_of_error h (by decide) (Or.inl hodd)
  · rw [msetPairs] at h
    cases hend : headerEnd data (v.getD 0 []) 3 with
    | none =>
        simp only [hend] at h
        exact declined_iff_of_error h (by decide) (Or.inr rfl)
    | some pos =>
        simp only [hend] at h
        obtain ⟨rest, -, h⟩ := bind_eq_ok.mp h
        obtain ⟨⟨ret, m⟩, hloop, h⟩ := bind_eq_ok.mp h
        rcases itemLoop_status hloop with rfl | rfl
        · exact declined_iff_of_busy h rfl (by simp [Status.Idle, mgetReq]) (by simpa using hodd)
        · exact declined_iff_of_busy h rfl (by simp [Status.Idle]) (by simpa using hodd)

/-- **A parser declines what it does not accept.** -/
lemma Command.parser_declined {c : Command} (hauth : Authed cfg r ∨ c = .auth ∨ c = .quit ∨ c = .rep)
    (hread : r.curstatus = .CONN_READ) (hnum : 3 ≤ (tokens data).length)
    (h : c.parser cfg now (tokens data) data r = .ok (st, r')) :
    Declined st r' ↔ c.Declines cfg (tokens data) data := by
  have hv : ∀ t ∈ tokens data, Clean t := fun t ht => clean_of_mem_tokens ht
  have hwrong : errorText (-1) ≠ none := by decide
  cases c with
  | auth =>
      rw [Command.parser, GentProcessAuth.parser] at h
      by_cases hlen : (tokens data).length ≠ 5
      · rw [if_pos hlen] at h
        exact declined_iff_of_error h hwrong (Or.inl hlen)
      · rw [if_neg hlen, tokenArg_eq hv (by omega), ok_bind] at h
        split_ifs at h with hopen hother
        · exact declined_iff_of_idle h (Or.inl hread) (Or.inr (Or.inl hopen))
        · exact declined_iff_of_error h (by decide) (Or.inr (Or.inr hother))
        · refine declined_iff_of_busy h rfl (by simp [Status.Idle]) ?_
          simp [Command.Declines, hlen, hopen, hother]
  | quit =>
      exact declined_iff_of_busy h rfl (by simp [Status.Idle]) id
  | rep =>
      simp only [Command.parser, GentProcessRep.parser] at h
      split_ifs at h with hlen
      · exact declined_iff_of_error h hwrong hlen
      · obtain ⟨msg, -, h⟩ := bind_eq_ok.mp h
        obtain ⟨r₁, -, h⟩ := bind_eq_ok.mp h
        obtain ⟨key, -, h⟩ := bind_eq_ok.mp h
        exact declined_iff_of_busy h rfl (by simp [Status.Idle]) hlen
  | get => exact keyParser_declined hwrong (hauth.resolve_right (by simp)) h
  | ttl => exact keyParser_declined hwrong (hauth.resolve_right (by simp)) h
  | del => exact keyParser_declined hwrong (hauth.resolve_right (by simp)) h
  | keyExists => exact keyParser_declined hwrong (hauth.resolve_right (by simp)) h
  | keys => exact keyParser_declined (by decide) (hauth.resolve_right (by simp)) h
  | ping => exact plainParser_declined (hauth.resolve_right (by simp)) h
  | randomkey => exact plainParser_declined (hauth.resolve_right (by simp)) h
  | set =>
      exact valueParser_declined (hauth.resolve_right (by simp)) hv le_rfl (fun hbody => ⟨_, hbody⟩) h
  | setex =>
      refine valueParser_declined (hauth.resolve_right (by simp)) hv (by decide) (fun hbody => ?_) h
      obtain ⟨seconds, -, hbody⟩ := bind_eq_ok.mp hbody
      exact ⟨_, hbody⟩
  | mset => exact mset_declined (hauth.resolve_right (by simp)) hv hnum h
  | mget =>
      have hfirst : (tokens data)[0]? = some ((tokens data).getD 0 []) := by
        simp [List.getD, show 0 < (tokens data).length by omega]
      simp only [Command.parser, GentProcessMget.parser, withAuth_eq (hauth.resolve_right (by simp)),
        elemAt_of_eq_some hfirst, getLength_eq (hv _ (List.mem_of_getElem? hfirst)).1, ok_bind,
        mgetKeys] at h
      split_ifs at h with hbad
      · exact declined_iff_of_error h hwrong hbad
      · obtain ⟨keyvec, -, h⟩ := bind_eq_ok.mp h
        exact declined_iff_of_busy h rfl (by simp [Status.Idle]) hbad
  | info =>
      rw [Command.parser, GentProcessInfo.parser, withAuth_eq (hauth.resolve_right (by simp))] at h
      dsimp only at h
      split_ifs at h
      all_goals
        obtain ⟨key, -, h⟩ := bind_eq_ok.mp h
        exact declined_iff_of_busy h rfl (by simp [Status.Idle]) id
  | slave =>
      simp only [Command.parser, GentProcessSlave.parser,
        withAuth_eq (hauth.resolve_right (by simp))] at h
      split_ifs at h with hlen
      · exact declined_iff_of_error h hwrong (Or.inl hlen)
      · rw [tokenArg_eq hv (show 5 + 1 < _ by omega), ok_bind] at h
        split_ifs at h with hword
        · exact declined_iff_of_error h hwrong (Or.inr hword)
        · obtain ⟨key, -, h⟩ := bind_eq_ok.mp h
          refine declined_iff_of_busy h rfl (by simp [Status.Idle]) ?_
          simp [Command.Declines, hlen, hword]
  | reply =>
      simp only [Command.parser, GentProcessReply.parser,
        withAuth_eq (hauth.resolve_right (by simp))] at h
      split_ifs at h with hlen
      · exact declined_iff_of_idle h (Or.inl hread) (Or.inl hlen)
      · have hword : (tokens data)[4]? = some ((tokens data).getD 4 []) := by
          simp [List.getD, show 4 < (tokens data).length by omega]
        rw [elemAt_of_eq_some hword, ok_bind] at h
        by_cases hclose : (tokens data).getD 4 [] = lit "close"
        · rw [if_pos hclose] at h
          refine declined_iff_of_busy h rfl (by simp [Status.Idle]) ?_
          rintro (hne | hne)
          · exact hlen hne
          · exact hne hclose
        · rw [if_neg hclose] at h
          refine declined_iff_of_idle h ?_ (Or.inr hclose)
          split_ifs
          · exact Or.inr (Or.inr rfl)
          · exact Or.inr (Or.inr rfl)
          · exact Or.inl hread

/-- **A read that is refused**: it has fewer than three tokens, or the third is no command; or the
password is missing, or the parser of the command does not accept it. -/
def Declines (cfg : Config) (r : GentRedis) (data : Str) : Prop :=
  ∀ c ∈ (tokens data)[2]?.bind commands,
    (¬ Authed cfg r ∧ c ≠ .auth ∧ c ≠ .quit ∧ c ≠ .rep) ∨ c.Declines cfg (tokens data) data

/-- It is answered with an error, or no command is under way. -/
lemma declines_iff_process {outstr : Str} {status : ℤ} (hread : r.curstatus = .CONN_READ)
    (h : process cfg now r data = .ok (status, outstr, r')) :
    Declines cfg r data ↔ (outstr = [] → r'.curstatus.Idle) := by
  cases hthird : (tokens data)[2]?.bind commands with
  | none =>
      rw [process_none hthird] at h
      obtain ⟨-, hrest⟩ := Prod.mk.inj (Except.ok.inj h)
      obtain ⟨-, rfl⟩ := Prod.mk.inj hrest
      refine iff_of_true (fun c hc => ?_) fun _ => Or.inl hread
      rw [hthird] at hc
      cases hc
  | some c =>
      obtain ⟨name, hname, hc⟩ := Option.bind_eq_some_iff.mp hthird
      have hnum : 2 < (tokens data).length := (List.getElem?_eq_some_iff.mp hname).1
      rw [process_eq hname hc] at h
      obtain ⟨⟨st, r₁⟩, hparse, h⟩ := bind_eq_ok.mp h
      have hdeclined : Declined st r₁ ↔ (outstr = [] → r'.curstatus.Idle) := by
        cases htext : errorText st with
        | some text =>
            simp only [htext] at h
            obtain ⟨-, hrest⟩ := Prod.mk.inj (Except.ok.inj h)
            obtain ⟨rfl, rfl⟩ := Prod.mk.inj hrest
            exact iff_of_true (declined_of_error (by simp [htext])) fun hnil =>
              absurd hnil (errorText_ne_nil htext)
        | none =>
            simp only [htext] at h
            obtain ⟨-, hrest⟩ := Prod.mk.inj (Except.ok.inj h)
            obtain ⟨rfl, rfl⟩ := Prod.mk.inj hrest
            exact ⟨fun hdec _ => hdec htext, fun hidle _ => hidle rfl⟩
      rw [Declines, hthird, ← hdeclined]
      simp only [Option.mem_def, Option.some.injEq, forall_eq']
      by_cases hasks : ¬ Authed cfg r ∧ c ≠ .auth ∧ c ≠ .quit ∧ c ≠ .rep
      · -- the parser asks for the password before anything else
        obtain ⟨hno, hnot⟩ := hasks
        have hr : r.auth = false := Bool.eq_false_iff.mpr fun hr => hno (Or.inl hr)
        rw [parser_refuses (r := { r with subc := some c }) hnot (fun hopen => hno (Or.inr hopen))
          hr] at hparse
        obtain ⟨rfl, rfl⟩ := Prod.mk.inj (Except.ok.inj hparse)
        exact iff_of_true (Or.inl ⟨hno, hnot⟩) (declined_of_error (by decide))
      · rw [or_iff_right hasks]
        have hauth : Authed cfg { r with subc := some c } ∨ c = .auth ∨ c = .quit ∨ c = .rep := by
          by_contra hnone
          obtain ⟨hno, hnot⟩ := not_or.mp hnone
          exact hasks ⟨hno, by simpa using hnot⟩
        exact (Command.parser_declined hauth hread hnum hparse).symm

end Declined

namespace Session

/-- **Nothing has been executed**: the server is as it was, and no command is under way. -/
structure Untouched (sv : Server) (x : Session) : Prop where
  server : x.server = sv
  idle : x.running.status.Idle
  attached : x.attached = []

/-- What the turn hands to `Process` is not taken for a command. -/
def Refuses (cfg : Config) (x : Session) : SessionEvent → Prop
  | .turn w _ => ∀ data ∈ x.running.given, ∀ status r,
      process cfg w.now x.running.conn.comm data = .ok (status, [], r) → r.curstatus.Idle
  | .masterHandle _ _ => True

variable {cfg : Config} {sv : Server} {x y : Session} {e : SessionEvent}

lemma refuses_iff_process {w : World} {updateEvent : Bool} {data outstr : Str} {status : ℤ}
    {r : GentRedis} (hdata : x.running.given = some data)
    (h : process cfg w.now x.running.conn.comm data = .ok (status, outstr, r)) :
    x.Refuses cfg (.turn w updateEvent) ↔ (outstr = [] → r.curstatus.Idle) := by
  constructor
  · rintro hrefuses rfl
    exact hrefuses data hdata status r h
  · intro hr data' hdata' status' r' h'
    obtain rfl := Option.some.inj (hdata.symm.trans hdata')
    obtain ⟨-, hrest⟩ := Prod.mk.inj (Except.ok.inj (h.symm.trans h'))
    obtain ⟨rfl, rfl⟩ := Prod.mk.inj hrest
    exact hr rfl

/-- **What is refused, on the bytes of a read**, if the parser does not throw. -/
theorem refuses_iff {w : World} {updateEvent : Bool} {data outstr : Str} {status : ℤ} {r : GentRedis}
    (hdata : x.running.given = some data)
    (h : process cfg w.now x.running.conn.comm data = .ok (status, outstr, r)) :
    x.Refuses cfg (.turn w updateEvent) ↔ Declines cfg x.running.conn.comm data := by
  rw [refuses_iff_process hdata h, declines_iff_process (Running.status_of_given hdata) h]

lemma refuses_of_none {w : World} {updateEvent : Bool} (hnone : x.running.given = none) :
    x.Refuses cfg (.turn w updateEvent) := by
  intro data hdata
  rw [hnone] at hdata
  cases hdata

/-- **One step**: nothing has been executed after it exactly when `Process` refuses what it is given. -/
lemma step_untouched (hx : x.Untouched sv) (h : x.step cfg false e = some y) :
    y.Untouched sv ↔ x.Refuses cfg e := by
  cases e with
  | masterHandle w name =>
      rw [step, hx.attached, if_neg List.not_mem_nil] at h
      cases h
  | turn w updateEvent =>
      simp only [step, act_of_ne hx.idle.ne_data] at h
      obtain ⟨z, hz, rfl⟩ := Option.map_eq_some_iff.mp h
      have huntouched : Untouched sv ⟨x.server, z, x.attached⟩ ↔ z.conn.comm.curstatus.Idle :=
        ⟨Untouched.idle, fun hidle => ⟨hx.server, hidle, hx.attached⟩⟩
      rw [huntouched]
      rcases take_idle hx.idle hz with ⟨hnone, st, hst, hcomm⟩ | ⟨data, status, out, r, hdata, hproc, hcases⟩
      · exact iff_of_true (hcomm ▸ hst) (refuses_of_none hnone)
      · rw [refuses_iff_process hdata hproc]
        rcases hcases with ⟨hne, hcomm⟩ | ⟨hnil, hcomm⟩
        · exact iff_of_true (hcomm ▸ Or.inr (Or.inl rfl)) fun hnil => absurd hnil hne
        · rw [hcomm]
          exact ⟨fun hidle _ => hidle, fun hr => hr hnil⟩

/-- **No part of a rejected request is executed, exactly when no read is taken for a command.**  The run
is any number of turns of the loop, on a connection of a client, with any bytes coming in any pieces. -/
theorem untouched_iff (cfg : Config) (x : Session) (hread : x.running.status = .CONN_READ)
    (hclient : x.attached = []) (es : List SessionEvent) (y : Session)
    (hrun : Transition.run (step cfg false) x es = some y) :
    Transition.Along (step cfg false) (fun z _ => z.Untouched x.server) x es ∧ y.Untouched x.server ↔
      Transition.Along (step cfg false) (Refuses cfg) x es :=
  Transition.along_inv_iff (W := fun _ => True) (fun _ _ _ _ _ => trivial)
    (fun _ _ _ _ hz hstep => step_untouched hz hstep) es trivial ⟨rfl, Or.inl hread, hclient⟩ hrun

/-- An unknown command, with an argument that is a request. -/
def nested : Str := lit "*2\r\n$3\r\nfoo\r\n$20\r\n*2\r\n$3\r\ndel\r\n$1\r\nk\r\n\r\n"

/-- Turns of the loop. -/
def turns (n : ℕ) : List SessionEvent := List.replicate n (.turn quietWorld true)

/-- In one read it is rejected, and that is all. -/
theorem untouched_iff_nested :
    ∃ y, Transition.run (step openConfig false)
        (.start (keyServer (lit "k") (lit "v")) false (eagerSocket nested)) (turns 3) = some y ∧
      y.Untouched (keyServer (lit "k") (lit "v")) := by
  obtain ⟨y, hy⟩ : ∃ y, Transition.run (step openConfig false)
      (.start (keyServer (lit "k") (lit "v")) false (eagerSocket nested)) (turns 3) = some y := ⟨_, rfl⟩
  refine ⟨y, hy, ((untouched_iff openConfig _ rfl rfl (turns 3) y hy).mpr ?_).2⟩
  have hunknown : Declines openConfig (.new false) nested := by
    intro c hc
    cases hc
  exact .cons rfl ((refuses_iff rfl rfl).mpr hunknown) <| .cons rfl (refuses_of_none rfl) <|
    .cons rfl (refuses_of_none rfl) trivial

/-- The same bytes, cut in front of the argument. -/
def cutSocket : Socket :=
  { eagerSocket nested with recvs := fun i => if i = 0 then .bytes 17 else .bytes 4095 }

/-- **The argument is executed**: the request is rejected, and the key is gone. -/
theorem arguments_executed :
    (∃ r, process openConfig 1000000000 (.new false) nested
      = .ok (0, lit "-ERR unknown command\r\n", r)) ∧
    ∃ y, Transition.run (step openConfig false)
        (.start (keyServer (lit "k") (lit "v")) false cutSocket) (turns 5) = some y ∧
      (keyServer (lit "k") (lit "v")).db.db.contains (lit "k") = true ∧
      y.server.db.db.contains (lit "k") = false := by
  have hgone : (Transition.run (step openConfig false)
      (.start (keyServer (lit "k") (lit "v")) false cutSocket) (turns 5)).map
        (fun y => y.server.db.db.contains (lit "k")) = some false := by
    decide +kernel
  obtain ⟨y, hy, hcontains⟩ := Option.map_eq_some_iff.mp hgone
  exact ⟨⟨_, rfl⟩, y, hy, by decide +kernel, hcontains⟩

end Session

end Riser
