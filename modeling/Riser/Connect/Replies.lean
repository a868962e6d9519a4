import Riser.Connect.Mget
import Riser.Connect.Unauthenticated
import Riser.Redis.Remaining

/-!
# One reply for every request

A parser tells `TryRunning` what comes next by two things: the number it returns and the status it
leaves the connection in.  A number that is an error code is answered; `CONN_DATA`, or `CONN_NREAD`
with nothing missing, lets the command act; **a parser that returns 0 and leaves the status alone has
swallowed the request**.  That is what `auth` does on a server without a password.

* The first part has one lemma for each thing that `Process` can do with a request, and says of each
  whether a reply follows.
* `Replies` then is the condition, command by command, on the bytes of the request, the configuration
  and the store, for any arguments whatsoever.
-/

namespace Riser

open Cpp

/-! ## What can fault -/

section Faults

/-- What follows cannot fault. -/
lemma runs_bind_iff {α β : Type} {e : Except Fault α} {f : α → Except Fault β}
    (hf : ∀ a, Runs (f a)) : Runs (e >>= f) ↔ Runs e := by
  rw [runs_bind]
  constructor
  · rintro ⟨a, ha, -⟩
    exact ⟨a, ha⟩
  · rintro ⟨a, ha⟩
    exact ⟨a, ha, hf a⟩

lemma GentDb.runs_get_iff (s : GentDb) (now : ℕ) (key : Str) :
    Runs (s.get now key) ↔ ¬ s.Undecoded key := by
  constructor
  · rintro ⟨found, hfound⟩ hbad
    obtain ⟨f, hf⟩ : ∃ f, s.get now key = .error f := hbad.get
    exact absurd (hfound.symm.trans hf) nofun
  · intro h
    obtain ⟨found, hfound, -⟩ : ∃ found, s.get now key = .ok found ∧ _ := get_of_decoded h
    exact ⟨found, hfound⟩

lemma GentDb.runs_ttl_iff (s : GentDb) (key : Str) : Runs (s.ttl key) ↔ ¬ s.Undecoded key := by
  unfold GentDb.ttl GentDb.Undecoded
  cases hm : s.meta_db[key]? with
  | none => simp
  | some m =>
      cases hdat : metaUnserialize m with
      | error f => simp [hdat, bind, Except.bind]
      | ok dat => simp [hdat]

/-- A command on one key faults where its look-up does. -/
lemma Command.runs_complete_key {c : Command}
    (hc : c = .get ∨ c = .ttl ∨ c = .del ∨ c = .keyExists) (w : World) (sv : Server) (r : GentRedis) :
    Runs (c.complete false w sv r []) ↔ ¬ sv.db.Undecoded r.keystr := by
  rcases hc with rfl | rfl | rfl | rfl
  · refine (runs_bind_iff fun found => ?_).trans (sv.db.runs_get_iff w.now r.keystr)
    cases found <;> exact runs_pure _
  · exact (runs_bind_iff fun _ => runs_pure _).trans (sv.db.runs_ttl_iff r.keystr)
  · refine (runs_bind_iff fun found => ?_).trans (sv.db.runs_get_iff w.now r.keystr)
    cases found with
    | none => exact runs_pure _
    | some nr =>
        dsimp only
        split_ifs <;> exact runs_pure _
  · refine (runs_bind_iff fun found => ?_).trans (sv.db.runs_get_iff w.now r.keystr)
    cases found <;> exact runs_pure _

lemma runs_complete_mget (w : World) (sv : Server) (r : GentRedis) :
    Runs (Command.mget.complete false w sv r []) ↔ ∀ key ∈ r.keyvec, ¬ sv.db.Undecoded key := by
  refine (runs_bind_iff fun _ => runs_pure _).trans (runs_mapM_iff.trans ?_)
  refine forall₂_congr fun key _ => ?_
  exact (runs_bind_iff fun _ => runs_pure _).trans (sv.db.runs_get_iff w.now key)

/-- The commands that look nothing up do not fault. -/
lemma Command.runs_complete {c : Command}
    (hkey : ¬ (c = .get ∨ c = .ttl ∨ c = .del ∨ c = .keyExists)) (hmget : c ≠ .mget)
    (hrep : c ≠ .rep) (w : World) (sv : Server) (r : GentRedis) :
    Runs (c.complete false w sv r []) := by
  have hvalue : ∀ expire, Runs (valueComplete false w sv expire r []) := by
    intro expire
    unfold valueComplete
    dsimp only
    split_ifs <;> exact runs_ok _
  cases c with
  | get => exact absurd (Or.inl rfl) hkey
  | ttl => exact absurd (Or.inr (Or.inl rfl)) hkey
  | del => exact absurd (Or.inr (Or.inr (Or.inl rfl))) hkey
  | keyExists => exact absurd (Or.inr (Or.inr (Or.inr rfl))) hkey
  | mget => exact absurd rfl hmget
  | set => exact hvalue 0
  | setex => exact hvalue r.expire
  | mset =>
      show Runs (GentProcessMset.complete false w sv r)
      unfold GentProcessMset.complete
      dsimp only
      split_ifs <;> exact runs_ok _
  | info =>
      show Runs (GentProcessInfo.complete w sv r)
      unfold GentProcessInfo.complete
      dsimp only
      split_ifs <;> exact runs_ok _
  | rep => exact absurd rfl hrep
  | auth => exact runs_ok _
  | randomkey => exact runs_ok _
  | quit => exact runs_ok _
  | keys => exact runs_ok _
  | ping => exact runs_ok _
  | reply => exact runs_ok _
  | slave => exact runs_ok _

end Faults

/-! ## What `Process` can do -/

namespace Session

variable {cfg : Config} {w : World} {x z : Session} {size : ℕ} {data : Str} {r' : GentRedis}
  {status : ℤ} {c : Command}

/-- **The request gets one reply**, which is not empty, and the connection is idle again. -/
def Replied (cfg : Config) (w : World) (size : ℕ) (x : Session) (data : Str) : Prop :=
  ∃ z out, Serves cfg false w (x.arrive data) z ∧ z.Ready size ∧ out ≠ [] ∧
    z.running.sock.outbox = x.running.sock.outbox ++ out.map some

section Outcomes

variable (hx : x.Ready size) (hne : data ≠ []) (hlen : data.length ≤ size)
include hx hne hlen

/-- An answer is a reply. -/
lemma replied_of_react {a : Reaction} (hout : a.out ≠ [])
    (h : react cfg false w x.server x.running.conn.comm data = some a) :
    Replied cfg w size x data := by
  obtain ⟨z, hserves, hafter⟩ := serves_of_react hx hne hlen h
  exact ⟨z, a.out, hserves, hafter.ready, hout, hafter.outbox⟩

lemma replied_of_rejected {text : Str} (htext : text ≠ [])
    (hproc : process cfg w.now x.running.conn.comm data = .ok (status, text, r')) :
    Replied cfg w size x data := by
  refine replied_of_react hx hne hlen (a := ⟨text, { r' with curstatus := .CONN_READ }, x.server, []⟩)
    htext ?_
  simp only [react, hproc]
  exact if_pos htext

lemma not_replied_of_fault {f : Fault}
    (hproc : process cfg w.now x.running.conn.comm data = .error f) :
    ¬ Replied cfg w size x data := by
  rintro ⟨z, out, hserves, -⟩
  exact not_serves_of_fault hx hne hlen hproc hserves

/-- The request is swallowed. -/
lemma not_replied_of_silent
    (hproc : process cfg w.now x.running.conn.comm data = .ok (status, [], r'))
    (hst : r'.curstatus = .CONN_READ) : ¬ Replied cfg w size x data := by
  have hreact : react cfg false w x.server x.running.conn.comm data
      = some ⟨[], { r' with curstatus := .CONN_READ }, x.server, []⟩ := by
    simp only [react, hproc]
    rw [if_neg (not_not.mpr rfl), if_pos (Or.inl hst)]
  obtain ⟨z, hserves, hafter⟩ := serves_of_react hx hne hlen hreact
  rintro ⟨z', out, hserves', -, hout, houtbox⟩
  obtain rfl := hserves.unique hserves'
  rw [hafter.outbox] at houtbox
  have hnil := List.append_cancel_left houtbox
  exact hout (List.map_eq_nil_iff.mp hnil.symm)

/-- The command acts: there is a reply unless it faults. -/
lemma replied_iff_runs
    (hproc : process cfg w.now x.running.conn.comm data = .ok (0, [], r'))
    (hst : r'.curstatus = .CONN_DATA ∨ r'.curstatus = .CONN_NREAD) (hsub : r'.subc = some c)
    (hc : c ≠ .quit ∧ c ≠ .reply ∧ c ≠ .rep) :
    Replied cfg w size x data ↔
      Runs (c.complete false w x.server { r' with curstatus := .CONN_DATA } []) := by
  have hcomplete : complete false w x.server { r' with curstatus := .CONN_DATA } []
      = c.complete false w x.server { r' with curstatus := .CONN_DATA } [] := complete_eq hsub
  constructor
  · rintro ⟨z, out, hserves, -⟩
    have htold : Told cfg w x.server x.running.conn.comm data := by
      intro st outstr r₁ hproc'
      obtain ⟨rfl, hrest⟩ := Prod.mk.inj (Except.ok.inj (hproc.symm.trans hproc'))
      obtain ⟨rfl, rfl⟩ := Prod.mk.inj hrest
      refine Or.inr (Or.inr ⟨hst.imp_right fun h => ⟨h, rfl⟩, fun h => ?_⟩)
      exact Command.complete_ne_nil hc (hcomplete.symm.trans h)
    obtain ⟨out', sv, hanswer⟩ := answer_of_serves hx hne hlen htold hserves
    obtain ⟨a, hreact, -⟩ := Option.map_eq_some_iff.mp hanswer
    cases hres : c.complete false w x.server { r' with curstatus := .CONN_DATA } [] with
    | ok res => exact runs_ok res
    | error f =>
        have hread : ¬ (r'.curstatus = .CONN_READ ∨ r'.curstatus = .CONN_WAIT) := by
          rcases hst with hst | hst <;> rw [hst] <;> exact nofun
        rw [hres] at hcomplete
        simp only [react, hproc, hcomplete] at hreact
        rw [if_neg (not_not.mpr rfl), if_neg hread, if_pos (hst.imp_right fun h => ⟨h, trivial⟩)]
          at hreact
        cases hreact
  · rintro ⟨⟨out, r'', sv'⟩, hres⟩
    have hout : out ≠ [] := Command.complete_ne_nil hc hres
    obtain ⟨a, hreact, heq⟩ := Option.map_eq_some_iff.mp
      (answer_complete hproc hst (hcomplete.trans hres) hout)
    have haout : a.out = out := (Prod.mk.inj heq).1
    exact replied_of_react hx hne hlen (haout ▸ hout) hreact

omit hx hne hlen in
/-- A connection that waits for the rest of a value goes on waiting. -/
lemma not_serves_of_remaining (h : Serves cfg false w x z) (hst : x.running.status = .CONN_NREAD)
    (hremain : x.running.conn.remainsize ≠ 0) (heager : x.running.sock.Eager size)
    (hinbox : x.running.sock.inbox = []) : False := by
  induction h with
  | done hwait => exact not_waiting (by rw [hst]; exact nofun) hwait
  | @turn x y z hnot hstep _ ih =>
      rw [step_of_ne (by rw [hst]; exact nofun)] at hstep
      simp only [StreamEvent.take, Running.turn, hst, Running.nextRead, hremain, if_false,
        heager.read_none hinbox, Option.map_some, Option.some.injEq] at hstep
      subst hstep
      exact ih hst hremain heager hinbox

/-- Bytes of the value seem to be missing. -/
lemma not_replied_of_remaining
    (hproc : process cfg w.now x.running.conn.comm data = .ok (status, [], r'))
    (hst : r'.curstatus = .CONN_NREAD) (hstatus : toUInt64 status ≠ 0) :
    ¬ Replied cfg w size x data := by
  rintro ⟨z, out, hserves, -⟩
  obtain ⟨rsize, -, hstep⟩ : ∃ rsize, _ ∧ (x.arrive data).step cfg false (.turn w true) = _ :=
    step_arrive hx hne hlen
  simp only [hproc] at hstep
  rw [if_neg (fun hc => hc.2 rfl)] at hstep
  cases hserves with
  | done hwait => exact not_waiting_arrive hne hwait
  | turn _ hstep' hrest =>
      obtain rfl := Option.some.inj (hstep.symm.trans hstep')
      exact not_serves_of_remaining hrest hst hstatus hx.eager hx.waiting.2.2

end Outcomes

/-! ## The commands -/

/-- Nothing is missing of a value, or what is missing happens to be an error code. -/
def Settled (rlbytes len : ℕ) : Prop :=
  toInt32 (rlbytes - len : ℕ) = 0 ∨ errorText (toInt32 (rlbytes - len : ℕ)) ≠ none

/-- **The value of a `set` (`setex`) is taken**: where there are `n` tokens, an admissible key and
`lines` delimiters, there is one more token, the last delimiter is not the last byte, and behind it is
what that token, read as a length line, says. -/
def ValueTaken (n : ℕ) (marks : Str) (lines : ℕ) (data : Str) : Prop :=
  n ≤ (tokens data).length → (argOf (tokens data) 3).length < 250 →
    ∀ pos ∈ headerEnd data marks lines, n < (tokens data).length ∧ pos ≤ data.length ∧
      Settled (lengthOf ((tokens data).getD n [])) (data.length - pos)

/-- An `int` that is not zero is not zero as a size either. -/
lemma toUInt64_toInt32_ne {y : ℤ} (h : toInt32 y ≠ 0) : toUInt64 (toInt32 y) ≠ 0 := by
  have hlt := toInt32_lt y
  have hlo : -2 ^ 31 ≤ toInt32 y := by
    have := Int.le_bmod (x := y) (show 0 < 2 ^ 32 by decide)
    unfold toInt32
    omega
  unfold toUInt64
  omega

section Parsers

variable {name : Str} (hthird : (tokens data)[2]? = some name) (hc : commands name = some c)
include hthird hc

lemma process_of_error {cfg : Config} {now : ℕ} {r : GentRedis} {text : Str}
    (hparse : c.parser cfg now (tokens data) data { r with subc := some c } = .ok (status, r'))
    (htext : errorText status = some text) : process cfg now r data = .ok (0, text, r') := by
  rw [process_eq hthird hc, hparse, ok_bind]
  simp only [htext]
  rfl

lemma process_of_ok {cfg : Config} {now : ℕ} {r : GentRedis}
    (hparse : c.parser cfg now (tokens data) data { r with subc := some c } = .ok (status, r'))
    (htext : errorText status = none) : process cfg now r data = .ok (status, [], r') := by
  rw [process_eq hthird hc, hparse, ok_bind]
  simp only [htext]
  rfl

variable (hx : x.Ready size) (hne : data ≠ []) (hlen : data.length ≤ size)
include hx hne hlen

/-- An error code is answered. -/
lemma replied_of_error
    (hparse : c.parser cfg w.now (tokens data) data { x.running.conn.comm with subc := some c }
      = .ok (status, r')) (herr : errorText status ≠ none) : Replied cfg w size x data := by
  obtain ⟨text, htext⟩ := Option.ne_none_iff_exists'.mp herr
  have hnil : text ≠ [] := by
    rintro rfl
    unfold errorText at htext
    split_ifs at htext <;> exact absurd htext (by decide)
  exact replied_of_rejected hx hne hlen hnil (process_of_error hthird hc hparse htext)

/-- A parser that is content with the request. -/
lemma replied_of_parse (hclient : c ≠ .quit ∧ c ≠ .reply ∧ c ≠ .rep)
    (hparse : c.parser cfg w.now (tokens data) data { x.running.conn.comm with subc := some c }
      = .ok (0, r')) (hst : r'.curstatus = .CONN_DATA ∨ r'.curstatus = .CONN_NREAD)
    (hsub : r'.subc = some c) :
    Replied cfg w size x data ↔
      Runs (c.complete false w x.server { r' with curstatus := .CONN_DATA } []) :=
  replied_iff_runs hx hne hlen (process_of_ok hthird hc hparse (by decide)) hst hsub hclient

/-- The commands with one key. -/
lemma replied_keyed {wrong : ℤ} (hwrong : errorText wrong ≠ none)
    (hclient : c ≠ .quit ∧ c ≠ .reply ∧ c ≠ .rep) (hauth : Authed cfg x.running.conn.comm)
    (hparser : ∀ r, c.parser cfg w.now (tokens data) data r = keyParser wrong cfg (tokens data) r)
    {P : Str → Prop}
    (hcomplete : ∀ r, Runs (c.complete false w x.server r []) ↔ P r.keystr) :
    Replied cfg w size x data ↔ ((tokens data).length = 5 → P (argOf (tokens data) 3)) := by
  have hauth' : Authed cfg { x.running.conn.comm with subc := some c } := hauth
  by_cases hfive : (tokens data).length = 5
  · have hparse : c.parser cfg w.now (tokens data) data { x.running.conn.comm with subc := some c }
        = .ok (0, { x.running.conn.comm with
            subc := some c
            auth := true
            curstatus := .CONN_DATA
            keystr := argOf (tokens data) 3 }) := by
      rw [hparser, keyParser, withAuth_eq hauth', if_neg (not_not.mpr hfive),
        tokenArg_eq (fun t ht => clean_of_mem_tokens ht) (by omega)]
      rfl
    rw [replied_of_parse hthird hc hx hne hlen hclient hparse (Or.inl rfl) rfl, hcomplete]
    exact ⟨fun h _ => h, fun h => h hfive⟩
  · refine iff_of_true ?_ fun h => absurd h hfive
    have hparse : c.parser cfg w.now (tokens data) data { x.running.conn.comm with subc := some c }
        = .ok (wrong, { x.running.conn.comm with subc := some c, auth := true }) := by
      rw [hparser, keyParser, withAuth_eq hauth', if_pos hfive]
      rfl
    exact replied_of_error hthird hc hx hne hlen hparse hwrong

/-- The keys that an `mget` of `num` fields looks up. -/
lemma replied_mget (hcommand : c = .mget) (hauth : Authed cfg x.running.conn.comm) {num : ℕ}
    (hnum : num * 2 + 1 < 2 ^ 31) {first : Str} (hfirst : (tokens data)[0]? = some first)
    (hcount : lengthOf first = num) :
    Replied cfg w size x data ↔
      (5 ≤ (tokens data).length ∧ (tokens data).length = num * 2 + 1 →
        ∀ key ∈ (List.range' 1 (num - 1)).map fun i => argOf (tokens data) (i * 2 + 1),
          ¬ x.server.db.Undecoded key) := by
  subst hcommand
  have hauth' : Authed cfg { x.running.conn.comm with subc := some .mget } := hauth
  by_cases hok : 5 ≤ (tokens data).length ∧ (tokens data).length = num * 2 + 1
  · obtain ⟨r', hparse, hsub, hkeys, hst⟩ :=
      (Request.mget_parser_iff hauth' hnum hfirst hcount).mpr ⟨hok.1, hok.2, rfl⟩
    rw [replied_of_parse hthird hc hx hne hlen ⟨nofun, nofun, nofun⟩ hparse (Or.inl hst) hsub,
      runs_complete_mget]
    exact ⟨fun h _ key hkey => h key (hkeys ▸ hkey), fun h key hkey => h hok key (hkeys ▸ hkey)⟩
  · refine iff_of_true ?_ fun h => absurd h hok
    have hclean : first ≠ [] := (clean_of_mem_tokens (List.mem_of_getElem? hfirst)).1
    have hfield : toInt32 ((num : ℕ) : ℤ) = num := toInt32_of_bounds (by omega) (by omega)
    have htwice : toInt32 ((num : ℤ) * 2 + 1) = num * 2 + 1 :=
      toInt32_of_bounds (by omega) (by omega)
    have hparse : GentProcessMget.parser cfg (tokens data)
        { x.running.conn.comm with subc := some .mget }
          = .ok (-1, { x.running.conn.comm with subc := some .mget, auth := true }) := by
      rw [GentProcessMget.parser, withAuth_eq hauth', elemAt_of_eq_some hfirst, ok_bind,
        getLength_eq hclean, ok_bind, hcount, hfield, mgetKeys, htwice, if_pos (by omega)]
      rfl
    exact replied_of_error hthird hc hx hne hlen hparse (by decide)

/-- `auth`, whose parser leaves the status alone if there is no password. -/
lemma replied_auth (hcommand : c = .auth) :
    Replied cfg w size x data ↔ cfg.auth ≠ [] ∨ (tokens data).length ≠ 5 := by
  subst hcommand
  by_cases hfive : (tokens data).length = 5
  · have harg : tokenArg (tokens data) 3 = .ok (argOf (tokens data) 3) :=
      tokenArg_eq (fun t ht => clean_of_mem_tokens ht) (by omega)
    have hparse : Command.auth.parser cfg w.now (tokens data) data
        { x.running.conn.comm with subc := some .auth }
          = if cfg.auth = [] then
              .ok (0, { x.running.conn.comm with subc := some .auth, auth := true })
            else if argOf (tokens data) 3 ≠ cfg.auth then
              .ok (authFail, { x.running.conn.comm with subc := some .auth })
            else .ok (0, { x.running.conn.comm with subc := some .auth, curstatus := .CONN_DATA }) := by
      show GentProcessAuth.parser cfg (tokens data) _ = _
      rw [GentProcessAuth.parser, if_neg (not_not.mpr hfive), harg, ok_bind]
      split_ifs <;> rfl
    by_cases hopen : cfg.auth = []
    · rw [if_pos hopen] at hparse
      refine iff_of_false ?_ (by simp [hopen, hfive])
      exact not_replied_of_silent hx hne hlen (process_of_ok hthird hc hparse (by decide))
        hx.waiting.1
    · refine iff_of_true ?_ (Or.inl hopen)
      rw [if_neg hopen] at hparse
      by_cases hpw : argOf (tokens data) 3 = cfg.auth
      · rw [if_neg (not_not.mpr hpw)] at hparse
        exact (replied_of_parse hthird hc hx hne hlen ⟨(by simp), (by simp), (by simp)⟩ hparse (Or.inl rfl)
          rfl).mpr (runs_ok _)
      · rw [if_pos hpw] at hparse
        exact replied_of_error hthird hc hx hne hlen hparse (by decide)
  · refine iff_of_true ?_ (Or.inr hfive)
    have hparse : GentProcessAuth.parser cfg (tokens data)
        { x.running.conn.comm with subc := some .auth }
          = .ok (-1, { x.running.conn.comm with subc := some .auth }) := by
      rw [GentProcessAuth.parser, if_pos hfive]
      rfl
    exact replied_of_error hthird hc hx hne hlen hparse (by decide)

/-- `set` and `setex`: behind the header, as much must be there as the length line says. -/
lemma replied_value {n lines : ℕ} {marks : Str} {body : ℕ → GentRedis → Parsed} (hn : 5 ≤ n)
    (hcommand : c = .set ∨ c = .setex) (hauth : Authed cfg x.running.conn.comm)
    (hparser : ∀ r, c.parser cfg w.now (tokens data) data r
      = valueParser n marks lines body cfg (tokens data) data r)
    (hbody : n ≤ (tokens data).length → ∀ pos r, ∃ expire,
      body pos r = takeContent (tokens data) n data pos { r with expire := expire }) :
    Replied cfg w size x data ↔ ValueTaken n marks lines data := by
  have hclient : c ≠ .quit ∧ c ≠ .reply ∧ c ≠ .rep := by
    rcases hcommand with rfl | rfl <;> exact ⟨nofun, nofun, nofun⟩
  have hacts : ∀ r, Runs (c.complete false w x.server r []) := by
    intro r
    rcases hcommand with rfl | rfl
    · exact Command.runs_complete (by simp) (by simp) (by simp) w x.server r
    · exact Command.runs_complete (by simp) (by simp) (by simp) w x.server r
  have hauth' : Authed cfg { x.running.conn.comm with subc := some c } := hauth
  have hv : ∀ t ∈ tokens data, Clean t := fun t ht => clean_of_mem_tokens ht
  have hstart := hparser { x.running.conn.comm with subc := some c }
  rcases valueParser_cases marks lines body data hauth' hv hn with
    ⟨hwhy, code, r', hcode, heq⟩ | ⟨pos, hle, hshort, hend, heq⟩
  · -- It is refused, and told why; the value is not looked at.
    have herr : errorText code ≠ none := by rcases hcode with rfl | rfl <;> decide
    refine iff_of_true (replied_of_error hthird hc hx hne hlen (hstart.trans heq) herr) ?_
    intro hle hshort pos hpos
    rcases hwhy with hnum | hlong | hnone
    · omega
    · omega
    · exact absurd (hnone.symm.trans hpos) nofun
  · rw [heq] at hstart
    have htaken : ValueTaken n marks lines data ↔ n < (tokens data).length ∧ pos ≤ data.length ∧
        Settled (lengthOf ((tokens data).getD n [])) (data.length - pos) := by
      constructor
      · intro h
        exact h hle hshort pos hend
      · intro h _ _ pos' hpos'
        obtain rfl := Option.some.inj (hend.symm.trans hpos')
        exact h
    obtain ⟨expire, hexpire⟩ := hbody hle pos { x.running.conn.comm with
      subc := some c, auth := true, curstatus := .CONN_NREAD, keystr := argOf (tokens data) 3 }
    rw [htaken]
    replace hstart := hstart.trans hexpire
    by_cases hsafe : n < (tokens data).length ∧ pos ≤ data.length
    · obtain ⟨hlt, hpos⟩ := hsafe
      have hline : (tokens data)[n]? = some ((tokens data).getD n []) := by
        simp [List.getD, hlt]
      rw [takeContent_take hline (hv _ (List.mem_of_getElem? hline)).1 hpos rfl,
        List.length_drop] at hstart
      by_cases hsettled : Settled (lengthOf ((tokens data).getD n [])) (data.length - pos)
      · refine iff_of_true ?_ ⟨hlt, hpos, hsettled⟩
        rcases hsettled with hzero | herr
        · rw [hzero] at hstart
          exact (replied_of_parse hthird hc hx hne hlen hclient hstart (Or.inr rfl) rfl).mpr
            (hacts _)
        · exact replied_of_error hthird hc hx hne hlen hstart herr
      · refine iff_of_false ?_ fun h => hsettled h.2.2
        have htext := not_or.mp hsettled
        exact not_replied_of_remaining hx hne hlen
          (process_of_ok hthird hc hstart (not_not.mp htext.2)) rfl (toUInt64_toInt32_ne htext.1)
    · refine iff_of_false ?_ fun h => hsafe ⟨h.1, h.2.1⟩
      have hfault : ¬ Runs (takeContent (tokens data) n data pos { x.running.conn.comm with
          subc := some c, auth := true, curstatus := .CONN_NREAD,
          keystr := argOf (tokens data) 3, expire := expire }) :=
        fun hruns => hsafe ((runs_takeContent hv _).mp hruns)
      cases hres : c.parser cfg w.now (tokens data) data
          { x.running.conn.comm with subc := some c } with
      | ok res => exact absurd ⟨res, hstart.symm.trans hres⟩ hfault
      | error f =>
          refine not_replied_of_fault hx hne hlen (f := f) ?_
          rw [process_eq hthird hc, hres]
          rfl

/-- The commands whose parser cannot miss anything. -/
lemma replied_plain (hcommand : c = .randomkey ∨ c = .ping ∨ c = .info ∨ c = .slave)
    (hauth : Authed cfg x.running.conn.comm) : Replied cfg w size x data := by
  have hauth' : Authed cfg { x.running.conn.comm with subc := some c } := hauth
  have hv : ∀ t ∈ tokens data, Clean t := fun t ht => clean_of_mem_tokens ht
  have hclient : c ≠ .quit ∧ c ≠ .reply ∧ c ≠ .rep := by
    rcases hcommand with rfl | rfl | rfl | rfl <;> exact ⟨nofun, nofun, nofun⟩
  have hacts : ∀ r, Runs (c.complete false w x.server r []) := by
    intro r
    refine Command.runs_complete ?_ ?_ hclient.2.2 w x.server r
    · rcases hcommand with rfl | rfl | rfl | rfl <;> simp
    · rcases hcommand with rfl | rfl | rfl | rfl <;> simp
  suffices h : ∃ st r', c.parser cfg w.now (tokens data) data
      { x.running.conn.comm with subc := some c } = .ok (st, r') ∧
      (errorText st ≠ none ∨ st = 0 ∧ r'.curstatus = .CONN_DATA ∧ r'.subc = some c) by
    obtain ⟨st, r', hparse, herr | ⟨rfl, hst, hsub⟩⟩ := h
    · exact replied_of_error hthird hc hx hne hlen hparse herr
    · exact (replied_of_parse hthird hc hx hne hlen hclient hparse (Or.inl hst) hsub).mpr (hacts _)
  rcases hcommand with rfl | rfl | rfl | rfl
  · show ∃ st r', plainParser cfg _ = .ok (st, r') ∧ _
    rw [plainParser, withAuth_eq hauth']
    exact ⟨0, _, rfl, Or.inr ⟨rfl, rfl, rfl⟩⟩
  · show ∃ st r', plainParser cfg _ = .ok (st, r') ∧ _
    rw [plainParser, withAuth_eq hauth']
    exact ⟨0, _, rfl, Or.inr ⟨rfl, rfl, rfl⟩⟩
  · show ∃ st r', GentProcessInfo.parser cfg (tokens data) _ = .ok (st, r') ∧ _
    rw [GentProcessInfo.parser, withAuth_eq hauth']
    by_cases hnum : 5 ≤ (tokens data).length
    · rw [if_pos hnum, tokenArg_eq hv (by omega)]
      exact ⟨0, _, rfl, Or.inr ⟨rfl, rfl, rfl⟩⟩
    · rw [if_neg hnum]
      exact ⟨0, _, rfl, Or.inr ⟨rfl, rfl, rfl⟩⟩
  · show ∃ st r', GentProcessSlave.parser cfg (tokens data) _ = .ok (st, r') ∧ _
    rw [GentProcessSlave.parser, withAuth_eq hauth']
    by_cases hnum : (tokens data).length = 7
    · rw [if_neg (not_not.mpr hnum), tokenArg_eq hv (by omega), ok_bind, tokenArg_eq hv (by omega)]
      split_ifs
      · exact ⟨-1, _, rfl, Or.inl (by decide)⟩
      · exact ⟨0, _, rfl, Or.inr ⟨rfl, rfl, rfl⟩⟩
    · rw [if_pos hnum]
      exact ⟨-1, _, rfl, Or.inl (by decide)⟩

end Parsers

/-! ## `mset` -/

/-- Arguments that are even in number are pairs. -/
lemma exists_pairs : ∀ args : List Str, args.length % 2 = 0 →
    ∃ pairs : List (Str × Str), args = pairs.flatMap fun kv => [kv.1, kv.2]
  | [], _ => ⟨[], rfl⟩
  | [_], h => absurd h (by simp)
  | key :: value :: args, h => by
      obtain ⟨pairs, rfl⟩ := exists_pairs args (by simp only [List.length_cons] at h; omega)
      exact ⟨(key, value) :: pairs, rfl⟩

lemma replied_mset (hx : x.Ready size) (hauth : Authed cfg x.running.conn.comm)
    (hidle : x.running.conn.comm.mdata.Idle) {name : Str} {args : List Str}
    (hc : commands name = some .mset) (hshort : (encode (name :: args)).length < 2 ^ 31)
    (hne : encode (name :: args) ≠ []) (hlen : (encode (name :: args)).length ≤ size) :
    Replied cfg w size x (encode (name :: args)) := by
  have hnum : (name :: args).length * 2 + 1 < 2 ^ 31 := length_of_encode hshort
  rw [List.length_cons] at hnum
  by_cases heven : args.length % 2 = 0
  · obtain ⟨pairs, rfl⟩ := exists_pairs args heven
    obtain ⟨r', hproc, hsub, hst⟩ : ∃ r', process cfg w.now x.running.conn.comm
        ((ClientRequest.of (.mset pairs)).bytes name) = .ok (0, [], r') ∧ r'.subc = some .mset ∧ _ :=
      ClientRequest.process_bytes hauth hidle hc ⟨hshort, trivial⟩ nofun
    exact (replied_iff_runs hx hne hlen hproc hst hsub ⟨nofun, nofun, nofun⟩).mpr
      (Command.runs_complete (by simp) (by simp) (by simp) _ _ _)
  · -- an odd number of arguments is noticed before anything else
    obtain ⟨hfirst, hthird⟩ : (tokens (encode (name :: args)))[0]? = _ ∧ _ := tokens_front hc
    have hthree : ¬ (tokens (encode (name :: args))).length < 3 := by
      have := (List.getElem?_eq_some_iff.mp hthird).1
      omega
    have hcount : substrFrom (countLine (name :: args)) 1 = .ok (decimal (args.length + 1)) :=
      substrFrom_of_le (show 1 ≤ (42 :: decimal (args.length + 1)).length by simp)
    have hodd : (toInt32 (atoi (decimal (args.length + 1)) - 1)).tmod 2 ≠ 0 := by
      rw [atoi_decimal (by omega), toInt32_of_bounds (by omega) (by omega),
        Int.tmod_eq_emod_of_nonneg (by omega)]
      omega
    have hauth' : Authed cfg { x.running.conn.comm with subc := some .mset } := hauth
    have hparse : GentProcessMset.parser cfg (tokens (encode (name :: args)))
        (encode (name :: args)) { x.running.conn.comm with subc := some .mset }
          = .ok (-1, { x.running.conn.comm with
              subc := some .mset, auth := true, curstatus := .CONN_NREAD }) := by
      rw [GentProcessMset.parser, withAuth_eq hauth']
      dsimp only
      rw [if_neg hthree, elemAt_of_eq_some hfirst, ok_bind, hcount, ok_bind, if_pos hodd]
      rfl
    exact replied_of_error hthird hc hx hne hlen hparse (by decide)

/-! ## Every request -/

/-- The keys that a command of `num` fields looks up, in the tokens of the request. -/
def looked (num : ℕ) (v : List Str) : Command → List Str
  | .get | .ttl | .del | .keyExists => if v.length = 5 then [argOf v 3] else []
  | .mget =>
      if 5 ≤ v.length ∧ v.length = num * 2 + 1 then
        (List.range' 1 (num - 1)).map fun i => argOf v (i * 2 + 1)
      else []
  | _ => []

/-- **The request is replied to**: for an `auth`, if there is a password to compare with.  A client
that has not given it is told so.  For any other, what is looked up can be decoded, and the value of a
`set` or `setex` is taken. -/
def Replies (cfg : Config) (sv : Server) (r : GentRedis) (num : ℕ) (data : Str) (c : Command) : Prop :=
  if c = .auth then cfg.auth ≠ [] ∨ (tokens data).length ≠ 5
  else Authed cfg r → (∀ key ∈ looked num (tokens data) c, ¬ sv.db.Undecoded key) ∧
    (c = .set → ValueTaken 5 (lit "*3") 6 data) ∧ (c = .setex → ValueTaken 7 (lit "*4") 8 data)

/-- **Which requests get their one reply.**  The arguments are any, and any number of them. -/
theorem replied_iff (cfg : Config) (w : World) (size : ℕ) (x : Session) (name : Str)
    (args : List Str) (c : Command) (hx : x.Ready size) (hidle : x.running.conn.comm.mdata.Idle)
    (hc : commands name = some c) (hclient : c ≠ .quit ∧ c ≠ .reply ∧ c ≠ .rep)
    (hshort : (encode (name :: args)).length < 2 ^ 31)
    (hlen : (encode (name :: args)).length ≤ size) :
    Replied cfg w size x (encode (name :: args)) ↔
      Replies cfg x.server x.running.conn.comm (args.length + 1) (encode (name :: args)) c := by
  have hne : encode (name :: args) ≠ [] := List.cons_ne_nil _ _
  obtain ⟨hfirst, hthird⟩ : (tokens (encode (name :: args)))[0]? = _ ∧ _ := tokens_front hc
  unfold Replies
  by_cases hcauth : c = .auth
  · rw [if_pos hcauth]
    exact replied_auth hthird hc hx hne hlen hcauth
  rw [if_neg hcauth]
  by_cases hauth : Authed cfg x.running.conn.comm
  · rw [forall_prop_of_true hauth]
    by_cases hmset : c = .mset
    · subst hmset
      exact iff_of_true (replied_mset hx hauth hidle hc hshort hne hlen)
        ⟨by simp [looked], nofun, nofun⟩
    have hkeyed : ∀ {P : Prop}, (c = .get ∨ c = .ttl ∨ c = .del ∨ c = .keyExists) →
        (∀ r, c.parser cfg w.now (tokens (encode (name :: args))) (encode (name :: args)) r
          = keyParser (-1) cfg (tokens (encode (name :: args))) r) →
        (((tokens (encode (name :: args))).length = 5 →
          ¬ x.server.db.Undecoded (argOf (tokens (encode (name :: args))) 3)) ↔ P) →
        (Replied cfg w size x (encode (name :: args)) ↔ P) := by
      intro P hkey hparser hP
      have hwrong : errorText (-1) ≠ none := by decide
      exact (replied_keyed hthird hc hx hne hlen hwrong hclient hauth hparser
        (P := fun key => ¬ x.server.db.Undecoded key)
        fun r => Command.runs_complete_key hkey w x.server r).trans hP
    cases c with
    | get => exact hkeyed (by simp) (fun _ => rfl) (by simp [looked])
    | ttl => exact hkeyed (by simp) (fun _ => rfl) (by simp [looked])
    | del => exact hkeyed (by simp) (fun _ => rfl) (by simp [looked])
    | keyExists => exact hkeyed (by simp) (fun _ => rfl) (by simp [looked])
    | keys =>
        have hwrong : errorText (-2) ≠ none := by decide
        refine (replied_keyed hthird hc hx hne hlen hwrong hclient hauth (fun _ => rfl)
          (P := fun _ => True) fun r => iff_of_true
            (Command.runs_complete (by simp) (by simp) (by simp) w x.server r) trivial).trans ?_
        simp [looked]
    | mget =>
        have hnum : (args.length + 1) * 2 + 1 < 2 ^ 31 := length_of_encode hshort
        have hcount : lengthOf (countLine (name :: args)) = args.length + 1 := by
          show toUInt64 (atoi (decimal _)) = _
          rw [atoi_decimal (by simp only [List.length_cons]; omega), toUInt64_natCast (by
            simp only [List.length_cons]; omega), List.length_cons]
        rw [replied_mget hthird hc hx hne hlen rfl hauth hnum hfirst hcount]
        simp only [looked]
        split_ifs with hok
        · exact ⟨fun h => ⟨h hok, nofun, nofun⟩, fun h _ => h.1⟩
        · exact iff_of_true (fun h => absurd h hok) ⟨by simp, nofun, nofun⟩
    | set =>
        rw [replied_value hthird hc hx hne hlen le_rfl (Or.inl rfl) hauth (fun _ => rfl)
          fun _ _ r => ⟨r.expire, rfl⟩]
        simp [looked]
    | setex =>
        rw [replied_value hthird hc hx hne hlen (by decide) (Or.inr rfl) hauth (fun _ => rfl)
          fun hle pos r => ⟨_, by
            rw [takeExpire, elemAt_of_lt (show 6 < (tokens (encode (name :: args))).length by omega)]
            rfl⟩]
        simp [looked]
    | mset => exact absurd rfl hmset
    | auth => exact absurd rfl hcauth
    | quit => exact absurd rfl hclient.1
    | reply => exact absurd rfl hclient.2.1
    | rep => exact absurd rfl hclient.2.2
    | randomkey =>
        exact iff_of_true (replied_plain hthird hc hx hne hlen (by simp) hauth) (by simp [looked])
    | ping =>
        exact iff_of_true (replied_plain hthird hc hx hne hlen (by simp) hauth) (by simp [looked])
    | info =>
        exact iff_of_true (replied_plain hthird hc hx hne hlen (by simp) hauth) (by simp [looked])
    | slave =>
        exact iff_of_true (replied_plain hthird hc hx hne hlen (by simp) hauth) (by simp [looked])
  · -- whoever has to give a password is told so
    refine iff_of_true ?_ fun h => absurd h hauth
    obtain ⟨hr, hcfg⟩ := not_or.mp hauth
    have hrefuse : c.parser cfg w.now (tokens (encode (name :: args))) (encode (name :: args))
        { x.running.conn.comm with subc := some c } = .ok (authReqFail, _) :=
      parser_refuses (r := { x.running.conn.comm with subc := some c })
        ⟨hcauth, hclient.1, hclient.2.2⟩ hcfg (Bool.eq_false_of_not_eq_true hr) _
    exact replied_of_error hthird hc hx hne hlen hrefuse (by decide)

theorem replied_iff_ping :
    Replied openConfig quietWorld 100 (ClientRequest.readySession 100)
      (encode [lit "ping"]) :=
  (replied_iff openConfig quietWorld 100 (ClientRequest.readySession 100) (lit "ping") [] .ping
    (ClientRequest.ready_readySession 100) ⟨rfl, rfl⟩ rfl ⟨nofun, nofun, nofun⟩ (by decide)
    (by decide)).mpr
    fun _ => ⟨fun key hkey => absurd hkey (List.not_mem_nil (a := key)), nofun, nofun⟩

/-- **An `auth` on a server without a password gets no reply.** -/
theorem replied_swallowed :
    ¬ Replied openConfig quietWorld 100 (ClientRequest.readySession 100)
      (encode [lit "auth", lit "secret"]) := by
  have hc : commands (lit "auth") = some .auth := rfl
  have hfive : (tokens (encode [lit "auth", lit "secret"])).length = 5 := by decide
  intro h
  have hreply := (replied_auth (tokens_front hc).2 hc (ClientRequest.ready_readySession 100) (by decide)
    (by decide) rfl).mp h
  exact hreply.elim (fun hopen => hopen rfl) fun hnum => hnum hfive

end Session

end Riser
