import Riser.Connect.Serve
import Riser.Redis.Pieces
import Riser.Store.Refinement

/-!
# Where a request may be cut

What arrives on a connection may be cut anywhere into reads.  Nothing is kept of what a read has brought,
unless it is a `SET`, `SETEX` or `MSET` whose header was complete: an error is answered, or the bytes are
dropped, and the next read starts anew.

`cuts_iff` has the boundaries that do no harm, for the header of every kind of request:

* behind the first byte, if the parser does not look at the number of arguments.  The `*` alone has no
  token and is dropped, and nobody misses it;
* in front of the last byte, if the request has no second stage.  It has no token either;
* inside the number in the first line of an `MSET`, if what is left of the number makes the server store
  the same (`Harmless`): the pairs that are not counted any more are those that other ones overwrite.

At any other place the client gets an error, or nothing, or the server stops; or a part of the pairs is
stored.
-/

namespace Riser

open Cpp

/-! ## Cuts -/

/-- The pieces make up the bytes, none is empty, and they end at positions in `S`. -/
structure IsCut (S : ℕ → Prop) (data : Str) (pieces : List Str) : Prop where
  flatten : pieces.flatten = data
  nonempty : [] ∉ pieces
  boundary : ∀ pre post, pieces = pre ++ post → pre ≠ [] → post ≠ [] → S pre.flatten.length

namespace IsCut

variable {S : ℕ → Prop} {data c c' : Str} {pieces : List Str}

lemma head_ne_nil (h : IsCut S data (c :: pieces)) : c ≠ [] := by
  rintro rfl
  exact h.nonempty (by simp)

lemma head_eq (h : IsCut S data (c :: pieces)) : c = data.take c.length := by
  rw [← h.flatten, List.flatten_cons, List.take_left]

/-- The rest is a cut, too. -/
lemma tail (h : IsCut S data (c :: c' :: pieces)) :
    S c.length ∧ IsCut (fun p => S (c.length + p)) (data.drop c.length) (c' :: pieces) := by
  refine ⟨?_, ?_, fun hmem => h.nonempty (List.mem_cons_of_mem _ hmem), ?_⟩
  · have hp := h.boundary [c] (c' :: pieces) rfl (by simp) (by simp)
    rwa [List.flatten_cons, List.flatten_nil, List.append_nil] at hp
  · show (c' :: pieces).flatten = _
    rw [← h.flatten, List.flatten_cons (l := c), List.drop_left]
  · intro pre post heq hpre hpost
    have hp := h.boundary (c :: pre) post (by rw [heq]; rfl) (by simp) hpost
    rwa [List.flatten_cons, List.length_append] at hp

end IsCut

namespace Session

variable {cfg : Config} {w : World} {sv sv' : Server} {r : GentRedis} {B out : Str} {S : ℕ → Prop}
  {size m : ℕ}

/-- **Harmless cuts, one by one.**  Pieces of the first line are dropped; then comes what is taken for the
whole; and then, maybe, a byte that is dropped. -/
lemma delivers_of_cut (hlen : B.length ≤ size) (hmB : m ≤ B.length) (hm : NoDelim (B.take m))
    (hwhole : ∀ k, k = 0 ∨ S k ∧ k < m → answer cfg w sv r (B.drop k) = some (out, sv'))
    (hS : ∀ p, S p → p < m ∨ p + 1 = B.length ∧ B.drop p = [10] ∧
      ∀ k, k = 0 ∨ S k ∧ k < m → answer cfg w sv r (B.drop k).dropLast = some (out, sv')) :
    ∀ (pieces : List Str) (k : ℕ) (x : Session), k = 0 ∨ S k ∧ k < m → k < B.length →
      IsCut (fun p => S (k + p)) (B.drop k) pieces → x.Ready size → x.server = sv →
      x.running.conn.comm = r →
      ∃ z, Delivers cfg w pieces x z ∧ z.server = sv' ∧
        z.running.sock.outbox = x.running.sock.outbox ++ out.map some
  | [], k, x, _, hk, hcut, _, _, _ => by
      have hnil := congrArg List.length hcut.flatten
      rw [List.flatten_nil, List.length_nil, List.length_drop] at hnil
      omega
  | [c], k, x, hfront, hk, hcut, hx, hsv, hcomm => by
      have hc : c = B.drop k := by
        have hflat := hcut.flatten
        rwa [List.flatten_cons, List.flatten_nil, List.append_nil] at hflat
      have hle : c.length ≤ size := by
        rw [hc, List.length_drop]
        omega
      obtain ⟨z, hz, -, hserver, hbox⟩ := serves_of_answer hx hcut.head_ne_nil hle
        (by rw [hsv, hcomm, hc]; exact hwhole k hfront)
      exact ⟨z, ⟨z, hz, rfl⟩, hserver, hbox⟩
  | c :: c' :: pieces, k, x, hfront, hk, hcut, hx, hsv, hcomm => by
      obtain ⟨hp, htail⟩ := hcut.tail
      have hc := hcut.head_eq
      have hclen : k + c.length ≤ B.length := by
        have := congrArg List.length hc
        rw [List.length_take, List.length_drop] at this
        omega
      rw [List.drop_drop] at htail
      simp only [← Nat.add_assoc] at htail
      rcases hS _ hp with hlt | ⟨hlast, hbyte, hans⟩
      · -- the piece is in the first line
        have hclean : NoDelim c := by
          intro b hb
          rw [hc, show c.length = k + c.length - k by omega, ← List.drop_take,
            show k + c.length = min (k + c.length) m by omega, ← List.take_take] at hb
          exact hm b (List.mem_of_mem_take (List.mem_of_mem_drop hb))
        obtain ⟨y, hy, hready, hserver, hbox, hsame⟩ :=
          serves_silent hx hcut.head_ne_nil (by omega) (tokens_of_clean hclean)
        obtain ⟨z, hz, hzserver, hzbox⟩ := delivers_of_cut hlen hmB hm hwhole hS (c' :: pieces)
          (k + c.length) y (Or.inr ⟨hp, hlt⟩) (by omega) htail hready (hserver.trans hsv)
          (hsame.trans hcomm)
        exact ⟨z, ⟨y, hy, hz⟩, hzserver, by rw [hzbox, hbox]⟩
      · -- all but the last byte
        have hc' : c = (B.drop k).dropLast := by
          rw [List.dropLast_eq_take, List.length_drop, show B.length - k - 1 = c.length by omega]
          exact hc
        obtain ⟨y, hy, hready, hserver, hbox⟩ := serves_of_answer hx hcut.head_ne_nil (by omega)
          (by rw [hsv, hcomm, hc']; exact hans k hfront)
        have hflat : c' ++ pieces.flatten = [10] := by
          rw [← List.flatten_cons, htail.flatten, hbyte]
        obtain ⟨rfl, hnil⟩ : c' = [10] ∧ pieces.flatten = [] := by
          rcases List.append_eq_singleton_iff.mp hflat with ⟨hnil, -⟩ | h
          · exact absurd hnil htail.head_ne_nil
          · exact h
        obtain rfl : pieces = [] := by
          cases pieces with
          | nil => rfl
          | cons d pieces =>
              rw [List.flatten_cons, List.append_eq_nil_iff] at hnil
              exact absurd (by simp [hnil.1]) htail.nonempty
        obtain ⟨z, hz, -, hzserver, hzbox, -⟩ := serves_silent hready (List.cons_ne_nil 10 [])
          (show 1 ≤ size by omega) rfl
        exact ⟨z, ⟨y, hy, z, hz, rfl⟩, hzserver.trans hserver, by rw [hzbox, hbox]⟩

/-- The answer is that of the command. -/
lemma answer_complete {data : Str} {r' r'' : GentRedis} (hproc : process cfg w.now r data = .ok (0, [], r'))
    (hst : r'.curstatus = .CONN_DATA ∨ r'.curstatus = .CONN_NREAD)
    (hcomplete : complete false w sv { r' with curstatus := .CONN_DATA } [] = .ok (out, r'', sv'))
    (hout : out ≠ []) : answer cfg w sv r data = some (out, sv') := by
  have hread : ¬ (r'.curstatus = .CONN_READ ∨ r'.curstatus = .CONN_WAIT) := by
    rcases hst with hst | hst <;> rw [hst] <;> exact nofun
  simp only [answer, react, hproc, hcomplete]
  rw [if_neg (not_not.mpr rfl), if_neg hread, if_pos (hst.imp_right fun h => ⟨h, trivial⟩),
    if_pos (Or.inl hout), Option.map_some]

/-- Only what `Process` makes of the bytes matters. -/
lemma answer_congr {data data' : Str} (h : process cfg w.now r data = process cfg w.now r data') :
    answer cfg w sv r data = answer cfg w sv r data' := by
  simp only [answer, react, h]

/-- The answer to an `mset` of these pairs. -/
def msetAnswer (w : World) (sv : Server) (keys_values : LevelDb) : Str × Server :=
  let res := sv.db.batchPut w.okDb w.okMeta w.now keys_values
  if res.2 then (lit "+OK\r\n", { sv with db := res.1 }.push w .ADD keys_values.keys)
  else (lit "-ERR NOT_STORED\r\n", { sv with db := res.1 })

lemma answer_mset {data : Str} {r' : GentRedis} (hproc : process cfg w.now r data = .ok (0, [], r'))
    (hsub : r'.subc = some .mset) (hst : r'.curstatus = .CONN_NREAD) :
    answer cfg w sv r data = some (msetAnswer w sv r'.mdata.keys_values) := by
  have hcomplete : Command.mset.complete false w sv { r' with curstatus := .CONN_DATA } []
      = .ok ((msetAnswer w sv r'.mdata.keys_values).1,
          { r' with curstatus := .CONN_DATA, mdata := { r'.mdata with keys_values := ∅ } },
          (msetAnswer w sv r'.mdata.keys_values).2) := by
    simp only [Command.complete, GentProcessMset.complete, msetAnswer]
    split_ifs
    · rfl
    · rfl
  have hne := Command.complete_ne_nil (c := .mset) ⟨(by simp), (by simp), (by simp)⟩ hcomplete
  rw [← complete_eq (r := { r' with curstatus := .CONN_DATA }) hsub] at hcomplete
  exact answer_complete hproc (Or.inr hst) hcomplete hne

end Session

/-! ## Requests -/

namespace ClientRequest

variable {cfg : Config} {w : World} {sv : Server} {r : GentRedis} {name : Str} {q : ClientRequest} {p : ℕ}

/-- What the pairs of an `mset` amount to. -/
def stored (pairs : List (Str × Str)) : LevelDb := pairs.foldl (fun d kv => d.insert kv.1 kv.2) ∅

/-- **The boundaries that do no harm.** -/
def Harmless (name : Str) (p : ℕ) : ClientRequest → Prop
  | of (.set _ _) => p = 1
  | of (.setex _ _ _) => p = 1
  | of (.mset pairs) =>
      ∃ n, digitsVal ((decimal (2 * pairs.length + 1)).drop p) = 2 * n + 1 ∧
        stored (pairs.take n) = stored pairs
  | of (.mget keys) => p + 1 = ((of (.mget keys)).bytes name).length
  | q => p = 1 ∨ p + 1 = (q.bytes name).length

/-- **The cut makes no difference**: from an idle and authenticated connection, whatever the request
leads to in one read, it leads to in these pieces, in what is answered and in what is stored. -/
def Same (cfg : Config) (name : Str) (q : ClientRequest) (pieces : List Str) : Prop :=
  ∀ (w : World) (x z : Session), x.Ready (q.bytes name).length → Authed cfg x.running.conn.comm →
    x.running.conn.comm.mdata.Idle → x.running.conn.comm.mdata.keys_values = ∅ →
    Session.Delivers cfg w [q.bytes name] x z →
    ∃ z', Session.Delivers cfg w pieces x z' ∧
      z'.running.sock.outbox = z.running.sock.outbox ∧ z'.server.db = z.server.db

/-- A request of a client is answered. -/
lemma command_ne (q : ClientRequest) :
    q.command ≠ .quit ∧ q.command ≠ .reply ∧ q.command ≠ .rep := by
  cases q with
  | ping => exact ⟨nofun, nofun, nofun⟩
  | slave id => exact ⟨nofun, nofun, nofun⟩
  | of q =>
      cases q with
      | keyed c key => cases c <;> exact ⟨nofun, nofun, nofun⟩
      | auth password => exact ⟨nofun, nofun, nofun⟩
      | set key value => exact ⟨nofun, nofun, nofun⟩
      | setex key seconds value => exact ⟨nofun, nofun, nofun⟩
      | mset pairs => exact ⟨nofun, nofun, nofun⟩
      | mget keys => exact ⟨nofun, nofun, nofun⟩

/-- What `answer` tells of the request is all there is to tell. -/
lemma told (hauth : Authed cfg r) (hidle : r.mdata.Idle) (hread : r.curstatus = .CONN_READ)
    (hname : commands name = some q.command) (hwf : q.WellFormed name) :
    Session.Told cfg w sv r (q.bytes name) := by
  have hanswer : ∀ {r' : GentRedis}, r'.subc = some q.command →
      ∀ {out : Str} {r'' : GentRedis} {sv' : Server},
        complete false w sv { r' with curstatus := .CONN_DATA } [] = .ok (out, r'', sv') → out ≠ [] := by
    intro r' hsub out r'' sv' hcomplete
    rw [complete_eq (r := { r' with curstatus := .CONN_DATA }) hsub] at hcomplete
    exact Command.complete_ne_nil q.command_ne hcomplete
  intro status outstr r' hproc
  by_cases hq : ∃ password, q = of (.auth password)
  · obtain ⟨password, rfl⟩ := hq
    rw [process_auth hname hwf, Except.ok.injEq] at hproc
    split_ifs at hproc
    · obtain ⟨rfl, hrest⟩ := Prod.mk.inj hproc
      obtain ⟨rfl, rfl⟩ := Prod.mk.inj hrest
      exact Or.inr (Or.inl hread)
    · obtain ⟨rfl, hrest⟩ := Prod.mk.inj hproc
      obtain ⟨rfl, rfl⟩ := Prod.mk.inj hrest
      exact Or.inr (Or.inr ⟨Or.inl rfl, hanswer rfl⟩)
    · obtain ⟨rfl, hrest⟩ := Prod.mk.inj hproc
      obtain ⟨rfl, rfl⟩ := Prod.mk.inj hrest
      exact Or.inl (by decide)
  · obtain ⟨r₁, hproc₁, hsub, hst⟩ := process_bytes hauth hidle hname hwf
      fun password h => hq ⟨password, h⟩
    rw [hproc₁] at hproc
    obtain ⟨rfl, hrest⟩ := Prod.mk.inj (Except.ok.inj hproc)
    obtain ⟨rfl, rfl⟩ := Prod.mk.inj hrest
    exact Or.inr (Or.inr ⟨hst.imp_right fun h => ⟨h, rfl⟩, hanswer hsub⟩)

/-! ## Harmless cuts -/

lemma bytes_drop (hp : p ≤ (q.first name).length) :
    (q.bytes name).drop p = q.withFirst name ((q.first name).drop p) := by
  rw [bytes_eq, withFirst, withFirst, flatMap_crlf_cons, flatMap_crlf_cons, List.append_assoc,
    List.append_assoc, List.drop_append_of_le_length hp]

lemma clean_drop_first (hp : p < (q.first name).length) : Clean ((q.first name).drop p) := by
  refine ⟨?_, fun b hb => (clean_first name q).2 b (List.mem_of_mem_drop hb)⟩
  rw [ne_eq, List.drop_eq_nil_iff]
  omega

lemma noDelim_take_first : NoDelim ((q.bytes name).take (q.first name).length) := by
  rw [bytes_eq, withFirst, flatMap_crlf_cons, List.append_assoc, List.take_left]
  exact (clean_first name q).2

lemma length_first_lt (name : Str) (q : ClientRequest) :
    (q.first name).length + 2 ≤ (q.bytes name).length := by
  rw [bytes_eq, withFirst, flatMap_crlf_cons, List.append_assoc, List.length_append]
  simp only [List.cons_append, List.length_cons]
  omega

/-- The number that is left of the first line of an `mset`. -/
lemma atoi_drop_first {pairs : List (Str × Str)} (hwf : (of (.mset pairs)).WellFormed name) (p : ℕ) :
    atoi ((((of (.mset pairs)).first name).drop p).drop 1)
      = digitsVal ((decimal (2 * pairs.length + 1)).drop p) := by
  have hdrop : (((of (.mset pairs)).first name).drop p).drop 1
      = (decimal (2 * pairs.length + 1)).drop p := by
    rw [List.drop_drop, ← length_mset_args]
    rfl
  rw [hdrop, atoi_drop_decimal (atoi_first hwf).1]

/-- It is less than it was. -/
lemma digitsVal_drop_pairs (pairs : List (Str × Str)) {n : ℕ} (hp : 0 < p)
    (hn : digitsVal ((decimal (2 * pairs.length + 1)).drop p) = 2 * n + 1) : n ≤ pairs.length := by
  have := digitsVal_drop_lt (show 0 < 2 * pairs.length + 1 by omega) hp
  omega

/-- **What is left behind a harmless boundary in the first line** is answered like the whole. -/
lemma answer_front (hauth : Authed cfg r) (hidle : r.mdata.Idle) (hnone : r.mdata.keys_values = ∅)
    (hname : commands name = some q.command) (hwf : q.WellFormed name) (hp : 0 < p)
    (hlt : p < (q.first name).length) (hharm : q.Harmless name p) :
    Session.answer cfg w sv r ((q.bytes name).drop p) = Session.answer cfg w sv r (q.bytes name) := by
  have hclean := clean_drop_first hlt
  have hshort := length_first_lt name q
  have hblind : q.Blind → Session.answer cfg w sv r ((q.bytes name).drop p)
      = Session.answer cfg w sv r (q.bytes name) := by
    intro hblind
    have htok := tokens_oneStage hname hwf hblind.oneStage hclean
    rw [← bytes_drop hlt.le] at htok
    exact Session.answer_congr (process_congr hname hblind.oneStage (Or.inr hblind) htok
      (tokens_bytes hname hwf hblind.oneStage))
  cases q with
  | ping => exact hblind trivial
  | slave id => exact hblind trivial
  | of q =>
      cases q with
      | keyed c key => exact hblind trivial
      | auth password => exact hblind trivial
      | set key value =>
          obtain rfl : p = 1 := hharm
          have hdigit : ((of (.set key value)).first name).drop 1 = [51] :=
            show decimal [name, key, value].length = [51] from (by decide : decimal 3 = [51])
          refine Session.answer_congr ?_
          rw [bytes_drop hlt.le, bytes_eq, process_set hauth hname hwf hclean ⟨51, _, hdigit, by decide⟩,
            process_set hauth hname hwf (clean_first name _) ⟨42, _, rfl, by decide⟩]
      | setex key seconds value =>
          obtain rfl : p = 1 := hharm
          have hdigit : ((of (.setex key seconds value)).first name).drop 1 = [52] :=
            show decimal [name, key, decimalInt seconds, value].length = [52] from
              (by decide : decimal 4 = [52])
          refine Session.answer_congr ?_
          rw [bytes_drop hlt.le, bytes_eq,
            process_setex hauth hname hwf hclean ⟨52, _, hdigit, by decide⟩,
            process_setex hauth hname hwf (clean_first name _) ⟨42, _, rfl, by decide⟩]
      | mset pairs =>
          obtain ⟨n, hn, hstored⟩ := hharm
          have hnum := atoi_drop_first hwf p
          rw [hn] at hnum
          obtain ⟨r₁, hproc₁, hsub₁, hst₁, hkv₁⟩ : ∃ r', process cfg w.now r _ = .ok (0, [], r') ∧ _ :=
            process_mset hauth hidle hname hwf hclean (digitsVal_drop_pairs pairs hp hn)
              (by rw [hnum]; push_cast; rfl)
          obtain ⟨r₂, hproc₂, hsub₂, hst₂, hkv₂⟩ : ∃ r', process cfg w.now r _ = .ok (0, [], r') ∧ _ :=
            process_mset hauth hidle hname hwf (clean_first name _) le_rfl (atoi_first hwf).2
          rw [List.take_length] at hkv₂
          rw [← bytes_drop hlt.le] at hproc₁
          rw [← bytes_eq] at hproc₂
          rw [Session.answer_mset hproc₁ hsub₁ hst₁, Session.answer_mset hproc₂ hsub₂ hst₂, hkv₁, hkv₂,
            hnone]
          exact congrArg _ (congrArg _ hstored)
      | mget keys =>
          have hharm : p + 1 = ((of (.mget keys)).bytes name).length := hharm
          omega

lemma length_first (name : Str) (q : ClientRequest) :
    (q.first name).length = (decimal (q.args.length + 1)).length + 1 := rfl

/-- **Harmless boundaries** are in the first line, or in front of the last byte. -/
lemma harmless_cases (hharm : q.Harmless name p) :
    p < (q.first name).length ∨ q.OneStage ∧ p + 1 = (q.bytes name).length := by
  have hpos := decimal_length_pos (q.args.length + 1)
  have hlen := length_first name q
  have hone : p = 1 → p < (q.first name).length := by
    rintro rfl
    omega
  cases q with
  | ping => exact hharm.imp hone fun h => ⟨trivial, h⟩
  | slave id => exact hharm.imp hone fun h => ⟨trivial, h⟩
  | of q =>
      cases q with
      | keyed c key => exact hharm.imp hone fun h => ⟨trivial, h⟩
      | auth password => exact hharm.imp hone fun h => ⟨trivial, h⟩
      | set key value => exact Or.inl (hone hharm)
      | setex key seconds value => exact Or.inl (hone hharm)
      | mset pairs =>
          left
          by_contra hlt
          obtain ⟨n, hn, -⟩ := hharm
          rw [length_mset_args] at hlen
          rw [List.drop_of_length_le (by omega)] at hn
          cases hn
      | mget keys => exact Or.inr ⟨trivial, hharm⟩

/-- The last byte of a request in one stage. -/
lemma bytes_drop_last (hstage : q.OneStage) (hp : p + 1 = (q.bytes name).length) :
    (q.bytes name).drop p = [10] := by
  obtain ⟨s, hs⟩ : ∃ s, q.bytes name = s ++ [10] := by
    obtain ⟨lead, l, hl⟩ := List.eq_nil_or_concat' (q.first name :: q.lines name) |>.resolve_left
      (List.cons_ne_nil _ _)
    refine ⟨lead.flatMap (· ++ crlf) ++ (l ++ [13]), ?_⟩
    rw [bytes_eq, withFirst, rest_eq_nil hstage, hl]
    simp [crlf, lit]
  rw [hs, List.length_append, List.length_singleton] at hp
  rw [hs, show p = s.length by omega, List.drop_left]

/-- **Cuts at harmless boundaries make no difference.** -/
theorem same_of_harmless (hname : commands name = some q.command) (hwf : q.WellFormed name)
    {S : ℕ → Prop} (hS : ∀ p, S p → 0 < p) (hharm : ∀ p, S p → q.Harmless name p) {pieces : List Str}
    (hcut : IsCut S (q.bytes name) pieces) : q.Same cfg name pieces := by
  rintro w x z hx hauth hidle hnone ⟨_, hserves, rfl⟩
  have hlen := length_first_lt name q
  have hne : q.bytes name ≠ [] := List.ne_nil_of_length_pos (by omega)
  obtain ⟨out, sv, hans⟩ := Session.answer_of_serves hx hne le_rfl
    (told hauth hidle hx.waiting.1 hname hwf) hserves
  obtain ⟨z₁, hz₁, -, hsv, hbox⟩ := Session.serves_of_answer hx hne le_rfl hans
  obtain rfl := hserves.unique hz₁
  have hfront : ∀ k, k = 0 ∨ S k ∧ k < (q.first name).length →
      Session.answer cfg w x.server x.running.conn.comm ((q.bytes name).drop k) = some (out, sv) := by
    rintro k (rfl | ⟨hk, hlt⟩)
    · exact hans
    · rw [answer_front hauth hidle hnone hname hwf (hS k hk) hlt (hharm k hk), hans]
  obtain ⟨z', hz', hsv', hbox'⟩ := Session.delivers_of_cut le_rfl (by omega) noDelim_take_first hfront
    (fun p hp => by
      rcases harmless_cases (hharm p hp) with hlt | ⟨hstage, hlast⟩
      · exact Or.inl hlt
      · refine Or.inr ⟨hlast, bytes_drop_last hstage hlast, fun k hk => ?_⟩
        have hlt : k < (q.first name).length := by
          rcases hk with rfl | ⟨-, hlt⟩
          · rw [length_first]
            omega
          · exact hlt
        rw [← hfront k hk, bytes_drop hlt.le]
        exact Session.answer_congr (process_dropLast hname hwf hstage (clean_drop_first hlt)))
    pieces 0 x (Or.inl rfl) (by omega) (by simpa only [Nat.zero_add, List.drop_zero] using hcut) hx rfl
    rfl
  exact ⟨z', hz', by rw [hbox', hbox], by rw [hsv', hsv]⟩

/-! ## Other cuts -/

/-- A handler of an authenticated client. -/
def authedRedis : GentRedis := { newRedis with auth := true }

/-- A new connection of such a client to an empty server. -/
def readySession (size : ℕ) : Session :=
  ⟨emptyServer, ⟨{ GentConnect.init authedRedis with rsize := readBufferSize + size }, [],
    ⟨[], fun _ => .bytes size, fun _ => .count 65535, []⟩⟩, []⟩

lemma ready_readySession (size : ℕ) : (readySession size).Ready size where
  waiting := ⟨rfl, rfl, rfl⟩
  eager := ⟨rfl, rfl⟩
  sendsize := rfl
  rsize := ⟨Nat.le_add_right _ _, show size ≤ (readBufferSize + size) * 16 by omega⟩
  content := rfl

/-- An answer that is no error of the parser, and does not start like one. -/
def Fine (out : Str) : Prop :=
  ∀ {status : ℤ} {text : Str}, status = -1 ∨ status = -2 → errorText status = some text → ¬ text <+: out

lemma fine_of_head {out : Str} (h : out.head? ≠ some 45) : Fine out := by
  rintro status text hst htext ⟨t, rfl⟩
  refine h ?_
  rcases hst with rfl | rfl
  · obtain rfl := Option.some.inj htext
    rfl
  · obtain rfl := Option.some.inj htext
    rfl

lemma get_empty (now : ℕ) (key : Str) : GentDb.empty.get now key = .ok none := by
  simp [GentDb.get, GentDb.empty]
  rfl

lemma head_numberLine (n : ℕ) (s : Str) : (numberLine 20 "*" n ++ s).head? = some 42 := rfl

/-- A command on an empty server. -/
lemma complete_empty (q : ClientRequest) (r : GentRedis) :
    ∃ out r' sv, q.command.complete false quietWorld emptyServer r [] = .ok (out, r', sv) ∧
      out.head? ≠ some 45 := by
  have hget : ∀ key, emptyServer.db.get quietWorld.now key = .ok none := get_empty _
  cases q with
  | ping => exact ⟨_, _, _, rfl, by decide⟩
  | slave id =>
      refine ⟨lit "+OK\r\n", r, emptyServer, ?_, by decide⟩
      simp [command, Command.complete, GentProcessSlave.complete, GentRepMgr.logout, emptyServer,
        GentRepMgr.emptyMgr]
  | of q =>
      cases q with
      | keyed c key =>
          cases c with
          | get =>
              refine ⟨lit "$-1\r\n", r, emptyServer, ?_, by decide⟩
              show GentProcessGet.complete _ _ _ = _
              rw [GentProcessGet.complete, hget]
              rfl
          | ttl =>
              refine ⟨lit ":-2\r\n", r, emptyServer, ?_, by decide⟩
              show GentProcessTtl.complete _ _ _ = _
              simp [GentProcessTtl.complete, GentDb.ttl, emptyServer, GentDb.empty, bind, Except.bind,
                pure, Except.pure]
          | del =>
              refine ⟨lit ":0\r\n", r, emptyServer, ?_, by decide⟩
              show GentProcessDel.complete _ _ _ _ = _
              rw [GentProcessDel.complete, hget]
              rfl
          | keyExists =>
              refine ⟨lit ":0\r\n", r, emptyServer, ?_, by decide⟩
              show GentProcessExists.complete _ _ _ = _
              rw [GentProcessExists.complete, hget]
              rfl
          | keys =>
              refine ⟨_, _, _, rfl, ?_⟩
              rw [head_numberLine]
              decide
      | auth password => exact ⟨lit "+OK\r\n", _, _, rfl, by decide⟩
      | set key value => exact ⟨lit "+OK\r\n", _, _, rfl, by decide⟩
      | setex key seconds value => exact ⟨lit "+OK\r\n", _, _, rfl, by decide⟩
      | mset pairs => exact ⟨lit "+OK\r\n", _, _, rfl, by decide⟩
      | mget keys =>
          obtain ⟨items, hitems⟩ : ∃ items, (r.keyvec.mapM fun key => do
              let nr := (← emptyServer.db.get quietWorld.now key).getD []
              return numberLine 20 "$" nr.length ++ nr ++ crlf) = .ok items :=
            ⟨_, mapM_eq fun key _ => by rw [hget]; rfl⟩
          refine ⟨numberLine 20 "*" items.length ++ items.flatten, r, emptyServer, ?_,
            by rw [head_numberLine]; decide⟩
          show GentProcessMget.complete quietWorld emptyServer r = _
          rw [GentProcessMget.complete, hitems]
          rfl

/-- **On an empty server** the request is answered, and without such an error. -/
lemma answer_empty (hname : commands name = some q.command) (hwf : q.WellFormed name) :
    ∃ out sv, Session.answer cfg quietWorld emptyServer authedRedis (q.bytes name) = some (out, sv) ∧
      Fine out := by
  have hauth : Authed cfg authedRedis := Or.inl rfl
  have hidle : authedRedis.mdata.Idle := ⟨rfl, rfl⟩
  by_cases hq : ∃ password, q = of (.auth password)
  · obtain ⟨password, rfl⟩ := hq
    have hproc : process cfg quietWorld.now authedRedis _ = _ := process_auth hname hwf
    split_ifs at hproc
    · refine ⟨[], emptyServer, ?_, fine_of_head (by decide)⟩
      simp only [Session.answer, Session.react, hproc]
      rfl
    · exact ⟨_, _, Session.answer_complete hproc (Or.inl rfl) rfl (by decide),
        fine_of_head (by decide)⟩
    · refine ⟨lit "-ERR invalid password\r\n", emptyServer, ?_, ?_⟩
      · simp only [Session.answer, Session.react, hproc]
        rfl
      · intro status text hst htext
        rcases hst with rfl | rfl
        · obtain rfl := Option.some.inj htext
          decide
        · obtain rfl := Option.some.inj htext
          decide
  · obtain ⟨r', hproc, hsub, hst⟩ : ∃ r', process cfg quietWorld.now authedRedis _ = .ok (0, [], r') ∧ _ :=
      process_bytes hauth hidle hname hwf fun password h => hq ⟨password, h⟩
    obtain ⟨out, r'', sv, hcomplete, hhead⟩ := complete_empty q { r' with curstatus := .CONN_DATA }
    have hdone : complete false quietWorld emptyServer { r' with curstatus := .CONN_DATA } []
        = .ok (out, r'', sv) := by
      rw [complete_eq (r := { r' with curstatus := .CONN_DATA }) hsub, hcomplete]
    exact ⟨out, sv, Session.answer_complete hproc hst hdone
      (Command.complete_ne_nil q.command_ne hcomplete), fine_of_head hhead⟩

/-- A piece that fails is answered with an error, if at all. -/
lemma serves_of_fails {x y : Session} {size : ℕ} {data : Str} (hx : x.Ready size) (hne : data ≠ [])
    (hlen : data.length ≤ size) (hfails : Fails cfg w.now x.running.conn.comm data)
    (hy : Session.Serves cfg false w (x.arrive data) y) :
    ∃ status text, (status = -1 ∨ status = -2) ∧ errorText status = some text ∧
      y.running.sock.outbox = x.running.sock.outbox ++ text.map some := by
  rcases hfails with ⟨f, hf⟩ | ⟨status, text, r', hst, htext, hproc⟩
  · exact absurd hy (Session.not_serves_of_fault hx hne hlen hf)
  · have hans : Session.answer cfg w x.server x.running.conn.comm data = some (text, x.server) := by
      simp only [Session.answer, Session.react, hproc]
      rw [if_pos (errorText_ne_nil htext), Option.map_some]
    obtain ⟨z, hz, -, -, hbox⟩ := Session.serves_of_answer hx hne hlen hans
    obtain rfl := hy.unique hz
    exact ⟨status, text, hst, htext, hbox⟩

lemma prefix_of_map_some {a b : Str} (h : a.map some <+: b.map some) : a <+: b := by
  rw [List.prefix_iff_eq_take, List.length_map, ← List.map_take] at h
  rw [List.prefix_iff_eq_take]
  exact List.map_injective_iff.mpr (Option.some_injective _) h

/-- What an empty server holds after an `mset`. -/
lemma msetAnswer_empty (keys_values : LevelDb) :
    (Session.msetAnswer quietWorld emptyServer keys_values).2.db.db = keys_values := by
  have hrefines := Refines.empty.batchPut quietWorld.now keys_values
  show (GentDb.empty.batchPut true (fun _ => true) quietWorld.now keys_values).1.db = keys_values
  refine Std.ExtTreeMap.ext_getElem? fun k => ?_
  rw [hrefines.value k, ExpMap.bindAll]
  cases keys_values[k]? with
  | none => rfl
  | some v => rfl

/-- The first line of a request with few arguments is short. -/
lemma eq_one_of_lt (hargs : q.args.length < 9) (hp : 0 < p) (hlt : p < (q.first name).length) : p = 1 := by
  have hdigits : (decimal (q.args.length + 1)).length ≤ 1 :=
    (decimal_length_le_iff (by decide)).mpr (by omega)
  rw [length_first] at hlt
  omega

/-- **A piece in the first line is dropped**: what comes next decides. -/
lemma harmless_of_front (hname : commands name = some q.command) (hwf : q.WellFormed name) (hp : 0 < p)
    (hlt : p < (q.first name).length) (hok : ¬ Fails cfg quietWorld.now authedRedis ((q.bytes name).drop p))
    {out : Str} {sv : Server}
    (hans : Session.answer cfg quietWorld emptyServer authedRedis (q.bytes name) = some (out, sv))
    (hdb : ∀ res, Session.answer cfg quietWorld emptyServer authedRedis ((q.bytes name).drop p)
      = some res → res.2.db = sv.db) : q.Harmless name p := by
  have hauth : Authed cfg authedRedis := Or.inl rfl
  have hidle : authedRedis.mdata.Idle := ⟨rfl, rfl⟩
  have hclean := clean_drop_first hlt
  have hone : q.args.length < 9 → p = 1 := fun h => eq_one_of_lt h hp hlt
  rw [bytes_drop hlt.le] at hok hdb
  cases q with
  | ping => exact Or.inl (hone (by decide))
  | slave id => exact Or.inl (hone (show 2 < 9 by decide))
  | of q =>
      cases q with
      | keyed c key => exact Or.inl (hone (show 1 < 9 by decide))
      | auth password => exact Or.inl (hone (show 1 < 9 by decide))
      | set key value => exact hone (show 2 < 9 by decide)
      | setex key seconds value => exact hone (show 3 < 9 by decide)
      | mset pairs =>
          have hsmall := (atoi_first hwf).1
          have hnum := atoi_drop_first hwf p
          have hless := digitsVal_drop_lt (show 0 < 2 * pairs.length + 1 by omega) hp
          rcases Nat.even_or_odd' (digitsVal ((decimal (2 * pairs.length + 1)).drop p)) with ⟨n, hn | hn⟩
          · rw [hn] at hnum
            exact absurd (process_mset_wrong hauth hname hclean (n := n) (by omega)
              (by rw [hnum]; push_cast; rfl)) hok
          · refine ⟨n, hn, ?_⟩
            rw [hn] at hnum
            obtain ⟨r₁, hproc₁, hsub₁, hst₁, hkv₁⟩ :
                ∃ r', process cfg quietWorld.now authedRedis _ = .ok (0, [], r') ∧ _ :=
              process_mset hauth hidle hname hwf hclean (digitsVal_drop_pairs pairs hp hn)
                (by rw [hnum]; push_cast; rfl)
            obtain ⟨r₂, hproc₂, hsub₂, hst₂, hkv₂⟩ :
                ∃ r', process cfg quietWorld.now authedRedis _ = .ok (0, [], r') ∧ _ :=
              process_mset hauth hidle hname hwf (clean_first name _) le_rfl (atoi_first hwf).2
            rw [List.take_length] at hkv₂
            rw [← bytes_eq] at hproc₂
            have hres := hdb _ (Session.answer_mset hproc₁ hsub₁ hst₁)
            rw [Session.answer_mset hproc₂ hsub₂ hst₂, Option.some.injEq] at hans
            have heq : r₁.mdata.keys_values = r₂.mdata.keys_values := by
              rw [← msetAnswer_empty r₁.mdata.keys_values, ← msetAnswer_empty r₂.mdata.keys_values, hres,
                hans]
            exact (hkv₁.symm.trans heq).trans hkv₂
      | mget keys =>
          have hsmall : (name :: keys).length * 2 + 1 < 2 ^ 31 := length_of_encode hwf.1
          rw [List.length_cons] at hsmall
          have hnum : lengthOf (((of (.mget keys)).first name).drop p)
              = digitsVal ((decimal (keys.length + 1)).drop p) := by
            have hdrop : (((of (.mget keys)).first name).drop p).drop 1
                = (decimal (keys.length + 1)).drop p := by
              rw [List.drop_drop]
              rfl
            have hless := digitsVal_drop_lt (show 0 < keys.length + 1 by omega) hp
            rw [lengthOf, hdrop, atoi_drop_decimal (by omega), toUInt64_natCast (by omega)]
          exact absurd (process_mget_wrong hauth hname hwf hclean hnum
            (digitsVal_drop_lt (by omega) hp)) hok

/-- The last byte of a request in one stage. -/
lemma harmless_last (hstage : q.OneStage) (hp : p + 1 = (q.bytes name).length) : q.Harmless name p := by
  cases q with
  | ping => exact Or.inr hp
  | slave id => exact Or.inr hp
  | of q =>
      cases q with
      | keyed c key => exact Or.inr hp
      | auth password => exact Or.inr hp
      | set key value => exact hstage.elim
      | setex key seconds value => exact hstage.elim
      | mset pairs => exact hstage.elim
      | mget keys => exact hp

/-- Two pieces. -/
lemma isCut_two {S : ℕ → Prop} {data : Str} (hS : S p) (hp : 0 < p) (hlt : p < data.length) :
    IsCut S data [data.take p, data.drop p] where
  flatten := by simp
  nonempty := by
    simp only [List.mem_cons, List.not_mem_nil, or_false, not_or]
    refine ⟨fun h => ?_, fun h => ?_⟩
    · have := congrArg List.length h
      rw [List.length_take, List.length_nil] at this
      omega
    · have := congrArg List.length h
      rw [List.length_drop, List.length_nil] at this
      omega
  boundary := by
    intro pre post heq hpre hpost
    obtain ⟨a, pre, rfl⟩ := List.exists_cons_of_ne_nil hpre
    obtain ⟨b, post, rfl⟩ := List.exists_cons_of_ne_nil hpost
    obtain ⟨rfl, htail⟩ := List.cons.inj heq
    cases pre with
    | nil =>
        rw [List.flatten_cons, List.flatten_nil, List.append_nil, List.length_take, min_eq_left hlt.le]
        exact hS
    | cons c pre =>
        simp at htail

/-- **A cut at any other place makes a difference**, for a new client of an empty server. -/
theorem harmless_of_same (hname : commands name = some q.command) (hwf : q.WellFormed name) (hp : 0 < p)
    (hlt : p < (q.header name).length)
    (h : q.Same cfg name [(q.bytes name).take p, (q.bytes name).drop p]) : q.Harmless name p := by
  have hheader : (q.bytes name).length = (q.header name).length + q.rest.length := by
    rw [bytes_eq_header, List.length_append]
  have hne : q.bytes name ≠ [] := List.ne_nil_of_length_pos (by omega)
  have hne₁ : (q.bytes name).take p ≠ [] :=
    List.ne_nil_of_length_pos (by rw [List.length_take]; omega)
  have hne₂ : (q.bytes name).drop p ≠ [] :=
    List.ne_nil_of_length_pos (by rw [List.length_drop]; omega)
  have hlen₁ : ((q.bytes name).take p).length ≤ (q.bytes name).length := by
    rw [List.length_take]
    omega
  have hlen₂ : ((q.bytes name).drop p).length ≤ (q.bytes name).length := by
    rw [List.length_drop]
    omega
  have hauth : Authed cfg authedRedis := Or.inl rfl
  obtain ⟨out, sv, hans, hfine⟩ : ∃ out sv, Session.answer cfg quietWorld emptyServer authedRedis
      (q.bytes name) = some (out, sv) ∧ Fine out := answer_empty hname hwf
  have hx := ready_readySession (q.bytes name).length
  obtain ⟨z, hz, -, hsv, hbox⟩ := Session.serves_of_answer hx hne le_rfl hans
  obtain ⟨z', ⟨y, hy, y', hy', rfl⟩, hbox', hdb'⟩ := h quietWorld _ z hx hauth ⟨rfl, rfl⟩ rfl ⟨z, hz, rfl⟩
  have hout : z'.running.sock.outbox = out.map some := by
    rw [hbox', hbox]
    rfl
  by_cases hlo : (q.first name).length < p
  · -- the first piece is answered with an error
    by_contra hharm
    have hfails : Fails cfg quietWorld.now authedRedis ((q.bytes name).take p) := by
      refine process_take hauth hname hwf hlo hlt fun hstage hend => hharm (harmless_last hstage ?_)
      rw [hheader, rest_eq_nil hstage, hend]
      rfl
    obtain ⟨status, text, hst, htext, htextbox⟩ := serves_of_fails hx hne₁ hlen₁ hfails hy
    have hprefix : y.running.sock.outbox <+: z'.running.sock.outbox := hy'.outbox
    rw [htextbox, hout] at hprefix
    exact hfine hst htext (prefix_of_map_some hprefix)
  · -- the first piece is dropped
    have hclean : NoDelim ((q.bytes name).take p) := by
      intro b hb
      rw [show p = min p (q.first name).length by omega, ← List.take_take] at hb
      exact noDelim_take_first b (List.mem_of_mem_take hb)
    obtain ⟨y₁, hy₁, hready, hserver, hybox, hcomm⟩ :=
      Session.serves_silent hx hne₁ hlen₁ (tokens_of_clean hclean)
    obtain rfl := hy.unique hy₁
    have hcomm : y.running.conn.comm = authedRedis := hcomm
    have hok : ¬ Fails cfg quietWorld.now authedRedis ((q.bytes name).drop p) := by
      intro hfails
      rw [← hcomm] at hfails
      obtain ⟨status, text, hst, htext, htextbox⟩ := serves_of_fails hready hne₂ hlen₂ hfails hy'
      rw [hout, hybox] at htextbox
      have htext' : text.map some <+: out.map some := by
        rw [htextbox]
        exact List.prefix_rfl
      exact hfine hst htext (prefix_of_map_some htext')
    have hfirst : p < (q.first name).length := by
      rcases Nat.lt_or_ge p (q.first name).length with hlt | hge
      · exact hlt
      · obtain rfl : p = (q.first name).length := by omega
        exact absurd (process_drop_first hname hwf) hok
    refine harmless_of_front hname hwf hp hfirst hok hans fun res hres => ?_
    obtain ⟨z₁, hz₁, -, hsv₁, -⟩ := Session.serves_of_answer hready hne₂ hlen₂
      (by rw [hcomm, hserver]; exact hres)
    obtain rfl := hy'.unique hz₁
    rw [← hsv₁, hdb', hsv]

/-- **Where a request may be cut.**  `S` are positions in its header. -/
theorem cuts_iff (cfg : Config) (name : Str) (q : ClientRequest) (S : ℕ → Prop)
    (hname : commands name = some q.command) (hwf : q.WellFormed name)
    (hS : ∀ p, S p → 0 < p ∧ p < (q.header name).length) :
    (∀ pieces, IsCut S (q.bytes name) pieces → q.Same cfg name pieces) ↔
      ∀ p, S p → q.Harmless name p := by
  constructor
  · intro hsame p hp
    obtain ⟨hpos, hlt⟩ := hS p hp
    have hlen : p < (q.bytes name).length := by
      rw [bytes_eq_header, List.length_append]
      omega
    exact harmless_of_same hname hwf hpos hlt (hsame _ (isCut_two hp hpos hlen))
  · intro hharm pieces hcut
    exact same_of_harmless hname hwf (fun p hp => (hS p hp).1) hharm hcut

/-- `GET k`. -/
def getRequest : ClientRequest := of (.keyed .get (lit "k"))

lemma wellFormed_getRequest : getRequest.WellFormed (lit "get") :=
  ⟨by decide, show Clean (lit "k") by decide⟩

/-- Its first byte may come alone. -/
theorem cuts_iff_get :
    getRequest.bytes (lit "get") = lit "*2\r\n$3\r\nget\r\n$1\r\nk\r\n" ∧
      getRequest.Same openConfig (lit "get") [lit "*", lit "2\r\n$3\r\nget\r\n$1\r\nk\r\n"] := by
  refine ⟨by decide, (cuts_iff openConfig (lit "get") getRequest (· = 1) rfl wellFormed_getRequest ?_).mpr
    ?_ _ (isCut_two (p := 1) rfl (by decide) (by decide))⟩
  · rintro p rfl
    decide
  · rintro p rfl
    exact Or.inl rfl

/-- **A cut in the name**: the key is there, and the client gets two errors. -/
theorem get_cut :
    getRequest.WellFormed (lit "get") ∧
      lit "*2\r\n$3\r\nge" ++ lit "t\r\n$1\r\nk\r\n" = getRequest.bytes (lit "get") ∧
      (Session.answer openConfig quietWorld (keyServer (lit "k") (lit "v")) authedRedis
          (getRequest.bytes (lit "get"))).map Prod.fst = some (lit "$1\r\nv\r\n") ∧
      (Session.answer openConfig quietWorld (keyServer (lit "k") (lit "v")) authedRedis
          (lit "*2\r\n$3\r\nge")).map Prod.fst = some (lit "-ERR unknown command\r\n") ∧
      (Session.answer openConfig quietWorld (keyServer (lit "k") (lit "v")) authedRedis
          (lit "t\r\n$1\r\nk\r\n")).map Prod.fst = some (lit "-ERR unknown command\r\n") ∧
      ¬ getRequest.Same openConfig (lit "get") [lit "*2\r\n$3\r\nge", lit "t\r\n$1\r\nk\r\n"] := by
  refine ⟨wellFormed_getRequest, by decide, by decide +kernel, by decide +kernel, by decide +kernel, fun hsame => ?_⟩
  have hharm : getRequest.Harmless (lit "get") 10 :=
    harmless_of_same rfl wellFormed_getRequest (by decide) (by decide) hsame
  rcases hharm with h | h
  · exact absurd h (by decide)
  · exact absurd h (by decide)

end ClientRequest

end Riser
