import Riser.Core.Loop
import Riser.Redis.Tokens

/-!
# `GentRedis::Split`

The loop of `Split` with its own variables: the position, the counter `num`, which is an `int`, and the
vector of tokens.  It looks for a CR **or** an LF, and goes on two bytes behind it.

* It ends for every string (`run_turn`), since every turn moves the position on, and it returns what
  `split` returns.  That the counter may wrap does not matter to the test for ten tokens of a `mset`: who
  passes it once passes it always.
* Every token is non-empty and free of CR and LF, whatever the string is.
* Where CR and LF only occur together, the tokens are the lines that are not empty
  (`fields_eq_terminated`).  Elsewhere the byte behind a delimiter is lost.
-/

namespace Riser

open Cpp

namespace Splitter

/-- The variables of the loop. -/
structure Scan where
  last_pos : ℕ
  num : ℤ
  v : List Str

/-- The test behind which the loop breaks. -/
def stops (num : ℤ) (v : List Str) : Except Fault Bool := do
  if num = 10 then
    let name ← elemAt v 2
    return decide (name = lit "mset" ∨ name = lit "MSET")
  else return false

/-- The body of the loop for a delimiter at `pos`, and whether it breaks. -/
def body (str : Str) (pos : ℕ) (s : Scan) : Except Fault (Scan × Bool) := do
  let s ← if pos = s.last_pos then pure { s with last_pos := s.last_pos + 2 }
    else do
      let t ← substr str s.last_pos (pos - s.last_pos)
      pure { last_pos := pos + 2, num := toInt32 (s.num + 1), v := s.v ++ [t] }
  return (s, ← stops s.num s.v)

/-- A turn of the loop.  It is left with `num` and the tokens, or by a fault. -/
def turn (str : Str) (s : Scan) : Loop.Outcome Scan (Except Fault (ℤ × List Str)) :=
  match findFirstOf str crlf s.last_pos with
  | none => .leave (.ok (s.num, s.v))
  | some pos =>
      match body str pos s with
      | .error e => .leave (.error e)
      | .ok (s, true) => .leave (.ok (s.num, s.v))
      | .ok (s, false) => .next s

/-- `Split` returns `num`, and the tokens are `v`. -/
def Returns (str : Str) (num : ℤ) (v : List Str) : Prop :=
  ∃ n, Loop.run (turn str) n ⟨0, 0, []⟩ = some (.ok (num, v))

/-! ## The loop -/

section Turn

variable {str : Str} {last_pos pos : ℕ} {v : List Str}

/-- The test on `num` is the one on the number of tokens, as long as no token before has ended the
loop. -/
lemma stops_eq (hgo : ∀ n < v.length, ¬ MsetStop (v.take n)) :
    stops (toInt32 v.length) v = .ok (decide (MsetStop v)) := by
  unfold stops
  split_ifs with hnum
  · have hten : 10 ≤ v.length := by
      have := Int.bmod_def (v.length : ℤ) (2 ^ 32)
      rw [toInt32] at hnum
      omega
    obtain ⟨name, hname⟩ : ∃ name, v[2]? = some name := ⟨_, List.getElem?_eq_getElem (by omega)⟩
    have hstop : MsetStop v ↔ name = lit "mset" ∨ name = lit "MSET" := by
      rcases hten.eq_or_lt with heq | hlt
      · rw [MsetStop, hname]
        simp [heq.symm]
      · have hten : ¬ MsetStop (v.take 10) := hgo 10 hlt
        have hlen : v.length ≠ 10 := hlt.ne'
        have hthird : (v.take 10)[2]? = some name := by
          rw [List.getElem?_take_of_lt (by omega), hname]
        simp only [MsetStop, hthird, List.length_take_of_le hlt.le, Option.some.injEq, true_and,
          hlen, false_and, false_iff] at hten ⊢
        exact hten
    simp only [elemAt_of_eq_some hname, bind, Except.bind, pure, Except.pure, hstop]
  · have hstop : ¬ MsetStop v := by
      rintro ⟨hlen, -⟩
      rw [hlen] at hnum
      exact hnum (by decide)
    simp [hstop, pure, Except.pure]

variable {num : ℤ}

lemma turn_none (h : findFirstOf str crlf last_pos = none) :
    turn str ⟨last_pos, num, v⟩ = .leave (.ok (num, v)) := by
  simp only [turn, h]

lemma turn_blank (h : findFirstOf str crlf last_pos = some last_pos)
    (hgo : ∀ n, ¬ MsetStop (v.take n)) (hnum : num = toInt32 v.length) :
    turn str ⟨last_pos, num, v⟩ = .next ⟨last_pos + 2, num, v⟩ := by
  have hv : ¬ MsetStop v := by
    have := hgo v.length
    rwa [List.take_length] at this
  have hstops : stops num v = .ok false := by
    rw [hnum, stops_eq fun n _ => hgo n, decide_eq_false hv]
  have hbody : body str last_pos ⟨last_pos, num, v⟩ = .ok (⟨last_pos + 2, num, v⟩, false) := by
    simp only [body, if_true, hstops, bind, Except.bind, pure, Except.pure]
  simp only [turn, h, hbody]

lemma turn_field (h : findFirstOf str crlf last_pos = some pos) (hne : pos ≠ last_pos)
    (hgo : ∀ n, ¬ MsetStop (v.take n)) (hnum : num = toInt32 v.length) {w : List Str}
    (hw : w = v ++ [field str last_pos pos]) {num' : ℤ} (hnum' : num' = toInt32 w.length) :
    turn str ⟨last_pos, num, v⟩ = if MsetStop w then .leave (.ok (num', w))
      else .next ⟨pos + 2, num', w⟩ := by
  have hle : last_pos ≤ str.length := by
    have := findFirstOf_lt h
    omega
  have hcount : toInt32 (num + 1) = num' := by
    rw [hnum', hnum, hw, List.length_append, List.length_singleton, Nat.cast_add, Nat.cast_one]
    exact Int.bmod_add_bmod
  have hgo' : ∀ n < w.length, ¬ MsetStop (w.take n) := by
    intro n hn
    rw [hw, List.length_append, List.length_singleton] at hn
    rw [hw, List.take_append_of_le_length (by omega)]
    exact hgo n
  have hstops : stops num' w = .ok (decide (MsetStop w)) := by
    rw [hnum', stops_eq hgo']
  have hbody : body str pos ⟨last_pos, num, v⟩ = .ok (⟨pos + 2, num', w⟩, decide (MsetStop w)) := by
    rw [field] at hw
    simp only [body, hne, if_false, substr_of_le hle, ← hw, hcount, hstops, bind, Except.bind, pure,
      Except.pure]
  by_cases hstop : MsetStop w
  · simp only [turn, h, hbody, hstop, decide_true, if_true]
  · simp only [turn, h, hbody, hstop, decide_false, if_false]

end Turn

/-- **The loop ends**, with what `splitLoop` finds. -/
lemma run_turn (str : Str) {n last_pos : ℕ} {v w : List Str} (hlen : str.length < n + last_pos)
    (hgo : ∀ n, ¬ MsetStop (v.take n)) {num : ℤ} (hnum : num = toInt32 v.length)
    (hw : splitLoop str n last_pos v = .ok w) :
    Loop.run (turn str) (n + 1) ⟨last_pos, num, v⟩ = some (.ok (toInt32 w.length, w)) := by
  induction n generalizing last_pos num v with
  | zero =>
      have hfind : findFirstOf str crlf last_pos = none := findFirstOf_of_le (by omega)
      rw [splitLoop_none hfind, Except.ok.injEq] at hw
      rw [Loop.run, turn_none hfind, hnum, hw]
  | succ n ih =>
      cases hfind : findFirstOf str crlf last_pos with
      | none =>
          rw [splitLoop_none hfind, Except.ok.injEq] at hw
          rw [Loop.run, turn_none hfind, hnum, hw]
      | some pos =>
          have hle := findFirstOf_lt hfind
          by_cases hpos : pos = last_pos
          · subst hpos
            have hv : ¬ MsetStop v := by
              have := hgo v.length
              rwa [List.take_length] at this
            rw [splitLoop_blank hfind, if_neg hv] at hw
            rw [Loop.run, turn_blank hfind hgo hnum]
            exact ih (by omega) hgo hnum hw
          · rw [splitLoop_field hfind hpos] at hw
            rw [Loop.run, turn_field hfind hpos hgo hnum rfl rfl]
            split_ifs at hw ⊢ with hstop
            · rw [← Except.ok.inj hw]
            · exact ih (by omega) (go_snoc hgo hstop) rfl hw

/-- `Split` returns the tokens, and their number as an `int`. -/
lemma returns_tokens (str : Str) : Returns str (toInt32 (tokens str).length) (tokens str) :=
  ⟨str.length + 2, run_turn str (by omega) (by simp [MsetStop]) (by decide) (split_eq str)⟩

/-! ## Lines -/

/-- CR and LF only occur as CRLF. -/
def Paired (s : Str) : Prop :=
  s[0]? ≠ some (10 : UInt8) ∧ ∀ i, s[i]? = some (13 : UInt8) ↔ s[i + 1]? = some (10 : UInt8)

instance (s : Str) : Decidable (Paired s) :=
  decidable_of_iff (s[0]? ≠ some (10 : UInt8) ∧
    ∀ i < s.length, s[i]? = some (13 : UInt8) ↔ s[i + 1]? = some (10 : UInt8)) <| by
    refine and_congr_right fun _ => ⟨fun h i => ?_, fun h i _ => h i⟩
    rcases Nat.lt_or_ge i s.length with hi | hi
    · exact h i hi
    · simp [List.getElem?_eq_none hi, List.getElem?_eq_none (Nat.le_succ_of_le hi)]

/-- The fields that a CRLF is behind. -/
def terminated : Str → List Str
  | [] | [_] => []
  | b :: c :: s => if b = 13 ∧ c = 10 then [] :: terminated s else (terminated (c :: s)).modifyHead (b :: ·)

lemma terminated_of_clean : ∀ {s : Str}, (∀ b ∈ s, b ∉ crlf) → terminated s = []
  | [], _ | [_], _ => rfl
  | b :: c :: s, h => by
      have hb : b ≠ 13 := by
        rintro rfl
        exact h 13 List.mem_cons_self (by decide)
      rw [terminated, if_neg fun hbc => hb hbc.1,
        terminated_of_clean fun x hx => h x (List.mem_cons_of_mem b hx), List.modifyHead_nil]

/-- The first line. -/
lemma terminated_line (s : Str) : ∀ {line : Str}, (∀ b ∈ line, b ∉ crlf) →
    terminated (line ++ 13 :: 10 :: s) = line :: terminated s
  | [], _ => by simp [terminated]
  | [b], h => by
      have hb : b ≠ 13 := by
        rintro rfl
        exact h 13 List.mem_cons_self (by decide)
      simp [terminated, hb]
  | b :: c :: line, h => by
      have hb : b ≠ 13 := by
        rintro rfl
        exact h 13 List.mem_cons_self (by decide)
      have hline := terminated_line s fun x hx => h x (List.mem_cons_of_mem b hx)
      rw [List.cons_append, List.cons_append, terminated, if_neg fun hbc => hb hbc.1, ← List.cons_append,
        hline, List.modifyHead_cons]

/-- A string with CR and LF in pairs has none of them, or begins with a line. -/
lemma Paired.clean_or_line {s : Str} (h : Paired s) : (∀ b ∈ s, b ∉ crlf) ∨
    ∃ line rest, s = line ++ 13 :: 10 :: rest ∧ (∀ b ∈ line, b ∉ crlf) ∧ Paired rest := by
  rcases clean_or_split s with hclean | ⟨line, b, tail, rfl, hb, hline⟩
  · exact Or.inl hclean
  right
  obtain ⟨hfirst, hpair⟩ := h
  have hb13 : b = 13 := by
    have hcases : b = 13 ∨ b = 10 := by simpa [crlf, lit] using hb
    refine hcases.resolve_right ?_
    rintro rfl
    -- the byte before is a CR, and it is not in the line
    rcases List.eq_nil_or_concat line with rfl | ⟨line, x, rfl⟩
    · exact hfirst rfl
    · have hx : x = 13 := by simpa using (hpair line.length).mpr (by simp)
      exact hline x (by simp) (by simp [hx, crlf, lit])
  subst hb13
  have hat : ∀ i, (line ++ 13 :: tail)[line.length + i]? = (13 :: tail)[i]? := fun i => by
    rw [List.getElem?_append_right (Nat.le_add_right _ _), Nat.add_sub_cancel_left]
  have hpair' : ∀ i, (13 :: tail)[i]? = some (13 : UInt8) ↔ tail[i]? = some (10 : UInt8) := fun i => by
    have := hpair (line.length + i)
    rwa [hat, Nat.add_assoc, hat, List.getElem?_cons_succ] at this
  obtain ⟨rest, rfl⟩ : ∃ rest, tail = 10 :: rest := by
    have hnext : tail[0]? = some (10 : UInt8) := (hpair' 0).mp rfl
    cases tail with
    | nil => cases hnext
    | cons x rest => exact ⟨rest, by rw [Option.some.inj hnext]⟩
  refine ⟨line, rest, rfl, hline, fun hrest => ?_, fun i => hpair' (i + 2)⟩
  have hcr := (hpair' 1).mpr hrest
  simp at hcr

/-- **On such a string the fields are the lines that are not empty.** -/
lemma fields_eq_terminated {s : Str} (h : Paired s) : fields s = (terminated s).filter (· ≠ []) := by
  induction hn : s.length using Nat.strong_induction_on generalizing s with
  | _ n ih =>
      rcases h.clean_or_line with hclean | ⟨line, rest, rfl, hline, hrest⟩
      · rw [fields_of_clean hclean, terminated_of_clean hclean, List.filter_nil]
      · have hlt : rest.length < n := by
          rw [← hn]
          simp
          omega
        have htail := ih _ hlt hrest rfl
        rw [terminated_line rest hline]
        by_cases hnil : line = []
        · subst hnil
          rw [List.nil_append, fields_blank (by decide), List.filter_cons_of_neg (by simp), ← htail]
          rfl
        · rw [fields_field ⟨hnil, hline⟩ (by decide), List.filter_cons_of_pos (by simpa using hnil),
            ← htail]
          rfl

/-! ## The result -/

/-- Every token takes a byte. -/
lemma length_fields_le (s : Str) : (fields s).length ≤ s.length := by
  induction hn : s.length using Nat.strong_induction_on generalizing s with
  | _ n ih =>
      rcases clean_or_split s with hclean | ⟨a, b, c, rfl, hb, ha⟩
      · simp [fields_of_clean hclean]
      · have hlen : (c.drop 1).length < n := by
          rw [← hn]
          simp
          omega
        have hrest := ih _ hlen _ rfl
        by_cases hnil : a = []
        · subst hnil
          rw [List.nil_append, fields_blank hb]
          omega
        · rw [fields_field ⟨hnil, ha⟩ hb, List.length_cons]
          omega

lemma length_tokens_le (s : Str) : (tokens s).length ≤ s.length := by
  refine le_trans ?_ (length_fields_le s)
  rw [tokens_eq_msetCut, msetCut]
  split_ifs
  · rw [List.length_take]
    exact Nat.min_le_right _ _
  · exact le_refl _

/-- **What `Split` returns.**  The counter is an `int`, and so is the size of the buffer that the request
is read into. -/
theorem split_spec (str : Str) : ∃ num v, Returns str num v ∧
    num = toInt32 v.length ∧ (str.length < 2 ^ 31 → num = v.length) ∧
    (∀ t ∈ v, t ≠ [] ∧ ∀ b ∈ t, b ≠ 13 ∧ b ≠ 10) ∧
    (Paired str → v = msetCut ((terminated str).filter (· ≠ []))) := by
  refine ⟨_, _, returns_tokens str, rfl, fun hlen => ?_, fun t ht => ?_, fun hpaired => ?_⟩
  · have := length_tokens_le str
    exact toInt32_of_bounds (by omega) (by omega)
  · obtain ⟨hne, hclean⟩ := clean_of_mem_tokens ht
    exact ⟨hne, fun b hb => by simpa [crlf, lit] using hclean b hb⟩
  · rw [tokens_eq_msetCut, fields_eq_terminated hpaired]

/-- An empty line is skipped, and what no CRLF is behind is not a token. -/
theorem split_lines : ∃ num v, Returns (lit "*1\r\n\r\n$4\r\nping\r\nrest") num v ∧
    num = 3 ∧ v = [lit "*1", lit "$4", lit "ping"] := by
  obtain ⟨num, v, hreturns, -, hnum, -, hv⟩ := split_spec (lit "*1\r\n\r\n$4\r\nping\r\nrest")
  have hlines : v = [lit "*1", lit "$4", lit "ping"] := (hv (by decide)).trans (by decide)
  refine ⟨num, v, hreturns, ?_, hlines⟩
  rw [hnum (by decide), hlines]
  rfl

end Splitter

end Riser
