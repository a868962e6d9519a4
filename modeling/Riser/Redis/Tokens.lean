import Riser.Redis.Parser

/-!
# What `Split` produces

`split` never faults, and what it returns are non-empty strings without CR or LF
(`split_clean`).  That is all the parsers can rely on, and it is why they only fault where they
index further than they have counted.

`splitLoop` walks positions of one string with fuel.  Neither matters: `splitTail` starts at the
front of what is left, and its equations (`splitTail_line`, `splitTail_blank`, `splitTail_last`)
consume a line, an empty field or the end.  They are what a computation of `split` on a given text
goes by.
-/

namespace Riser

open Cpp

/-- `Split` stops here: ten tokens, of a `mset`. -/
def MsetStop (v : List Str) : Prop :=
  v.length = 10 ∧ (v[2]? = some (lit "mset") ∨ v[2]? = some (lit "MSET"))

instance (v : List Str) : Decidable (MsetStop v) := inferInstanceAs (Decidable (_ ∧ _))

lemma isMset_eq (v : List Str) : isMset v = .ok (decide (MsetStop v)) := by
  unfold isMset MsetStop
  split_ifs with h
  · obtain ⟨name, hname⟩ : ∃ name, v[2]? = some name := ⟨_, List.getElem?_eq_getElem (by omega)⟩
    simp only [elemAt_of_eq_some hname, hname, h, Option.some.injEq, true_and, bind, Except.bind,
      pure, Except.pure]
  · simp [h, pure, Except.pure]

/-- A token: what no delimiter is in. -/
def Clean (t : Str) : Prop := t ≠ [] ∧ ∀ b ∈ t, b ∉ crlf

instance (t : Str) : Decidable (Clean t) := inferInstanceAs (Decidable (_ ∧ _))

/-! ## One turn of the loop -/

section Turn

variable {str : Str} {fuel last_pos pos : ℕ} {v : List Str}

lemma splitLoop_none (h : findFirstOf str crlf last_pos = none) :
    splitLoop str fuel last_pos v = .ok v := by
  cases fuel with
  | zero => rfl
  | succ fuel => simp [splitLoop, h]

/-- An empty field. -/
lemma splitLoop_blank (h : findFirstOf str crlf last_pos = some last_pos) :
    splitLoop str (fuel + 1) last_pos v
      = if MsetStop v then .ok v else splitLoop str fuel (last_pos + 2) v := by
  simp only [splitLoop, h, if_true, isMset_eq, bind, Except.bind, pure, Except.pure,
    decide_eq_true_eq]

/-- The bytes up to a delimiter. -/
def field (str : Str) (last_pos pos : ℕ) : Str := (str.drop last_pos).take (pos - last_pos)

/-- A token. -/
lemma splitLoop_field (h : findFirstOf str crlf last_pos = some pos) (hne : pos ≠ last_pos) :
    splitLoop str (fuel + 1) last_pos v
      = if MsetStop (v ++ [field str last_pos pos]) then .ok (v ++ [field str last_pos pos])
        else splitLoop str fuel (pos + 2) (v ++ [field str last_pos pos]) := by
  have hle : last_pos ≤ str.length := by
    have := findFirstOf_lt h
    omega
  simp only [splitLoop, h, hne, if_false, substr_of_le hle, isMset_eq, field, bind, Except.bind,
    pure, Except.pure, decide_eq_true_eq]
  rfl

lemma clean_field (h : findFirstOf str crlf last_pos = some pos) (hne : pos ≠ last_pos) :
    Clean (field str last_pos pos) := by
  obtain ⟨a, b, c, hd, rfl, -, ha⟩ := findFirstOf_eq_some h
  have hfield : field str last_pos (last_pos + a.length) = a := by
    simp [field, hd]
  rw [hfield]
  exact ⟨fun hnil => hne (by simp [hnil]), ha⟩

end Turn

/-- **`Split` never faults**, and adds only tokens. -/
lemma splitLoop_clean (str : Str) : ∀ (fuel last_pos : ℕ) (v : List Str), (∀ t ∈ v, Clean t) →
    ∃ w, splitLoop str fuel last_pos v = .ok w ∧ ∀ t ∈ w, Clean t
  | 0, _, v, hv => ⟨v, rfl, hv⟩
  | fuel + 1, last_pos, v, hv => by
      cases hfind : findFirstOf str crlf last_pos with
      | none => exact ⟨v, splitLoop_none hfind, hv⟩
      | some pos =>
          by_cases hpos : pos = last_pos
          · subst hpos
            rw [splitLoop_blank hfind]
            split_ifs
            · exact ⟨v, rfl, hv⟩
            · exact splitLoop_clean str fuel _ v hv
          · have hv' : ∀ t ∈ v ++ [field str last_pos pos], Clean t := by
              intro t ht
              rcases List.mem_append.mp ht with ht | ht
              · exact hv t ht
              · rw [List.mem_singleton.mp ht]
                exact clean_field hfind hpos
            rw [splitLoop_field hfind hpos]
            split_ifs
            · exact ⟨_, rfl, hv'⟩
            · exact splitLoop_clean str fuel _ _ hv'

/-- Whatever comes, the tokens found so far stay. -/
lemma splitLoop_append (str : Str) : ∀ (fuel last_pos : ℕ) (v : List Str),
    ∃ w, splitLoop str fuel last_pos v = .ok (v ++ w)
  | 0, _, v => ⟨[], by simp [splitLoop]⟩
  | fuel + 1, last_pos, v => by
      cases hfind : findFirstOf str crlf last_pos with
      | none => exact ⟨[], by simp [splitLoop_none hfind]⟩
      | some pos =>
          by_cases hpos : pos = last_pos
          · subst hpos
            rw [splitLoop_blank hfind]
            split_ifs
            · exact ⟨[], by simp⟩
            · exact splitLoop_append str fuel _ v
          · rw [splitLoop_field hfind hpos]
            split_ifs
            · exact ⟨_, rfl⟩
            · obtain ⟨w, hw⟩ := splitLoop_append str fuel (pos + 2) (v ++ [field str last_pos pos])
              exact ⟨_, hw.trans (by rw [List.append_assoc])⟩

/-- The fuel does not matter once it outlasts the bytes. -/
lemma splitLoop_fuel (str : Str) : ∀ (f g last_pos : ℕ) (v : List Str),
    str.length < f + last_pos → str.length < g + last_pos →
    splitLoop str f last_pos v = splitLoop str g last_pos v
  | 0, g, last_pos, v, hf, _ => by
      rw [splitLoop_none (findFirstOf_of_le (by omega)), splitLoop_none (findFirstOf_of_le (by omega))]
  | f + 1, 0, last_pos, v, _, hg => by
      rw [splitLoop_none (findFirstOf_of_le (by omega)), splitLoop_none (findFirstOf_of_le (by omega))]
  | f + 1, g + 1, last_pos, v, hf, hg => by
      cases hfind : findFirstOf str crlf last_pos with
      | none => rw [splitLoop_none hfind, splitLoop_none hfind]
      | some pos =>
          have hle := findFirstOf_lt hfind
          by_cases hpos : pos = last_pos
          · subst hpos
            rw [splitLoop_blank hfind, splitLoop_blank hfind,
              splitLoop_fuel str f g _ v (by omega) (by omega)]
          · rw [splitLoop_field hfind hpos, splitLoop_field hfind hpos,
              splitLoop_fuel str f g _ _ (by omega) (by omega)]

/-- Nor does what lies before the position. -/
lemma splitLoop_shift (pre s : Str) : ∀ (fuel last_pos : ℕ) (v : List Str),
    splitLoop (pre ++ s) fuel (pre.length + last_pos) v = splitLoop s fuel last_pos v
  | 0, _, _ => rfl
  | fuel + 1, last_pos, v => by
      have hshift := findFirstOf_shift pre s crlf last_pos
      cases hfind : findFirstOf s crlf last_pos with
      | none =>
          rw [hfind] at hshift
          rw [splitLoop_none hshift, splitLoop_none hfind]
      | some pos =>
          rw [hfind] at hshift
          simp only [Option.map_some] at hshift
          by_cases hpos : pos = last_pos
          · subst hpos
            rw [splitLoop_blank hshift, splitLoop_blank hfind, Nat.add_assoc,
              splitLoop_shift pre s fuel]
          · have hfield : field (pre ++ s) (pre.length + last_pos) (pre.length + pos)
                = field s last_pos pos := by
              rw [field, field, List.drop_append, List.drop_of_length_le (by omega),
                Nat.add_sub_cancel_left, Nat.add_sub_add_left, List.nil_append]
            rw [splitLoop_field hshift (by omega), splitLoop_field hfind hpos, hfield, Nat.add_assoc,
              splitLoop_shift pre s fuel]

/-! ## Splitting what is left -/

/-- `Split` with the tokens `v` found and the bytes `s` to come. -/
def splitTail (s : Str) (v : List Str) : Except Fault (List Str) := splitLoop s (s.length + 1) 0 v

/-- Going on at a later position is starting at the bytes from there on. -/
lemma splitLoop_eq_splitTail (s : Str) (fuel last_pos : ℕ) (v : List Str)
    (h : s.length < fuel + last_pos) : splitLoop s fuel last_pos v = splitTail (s.drop last_pos) v := by
  by_cases hle : last_pos ≤ s.length
  · have hlen : (s.take last_pos).length = last_pos := by simp [hle]
    have hshift := splitLoop_shift (s.take last_pos) (s.drop last_pos) fuel 0 v
    rw [List.take_append_drop, hlen, Nat.add_zero] at hshift
    rw [hshift]
    exact splitLoop_fuel _ _ _ _ _ (by simp; omega) (by simp)
  · rw [splitLoop_none (findFirstOf_of_le (by omega)), List.drop_of_length_le (by omega)]
    rfl

/-- The end: bytes without a delimiter are no token. -/
lemma splitTail_last {s : Str} (hs : ∀ b ∈ s, b ∉ crlf) (v : List Str) : splitTail s v = .ok v :=
  splitLoop_none (findFirstOf_eq_none (by simpa using hs))

/-- An empty field takes two bytes. -/
lemma splitTail_blank {b : UInt8} (hb : b ∈ crlf) (s : Str) {v : List Str} (hv : ¬ MsetStop v) :
    splitTail (b :: s) v = splitTail (s.drop 1) v := by
  have hfind : findFirstOf (b :: s) crlf 0 = some 0 :=
    findFirstOf_zero (a := []) (by simp) hb
  rw [splitTail, splitLoop_blank hfind, if_neg hv, splitLoop_eq_splitTail _ _ _ _ (by simp)]
  rfl

/-- A token takes its bytes, its delimiter, and one more. -/
lemma splitTail_field {t : Str} (ht : Clean t) {b : UInt8} (hb : b ∈ crlf) (s : Str)
    (v : List Str) :
    splitTail (t ++ b :: s) v
      = if MsetStop (v ++ [t]) then .ok (v ++ [t]) else splitTail (s.drop 1) (v ++ [t]) := by
  have hfind : findFirstOf (t ++ b :: s) crlf 0 = some t.length := findFirstOf_zero ht.2 hb
  have hfield : field (t ++ b :: s) 0 t.length = t := by simp [field]
  have hne : t.length ≠ 0 := by simpa using ht.1
  rw [splitTail, splitLoop_field hfind hne, hfield,
    splitLoop_eq_splitTail _ _ _ _ (by simp)]
  congr 2
  simp [List.drop_append]

/-- A line of text. -/
lemma splitTail_line {line : Str} (hline : Clean line) (s : Str) {v : List Str}
    (hv : ¬ MsetStop (v ++ [line])) :
    splitTail (line ++ (crlf ++ s)) v = splitTail s (v ++ [line]) := by
  have hcrlf : crlf ++ s = 13 :: 10 :: s := rfl
  rw [hcrlf, splitTail_field hline (by decide), if_neg hv]
  rfl

/-! ## The fields of a text -/

/-- The tokens of a text by themselves: what `Split` appends if it does not stop early. -/
def fields (s : Str) : List Str :=
  match h : findFirstOf s crlf 0 with
  | none => []
  | some 0 => fields (s.drop 2)
  | some (p + 1) => s.take (p + 1) :: fields (s.drop (p + 3))
termination_by s.length
decreasing_by
  all_goals
    have := (findFirstOf_lt h).2
    simp only [List.length_drop]
    omega

lemma fields_of_clean {s : Str} (hs : ∀ b ∈ s, b ∉ crlf) : fields s = [] := by
  have hfind : findFirstOf s crlf 0 = none := findFirstOf_eq_none (by simpa using hs)
  rw [fields]
  split <;> simp_all

/-- An empty field takes two bytes, as in `splitTail_blank`. -/
lemma fields_blank {b : UInt8} (hb : b ∈ crlf) (s : Str) : fields (b :: s) = fields (s.drop 1) := by
  have hfind : findFirstOf (b :: s) crlf 0 = some 0 := findFirstOf_zero (a := []) (by simp) hb
  rw [fields]
  split <;> simp_all

/-- A token, as in `splitTail_field`. -/
lemma fields_field {t : Str} (ht : Clean t) {b : UInt8} (hb : b ∈ crlf) (s : Str) :
    fields (t ++ b :: s) = t :: fields (s.drop 1) := by
  have hfind : findFirstOf (t ++ b :: s) crlf 0 = some t.length := findFirstOf_zero ht.2 hb
  obtain ⟨p, hp⟩ : ∃ p, t.length = p + 1 :=
    Nat.exists_eq_succ_of_ne_zero (by simpa using ht.1)
  rw [fields]
  split
  · simp_all
  · simp_all
  · rename_i q hq
    obtain rfl : q = p := by
      rw [hfind, hp] at hq
      simpa using hq.symm
    rw [← hp, List.take_left, show q + 3 = t.length + 2 by omega, List.drop_append,
      List.drop_of_length_le (by omega), List.nil_append, Nat.add_sub_cancel_left]
    rfl

/-- An empty line. -/
lemma fields_crlf (s : Str) : fields (crlf ++ s) = fields s :=
  fields_blank (b := 13) (by decide) (10 :: s)

/-- Any other line. -/
lemma fields_line {line : Str} (hline : Clean line) (s : Str) :
    fields (line ++ (crlf ++ s)) = line :: fields s :=
  fields_field hline (b := 13) (by decide) (10 :: s)

/-- Many lines. -/
lemma fields_lines (s : Str) : ∀ {lines : List Str}, (∀ l ∈ lines, Clean l) →
    fields (lines.flatMap (· ++ crlf) ++ s) = lines ++ fields s
  | [], _ => rfl
  | l :: lines, h => by
      rw [List.flatMap_cons, List.append_assoc, List.append_assoc, fields_line (h l (by simp)),
        fields_lines s fun l hl => h l (by simp [hl]), List.cons_append]

/-- A text is free of delimiters, or it splits at the first one. -/
lemma clean_or_split (s : Str) :
    (∀ b ∈ s, b ∉ crlf) ∨ ∃ a b c, s = a ++ b :: c ∧ b ∈ crlf ∧ ∀ x ∈ a, x ∉ crlf := by
  cases hfind : findFirstOf s crlf 0 with
  | none =>
      left
      simp only [findFirstOf, Option.map_eq_none_iff, List.findIdx?_eq_none_iff, List.drop_zero]
        at hfind
      intro b hb
      simpa using hfind b hb
  | some p =>
      right
      obtain ⟨a, b, c, hd, -, hb, ha⟩ := findFirstOf_eq_some hfind
      exact ⟨a, b, c, by simpa using hd, hb, ha⟩

/-- Where `Split` ends, in all the fields: at the tenth, if the third is the name of `mset`. -/
def msetCut (v : List Str) : List Str :=
  if v[2]? = some (lit "mset") ∨ v[2]? = some (lit "MSET") then v.take 10 else v

lemma msetCut_of_go {v : List Str} (hgo : ∀ n, ¬ MsetStop (v.take n)) : msetCut v = v := by
  unfold msetCut
  split_ifs with hname
  · refine List.take_of_length_le (not_lt.mp fun hlen => hgo 10 ⟨?_, ?_⟩)
    · rw [List.length_take]
      omega
    · rwa [List.getElem?_take_of_lt (by omega)]
  · rfl

lemma msetCut_of_stop {v : List Str} (h : MsetStop v) (w : List Str) : msetCut (v ++ w) = v := by
  obtain ⟨hlen, hname⟩ := h
  have hthird : (v ++ w)[2]? = v[2]? := List.getElem?_append_left (by omega)
  rw [msetCut, hthird, if_pos hname, ← hlen, List.take_left]

/-- A token that does not end `Split` leaves it going. -/
lemma go_snoc {v : List Str} {t : Str} (hgo : ∀ n, ¬ MsetStop (v.take n)) (ht : ¬ MsetStop (v ++ [t]))
    (n : ℕ) : ¬ MsetStop ((v ++ [t]).take n) := by
  rcases Nat.lt_or_ge v.length n with hn | hn
  · rwa [List.take_of_length_le (by simpa using hn)]
  · rw [List.take_append_of_le_length hn]
    exact hgo n

/-- **`Split` returns the fields up to where it stops.** -/
lemma splitTail_eq_msetCut (s : Str) {v : List Str} (hgo : ∀ n, ¬ MsetStop (v.take n)) :
    splitTail s v = .ok (msetCut (v ++ fields s)) := by
  induction hn : s.length using Nat.strong_induction_on generalizing s v with
  | _ n ih =>
      rcases clean_or_split s with hclean | ⟨a, b, c, rfl, hb, ha⟩
      · rw [splitTail_last hclean, fields_of_clean hclean, List.append_nil, msetCut_of_go hgo]
      · have hlt : (c.drop 1).length < n := by
          rw [← hn]
          simp only [List.length_drop, List.length_append, List.length_cons]
          omega
        by_cases hnil : a = []
        · subst hnil
          have hv : ¬ MsetStop v := by
            have := hgo v.length
            rwa [List.take_length] at this
          rw [List.nil_append, fields_blank hb, splitTail_blank hb c hv]
          exact ih _ hlt _ hgo rfl
        · have hsplit : v ++ fields (a ++ b :: c) = v ++ [a] ++ fields (c.drop 1) := by
            rw [fields_field ⟨hnil, ha⟩ hb, List.append_assoc, List.singleton_append]
          rw [hsplit, splitTail_field ⟨hnil, ha⟩ hb]
          split_ifs with hstop
          · rw [msetCut_of_stop hstop]
          · exact ih _ hlt _ (go_snoc hgo hstop) rfl

/-- They are all, if it does not stop early. -/
lemma splitTail_of_go (s : Str) {v : List Str} (hgo : ∀ n, ¬ MsetStop ((v ++ fields s).take n)) :
    splitTail s v = .ok (v ++ fields s) := by
  have hv : ∀ n, ¬ MsetStop (v.take n) := by
    intro n
    have := hgo (min n v.length)
    rwa [List.take_append_of_le_length (Nat.min_le_right _ _), ← List.take_take, List.take_length]
      at this
  rw [splitTail_eq_msetCut s hv, msetCut_of_go hgo]

/-- It does not if the third token is not the name of `mset`. -/
lemma not_msetStop_of_third {v : List Str} {name : Str} (hv : v[2]? = some name)
    (hname : name ≠ lit "mset" ∧ name ≠ lit "MSET") (n : ℕ) : ¬ MsetStop (v.take n) := by
  rintro ⟨hlen, hstop⟩
  have hthird : (v.take n)[2]? = some name := by
    rw [List.getElem?_take_of_lt, hv]
    rw [List.length_take] at hlen
    omega
  rw [hthird, Option.some.injEq, Option.some.injEq] at hstop
  exact hstop.elim hname.1 hname.2

/-- **`Split` behind the name of a command other than `mset`** returns all the fields. -/
lemma splitTail_eq_fields (s : Str) {v : List Str} {name : Str} (hv : v[2]? = some name)
    (hname : name ≠ lit "mset" ∧ name ≠ lit "MSET") : splitTail s v = .ok (v ++ fields s) := by
  refine splitTail_of_go s (not_msetStop_of_third ?_ hname)
  rw [List.getElem?_append_left (List.getElem?_eq_some_iff.mp hv).1, hv]

/-! ## Counting lines -/

/-- Counting in a suffix, from a position inside it. -/
lemma skipLines_shift (pre s : Str) : ∀ n pos,
    skipLines (pre ++ s) n (pre.length + pos) = (skipLines s n pos).map (pre.length + ·)
  | 0, _ => rfl
  | n + 1, pos => by
      simp only [skipLines, findFirstOf_shift]
      cases findFirstOf s crlf pos with
      | none => rfl
      | some p =>
          simp only [Option.map_some, Option.bind_some, Nat.add_assoc]
          exact skipLines_shift pre s n (p + 2)

/-- **Lines are skipped one by one**, empty ones too. -/
lemma skipLines_lines (s : Str) : ∀ lines : List Str, (∀ l ∈ lines, ∀ b ∈ l, b ∉ crlf) →
    skipLines (lines.flatMap (· ++ crlf) ++ s) lines.length 0
      = some (lines.flatMap (· ++ crlf)).length
  | [], _ => rfl
  | l :: lines, h => by
      have hfind : findFirstOf ((l :: lines).flatMap (· ++ crlf) ++ s) crlf 0 = some l.length := by
        have hl := findFirstOf_zero (c := 10 :: (lines.flatMap (· ++ crlf) ++ s)) (b := 13)
          (h l (by simp)) (by decide)
        simpa [crlf, lit] using hl
      have hlen : l.length + 2 = (l ++ crlf).length + 0 := by simp [crlf, lit]
      rw [List.length_cons, skipLines, hfind, Option.bind_some, hlen, List.flatMap_cons,
        List.append_assoc, skipLines_shift,
        skipLines_lines s lines fun l' hl' => h l' (by simp [hl'])]
      simp only [Option.map_some, List.length_append]

/-! ## The tokens of a request -/

/-- What `Split` returns. -/
def tokens (data : Str) : List Str :=
  match split data with
  | .ok v => v
  | .error _ => []

lemma split_eq (data : Str) : split data = .ok (tokens data) := by
  obtain ⟨w, hw, -⟩ := splitLoop_clean data (data.length + 1) 0 [] (by simp)
  simp [tokens, split, hw]

/-- The tokens are the fields up to where `Split` stops. -/
lemma tokens_eq_msetCut (s : Str) : tokens s = msetCut (fields s) := by
  have hgo : ∀ n, ¬ MsetStop (([] : List Str).take n) := by
    simp [MsetStop]
  have hsplit : split s = .ok (msetCut (fields s)) := splitTail_eq_msetCut s hgo
  rw [split_eq, Except.ok.injEq] at hsplit
  exact hsplit

/-- They are all the fields, if it does not stop early. -/
lemma tokens_eq_fields {s : Str} (hgo : ∀ n, ¬ MsetStop ((fields s).take n)) : tokens s = fields s := by
  rw [tokens_eq_msetCut, msetCut_of_go hgo]

section Head

variable {a b c : Str}

/-- The first three lines of a request. -/
lemma split_head (ha : Clean a) (hb : Clean b) (hc : Clean c) (s : Str) :
    split ([a, b, c].flatMap (· ++ crlf) ++ s) = splitTail s [a, b, c] := by
  have hgo : ∀ v : List Str, v.length < 10 → ¬ MsetStop v := by
    rintro v hv ⟨hlen, -⟩
    omega
  show splitTail _ [] = _
  simp only [List.flatMap_cons, List.flatMap_nil, List.append_nil, List.append_assoc]
  rw [splitTail_line ha _ (hgo _ (by simp)), splitTail_line hb _ (hgo _ (by simp)),
    splitTail_line hc _ (hgo _ (by simp))]
  rfl

/-- They are its first three tokens, and if the third is not the name of `mset`, the fields of the
rest are the others. -/
lemma tokens_head (ha : Clean a) (hb : Clean b) (hc : Clean c) (s : Str) :
    ∃ w, tokens ([a, b, c].flatMap (· ++ crlf) ++ s) = [a, b, c] ++ w ∧
      (c ≠ lit "mset" ∧ c ≠ lit "MSET" → w = fields s) := by
  have hsplit := split_head ha hb hc s
  obtain ⟨w, hw⟩ := splitLoop_append s (s.length + 1) 0 [a, b, c]
  have htok : tokens ([a, b, c].flatMap (· ++ crlf) ++ s) = [a, b, c] ++ w := by
    rw [split_eq, splitTail, hw, Except.ok.injEq] at hsplit
    exact hsplit
  refine ⟨w, htok, fun hname => ?_⟩
  rw [splitTail_eq_fields s rfl hname, split_eq, Except.ok.injEq, htok] at hsplit
  exact List.append_cancel_left hsplit

end Head

/-- **Tokens are clean.** -/
theorem clean_of_mem_tokens {data t : Str} (ht : t ∈ tokens data) : Clean t := by
  obtain ⟨w, hw, hclean⟩ := splitLoop_clean data (data.length + 1) 0 [] (by simp)
  have hdata : split data = .ok w := hw
  rw [split_eq, Except.ok.injEq] at hdata
  exact hclean t (hdata ▸ ht)

/-! ## Arguments at fixed positions -/

/-- The number in a length line. -/
def lengthOf (line : Str) : ℕ := toUInt64 (atoi (line.drop 1))

lemma getLength_eq {line : Str} (h : line ≠ []) : getLength line = .ok (lengthOf line) := by
  have hlen : 1 ≤ line.length := List.length_pos_of_ne_nil h
  simp [getLength, substrFrom_of_le hlen, lengthOf, bind, Except.bind, pure, Except.pure]

/-- An empty line is where `GetLength` throws. -/
lemma runs_getLength {line : Str} : Runs (getLength line) ↔ line ≠ [] := by
  constructor
  · rintro h rfl
    exact absurd h (by simp [getLength, substrFrom, bind, Except.bind])
  · intro h
    rw [getLength_eq h]
    exact runs_ok _

/-- The argument whose length line is token `i`. -/
def argOf (v : List Str) (i : ℕ) : Str := (v.getD (i + 1) []).take (lengthOf (v.getD i []))

/-- Reading an argument works as far as the tokens go. -/
lemma tokenArg_eq {v : List Str} (hv : ∀ t ∈ v, Clean t) {i : ℕ} (hi : i + 1 < v.length) :
    tokenArg v i = .ok (argOf v i) := by
  have hlen : (v.getD i []) ≠ [] := by
    have hmem : v.getD i [] ∈ v := by simp [List.getD, show i < v.length by omega]
    exact (hv _ hmem).1
  have hget : ∀ j, j < v.length → elemAt v j = .ok (v.getD j []) := fun j hj =>
    elemAt_of_eq_some (by simp [List.getD, hj])
  simp only [tokenArg, hget i (by omega), hget (i + 1) hi, getLength_eq hlen,
    substr_of_le (Nat.zero_le _), bind, Except.bind, List.drop_zero, argOf]

end Riser
