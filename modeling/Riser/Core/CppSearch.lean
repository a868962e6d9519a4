import Riser.Core.CppString

/-!
# Searches for the first or the last byte outside a set

`find_first_not_of` and `find_last_not_of` of a `std::string`, which a program uses to cut blanks from
the ends of a text.  For each there is a lemma about a miss, one that says how the text splits at a
hit, and the case in which the very first byte is one.
-/

namespace Cpp

/-- `s.find_first_not_of(set, pos)`, `none` for `npos`. -/
def findFirstNotOf (s set : Str) (pos : ℕ) : Option ℕ :=
  ((s.drop pos).findIdx? fun b => decide (b ∉ set)).map (pos + ·)

/-- `s.find_last_not_of(set)`, `none` for `npos`. -/
def findLastNotOf (s set : Str) : Option ℕ :=
  (s.reverse.findIdx? fun b => decide (b ∉ set)).map (s.length - 1 - ·)

variable {s set : Str} {pos p : ℕ}

/-- How a list splits at the first element with a property. -/
lemma split_of_findIdx? {l : Str} {q : UInt8 → Bool} {i : ℕ} (h : l.findIdx? q = some i) :
    ∃ a b c, l = a ++ b :: c ∧ i = a.length ∧ q b = true ∧ ∀ x ∈ a, q x = false := by
  rw [List.findIdx?_eq_some_iff_getElem] at h
  obtain ⟨hlt, hq, hbefore⟩ := h
  refine ⟨l.take i, l[i], l.drop (i + 1), ?_, ?_, hq, fun x hx => ?_⟩
  · rw [List.getElem_cons_drop, List.take_append_drop]
  · rw [List.length_take, Nat.min_eq_left hlt.le]
  · obtain ⟨j, hj, rfl⟩ := List.mem_iff_getElem.mp hx
    rw [List.length_take] at hj
    simpa using hbefore j (by omega)

lemma findFirstNotOf_eq_none_iff :
    findFirstNotOf s set pos = none ↔ ∀ b ∈ s.drop pos, b ∈ set := by
  simp [findFirstNotOf, List.findIdx?_eq_none_iff]

lemma findFirstNotOf_eq_some (h : findFirstNotOf s set pos = some p) :
    ∃ a b c, s.drop pos = a ++ b :: c ∧ p = pos + a.length ∧ b ∉ set ∧ ∀ x ∈ a, x ∈ set := by
  obtain ⟨i, hi, rfl⟩ := Option.map_eq_some_iff.mp h
  obtain ⟨a, b, c, hsplit, rfl, hb, ha⟩ := split_of_findIdx? hi
  exact ⟨a, b, c, hsplit, rfl, by simpa using hb, fun x hx => by simpa using ha x hx⟩

/-- Where the search stops, given how the text splits. -/
lemma findFirstNotOf_append {a c : Str} {b : UInt8} (ha : ∀ x ∈ a, x ∈ set) (hb : b ∉ set) :
    findFirstNotOf (a ++ b :: c) set 0 = some a.length := by
  have hidx : (a ++ b :: c).findIdx? (fun x => decide (x ∉ set)) = some a.length := by
    rw [List.findIdx?_append, List.findIdx?_eq_none_iff.mpr fun x hx => by simpa using ha x hx]
    simp [List.findIdx?_cons, hb]
  rw [findFirstNotOf, List.drop_zero, hidx, Option.map_some, Nat.zero_add]

lemma findFirstNotOf_head {b : UInt8} {c : Str} (h : s.drop pos = b :: c) (hb : b ∉ set) :
    findFirstNotOf s set pos = some pos := by
  simp [findFirstNotOf, h, List.findIdx?_cons, hb]

lemma findLastNotOf_eq_none_iff : findLastNotOf s set = none ↔ ∀ b ∈ s, b ∈ set := by
  simp [findLastNotOf, List.findIdx?_eq_none_iff]

lemma findLastNotOf_concat (a : Str) {b : UInt8} (hb : b ∉ set) :
    findLastNotOf (a ++ [b]) set = some a.length := by
  simp [findLastNotOf, List.findIdx?_cons, hb]

end Cpp
