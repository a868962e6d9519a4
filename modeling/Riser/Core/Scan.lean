import Mathlib.Data.List.Basic

/-!
# Scans that stop early

A scan of a list that skips to the first match and stops at the first element behind it that does
not match keeps one block of the list (`firstRun`).  That is **all the matches** whenever the list
is ordered and the matches are convex: nothing between two matches fails to match
(`firstRun_eq_filter`).

In the lexicographic order the lists that start with a given list are convex (`prefix_convex`),
whatever the order on their elements.
-/

namespace Scan

variable {α : Type*}

/-- The first block of matches. -/
def firstRun (p : α → Bool) (l : List α) : List α := (l.dropWhile fun a => !p a).takeWhile p

@[simp]
lemma firstRun_nil (p : α → Bool) : firstRun p [] = [] := rfl

lemma firstRun_cons_of_neg {p : α → Bool} {a : α} (ha : p a = false) (l : List α) :
    firstRun p (a :: l) = firstRun p l := by
  simp [firstRun, ha]

lemma firstRun_cons_of_pos {p : α → Bool} {a : α} (ha : p a = true) (l : List α) :
    firstRun p (a :: l) = a :: l.takeWhile p := by
  simp [firstRun, ha]

/-- Nothing that lies between two matches fails to match. -/
def Convex (r : α → α → Prop) (p : α → Bool) : Prop :=
  ∀ a b c, r a b → r b c → p a = true → p c = true → p b = true

/-- Behind a match of an ordered list, the matches are what comes first. -/
lemma takeWhile_eq_filter {r : α → α → Prop} {p : α → Bool} (hp : Convex r p) {a : α}
    (ha : p a = true) {l : List α} (hl : (a :: l).Pairwise r) : l.takeWhile p = l.filter p := by
  induction l with
  | nil => rfl
  | cons b l ih =>
      obtain ⟨hab, hbl⟩ := List.pairwise_cons.mp hl
      cases hb : p b with
      | true =>
          have hal : (a :: l).Pairwise r :=
            List.pairwise_cons.mpr ⟨fun c hc => hab c (List.mem_cons_of_mem _ hc), hbl.of_cons⟩
          rw [List.takeWhile_cons_of_pos hb, List.filter_cons_of_pos hb, ih hal]
      | false =>
          -- a match behind `b` would make `b` one, by convexity from `a`
          have hnone : l.filter p = [] := by
            rw [List.filter_eq_nil_iff]
            intro c hc hpc
            have hbc : r b c := (List.pairwise_cons.mp hbl).1 c hc
            have hpb : p b = true := hp a b c (hab b List.mem_cons_self) hbc ha hpc
            exact absurd hpb (by simp [hb])
          rw [List.takeWhile_cons_of_neg (by simp [hb]), List.filter_cons_of_neg (by simp [hb]),
            hnone]

/-- **An early exit loses nothing** on an ordered list with convex matches. -/
theorem firstRun_eq_filter {r : α → α → Prop} {p : α → Bool} (hp : Convex r p) {l : List α}
    (hl : l.Pairwise r) : firstRun p l = l.filter p := by
  induction l with
  | nil => rfl
  | cons a l ih =>
      cases ha : p a with
      | true =>
          rw [firstRun_cons_of_pos ha, List.filter_cons_of_pos ha, takeWhile_eq_filter hp ha hl]
      | false =>
          rw [firstRun_cons_of_neg ha, List.filter_cons_of_neg (by simp [ha]), ih hl.of_cons]

section Lexicographic

variable [Ord α] [Std.TransOrd α] [Std.LawfulEqOrd α]

/-- A list between two lists with the same head has that head as well, and its tail lies between
their tails. -/
lemma between_cons {p : α} {as b cs : List α} (hab : compare (p :: as) b = .lt)
    (hbc : compare b (p :: cs) = .lt) :
    ∃ bs, b = p :: bs ∧ compare as bs = .lt ∧ compare bs cs = .lt := by
  cases b with
  | nil => simp at hab
  | cons x bs =>
      rw [List.compare_cons_cons, Ordering.then_eq_lt] at hab hbc
      rcases hab with hpx | ⟨hpx, hab⟩
      · rcases hbc with hxp | ⟨hxp, -⟩
        · exact absurd (Std.TransCmp.lt_trans hpx hxp) (by simp)
        · rw [Std.LawfulEqCmp.compare_eq_iff_eq.mp hxp] at hpx
          exact absurd hpx (by simp)
      · obtain rfl : p = x := Std.LawfulEqCmp.compare_eq_iff_eq.mp hpx
        rcases hbc with hxp | ⟨-, hbc⟩
        · exact absurd hxp (by simp)
        · exact ⟨bs, rfl, hab, hbc⟩

/-- The lists that start with `pre` are convex. -/
lemma prefix_convex [DecidableEq α] (pre : List α) :
    Convex (fun a b : List α => compare a b = .lt) (fun a => decide (pre <+: a)) := by
  intro a b c hab hbc ha hc
  simp only [decide_eq_true_eq] at ha hc ⊢
  induction pre generalizing a b c with
  | nil => exact List.nil_prefix
  | cons p ps ih =>
      obtain ⟨as, rfl, has⟩ := List.cons_prefix_iff.mp ha
      obtain ⟨cs, rfl, hcs⟩ := List.cons_prefix_iff.mp hc
      obtain ⟨bs, rfl, hab', hbc'⟩ := between_cons hab hbc
      exact List.cons_prefix_cons.mpr ⟨rfl, ih as bs cs hab' hbc' has hcs⟩

end Lexicographic

end Scan
