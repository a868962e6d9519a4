import Mathlib.Tactic

/-!
# Dealing numbers out

The numbers `0, 1, 2, …` are dealt out to hands, each to one hand and behind what that hand has.
`Deal.Fair hand n` says that the numbers below `n` have been dealt like this, and `Fair.give` that
dealing the next one keeps it.  A system that passes every item to one of several queues is of this
form, with the history of a queue as its hand.
-/

namespace Deal

variable {I : Type*} {hand : I → List ℕ} {n : ℕ}

/-- The numbers below `n` are in the hands, each once and in order. -/
structure Fair (hand : I → List ℕ) (n : ℕ) : Prop where
  sorted : ∀ i, (hand i).Pairwise (· < ·)
  dealt : ∀ d, (∃ i, d ∈ hand i) ↔ d < n
  apart : ∀ i j d, d ∈ hand i → d ∈ hand j → i = j

lemma Fair.nil : Fair (fun _ : I => []) 0 :=
  ⟨fun _ => .nil, fun d => by simp, fun _ _ d h => absurd h List.not_mem_nil⟩

lemma Fair.lt (h : Fair hand n) {i : I} {d : ℕ} (hd : d ∈ hand i) : d < n :=
  (h.dealt d).mp ⟨i, hd⟩

variable [DecidableEq I]

lemma mem_give {i j : I} {d : ℕ} :
    d ∈ Function.update hand i (hand i ++ [n]) j ↔ d ∈ hand j ∨ d = n ∧ j = i := by
  rcases eq_or_ne j i with rfl | hne
  · simp
  · simp [hne]

/-- **The next number goes to a hand.** -/
theorem Fair.give (h : Fair hand n) (i : I) :
    Fair (Function.update hand i (hand i ++ [n])) (n + 1) where
  sorted j := by
    rcases eq_or_ne j i with rfl | hne
    · rw [Function.update_self, List.pairwise_append]
      refine ⟨h.sorted j, List.pairwise_singleton _ _, fun d hd m hm => ?_⟩
      obtain rfl := List.mem_singleton.mp hm
      exact h.lt hd
    · rw [Function.update_of_ne hne]
      exact h.sorted j
  dealt d := by
    simp only [mem_give, exists_or, h.dealt, exists_and_left, exists_eq, and_true]
    omega
  apart j k d hj hk := by
    -- the new number is in no hand yet, so it is only where it has just been put
    rw [mem_give] at hj hk
    rcases hj with hj | ⟨rfl, rfl⟩ <;> rcases hk with hk | ⟨hd, rfl⟩
    · exact h.apart j k d hj hk
    · exact absurd (h.lt hj) (by omega)
    · exact absurd (h.lt hk) (lt_irrefl _)
    · rfl

end Deal
