import Mathlib.Data.Multiset.AddSub
import Mathlib.Data.Multiset.MapFold
import Mathlib.Tactic

/-!
# Counting filters

A counting filter keeps for every **slot** how many of the keys that it holds are at that slot, and a key is
held only if its slot is not empty.  Several keys may share a slot; that a slot is not given up too early
rests on two facts about the multiset of the keys held, `live`:

* `occupancy` changes by one at the slot of the key that comes or goes, and nowhere else,
* the slot of a key that is held is occupied (`occupancy_pos`).

Which keys are held is a matter of the **history**: those that were saved more often than cleared.
`Balanced` ties a history to the multiset.
-/

namespace CountingFilter

variable {α β : Type}

/-! ## Slots -/

section Slots

variable [DecidableEq β] (slot : α → β) (live : Multiset α) {k : α}

/-- How many of the keys are at the slot. -/
def occupancy (b : β) : ℕ := (live.map slot).count b

lemma occupancy_zero (b : β) : occupancy slot 0 b = 0 := by
  simp [occupancy]

lemma occupancy_cons (k : α) (b : β) :
    occupancy slot (k ::ₘ live) b = occupancy slot live b + if b = slot k then 1 else 0 := by
  rw [occupancy, Multiset.map_cons, Multiset.count_cons, occupancy]

lemma occupancy_erase [DecidableEq α] (h : k ∈ live) (b : β) :
    occupancy slot live b = occupancy slot (live.erase k) b + if b = slot k then 1 else 0 := by
  rw [← occupancy_cons, Multiset.cons_erase h]

/-- **The slot of a key that is held is occupied.** -/
lemma occupancy_pos (h : k ∈ live) : 0 < occupancy slot live (slot k) :=
  Multiset.count_pos.mpr (Multiset.mem_map_of_mem slot h)

end Slots

/-! ## Histories -/

/-- What is done to the filter. -/
inductive Event (α : Type) where
  | save (k : α)
  | clear (k : α)
  deriving DecidableEq

variable [DecidableEq α]

/-- How often the key was saved. -/
def saves (k : α) (past : List (Event α)) : ℕ := past.count (.save k)

/-- How often it was cleared. -/
def clears (k : α) (past : List (Event α)) : ℕ := past.count (.clear k)

/-- `live` are the keys that were saved and not cleared again. -/
def Balanced (past : List (Event α)) (live : Multiset α) : Prop :=
  ∀ k, live.count k + clears k past = saves k past

variable {past : List (Event α)} {live : Multiset α} {k : α}

lemma Balanced.nil : Balanced ([] : List (Event α)) 0 := by
  intro k
  simp [clears, saves]

lemma Balanced.mem_iff (h : Balanced past live) : k ∈ live ↔ clears k past < saves k past := by
  rw [← Multiset.count_pos, ← h k]
  omega

lemma Balanced.save (h : Balanced past live) (k : α) : Balanced (past ++ [.save k]) (k ::ₘ live) := by
  intro j
  have hj := h j
  simp only [clears, saves, List.count_append, Multiset.count_cons] at hj ⊢
  by_cases hjk : j = k
  · subst hjk
    simp
    omega
  · have hkj : k ≠ j := fun h => hjk h.symm
    simp [hjk, hkj]
    omega

lemma Balanced.clear (h : Balanced past live) (hk : k ∈ live) :
    Balanced (past ++ [.clear k]) (live.erase k) := by
  intro j
  have hj := h j
  have hpos := Multiset.count_pos.mpr hk
  simp only [clears, saves, List.count_append] at hj ⊢
  by_cases hjk : j = k
  · subst hjk
    rw [Multiset.count_erase_self]
    simp
    omega
  · have hkj : k ≠ j := fun h => hjk h.symm
    rw [Multiset.count_erase_of_ne hjk]
    simp [hkj]
    omega

end CountingFilter
