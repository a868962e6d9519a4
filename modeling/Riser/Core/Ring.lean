import Mathlib.Tactic

/-!
# Ring buffers

A ring is a list of cells whose ends are joined: the element `i` places behind `start` is in the cell
`(start + i) % length`.  `Holds` says that the ring holds the given elements from `start` on.  It is
kept by writing behind the last one (`Holds.push`) and by going on from the first (`Holds.pop`).
-/

namespace Ring

variable {α : Type*}

/-- The cell `i` places behind `start`. -/
def slot (cap start i : ℕ) : ℕ := (start + i) % cap

/-- The elements stand in the cells from `start` on, each in one of its own. -/
structure Holds (cells : List α) (start : ℕ) (items : List α) : Prop where
  fits : items.length ≤ cells.length
  stands : ∀ i < items.length, cells[slot cells.length start i]? = items[i]?

lemma slot_lt {cap : ℕ} (hcap : 0 < cap) (start i : ℕ) : slot cap start i < cap :=
  Nat.mod_lt _ hcap

/-- As many places as there are cells are different cells. -/
lemma slot_injOn {cap start i j : ℕ} (hi : i < cap) (hj : j < cap)
    (h : slot cap start i = slot cap start j) : i = j := by
  have hmod : i ≡ j [MOD cap] := Nat.ModEq.add_left_cancel' start h
  rw [Nat.ModEq, Nat.mod_eq_of_lt hi, Nat.mod_eq_of_lt hj] at hmod
  exact hmod

/-- The places behind the next cell are those behind this one, but for the first. -/
lemma slot_next (cap start i : ℕ) : slot cap ((start + 1) % cap) i = slot cap start (i + 1) := by
  rw [slot, slot, Nat.mod_add_mod, Nat.add_assoc, Nat.add_comm 1 i]

lemma Holds.nil (cells : List α) (start : ℕ) : Holds cells start [] := ⟨Nat.zero_le _, nofun⟩

/-- **Writing behind the last element.** -/
lemma Holds.push {cells items : List α} {start : ℕ} (h : Holds cells start items)
    (hroom : items.length < cells.length) (a : α) :
    Holds (cells.set (slot cells.length start items.length) a) start (items ++ [a]) := by
  refine ⟨by simpa using hroom, fun i hi => ?_⟩
  rw [List.length_append, List.length_singleton] at hi
  rw [List.length_set]
  rcases Nat.lt_succ_iff_lt_or_eq.mp hi with hlt | rfl
  · -- an element that was there: its cell is another one
    have hne : slot cells.length start items.length ≠ slot cells.length start i := fun heq =>
      absurd (slot_injOn hroom (hlt.trans hroom) heq) (by omega)
    rw [List.getElem?_set_ne hne, h.stands i hlt, List.getElem?_append_left hlt]
  · rw [List.getElem?_set_self (slot_lt (by omega) _ _), List.getElem?_append_right le_rfl,
      Nat.sub_self]
    rfl

/-- **Going on from the first element.** -/
lemma Holds.pop {cells items : List α} {start : ℕ} {a : α} (h : Holds cells start (a :: items))
    (hstart : start < cells.length) :
    cells[start]? = some a ∧ Holds cells ((start + 1) % cells.length) items := by
  refine ⟨?_, (Nat.le_succ _).trans h.fits, fun i hi => ?_⟩
  · have hfirst := h.stands 0 (Nat.succ_pos _)
    rw [slot, Nat.add_zero, Nat.mod_eq_of_lt hstart] at hfirst
    exact hfirst
  · rw [slot_next, h.stands (i + 1) (Nat.succ_lt_succ hi), List.getElem?_cons_succ]

end Ring
