import Mathlib.Tactic

/-!
# A map with expiry times

What a key-value store with time-to-live is for: a partial map that binds a key to a value and an
expiry, where expiry `0` means that the binding never expires.  Bindings are looked at under a
clock (`visible`) and removed by a sweep (`sweep`).  Note that the two draw the line differently:
a binding is still visible in the second of its expiry, and a sweep in that second removes it.
-/

/-- A partial map to values with an expiry. -/
abbrev ExpMap (K V : Type) := K → Option (V × ℕ)

namespace ExpMap

variable {K V : Type}

/-- No key is bound. -/
def empty : ExpMap K V := fun _ => none

/-- Bind every key of `m` to its value, without expiry. -/
def bindAll (a : ExpMap K V) (m : K → Option V) : ExpMap K V :=
  fun k => (m k).elim (a k) fun v => some (v, 0)

/-- Unbind every key whose expiry has come. -/
def sweep (a : ExpMap K V) (now : ℕ) : ExpMap K V :=
  fun k => (a k).filter fun p => p.2 = 0 || now < p.2

/-- What a reader sees at time `now`. -/
def visible (a : ExpMap K V) (now : ℕ) (k : K) : Option V :=
  ((a k).filter fun p => p.2 = 0 || now ≤ p.2).map Prod.fst

/-- The expiry of a key, `0` for an unbound one. -/
def expiry (a : ExpMap K V) (k : K) : ℕ := (a k).elim 0 Prod.snd

/-- A sweep removes a binding whose expiry has come. -/
lemma sweep_of_expired {a : ExpMap K V} {k : K} {v : V} {e now : ℕ} (hk : a k = some (v, e))
    (h : e ≠ 0 ∧ e ≤ now) : a.sweep now k = none := by
  simp only [sweep, hk, Option.filter_some]
  simp [h.1, not_lt.mpr h.2]

/-- A sweep keeps every other binding. -/
lemma sweep_of_not_expired {a : ExpMap K V} {k : K} {now : ℕ}
    (h : ∀ v e, a k = some (v, e) → ¬ (e ≠ 0 ∧ e ≤ now)) : a.sweep now k = a k := by
  cases hk : a k with
  | none => simp [sweep, hk]
  | some p =>
      have hp := h p.1 p.2 hk
      simp only [sweep, hk, Option.filter_some]
      by_cases h0 : p.2 = 0
      · simp [h0]
      · have hlt : now < p.2 := not_le.mp fun hle => hp ⟨h0, hle⟩
        simp [hlt]

/-! ## What holds of every binding -/

/-- Every binding is of a certain kind. -/
def All (P : V → ℕ → Prop) (a : ExpMap K V) : Prop := ∀ k v e, a k = some (v, e) → P v e

lemma All.empty {P : V → ℕ → Prop} : All (K := K) P .empty := by
  intro k v e hk
  cases hk

/-- A sweep leaves some of the bindings. -/
lemma All.sweep {P : V → ℕ → Prop} {a : ExpMap K V} (h : All P a) (now : ℕ) : All P (a.sweep now) := by
  intro k v e hk
  simp only [ExpMap.sweep, Option.filter_eq_some_iff] at hk
  exact h k v e hk.1

variable [DecidableEq K]

/-- Bind `k` to `(v, e)`. -/
def bind (a : ExpMap K V) (k : K) (v : V) (e : ℕ) : ExpMap K V := Function.update a k (some (v, e))

/-- Unbind `k`. -/
def unbind (a : ExpMap K V) (k : K) : ExpMap K V := Function.update a k none

lemma All.bind {P : V → ℕ → Prop} {a : ExpMap K V} (h : All P a) (k : K) {v : V} {e : ℕ}
    (hv : P v e) : All P (a.bind k v e) := by
  intro k' v' e' hk
  by_cases heq : k' = k
  · subst heq
    rw [ExpMap.bind, Function.update_self] at hk
    cases hk
    exact hv
  · rw [ExpMap.bind, Function.update_of_ne heq] at hk
    exact h k' v' e' hk

lemma All.unbind {P : V → ℕ → Prop} {a : ExpMap K V} (h : All P a) (k : K) : All P (a.unbind k) := by
  intro k' v e hk
  by_cases heq : k' = k
  · subst heq
    rw [ExpMap.unbind, Function.update_self] at hk
    cases hk
  · rw [ExpMap.unbind, Function.update_of_ne heq] at hk
    exact h k' v e hk

/-! ## Binding a list of pairs -/

/-- Bind the pairs of a list one after the other, without expiry. -/
def bindList (a : ExpMap K V) (l : List (K × V)) : ExpMap K V :=
  l.foldl (fun a kv => a.bind kv.1 kv.2 0) a

lemma All.bindList {P : V → ℕ → Prop} {a : ExpMap K V} (h : All P a) {l : List (K × V)}
    (hl : ∀ kv ∈ l, P kv.2 0) : All P (a.bindList l) := by
  induction l generalizing a with
  | nil => exact h
  | cons kv l ih =>
      exact ih (h.bind kv.1 (hl kv List.mem_cons_self)) fun x hx => hl x (List.mem_cons_of_mem kv hx)

lemma bindList_of_notMem {l : List (K × V)} {k : K} (hk : k ∉ l.map Prod.fst) (a : ExpMap K V) :
    a.bindList l k = a k := by
  induction l generalizing a with
  | nil => rfl
  | cons kv l ih =>
      simp only [List.map_cons, List.mem_cons, not_or] at hk
      simp only [bindList, List.foldl_cons] at ih ⊢
      rw [ih hk.2, bind, Function.update_of_ne hk.1]

lemma bindList_of_mem {l : List (K × V)} (hl : (l.map Prod.fst).Nodup) {k : K} {v : V}
    (hk : (k, v) ∈ l) (a : ExpMap K V) : a.bindList l k = some (v, 0) := by
  induction l generalizing a with
  | nil => simp at hk
  | cons kv l ih =>
      simp only [List.map_cons, List.nodup_cons] at hl
      rcases List.mem_cons.mp hk with rfl | hk
      · -- the later pairs have other keys, so this binding stays
        rw [bindList, List.foldl_cons]
        exact (bindList_of_notMem hl.1 _).trans (by simp [bind])
      · rw [bindList, List.foldl_cons]
        exact ih hl.2 hk _

/-- Binding pairs that another map already has makes the two agree on their keys. -/
lemma bindList_of_agree {b : ExpMap K V} {l : List (K × V)} (hl : ∀ kv ∈ l, b kv.1 = some (kv.2, 0))
    {k : K} (hk : k ∈ l.map Prod.fst) (a : ExpMap K V) : a.bindList l k = b k := by
  induction l generalizing a with
  | nil => simp at hk
  | cons kv l ih =>
      rw [bindList, List.foldl_cons]
      by_cases hrest : k ∈ l.map Prod.fst
      · exact ih (fun x hx => hl x (by simp [hx])) hrest _
      · obtain rfl : k = kv.1 := by simpa [hrest] using hk
        exact (bindList_of_notMem hrest _).trans (by simp [bind, hl kv (by simp)])

/-- Where it binds, the map does not matter. -/
lemma bindList_congr {l : List (K × V)} {k : K} (hk : k ∈ l.map Prod.fst) (a b : ExpMap K V) :
    a.bindList l k = b.bindList l k := by
  induction l generalizing a b with
  | nil => cases hk
  | cons kv l ih =>
      rw [bindList, List.foldl_cons, bindList, List.foldl_cons]
      by_cases hrest : k ∈ l.map Prod.fst
      · exact ih hrest _ _
      · obtain rfl : k = kv.1 := by
          rw [List.map_cons, List.mem_cons] at hk
          exact hk.resolve_right hrest
        have hbind : ∀ m : ExpMap K V, m.bind kv.1 kv.2 0 kv.1 = some (kv.2, 0) := fun m =>
          Function.update_self ..
        exact ((bindList_of_notMem hrest _).trans (hbind a)).trans
          ((bindList_of_notMem hrest _).trans (hbind b)).symm

/-- **Binding the pairs of a map one by one binds them all**, if each key occurs once. -/
theorem bindList_eq_bindAll {l : List (K × V)} (hl : (l.map Prod.fst).Nodup) {m : K → Option V}
    (hm : ∀ k v, (k, v) ∈ l ↔ m k = some v) (a : ExpMap K V) : a.bindList l = a.bindAll m := by
  funext k
  cases hk : m k with
  | none =>
      have hnot : k ∉ l.map Prod.fst := by
        simp only [List.mem_map, Prod.exists, exists_and_right, exists_eq_right, not_exists]
        intro v hv
        simp [(hm k v).mp hv] at hk
      simp [bindList_of_notMem hnot, bindAll, hk]
  | some v => simp [bindList_of_mem hl ((hm k v).mpr hk), bindAll, hk]

end ExpMap
