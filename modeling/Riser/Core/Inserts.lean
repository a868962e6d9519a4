import Mathlib.Tactic
import Mathlib.Data.List.Nodup

/-!
# Many insertions into a map

What a map holds after the pairs of a list have gone in, one after the other.  The keys are those it had and
those of the list (`mem_foldl_insert`).  **A key that the list does not have keeps its value**, and one that
it has once gets the value of its pair; so a map that goes into another one as a whole overrides it
(`getElem?_batch`).
-/

namespace Inserts

variable {α β γ : Type} {cmp : α → α → Ordering} [Std.TransCmp cmp] [Std.LawfulEqCmp cmp]

/-- The keys. -/
lemma mem_foldl_insert (v : α × γ → β) (l : List (α × γ)) (k : α) (t : Std.ExtTreeMap α β cmp) :
    k ∈ l.foldl (fun t kv => t.insert kv.1 (v kv)) t ↔ k ∈ t ∨ k ∈ l.map Prod.fst := by
  induction l generalizing t with
  | nil => simp
  | cons kv l ih =>
      rw [List.foldl_cons, ih, Std.ExtTreeMap.mem_insert, Std.LawfulEqCmp.compare_eq_iff_eq,
        List.map_cons, List.mem_cons]
      tauto

lemma getElem?_foldl_insert_of_notMem {l : List (α × β)} {k : α} (h : k ∉ l.map Prod.fst)
    (t : Std.ExtTreeMap α β cmp) : (l.foldl (fun t kv => t.insert kv.1 kv.2) t)[k]? = t[k]? := by
  induction l generalizing t with
  | nil => rfl
  | cons kv l ih =>
      rw [List.map_cons, List.mem_cons, not_or] at h
      rw [List.foldl_cons, ih h.2, Std.ExtTreeMap.getElem?_insert]
      simp only [Std.LawfulEqCmp.compare_eq_iff_eq, Ne.symm h.1, if_false]

lemma getElem?_foldl_insert_of_mem {l : List (α × β)} (hl : (l.map Prod.fst).Nodup) {k : α} {v : β}
    (h : (k, v) ∈ l) (t : Std.ExtTreeMap α β cmp) :
    (l.foldl (fun t kv => t.insert kv.1 kv.2) t)[k]? = some v := by
  induction l generalizing t with
  | nil => cases h
  | cons kv l ih =>
      rw [List.map_cons, List.nodup_cons] at hl
      rcases List.mem_cons.mp h with rfl | h
      · rw [List.foldl_cons, getElem?_foldl_insert_of_notMem hl.1, Std.ExtTreeMap.getElem?_insert_self]
      · exact ih hl.2 h _

/-- **A key after a batch.** -/
lemma getElem?_batch (data t : Std.ExtTreeMap α β cmp) (k : α) :
    (data.toList.foldl (fun t kv => t.insert kv.1 kv.2) t)[k]? = data[k]?.or t[k]? := by
  have hnodup : (data.toList.map Prod.fst).Nodup := by
    rw [Std.ExtTreeMap.map_fst_toList_eq_keys]
    exact Std.ExtTreeMap.nodup_keys
  cases hk : data[k]? with
  | none =>
      rw [Option.none_or]
      refine getElem?_foldl_insert_of_notMem ?_ t
      rw [Std.ExtTreeMap.map_fst_toList_eq_keys, Std.ExtTreeMap.mem_keys,
        Std.ExtTreeMap.mem_iff_isSome_getElem?, hk]
      simp
  | some v =>
      rw [Option.some_or]
      exact getElem?_foldl_insert_of_mem hnodup (Std.ExtTreeMap.mem_toList_iff_getElem?_eq_some.mpr hk) t

end Inserts
