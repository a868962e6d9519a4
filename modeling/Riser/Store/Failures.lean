import Riser.Store.GentDb

/-!
# Writes that fail

A write of `GentDb` makes two or more calls of leveldb, each of which takes effect and reports ok or
has no effect and reports an error.  `attempt` is the write with the outcome of each call as a
parameter (`Outcomes`).  Is it all or nothing?

* `Put` counts a key as new if the lookup in `meta_db` does not find it, **whether or not the value
  went in**: a `Put` that fails has changed `key_num`.
* What happens to the meta records **is not looked at**: all three report success if the value went
  in (or out), with the old record, or none, next to it.

`allOrNothing_iff` has the exact condition, for every store and every choice of failures.
-/

namespace Riser

open Cpp

/-- What leveldb reports: for the lookup of `Put` in `meta_db`, for the write to `db`, and for the
write of a record to `meta_db`. -/
structure Outcomes where
  okGet : Bool
  okDb : Bool
  okMeta : Str → Bool

/-- The writes of `GentDb`. -/
inductive WriteCall where
  | put (key value : Str) (expire : ℕ) (datatype : ℤ)
  | putString (key value : Str) (expire : ℕ) (datatype : ℤ)
  | batchPut (data : LevelDb)
  | del (key : Str)

namespace GentDb

/-- A write when the calls of leveldb turn out as given, and whether it reports success. -/
def attempt (s : GentDb) (o : Outcomes) (now : ℕ) : WriteCall → GentDb × Bool
  | .put key value expire datatype =>
      let s := if maxWriteClear < s.write_num ∧ s.is_clear = false then { s with write_num := 0 }
        else s
      s.putBody o.okGet o.okDb (o.okMeta key) now key value expire datatype
  | .putString key value expire datatype =>
      s.putBody o.okGet o.okDb (o.okMeta key) now key value expire datatype
  | .batchPut data => s.batchPut o.okDb o.okMeta now data
  | .del key => s.del o.okDb (o.okMeta key) key

/-- If the lookup works, `Put` is the one of the model of `GentDb`. -/
theorem attempt_put (s : GentDb) {o : Outcomes} (h : o.okGet = true) (now : ℕ) (key value : Str)
    (expire : ℕ) (datatype : ℤ) : s.attempt o now (.put key value expire datatype)
      = s.put o.okDb (o.okMeta key) now key value expire datatype := by
  rw [attempt, put, h]

end GentDb

namespace WriteCall

/-- What the write does to `db`. -/
def onDb (d : LevelDb) : WriteCall → LevelDb
  | .put key value _ _ | .putString key value _ _ => d.insert key value
  | .batchPut data => data.toList.foldl (fun d kv => d.insert kv.1 kv.2) d
  | .del key => d.erase key

/-- What the write does to `meta_db`. -/
def onMeta (now : ℕ) (d : LevelDb) : WriteCall → LevelDb
  | .put key _ expire datatype | .putString key _ expire datatype =>
      d.insert key (metaSerialize datatype expire now)
  | .batchPut data => data.toList.foldl (fun d kv => d.insert kv.1 (metaSerialize 0 0 now)) d
  | .del key => d.erase key

/-- **All or nothing**: a write that reports failure has changed neither leveldb nor the counter, and
one that reports success has done all it should to both leveldbs. -/
def AllOrNothing (s : GentDb) (o : Outcomes) (now : ℕ) (c : WriteCall) : Prop :=
  ((s.attempt o now c).2 = false → (s.attempt o now c).1.db = s.db ∧
      (s.attempt o now c).1.meta_db = s.meta_db ∧ (s.attempt o now c).1.key_num = s.key_num) ∧
    ((s.attempt o now c).2 = true → (s.attempt o now c).1.db = c.onDb s.db ∧
      (s.attempt o now c).1.meta_db = c.onMeta now s.meta_db)

/-- **The condition.**  A failed `Put` must have found the key; a record that is not written must be
there already, and one that is not deleted must not. -/
def Clear (s : GentDb) (o : Outcomes) (now : ℕ) : WriteCall → Prop
  | .put key _ expire datatype | .putString key _ expire datatype =>
      (o.okDb = false → o.okGet = true ∧ key ∈ s.meta_db) ∧
        (o.okDb = true → o.okMeta key = true ∨
          s.meta_db[key]? = some (metaSerialize datatype expire now))
  | .batchPut data => o.okDb = true → ∀ key ∈ data, o.okMeta key = true ∨
      s.meta_db[key]? = some (metaSerialize 0 0 now)
  | .del key => o.okDb = true → o.okMeta key = true ∨ key ∉ s.meta_db

end WriteCall

/-! ## Calls that fail without a difference -/

namespace LevelDb

lemma put_eq_insert_iff (d : LevelDb) (ok : Bool) (key value : Str) :
    d.put ok key value = d.insert key value ↔ ok = true ∨ d[key]? = some value := by
  cases ok with
  | true => simp [put]
  | false =>
      simp only [put, Bool.false_eq_true, if_false, false_or]
      constructor
      · intro h
        rw [h, Std.ExtTreeMap.getElem?_insert_self]
      · intro h
        refine Std.ExtTreeMap.ext_getElem? fun k => ?_
        rw [Std.ExtTreeMap.getElem?_insert]
        simp only [Std.LawfulEqCmp.compare_eq_iff_eq]
        split_ifs with hk
        · rw [← hk, h]
        · rfl

lemma delete_eq_erase_iff (d : LevelDb) (ok : Bool) (key : Str) :
    d.delete ok key = d.erase key ↔ ok = true ∨ key ∉ d := by
  cases ok with
  | true => simp [delete]
  | false =>
      simp only [delete, Bool.false_eq_true, if_false, false_or]
      constructor
      · intro h hmem
        rw [h] at hmem
        simp at hmem
      · intro h
        refine Std.ExtTreeMap.ext_getElem? fun k => ?_
        rw [Std.ExtTreeMap.getElem?_erase]
        simp only [Std.LawfulEqCmp.compare_eq_iff_eq]
        split_ifs with hk
        · rw [← hk, Std.ExtTreeMap.getElem?_eq_none h]
        · rfl

/-- A key after records of one kind have been written one by one, some of them in vain. -/
lemma getElem?_foldl_put_same (ok : Str → Bool) (m : Str) (l : List (Str × Str)) (d : LevelDb)
    (k : Str) : (l.foldl (fun d kv => d.put (ok kv.1) kv.1 m) d)[k]?
      = if k ∈ l.map Prod.fst ∧ ok k = true then some m else d[k]? := by
  induction l generalizing d with
  | nil => simp
  | cons kv l ih =>
      rw [List.foldl_cons, ih, List.map_cons]
      by_cases hl : k ∈ l.map Prod.fst ∧ ok k = true
      · rw [if_pos hl, if_pos ⟨List.mem_cons_of_mem _ hl.1, hl.2⟩]
      · rw [if_neg hl]
        by_cases hk : k = kv.1
        · subst hk
          cases hok : ok kv.1 with
          | true => simp [put]
          | false => simp [put]
        · have hput : (d.put (ok kv.1) kv.1 m)[k]? = d[k]? := by
            rw [put]
            split_ifs
            · rw [Std.ExtTreeMap.getElem?_insert]
              simp only [Std.LawfulEqCmp.compare_eq_iff_eq, Ne.symm hk, if_false]
            · rfl
          rw [hput, if_neg (by simpa [hk] using hl)]

/-- Records that were not all written make no difference if those are there already. -/
lemma foldl_put_eq_iff (ok : Str → Bool) (m : Str) (data d : LevelDb) :
    data.toList.foldl (fun d kv => d.put (ok kv.1) kv.1 m) d
        = data.toList.foldl (fun d kv => d.insert kv.1 m) d ↔
      ∀ key ∈ data, ok key = true ∨ d[key]? = some m := by
  have hkeys : ∀ k : Str, k ∈ data.toList.map Prod.fst ↔ k ∈ data := by
    intro k
    rw [Std.ExtTreeMap.map_fst_toList_eq_keys, Std.ExtTreeMap.mem_keys]
  have hall := getElem?_foldl_put_same (fun _ => true) m data.toList d
  have hsome := getElem?_foldl_put_same ok m data.toList d
  simp only [put, if_true, and_true, hkeys] at hall hsome
  constructor
  · intro h key hkey
    have hget := congrArg (fun d : LevelDb => d[key]?) h
    simp only [put] at hget
    rw [hall, hsome, if_pos hkey] at hget
    by_cases hok : ok key = true
    · exact Or.inl hok
    · rw [if_neg fun h => hok h.2] at hget
      exact Or.inr hget
  · intro h
    refine Std.ExtTreeMap.ext_getElem? fun k => ?_
    simp only [put]
    rw [hall, hsome]
    by_cases hk : k ∈ data
    · rcases h k hk with hok | hthere
      · rw [if_pos ⟨hk, hok⟩, if_pos hk]
      · rw [if_pos hk, hthere, ite_self]
    · rw [if_neg fun h => hk h.1, if_neg hk]

end LevelDb

namespace WriteCall

/-- A `Put`, of either kind: whether it counts a key depends on the lookup, and the record may stay
behind the value. -/
lemma put_allOrNothing (s : GentDb) (o : Outcomes) (now : ℕ) (key value : Str) (expire : ℕ)
    (datatype : ℤ) :
    AllOrNothing s o now (.putString key value expire datatype) ↔
      Clear s o now (.putString key value expire datatype) := by
  simp only [AllOrNothing, GentDb.attempt, GentDb.putBody, onDb, onMeta, Clear]
  cases hdb : o.okDb with
  | true =>
      simp only [Bool.true_eq_false, false_implies, true_and, if_true, forall_const,
        LevelDb.put_eq_insert_iff, true_or]
  | false =>
      have hcount : (if (o.okGet && s.meta_db.contains key) = true then s.key_num
          else s.key_num + 1) = s.key_num ↔ o.okGet = true ∧ key ∈ s.meta_db := by
        simp only [Bool.and_eq_true, Std.ExtTreeMap.contains_iff_mem]
        split_ifs with h
        · exact iff_of_true rfl h
        · exact iff_of_false (by omega) h
      simp only [LevelDb.put, hcount, Bool.false_eq_true, if_false, false_implies, true_and,
        and_true, forall_const]

/-- **When a write is all or nothing.** -/
theorem allOrNothing_iff (s : GentDb) (o : Outcomes) (now : ℕ) (c : WriteCall) :
    c.AllOrNothing s o now ↔ c.Clear s o now := by
  cases c with
  | put key value expire datatype =>
      -- the counter of writes, which may be reset first, is not part of the property
      rw [show Clear s o now (.put key value expire datatype)
        ↔ Clear s o now (.putString key value expire datatype) from Iff.rfl, ← put_allOrNothing]
      simp only [AllOrNothing, GentDb.attempt]
      split_ifs <;> exact Iff.rfl
  | putString key value expire datatype => exact put_allOrNothing s o now key value expire datatype
  | batchPut data =>
      simp only [AllOrNothing, GentDb.attempt, GentDb.batchPut, onDb, onMeta, Clear]
      cases hdb : o.okDb with
      | true => simp [LevelDb.foldl_put_eq_iff]
      | false => simp
  | del key =>
      simp only [AllOrNothing, GentDb.attempt, GentDb.del, onDb, onMeta, Clear]
      cases hdb : o.okDb with
      | true => simp [LevelDb.delete, ← LevelDb.delete_eq_erase_iff]
      | false => simp [LevelDb.delete]

/-- **A `Put` that fails counts its key.** -/
theorem allOrNothing_failedPut :
    ¬ AllOrNothing .empty ⟨true, false, fun _ => true⟩ 1000000000 (.put (lit "k") (lit "v") 0 1) := by
  intro h
  have hcount : (0 : ℕ) + 1 = 0 := (h.1 rfl).2.2
  exact absurd hcount (by decide)

end WriteCall

end Riser
