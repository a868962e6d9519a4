import Riser.Core.Transition
import Riser.Store.GentDb

/-!
# Is `key_num` the number of keys?

`GentDb` keeps a counter so that `Count("")` need not walk `meta_db`.  Four operations maintain it,
each in its own way: `Put` looks the key up and counts it if it is new, `Del` counts down unless the
counter is zero, the sweep goes through `Del`, and `BatchPut` adds **the number of its pairs, whether
their keys are new or not**.

So the counter is never too low, and it is exact as long as no MSET writes a key that is stored
already (`key_num_iff`).  One that does puts it off for good: no later command brings it back, because
the surplus never gets smaller (`Surplus.command`).
-/

namespace Riser

open Cpp

/-! ## The commands -/

/-- The commands that write, and the sweep. -/
inductive WriteCommand where
  | set (key value : Str)
  | setex (key value : Str) (expire : ℕ)
  | mset (data : LevelDb)
  | del (key : Str)
  | clearExpireKey

/-- A command on the store, when leveldb does what it is told.  `DEL` deletes what `Get` finds. -/
def GentDb.command (s : GentDb) (now : ℕ) : WriteCommand → Except Fault GentDb
  | .set key value => .ok (s.put true true now key value 0 1).1
  | .setex key value expire => .ok (s.put true true now key value expire 1).1
  | .mset data => .ok (s.batchPut true (fun _ => true) now data).1
  | .del key => do
      match ← s.get now key with
      | none => return s
      | some _ => return (s.del true true key).1
  | .clearExpireKey => (s.clearExpireKey now).map Prod.fst

namespace KeyCount

/-- A command, and the time. -/
def step (s : GentDb) (e : ℕ × WriteCommand) : Option GentDb := (s.command e.1 e.2).toOption

/-- The counter is the number of keys, and `Count("")` answers what walking `meta_db` would. -/
structure Counted (s : GentDb) : Prop where
  num : s.key_num = s.meta_db.size
  count : (s.count []).1 = s.meta_db.keys.length

/-- An MSET has only keys that are not stored. -/
def Fresh (s : GentDb) (e : ℕ × WriteCommand) : Prop :=
  match e.2 with
  | .mset data => ∀ kv ∈ data.toList, kv.1 ∉ s.meta_db
  | _ => True

/-! ## The surplus -/

/-- Both leveldbs hold the same keys, and the counter is `d` more than their number. -/
structure Surplus (s : GentDb) (d : ℕ) : Prop where
  same : ∀ k, k ∈ s.db ↔ k ∈ s.meta_db
  num : s.key_num = s.meta_db.size + d

variable {s s' : GentDb} {d : ℕ}

lemma size_insert {t : LevelDb} {k : Str} (v : Str) :
    (t.insert k v).size = if k ∈ t then t.size else t.size + 1 := Std.ExtTreeMap.size_insert

lemma size_erase {t : LevelDb} {k : Str} (hk : k ∈ t) : (t.erase k).size + 1 = t.size := by
  have hne : t.size ≠ 0 := fun h0 => by
    rw [Std.ExtTreeMap.eq_empty_iff_size_eq_zero.mpr h0] at hk
    exact Std.ExtTreeMap.not_mem_empty hk
  have hsize : (t.erase k).size = if k ∈ t then t.size - 1 else t.size :=
    Std.ExtTreeMap.size_erase
  rw [if_pos hk] at hsize
  omega

lemma Surplus.insert {k v m : Str} (h : Surplus s d) (hdb : s'.db = s.db.insert k v)
    (hmeta : s'.meta_db = s.meta_db.insert k m)
    (hnum : s'.key_num = if s.meta_db.contains k then s.key_num else s.key_num + 1) :
    Surplus s' d := by
  refine ⟨fun k' => ?_, ?_⟩
  · rw [hdb, hmeta, Std.ExtTreeMap.mem_insert, Std.ExtTreeMap.mem_insert, h.same k']
  · rw [hnum, hmeta, size_insert, h.num]
    by_cases hk : k ∈ s.meta_db
    · rw [if_pos hk, if_pos (Std.ExtTreeMap.mem_iff_contains.mp hk)]
    · rw [if_neg hk, if_neg fun h => hk (Std.ExtTreeMap.mem_iff_contains.mpr h)]
      omega

/-- **SET and SETEX** count a new key. -/
lemma Surplus.put (h : Surplus s d) (now : ℕ) (key value : Str) (expire : ℕ) (datatype : ℤ) :
    Surplus (s.put true true now key value expire datatype).1 d := by
  unfold GentDb.put
  split_ifs
  · exact Surplus.insert (s := { s with write_num := 0 }) ⟨h.same, h.num⟩ rfl rfl rfl
  · exact h.insert rfl rfl rfl

/-- **A `Del`** of a stored key counts it off: the counter is not zero then. -/
lemma Surplus.del (h : Surplus s d) {key : Str} (hkey : key ∈ s.meta_db) :
    Surplus (s.del true true key).1 d := by
  have hsize := size_erase hkey
  have hnum := h.num
  refine ⟨fun k => ?_, ?_⟩
  · show k ∈ s.db.erase key ↔ k ∈ s.meta_db.erase key
    rw [Std.ExtTreeMap.mem_erase, Std.ExtTreeMap.mem_erase, h.same k]
  · show (if 0 < s.key_num ∧ true = true then s.key_num - 1 else s.key_num)
      = (s.meta_db.erase key).size + d
    rw [if_pos ⟨by omega, rfl⟩]
    omega

/-- `Get` only finds what is there. -/
lemma mem_of_get {now : ℕ} {key value : Str} (h : s.get now key = .ok (some value)) :
    key ∈ s.db := by
  unfold GentDb.get at h
  have hread : ∀ expired : Bool, (if expired then none else s.db[key]?) = some value →
      key ∈ s.db := fun expired hv => by
    cases expired with
    | true => cases hv
    | false =>
        have hv : s.db[key]? = some value := hv
        exact Std.ExtTreeMap.mem_iff_isSome_getElem?.mpr (by rw [hv]; rfl)
  cases hm : s.meta_db[key]? with
  | none =>
      simp only [hm, bind, Except.bind, pure, Except.pure, Except.ok.injEq] at h
      exact hread false h
  | some m =>
      cases hdat : metaUnserialize m with
      | error f => simp [hm, hdat, bind, Except.bind] at h
      | ok dat =>
          simp only [hm, hdat, bind, Except.bind, pure, Except.pure, Except.ok.injEq] at h
          exact hread _ h

/-! ## MSET -/

/-- Of the pairs that a batch writes, only those with a new key add one to the size. -/
lemma size_foldl_put (m : Str) (l : List (Str × Str)) (hl : (l.map Prod.fst).Nodup) (t : LevelDb) :
    (l.foldl (fun t kv => t.put true kv.1 m) t).size + l.countP (fun kv => decide (kv.1 ∈ t))
      = t.size + l.length := by
  induction l generalizing t with
  | nil => rfl
  | cons kv l ih =>
      rw [List.map_cons, List.nodup_cons] at hl
      have hrest : l.countP (fun x => decide (x.1 ∈ t.put true kv.1 m))
          = l.countP fun x => decide (x.1 ∈ t) := by
        refine List.countP_congr fun x hx => ?_
        have hne : kv.1 ≠ x.1 := fun heq => hl.1 (heq ▸ List.mem_map_of_mem hx)
        simp [LevelDb.put, Std.ExtTreeMap.mem_insert, hne]
      have hput : (t.put true kv.1 m).size = if kv.1 ∈ t then t.size else t.size + 1 :=
        size_insert m
      have hih := ih hl.2 (t.put true kv.1 m)
      rw [hrest, hput] at hih
      rw [List.foldl_cons, List.countP_cons, List.length_cons]
      by_cases hk : kv.1 ∈ t
      · rw [if_pos hk] at hih
        rw [if_pos (decide_eq_true hk)]
        omega
      · rw [if_neg hk] at hih
        rw [if_neg (by simpa using hk)]
        omega

/-- **MSET** counts every pair. -/
lemma Surplus.batchPut (h : Surplus s d) (now : ℕ) (data : LevelDb) :
    Surplus (s.batchPut true (fun _ => true) now data).1
      (d + data.toList.countP fun kv => decide (kv.1 ∈ s.meta_db)) := by
  have hnd : (data.toList.map Prod.fst).Nodup := by
    rw [Std.ExtTreeMap.map_fst_toList_eq_keys]
    exact Std.ExtTreeMap.nodup_keys
  have hsize := size_foldl_put (metaSerialize 0 0 now) data.toList hnd s.meta_db
  rw [Std.ExtTreeMap.length_toList] at hsize
  have hnum := h.num
  refine ⟨fun k => ?_, ?_⟩
  · show k ∈ data.toList.foldl (fun t kv => t.insert kv.1 kv.2) s.db ↔
      k ∈ data.toList.foldl (fun t kv => t.insert kv.1 (metaSerialize 0 0 now)) s.meta_db
    rw [Inserts.mem_foldl_insert Prod.snd, Inserts.mem_foldl_insert fun _ => metaSerialize 0 0 now,
      h.same k]
  · show s.key_num + data.size
      = (data.toList.foldl (fun t kv => t.put true kv.1 (metaSerialize 0 0 now)) s.meta_db).size + _
    omega

/-! ## The sweep -/

/-- The sweep deletes keys of its snapshot, each of them once. -/
lemma Surplus.clearLoop (now : ℕ) (l : List (Str × Str)) (hl : (l.map Prod.fst).Nodup)
    (hmem : ∀ kv ∈ l, kv.1 ∈ s.meta_db) (h : Surplus s d) (num : ℕ) {r : GentDb × ℕ}
    (hr : l.foldlM (GentDb.clearEntry now) (s, num) = .ok r) : Surplus r.1 d := by
  induction l generalizing s num with
  | nil =>
      obtain rfl : (s, num) = r := Except.ok.inj hr
      exact h
  | cons kv l ih =>
      rw [List.map_cons, List.nodup_cons] at hl
      have hin : ∀ x ∈ l, x.1 ∈ s.meta_db := fun x hx => hmem x (List.mem_cons_of_mem kv hx)
      rw [List.foldlM_cons, GentDb.clearEntry] at hr
      cases hdat : metaUnserialize kv.2 with
      | error f => simp [hdat, bind, Except.bind] at hr
      | ok dat =>
          simp only [hdat, bind, Except.bind, pure, Except.pure] at hr
          split_ifs at hr with hzero hlater
          · exact ih hl.2 hin h num hr
          · exact ih hl.2 hin h num hr
          · refine ih hl.2 (fun x hx => ?_) (h.del (hmem kv List.mem_cons_self)) (num + 1) hr
            show x.1 ∈ s.meta_db.erase kv.1
            refine Std.ExtTreeMap.mem_erase.mpr ⟨fun heq => hl.1 ?_, hin x hx⟩
            rw [Std.LawfulEqCmp.compare_eq_iff_eq.mp heq]
            exact List.mem_map_of_mem hx

lemma Surplus.clearExpireKey (h : Surplus s d) {now : ℕ} {r : GentDb × ℕ}
    (hr : s.clearExpireKey now = .ok r) : Surplus r.1 d := by
  unfold GentDb.clearExpireKey at hr
  cases hloop : s.meta_db.toList.foldlM (GentDb.clearEntry now) ({ s with is_clear := true }, 0) with
  | error f => simp [hloop, bind, Except.bind] at hr
  | ok p =>
      simp only [hloop, bind, Except.bind, pure, Except.pure, Except.ok.injEq] at hr
      have hnd : (s.meta_db.toList.map Prod.fst).Nodup := by
        rw [Std.ExtTreeMap.map_fst_toList_eq_keys]
        exact Std.ExtTreeMap.nodup_keys
      have hp : Surplus p.1 d := by
        refine Surplus.clearLoop (s := { s with is_clear := true }) now _ hnd (fun kv hkv => ?_)
          ⟨h.same, h.num⟩ 0 hloop
        have hget := Std.ExtTreeMap.mem_toList_iff_getElem?_eq_some.mp hkv
        exact Std.ExtTreeMap.mem_iff_isSome_getElem?.mpr (by rw [hget]; rfl)
      rw [← hr]
      exact ⟨hp.same, hp.num⟩

/-! ## Whole runs -/

/-- What the command adds to the surplus: the keys of an MSET that are stored already. -/
def excess (s : GentDb) (e : ℕ × WriteCommand) : ℕ :=
  match e.2 with
  | .mset data => data.toList.countP fun kv => decide (kv.1 ∈ s.meta_db)
  | _ => 0

lemma excess_eq_zero_iff (s : GentDb) (e : ℕ × WriteCommand) : excess s e = 0 ↔ Fresh s e := by
  obtain ⟨now, c⟩ := e
  cases c with
  | mset data => simp [excess, Fresh]
  | set key value => simp [excess, Fresh]
  | setex key value expire => simp [excess, Fresh]
  | del key => simp [excess, Fresh]
  | clearExpireKey => simp [excess, Fresh]

/-- **One command.** -/
lemma Surplus.command (h : Surplus s d) {e : ℕ × WriteCommand} (hstep : step s e = some s') :
    Surplus s' (d + excess s e) := by
  obtain ⟨now, c⟩ := e
  unfold step at hstep
  cases c with
  | set key value =>
      obtain rfl : _ = s' := Option.some.inj hstep
      exact h.put now key value 0 1
  | setex key value expire =>
      obtain rfl : _ = s' := Option.some.inj hstep
      exact h.put now key value expire 1
  | mset data =>
      obtain rfl : _ = s' := Option.some.inj hstep
      exact h.batchPut now data
  | del key =>
      cases hget : s.get now key with
      | error f => simp [GentDb.command, hget, bind, Except.bind, Except.toOption] at hstep
      | ok v =>
          cases v with
          | none =>
              simp only [GentDb.command, hget, bind, Except.bind, pure, Except.pure,
                Except.toOption, Option.some.injEq] at hstep
              exact hstep ▸ h
          | some value =>
              simp only [GentDb.command, hget, bind, Except.bind, pure, Except.pure,
                Except.toOption, Option.some.injEq] at hstep
              rw [← hstep]
              exact h.del ((h.same key).mp (mem_of_get hget))
  | clearExpireKey =>
      cases hclear : s.clearExpireKey now with
      | error f => simp [GentDb.command, hclear, Except.map, Except.toOption] at hstep
      | ok r =>
          simp only [GentDb.command, hclear, Except.map, Except.toOption, Option.some.injEq]
            at hstep
          rw [← hstep]
          exact h.clearExpireKey hclear

/-- The surplus only grows, and it stays the same as long as every MSET is fresh. -/
lemma Surplus.run : ∀ (es : List (ℕ × WriteCommand)) {s s' : GentDb} {d : ℕ}, Surplus s d →
    Transition.run step s es = some s' →
    ∃ d', Surplus s' d' ∧ d ≤ d' ∧ (d' = d ↔ Transition.Along step Fresh s es)
  | [], s, s', d, h, hrun => by
      obtain rfl : s = s' := by simpa [Transition.run] using hrun
      exact ⟨d, h, le_rfl, by simp [Transition.Along]⟩
  | e :: es, s, s', d, h, hrun => by
      obtain ⟨s₁, h₁, hrun⟩ := Transition.run_cons hrun
      obtain ⟨d', hd', hle, hiff⟩ := Surplus.run es (h.command h₁) hrun
      refine ⟨d', hd', by omega, ?_⟩
      have hfresh := excess_eq_zero_iff s e
      constructor
      · intro heq
        refine ⟨hfresh.mp (by omega), fun s₂ h₂ => ?_⟩
        obtain rfl : s₁ = s₂ := Option.some.inj (h₁.symm.trans h₂)
        exact hiff.mp (by omega)
      · rintro ⟨hhead, hrest⟩
        have hzero := hfresh.mpr hhead
        have hall := hiff.mpr (hrest s₁ h₁)
        omega

lemma Surplus.counted_iff (h : Surplus s d) : Counted s ↔ d = 0 := by
  have hnum := h.num
  constructor
  · intro hc
    have := hc.num
    omega
  · rintro rfl
    refine ⟨hnum, ?_⟩
    have hkeys : s.meta_db.keys.length = s.meta_db.size := Std.ExtTreeMap.length_keys
    by_cases hpos : 0 < s.key_num
    · rw [GentDb.count, if_pos ⟨rfl, hpos⟩, hkeys]
      exact hnum
    · simp [GentDb.count, hpos]

/-- **When the counter is right.**  After any sequence of commands on the empty store the counter is at
least the number of keys; it is exact, and `Count("")` with it, if and only if every MSET so far had
only new keys. -/
theorem key_num_iff (es : List (ℕ × WriteCommand)) (s : GentDb)
    (hrun : Transition.run step .empty es = some s) :
    s.meta_db.size ≤ s.key_num ∧ (Counted s ↔ Transition.Along step Fresh .empty es) := by
  have hempty : Surplus .empty 0 := ⟨fun k => by simp [GentDb.empty], rfl⟩
  obtain ⟨d, hd, -, hiff⟩ := hempty.run es hrun
  refine ⟨by have := hd.num; omega, ?_⟩
  rw [hd.counted_iff, hiff]

/-- An MSET after a SET. -/
def setThenMset (first second : UInt8) : List (ℕ × WriteCommand) :=
  [(0, .set [first] (lit "1")), (1, .mset ((∅ : LevelDb).insert [second] (lit "2")))]

/-- Two keys, counted as two. -/
theorem key_num_iff_two_keys : ∃ s,
    Transition.run step .empty (setThenMset 97 98) = some s ∧ Counted s ∧ s.key_num = 2 := by
  refine ⟨_, rfl, (key_num_iff (setThenMset 97 98) _ rfl).2.mpr ?_, rfl⟩
  refine ⟨trivial, fun s₁ h₁ => ?_⟩
  obtain rfl : _ = s₁ := Option.some.inj h₁
  exact ⟨by simp only [Fresh]; decide, fun _ _ => trivial⟩

/-- **One key, counted as two**: it is written by a SET and then by an MSET. -/
theorem overwrite_counted_twice : ∃ s,
    Transition.run step .empty (setThenMset 97 97) = some s ∧ ¬ Counted s ∧ s.key_num = 2 ∧
      s.meta_db.size = 1 ∧ (s.count []).1 = 2 :=
  ⟨_, rfl, fun h => absurd h.num (by decide), by decide, by decide, by decide⟩

end KeyCount

end Riser
