import Riser.Core.Transition
import Riser.Store.Refinement

/-!
# Concurrent writers and the two key sets

Every writer of `GentDb` touches the two leveldbs in separate calls.  Here each leveldb call is one
atomic step and any number of writers run at once.  A `Writer` is a call in progress: one
constructor for each point between two of its steps, holding what the call still needs there.  The
clock is read in the step that uses it, so it is part of the event.  `run_writer` says that a writer
which runs alone does what the sequential model of the call does.

`Put`, `BatchPut` and the sweeper hold `clear_lock` all the way.  **`Del` takes no lock.**  So a
`Del` between the two writes of a `Put` leaves a meta record without a value
(`put_del_inconsistent`), and a `Put` between the two deletions of a `Del` a value without a meta
record.  Nothing else goes wrong: `consistent_of_careful` says that the two key sets agree again
once all writers are done, if in every step

* a `Del` does not delete a value whose meta record is still to be written, and
* a value is not written while a `Del` of its key has still to delete the meta record.

The invariant (`WriterInv`) is that a key is in one leveldb only while some writer owes the other
one a step.  The lock enters where the sweeper deletes: no `Put` is half done then.
-/

namespace Riser

open Cpp

/-- A call in progress.  The two overloads of `Put` take the same steps. -/
inductive Writer where
  | put (key value : Str) (expire : ℕ) (datatype : ℤ)
  | putDb (key value : Str) (expire : ℕ) (datatype : ℤ)
  | batchPut (data : LevelDb)
  | batchDb (data : LevelDb)
  | metas (records : List (Str × ℕ × ℤ))
  | del (key : Str)
  | delMeta (key : Str)
  | clear
  | snapshot
  | visit (entries : List (Str × Str))
  | clearDb (key : Str) (entries : List (Str × Str))
  | clearMeta (key : Str) (entries : List (Str × Str))
  | done

namespace Writer

/-- The calls, before their first step. -/
def ofCall : StoreCall → Writer
  | .put key value expire datatype | .putString key value expire datatype =>
      .put key value expire datatype
  | .batchPut data => .batchPut data
  | .del key => .del key
  | .clearExpireKey => .clear

/-- The meta records still to be written for values that are already in. -/
def owed : Writer → List Str
  | .metas records => records.map Prod.fst
  | _ => []

/-- The meta record still to be deleted for a value that is already gone. -/
def due : Writer → Option Str
  | .delMeta key => some key
  | .clearMeta key _ => some key
  | _ => none

/-- The key of a `Del` that is half done. -/
def halfDel : Writer → Option Str
  | .delMeta key => some key
  | _ => none

/-- The writer holds `clear_lock`. -/
def locked : Writer → Bool
  | .putDb .. | .batchDb _ | .metas _ | .snapshot | .visit _ | .clearDb .. | .clearMeta .. => true
  | _ => false

end Writer

/-- The store, the holder of `clear_lock`, and the calls in progress. -/
structure Writers where
  db : LevelDb
  meta_db : LevelDb
  owner : Option ℕ
  threads : List Writer

namespace Writers

/-- All calls are about to start, each in a thread of its own. -/
def init (db meta_db : LevelDb) (calls : List StoreCall) : Writers :=
  ⟨db, meta_db, none, calls.map Writer.ofCall⟩

/-- Thread `i` is at `w` now. -/
def goto (s : Writers) (i : ℕ) (w : Writer) : Writers := { s with threads := s.threads.set i w }

/-- Thread `i` takes the lock, if it is free. -/
def acquire (s : Writers) (i : ℕ) (w : Writer) : Option Writers :=
  if s.owner = none then some { s.goto i w with owner := some i } else none

/-- Thread `i` leaves its call, which frees the lock. -/
def release (s : Writers) (i : ℕ) : Writers := { s.goto i .done with owner := none }

/-- One step of thread `i`, which is at the given point of its call; the clock shows `now`. -/
def advance (s : Writers) (i now : ℕ) : Writer → Option Writers
  | .put key value expire datatype => s.acquire i (.putDb key value expire datatype)
  | .putDb key value expire datatype =>
      some { s.goto i (.metas [(key, expire, datatype)]) with db := s.db.insert key value }
  | .batchPut data => s.acquire i (.batchDb data)
  | .batchDb data =>
      some { s.goto i (.metas (data.toList.map fun kv => (kv.1, 0, 0))) with
        db := data.toList.foldl (fun d kv => d.insert kv.1 kv.2) s.db }
  | .metas [] => some (s.release i)
  | .metas ((key, expire, datatype) :: records) =>
      some { s.goto i (.metas records) with
        meta_db := s.meta_db.insert key (metaSerialize datatype expire now) }
  | .del key => some { s.goto i (.delMeta key) with db := s.db.erase key }
  | .delMeta key => some { s.goto i .done with meta_db := s.meta_db.erase key }
  | .clear => s.acquire i .snapshot
  | .snapshot => some (s.goto i (.visit s.meta_db.toList))
  | .visit [] => some (s.release i)
  | .visit ((key, record) :: entries) =>
      match metaUnserialize record with
      | .error _ => none
      | .ok dat =>
          if dat.expire = 0 ∨ now < dat.expire then some (s.goto i (.visit entries))
          else some (s.goto i (.clearDb key entries))
  | .clearDb key entries => some { s.goto i (.clearMeta key entries) with db := s.db.erase key }
  | .clearMeta key entries =>
      some { s.goto i (.visit entries) with meta_db := s.meta_db.erase key }
  | .done => none

/-- An event: a thread moves, and the time. -/
def step (s : Writers) (e : ℕ × ℕ) : Option Writers :=
  s.threads[e.1]?.bind (s.advance e.1 e.2)

/-- The two leveldbs hold the same keys. -/
def Consistent (s : Writers) : Prop := ∀ k, k ∈ s.db ↔ k ∈ s.meta_db

/-- All calls have returned. -/
def Finished (s : Writers) : Prop := ∀ w ∈ s.threads, w = .done

/-- The condition on the next step of a writer. -/
def CarefulAt (s : Writers) : Writer → Prop
  | .del key => ∀ u ∈ s.threads, key ∉ u.owed
  | .putDb key .. => ∀ u ∈ s.threads, u.halfDel ≠ some key
  | .batchDb data => ∀ u ∈ s.threads, ∀ key ∈ data.keys, u.halfDel ≠ some key
  | _ => True

/-- **The condition on a step.**  A `Del` does not delete the value of a key while a `Put` or a
`BatchPut` has written that value and not yet its meta record, and these two do not write a value
while a `Del` of its key is half done. -/
def Careful (s : Writers) (e : ℕ × ℕ) : Prop := ∀ w ∈ s.threads[e.1]?, s.CarefulAt w

/-! ## A writer that runs alone -/

/-- From `s`, moves of thread 0 at time `now` lead to `s'`. -/
def Solo (now : ℕ) (s s' : Writers) : Prop :=
  ∃ n, Transition.run step s (List.replicate n (0, now)) = some s'

lemma Solo.refl (now : ℕ) (s : Writers) : Solo now s s := ⟨0, rfl⟩

lemma Solo.cons {now : ℕ} {s s₁ s' : Writers} (h : step s (0, now) = some s₁)
    (hrest : Solo now s₁ s') : Solo now s s' := by
  obtain ⟨n, hn⟩ := hrest
  exact ⟨n + 1, by simp [List.replicate_succ, Transition.run, h, hn]⟩

/-- The meta records go in one by one, then the lock is freed. -/
lemma solo_metas (now : ℕ) (db : LevelDb) : ∀ (records : List (Str × ℕ × ℤ)) (m : LevelDb),
    Solo now ⟨db, m, some 0, [.metas records]⟩
      ⟨db, records.foldl (fun d r => d.insert r.1 (metaSerialize r.2.2 r.2.1 now)) m, none,
        [.done]⟩
  | [], _ => .cons rfl (.refl now _)
  | _ :: records, _ => .cons rfl (solo_metas now db records _)

/-- The sweeper's loop is the loop of the sequential model. -/
lemma solo_visit (now : ℕ) : ∀ (entries : List (Str × Str)) {acc acc' : GentDb × ℕ},
    entries.foldlM (GentDb.clearEntry now) acc = .ok acc' →
    Solo now ⟨acc.1.db, acc.1.meta_db, some 0, [.visit entries]⟩
      ⟨acc'.1.db, acc'.1.meta_db, none, [.done]⟩
  | [], acc, acc', h => by
      obtain rfl : acc = acc' := by simpa [pure, Except.pure] using h
      exact .cons rfl (.refl now _)
  | (key, record) :: entries, acc, acc', h => by
      rw [List.foldlM_cons] at h
      cases hdat : metaUnserialize record with
      | error f => simp [GentDb.clearEntry, hdat, bind, Except.bind] at h
      | ok dat =>
          by_cases hlive : dat.expire = 0 ∨ now < dat.expire
          · have hacc : GentDb.clearEntry now acc (key, record) = .ok acc := by
              rcases hlive with h0 | h1
              · simp [GentDb.clearEntry, hdat, h0, bind, Except.bind, pure, Except.pure]
              · simp [GentDb.clearEntry, hdat, h1, bind, Except.bind, pure, Except.pure]
            rw [hacc] at h
            exact .cons (by simp [step, advance, hdat, hlive, goto]) (solo_visit now entries h)
          · have hacc : GentDb.clearEntry now acc (key, record)
                = .ok ((acc.1.del true true key).1, acc.2 + 1) := by
              push Not at hlive
              simp [GentDb.clearEntry, hdat, hlive.1, hlive.2.not_gt, bind, Except.bind, pure,
                Except.pure]
            rw [hacc] at h
            have hvisit : step ⟨acc.1.db, acc.1.meta_db, some 0, [.visit ((key, record) :: entries)]⟩
                (0, now) = some ⟨acc.1.db, acc.1.meta_db, some 0, [.clearDb key entries]⟩ := by
              simp [step, advance, hdat, hlive, goto]
            exact .cons hvisit (.cons rfl (.cons rfl (solo_visit now entries h)))

/-- A `Put` that runs alone, whatever `put` does with `write_num`. -/
lemma solo_put (now : ℕ) (db m : LevelDb) (key value : Str) (expire : ℕ) (datatype : ℤ) :
    Solo now ⟨db, m, none, [.put key value expire datatype]⟩
      ⟨db.insert key value, m.insert key (metaSerialize datatype expire now), none, [.done]⟩ :=
  .cons rfl (.cons rfl (solo_metas now _ [(key, expire, datatype)] m))

/-- **A writer that runs alone** does what the sequential model of its call does. -/
theorem run_writer {s s' : GentDb} {now : ℕ} (c : StoreCall) (h : s.call now c = .ok s') :
    Solo now (init s.db s.meta_db [c]) ⟨s'.db, s'.meta_db, none, [.done]⟩ := by
  cases c with
  | put key value expire datatype =>
      obtain rfl := Except.ok.inj h
      have hdb : (s.put true true now key value expire datatype).1.db = s.db.insert key value := by
        unfold GentDb.put GentDb.putBody
        split <;> rfl
      have hmeta : (s.put true true now key value expire datatype).1.meta_db
          = s.meta_db.insert key (metaSerialize datatype expire now) := by
        unfold GentDb.put GentDb.putBody
        split <;> rfl
      rw [hdb, hmeta]
      exact solo_put now s.db s.meta_db key value expire datatype
  | putString key value expire datatype =>
      obtain rfl := Except.ok.inj h
      exact solo_put now s.db s.meta_db key value expire datatype
  | batchPut data =>
      obtain rfl := Except.ok.inj h
      have hloop := solo_metas now (data.toList.foldl (fun d kv => d.insert kv.1 kv.2) s.db)
        (data.toList.map fun kv => (kv.1, 0, 0)) s.meta_db
      rw [List.foldl_map] at hloop
      exact .cons rfl (.cons rfl hloop)
  | del key =>
      obtain rfl := Except.ok.inj h
      exact .cons rfl (.cons rfl (.refl now _))
  | clearExpireKey =>
      simp only [GentDb.call, GentDb.clearExpireKey] at h
      cases hloop : s.meta_db.toList.foldlM (GentDb.clearEntry now)
          ({ s with is_clear := true }, 0) with
      | error f => simp [hloop, bind, Except.bind, Except.map] at h
      | ok acc =>
          simp only [hloop, bind, Except.bind, pure, Except.pure, Except.map, Except.ok.injEq] at h
          obtain rfl := h
          exact .cons rfl (.cons rfl (solo_visit now s.meta_db.toList hloop))

/-! ## The lock -/

/-- A writer that holds the lock is its owner. -/
def Locked (s : Writers) : Prop := ∀ j w, s.threads[j]? = some w → w.locked = true → s.owner = some j

section Lock

variable {s s' : Writers} {i : ℕ} {w w' : Writer}

/-- The lock after a move that neither takes nor frees it. -/
lemma Locked.move (h : Locked s) (hi : s.threads[i]? = some w)
    (hlock : w'.locked = true → w.locked = true) (j : ℕ) (u : Writer)
    (hu : (s.threads.set i w')[j]? = some u) (hul : u.locked = true) : s.owner = some j := by
  by_cases hij : i = j
  · subst hij
    obtain rfl : w' = u := by
      rw [List.getElem?_set_self (List.getElem?_eq_some_iff.mp hi).1] at hu
      exact Option.some.inj hu
    exact h i w hi (hlock hul)
  · rw [List.getElem?_set_ne hij] at hu
    exact h j u hu hul

/-- Taking the lock. -/
lemma Locked.acquire (h : Locked s) (hs : s.acquire i w' = some s') :
    s' = { s.goto i w' with owner := some i } ∧ Locked s' := by
  rw [Writers.acquire, Option.ite_none_right_eq_some] at hs
  obtain ⟨hfree, hs⟩ := hs
  obtain rfl := Option.some.inj hs
  refine ⟨rfl, fun j u hu hul => ?_⟩
  by_cases hij : i = j
  · rw [hij]
  · have hu' : (s.threads.set i w')[j]? = some u := hu
    rw [List.getElem?_set_ne hij] at hu'
    exact absurd (hfree.symm.trans (h j u hu' hul)) nofun

/-- Freeing the lock. -/
lemma Locked.release (h : Locked s) (hi : s.threads[i]? = some w) (hlock : w.locked = true) :
    Locked (s.release i) := by
  intro j u hu hul
  have hu' : (s.threads.set i .done)[j]? = some u := hu
  by_cases hij : i = j
  · subst hij
    rw [List.getElem?_set_self (List.getElem?_eq_some_iff.mp hi).1] at hu'
    obtain rfl := Option.some.inj hu'
    cases hul
  · rw [List.getElem?_set_ne hij] at hu'
    exact absurd (Option.some.inj ((h i w hi hlock).symm.trans (h j u hu' hul))) hij

/-- Only one writer holds the lock. -/
lemma Locked.unique (h : Locked s) (hi : s.threads[i]? = some w) (hw : w.locked = true) {j : ℕ}
    {u : Writer} (hj : s.threads[j]? = some u) (hul : u.locked = true) : j = i ∧ u = w := by
  have hij : i = j := Option.some.inj ((h i w hi hw).symm.trans (h j u hj hul))
  subst hij
  exact ⟨rfl, Option.some.inj (hj.symm.trans hi)⟩

/-- **One step.** -/
lemma Locked.step (h : Locked s) {e : ℕ × ℕ} (hs : s.step e = some s') : Locked s' := by
  obtain ⟨w, hi, hs⟩ := Option.bind_eq_some_iff.mp hs
  cases w with
  | put key value expire datatype => exact (h.acquire hs).2
  | putDb key value expire datatype =>
      obtain rfl := Option.some.inj hs
      exact h.move hi fun _ => rfl
  | batchPut data => exact (h.acquire hs).2
  | batchDb data =>
      obtain rfl := Option.some.inj hs
      exact h.move hi fun _ => rfl
  | metas records =>
      cases records with
      | nil =>
          obtain rfl := Option.some.inj hs
          exact h.release hi rfl
      | cons r records =>
          obtain rfl := Option.some.inj hs
          exact h.move hi fun _ => rfl
  | del key =>
      obtain rfl := Option.some.inj hs
      exact h.move hi nofun
  | delMeta key =>
      obtain rfl := Option.some.inj hs
      exact h.move hi nofun
  | clear => exact (h.acquire hs).2
  | snapshot =>
      obtain rfl := Option.some.inj hs
      exact h.move hi fun _ => rfl
  | visit entries =>
      cases entries with
      | nil =>
          obtain rfl := Option.some.inj hs
          exact h.release hi rfl
      | cons entry entries =>
          simp only [advance] at hs
          split at hs
          · cases hs
          · split at hs <;> obtain rfl := Option.some.inj hs <;> exact h.move hi fun _ => rfl
  | clearDb key entries =>
      obtain rfl := Option.some.inj hs
      exact h.move hi fun _ => rfl
  | clearMeta key entries =>
      obtain rfl := Option.some.inj hs
      exact h.move hi fun _ => rfl
  | done => cases hs

end Lock

/-! ## The invariant -/

/-- A key may be in one leveldb only while some writer owes the other one a step. -/
structure WriterInv (s : Writers) : Prop where
  lock : ∀ j w, s.threads[j]? = some w → w.locked = true → s.owner = some j
  owed : ∀ w ∈ s.threads, ∀ k ∈ w.owed, k ∈ s.db
  due : ∀ w ∈ s.threads, ∀ k, w.due = some k → k ∉ s.db
  agree : ∀ k, (∀ w ∈ s.threads, k ∉ w.owed) → (∀ w ∈ s.threads, w.due ≠ some k) →
    (k ∈ s.db ↔ k ∈ s.meta_db)

section Moves

variable {s : Writers} {i : ℕ} {w w' : Writer}

lemma WriterInv.locked (h : WriterInv s) : Locked s := h.lock

/-- Before the move, the leveldbs agree on a key that no writer owes a step after it, unless the
moving writer did. -/
lemma WriterInv.agree_before (h : WriterInv s) (hi : s.threads[i]? = some w) {k : Str}
    (hko : ∀ u ∈ s.threads.set i w', k ∉ u.owed) (hkd : ∀ u ∈ s.threads.set i w', u.due ≠ some k)
    (hwo : k ∉ w.owed) (hwd : w.due ≠ some k) : k ∈ s.db ↔ k ∈ s.meta_db := by
  refine h.agree k (fun u hu => ?_) (fun u hu => ?_)
  · rcases Transition.mem_set_or_eq w' hi hu with hu | rfl
    · exact hko u hu
    · exact hwo
  · rcases Transition.mem_set_or_eq w' hi hu with hu | rfl
    · exact hkd u hu
    · exact hwd

/-- A move that touches neither leveldb, by a writer that owes nothing before and after. -/
lemma WriterInv.quiet (h : WriterInv s) (hi : s.threads[i]? = some w)
    (hw : w.owed = [] ∧ w.due = none) (hw' : w'.owed = [] ∧ w'.due = none) {o : Option ℕ}
    (hlock : ∀ j u, (s.threads.set i w')[j]? = some u → u.locked = true → o = some j) :
    WriterInv { s.goto i w' with owner := o } where
  lock := hlock
  owed u hu k hk := by
    rcases List.mem_or_eq_of_mem_set hu with hu | rfl
    · exact h.owed u hu k hk
    · simp [hw'.1] at hk
  due u hu k hk := by
    rcases List.mem_or_eq_of_mem_set hu with hu | rfl
    · exact h.due u hu k hk
    · simp [hw'.2] at hk
  agree k hko hkd := h.agree_before hi hko hkd (by simp [hw.1]) (by simp [hw.2])

/-- Values go in: their meta records are owed from now on. -/
lemma WriterInv.dbInsert (h : WriterInv s) (hi : s.threads[i]? = some w)
    (hw : w.owed = [] ∧ w.due = none) (hlock : w.locked = true) (hw' : w'.due = none)
    {db : LevelDb} (hdb : ∀ k, k ∈ db ↔ k ∈ s.db ∨ k ∈ w'.owed)
    (hfree : ∀ u ∈ s.threads, ∀ k ∈ w'.owed, u.due ≠ some k) :
    WriterInv { s.goto i w' with db := db } where
  lock := h.locked.move hi fun _ => hlock
  owed u hu k hk := by
    rcases List.mem_or_eq_of_mem_set hu with hu | rfl
    · exact (hdb k).mpr (.inl (h.owed u hu k hk))
    · exact (hdb k).mpr (.inr hk)
  due u hu k hk := by
    rcases List.mem_or_eq_of_mem_set hu with hu | rfl
    · intro hmem
      rcases (hdb k).mp hmem with hmem | hmem
      · exact h.due u hu k hk hmem
      · exact hfree u hu k hmem hk
    · simp [hw'] at hk
  agree k hko hkd := by
    have hnew : k ∉ w'.owed := hko w' (Transition.self_mem_set hi)
    have hold : k ∈ db ↔ k ∈ s.db := by simp [hdb, hnew]
    exact hold.trans (h.agree_before hi hko hkd (by simp [hw.1]) (by simp [hw.2]))

/-- A meta record goes in, as owed. -/
lemma WriterInv.metaInsert (h : WriterInv s) (hi : s.threads[i]? = some w) {key record : Str}
    (hw : w.owed = key :: w'.owed) (hd : w.due = none) (hlock : w.locked = true)
    (hd' : w'.due = none) :
    WriterInv { s.goto i w' with meta_db := s.meta_db.insert key record } where
  lock := h.locked.move hi fun _ => hlock
  owed u hu k hk := by
    rcases List.mem_or_eq_of_mem_set hu with hu | rfl
    · exact h.owed u hu k hk
    · exact h.owed w (List.mem_of_getElem? hi) k (by simp [hw, hk])
  due u hu k hk := by
    rcases List.mem_or_eq_of_mem_set hu with hu | rfl
    · exact h.due u hu k hk
    · simp [hd'] at hk
  agree k hko hkd := by
    by_cases hk : k = key
    · subst hk
      have hmem : k ∈ s.db := h.owed w (List.mem_of_getElem? hi) k (by simp [hw])
      simpa [goto] using hmem
    · have hnew : k ∉ w'.owed := hko w' (Transition.self_mem_set hi)
      have hold := h.agree_before hi hko hkd (by simp [hw, hk, hnew]) (by simp [hd])
      simpa [goto, Std.ExtTreeMap.mem_insert, Ne.symm hk] using hold

/-- A value is deleted: the deletion of its meta record is due from now on. -/
lemma WriterInv.dbErase (h : WriterInv s) (hi : s.threads[i]? = some w)
    (hw : w.owed = [] ∧ w.due = none) (hlock : w'.locked = true → w.locked = true) {key : Str}
    (hw' : w'.owed = [] ∧ w'.due = some key) (hfree : ∀ u ∈ s.threads, key ∉ u.owed) :
    WriterInv { s.goto i w' with db := s.db.erase key } where
  lock := h.locked.move hi hlock
  owed u hu k hk := by
    rcases List.mem_or_eq_of_mem_set hu with hu | rfl
    · have hne : key ≠ k := fun heq => hfree u hu (heq ▸ hk)
      simpa [Std.ExtTreeMap.mem_erase, hne] using h.owed u hu k hk
    · simp [hw'.1] at hk
  due u hu k hk := by
    rcases List.mem_or_eq_of_mem_set hu with hu | rfl
    · simp [Std.ExtTreeMap.mem_erase, h.due u hu k hk]
    · simp [Option.some.inj (hw'.2.symm.trans hk)]
  agree k hko hkd := by
    have hne : key ≠ k := fun heq => hkd w' (Transition.self_mem_set hi) (heq ▸ hw'.2)
    have hold := h.agree_before hi hko hkd (by simp [hw.1]) (by simp [hw.2])
    simpa [goto, Std.ExtTreeMap.mem_erase, hne] using hold

/-- A meta record is deleted, as due. -/
lemma WriterInv.metaErase (h : WriterInv s) (hi : s.threads[i]? = some w) {key : Str}
    (hw : w.owed = [] ∧ w.due = some key) (hlock : w'.locked = true → w.locked = true)
    (hw' : w'.owed = [] ∧ w'.due = none) :
    WriterInv { s.goto i w' with meta_db := s.meta_db.erase key } where
  lock := h.locked.move hi hlock
  owed u hu k hk := by
    rcases List.mem_or_eq_of_mem_set hu with hu | rfl
    · exact h.owed u hu k hk
    · simp [hw'.1] at hk
  due u hu k hk := by
    rcases List.mem_or_eq_of_mem_set hu with hu | rfl
    · exact h.due u hu k hk
    · simp [hw'.2] at hk
  agree k hko hkd := by
    by_cases hk : k = key
    · subst hk
      have hmem : k ∉ s.db := h.due w (List.mem_of_getElem? hi) k hw.2
      simpa [goto] using hmem
    · have hold := h.agree_before hi hko hkd (by simp [hw.1]) (by simp [hw.2, Ne.symm hk])
      simpa [goto, Std.ExtTreeMap.mem_erase, Ne.symm hk] using hold

/-- Taking the lock. -/
lemma WriterInv.acquire {s' : Writers} (h : WriterInv s) (hi : s.threads[i]? = some w)
    (hw : w.owed = [] ∧ w.due = none) (hw' : w'.owed = [] ∧ w'.due = none)
    (hs : s.acquire i w' = some s') : WriterInv s' := by
  obtain ⟨rfl, hlock⟩ := h.locked.acquire hs
  exact h.quiet hi hw hw' hlock

/-- Freeing the lock. -/
lemma WriterInv.release (h : WriterInv s) (hi : s.threads[i]? = some w)
    (hw : w.owed = [] ∧ w.due = none) (hlock : w.locked = true) : WriterInv (s.release i) :=
  h.quiet hi hw ⟨rfl, rfl⟩ (h.locked.release hi hlock)

/-- Only one writer holds the lock. -/
lemma WriterInv.locked_unique (h : WriterInv s) (hi : s.threads[i]? = some w)
    (hw : w.locked = true) {u : Writer} (hu : u ∈ s.threads) (hul : u.locked = true) : u = w := by
  obtain ⟨j, hj⟩ := List.mem_iff_getElem?.mp hu
  exact (h.locked.unique hi hw hj hul).2

/-- While a writer is about to delete a value under the lock, no meta record is owed. -/
lemma WriterInv.notMem_owed_of_locked (h : WriterInv s) (hi : s.threads[i]? = some w)
    (hw : w.locked = true) (howed : w.owed = []) (key : Str) : ∀ u ∈ s.threads, key ∉ u.owed := by
  intro u hu hk
  have hul : u.locked = true := by cases u <;> simp_all [Writer.owed, Writer.locked]
  rw [h.locked_unique hi hw hu hul, howed] at hk
  cases hk

/-- While a writer is about to write under the lock, a meta record is due for deletion only where
a `Del` is half done. -/
lemma WriterInv.due_ne_of_locked (h : WriterInv s) (hi : s.threads[i]? = some w)
    (hw : w.locked = true) (hdue : w.due = none) {u : Writer} (hu : u ∈ s.threads) {key : Str}
    (hhalf : u.halfDel ≠ some key) : u.due ≠ some key := by
  intro hk
  have hul : u.locked = true := by
    cases u <;> simp_all [Writer.due, Writer.halfDel, Writer.locked]
  rw [h.locked_unique hi hw hu hul, hdue] at hk
  cases hk

end Moves

/-- **One step.** -/
lemma WriterInv.step {s s' : Writers} (h : WriterInv s) {e : ℕ × ℕ} (hP : s.Careful e)
    (hs : s.step e = some s') : WriterInv s' := by
  obtain ⟨w, hi, hs⟩ := Option.bind_eq_some_iff.mp hs
  have hcare : s.CarefulAt w := hP w hi
  cases w with
  | put key value expire datatype => exact h.acquire hi ⟨rfl, rfl⟩ ⟨rfl, rfl⟩ hs
  | putDb key value expire datatype =>
      obtain rfl := Option.some.inj hs
      refine h.dbInsert hi ⟨rfl, rfl⟩ rfl rfl (fun k => ?_) fun u hu k hk => ?_
      · rw [Std.ExtTreeMap.mem_insert, Std.LawfulEqCmp.compare_eq_iff_eq]
        simp [Writer.owed, or_comm, eq_comm]
      · obtain rfl : k = key := by simpa [Writer.owed] using hk
        exact h.due_ne_of_locked hi rfl rfl hu (hcare u hu)
  | batchPut data => exact h.acquire hi ⟨rfl, rfl⟩ ⟨rfl, rfl⟩ hs
  | batchDb data =>
      obtain rfl := Option.some.inj hs
      have howed : (Writer.metas (data.toList.map fun kv => (kv.1, 0, 0))).owed
          = data.toList.map Prod.fst := by
        simp only [Writer.owed, List.map_map]
        rfl
      refine h.dbInsert hi ⟨rfl, rfl⟩ rfl rfl (fun k => ?_) fun u hu k hk => ?_
      · rw [howed, Inserts.mem_foldl_insert Prod.snd]
      · rw [howed, Std.ExtTreeMap.map_fst_toList_eq_keys] at hk
        exact h.due_ne_of_locked hi rfl rfl hu (hcare u hu k hk)
  | metas records =>
      cases records with
      | nil =>
          obtain rfl := Option.some.inj hs
          exact h.release hi ⟨rfl, rfl⟩ rfl
      | cons r records =>
          obtain rfl := Option.some.inj hs
          exact h.metaInsert hi rfl rfl rfl rfl
  | del key =>
      obtain rfl := Option.some.inj hs
      exact h.dbErase hi ⟨rfl, rfl⟩ (by simp [Writer.locked]) ⟨rfl, rfl⟩ hcare
  | delMeta key =>
      obtain rfl := Option.some.inj hs
      exact h.metaErase hi ⟨rfl, rfl⟩ (by simp [Writer.locked]) ⟨rfl, rfl⟩
  | clear => exact h.acquire hi ⟨rfl, rfl⟩ ⟨rfl, rfl⟩ hs
  | snapshot =>
      obtain rfl := Option.some.inj hs
      exact h.quiet hi ⟨rfl, rfl⟩ ⟨rfl, rfl⟩ (h.locked.move hi fun _ => rfl)
  | visit entries =>
      cases entries with
      | nil =>
          obtain rfl := Option.some.inj hs
          exact h.release hi ⟨rfl, rfl⟩ rfl
      | cons entry entries =>
          simp only [advance] at hs
          split at hs
          · cases hs
          · split at hs <;> obtain rfl := Option.some.inj hs <;>
              exact h.quiet hi ⟨rfl, rfl⟩ ⟨rfl, rfl⟩ (h.locked.move hi fun _ => rfl)
  | clearDb key entries =>
      obtain rfl := Option.some.inj hs
      exact h.dbErase hi ⟨rfl, rfl⟩ (fun _ => rfl) ⟨rfl, rfl⟩
        (h.notMem_owed_of_locked hi rfl rfl key)
  | clearMeta key entries =>
      obtain rfl := Option.some.inj hs
      exact h.metaErase hi ⟨rfl, rfl⟩ (fun _ => rfl) ⟨rfl, rfl⟩
  | done => cases hs

lemma ofCall_idle (c : StoreCall) :
    (Writer.ofCall c).owed = [] ∧ (Writer.ofCall c).due = none ∧
      (Writer.ofCall c).locked = false := by
  cases c <;> exact ⟨rfl, rfl, rfl⟩

lemma WriterInv.init {db meta_db : LevelDb} (calls : List StoreCall)
    (h : ∀ k, k ∈ db ↔ k ∈ meta_db) : WriterInv (init db meta_db calls) := by
  have hidle : ∀ w ∈ calls.map Writer.ofCall, w.owed = [] ∧ w.due = none ∧ w.locked = false := by
    intro w hw
    obtain ⟨c, -, rfl⟩ := List.mem_map.mp hw
    exact ofCall_idle c
  refine ⟨fun j w hj hl => ?_, fun w hw k hk => ?_, fun w hw k hk => ?_, fun k _ _ => h k⟩
  · simp [(hidle w (List.mem_of_getElem? hj)).2.2] at hl
  · simp [(hidle w hw).1] at hk
  · simp [(hidle w hw).2.1] at hk

/-- **Careful writers leave the store consistent.**  Whatever calls run at once and however their
steps interleave, the two leveldbs hold the same keys when all have returned. -/
theorem consistent_of_careful (calls : List StoreCall) (events : List (ℕ × ℕ))
    {db meta_db : LevelDb} (hstart : (init db meta_db calls).Consistent)
    (hcare : Transition.Along step Careful (init db meta_db calls) events) {s : Writers}
    (hrun : Transition.run step (init db meta_db calls) events = some s) (hend : s.Finished) :
    s.Consistent := by
  have h := Transition.inv_run (fun _ _ _ h hP hs => WriterInv.step h hP hs) events
    (WriterInv.init calls hstart) hcare hrun
  refine fun k => h.agree k (fun w hw => ?_) (fun w hw => ?_)
  · rw [hend w hw]
    exact List.not_mem_nil
  · rw [hend w hw]
    exact nofun

/-- The calls of the example below: `a` is put and deleted at once, `b` deleted. -/
def putDelCalls : List StoreCall := [.put (lit "a") (lit "1") 0 1, .del (lit "a"), .del (lit "b")]

instance (s : Writers) : DecidablePred s.CarefulAt
  | .del _ => inferInstanceAs (Decidable (∀ u ∈ s.threads, _))
  | .putDb .. => inferInstanceAs (Decidable (∀ u ∈ s.threads, _))
  | .batchDb _ => inferInstanceAs (Decidable (∀ u ∈ s.threads, _))
  | .put .. | .batchPut _ | .metas _ | .delMeta _ | .clear | .snapshot | .visit _ | .clearDb ..
  | .clearMeta .. | .done => inferInstanceAs (Decidable True)

instance : ∀ s e, Decidable (Careful s e) := fun s e =>
  inferInstanceAs (Decidable (∀ w ∈ s.threads[e.1]?, s.CarefulAt w))

/-- The two deletions of `b` are taken around the second write of `a`. -/
theorem consistent_of_careful_putDel : ∃ s,
    Transition.run step (init ∅ ∅ putDelCalls)
      [(0, 9), (1, 9), (1, 9), (0, 9), (2, 9), (0, 9), (2, 9), (0, 9)] = some s ∧
    s.Finished ∧ lit "a" ∈ s.db ∧ s.Consistent :=
  ⟨_, rfl, by simp [Finished, goto, release, init, putDelCalls], by decide,
    consistent_of_careful putDelCalls
      [(0, 9), (1, 9), (1, 9), (0, 9), (2, 9), (0, 9), (2, 9), (0, 9)] (fun _ => Iff.rfl)
      (by decide) rfl (by simp [Finished, goto, release, init, putDelCalls])⟩

/-- **`Del` between the two writes of a `Put`.**  The value is gone, the meta record comes after:
`a` is listed by `Keys` and cannot be read. -/
theorem put_del_inconsistent : ∃ s,
    (init ∅ ∅ putDelCalls).Consistent ∧
    Transition.run step (init ∅ ∅ putDelCalls)
      [(0, 9), (0, 9), (1, 9), (1, 9), (2, 9), (2, 9), (0, 9), (0, 9)] = some s ∧
    s.Finished ∧ lit "a" ∈ s.meta_db ∧ lit "a" ∉ s.db ∧ ¬ s.Consistent := by
  refine ⟨_, fun _ => Iff.rfl, rfl, by simp [Finished, goto, release, init, putDelCalls],
    by decide, by decide, ?_⟩
  intro h
  exact absurd ((h (lit "a")).mpr (by decide)) (by decide)

end Writers

end Riser
