import Riser.Store.Interleaving

/-!
# The sweeper and the writers

`ClearExpireKey` decides from an old snapshot of `meta_db` which keys to delete, while other threads go
on.  `Put` and `BatchPut` hold `clear_lock` over all their writes, and the sweeper holds it from the
snapshot to the last deletion.  So what happens to a record between the snapshot and its deletion is at
most that a `Del` removes it.

* `SweepInv`: a record that the sweeper has still to visit is in `meta_db` as it was, or gone; and a key
  that it is deleting has no record, or one that has expired.
* `KeyInv` follows one key that no `Del` touches: the last write that has completed is in both leveldbs
  if it has not expired by now.

`Clocked` adds the clock, which does not go back, and the writes in the order of their completion.
`sweeper_spares` is the result for every interleaving.
-/

namespace Riser

open Cpp

/-! ## What the sweeper deletes -/

/-- The record is of a key that has expired. -/
def ExpiredAt (now : ℕ) (record : Str) : Prop :=
  ∃ dat, metaUnserialize record = .ok dat ∧ dat.expire ≠ 0 ∧ dat.expire ≤ now

/-- There is no record of the key, or one that has expired. -/
def Stale (m : LevelDb) (now : ℕ) (key : Str) : Prop := ∀ record ∈ m[key]?, ExpiredAt now record

lemma ExpiredAt.mono {now now' : ℕ} {record : Str} (h : ExpiredAt now record) (hle : now ≤ now') :
    ExpiredAt now' record := by
  obtain ⟨dat, hdat, hne, hexp⟩ := h
  exact ⟨dat, hdat, hne, hexp.trans hle⟩

/-- The records of `m'` are in `m`. -/
def Shrinks (m m' : LevelDb) : Prop := ∀ k : Str, ∀ record ∈ m'[k]?, record ∈ m[k]?

lemma shrinks_refl (m : LevelDb) : Shrinks m m := fun _ _ h => h

lemma shrinks_erase (m : LevelDb) (key : Str) : Shrinks m (m.erase key) := by
  intro k record h
  rw [Option.mem_def, Std.ExtTreeMap.getElem?_erase] at h
  split_ifs at h
  exact h

namespace Writer

/-- What the sweeper has still to visit. -/
def entries : Writer → List (Str × Str)
  | .visit entries | .clearDb _ entries | .clearMeta _ entries => entries
  | _ => []

/-- The key that the sweeper is deleting. -/
def doomed : Writer → Option Str
  | .clearDb key _ | .clearMeta key _ => some key
  | _ => none

/-- The sweeper holds the lock all the way. -/
lemma locked_of_entries {w : Writer} {kv : Str × Str} (h : kv ∈ w.entries) : w.locked = true := by
  cases w <;> first | rfl | cases h

lemma locked_of_doomed {w : Writer} {key : Str} (h : key ∈ w.doomed) : w.locked = true := by
  cases w <;> first | rfl | cases h

end Writer

namespace Writers

/-- What is visited and deleted is right. -/
structure SweepInv (s : Writers) (clock : ℕ) : Prop where
  locked : s.Locked
  entries : ∀ w ∈ s.threads, ∀ kv ∈ w.entries, ∀ record ∈ s.meta_db[kv.1]?, record = kv.2
  doomed : ∀ w ∈ s.threads, ∀ key ∈ w.doomed, Stale s.meta_db clock key

/-- What one step does to `meta_db` and to the sweeper. -/
structure Moves (s : Writers) (now : ℕ) (w w' : Writer) (s' : Writers) : Prop where
  records : Shrinks s.meta_db s'.meta_db ∨ w.locked = true ∧ w'.entries = [] ∧ w'.doomed = none
  entries : ∀ kv ∈ w'.entries, kv ∈ w.entries ∨ s.meta_db[kv.1]? = some kv.2
  doomed : ∀ key ∈ w'.doomed, key ∈ w.doomed ∨ ∃ record, (key, record) ∈ w.entries ∧ ExpiredAt now record

section Steps

variable {s s' : Writers} {i now : ℕ} {w : Writer}

/-- A step that leaves `meta_db` alone, and has nothing to do with the sweeper. -/
lemma Moves.quiet {w' : Writer} (hmeta : s'.meta_db = s.meta_db) (hentries : w'.entries = [])
    (hdoomed : w'.doomed = none) : Moves s now w w' s' where
  records := Or.inl (hmeta ▸ shrinks_refl _)
  entries kv h := by simp [hentries] at h
  doomed key h := by simp [hdoomed] at h

/-- **What a step can do.** -/
lemma moves_of_advance (hs : s.advance i now w = some s') :
    ∃ w', s'.threads = s.threads.set i w' ∧ Moves s now w w' s' := by
  have hacquire : ∀ {w'}, w'.entries = [] → w'.doomed = none → s.acquire i w' = some s' →
      ∃ w', s'.threads = s.threads.set i w' ∧ Moves s now w w' s' := by
    intro w' hentries hdoomed hs
    rw [acquire, Option.ite_none_right_eq_some] at hs
    obtain rfl := Option.some.inj hs.2
    exact ⟨w', rfl, .quiet rfl hentries hdoomed⟩
  cases w with
  | put key value expire datatype => exact hacquire rfl rfl hs
  | putDb key value expire datatype =>
      obtain rfl := Option.some.inj hs
      exact ⟨_, rfl, .quiet rfl rfl rfl⟩
  | batchPut data => exact hacquire rfl rfl hs
  | batchDb data =>
      obtain rfl := Option.some.inj hs
      exact ⟨_, rfl, .quiet rfl rfl rfl⟩
  | metas records =>
      cases records with
      | nil =>
          obtain rfl := Option.some.inj hs
          exact ⟨_, rfl, .quiet rfl rfl rfl⟩
      | cons r records =>
          obtain rfl := Option.some.inj hs
          exact ⟨_, rfl, Or.inr ⟨rfl, rfl, rfl⟩, (fun _ h => by cases h), (fun _ h => by cases h)⟩
  | del key =>
      obtain rfl := Option.some.inj hs
      exact ⟨_, rfl, .quiet rfl rfl rfl⟩
  | delMeta key =>
      obtain rfl := Option.some.inj hs
      exact ⟨_, rfl, Or.inl (shrinks_erase _ _), (fun _ h => by cases h), (fun _ h => by cases h)⟩
  | clear => exact hacquire rfl rfl hs
  | snapshot =>
      obtain rfl := Option.some.inj hs
      refine ⟨_, rfl, Or.inl (shrinks_refl _), fun kv h => Or.inr ?_, (fun _ h => by cases h)⟩
      exact Std.ExtTreeMap.mem_toList_iff_getElem?_eq_some.mp h
  | visit entries =>
      cases entries with
      | nil =>
          obtain rfl := Option.some.inj hs
          exact ⟨_, rfl, .quiet rfl rfl rfl⟩
      | cons entry entries =>
          simp only [advance] at hs
          split at hs
          · cases hs
          · next dat hdat =>
              split_ifs at hs with hlive
              · obtain rfl := Option.some.inj hs
                exact ⟨_, rfl, Or.inl (shrinks_refl _),
                  fun kv h => Or.inl (List.mem_cons_of_mem _ h), (fun _ h => by cases h)⟩
              · obtain rfl := Option.some.inj hs
                push Not at hlive
                refine ⟨_, rfl, Or.inl (shrinks_refl _),
                  fun kv h => Or.inl (List.mem_cons_of_mem _ h), fun key h => Or.inr ?_⟩
                obtain rfl := Option.some.inj h
                exact ⟨entry.2, List.mem_cons_self, dat, hdat, hlive⟩
  | clearDb key entries =>
      obtain rfl := Option.some.inj hs
      exact ⟨_, rfl, Or.inl (shrinks_refl _), fun kv h => Or.inl h, fun key h => Or.inl h⟩
  | clearMeta key entries =>
      obtain rfl := Option.some.inj hs
      exact ⟨_, rfl, Or.inl (shrinks_erase _ _), fun kv h => Or.inl h, (fun _ h => by cases h)⟩
  | done => cases hs

/-- **One step**, which does not turn the clock back. -/
lemma SweepInv.step {clock : ℕ} {e : ℕ × ℕ} (h : SweepInv s clock) (hclock : clock ≤ e.2)
    (hs : s.step e = some s') : SweepInv s' e.2 := by
  have hlocked := h.locked.step hs
  obtain ⟨w, hi, hs⟩ := Option.bind_eq_some_iff.mp hs
  obtain ⟨w', hthreads, hmoves⟩ := moves_of_advance hs
  have hw : w ∈ s.threads := List.mem_of_getElem? hi
  -- a writer of records holds the lock, so that nobody sweeps
  have hshrinks : ∀ u ∈ s.threads.set e.1 w', (u.entries ≠ [] ∨ u.doomed ≠ none) → u.locked = true →
      Shrinks s.meta_db s'.meta_db := by
    intro u hu hne hul
    rcases hmoves.records with hshrinks | ⟨hwl, hentries, hdoomed⟩
    · exact hshrinks
    · obtain ⟨j, hj⟩ := List.mem_iff_getElem?.mp hu
      by_cases hij : e.1 = j
      · subst hij
        rw [List.getElem?_set_self (List.getElem?_eq_some_iff.mp hi).1] at hj
        obtain rfl := Option.some.inj hj
        exact absurd hne (by simp [hentries, hdoomed])
      · rw [List.getElem?_set_ne hij] at hj
        exact absurd (h.locked.unique hi hwl hj hul).1.symm hij
  refine ⟨hlocked, fun u hu kv hkv record hrecord => ?_, fun u hu key hkey record hrecord => ?_⟩
  · rw [hthreads] at hu
    have hold : record ∈ s.meta_db[kv.1]? := hshrinks u hu (Or.inl (List.ne_nil_of_mem hkv))
      (Writer.locked_of_entries hkv) _ _ hrecord
    rcases List.mem_or_eq_of_mem_set hu with hu | rfl
    · exact h.entries u hu kv hkv record hold
    · rcases hmoves.entries kv hkv with hkv | hkv
      · exact h.entries w hw kv hkv record hold
      · exact Option.some.inj (hold.symm.trans hkv)
  · rw [hthreads] at hu
    have hold : record ∈ s.meta_db[key]? := hshrinks u hu (Or.inr (Option.ne_none_iff_exists'.mpr ⟨key, hkey⟩))
      (Writer.locked_of_doomed hkey) _ _ hrecord
    rcases List.mem_or_eq_of_mem_set hu with hu | rfl
    · exact (h.doomed u hu key hkey record hold).mono hclock
    · rcases hmoves.doomed key hkey with hkey | ⟨record', hentry, hexpired⟩
      · exact (h.doomed w hw key hkey record hold).mono hclock
      · rwa [h.entries w hw _ hentry record hold]

end Steps

end Writers

/-! ## What has been written -/

/-- A write of a key. -/
structure Written where
  value : Str
  expire : ℕ
  datatype : ℤ

/-- The record of it is there. -/
def Written.InMeta (wr : Written) (m : LevelDb) (k : Str) : Prop :=
  ∃ record t, m[k]? = some record ∧ metaUnserialize record = .ok ⟨wr.datatype, wr.expire, t⟩

/-- **It is in both leveldbs.** -/
def Written.Held (wr : Written) (db meta_db : LevelDb) (k : Str) : Prop :=
  db[k]? = some wr.value ∧ wr.InMeta meta_db k

/-- It has no expiry, or one that is later than the clock. -/
def Written.Fresh (wr : Written) (clock : ℕ) : Prop := wr.expire = 0 ∨ clock < wr.expire

/-- What a call writes under a key. -/
def StoreCall.writes (k : Str) : StoreCall → Option Written
  | .put key value expire datatype | .putString key value expire datatype =>
      if key = k then some ⟨value, expire, datatype⟩ else none
  | .batchPut data => data[k]?.map fun value => ⟨value, 0, 0⟩
  | .del _ | .clearExpireKey => none

/-- The write that was the last one before the calls. -/
def Written.before (db meta_db : LevelDb) (k : Str) : Option Written :=
  db[k]?.bind fun value => meta_db[k]?.bind fun record =>
    (metaUnserialize record).toOption.map fun dat => ⟨value, dat.expire, dat.datatype⟩

/-- **The last write that has completed**, when these calls have, one after the other. -/
def lastWrite (before : Option Written) (calls : List StoreCall) (completed : List ℕ) (k : Str) :
    Option Written :=
  completed.foldl (fun last i => (calls[i]?.bind (·.writes k)).or last) before

lemma lastWrite_concat (before : Option Written) (calls : List StoreCall) (completed : List ℕ) (i : ℕ)
    (k : Str) : lastWrite before calls (completed ++ [i]) k
      = (calls[i]?.bind (·.writes k)).or (lastWrite before calls completed k) := by
  simp [lastWrite]

/-- The writers, with the clock, and the threads whose write has completed. -/
structure Clocked where
  writers : Writers
  clock : ℕ
  completed : List ℕ

namespace Clocked

def start (db meta_db : LevelDb) (calls : List StoreCall) (clock : ℕ) : Clocked :=
  ⟨.init db meta_db calls, clock, []⟩

/-- A write completes. -/
def completes (x : Clocked) (i : ℕ) : Bool :=
  match x.writers.threads[i]? with
  | some (.metas []) => true
  | _ => false

/-- Only a write does. -/
lemma eq_of_completes (x : Clocked) {i : ℕ} (h : x.completes i = true) {w : Writer}
    (hi : x.writers.threads[i]? = some w) : w = .metas [] := by
  rw [completes, hi] at h
  split at h
  · next heq => exact Option.some.inj heq
  · cases h

/-- The clock does not go back. -/
def step (x : Clocked) (e : ℕ × ℕ) : Option Clocked :=
  if x.clock ≤ e.2 then
    (x.writers.step e).map fun s =>
      ⟨s, e.2, if x.completes e.1 then x.completed ++ [e.1] else x.completed⟩
  else none

/-- **A step of the sweeper that deletes** does so to a key without a record, or with one that has
expired. -/
def DeletesStale (x : Clocked) (e : ℕ × ℕ) : Prop :=
  x.clock ≤ e.2 → ∀ w ∈ x.writers.threads[e.1]?, ∀ key ∈ w.doomed, Stale x.writers.meta_db e.2 key

end Clocked

/-! ## One key -/

namespace Writers

/-- Where a call may be, as far as `k` is concerned; it is not deleted. -/
def Fits (k : Str) (c : StoreCall) : Writer → Prop
  | .put key value expire datatype | .putDb key value expire datatype =>
      c.writes k = if key = k then some ⟨value, expire, datatype⟩ else none
  | .batchPut data | .batchDb data => c.writes k = data[k]?.map fun value => ⟨value, 0, 0⟩
  | .metas records =>
      ∀ r ∈ records, r.1 = k → (c.writes k).map (fun wr => (wr.expire, wr.datatype)) = some r.2
  | .del key | .delMeta key => key ≠ k
  | .clear | .snapshot | .visit _ | .clearDb .. | .clearMeta .. | .done => True

/-- Thread `i` is in the middle of this write. -/
def Busy (calls : List StoreCall) (s : Writers) (k : Str) (i : ℕ) (wr : Written) : Prop :=
  ∃ records c, s.threads[i]? = some (.metas records) ∧ calls[i]? = some c ∧ c.writes k = some wr

/-- **One key.**  In the middle of a write the value is in, and the record is in or still to come;
otherwise the last write is in both leveldbs if it has not expired. -/
structure KeyInv (calls : List StoreCall) (before : Option Written) (k : Str) (x : Clocked) : Prop where
  fits : ∀ (i : ℕ) w, x.writers.threads[i]? = some w → ∃ c, calls[i]? = some c ∧ c.Valid ∧ Fits k c w
  busy : ∀ (i : ℕ) records c wr, x.writers.threads[i]? = some (.metas records) → calls[i]? = some c →
    c.writes k = some wr → x.writers.db[k]? = some wr.value ∧
      ((∃ r ∈ records, r.1 = k) ∨ wr.InMeta x.writers.meta_db k)
  held : (∀ i wr, ¬ Busy calls x.writers k i wr) → ∀ wr, lastWrite before calls x.completed k = some wr →
    wr.Fresh x.clock → wr.Held x.writers.db x.writers.meta_db k

section Key

variable {calls : List StoreCall} {before : Option Written} {k : Str} {x x' : Clocked} {i : ℕ}
  {w w' : Writer} {c : StoreCall}

/-- The threads after a move. -/
lemma getElem?_move (hthreads : x'.writers.threads = x.writers.threads.set i w')
    (hi : x.writers.threads[i]? = some w) {j : ℕ} {u : Writer} (hj : x'.writers.threads[j]? = some u) :
    j = i ∧ u = w' ∨ j ≠ i ∧ x.writers.threads[j]? = some u := by
  rw [hthreads] at hj
  by_cases hij : i = j
  · subst hij
    rw [List.getElem?_set_self (List.getElem?_eq_some_iff.mp hi).1] at hj
    exact Or.inl ⟨rfl, (Option.some.inj hj).symm⟩
  · rw [List.getElem?_set_ne hij] at hj
    exact Or.inr ⟨Ne.symm hij, hj⟩

lemma KeyInv.fits_move (h : KeyInv calls before k x)
    (hthreads : x'.writers.threads = x.writers.threads.set i w') (hi : x.writers.threads[i]? = some w)
    (hc : calls[i]? = some c) (hvalid : c.Valid) (hw' : Fits k c w') (j : ℕ) (u : Writer)
    (hj : x'.writers.threads[j]? = some u) : ∃ c, calls[j]? = some c ∧ c.Valid ∧ Fits k c u := by
  rcases getElem?_move hthreads hi hj with ⟨rfl, rfl⟩ | ⟨-, hj⟩
  · exact ⟨c, hc, hvalid, hw'⟩
  · exact h.fits j u hj

/-- A move that is no part of a write of `k`.  It leaves `k` alone, or `k` has expired. -/
lemma KeyInv.frame (h : KeyInv calls before k x)
    (hthreads : x'.writers.threads = x.writers.threads.set i w') (hi : x.writers.threads[i]? = some w)
    (hc : calls[i]? = some c) (hvalid : c.Valid) (hw' : Fits k c w')
    (hquiet : c.writes k = none ∨ (∀ records, w ≠ .metas records) ∧ ∀ records, w' ≠ .metas records)
    (hk : x'.writers.db[k]? = x.writers.db[k]? ∧ x'.writers.meta_db[k]? = x.writers.meta_db[k]? ∨
      Stale x.writers.meta_db x.clock k ∧ ∀ (j : ℕ) records, x.writers.threads[j]? ≠ some (.metas records))
    (hlast : lastWrite before calls x'.completed k = lastWrite before calls x.completed k)
    (hclock : x.clock ≤ x'.clock) : KeyInv calls before k x' where
  fits := h.fits_move hthreads hi hc hvalid hw'
  busy j records c' wr hj hc' hwr := by
    rcases getElem?_move hthreads hi hj with ⟨rfl, rfl⟩ | ⟨hne, hj⟩
    · obtain rfl := Option.some.inj (hc.symm.trans hc')
      rcases hquiet with hnone | ⟨-, hquiet⟩
      · exact absurd (hnone.symm.trans hwr) nofun
      · exact absurd rfl (hquiet records)
    · rcases hk with ⟨hdb, hmeta⟩ | ⟨-, hnone⟩
      · rw [hdb, Written.InMeta, hmeta]
        exact h.busy j records c' wr hj hc' hwr
      · exact absurd hj (hnone j records)
  held hcalm wr hwr hfresh := by
    have hbefore : ∀ j wr, ¬ Busy calls x.writers k j wr := by
      rintro j wr ⟨records, c', hj, hc', hwr⟩
      by_cases hij : i = j
      · subst hij
        obtain rfl := Option.some.inj (hc.symm.trans hc')
        rcases hquiet with hnone | ⟨hquiet, -⟩
        · exact absurd (hnone.symm.trans hwr) nofun
        · exact absurd (Option.some.inj (hi.symm.trans hj)) (hquiet records)
      · exact hcalm j wr ⟨records, c', by rw [hthreads, List.getElem?_set_ne hij, hj], hc', hwr⟩
    have hold := h.held hbefore wr (hlast ▸ hwr) (hfresh.imp_right hclock.trans_lt)
    rcases hk with ⟨hdb, hmeta⟩ | ⟨hstale, -⟩
    · rw [Written.Held, Written.InMeta, hdb, hmeta]
      exact hold
    · obtain ⟨-, record, t, hrecord, hdat⟩ := hold
      obtain ⟨dat, hdat', hne, hexp⟩ := hstale record hrecord
      obtain rfl := Except.ok.inj (hdat.symm.trans hdat')
      rcases hfresh with hzero | hlater
      · exact absurd hzero hne
      · exact absurd (hexp.trans hclock) (not_le.mpr hlater)

/-- A move in the middle of a write of `k`. -/
lemma KeyInv.write (h : KeyInv calls before k x) {records : List (Str × ℕ × ℤ)} {wr : Written}
    (hthreads : x'.writers.threads = x.writers.threads.set i (.metas records))
    (hi : x.writers.threads[i]? = some w) (hc : calls[i]? = some c) (hvalid : c.Valid)
    (hw' : Fits k c (.metas records)) (hlock : x'.writers.Locked) (hwr : c.writes k = some wr)
    (hdb : x'.writers.db[k]? = some wr.value)
    (hmeta : (∃ r ∈ records, r.1 = k) ∨ wr.InMeta x'.writers.meta_db k) : KeyInv calls before k x' := by
  have hself : x'.writers.threads[i]? = some (.metas records) := by
    rw [hthreads, List.getElem?_set_self (List.getElem?_eq_some_iff.mp hi).1]
  refine ⟨h.fits_move hthreads hi hc hvalid hw', fun j records' c' wr' hj hc' hwr' => ?_,
    fun hcalm => absurd ⟨records, c, hself, hc, hwr⟩ (hcalm i wr)⟩
  obtain ⟨rfl, heq⟩ := hlock.unique hself rfl hj rfl
  obtain rfl := Writer.metas.inj heq
  obtain rfl := Option.some.inj (hc.symm.trans hc')
  obtain rfl := Option.some.inj (hwr.symm.trans hwr')
  exact ⟨hdb, hmeta⟩

/-- A write of `k` completes. -/
lemma KeyInv.complete (h : KeyInv calls before k x) {wr : Written}
    (hthreads : x'.writers.threads = x.writers.threads.set i .done)
    (hi : x.writers.threads[i]? = some (.metas [])) (hc : calls[i]? = some c) (hvalid : c.Valid)
    (hlock : x.writers.Locked) (hwr : c.writes k = some wr) (hdb : x'.writers.db = x.writers.db)
    (hmeta : x'.writers.meta_db = x.writers.meta_db)
    (hlast : lastWrite before calls x'.completed k = some wr) : KeyInv calls before k x' where
  fits := h.fits_move hthreads hi hc hvalid trivial
  busy j records c' wr' hj hc' hwr' := by
    rcases getElem?_move hthreads hi hj with ⟨-, heq⟩ | ⟨hne, hj⟩
    · cases heq
    · exact absurd (hlock.unique hi rfl hj rfl).1 hne
  held _ wr' hwr' _ := by
    obtain rfl := Option.some.inj (hlast.symm.trans hwr')
    obtain ⟨hvalue, hrecord⟩ := h.busy i [] c wr hi hc hwr
    rw [Written.Held, hdb, hmeta]
    exact ⟨hvalue, hrecord.resolve_left (by simp)⟩

/-- What a valid call writes can be read back. -/
lemma inMeta_insert {wr : Written} (hvalid : c.Valid) (hwr : c.writes k = some wr) {now : ℕ}
    (hnow : TenDigit now) (m : LevelDb) :
    wr.InMeta (m.insert k (metaSerialize wr.datatype wr.expire now)) k := by
  obtain ⟨d, hd, hdigit, hexp⟩ : ∃ d : ℕ, wr.datatype = d ∧ d < 10 ∧ (wr.expire = 0 ∨ TenDigit wr.expire) := by
    cases c with
    | put key value expire datatype | putString key value expire datatype =>
        rw [StoreCall.writes, Option.ite_none_right_eq_some] at hwr
        obtain rfl := Option.some.inj hwr.2
        exact ⟨datatype, rfl, hvalid.2, hvalid.1⟩
    | batchPut data =>
        obtain ⟨value, -, rfl⟩ := Option.map_eq_some_iff.mp hwr
        exact ⟨0, rfl, by decide, Or.inl rfl⟩
    | del key => cases hwr
    | clearExpireKey => cases hwr
  refine ⟨_, now, Std.ExtTreeMap.getElem?_insert_self, ?_⟩
  rw [hd, metaUnserialize_metaSerialize hdigit hexp hnow]

lemma getElem?_insert_of_ne {key : Str} (hne : key ≠ k) (m : LevelDb) (v : Str) :
    (m.insert key v)[k]? = m[k]? := by
  rw [Std.ExtTreeMap.getElem?_insert]
  simp only [Std.LawfulEqCmp.compare_eq_iff_eq, hne, if_false]

lemma getElem?_erase_of_ne {key : Str} (hne : key ≠ k) (m : LevelDb) : (m.erase key)[k]? = m[k]? := by
  rw [Std.ExtTreeMap.getElem?_erase]
  simp only [Std.LawfulEqCmp.compare_eq_iff_eq, hne, if_false]

/-- While the sweeper is at work, nobody writes. -/
lemma SweepInv.no_metas {s : Writers} {clock : ℕ} (h : SweepInv s clock) (hi : s.threads[i]? = some w)
    (hlocked : w.locked = true) (hne : ∀ records, w ≠ .metas records) (j : ℕ)
    (records : List (Str × ℕ × ℤ)) : s.threads[j]? ≠ some (.metas records) := by
  intro hj
  exact hne records (h.locked.unique hi hlocked hj rfl).2.symm

/-- **One step.** -/
lemma KeyInv.step (h : KeyInv calls before k x) (hsweep : SweepInv x.writers x.clock) {e : ℕ × ℕ}
    (hten : TenDigit e.2) (hs : x.step e = some x') : KeyInv calls before k x' := by
  rw [Clocked.step, Option.ite_none_right_eq_some] at hs
  obtain ⟨hclock, hs⟩ := hs
  obtain ⟨s', hstep, rfl⟩ := Option.map_eq_some_iff.mp hs
  have hlock' := hsweep.locked.step hstep
  obtain ⟨w, hi, hadv⟩ := Option.bind_eq_some_iff.mp hstep
  obtain ⟨c, hc, hvalid, hfits⟩ := h.fits e.1 w hi
  -- moves that are no part of a write of `k`
  have hframe : ∀ {w'}, s'.threads = x.writers.threads.set e.1 w' → Fits k c w' →
      (c.writes k = none ∨ (∀ records, w ≠ .metas records) ∧ ∀ records, w' ≠ .metas records) →
      (s'.db[k]? = x.writers.db[k]? ∧ s'.meta_db[k]? = x.writers.meta_db[k]? ∨
        Stale x.writers.meta_db x.clock k ∧ ∀ (j : ℕ) records, x.writers.threads[j]? ≠ some (.metas records)) →
      KeyInv calls before k ⟨s', e.2, if x.completes e.1 then x.completed ++ [e.1] else x.completed⟩ := by
    intro w' hthreads hfits' hquiet hk
    refine h.frame hthreads hi hc hvalid hfits' hquiet hk ?_ hclock
    dsimp only
    split_ifs with hcompletes
    · rw [lastWrite_concat, hc, Option.bind_some]
      rcases hquiet with hnone | ⟨hquiet, -⟩
      · rw [hnone, Option.none_or]
      · exact absurd (x.eq_of_completes hcompletes hi) (hquiet [])
    · rfl
  have hacquire : ∀ w', Fits k c w' → (∀ records, w ≠ .metas records) → (∀ records, w' ≠ .metas records) →
      x.writers.acquire e.1 w' = some s' →
      KeyInv calls before k ⟨s', e.2, if x.completes e.1 then x.completed ++ [e.1] else x.completed⟩ := by
    intro w' hfits' hne hne' hs
    rw [Writers.acquire, Option.ite_none_right_eq_some] at hs
    obtain rfl := Option.some.inj hs.2
    exact hframe rfl hfits' (Or.inr ⟨hne, hne'⟩) (Or.inl ⟨rfl, rfl⟩)
  cases w with
  | put key value expire datatype => exact hacquire (.putDb key value expire datatype) hfits (by simp) (by simp) hadv
  | putDb key value expire datatype =>
      obtain rfl := Option.some.inj hadv
      by_cases hk : key = k
      · subst hk
        have hwr : c.writes key = some ⟨value, expire, datatype⟩ := hfits.trans (if_pos rfl)
        refine h.write rfl hi hc hvalid (fun r hr _ => ?_) hlock' hwr Std.ExtTreeMap.getElem?_insert_self
          (Or.inl ⟨_, List.mem_singleton_self _, rfl⟩)
        rw [List.mem_singleton.mp hr, hwr]
        rfl
      · refine hframe rfl (fun r hr hrk => ?_) (Or.inl (hfits.trans (if_neg hk)))
          (Or.inl ⟨getElem?_insert_of_ne hk _ _, rfl⟩)
        exact absurd (by rw [← hrk, List.mem_singleton.mp hr]) hk
  | batchPut data => exact hacquire (.batchDb data) hfits (by simp) (by simp) hadv
  | batchDb data =>
      obtain rfl := Option.some.inj hadv
      have hfits' : Fits k c (.metas (data.toList.map fun kv => (kv.1, 0, 0))) := by
        intro r hr hrk
        obtain ⟨⟨key, value⟩, hmem, rfl⟩ := List.mem_map.mp hr
        obtain rfl : key = k := hrk
        rw [show c.writes key = _ from hfits, Std.ExtTreeMap.mem_toList_iff_getElem?_eq_some.mp hmem]
        rfl
      cases hdata : data[k]? with
      | none =>
          refine hframe rfl hfits' (Or.inl (by rw [show c.writes k = _ from hfits, hdata]; rfl))
            (Or.inl ⟨?_, rfl⟩)
          exact (Inserts.getElem?_batch data x.writers.db k).trans (by rw [hdata]; rfl)
      | some value =>
          have hwr : c.writes k = some ⟨value, 0, 0⟩ := by rw [show c.writes k = _ from hfits, hdata]; rfl
          refine h.write rfl hi hc hvalid hfits' hlock' hwr ?_ (Or.inl ⟨(k, 0, 0), ?_, rfl⟩)
          · exact (Inserts.getElem?_batch data x.writers.db k).trans (by rw [hdata]; rfl)
          · exact List.mem_map.mpr ⟨(k, value), Std.ExtTreeMap.mem_toList_iff_getElem?_eq_some.mpr hdata, rfl⟩
  | metas records =>
      cases records with
      | nil =>
          obtain rfl := Option.some.inj hadv
          cases hwr : c.writes k with
          | none => exact hframe rfl trivial (Or.inl hwr) (Or.inl ⟨rfl, rfl⟩)
          | some wr =>
              refine h.complete rfl hi hc hvalid hsweep.locked hwr rfl rfl ?_
              have hcompletes : x.completes e.1 = true := by simp [Clocked.completes, hi]
              simp only [hcompletes, if_true, lastWrite_concat, hc, Option.bind_some, hwr, Option.some_or]
      | cons r records =>
          obtain rfl := Option.some.inj hadv
          have hfits' : Fits k c (.metas records) := fun r' hr' => hfits r' (List.mem_cons_of_mem r hr')
          cases hwr : c.writes k with
          | none =>
              have hne : r.1 ≠ k := fun hrk => by
                have hr := hfits r List.mem_cons_self hrk
                rw [hwr] at hr
                cases hr
              exact hframe rfl hfits' (Or.inl hwr) (Or.inl ⟨rfl, getElem?_insert_of_ne hne _ _⟩)
          | some wr =>
              obtain ⟨hvalue, hrecord⟩ := h.busy e.1 _ c wr hi hc hwr
              refine h.write rfl hi hc hvalid hfits' hlock' hwr hvalue ?_
              by_cases hrk : r.1 = k
              · have hr := hfits r List.mem_cons_self hrk
                rw [hwr] at hr
                obtain ⟨key, expire, datatype⟩ := r
                obtain rfl : key = k := hrk
                obtain ⟨rfl, rfl⟩ := Prod.mk.inj (Option.some.inj hr)
                exact Or.inr (inMeta_insert hvalid hwr hten _)
              · rcases hrecord with ⟨r', hr', hrk'⟩ | ⟨record, t, hin, hdat⟩
                · rcases List.mem_cons.mp hr' with rfl | hr'
                  · exact absurd hrk' hrk
                  · exact Or.inl ⟨r', hr', hrk'⟩
                · exact Or.inr ⟨record, t, (getElem?_insert_of_ne hrk _ _).trans hin, hdat⟩
  | del key =>
      obtain rfl := Option.some.inj hadv
      exact hframe rfl hfits (Or.inr ⟨(by simp), (by simp)⟩) (Or.inl ⟨getElem?_erase_of_ne hfits _, rfl⟩)
  | delMeta key =>
      obtain rfl := Option.some.inj hadv
      exact hframe rfl trivial (Or.inr ⟨(by simp), (by simp)⟩) (Or.inl ⟨rfl, getElem?_erase_of_ne hfits _⟩)
  | clear => exact hacquire .snapshot trivial (by simp) (by simp) hadv
  | snapshot =>
      obtain rfl := Option.some.inj hadv
      exact hframe rfl trivial (Or.inr ⟨(by simp), (by simp)⟩) (Or.inl ⟨rfl, rfl⟩)
  | visit entries =>
      cases entries with
      | nil =>
          obtain rfl := Option.some.inj hadv
          exact hframe rfl trivial (Or.inr ⟨(by simp), (by simp)⟩) (Or.inl ⟨rfl, rfl⟩)
      | cons entry entries =>
          simp only [advance] at hadv
          split at hadv
          · cases hadv
          · split at hadv <;> obtain rfl := Option.some.inj hadv <;>
              exact hframe rfl trivial (Or.inr ⟨(by simp), (by simp)⟩) (Or.inl ⟨rfl, rfl⟩)
  | clearDb key entries =>
      obtain rfl := Option.some.inj hadv
      refine hframe rfl trivial (Or.inr ⟨(by simp), (by simp)⟩) ?_
      by_cases hk : key = k
      · subst hk
        exact Or.inr ⟨hsweep.doomed _ (List.mem_of_getElem? hi) key rfl, hsweep.no_metas hi rfl (by simp)⟩
      · exact Or.inl ⟨getElem?_erase_of_ne hk _, rfl⟩
  | clearMeta key entries =>
      obtain rfl := Option.some.inj hadv
      refine hframe rfl trivial (Or.inr ⟨(by simp), (by simp)⟩) ?_
      by_cases hk : key = k
      · subst hk
        exact Or.inr ⟨hsweep.doomed _ (List.mem_of_getElem? hi) key rfl, hsweep.no_metas hi rfl (by simp)⟩
      · exact Or.inl ⟨rfl, getElem?_erase_of_ne hk _⟩
  | done => cases hadv

/-- Nothing has been done yet. -/
lemma SweepInv.start (db meta_db : LevelDb) (calls : List StoreCall) (clock : ℕ) :
    SweepInv (init db meta_db calls) clock := by
  have hidle : ∀ w ∈ (init db meta_db calls).threads, w.locked = false := by
    intro w hw
    obtain ⟨c, -, rfl⟩ := List.mem_map.mp hw
    exact (ofCall_idle c).2.2
  refine ⟨fun j w hj hl => ?_, fun w hw kv hkv => ?_, fun w hw key hkey => ?_⟩
  · exact absurd hl (by simp [hidle w (List.mem_of_getElem? hj)])
  · exact absurd (Writer.locked_of_entries hkv) (by simp [hidle w hw])
  · exact absurd (Writer.locked_of_doomed hkey) (by simp [hidle w hw])

lemma KeyInv.start (db meta_db : LevelDb) (clock : ℕ) (hvalid : ∀ c ∈ calls, c.Valid)
    (hk : .del k ∉ calls) :
    KeyInv calls (Written.before db meta_db k) k (.start db meta_db calls clock) where
  fits i w hi := by
    obtain ⟨c, hc, rfl⟩ : ∃ c, calls[i]? = some c ∧ Writer.ofCall c = w := by
      simpa [Clocked.start, init] using hi
    have hmem := List.mem_of_getElem? hc
    refine ⟨c, hc, hvalid c hmem, ?_⟩
    cases c with
    | del key =>
        rintro rfl
        exact hk hmem
    | put key value expire datatype => rfl
    | putString key value expire datatype => rfl
    | batchPut data => rfl
    | clearExpireKey => trivial
  busy i records c wr hi _ _ := by
    obtain ⟨c, -, hcall⟩ : ∃ c, calls[i]? = some c ∧ Writer.ofCall c = .metas records := by
      simpa [Clocked.start, init] using hi
    cases c <;> cases hcall
  held _ wr hwr _ := by
    obtain ⟨value, hvalue, hwr⟩ := Option.bind_eq_some_iff.mp hwr
    obtain ⟨record, hrecord, hwr⟩ := Option.bind_eq_some_iff.mp hwr
    obtain ⟨dat, hdat, rfl⟩ := Option.map_eq_some_iff.mp hwr
    refine ⟨hvalue, record, dat.store_time, hrecord, ?_⟩
    cases hun : metaUnserialize record with
    | error f => rw [hun] at hdat; cases hdat
    | ok dat' =>
        rw [hun] at hdat
        obtain rfl := Option.some.inj hdat
        rfl

end Key

/-- **The sweeper spares what is fresh.**  Whatever calls run at once and however their steps interleave,
a key that the sweeper deletes has no record then or one that has expired; and the last write of a key
that no `Del` touches is in both leveldbs when all calls have returned, if it has not expired. -/
theorem sweeper_spares (calls : List StoreCall) (hvalid : ∀ c ∈ calls, c.Valid) (db meta_db : LevelDb)
    (clock : ℕ) (events : List (ℕ × ℕ)) (hten : ∀ e ∈ events, TenDigit e.2) {x : Clocked}
    (hrun : Transition.run Clocked.step (.start db meta_db calls clock) events = some x) :
    Transition.Along Clocked.step Clocked.DeletesStale (.start db meta_db calls clock) events ∧
      (x.writers.Finished → ∀ k, .del k ∉ calls → ∀ wr,
        lastWrite (Written.before db meta_db k) calls x.completed k = some wr → wr.Fresh x.clock →
        wr.Held x.writers.db x.writers.meta_db k) := by
  have hsweep : ∀ (x : Clocked) e x', SweepInv x.writers x.clock → x.step e = some x' →
      SweepInv x'.writers x'.clock := by
    intro x e x' h hs
    rw [Clocked.step, Option.ite_none_right_eq_some] at hs
    obtain ⟨s', hstep, rfl⟩ := Option.map_eq_some_iff.mp hs.2
    exact h.step hs.1 hstep
  have hstart := SweepInv.start db meta_db calls clock
  constructor
  · refine Transition.along_of_inv (Q := fun e => TenDigit e.2) (I := fun x => SweepInv x.writers x.clock)
      (fun x e x' h _ hs => hsweep x e x' h hs) (fun x e h _ hclock w hw key hkey record hrecord => ?_)
      events hstart hten
    exact (h.doomed w (List.mem_of_getElem? hw) key hkey record hrecord).mono hclock
  · intro hend k hk
    have halong : Transition.Along Clocked.step (fun _ e => TenDigit e.2) (.start db meta_db calls clock)
        events :=
      Transition.along_of_inv (Q := fun e => TenDigit e.2) (I := fun _ => True) (fun _ _ _ _ _ _ => trivial)
        (fun _ _ _ h => h) events trivial hten
    obtain ⟨-, hkey⟩ := Transition.inv_run
      (I := fun x => SweepInv x.writers x.clock ∧ KeyInv calls (Written.before db meta_db k) k x)
      (fun x e x' h hten hs => ⟨hsweep x e x' h.1 hs, h.2.step h.1 hten hs⟩) events
      ⟨hstart, .start db meta_db clock hvalid hk⟩ halong hrun
    refine hkey.held ?_
    rintro i wr ⟨records, c, hi, -⟩
    exact absurd (hend _ (List.mem_of_getElem? hi)) nofun

/-- The store of the example below: `a` has expired and `b` has not. -/
def sweepDb : LevelDb := ((∅ : LevelDb).insert (lit "a") (lit "1")).insert (lit "b") (lit "1")

def sweepMeta : LevelDb :=
  ((∅ : LevelDb).insert (lit "a") (metaSerialize 1 1500000000 1400000000)).insert (lit "b")
    (metaSerialize 1 1900000000 1400000000)

/-- A sweep, and a `Put` of `a` that has to wait for it. -/
def sweepCalls : List StoreCall := [.clearExpireKey, .put (lit "a") (lit "2") 0 1, .del (lit "c")]

/-- The steps of the sweep, with the `Del` of another key among them, and then those of the `Put`. -/
def sweepEvents : List (ℕ × ℕ) :=
  [(0, 1600000000), (0, 1600000000), (2, 1600000001), (0, 1600000001), (0, 1600000002), (2, 1600000002),
    (0, 1600000003), (0, 1600000003), (0, 1600000003), (1, 1600000004), (1, 1600000004), (1, 1600000005),
    (1, 1600000006)]

theorem sweeper_spares_put : ∃ x,
    Transition.run Clocked.step (.start sweepDb sweepMeta sweepCalls 1600000000) sweepEvents = some x ∧
    Written.Held ⟨lit "2", 0, 1⟩ x.writers.db x.writers.meta_db (lit "a") ∧
    Written.Held ⟨lit "1", 1900000000, 1⟩ x.writers.db x.writers.meta_db (lit "b") := by
  obtain ⟨x, hrun, hthreads, hclock, hcompleted⟩ : ∃ x,
      Transition.run Clocked.step (.start sweepDb sweepMeta sweepCalls 1600000000) sweepEvents = some x ∧
      x.writers.threads = [.done, .done, .done] ∧ x.clock = 1600000006 ∧ x.completed = [1] :=
    ⟨_, rfl, rfl, rfl, rfl⟩
  have hvalid : ∀ c ∈ sweepCalls, c.Valid := by simp [sweepCalls, StoreCall.Valid]
  have hend : x.writers.Finished := by simp [Finished, hthreads]
  have hspares := (sweeper_spares sweepCalls hvalid sweepDb sweepMeta 1600000000 sweepEvents (by decide)
    hrun).2 hend
  rw [hcompleted, hclock] at hspares
  refine ⟨x, hrun, hspares (lit "a") (by simp [sweepCalls, lit]) _ rfl (Or.inl rfl), ?_⟩
  exact hspares (lit "b") (by simp [sweepCalls, lit]) _ rfl (Or.inr (by decide))

end Writers

end Riser
