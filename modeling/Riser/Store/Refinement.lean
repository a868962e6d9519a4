import Riser.Core.ExpiringMap
import Riser.Store.GentDb

/-!
# The two leveldbs are one map with expiry

`GentDb` spreads a binding over two leveldbs that are written by separate calls, and sends the
expiry through a text.  `Refines` is the relation that makes it one thing: the value leveldb is
the first component of the abstract map, and the **decoded** meta leveldb is the second.  Each
operation re-establishes it (`Refines.put`, `Refines.batchPut`, `Refines.del`,
`Refines.clearExpireKey`), each reader reads it off, and `store_refines_map` puts the two
together over a whole run.

The one loop is the sweeper's.  It walks a snapshot of `meta_db` while it deletes, so its
invariant is about the part of the snapshot already walked: the keys of that part whose expiry
has come are unbound, and nothing else has changed (`Refines.clearLoop`).
-/

namespace Riser

open Cpp

/-- The store represents the map. -/
structure Refines (s : GentDb) (a : ExpMap Str Str) : Prop where
  value : ∀ k, s.db[k]? = (a k).map Prod.fst
  expire : ∀ k, (s.meta_db[k]?).map metaExpire = (a k).map fun p => .ok p.2

namespace Refines

variable {s : GentDb} {a : ExpMap Str Str}

lemma empty : Refines .empty .empty := by
  constructor <;> intro k <;> simp [GentDb.empty, ExpMap.empty]

/-- Only the two leveldbs matter. -/
lemma congr {s' : GentDb} (h : Refines s a) (hdb : s'.db = s.db) (hmeta : s'.meta_db = s.meta_db) :
    Refines s' a :=
  ⟨fun k => hdb ▸ h.value k, fun k => hmeta ▸ h.expire k⟩

/-- An unbound key has no meta record. -/
lemma meta_none (h : Refines s a) {k : Str} (hk : a k = none) : s.meta_db[k]? = none := by
  simpa [hk] using h.expire k

/-- A bound key has a meta record that decodes to its expiry. -/
lemma meta_some (h : Refines s a) {k v : Str} {e : ℕ} (hk : a k = some (v, e)) :
    ∃ m, s.meta_db[k]? = some m ∧ metaExpire m = .ok e := by
  have := h.expire k
  simp only [hk, Option.map_some, Option.map_eq_some_iff] at this
  exact this

/-- Both leveldbs hold exactly the bound keys. -/
lemma mem_meta_iff (h : Refines s a) (k : Str) : k ∈ s.meta_db ↔ (a k).isSome := by
  have := congrArg Option.isSome (h.expire k)
  simp only [Option.isSome_map] at this
  rw [Std.ExtTreeMap.mem_iff_isSome_getElem?, this]

lemma mem_db_iff (h : Refines s a) (k : Str) : k ∈ s.db ↔ (a k).isSome := by
  rw [Std.ExtTreeMap.mem_iff_isSome_getElem?, h.value k, Option.isSome_map]

/-! ## Writers -/

/-- Inserting into both leveldbs is binding. -/
lemma insert (h : Refines s a) {k v m : Str} {e : ℕ} (hm : metaExpire m = .ok e) {s' : GentDb}
    (hdb : s'.db = s.db.insert k v) (hmeta : s'.meta_db = s.meta_db.insert k m) :
    Refines s' (a.bind k v e) := by
  constructor
  · intro k'
    rw [hdb, Std.ExtTreeMap.getElem?_insert]
    by_cases hk : k = k'
    · subst hk; simp [ExpMap.bind]
    · simp [hk, ExpMap.bind, Function.update_of_ne (Ne.symm hk), h.value k']
  · intro k'
    rw [hmeta, Std.ExtTreeMap.getElem?_insert]
    by_cases hk : k = k'
    · subst hk; simp [ExpMap.bind, hm]
    · simp [hk, ExpMap.bind, Function.update_of_ne (Ne.symm hk), h.expire k']

/-- Erasing from both leveldbs is unbinding. -/
lemma erase (h : Refines s a) {k : Str} {s' : GentDb} (hdb : s'.db = s.db.erase k)
    (hmeta : s'.meta_db = s.meta_db.erase k) : Refines s' (a.unbind k) := by
  constructor
  · intro k'
    rw [hdb, Std.ExtTreeMap.getElem?_erase]
    by_cases hk : k = k'
    · subst hk; simp [ExpMap.unbind]
    · simp [hk, ExpMap.unbind, Function.update_of_ne (Ne.symm hk), h.value k']
  · intro k'
    rw [hmeta, Std.ExtTreeMap.getElem?_erase]
    by_cases hk : k = k'
    · subst hk; simp [ExpMap.unbind]
    · simp [hk, ExpMap.unbind, Function.update_of_ne (Ne.symm hk), h.expire k']

lemma putString (h : Refines s a) {d e : ℕ} (hd : d < 10) (he : e = 0 ∨ TenDigit e) (now : ℕ)
    (k v : Str) :
    Refines (s.putString true true now k v e d).1 (a.bind k v e) :=
  h.insert (metaExpire_metaSerialize hd he now) rfl rfl

lemma put (h : Refines s a) {d e : ℕ} (hd : d < 10) (he : e = 0 ∨ TenDigit e) (now : ℕ)
    (k v : Str) :
    Refines (s.put true true now k v e d).1 (a.bind k v e) := by
  unfold GentDb.put
  refine Refines.putString (Refines.congr h ?_ ?_) hd he now k v <;> split_ifs <;> rfl

lemma del (h : Refines s a) (k : Str) : Refines (s.del true true k).1 (a.unbind k) :=
  h.erase rfl rfl

/-- The pairs of a batch, written to the two leveldbs one by one. -/
lemma foldl_insert (h : Refines s a) {m : Str} (hm : metaExpire m = .ok 0) (l : List (Str × Str)) :
    Refines { s with
        db := l.foldl (fun d kv => d.insert kv.1 kv.2) s.db
        meta_db := l.foldl (fun d kv => d.put true kv.1 m) s.meta_db } (a.bindList l) := by
  induction l generalizing s a with
  | nil => exact h
  | cons kv l ih =>
      have h1 : Refines { s with db := s.db.insert kv.1 kv.2, meta_db := s.meta_db.insert kv.1 m }
          (a.bind kv.1 kv.2 0) := h.insert hm rfl rfl
      exact ih h1

lemma batchPut (h : Refines s a) (now : ℕ) (data : LevelDb) :
    Refines (s.batchPut true (fun _ => true) now data).1 (a.bindAll fun k => data[k]?) := by
  have hnd : (data.toList.map Prod.fst).Nodup := by
    rw [Std.ExtTreeMap.map_fst_toList_eq_keys]
    exact Std.ExtTreeMap.nodup_keys
  have hm : ∀ k v, (k, v) ∈ data.toList ↔ data[k]? = some v :=
    fun k v => Std.ExtTreeMap.mem_toList_iff_getElem?_eq_some
  have hmeta := metaExpire_metaSerialize (d := 0) (e := 0) (by decide) (Or.inl rfl) now
  have hfold := h.foldl_insert hmeta data.toList
  rw [ExpMap.bindList_eq_bindAll hnd hm] at hfold
  exact hfold.congr rfl rfl

/-! ## The sweeper -/

/-- The keys of a part of the snapshot whose expiry has come. -/
def expiredKeys (now : ℕ) (l : List (Str × Str)) : Set Str :=
  { k | ∃ m e, (k, m) ∈ l ∧ metaExpire m = .ok e ∧ e ≠ 0 ∧ e ≤ now }

/-- One turn: the entry is deleted exactly when its expiry has come. -/
lemma clearEntry_eq {now num e : ℕ} {k m : Str} (hm : metaExpire m = .ok e) :
    GentDb.clearEntry now (s, num) (k, m)
      = .ok (if e ≠ 0 ∧ e ≤ now then ((s.del true true k).1, num + 1) else (s, num)) := by
  obtain ⟨dat, hdat, rfl⟩ := exists_of_metaExpire hm
  simp only [GentDb.clearEntry, hdat, bind, Except.bind]
  by_cases h0 : dat.expire = 0
  · simp [h0]; rfl
  · by_cases hlt : now < dat.expire
    · simp [h0, hlt, not_le.mpr hlt]; rfl
    · simp [h0, hlt, not_lt.mp hlt]; rfl

/-- **The sweeper's invariant.**  After a part `l` of the snapshot, exactly the keys of `l` whose
expiry has come are unbound. -/
lemma clearLoop (now : ℕ) (l : List (Str × Str))
    (hl : ∀ kv ∈ l, ∃ e, metaExpire kv.2 = .ok e) (h : Refines s a) (num : ℕ) :
    ∃ s' num', l.foldlM (GentDb.clearEntry now) (s, num) = .ok (s', num') ∧
      ∃ a', Refines s' a' ∧ (∀ k ∈ expiredKeys now l, a' k = none) ∧
        ∀ k ∉ expiredKeys now l, a' k = a k := by
  induction l generalizing s a num with
  | nil => exact ⟨s, num, rfl, a, h, by simp [expiredKeys], fun _ _ => rfl⟩
  | cons kv l ih =>
      obtain ⟨k, m⟩ := kv
      obtain ⟨e, he⟩ := hl (k, m) (by simp)
      have hl' : ∀ kv ∈ l, ∃ e, metaExpire kv.2 = .ok e := fun kv hkv => hl kv (by simp [hkv])
      have hcons : ∀ k', k' ∈ expiredKeys now ((k, m) :: l)
          ↔ (k' = k ∧ e ≠ 0 ∧ e ≤ now) ∨ k' ∈ expiredKeys now l := by
        intro k'
        constructor
        · rintro ⟨m', e', hmem, he', h0, hle⟩
          rcases List.mem_cons.mp hmem with heq | hmem
          · obtain ⟨rfl, rfl⟩ := Prod.mk.injEq .. ▸ heq
            obtain rfl : e' = e := by simpa using he'.symm.trans he
            exact Or.inl ⟨rfl, h0, hle⟩
          · exact Or.inr ⟨m', e', hmem, he', h0, hle⟩
        · rintro (⟨rfl, h0, hle⟩ | ⟨m', e', hmem, he', h0, hle⟩)
          · exact ⟨m, e, by simp, he, h0, hle⟩
          · exact ⟨m', e', by simp [hmem], he', h0, hle⟩
      rw [List.foldlM_cons, clearEntry_eq he]
      simp only [bind, Except.bind]
      by_cases hexp : e ≠ 0 ∧ e ≤ now
      · rw [if_pos hexp]
        obtain ⟨s', num', hrun, a', href, hgone, hkept⟩ := ih hl' (h.del k) (num + 1)
        refine ⟨s', num', hrun, a', href, ?_, ?_⟩
        · intro k' hk'
          rcases (hcons k').mp hk' with ⟨rfl, -⟩ | hk'
          · by_cases hin : k' ∈ expiredKeys now l
            · exact hgone k' hin
            · simpa [ExpMap.unbind] using hkept k' hin
          · exact hgone k' hk'
        · intro k' hk'
          rw [hcons] at hk'
          simp only [not_or, not_and] at hk'
          have hne : k' ≠ k := fun heq => hk'.1 heq hexp.1 hexp.2
          rw [hkept k' hk'.2, ExpMap.unbind, Function.update_of_ne hne]
      · rw [if_neg hexp]
        obtain ⟨s', num', hrun, a', href, hgone, hkept⟩ := ih hl' h num
        refine ⟨s', num', hrun, a', href, ?_, ?_⟩
        · intro k' hk'
          rcases (hcons k').mp hk' with ⟨-, hexp'⟩ | hk'
          · exact absurd hexp' hexp
          · exact hgone k' hk'
        · intro k' hk'
          rw [hcons] at hk'
          exact hkept k' fun hin => hk' (Or.inr hin)

/-- The sweep over the whole snapshot is the abstract sweep. -/
lemma clearExpireKey (h : Refines s a) (now : ℕ) :
    ∃ s' num, s.clearExpireKey now = .ok (s', num) ∧ Refines s' (a.sweep now) := by
  have hsnap : ∀ k m, (k, m) ∈ s.meta_db.toList →
      ∃ v e, a k = some (v, e) ∧ metaExpire m = .ok e := by
    intro k m hmem
    have hget := Std.ExtTreeMap.mem_toList_iff_getElem?_eq_some.mp hmem
    have := h.expire k
    simp only [hget, Option.map_some] at this
    obtain ⟨⟨v, e⟩, hk, he⟩ := Option.map_eq_some_iff.mp this.symm
    exact ⟨v, e, hk, he.symm⟩
  have h0 : Refines { s with is_clear := true } a := h.congr rfl rfl
  obtain ⟨s', num, hrun, a', href, hgone, hkept⟩ := clearLoop now s.meta_db.toList
    (fun kv hkv => by
      obtain ⟨_, e, _, he⟩ := hsnap kv.1 kv.2 hkv
      exact ⟨e, he⟩) h0 0
  refine ⟨{ s' with is_clear := false }, num, ?_, ?_⟩
  · simp only [GentDb.clearExpireKey, hrun, bind, Except.bind]
    rfl
  · have heq : a' = a.sweep now := by
      funext k
      by_cases hexp : ∃ v e, a k = some (v, e) ∧ e ≠ 0 ∧ e ≤ now
      · obtain ⟨v, e, hk, hexp⟩ := hexp
        obtain ⟨m, hm, he⟩ := h.meta_some hk
        have hmem := Std.ExtTreeMap.mem_toList_iff_getElem?_eq_some.mpr hm
        rw [hgone k ⟨m, e, hmem, he, hexp⟩, ExpMap.sweep_of_expired hk hexp]
      · rw [ExpMap.sweep_of_not_expired fun v e hk h' => hexp ⟨v, e, hk, h'⟩]
        refine hkept k ?_
        rintro ⟨m, e, hmem, he, h0, hle⟩
        obtain ⟨v, e', hk, he'⟩ := hsnap k m hmem
        obtain rfl : e = e' := by simpa using he.symm.trans he'
        exact hexp ⟨v, e, hk, h0, hle⟩
    exact heq ▸ href.congr rfl rfl

/-! ## Readers -/

lemma get (h : Refines s a) (now : ℕ) (k : Str) : s.get now k = .ok (a.visible now k) := by
  cases hk : a k with
  | none =>
      have hv := h.value k
      simp only [hk, Option.map_none] at hv
      simp [GentDb.get, h.meta_none hk, hv, ExpMap.visible, hk, bind, Except.bind, pure,
        Except.pure]
  | some p =>
      obtain ⟨v, e⟩ := p
      obtain ⟨m, hm, he⟩ := h.meta_some hk
      obtain ⟨dat, hdat, rfl⟩ := exists_of_metaExpire he
      have hv := h.value k
      simp only [hk, Option.map_some] at hv
      simp only [GentDb.get, hm, hdat, hv, ExpMap.visible, hk, bind, Except.bind, pure,
        Except.pure, Option.filter_some]
      by_cases h0 : dat.expire = 0
      · simp [h0]
      · by_cases hlt : dat.expire < now
        · simp [h0, hlt, not_le.mpr hlt]
        · simp [h0, hlt, not_lt.mp hlt]

lemma getExpire (h : Refines s a) (k : Str) :
    s.getExpire k = .ok ((a k).map Prod.fst, a.expiry k) := by
  cases hk : a k with
  | none => simp [GentDb.getExpire, h.meta_none hk, h.value k, hk, ExpMap.expiry, bind,
      Except.bind, pure, Except.pure]
  | some p =>
      obtain ⟨v, e⟩ := p
      obtain ⟨m, hm, he⟩ := h.meta_some hk
      obtain ⟨dat, hdat, rfl⟩ := exists_of_metaExpire he
      simp [GentDb.getExpire, hm, hdat, h.value k, hk, ExpMap.expiry, bind, Except.bind, pure,
        Except.pure]

lemma ttl (h : Refines s a) (k : Str) : s.ttl k = .ok ((a k).isSome, a.expiry k) := by
  cases hk : a k with
  | none =>
      have hdb : s.db.contains k = false := by
        have := h.mem_db_iff k
        simp only [hk, Option.isSome_none, Bool.false_eq_true, iff_false] at this
        rwa [Std.ExtTreeMap.mem_iff_contains, Bool.not_eq_true] at this
      simp [GentDb.ttl, h.meta_none hk, ExpMap.expiry, hk, hdb, pure, Except.pure]
  | some p =>
      obtain ⟨v, e⟩ := p
      obtain ⟨m, hm, he⟩ := h.meta_some hk
      obtain ⟨dat, hdat, rfl⟩ := exists_of_metaExpire he
      simp [GentDb.ttl, hm, hdat, ExpMap.expiry, hk, bind, Except.bind, pure, Except.pure]

/-- `Keys("*")` lists the bound keys in bytewise order, each once. -/
lemma keys_star (h : Refines s a) :
    (s.keys (lit "*")).Pairwise (fun x y => compare x y = .lt) ∧
      ∀ k, k ∈ s.keys (lit "*") ↔ (a k).isSome := by
  have hkeys : s.keys (lit "*") = s.meta_db.keys := by
    simp only [GentDb.keys, ne_eq, not_true_eq_false, if_false]
  rw [hkeys]
  refine ⟨Std.ExtTreeMap.ordered_keys, fun k => ?_⟩
  rw [Std.ExtTreeMap.mem_keys, h.mem_meta_iff]

end Refines

/-! ## Whole runs -/

/-- The calls that change the store. -/
inductive StoreCall where
  | put (key value : Str) (expire datatype : ℕ)
  | putString (key value : Str) (expire datatype : ℕ)
  | batchPut (data : LevelDb)
  | del (key : Str)
  | clearExpireKey

/-- A call as `GentDb` makes it at clock value `now`, when leveldb does what it is told. -/
def GentDb.call (s : GentDb) (now : ℕ) : StoreCall → Except Fault GentDb
  | .put key value expire datatype => .ok (s.put true true now key value expire datatype).1
  | .putString key value expire datatype =>
      .ok (s.putString true true now key value expire datatype).1
  | .batchPut data => .ok (s.batchPut true (fun _ => true) now data).1
  | .del key => .ok (s.del true true key).1
  | .clearExpireKey => (s.clearExpireKey now).map Prod.fst

/-- What the call is for. -/
def ExpMap.call (a : ExpMap Str Str) (now : ℕ) : StoreCall → ExpMap Str Str
  | .put key value expire _ => a.bind key value expire
  | .putString key value expire _ => a.bind key value expire
  | .batchPut data => a.bindAll fun k => data[k]?
  | .del key => a.unbind key
  | .clearExpireKey => a.sweep now

/-- The arguments the callers pass: an absent or ten-digit expiry and a one-digit type. -/
def StoreCall.Valid : StoreCall → Prop
  | .put _ _ expire datatype => (expire = 0 ∨ TenDigit expire) ∧ datatype < 10
  | .putString _ _ expire datatype => (expire = 0 ∨ TenDigit expire) ∧ datatype < 10
  | _ => True

/-- A sequence of calls, each with the clock value it is made at. -/
def GentDb.run (s : GentDb) (calls : List (ℕ × StoreCall)) : Except Fault GentDb :=
  calls.foldlM (fun s c => s.call c.1 c.2) s

/-- The same sequence on the abstract map. -/
def ExpMap.run (a : ExpMap Str Str) (calls : List (ℕ × StoreCall)) : ExpMap Str Str :=
  calls.foldl (fun a c => ExpMap.call a c.1 c.2) a

/-- **One call**: from a store that represents `a`, the call succeeds and leaves a store that
represents what the call makes of `a`. -/
theorem Refines.call {s : GentDb} {a : ExpMap Str Str} (h : Refines s a) (now : ℕ)
    {c : StoreCall} (hc : c.Valid) :
    ∃ s', s.call now c = .ok s' ∧ Refines s' (ExpMap.call a now c) := by
  cases c with
  | put key value expire datatype => exact ⟨_, rfl, h.put hc.2 hc.1 now key value⟩
  | putString key value expire datatype => exact ⟨_, rfl, h.putString hc.2 hc.1 now key value⟩
  | batchPut data => exact ⟨_, rfl, h.batchPut now data⟩
  | del key => exact ⟨_, rfl, h.del key⟩
  | clearExpireKey =>
      obtain ⟨s', num, hrun, href⟩ := h.clearExpireKey now
      exact ⟨s', by simp [GentDb.call, hrun, Except.map], href⟩

/-- A whole run, by induction on the calls. -/
theorem Refines.run {s : GentDb} {a : ExpMap Str Str} (h : Refines s a)
    (calls : List (ℕ × StoreCall)) (hc : ∀ c ∈ calls, c.2.Valid) :
    ∃ s', s.run calls = .ok s' ∧ Refines s' (ExpMap.run a calls) := by
  induction calls generalizing s a with
  | nil => exact ⟨s, rfl, h⟩
  | cons c calls ih =>
      obtain ⟨s₁, hcall, h₁⟩ := h.call c.1 (hc c (by simp))
      obtain ⟨s₂, hrun, h₂⟩ := ih h₁ fun c hc' => hc c (by simp [hc'])
      refine ⟨s₂, ?_, h₂⟩
      simp only [GentDb.run, List.foldlM_cons, hcall, bind, Except.bind] at hrun ⊢
      exact hrun

/-- **The store refines one map with expiry.**  After every sequence of calls on the empty store
both leveldbs hold the same keys, and every reader answers from the map that the calls build:
`Get` with the value of a key that is bound and not past its expiry, the other two with the bound
expiry, and `Keys("*")` with the bound keys in order. -/
theorem store_refines_map (calls : List (ℕ × StoreCall))
    (hc : ∀ c ∈ calls, c.2.Valid) :
    ∃ s, GentDb.empty.run calls = .ok s ∧
      (∀ k, k ∈ s.db ↔ k ∈ s.meta_db) ∧
      (∀ now k, s.get now k = .ok ((ExpMap.run .empty calls).visible now k)) ∧
      (∀ k, s.getExpire k = .ok ((ExpMap.run .empty calls k).map Prod.fst,
        (ExpMap.run .empty calls).expiry k)) ∧
      (∀ k, s.ttl k = .ok ((ExpMap.run .empty calls k).isSome,
        (ExpMap.run .empty calls).expiry k)) ∧
      (s.keys (lit "*")).Pairwise (fun x y => compare x y = .lt) ∧
      ∀ k, k ∈ s.keys (lit "*") ↔ (ExpMap.run .empty calls k).isSome := by
  obtain ⟨s, hrun, h⟩ := Refines.empty.run calls hc
  refine ⟨s, hrun, fun k => ?_, h.get, h.getExpire, h.ttl, h.keys_star⟩
  rw [h.mem_db_iff, h.mem_meta_iff]

/-- A key stored for five seconds and swept in the second of its expiry. -/
theorem store_refines_map_expiring_key :
    ∃ s, GentDb.empty.run
        [(1700000000, .put (lit "k") (lit "v") 1700000005 1), (1700000005, .clearExpireKey)]
          = .ok s ∧
      s.get 1700000005 (lit "k") = .ok none ∧ (∀ k, k ∈ s.db ↔ k ∈ s.meta_db) := by
  obtain ⟨s, hrun, hkeys, hget, -⟩ := store_refines_map
    [(1700000000, .put (lit "k") (lit "v") 1700000005 1), (1700000005, .clearExpireKey)]
    (by simp [TenDigit, StoreCall.Valid])
  refine ⟨s, hrun, ?_, hkeys⟩
  rw [hget]
  rfl

end Riser
