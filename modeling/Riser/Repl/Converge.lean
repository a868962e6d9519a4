import Riser.Core.Transition
import Riser.Repl.GentReplication

/-!
# Convergence on a loss-free link

A master whose keys are non-empty and have no expiry starts a full synchronisation with an empty
slave, and the batches reach the slave in order.  Clients write, the replication thread is called
with any words at any time, and the slave applies the batches when it likes.

**When nothing is left to be sent or applied, the two stores are equal** (`slave_converges`).

A queue entry carries no value and a batch reads the values that are current when it is built, so
what has been sent so far says little on its own.  The invariant (`SyncInv`) is about the store
that the slave *will* have once the stream is drained, key by key:

* it agrees with the master on every key, except those with an entry that is still to be sent
  (`agree`),
* the last entry of a key is a DEL only if the master does not have the key (`settled`); this is
  what makes it safe to send a DEL without looking,
* a DEL is never flagged together with another entry (`alone`), so that whatever comes after it for
  the same key is still to be sent.
-/

namespace Riser

open Cpp GentReplication

/-! ## What the slave does with a batch -/

/-- `mdata.keys_values` after the pairs of an MSET. -/
def keysValues (items : List (ItemData × Str)) : LevelDb :=
  items.foldl (fun m p => m.insert p.1.name p.2) ∅

/-- The decoded command of a batch on the slave's store: the `Complete` of DEL looks the key up
first, a SETEX adds the slave's clock to the time to live. -/
def GentDb.applyBatch (s : GentDb) (now : ℕ) : Batch → Except Fault GentDb
  | .text _ => .ok s
  | .del it => (s.get now it.name).map fun
      | none => s
      | some _ => (s.del true true it.name).1
  | .add it nr expire =>
      .ok (s.put true true now it.name nr (if expire = 0 then 0 else expire + now) 1).1
  | .mset items => .ok (s.batchPut true (fun _ => true) now (keysValues items)).1

/-- What a DEL or an MSET is for. -/
def Batch.replay (m : ExpMap Str Str) : Batch → ExpMap Str Str
  | .del it => m.unbind it.name
  | .mset items => m.bindList (items.map fun p => (p.1.name, p.2))
  | _ => m

/-- A batch of a store without expiries. -/
def Batch.isPlain : Batch → Bool
  | .del _ | .mset _ => true
  | _ => false

/-- No binding expires. -/
def Permanent (m : ExpMap Str Str) : Prop := ∀ k v e, m k = some (v, e) → e = 0

lemma bindList_keysValues (m : ExpMap Str Str) (items : List (ItemData × Str)) :
    m.bindAll (fun k => (keysValues items)[k]?)
      = m.bindList (items.map fun p => (p.1.name, p.2)) := by
  have hstep : ∀ (l : List (ItemData × Str)) (d : LevelDb),
      m.bindAll (fun k => (l.foldl (fun m p => m.insert p.1.name p.2) d)[k]?)
        = (m.bindAll fun k => d[k]?).bindList (l.map fun p => (p.1.name, p.2)) := by
    intro l
    induction l with
    | nil => intro d; rfl
    | cons p l ih =>
        intro d
        rw [List.foldl_cons, ih, List.map_cons, ExpMap.bindList, ExpMap.bindList, List.foldl_cons]
        congr 1
        funext k
        by_cases hk : p.1.name = k
        · subst hk; simp [ExpMap.bindAll, ExpMap.bind]
        · simp [ExpMap.bindAll, ExpMap.bind, Std.ExtTreeMap.getElem?_insert, hk,
            Function.update_of_ne (Ne.symm hk)]
  have hempty : (m.bindAll fun k => (∅ : LevelDb)[k]?) = m := by
    funext k
    simp [ExpMap.bindAll]
  rw [keysValues, hstep, hempty]

lemma Permanent.bind {m : ExpMap Str Str} (h : Permanent m) (k v : Str) :
    Permanent (m.bind k v 0) := by
  intro k' v' e hk
  by_cases heq : k' = k
  · subst heq
    simp only [ExpMap.bind, Function.update_self, Option.some.injEq, Prod.mk.injEq] at hk
    exact hk.2.symm
  · rw [ExpMap.bind, Function.update_of_ne heq] at hk
    exact h k' v' e hk

lemma Permanent.unbind {m : ExpMap Str Str} (h : Permanent m) (k : Str) :
    Permanent (m.unbind k) := by
  intro k' v e hk
  by_cases heq : k' = k
  · subst heq
    simp [ExpMap.unbind] at hk
  · rw [ExpMap.unbind, Function.update_of_ne heq] at hk
    exact h k' v e hk

lemma Permanent.bindList {m : ExpMap Str Str} (h : Permanent m) (l : List (Str × Str)) :
    Permanent (m.bindList l) := by
  induction l generalizing m with
  | nil => exact h
  | cons kv l ih => exact ih (h.bind kv.1 kv.2)

/-- A binding that does not expire is visible at any time. -/
lemma Permanent.visible {m : ExpMap Str Str} (h : Permanent m) (now : ℕ) (k : Str) :
    m.visible now k = (m k).map Prod.fst := by
  unfold ExpMap.visible
  cases hk : m k with
  | none => rfl
  | some p =>
      obtain ⟨v, e⟩ := p
      obtain rfl := h k v e hk
      simp

/-- **The slave's store follows the replay.** -/
lemma Refines.applyBatch {s : GentDb} {m : ExpMap Str Str} (h : Refines s m) (hp : Permanent m)
    (now : ℕ) {b : Batch} (hb : b.isPlain = true) :
    ∃ s', s.applyBatch now b = .ok s' ∧ Refines s' (b.replay m) ∧ Permanent (b.replay m) := by
  cases b with
  | text t => cases hb
  | add it nr expire => cases hb
  | del it =>
      have hget := h.get now it.name
      rw [hp.visible] at hget
      cases hk : m it.name with
      | none =>
          have hsame : m.unbind it.name = m := by
            rw [ExpMap.unbind, ← hk, Function.update_eq_self]
          refine ⟨s, by simp [GentDb.applyBatch, hget, hk, Except.map], ?_, ?_⟩
          · simpa only [Batch.replay, hsame] using h
          · simpa only [Batch.replay, hsame] using hp
      | some p =>
          exact ⟨_, by simp [GentDb.applyBatch, hget, hk, Except.map], h.del it.name,
            hp.unbind it.name⟩
  | mset items =>
      refine ⟨_, rfl, ?_, hp.bindList _⟩
      have := h.batchPut now (keysValues items)
      rwa [bindList_keysValues] at this

/-! ## The system -/

/-- The master, the batches on their way, and the slave. -/
structure SyncSystem where
  master : GentDb
  rep : GentReplication
  next : ℕ
  stream : List Batch
  slave : GentDb

namespace SyncSystem

/-- A replication is constructed for a slave with an empty store. -/
def init (rinfo : RepInfo) (master : GentDb) (now : ℕ) (uninit : Bool) : SyncSystem where
  master := master
  rep := GentReplication.new rinfo master now true uninit 0
  next := (master.keys (lit "*")).length
  stream := []
  slave := .empty

/-- What can happen next. -/
inductive Ev where
  /-- A client's SET, with its `Push`. -/
  | put (now : ℕ) (key value : Str)
  /-- A client's DEL of a key that is there, with its `Push`. -/
  | del (now : ℕ) (key : Str)
  /-- The replication thread calls `Start`, whatever made it do so. -/
  | start (now : ℕ) (word : Word)
  /-- The slave applies the next batch. -/
  | apply (now : ℕ)

/-- One step. -/
def step (s : SyncSystem) : Ev → Option SyncSystem
  | .put now key value =>
      if key = [] then none
      else some { s with
        master := (s.master.put true true now key value 0 1).1
        rep := (s.rep.push now s.next .ADD key).1
        next := s.next + 1 }
  | .del now key =>
      match s.master.get now key with
      | .ok (some _) =>
          some { s with
            master := (s.master.del true true key).1
            rep := (s.rep.push now s.next .DEL key).1
            next := s.next + 1 }
      | _ => none
  | .start now word =>
      match s.rep.start s.master now word.text with
      | .error _ => none
      | .ok (rep, .text _, _) => some { s with rep }
      | .ok (rep, b, _) => some { s with rep, stream := s.stream ++ [b] }
  | .apply now =>
      match s.stream with
      | [] => none
      | b :: stream =>
          match s.slave.applyBatch now b with
          | .error _ => none
          | .ok slave => some { s with stream, slave }

end SyncSystem

/-! ## Batches of a permanent store -/

section Permanent

variable {db : GentDb} {a : ExpMap Str Str} (h : Refines db a) (hp : Permanent a)
include h hp

lemma getExpire_permanent {k v : Str} {e : ℕ} (hget : db.getExpire k = .ok (some v, e)) :
    a k = some (v, 0) ∧ e = 0 := by
  rw [h.getExpire] at hget
  cases hk : a k with
  | none => simp [hk] at hget
  | some x =>
      obtain ⟨v', e'⟩ := x
      obtain rfl := hp k v' e' hk
      simp only [hk, Option.map_some, ExpMap.expiry, Option.elim_some, Except.ok.injEq,
        Prod.mk.injEq, Option.some.injEq] at hget
      exact ⟨by rw [hget.1], hget.2.symm⟩

/-- An MSET once begun collects entries with their current values. -/
lemma batchLoop_mset {now : ℕ} {d d' : List ItemData} (hname : ∀ it ∈ d, it.name ≠ [])
    {out : List (ItemData × Str)} (hout : out ≠ []) {b : Batch}
    (hb : batchLoop db now d out = .ok (d', b)) :
    ∃ n items, d' = (d.take n).map ItemData.setSync ++ d.drop n ∧ b = .mset (out ++ items) ∧
      items.map Prod.fst = d.take n ∧
      ∀ p ∈ items, p.1.type = .ADD ∧ a p.1.name = some (p.2, 0) := by
  induction d generalizing out d' b with
  | nil =>
      cases hb
      exact ⟨0, [], by simp⟩
  | cons it rest ih =>
      cases batchLoop_turn hb with
      | flush _ => exact ⟨0, [], by simp⟩
      | del hout' _ => exact absurd hout' hout
      | add hout' _ _ _ _ => exact absurd hout' hout
      | @join nr rest' b htype hget hrec =>
          rw [if_pos (hname it (by simp))] at hrec
          obtain ⟨n, items, rfl, rfl, hfst, hval⟩ :=
            ih (fun x hx => hname x (by simp [hx])) (by simp) hrec
          refine ⟨n + 1, (it, nr) :: items, by simp, by simp, by simp [hfst], ?_⟩
          intro p hmem
          rcases List.mem_cons.mp hmem with rfl | hmem
          · exact ⟨htype, (getExpire_permanent h hp hget).1⟩
          · exact hval p hmem

/-- **A batch is a DEL of its first entry, or an MSET of current values.** -/
lemma batchLoop_permanent {now : ℕ} {d d' : List ItemData} (hname : ∀ it ∈ d, it.name ≠ [])
    (hd : d ≠ []) {b : Batch} (hb : batchLoop db now d [] = .ok (d', b)) :
    (∃ it rest, d = it :: rest ∧ d' = it.setSync :: rest ∧ b = .del it ∧
        (it.type = .DEL ∨ a it.name = none)) ∨
      ∃ n items, 0 < n ∧ d' = (d.take n).map ItemData.setSync ++ d.drop n ∧ b = .mset items ∧
        items.map Prod.fst = d.take n ∧
        ∀ p ∈ items, p.1.type = .ADD ∧ a p.1.name = some (p.2, 0) := by
  obtain ⟨it, rest, rfl⟩ := List.exists_cons_of_ne_nil hd
  cases batchLoop_turn hb with
  | flush hout => exact absurd rfl hout
  | add _ _ hget h0 _ => exact absurd (getExpire_permanent h hp hget).2 h0
  | del _ hg =>
      refine Or.inl ⟨it, rest, rfl, rfl, rfl, ?_⟩
      rcases hg with htype | ⟨e, hget⟩ | ⟨v, e, hget, h0, -⟩
      · exact Or.inl (by cases hty : it.type <;> simp_all)
      · rw [h.getExpire] at hget
        simp only [Except.ok.injEq, Prod.mk.injEq, Option.map_eq_none_iff] at hget
        exact Or.inr hget.1
      · exact absurd (getExpire_permanent h hp hget).2 h0
  | @join nr rest' b htype hget hrec =>
      rw [if_pos (hname it (by simp))] at hrec
      obtain ⟨n, items, rfl, rfl, hfst, hval⟩ :=
        batchLoop_mset h hp (fun x hx => hname x (by simp [hx])) (by simp) hrec
      refine Or.inr ⟨n + 1, (it, nr) :: items, by simp, by simp, by simp, by simp [hfst], ?_⟩
      intro p hmem
      rcases List.mem_cons.mp hmem with rfl | hmem
      · exact ⟨htype, (getExpire_permanent h hp hget).1⟩
      · exact hval p hmem

end Permanent

/-! ## The invariant -/

/-- The key has an entry that is still to be sent. -/
def Waiting (q : List ItemData) (k : Str) : Prop := ∃ it ∈ q, it.name = k ∧ it.is_sync = false

/-- A DEL is followed by another entry of its key, unless the key is unbound. -/
def Settled (a : ExpMap Str Str) : List ItemData → Prop
  | [] => True
  | it :: q => (it.type = .DEL → it.name ∈ q.map (·.name) ∨ a it.name = none) ∧ Settled a q

/-- Only two ADD entries are ever flagged together. -/
def Alone (q : List ItemData) : Prop :=
  ∀ x y rest, q = x :: y :: rest → y.is_sync = true → x.type = .ADD ∧ y.type = .ADD

lemma Settled.of_append {a : ExpMap Str Str} :
    ∀ {p q : List ItemData}, Settled a (p ++ q) → Settled a q
  | [], _, h => h
  | _ :: _, _, h => Settled.of_append h.2

/-- Flags do not matter. -/
lemma Settled.setSync {a : ExpMap Str Str} : ∀ {q : List ItemData} (n : ℕ), Settled a q →
    Settled a ((q.take n).map ItemData.setSync ++ q.drop n)
  | [], _, _ => by simp [Settled]
  | _ :: _, 0, h => h
  | it :: q, n + 1, h => by
      rw [List.take_succ_cons, List.map_cons, List.drop_succ_cons, List.cons_append]
      refine ⟨fun hdel => ?_, Settled.setSync n h.2⟩
      have hnames : (((q.take n).map ItemData.setSync ++ q.drop n).map (·.name))
          = q.map (·.name) := by
        have hfun : (fun it : ItemData => it.name) ∘ ItemData.setSync = fun it => it.name := rfl
        rw [List.map_append, List.map_map, hfun, ← List.map_append, List.take_append_drop]
      rw [hnames]
      exact h.1 hdel

/-- A write of `k` with its entry. -/
lemma Settled.snoc {a a' : ExpMap Str Str} {k : Str} (hother : ∀ k', k' ≠ k → a' k' = a k')
    {new : ItemData} (hk : new.name = k) (hdel : new.type = .DEL → a' k = none) :
    ∀ {q : List ItemData}, Settled a q → Settled a' (q ++ [new])
  | [], _ => ⟨fun hd => Or.inr (hk ▸ hdel hd), trivial⟩
  | it :: q, h => by
      rw [List.cons_append]
      refine ⟨fun hd => ?_, Settled.snoc hother hk hdel h.2⟩
      by_cases heq : it.name = k
      · exact Or.inl (by simp [heq, hk])
      · rcases h.1 hd with hin | hnone
        · exact Or.inl (by simp only [List.map_append, List.mem_append, hin, true_or])
        · exact Or.inr (by rw [hother _ heq, hnone])

lemma Alone.snoc {q : List ItemData} (h : Alone q) {new : ItemData} (hnew : new.is_sync = false) :
    Alone (q ++ [new]) := by
  rintro x y rest heq hsync
  match q, h, heq with
  | [], _, heq => simp at heq
  | [x'], _, heq =>
      obtain ⟨-, rfl, -⟩ : x' = x ∧ new = y ∧ [] = rest := by simpa using heq
      simp [hnew] at hsync
  | x' :: y' :: rest', h, heq =>
      obtain ⟨rfl, rfl, -⟩ : x' = x ∧ y' = y ∧ rest' ++ [new] = rest := by simpa using heq
      exact h x' y' rest' rfl hsync

/-- Flagging ADD entries in front. -/
lemma Alone.setSync : ∀ {f t : List ItemData}, Alone (f ++ t) → f ≠ [] → (∀ x ∈ f, x.type = .ADD) →
    Alone (f.map ItemData.setSync ++ t)
  | [], _, _, hf, _ => absurd rfl hf
  | [f₁], _, h, _, _ => by
      intro x y rest heq hsync
      obtain ⟨rfl, rfl⟩ := List.cons.inj heq
      exact h f₁ y rest rfl hsync
  | f₁ :: f₂ :: _, _, _, _, hadd => by
      intro x y rest heq _
      obtain ⟨rfl, htail⟩ := List.cons.inj heq
      obtain ⟨rfl, -⟩ := List.cons.inj htail
      exact ⟨hadd f₁ (by simp), hadd f₂ (by simp)⟩

/-- What holds in every reachable state, with `a` the master's map and `c` the slave's. -/
structure SyncInv (s : SyncSystem) (a c : ExpMap Str Str) : Prop where
  master : Refines s.master a
  slave : Refines s.slave c
  permanent : Permanent a
  permanent' : Permanent c
  plain : ∀ b ∈ s.stream, b.isPlain = true
  queues : s.rep.QueueInv
  running : s.rep.is_run = true
  unnamed : a [] = none
  named : ∀ it ∈ s.rep.pending, it.name ≠ []
  settled : Settled a s.rep.pending
  alone : Alone s.rep.pending
  agree : ∀ k, Waiting s.rep.pending k ∨ s.stream.foldl Batch.replay c k = a k

namespace SyncInv

variable {s s' : SyncSystem} {a c : ExpMap Str Str}

/-- The state at the start: every key of the master waits, and the slave has none. -/
lemma init {rinfo : RepInfo} (hfull : rinfo.ser_time = 0 ∨ rinfo.rep_time < rinfo.ser_time)
    {master : GentDb} (hm : Refines master a) (hp : Permanent a) (hkey : a [] = none) (now : ℕ)
    (uninit : Bool) : SyncInv (.init rinfo master now uninit) a .empty := by
  have hpend : (SyncSystem.init rinfo master now uninit).rep.pending
      = fullSync (master.keys (lit "*")) 0 := by
    simp [SyncSystem.init, GentReplication.new, hfull, pending]
  have hmem : ∀ it ∈ fullSync (master.keys (lit "*")) 0,
      (a it.name).isSome ∧ it.type = .ADD ∧ it.is_sync = false := by
    intro it hit
    obtain ⟨i, hi, rfl⟩ := List.mem_mapIdx.mp hit
    exact ⟨(hm.keys_star.2 _).mp (List.getElem_mem hi), rfl, rfl⟩
  refine ⟨hm, Refines.empty, hp, by simp [Permanent, ExpMap.empty], by simp [SyncSystem.init],
    QueueInv.new .., ?_, hkey, ?_, ?_, ?_, ?_⟩
  · exact (new_que rinfo master now true uninit 0).1
  · intro it hit hname
    have := (hmem it (hpend ▸ hit)).1
    simp [hname, hkey] at this
  · rw [hpend]
    generalize fullSync (master.keys (lit "*")) 0 = q at hmem
    induction q with
    | nil => trivial
    | cons it q ih =>
        refine ⟨fun hdel => ?_, ih fun x hx => hmem x (by simp [hx])⟩
        simp [(hmem it (by simp)).2.1] at hdel
  · intro x y rest heq hsync
    rw [hpend] at heq
    simp [(hmem y (by simp [heq])).2.2] at hsync
  · intro k
    cases hk : a k with
    | none => exact Or.inr rfl
    | some v =>
        left
        have hin : k ∈ master.keys (lit "*") := (hm.keys_star.2 k).mpr (by simp [hk])
        obtain ⟨i, hi, rfl⟩ := List.mem_iff_getElem.mp hin
        refine ⟨⟨0 + i, (master.keys (lit "*"))[i], .ADD, false⟩, ?_, rfl, rfl⟩
        rw [hpend]
        exact List.mem_mapIdx.mpr ⟨i, hi, rfl⟩

/-- **A client's write** of `k`, whatever it makes of the map there. -/
lemma write (h : SyncInv s a c) {k : Str} (hk : k ≠ []) {type : OptType} {a' : ExpMap Str Str}
    (hother : ∀ k', k' ≠ k → a' k' = a k') (hdel : type = .DEL → a' k = none)
    (hp : Permanent a') {master : GentDb} (hm : Refines master a') (now n : ℕ) :
    SyncInv { s with master, rep := (s.rep.push now s.next type k).1, next := n } a' c := by
  have hpend := push_pending h.running now s.next type k
  refine ⟨hm, h.slave, hp, h.permanent', h.plain, h.queues.push .., ?_, ?_, ?_, ?_, ?_, ?_⟩
  · simp [GentReplication.push, h.running]
  · rw [hother [] (Ne.symm hk), h.unnamed]
  · intro it hit
    rw [hpend] at hit
    rcases List.mem_append.mp hit with hit | hit
    · exact h.named it hit
    · obtain rfl := List.mem_singleton.mp hit
      exact hk
  · rw [hpend]
    exact h.settled.snoc hother rfl hdel
  · rw [hpend]
    exact h.alone.snoc rfl
  · intro k'
    rw [hpend]
    by_cases heq : k' = k
    · exact Or.inl ⟨_, List.mem_append_right _ (List.mem_singleton_self _), heq.symm, rfl⟩
    · rcases h.agree k' with ⟨it, hit, hw⟩ | hag
      · exact Or.inl ⟨it, List.mem_append_left _ hit, hw⟩
      · exact Or.inr (by rw [hother k' heq]; exact hag)

lemma put (h : SyncInv s a c) {now : ℕ} {key value : Str}
    (hs : s.step (.put now key value) = some s') : SyncInv s' (a.bind key value 0) c := by
  simp only [SyncSystem.step] at hs
  split_ifs at hs with hkey
  cases hs
  refine h.write hkey ?_ (by simp) (h.permanent.bind key value)
    (h.master.put (by decide) (Or.inl rfl) now key value) now _
  exact fun k' hne => Function.update_of_ne hne ..

lemma del (h : SyncInv s a c) {now : ℕ} {key : Str} (hs : s.step (.del now key) = some s') :
    SyncInv s' (a.unbind key) c := by
  simp only [SyncSystem.step] at hs
  split at hs
  · rename_i v hget
    cases hs
    have hkey : key ≠ [] := by
      rintro rfl
      rw [h.master.get, h.permanent.visible, h.unnamed] at hget
      cases hget
    refine h.write hkey ?_ (fun _ => Function.update_self ..) (h.permanent.unbind key)
      (h.master.del key) now _
    exact fun k' hne => Function.update_of_ne hne ..
  · cases hs

/-- **The slave's step** takes a batch from the stream to the store. -/
lemma apply (h : SyncInv s a c) {now : ℕ} (hs : s.step (.apply now) = some s') :
    ∃ c', SyncInv s' a c' := by
  simp only [SyncSystem.step] at hs
  cases hst : s.stream with
  | nil => simp [hst] at hs
  | cons b stream =>
      obtain ⟨slave, happ, href, hperm⟩ :=
        h.slave.applyBatch h.permanent' now (h.plain b (by simp [hst]))
      simp only [hst, happ, Option.some.injEq] at hs
      subst hs
      refine ⟨b.replay c, h.master, href, h.permanent, hperm,
        fun b' hb' => h.plain b' (by simp [hst, hb']), h.queues, h.running, h.unnamed, h.named,
        h.settled, h.alone, ?_⟩
      simpa [hst] using h.agree

/-- The entries that are left after the acknowledgement keep what the invariant says. -/
lemma of_acked (h : SyncInv s a c) {now : ℕ} {msg : Str} {rep : GentReplication} {b : Batch}
    {p q : List ItemData} {k n : ℕ} (hst : StartStep s.rep s.master now msg rep b p q k n) :
    (∀ it ∈ q, it.name ≠ []) ∧ Settled a q ∧ Alone q ∧
      ∀ k, Waiting q k ∨ s.stream.foldl Batch.replay c k = a k := by
  refine ⟨fun it hit => h.named it (by simp [hst.split, hit]),
    Settled.of_append (hst.split ▸ h.settled), ?_, ?_⟩
  · by_cases hp : p = []
    · have := h.alone
      rwa [hst.split, hp, List.nil_append] at this
    · intro x y rest heq hsync
      simp [hst.fresh (hst.acked hp) y (by simp [heq])] at hsync
  · intro k'
    refine (h.agree k').imp_left ?_
    rintro ⟨it, hit, hname, hsync⟩
    rw [hst.split] at hit
    rcases List.mem_append.mp hit with hit | hit
    · simp [hst.popped it hit] at hsync
    · exact ⟨it, hit, hname, hsync⟩

/-- **A DEL goes out.**  If a later write has bound the key again, its entry is still to be sent. -/
lemma send_del (h : SyncInv s a c) {it : ItemData} {t : List ItemData} {rep : GentReplication}
    (hq : rep.QueueInv) (hrun : rep.is_run = true) (hpend : rep.pending = it.setSync :: t)
    (hname : ∀ x ∈ it :: t, x.name ≠ []) (hset : Settled a (it :: t)) (halone : Alone (it :: t))
    (hagree : ∀ k, Waiting (it :: t) k ∨ s.stream.foldl Batch.replay c k = a k)
    (hlater : it.type = .DEL → ∀ x ∈ t, x.is_sync = false)
    (hgone : it.type = .DEL ∨ a it.name = none) :
    SyncInv { s with rep, stream := s.stream ++ [.del it] } a c := by
  refine ⟨h.master, h.slave, h.permanent, h.permanent', ?_, hq, hrun, h.unnamed, ?_, ?_, ?_, ?_⟩
  · intro b hb
    rcases List.mem_append.mp hb with hb | hb
    · exact h.plain b hb
    · obtain rfl := List.mem_singleton.mp hb
      rfl
  · intro x hx
    rw [hpend] at hx
    rcases List.mem_cons.mp hx with rfl | hx
    · exact hname it (by simp)
    · exact hname x (by simp [hx])
  · rw [hpend]
    exact hset
  · intro x y rest heq hsync
    rw [hpend] at heq
    obtain ⟨rfl, rfl⟩ := List.cons.inj heq
    exact halone it y rest rfl hsync
  · intro k
    rw [hpend, List.foldl_append]
    by_cases hk : k = it.name
    · subst hk
      have hnone : Batch.replay (s.stream.foldl Batch.replay c) (.del it) it.name = none :=
        Function.update_self ..
      have hcase : it.name ∈ t.map (·.name) ∧ it.type = .DEL ∨ a it.name = none := by
        rcases hgone with hdel | hnone
        · exact (hset.1 hdel).imp_left fun hmem => ⟨hmem, hdel⟩
        · exact Or.inr hnone
      rcases hcase with ⟨hmem, hdel⟩ | hunb
      · obtain ⟨x, hx, hxn⟩ := List.mem_map.mp hmem
        exact Or.inl ⟨x, List.mem_cons_of_mem _ hx, hxn, hlater hdel x hx⟩
      · exact Or.inr (by rw [hunb]; exact hnone)
    · have hsame : Batch.replay (s.stream.foldl Batch.replay c) (.del it) k
          = s.stream.foldl Batch.replay c k := Function.update_of_ne hk ..
      rcases hagree k with ⟨x, hx, hxn, hsync⟩ | hag
      · refine Or.inl ⟨x, ?_, hxn, hsync⟩
        rcases List.mem_cons.mp hx with rfl | hx
        · exact absurd hxn.symm hk
        · exact List.mem_cons_of_mem _ hx
      · exact Or.inr (hsame.trans hag)

/-- **An MSET goes out**, with the values the master has now. -/
lemma send_mset (h : SyncInv s a c) {f t : List ItemData} {items : List (ItemData × Str)}
    {rep : GentReplication} (hq : rep.QueueInv) (hrun : rep.is_run = true)
    (hpend : rep.pending = f.map ItemData.setSync ++ t) (hf : f ≠ [])
    (hname : ∀ x ∈ f ++ t, x.name ≠ []) (hset : Settled a (f ++ t)) (halone : Alone (f ++ t))
    (hagree : ∀ k, Waiting (f ++ t) k ∨ s.stream.foldl Batch.replay c k = a k)
    (hfst : items.map Prod.fst = f)
    (hval : ∀ p ∈ items, p.1.type = .ADD ∧ a p.1.name = some (p.2, 0)) :
    SyncInv { s with rep, stream := s.stream ++ [.mset items] } a c := by
  have hadd : ∀ x ∈ f, x.type = .ADD := by
    intro x hx
    rw [← hfst] at hx
    obtain ⟨p, hp, rfl⟩ := List.mem_map.mp hx
    exact (hval p hp).1
  have hkeys : (items.map fun p => (p.1.name, p.2)).map Prod.fst = f.map (·.name) := by
    rw [← hfst, List.map_map, List.map_map]
    rfl
  refine ⟨h.master, h.slave, h.permanent, h.permanent', ?_, hq, hrun, h.unnamed, ?_, ?_, ?_, ?_⟩
  · intro b hb
    rcases List.mem_append.mp hb with hb | hb
    · exact h.plain b hb
    · obtain rfl := List.mem_singleton.mp hb
      rfl
  · intro x hx
    rw [hpend] at hx
    rcases List.mem_append.mp hx with hx | hx
    · obtain ⟨y, hy, rfl⟩ := List.mem_map.mp hx
      exact hname y (by simp [hy])
    · exact hname x (by simp [hx])
  · have := hset.setSync f.length
    rwa [List.take_left, List.drop_left, ← hpend] at this
  · rw [hpend]
    exact halone.setSync hf hadd
  · intro k
    rw [hpend, List.foldl_append]
    by_cases hk : k ∈ f.map (·.name)
    · refine Or.inr (ExpMap.bindList_of_agree ?_ (hkeys ▸ hk) _)
      intro kv hkv
      obtain ⟨p, hp, rfl⟩ := List.mem_map.mp hkv
      exact (hval p hp).2
    · rcases hagree k with ⟨x, hx, hxn, hsync⟩ | hag
      · refine Or.inl ⟨x, ?_, hxn, hsync⟩
        rcases List.mem_append.mp hx with hx | hx
        · exact absurd (List.mem_map.mpr ⟨x, hx, hxn⟩) hk
        · exact List.mem_append_right _ hx
      · exact Or.inr ((ExpMap.bindList_of_notMem (hkeys ▸ hk) _).trans hag)

lemma start (h : SyncInv s a c) {now : ℕ} {word : Word}
    (hs : s.step (.start now word) = some s') : SyncInv s' a c := by
  simp only [SyncSystem.step] at hs
  cases hstart : s.rep.start s.master now word.text with
  | error f => simp [hstart] at hs
  | ok res =>
      obtain ⟨rep, b, ret⟩ := res
      have hrun : rep.is_run = true := (start_is_run word.text_cases hstart).trans h.running
      obtain ⟨hq, p, q, k, n, hst⟩ := h.queues.start word.text_cases hstart
      obtain ⟨hname, hset, halone, hagree⟩ := h.of_acked hst
      rcases hst.batch with ⟨rfl, rfl⟩ | ⟨hqne, hn, hnk, hk2, -, hb⟩
      · -- nothing is pending, so nothing is waiting
        simp only [hstart, Option.some.injEq] at hs
        subst hs
        have hpend : rep.pending = [] := by simpa using hst.after
        exact ⟨h.master, h.slave, h.permanent, h.permanent', h.plain, hq, hrun, h.unnamed,
          by simp [hpend], by simp [hpend, Settled], by simp [hpend, Alone],
          fun k => by simpa [hpend] using hagree k⟩
      have hpend := hst.after_batch hqne hb
      have hsplit : q = q.take k ++ q.drop k := (List.take_append_drop k q).symm
      have hs' : s' = { s with rep, stream := s.stream ++ [b] } := by
        cases b with
        | text t => exact absurd hb batchLoop_ne_text
        | _ => simpa [hstart] using hs.symm
      have hd : q.take k ≠ [] := by
        have hk : k ≠ 0 := by omega
        simp [hk, hqne]
      have hname' : ∀ it ∈ q.take k, it.name ≠ [] :=
        fun it hit => hname it (List.mem_of_mem_take hit)
      subst hs'
      rcases batchLoop_permanent h.master h.permanent hname' hd hb with
        ⟨it, rest, hcons, hd', rfl, hgone⟩ | ⟨m, items, hm, hd', rfl, hfst, hval⟩
      · rw [hd', List.cons_append] at hpend
        rw [hcons, List.cons_append] at hsplit
        rw [hsplit] at hname hset halone hagree
        refine h.send_del hq hrun hpend hname hset halone hagree (fun hdel x hx => ?_) hgone
        -- a flag behind the DEL would be the second of two flagged ADD entries
        by_contra hsync
        rcases List.mem_append.mp hx with hx | hx
        · have hlen := congrArg List.length hcons
          simp only [List.length_take, List.length_cons, syncNum] at hlen hk2
          obtain ⟨y, rfl⟩ : ∃ y, rest = [y] :=
            List.length_eq_one_iff.mp (by have := List.length_pos_of_mem hx; omega)
          obtain rfl := List.mem_singleton.mp hx
          have := (halone it x _ rfl (by simpa using hsync)).1
          simp [hdel] at this
        · exact hsync (hst.waiting x hx)
      · rw [hd', List.append_assoc] at hpend
        have hsplit' : q = (q.take k).take m ++ ((q.take k).drop m ++ q.drop k) := by
          rw [← List.append_assoc, List.take_append_drop, List.take_append_drop]
        have hne : (q.take k).take m ≠ [] := by
          have hm0 : m ≠ 0 := by omega
          simp only [ne_eq, List.take_eq_nil_iff, hm0, false_or]
          simpa using hd
        rw [hsplit'] at hname hset halone hagree
        exact h.send_mset hq hrun hpend hne hname hset halone hagree hfst hval

lemma step (h : SyncInv s a c) {e : SyncSystem.Ev} (hs : s.step e = some s') :
    ∃ a' c', SyncInv s' a' c' := by
  cases e with
  | put now key value => exact ⟨_, _, h.put hs⟩
  | del now key => exact ⟨_, _, h.del hs⟩
  | start now word => exact ⟨_, _, h.start hs⟩
  | apply now => exact ⟨_, h.apply hs⟩

/-- With nothing left to send or apply, both stores represent the same map. -/
lemma eq_of_drained (h : SyncInv s a c) (hpend : s.rep.pending = []) (hst : s.stream = []) :
    c = a := by
  funext k
  simpa [Waiting, hpend, hst] using h.agree k

end SyncInv

/-- Two stores of one map hold the same values. -/
lemma Refines.db_eq {s s' : GentDb} {a : ExpMap Str Str} (h : Refines s a) (h' : Refines s' a) :
    s'.db = s.db := by
  refine Std.ExtTreeMap.ext_getElem? fun k => ?_
  rw [h.value, h'.value]

/-- **Convergence.**  Whatever the clients write, whenever `Start` is called and with whatever
word, and whenever the slave applies a batch: once both queues are empty and the stream is
drained, the slave has the master's values and answers every lookup as the master does. -/
theorem slave_converges {rinfo : RepInfo}
    (hfull : rinfo.ser_time = 0 ∨ rinfo.rep_time < rinfo.ser_time) {master : GentDb}
    {a : ExpMap Str Str} (hm : Refines master a) (hp : Permanent a) (hkey : a [] = none) (now : ℕ)
    (uninit : Bool) (evs : List SyncSystem.Ev) {s : SyncSystem}
    (hrun : Transition.run SyncSystem.step (.init rinfo master now uninit) evs = some s)
    (hque : s.rep.que = []) (hmain : s.rep.main_que = []) (hst : s.stream = []) :
    s.slave.db = s.master.db ∧ ∀ now k, s.slave.get now k = s.master.get now k := by
  obtain ⟨a', c', hinv⟩ := Transition.inv_run_of_step (I := fun s => ∃ a c, SyncInv s a c)
    (fun _ _ _ ⟨_, _, h⟩ hs => h.step hs) ⟨a, _, SyncInv.init hfull hm hp hkey now uninit⟩ hrun
  have heq := hinv.eq_of_drained (by simp [pending, hque, hmain]) hst
  refine ⟨hinv.master.db_eq (heq ▸ hinv.slave), fun now k => ?_⟩
  rw [hinv.slave.get, hinv.master.get, heq]

/-- One key is synchronised, deleted while the acknowledgement is awaited, asked for again, and its
deletion synchronised as well. -/
def deletedKey : List SyncSystem.Ev :=
  [.start 1700000001 .data, .apply 1700000001, .del 1700000002 (lit "k"),
    .start 1700000003 .data, .start 1700000003 .ok, .apply 1700000003, .apply 1700000004,
    .start 1700000005 .ok]

theorem slave_converges_deletedKey :
    ∃ s, Transition.run SyncSystem.step
        (.init (RepInfo.init [] []) (GentDb.empty.put true true 1700000000 (lit "k") (lit "v") 0 1).1
          1700000000 false) deletedKey = some s ∧
      s.slave.db = s.master.db ∧ ∀ now k, s.slave.get now k = s.master.get now k := by
  have hend : (Transition.run SyncSystem.step
      (.init (RepInfo.init [] []) (GentDb.empty.put true true 1700000000 (lit "k") (lit "v") 0 1).1
        1700000000 false) deletedKey).map (fun s => (s.rep.que, s.rep.main_que, s.stream))
      = some ([], [], []) := by decide
  obtain ⟨s, hrun, hs⟩ := Option.map_eq_some_iff.mp hend
  simp only [Prod.mk.injEq] at hs
  have hm := Refines.empty.put (d := 1) (by decide) (Or.inl rfl) 1700000000 (lit "k") (lit "v")
  have hp : Permanent (ExpMap.empty.bind (lit "k") (lit "v") 0) :=
    Permanent.bind (by simp [Permanent, ExpMap.empty]) _ _
  exact ⟨s, hrun, slave_converges (Or.inl rfl) hm hp rfl 1700000000 false deletedKey hrun hs.1
    hs.2.1 hs.2.2⟩

end Riser
