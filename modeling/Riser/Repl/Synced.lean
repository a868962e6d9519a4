import Riser.Redis.Operations
import Riser.Repl.Dialogue

/-!
# Both ends of a replication, down to the bytes

`Converge` is about the decoded commands of a replication, and `Dialogue` about the texts that master and
slave exchange.  Here the two are put together, one end at a time, and with the clients of the master.

* A client's request arrives as bytes, and the handler of its connection carries it out and queues the keys
  (`DataOp.Plain.react_eq`, `Synced.write`).
* The master hears a word of the slave, and registers it if need be (`react_word`, `Unknown.get`).
* `MasterHandle` prints a batch (`Synced.handle`).
* The handler of the slave's connection takes the batch apart, acts on it and acknowledges it
  (`Synced.receive`).

`Synced` is what all of them keep: the invariant `SyncInv` of the convergence proof, for the replication
that the master has under the name of the slave.  The clients use no expiry, and only keys for which the
buffers of the encoder have room (`Portable`).
-/

namespace Riser

open Cpp GentReplication

/-! ## Keys that fit -/

/-- The encoder has room for the key, next to the length of a value of less than 2^29 bytes. -/
def Portable (key : Str) : Prop := Clean key ∧ 0 ∉ key ∧ key.length ≤ 80

instance (key : Str) : Decidable (Portable key) := inferInstanceAs (Decidable (_ ∧ _ ∧ _))

/-- All that the map holds can be sent. -/
def Sendable (a : ExpMap Str Str) : Prop :=
  ∀ k v e, a k = some (v, e) → Portable k ∧ v.length < 2 ^ 29

section Portable

variable {key value : Str}

lemma Portable.pairFits (h : Portable key) (hvalue : value.length < 2 ^ 29) : PairFits key value := by
  obtain ⟨-, hzero, hlen⟩ := h
  have hdigits : (decimal key.length).length ≤ 2 := (decimal_length_le_iff (by decide)).mpr (by omega)
  have hvdigits : (decimal value.length).length ≤ 9 := (decimal_length_le_iff (by decide)).mpr (by omega)
  refine ⟨hzero, ?_⟩
  simp only [pairLines, List.flatMap_cons, List.flatMap_nil, List.length_append, length_lengthLine,
    List.length_nil]
  show _ + 2 + (_ + 2 + (_ + 2 + 0)) ≤ 99
  omega

lemma Portable.legible_del {it : ItemData} (h : Portable it.name) : (Batch.del it).Legible := by
  obtain ⟨hclean, hzero, hlen⟩ := h
  have hdigits : (decimal it.name.length).length ≤ 2 :=
    (decimal_length_le_iff (by decide)).mpr (by omega)
  have hfit : ((delLines it.name it.name).flatMap (· ++ crlf)).length ≤ 300 := by
    simp only [delLines, List.flatMap_cons, List.flatMap_nil, List.length_append, length_lengthLine,
      List.length_nil]
    show 2 + 2 + (2 + 2 + (3 + 2 + (_ + 2 + (_ + 2 + 0)))) ≤ 300
    omega
  refine ⟨?_, hclean, hzero, hfit⟩
  have hprinted : (snprintf 300 (lit "*2\r\n$3\r\ndel\r\n$" ++ decimal it.name.length ++ lit "\r\n"
      ++ cstr it.name ++ lit "\r\n")).length ≤ 299 := List.length_take_le _ _
  exact lt_of_le_of_lt hprinted (by decide)

lemma legible_mset {items : List (ItemData × Str)} (hnum : items.length ≤ syncNum)
    (hitems : ∀ p ∈ items, Portable p.1.name ∧ p.2.length < 2 ^ 29) : (Batch.mset items).Legible := by
  refine ⟨?_, fun p hp => (hitems p hp).1.pairFits (hitems p hp).2⟩
  have hitem : ∀ p ∈ items, (replyItem p.1.name p.2).length ≤ 2 ^ 29 + 100 := by
    intro p hp
    have hprinted : (snprintf 100 (lit "$" ++ decimal p.1.name.length ++ lit "\r\n" ++ cstr p.1.name
        ++ lit "\r\n$" ++ decimal p.2.length ++ lit "\r\n")).length ≤ 99 := List.length_take_le _ _
    have hvalue := (hitems p hp).2
    rw [replyItem, List.length_append, List.length_append]
    show _ + 2 ≤ _
    omega
  have hpairs : (items.flatMap fun p => replyItem p.1.name p.2).length
      ≤ items.length * (2 ^ 29 + 100) := by
    rw [List.length_flatMap]
    refine (List.sum_le_card_nsmul _ (2 ^ 29 + 100) ?_).trans (by rw [List.length_map, smul_eq_mul])
    intro n hn
    obtain ⟨p, hp, rfl⟩ := List.mem_map.mp hn
    exact hitem p hp
  have hhead : ∀ text : Str, (snprintf 30 text).length ≤ 29 := fun _ => List.length_take_le _ _
  rw [Batch.outstr, msetReply, List.length_append]
  have := hhead (lit "*" ++ decimal (items.length * 2 + 1) ++ lit "\r\n$4\r\nmset\r\n")
  simp only [syncNum] at hnum
  have hsize : items.length * (2 ^ 29 + 100) ≤ 2 * (2 ^ 29 + 100) := Nat.mul_le_mul_right _ hnum
  omega

end Portable

/-! ## The replication of a name -/

/-- What `SyncInv` says does not depend on the slot. -/
lemma SyncInv.setInfo {db slave : GentDb} {rep : GentReplication} {bs : List Batch}
    {a c : ExpMap Str Str} {n : ℕ} (h : SyncInv ⟨db, rep, n, bs, slave⟩ a c) (rinfo : RepInfo) :
    SyncInv ⟨db, { rep with rinfo }, n, bs, slave⟩ a c :=
  ⟨h.master, h.slave, h.permanent, h.permanent', h.plain,
    ⟨h.queues.drained, h.queues.waiting, h.queues.front, h.queues.length⟩, h.running, h.unnamed, h.named,
    h.settled, h.alone, h.agree⟩

/-- Nor does it depend on the connection. -/
lemma SyncInv.setConn {db slave : GentDb} {rep : GentReplication} {bs : List Batch}
    {a c : ExpMap Str Str} {n : ℕ} (h : SyncInv ⟨db, rep, n, bs, slave⟩ a c) (conn : Bool) :
    SyncInv ⟨db, { rep with conn }, n, bs, slave⟩ a c :=
  ⟨h.master, h.slave, h.permanent, h.permanent', h.plain, h.queues.setConn conn, h.running, h.unnamed,
    h.named, h.settled, h.alone, h.agree⟩

/-- **The master replicates to the name**: the batches `bs` are under way to a store that stands for `c`,
and its own stands for `a`.  An acknowledgement that is awaited will remove something. -/
structure Synced (name : Str) (sv : Server) (a : ExpMap Str Str) (bs : List Batch) (slave : GentDb)
    (c : ExpMap Str Str) (e : Registered) : Prop where
  registered : sv.master.Registers name e
  inv : SyncInv ⟨sv.db, e.rep, 0, bs, slave⟩ a c
  portable : ∀ it ∈ e.rep.pending, Portable it.name
  flagged : e.rep.status = 1 → ∃ it ∈ e.rep.pending, it.is_sync = true

/-! ### Writes -/

section Writes

variable {a a' : ExpMap Str Str} {type : OptType} {keys : List Str}

/-- The entries of a write. -/
def newEntries (id : ℕ) (type : OptType) (keys : List (Str × ℕ)) : List ItemData :=
  keys.map fun k => ⟨id + k.2, k.1, type, false⟩

lemma Settled.append (hother : ∀ k ∉ keys, a' k = a k) (hdel : type = .DEL → ∀ k ∈ keys, a' k = none)
    {id : ℕ} {new : List (Str × ℕ)} (hnew : new.map Prod.fst = keys) :
    ∀ {q : List ItemData}, Settled a q → Settled a' (q ++ newEntries id type new)
  | [], _ => by
      have hmem : ∀ it ∈ newEntries id type new, it.type = type ∧ it.name ∈ keys := by
        intro it hit
        obtain ⟨k, hk, rfl⟩ := List.mem_map.mp hit
        exact ⟨rfl, hnew ▸ List.mem_map_of_mem hk⟩
      rw [List.nil_append]
      generalize newEntries id type new = q at hmem
      induction q with
      | nil => trivial
      | cons it q ih =>
          refine ⟨fun htype => Or.inr ?_, ih fun x hx => hmem x (List.mem_cons_of_mem _ hx)⟩
          obtain ⟨htype', hkey⟩ := hmem it List.mem_cons_self
          exact hdel (htype'.symm.trans htype) _ hkey
  | it :: q, h => by
      rw [List.cons_append]
      refine ⟨fun hd => ?_, Settled.append hother hdel hnew h.2⟩
      have hnames : (newEntries id type new).map (·.name) = keys := by
        rw [← hnew, newEntries, List.map_map]
        rfl
      rw [List.map_append, List.mem_append, hnames]
      by_cases hkey : it.name ∈ keys
      · exact Or.inl (Or.inr hkey)
      · rw [hother _ hkey]
        exact (h.1 hd).imp_left Or.inl

lemma Alone.append {q : List ItemData} (h : Alone q) (id : ℕ) (type : OptType) (new : List (Str × ℕ)) :
    Alone (q ++ newEntries id type new) := by
  induction new generalizing q with
  | nil => simpa [newEntries] using h
  | cons k new ih =>
      rw [newEntries, List.map_cons, List.append_cons]
      exact ih (h.snoc rfl)

/-- **What a write leaves in the queue of the name.** -/
lemma GentRepMgr.pushes {name : Str} {now id : ℕ} (l : List (Str × ℕ)) {m : GentRepMgr} {e : Registered}
    (hreg : m.Registers name e) (hrun : e.rep.is_run = true) (hq : e.rep.QueueInv) :
    ∃ e', (l.foldl (fun m k => (m.push now (id + k.2) type k.1).1) m).Registers name e' ∧
      e'.rep.pending = e.rep.pending ++ newEntries id type l ∧ e'.rep.QueueInv ∧
      e'.rep.is_run = true ∧ e'.rep.status = e.rep.status := by
  induction l generalizing m e with
  | nil => exact ⟨e, hreg, by simp [newEntries], hq, hrun, rfl⟩
  | cons k l ih =>
      have hreg₁ : (m.push now (id + k.2) type k.1).1.Registers name
          ⟨e.slot, ((m.load e).push now (id + k.2) type k.1).1⟩ := registers_push.mpr ⟨e, hreg, rfl⟩
      have hload : (m.load e).QueueInv := ⟨hq.drained, hq.waiting, hq.front, hq.length⟩
      have hrun₁ : (m.load e).is_run = true := hrun
      obtain ⟨e', hreg', hpend, hq', hrun', hstatus⟩ := ih hreg₁
        ((is_run_push _ now (id + k.2) type k.1).trans hrun) (hload.push now (id + k.2) type k.1)
      refine ⟨e', hreg', ?_, hq', hrun', hstatus.trans ?_⟩
      · rw [hpend, push_pending hrun₁, newEntries, newEntries, List.map_cons, List.append_assoc]
        rfl
      · rw [GentReplication.push, hrun₁]
        rfl

/-- **A write that is queued**: it makes `a'` of the map `a`, and the keys that may have changed are
queued, as deletions only if they are gone. -/
def Server.Wrote (w : World) (sv sv' : Server) (a a' : ExpMap Str Str) : Prop :=
  ∃ type keys, sv' = { sv with db := sv'.db }.push w type keys ∧ (∀ k ∉ keys, a' k = a k) ∧
    (type = .DEL → ∀ k ∈ keys, a' k = none) ∧ ∀ k ∈ keys, Portable k

/-- **It keeps master and slave together.** -/
lemma Synced.write {name : Str} {sv sv' : Server} {bs : List Batch} {slave : GentDb} {c : ExpMap Str Str}
    {e : Registered} (h : Synced name sv a bs slave c e) {w : World} (hdb : Refines sv'.db a')
    (hperm : Permanent a') (hwrote : sv.Wrote w sv' a a') :
    ∃ e', Synced name sv' a' bs slave c e' ∧ ∃ new : List ItemData,
      e'.rep.pending = e.rep.pending ++ new ∧ ∀ k ∉ new.map (·.name), a' k = a k := by
  obtain ⟨type, keys, hsv, hother, hdel, hkeys⟩ := hwrote
  obtain ⟨e', hreg, hpend, hq, hrun, hstatus⟩ : ∃ e', (keys.zipIdx.foldl
      (fun m k => (m.push w.now (w.id + k.2) type k.1).1) sv.master).Registers name e' ∧ _ :=
    GentRepMgr.pushes keys.zipIdx h.registered h.inv.running h.inv.queues
  have hfst : keys.zipIdx.map Prod.fst = keys := List.zipIdx_map_fst 0 keys
  have hnew : ∀ it ∈ newEntries w.id type keys.zipIdx, it.name ∈ keys ∧ it.is_sync = false := by
    intro it hit
    obtain ⟨k, hk, rfl⟩ := List.mem_map.mp hit
    exact ⟨hfst ▸ List.mem_map_of_mem hk, rfl⟩
  have hnamed : ∀ k ∈ keys, k ≠ [] := fun k hk => (hkeys k hk).1.1
  refine ⟨e', ⟨by rw [hsv]; exact hreg,
    ⟨hdb, h.inv.slave, hperm, h.inv.permanent', h.inv.plain, hq, hrun, ?_, ?_, ?_, ?_, ?_⟩, ?_, ?_⟩,
    _, hpend, ?_⟩
  · rw [hother [] fun hmem => hnamed [] hmem rfl]
    exact h.inv.unnamed
  · intro it hit
    rcases List.mem_append.mp (hpend ▸ hit) with hit | hit
    · exact h.inv.named it hit
    · exact hnamed _ (hnew it hit).1
  · show Settled a' e'.rep.pending
    rw [hpend]
    exact Settled.append hother hdel hfst h.inv.settled
  · show Alone e'.rep.pending
    rw [hpend]
    exact Alone.append h.inv.alone _ _ _
  · intro k
    show Waiting e'.rep.pending k ∨ _
    rw [hpend]
    by_cases hk : k ∈ keys
    · obtain ⟨p, hp, rfl⟩ := List.mem_map.mp (hfst.symm ▸ hk : k ∈ keys.zipIdx.map Prod.fst)
      exact Or.inl ⟨_, List.mem_append_right _ (List.mem_map_of_mem hp), rfl, rfl⟩
    · rw [hother k hk]
      refine (h.inv.agree k).imp_left ?_
      rintro ⟨it, hit, hname⟩
      exact ⟨it, List.mem_append_left _ hit, hname⟩
  · intro it hit
    rcases List.mem_append.mp (hpend ▸ hit) with hit | hit
    · exact h.portable it hit
    · exact hkeys _ (hnew it hit).1
  · intro hst
    obtain ⟨it, hit, hsync⟩ := h.flagged (hstatus ▸ hst)
    exact ⟨it, hpend ▸ List.mem_append_left _ hit, hsync⟩
  · have hnames : (newEntries w.id type keys.zipIdx).map (·.name) = keys := by
      rw [newEntries, List.map_map]
      exact hfst
    intro k hk
    exact hother k (hnames ▸ hk)

end Writes

/-! ### Requests of clients -/

/-- **What a read leads to** if its bytes are a command that has something to say. -/
lemma Session.react_eq {cfg : Config} {is_slave : Bool} {w : World} {sv sv' : Server} {r r' r'' : GentRedis}
    {data out : Str} (hproc : process cfg w.now r data = .ok (0, [], r'))
    (hst : r'.curstatus = .CONN_DATA ∨ r'.curstatus = .CONN_NREAD)
    (hcomplete : complete is_slave w sv { r' with curstatus := .CONN_DATA } [] = .ok (out, r'', sv'))
    (hout : out ≠ [] ∨ r''.curstatus = .CONN_WAIT) :
    react cfg is_slave w sv r data = some ⟨out, { r'' with curstatus := .CONN_READ }, sv',
      (GentProcessRep.attaches w sv { r' with curstatus := .CONN_DATA }).toList⟩ := by
  have hbusy : ¬ (r'.curstatus = .CONN_READ ∨ r'.curstatus = .CONN_WAIT) := by
    rcases hst with h | h <;> rw [h] <;> decide
  simp only [react, hproc, and_true, hcomplete]
  rw [if_neg (not_not.mpr rfl), if_neg hbusy, if_pos hst, if_pos hout]

section Sendable

variable {a : ExpMap Str Str}

lemma Sendable.bind (h : Sendable a) {key value : Str} (hkey : Portable key)
    (hvalue : value.length < 2 ^ 29) (expire : ℕ) : Sendable (a.bind key value expire) := by
  intro k v e hk
  by_cases heq : k = key
  · subst heq
    rw [ExpMap.bind, Function.update_self] at hk
    cases hk
    exact ⟨hkey, hvalue⟩
  · rw [ExpMap.bind, Function.update_of_ne heq] at hk
    exact h k v e hk

lemma Sendable.unbind (h : Sendable a) (key : Str) : Sendable (a.unbind key) := by
  intro k v e hk
  by_cases heq : k = key
  · subst heq
    rw [ExpMap.unbind, Function.update_self] at hk
    cases hk
  · rw [ExpMap.unbind, Function.update_of_ne heq] at hk
    exact h k v e hk

lemma Sendable.bindList (h : Sendable a) {pairs : List (Str × Str)}
    (hpairs : ∀ kv ∈ pairs, Portable kv.1 ∧ kv.2.length < 2 ^ 29) : Sendable (a.bindList pairs) := by
  induction pairs generalizing a with
  | nil => exact h
  | cons kv pairs ih =>
      obtain ⟨hkey, hvalue⟩ := hpairs kv List.mem_cons_self
      exact ih (h.bind hkey hvalue 0) fun x hx => hpairs x (List.mem_cons_of_mem kv hx)

lemma Sendable.printable (h : Sendable a) (hp : Permanent a) : a.All Printable := by
  intro k v e hk
  obtain rfl := hp k v e hk
  exact ⟨(h k v 0 hk).2.trans (by decide), by decide⟩

end Sendable

namespace DataOp

/-- The request has no expiry, and what it stores can be sent. -/
def Plain : DataOp → Prop
  | set key value => Portable key ∧ value.length < 2 ^ 29
  | setex _ _ _ => False
  | mset pairs => ∀ kv ∈ pairs, Portable kv.1 ∧ kv.2.length < 2 ^ 29
  | _ => True

instance : DecidablePred Plain
  | set _ _ => inferInstanceAs (Decidable (_ ∧ _))
  | setex _ _ _ => inferInstanceAs (Decidable False)
  | mset pairs => inferInstanceAs (Decidable (∀ kv ∈ pairs, _ ∧ _))
  | get _ | ttl _ | del _ | keyExists _ | mget _ => inferInstanceAs (Decidable True)

variable {a : ExpMap Str Str} {o : DataOp}

/-- What such a request makes of a map. -/
lemma Plain.spec (ho : o.Plain) (hp : Permanent a) (hs : Sendable a) (t : Times) :
    Permanent (o.spec a t).2 ∧ Sendable (o.spec a t).2 := by
  cases o with
  | set key value => exact ⟨hp.bind key value, hs.bind ho.1 ho.2 0⟩
  | setex key seconds value => exact absurd ho id
  | mset pairs => exact ⟨hp.bindList pairs, hs.bindList ho⟩
  | del key =>
      simp only [DataOp.spec]
      split_ifs
      · exact ⟨hp.unbind key, hs.unbind key⟩
      · exact ⟨hp, hs⟩
  | _ => exact ⟨hp, hs⟩

/-- **A request of a client queues what it changes**, and nothing else. -/
lemma Plain.complete_wrote (ho : o.Plain) {cfg : Config} {w : World} {latest read : ℕ} {sv sv' : Server}
    {r r' : GentRedis} {out : Str} (hs : Refines sv.db a) (hsend : Sendable a) (hw : w.Fair latest)
    (hheld : Held cfg read o r) (h : complete false w sv r [] = .ok (out, r', sv')) :
    sv.Wrote w sv' a (o.spec a ⟨read, w.now⟩).2 := by
  rw [complete_eq hheld.subc] at h
  have hquery : sv' = sv → sv.Wrote w sv' a a := by
    rintro rfl
    exact ⟨.ADD, [], rfl, fun _ _ => rfl, by simp, by simp⟩
  cases o with
  | get key =>
      obtain ⟨nr, -, h⟩ := bind_eq_ok.mp h
      cases nr <;> cases h <;> exact hquery rfl
  | ttl key =>
      obtain ⟨res, -, h⟩ := bind_eq_ok.mp h
      cases h
      exact hquery rfl
  | keyExists key =>
      obtain ⟨nr, -, h⟩ := bind_eq_ok.mp h
      cases nr <;> cases h <;> exact hquery rfl
  | mget keys =>
      obtain ⟨items, -, h⟩ := bind_eq_ok.mp h
      cases h
      exact hquery rfl
  | del key =>
      have hkey : r.keystr = key := hheld.fields
      have h : GentProcessDel.complete false w sv r = .ok (out, r', sv') := h
      rw [GentProcessDel.complete, hkey, hs.get, ok_bind, hw.okDb, hw.okMeta] at h
      cases hv : a.visible w.now key with
      | none =>
          simp only [hv] at h
          cases h
          simp only [DataOp.spec, hv, Option.isSome_none, Bool.false_eq_true, if_false]
          exact hquery rfl
      | some v =>
          simp only [hv] at h
          cases h
          simp only [DataOp.spec, hv, Option.isSome_some, if_true]
          refine ⟨.DEL, [key], rfl, fun k hk => ?_, fun _ k hk => ?_, fun k hk => ?_⟩
          · exact Function.update_of_ne (List.mem_singleton.not.mp hk) ..
          · rw [List.mem_singleton.mp hk]
            exact Function.update_self ..
          · rw [List.mem_singleton.mp hk]
            obtain ⟨⟨v', e⟩, hfilter, rfl⟩ := Option.map_eq_some_iff.mp hv
            exact (hsend key v' e (Option.filter_eq_some_iff.mp hfilter).1).1
  | set key value =>
      have hkey : r.keystr = key := hheld.fields.1
      have h : valueComplete false w sv 0 r [] = .ok (out, r', sv') := h
      rw [valueComplete, hkey, hw.okDb, hw.okMeta] at h
      cases h
      refine ⟨.ADD, [key], rfl, fun k hk => ?_, by simp, fun k hk => ?_⟩
      · exact Function.update_of_ne (List.mem_singleton.not.mp hk) ..
      · rw [List.mem_singleton.mp hk]
        exact ho.1
  | setex key seconds value => exact absurd ho id
  | mset pairs =>
      have hvalues : r.mdata.keys_values = pairs.foldl (fun d kv => d.insert kv.1 kv.2) ∅ := hheld.fields
      have h : GentProcessMset.complete false w sv r = .ok (out, r', sv') := h
      rw [GentProcessMset.complete, hw.okDb, hw.okMeta] at h
      cases h
      have hmem : ∀ k, k ∈ r.mdata.keys_values.keys ↔ k ∈ pairs.map Prod.fst := by
        intro k
        rw [Std.ExtTreeMap.mem_keys, hvalues, Inserts.mem_foldl_insert Prod.snd]
        simp
      refine ⟨.ADD, r.mdata.keys_values.keys, rfl, fun k hk => ?_, by simp, fun k hk => ?_⟩
      · exact ExpMap.bindList_of_notMem ((hmem k).not.mp hk) a
      · obtain ⟨kv, hkv, rfl⟩ := List.mem_map.mp ((hmem k).mp hk)
        exact (ho kv hkv).1

/-- **A client's request, from its bytes to the queues.** -/
lemma Plain.react_eq (ho : o.Plain) {cfg : Config} {w : World} {latest : ℕ} {sv : Server}
    {comm : GentRedis} {name : Str} (hs : Refines sv.db a) (hp : Permanent a) (hsend : Sendable a)
    (hw : w.Fair latest) (hwf : o.WellFormed latest name) (hcomm : comm.Rested cfg) :
    ∃ x, Session.react cfg false w sv comm (o.bytes name) = some x ∧
      Refines x.server.db (o.spec a ⟨w.now, w.now⟩).2 ∧
      sv.Wrote w x.server a (o.spec a ⟨w.now, w.now⟩).2 := by
  obtain ⟨r', hproc, hheld, hst⟩ := process_bytes hcomm hwf hw.early
  have hheld := hheld.setStatus .CONN_DATA
  obtain ⟨r'', sv', hcomplete, hdb, -, -⟩ := complete_spec hs (hsend.printable hp) hw hwf
    ⟨hw.clock, hw.early⟩ hheld
  exact ⟨_, Session.react_eq hproc hst hcomplete (Or.inl (encode_ne_nil _)), hdb,
    ho.complete_wrote hs hsend hw hheld hcomplete⟩

end DataOp

/-! ### Batches on the slave -/

/-- **The slave carries out a batch and acknowledges it**, from the bytes to the store. -/
lemma react_batch {cfg : Config} {w : World} {latest : ℕ} {sv : Server} {c : ExpMap Str Str} {r : GentRedis}
    {b : Batch} (hs : Refines sv.db c) (hw : w.Fair latest) (hr : Listens r) (hplain : b.isPlain = true)
    (hlegible : b.Legible) (hnum : b.items.length ≤ syncNum) :
    ∃ x, Session.react cfg true w sv r b.outstr = some x ∧ x.out = slaveReply sv.server_id true ∧
      sv.db.applyBatch w.now b = .ok x.server.db := by
  have hne : slaveReply sv.server_id true ≠ [] := snprintf_ne_nil (by decide) (List.cons_ne_nil _ _)
  obtain ⟨hlen, hfits⟩ := hlegible
  cases b with
  | text t => cases hplain
  | add it nr expire => cases hplain
  | del it =>
      obtain ⟨hclean, hzero, hfit⟩ := hfits
      have hkeylen : it.name.length < 2 ^ 31 := by
        simp only [delLines, List.flatMap_cons, List.length_append] at hfit
        omega
      obtain ⟨r', hproc, hsub, hkey, hst⟩ : ∃ r', process cfg w.now r _ = .ok (0, [], r') ∧ _ :=
        (del_iff w.now (Or.inl hr.auth) hkeylen).mpr ⟨hclean, hzero, hfit⟩
      have hcomplete : complete true w sv { r' with curstatus := .CONN_DATA } []
          = GentProcessDel.complete true w sv { r' with curstatus := .CONN_DATA } :=
        complete_eq (r := { r' with curstatus := .CONN_DATA }) hsub
      have hget : sv.db.get w.now r'.keystr = .ok (c.visible w.now it.name) := by rw [hkey, hs.get]
      rw [GentProcessDel.complete, hget, ok_bind, hw.okDb, hw.okMeta] at hcomplete
      cases hv : c.visible w.now it.name with
      | none =>
          rw [hv] at hcomplete
          refine ⟨_, Session.react_eq hproc (Or.inl hst) hcomplete (Or.inl hne), rfl, ?_⟩
          rw [GentDb.applyBatch, hs.get, hv]
          rfl
      | some v =>
          rw [hv] at hcomplete
          refine ⟨_, Session.react_eq hproc (Or.inl hst) hcomplete (Or.inl hne), rfl, ?_⟩
          rw [GentDb.applyBatch, hs.get, hv, ← hkey]
          rfl
  | mset items =>
      rw [Batch.items, List.length_map] at hnum
      obtain ⟨r', hproc, hsub, hvalues⟩ : (Batch.mset items).Acts cfg w.now r :=
        mset_acts_of_fits (Or.inl hr.auth) hr.idle hr.none hnum hlen hfits
      have hst : r'.curstatus = .CONN_NREAD := by
        obtain ⟨v, htok⟩ := Request.tokens_mset (show commands (lit "mset") = some .mset from rfl)
          items.length (items.flatMap fun p => replyItem p.1.name p.2)
        have hthird : (tokens (Batch.mset items).outstr)[2]? = some (lit "mset") := by
          rw [show (Batch.mset items).outstr = _ from msetReply_eq _ hnum, htok]
          rfl
        obtain ⟨r₁, hr₁, rfl⟩ := (process_done_iff hthird rfl (· = r')).mp ⟨r', hproc, rfl⟩
        exact Request.mset_parser_status hr₁
      have hcomplete : complete true w sv { r' with curstatus := .CONN_DATA } []
          = GentProcessMset.complete true w sv { r' with curstatus := .CONN_DATA } :=
        complete_eq (r := { r' with curstatus := .CONN_DATA }) hsub
      rw [GentProcessMset.complete, hw.okDb, hw.okMeta] at hcomplete
      refine ⟨_, Session.react_eq hproc (Or.inr hst) hcomplete (Or.inl hne), rfl, ?_⟩
      rw [GentDb.applyBatch, keysValues, ← hvalues]
      rfl

/-! ### Words of the slave -/

section Words

variable {id : ServerId} {word : Word}

/-- The message with which a slave says the word: it asks for entries, or acknowledges a batch. -/
def wordText (id : ServerId) : Word → Str
  | .data => slaveData id.text
  | .ok => slaveReply id.text true

lemma wordText_eq (id : ServerId) (word : Word) :
    wordText id word = (repLines (lit "*3") id word.text).flatMap (· ++ crlf) := by
  have hhead : lit "*3\r\n$3\r\nrep\r\n$"
      = lit "*3" ++ crlf ++ lit "$3" ++ crlf ++ lit "rep" ++ crlf ++ lit "$" := rfl
  have hdata : lit "\r\n$4\r\ndata\r\n"
      = crlf ++ lengthLine (lit "data") ++ crlf ++ lit "data" ++ crlf := rfl
  have hsep : lit "\r\n$" = crlf ++ lit "$" := rfl
  have hword : (word.text).length ≤ 5 := by cases word <;> decide
  have hlen := length_repLines id (lit "*3") word.text (by decide) hword
  have htext : wordText id word
      = snprintf 300 ((repLines (lit "*3") id word.text).flatMap (· ++ crlf)) := by
    cases word with
    | data =>
        simp [wordText, slaveData, cstr_eq_self id.zero, repLines, hhead, hdata, Word.text]
        simp [lengthLine]
    | ok => simp [wordText, slaveReply, cstr_eq_self id.zero, repLines, lengthLine, hhead, hsep, Word.text]
  rw [htext, snprintf, List.take_of_length_le (hlen.trans (by decide))]

/-- The handler of the master, once it has heard the word. -/
def GentRedis.heard (r : GentRedis) (id : ServerId) (word : Word) (st : Status) : GentRedis :=
  { r with
    subc := some .rep
    repmsg := word.text
    master_auth := true
    keystr := id.text
    curstatus := st }

lemma process_word {cfg : Config} (hopen : cfg.master_auth = []) (now : ℕ) (r : GentRedis)
    (id : ServerId) (word : Word) :
    process cfg now r (wordText id word) = .ok (0, [], r.heard id word .CONN_DATA) := by
  have hclean : ∀ l ∈ [lengthLine id.text, id.text, lengthLine word.text, word.text], Clean l := by
    have hword : Clean word.text := by cases word <;> decide
    simp only [List.mem_cons, List.not_mem_nil, or_false]
    rintro l (rfl | rfl | rfl | rfl)
    · exact clean_lengthLine _
    · exact id.clean
    · exact clean_lengthLine _
    · exact hword
  have htok : tokens (wordText id word) = repLines (lit "*3") id word.text := by
    obtain ⟨v, hv, hfields⟩ := tokens_head (show Clean (lit "*3") by decide)
      (show Clean (lit "$3") by decide) (show Clean (lit "rep") by decide)
      ([lengthLine id.text, id.text, lengthLine word.text, word.text].flatMap (· ++ crlf) ++ [])
    have hsplit : wordText id word = [lit "*3", lit "$3", lit "rep"].flatMap (· ++ crlf)
        ++ ([lengthLine id.text, id.text, lengthLine word.text, word.text].flatMap (· ++ crlf) ++ []) := by
      rw [wordText_eq]
      simp [repLines]
    have hnil : fields [] = [] := fields_of_clean (by simp)
    rw [hsplit, hv, hfields (by decide), fields_lines [] hclean, hnil]
    rfl
  have hv : ∀ t ∈ tokens (wordText id word), Clean t := fun t ht => clean_of_mem_tokens ht
  have hkey : argOf (tokens (wordText id word)) 3 = id.text := by
    have := id.short
    exact argOf_eq (by omega) (by rw [htok]; rfl) (Or.inr (by rw [htok]; rfl))
  have hthird : (tokens (wordText id word))[2]? = some (lit "rep") := by rw [htok]; rfl
  have hseven : (tokens (wordText id word))[6]? = some word.text := by rw [htok]; rfl
  have hnum : (tokens (wordText id word)).length = 7 := by rw [htok]; rfl
  have hauth : ∀ r : GentRedis, repAuth cfg (tokens (wordText id word)) word.text r
      = .ok { r with master_auth := true } := by
    intro r
    unfold repAuth
    by_cases h : r.master_auth = true
    · rw [if_pos h]
      cases r
      cases h
      rfl
    · rw [if_neg h, if_pos hopen]
  obtain ⟨r', hproc, rfl⟩ := (process_done_iff hthird (show commands (lit "rep") = some .rep from rfl)
      (· = r.heard id word .CONN_DATA)).mpr ⟨_, by
    simp only [Command.parser, GentProcessRep.parser]
    rw [if_neg (by omega), elemAt_of_eq_some hseven, ok_bind, hauth, ok_bind, tokenArg_eq hv (by omega),
      ok_bind, hkey]
    rfl, rfl⟩
  exact hproc

end Words

/-! ### The master's end -/

section Master

variable {id : ServerId} {word : Word} {cfg : Config} {w : World} {sv : Server} {r : GentRedis}
  {a c : ExpMap Str Str} {slave : GentDb} {bs : List Batch} {e : Registered}

/-- **The master hears a word.**  The slave is registered, and the master thread will be told. -/
lemma react_word (hopen : cfg.master_auth = []) (hsent : w.sent = true) {m : GentRepMgr}
    (hget : sv.master.get ⟨sv.db, w.now, w.uninit, w.id⟩ w.junk id.text r.is_sync_all = (some e, m)) :
    Session.react cfg false w sv r (wordText id word) = some ⟨[], r.heard id word .CONN_READ,
      { sv with master := m.setConn id.text true }, [id.text]⟩ := by
  have hcomplete : complete false w sv (r.heard id word .CONN_DATA) []
      = .ok ([], r.heard id word .CONN_WAIT, { sv with master := m.setConn id.text true }) := by
    rw [complete_eq (r := r.heard id word .CONN_DATA) rfl]
    show GentProcessRep.complete w sv (r.heard id word .CONN_DATA) = _
    rw [GentProcessRep.complete, if_neg (by simp [GentRedis.heard])]
    have hfound : sv.master.get ⟨sv.db, w.now, w.uninit, w.id⟩ w.junk (r.heard id word .CONN_DATA).keystr
        (r.heard id word .CONN_DATA).is_sync_all = (some e, m) := hget
    rw [hfound, hsent]
    rfl
  have hattaches : GentProcessRep.attaches w sv (r.heard id word .CONN_DATA) = some id.text := by
    have hsome : (sv.master.get ⟨sv.db, w.now, w.uninit, w.id⟩ w.junk id.text r.is_sync_all).1.isSome := by
      rw [hget]
      rfl
    exact if_pos ⟨rfl, rfl, hsome⟩
  rw [Session.react_eq (process_word hopen w.now r id word) (Or.inl rfl) hcomplete (Or.inr rfl)]
  show some (⟨[], _, _, (GentProcessRep.attaches w sv (r.heard id word .CONN_DATA)).toList⟩ :
    Session.Reaction) = _
  rw [hattaches]
  rfl

lemma Synced.setConn (h : Synced id.text sv a bs slave c e) :
    Synced id.text { sv with master := sv.master.setConn id.text true } a bs slave c
      ⟨e.slot, { e.rep with conn := true }⟩ := by
  refine ⟨?_, h.inv.setConn true, h.portable, h.flagged⟩
  exact GentRepMgr.registers_setConn.mpr ⟨e, h.registered, (if_pos rfl).symm⟩

/-- What a new replication queues are keys of the master. -/
lemma mem_new {db : GentDb} (hm : Refines db a) (rinfo : RepInfo) (now : ℕ) (uninit : Bool) (next : ℕ) :
    ∀ it ∈ (GentReplication.new rinfo db now true uninit next).pending,
      (a it.name).isSome ∧ it.type = .ADD := by
  obtain ⟨-, -, hmain, -, hque⟩ := new_que rinfo db now true uninit next
  intro it hit
  rw [pending, hmain, List.append_nil] at hit
  rcases hque with ⟨-, hque⟩ | hque
  · rw [hque] at hit
    obtain ⟨i, hi, rfl⟩ := List.mem_mapIdx.mp hit
    exact ⟨(hm.keys_star.2 _).mp (List.getElem_mem hi), rfl⟩
  · rw [hque] at hit
    cases hit

/-- **A new replication queues all that the master has**, for a slave that has nothing. -/
lemma SyncInv.queued {rinfo : RepInfo} (hser : rinfo.ser_time = 0) {db : GentDb} (hm : Refines db a)
    (hp : Permanent a) (hkey : a [] = none) (hslave : Refines slave .empty) (now : ℕ) (uninit : Bool)
    (next : ℕ) : SyncInv ⟨db, .new rinfo db now true uninit next, 0, [], slave⟩ a .empty := by
  have hpend : (GentReplication.new rinfo db now true uninit next).pending
      = fullSync (db.keys (lit "*")) next := by
    simp [GentReplication.new, hser, pending]
  have hmem := mem_new hm rinfo now uninit next
  have hunsynced := new_unsynced rinfo db now true uninit next
  have hempty : Permanent .empty := fun _ _ _ hk => by cases hk
  refine ⟨hm, hslave, hp, hempty, by simp, QueueInv.new .., ?_, hkey, fun it hit hname => ?_, ?_,
    fun x y rest heq hsync => ?_, fun k => ?_⟩
  · exact (new_que rinfo db now true uninit next).1
  · have hsome := (hmem it hit).1
    rw [hname, hkey] at hsome
    cases hsome
  · show Settled a (GentReplication.new rinfo db now true uninit next).pending
    generalize (GentReplication.new rinfo db now true uninit next).pending = q at hmem
    induction q with
    | nil => trivial
    | cons it q ih =>
        refine ⟨fun hdel => ?_, ih fun x hx => hmem x (List.mem_cons_of_mem _ hx)⟩
        rw [(hmem it List.mem_cons_self).2] at hdel
        cases hdel
  · rw [hunsynced y (by rw [show GentReplication.pending _ = _ from heq]; simp)] at hsync
    cases hsync
  · cases hk : a k with
    | none => exact Or.inr rfl
    | some v =>
        obtain ⟨i, hi, rfl⟩ := List.mem_iff_getElem.mp ((hm.keys_star.2 k).mpr (by simp [hk]))
        refine Or.inl ⟨⟨next + i, (db.keys (lit "*"))[i], .ADD, false⟩, ?_, rfl, rfl⟩
        show _ ∈ (GentReplication.new rinfo db now true uninit next).pending
        rw [hpend]
        exact List.mem_mapIdx.mpr ⟨i, hi, rfl⟩

/-! ### Slots -/

/-- The number of free slots. -/
def GentRepMgr.free (m : GentRepMgr) : ℕ := (m.repfile.head_list.map (·.available)).count 0

lemma GentRepMgr.freeSlot_isSome_iff {m : GentRepMgr} : m.repfile.freeSlot.isSome ↔ 0 < m.free := by
  rw [free, List.count_pos_iff, GentFile.freeSlot, List.findIdx?_isSome, List.any_eq_true]
  simp only [List.mem_map, decide_eq_true_eq]

/-- A slot that stays in use, or unused. -/
lemma available_setSlot {f : GentFile} {i : ℕ} {info : RepInfo}
    (h : info.available = (f.slot i).available) :
    (f.setSlot i info).head_list.map (·.available) = f.head_list.map (·.available) := by
  refine List.ext_getElem? fun j => ?_
  rw [List.getElem?_map, List.getElem?_map, GentFile.setSlot, List.getElem?_set]
  split_ifs with hj hlt
  · subst hj
    simp [GentFile.slot, hlt, h]
  · subst hj
    rw [List.getElem?_eq_none (not_lt.mp hlt)]
  · rfl

/-- A write does not give away a slot. -/
lemma available_stamp (f : GentFile) (now : ℕ) (e : Registered) :
    (GentRepMgr.stamp f now e).head_list.map (·.available) = f.head_list.map (·.available) := by
  unfold GentRepMgr.stamp
  split_ifs
  · exact available_setSlot rfl
  · rfl

/-- What a write leaves of the tables. -/
lemma GentRepMgr.push_tables (m : GentRepMgr) (now n : ℕ) (type : OptType) (key : Str) :
    (m.push now n type key).1.free = m.free ∧
      ∀ name, (m.push now n type key).1.known name = m.known name := by
  have hfile : ∀ (l : List (Str × Registered)) (f : GentFile),
      (l.foldl (fun f it => GentRepMgr.stamp f now it.2) f).head_list.map (·.available)
          = f.head_list.map (·.available) ∧
        (l.foldl (fun f it => GentRepMgr.stamp f now it.2) f).rep_map_list = f.rep_map_list := by
    intro l
    induction l with
    | nil => exact fun f => ⟨rfl, rfl⟩
    | cons it l ih =>
        intro f
        rw [List.foldl_cons, (ih _).1, (ih _).2, available_stamp]
        refine ⟨rfl, ?_⟩
        unfold GentRepMgr.stamp
        split_ifs <;> rfl
  obtain ⟨havail, hnames⟩ := hfile m.rep_list.toList m.repfile
  refine ⟨congrArg (List.count 0) havail, fun name => ?_⟩
  show m.rep_map[name]?.or (GentFile.rep_map_list _)[name]? = _
  rw [show (m.push now n type key).1.repfile.rep_map_list = _ from hnames]
  rfl

/-- `Start` keeps the slot. -/
lemma start_available {rep rep' : GentReplication} {db : GentDb} {now : ℕ} {word : Word} {b : Batch}
    {ret : Bool} (h : rep.start db now word.text = .ok (rep', b, ret)) :
    rep'.rinfo.available = rep.rinfo.available := by
  have hack : ∀ r : GentReplication, (r.acknowledge now word.text).rinfo.available
      = r.rinfo.available := by
    intro r
    unfold acknowledge pop
    split_ifs
    · dsimp only
      split_ifs <;> rfl
    · rfl
    · rfl
    · rfl
  have hfront : ∀ {r r₁ : GentReplication} {o}, r.frontNumsElement now syncNum = (r₁, o) →
      r₁.rinfo.available = r.rinfo.available := by
    intro r r₁ o hf
    obtain rfl : (r.frontNumsElement now syncNum).1 = r₁ := congrArg Prod.fst hf
    unfold frontNumsElement
    split
    · rfl
    · split
      · rfl
      · dsimp only
        split_ifs <;> rfl
  cases start_cases word.text_cases h with
  | idle hf => exact (hfront hf).trans (hack _)
  | batch hf _ =>
      rw [setFront]
      split_ifs <;> exact (hfront hf).trans (hack _)

/-! ### One slave at a time -/

/-- **What the master does for one slave** leaves the others alone, and takes a slot only to register it. -/
structure Server.Attends (name : Str) (sv sv' : Server) : Prop where
  db : sv'.db = sv.db
  registered : ∀ n ≠ name, sv'.master.rep_list[n]? = sv.master.rep_list[n]?
  known : ∀ n ≠ name, sv'.master.known n = sv.master.known n
  free : sv'.master.rep_list[name]?.isSome = sv.master.rep_list[name]?.isSome ∧
      sv'.master.free = sv.master.free ∨
    sv.master.rep_list[name]? = none ∧ sv'.master.rep_list[name]?.isSome ∧
      sv.master.free ≤ sv'.master.free + 1

section Attends

variable {name : Str} {sv : Server}

lemma Server.Attends.refl (name : Str) (sv : Server) : sv.Attends name sv :=
  ⟨rfl, fun _ _ => rfl, fun _ _ => rfl, Or.inl ⟨rfl, rfl⟩⟩

/-- It is told that the slave is connected. -/
lemma Server.Attends.setConn {sv' : Server} (h : sv.Attends name sv') (conn : Bool) :
    sv.Attends name { sv' with master := sv'.master.setConn name conn } := by
  have hother : ∀ n ≠ name, (sv'.master.setConn name conn).rep_list[n]? = sv'.master.rep_list[n]? := by
    intro n hn
    have hne : compare name n ≠ .eq := fun heq => hn (Std.LawfulEqCmp.compare_eq_iff_eq.mp heq).symm
    simp [GentRepMgr.setConn, Std.ExtTreeMap.getElem?_modify, hne]
  have hsame : (sv'.master.setConn name conn).rep_list[name]?.isSome = sv'.master.rep_list[name]?.isSome := by
    simp [GentRepMgr.setConn, Std.ExtTreeMap.getElem?_modify_self]
  refine ⟨h.db, fun n hn => (hother n hn).trans (h.registered n hn), h.known, ?_⟩
  rw [hsame]
  exact h.free

/-- A slot is written for the slave. -/
lemma Server.Attends.store {i : ℕ} {rep : GentReplication} (hreg : sv.master.rep_list[name]?.isSome)
    (hrep : rep.rinfo.available = (sv.master.repfile.slot i).available) :
    sv.Attends name { sv with master := sv.master.store name i rep } := by
  have hself : (sv.master.store name i rep).rep_list[name]? = some ⟨i, rep⟩ :=
    Std.ExtTreeMap.getElem?_insert_self
  refine ⟨rfl, fun n hn => ?_, fun n hn => rfl, Or.inl ⟨?_, ?_⟩⟩
  · have hne : compare name n ≠ .eq := fun heq => hn (Std.LawfulEqCmp.compare_eq_iff_eq.mp heq).symm
    show (sv.master.rep_list.insert name _)[n]? = _
    rw [Std.ExtTreeMap.getElem?_insert, if_neg hne]
  · rw [hreg]
    show (sv.master.store name i rep).rep_list[name]?.isSome = true
    rw [hself]
    rfl
  · exact congrArg (List.count 0) (available_setSlot hrep)

/-- A free slot is given to a new slave. -/
lemma Server.Attends.create {i : ℕ} (hnone : sv.master.rep_list[name]? = none)
    (hi : sv.master.repfile.freeSlot = some i) (cr : Creation) (junk : Str) (is_sync_all : Bool) :
    sv.Attends name { sv with master := { sv.master with
      repfile := sv.master.repfile.assign junk name i }.create cr name i is_sync_all } := by
  obtain ⟨hlt, hfree, -⟩ := List.findIdx?_eq_some_iff_getElem.mp hi
  set m : GentRepMgr := { sv.master with repfile := sv.master.repfile.assign junk name i }
  have hnew := (GentRepMgr.new_spec (m.repfile.slot i) cr is_sync_all).2.1
  have hself : (m.create cr name i is_sync_all).rep_list[name]?.isSome := by
    show (m.rep_list.insert name _)[name]?.isSome
    rw [Std.ExtTreeMap.getElem?_insert_self]
    rfl
  have hne : ∀ n ≠ name, compare name n ≠ .eq := fun n hn heq =>
    hn (Std.LawfulEqCmp.compare_eq_iff_eq.mp heq).symm
  refine ⟨rfl, fun n hn => ?_, fun n hn => ?_, Or.inr ⟨hnone, hself, ?_⟩⟩
  · show (sv.master.rep_list.insert name _)[n]? = _
    rw [Std.ExtTreeMap.getElem?_insert, if_neg (hne n hn)]
  · show sv.master.rep_map[n]?.or (sv.master.repfile.rep_map_list.insert name i)[n]? = _
    rw [Std.ExtTreeMap.getElem?_insert, if_neg (hne n hn)]
    rfl
  · -- the slot was free, and no other one has changed
    have hkeep : (m.create cr name i is_sync_all).free = m.free :=
      congrArg (List.count 0) (available_setSlot hnew)
    have hmap : m.repfile.head_list.map (·.available)
        = (sv.master.repfile.head_list.map (·.available)).set i 1 :=
      List.map_set
    have hcount : m.free = sv.master.free - 1 := by
      rw [GentRepMgr.free, hmap, List.count_set (by simpa using hlt)]
      simp [GentRepMgr.free, by simpa using hfree]
    show sv.master.free ≤ (m.create cr name i is_sync_all).free + 1
    omega

end Attends

/-- The master does not know the slave, and has room for it. -/
structure Unknown (name : Str) (m : GentRepMgr) : Prop where
  unregistered : m.rep_list[name]? = none
  unnamed : m.known name = none
  room : m.repfile.freeSlot.isSome

/-- **A slave is registered.**  All that the master has is queued for it. -/
lemma Unknown.get {name : Str} (h : Unknown name sv.master) (hs : Refines sv.db a) (hp : Permanent a)
    (hsend : Sendable a) (hslave : Refines slave .empty) (w : World) :
    ∃ e m, sv.master.get ⟨sv.db, w.now, w.uninit, w.id⟩ w.junk name true = (some e, m) ∧
      Synced name { sv with master := m } a [] slave .empty e ∧
      sv.Attends name { sv with master := m } := by
  rcases sv.master.get_cases ⟨sv.db, w.now, w.uninit, w.id⟩ w.junk name true with
    ⟨e, he, -⟩ | ⟨-, ⟨i, hi, -⟩ | ⟨-, ⟨i, hi, hget⟩ | ⟨hfull, -⟩⟩⟩
  · rw [h.unregistered] at he
    cases he
  · rw [h.unnamed] at hi
    cases hi
  · have hlt : i < sv.master.repfile.head_list.length := (List.findIdx?_eq_some_iff_getElem.mp hi).1
    set m : GentRepMgr :=
      { sv.master with repfile := sv.master.repfile.assign w.junk name i } with hm
    have hser : (m.repfile.slot i).ser_time = 0 := by
      have hslot : m.repfile.slot i = (sv.master.repfile.slot i).setName w.junk name :=
        GentRepMgr.slot_setSlot_self hlt
      rw [hslot]
      rfl
    have hkey : a [] = none := by
      cases hk : a [] with
      | none => rfl
      | some p => exact absurd rfl (hsend [] p.1 p.2 hk).1.1.1
    have hinv := SyncInv.queued hser hs hp hkey hslave w.now w.uninit w.id
    have hreg : (m.create ⟨sv.db, w.now, w.uninit, w.id⟩ name i true).Registers name
        ⟨i, .new (m.repfile.slot i) sv.db w.now true w.uninit w.id⟩ :=
      GentRepMgr.registers_store.mpr (Or.inl ⟨rfl, rfl⟩)
    refine ⟨_, _, hget.trans (Prod.ext hreg rfl), ⟨hreg, hinv, ?_, ?_⟩,
      .create h.unregistered hi _ _ _⟩
    · intro it hit
      obtain ⟨p, hk⟩ := Option.isSome_iff_exists.mp (mem_new hs _ _ _ _ it hit).1
      exact (hsend it.name p.1 p.2 hk).1
    · intro hst
      have hidle : ∀ rinfo, (GentReplication.new rinfo sv.db w.now true w.uninit w.id).status = 0 := by
        intro rinfo
        unfold GentReplication.new
        dsimp only
        split_ifs <;> rfl
      rw [hidle] at hst
      cases hst
  · have hroom := h.room
    rw [hfull] at hroom
    cases hroom

lemma Unknown.push {name : Str} {m : GentRepMgr} (h : Unknown name m) (now n : ℕ) (type : OptType)
    (key : Str) : Unknown name (m.push now n type key).1 := by
  obtain ⟨hfree, hknown⟩ := m.push_tables now n type key
  refine ⟨?_, (hknown name).trans h.unnamed, ?_⟩
  · show (m.rep_list.map _)[name]? = none
    rw [Std.ExtTreeMap.getElem?_map, h.unregistered]
    rfl
  · rw [GentRepMgr.freeSlot_isSome_iff, hfree, ← GentRepMgr.freeSlot_isSome_iff]
    exact h.room

/-- A write leaves the slots, and who is registered. -/
lemma Server.Wrote.tables {sv' : Server} {a' : ExpMap Str Str} (h : sv.Wrote w sv' a a') :
    sv'.master.free = sv.master.free ∧
      ∀ name : Str, sv'.master.rep_list[name]?.isSome = sv.master.rep_list[name]?.isSome := by
  obtain ⟨type, keys, hsv, -⟩ := h
  have hpushes : ∀ (l : List (Str × ℕ)) (m : GentRepMgr),
      (l.foldl (fun m k => (m.push w.now (w.id + k.2) type k.1).1) m).free = m.free ∧
        ∀ name : Str, (l.foldl (fun m k => (m.push w.now (w.id + k.2) type k.1).1) m).rep_list[name]?.isSome
          = m.rep_list[name]?.isSome := by
    intro l
    induction l with
    | nil => exact fun m => ⟨rfl, fun _ => rfl⟩
    | cons k l ih =>
        intro m
        obtain ⟨hfree, hreg⟩ := ih (m.push w.now (w.id + k.2) type k.1).1
        refine ⟨hfree.trans (m.push_tables _ _ _ _).1, fun name => (hreg name).trans ?_⟩
        show (m.rep_list.map _)[name]?.isSome = _
        rw [Std.ExtTreeMap.getElem?_map, Option.isSome_map]
  rw [hsv]
  exact hpushes keys.zipIdx sv.master

lemma Unknown.wrote {name : Str} {sv' : Server} {a' : ExpMap Str Str} (h : Unknown name sv.master)
    (hwrote : sv.Wrote w sv' a a') : Unknown name sv'.master := by
  obtain ⟨type, keys, hsv, -⟩ := hwrote
  have hpushes : ∀ (l : List (Str × ℕ)) {m : GentRepMgr}, Unknown name m →
      Unknown name (l.foldl (fun m k => (m.push w.now (w.id + k.2) type k.1).1) m) := by
    intro l
    induction l with
    | nil => exact fun h => h
    | cons k l ih => exact fun h => ih (h.push _ _ _ _)
  rw [hsv]
  exact hpushes keys.zipIdx h

/-! ### `MasterHandle` -/

/-- A batch that the slave will carry out. -/
structure Deliverable (b : Batch) : Prop where
  plain : b.isPlain = true
  legible : b.Legible
  few : b.items.length ≤ syncNum

/-- The batch, unless it is a text. -/
def Batch.sent : Batch → List Batch
  | .text _ => []
  | b => [b]

lemma batchLoop_total {db : GentDb} (hs : Refines db a) (now : ℕ) (d : List ItemData)
    (out : List (ItemData × Str)) : ∃ p, batchLoop db now d out = .ok p := by
  induction d generalizing out with
  | nil => exact ⟨_, rfl⟩
  | cons it rest ih =>
      rw [batchLoop, hs.getExpire]
      cases (a it.name).map Prod.fst with
      | none =>
          dsimp only
          split_ifs <;> exact ⟨_, rfl⟩
      | some nr =>
          dsimp only
          obtain ⟨p, hp⟩ := ih (if it.name ≠ [] then out ++ [(it, nr)] else out)
          rw [hp]
          split_ifs <;> exact ⟨_, rfl⟩

/-- `Start` never fails on a store that stands for a map. -/
lemma start_total {db : GentDb} (hs : Refines db a) (rep : GentReplication) (now : ℕ) (word : Word) :
    ∃ res, rep.start db now word.text = .ok res := by
  have hwords : word.text ≠ lit "auth" ∧ word.text ≠ lit "autherror" ∧
      ¬ (word.text ≠ lit "ok" ∧ word.text ≠ lit "data") := by cases word <;> decide
  unfold GentReplication.start
  dsimp only
  rw [if_neg hwords.1, if_neg hwords.2.1, if_neg hwords.2.2]
  rcases hfront : GentReplication.frontNumsElement _ now syncNum with ⟨rep', found⟩
  cases found with
  | none => exact ⟨_, rfl⟩
  | some d =>
      obtain ⟨p, hp⟩ := batchLoop_total hs now d []
      exact ⟨_, by simp only [hp]; rfl⟩

/-- While an acknowledgement is awaited, something is queued. -/
lemma status_of_idle {rep rep' : GentReplication} {db : GentDb} {now : ℕ} {ret : Bool}
    (h : rep.start db now word.text = .ok (rep', .text [], ret)) : rep'.status ≠ 1 := by
  have hack : ∀ rep : GentReplication, (rep.acknowledge now word.text).status ≠ 1 := by
    intro rep
    unfold GentReplication.acknowledge GentReplication.pop
    split_ifs with h1 <;> simp [h1]
  have hfront : ∀ {rep rep₁ : GentReplication} {found}, rep.frontNumsElement now syncNum = (rep₁, found) →
      rep₁.status = rep.status := by
    intro rep rep₁ found hf
    rw [← show _ = rep₁.status from congrArg (fun x => x.1.status) hf]
    cases hq : frontNums rep.que syncNum <;> cases hu : rep.is_update_que <;>
      simp [GentReplication.frontNumsElement, hq, hu]
  cases start_cases word.text_cases h with
  | idle hf =>
      rw [hfront hf]
      exact hack _
  | batch _ hb => exact absurd hb batchLoop_ne_text

lemma status_of_batch {rep rep' : GentReplication} {db : GentDb} {now : ℕ} {b : Batch} {ret : Bool}
    (h : rep.start db now word.text = .ok (rep', b, ret)) (hne : b.sent ≠ []) : rep'.status = 1 := by
  cases start_cases word.text_cases h with
  | idle _ => exact absurd rfl hne
  | batch _ _ =>
      unfold GentReplication.setFront
      split_ifs <;> rfl

/-- **What `Start` does to the queue and sends**, on a word of the slave. -/
structure Step (word : Word) (rep rep' : GentReplication) (b : Batch) : Prop where
  deliverable : ∀ b' ∈ b.sent, Deliverable b'
  message : emitted b.outstr = b.sent.map Batch.outstr
  idle : b.sent = [] → rep'.pending = []
  awaits : b.sent ≠ [] → rep'.status = 1
  shorter : rep'.pending.length ≤ rep.pending.length
  acknowledged : word = .ok → rep.status = 1 → rep'.pending.length < rep.pending.length

lemma SyncInv.batch_cases {db : GentDb} {rep rep' : GentReplication} {now : ℕ} {b : Batch}
    {p q : List ItemData} {k n : ℕ} (h : SyncInv ⟨db, rep, 0, bs, slave⟩ a c) (hsend : Sendable a)
    (hportable : ∀ it ∈ rep.pending, Portable it.name)
    (hst : StartStep rep db now word.text rep' b p q k n) :
    q = [] ∧ b = .text [] ∨ q ≠ [] ∧ b.sent = [b] ∧ Deliverable b := by
  have hq : ∀ it ∈ q, it ∈ rep.pending := fun it hit => hst.split ▸ List.mem_append_right p hit
  rcases hst.batch with hidle | ⟨hne, hn, hnk, hk, -, hb⟩
  · exact Or.inl hidle
  refine Or.inr ⟨hne, ?_⟩
  have hd : q.take k ≠ [] := by
    have hk0 : k ≠ 0 := by omega
    simp [hk0, hne]
  have hmem : ∀ it ∈ q.take k, it ∈ rep.pending := fun it hit => hq it (List.mem_of_mem_take hit)
  rcases batchLoop_permanent h.master h.permanent (fun it hit => h.named it (hmem it hit)) hd hb with
    ⟨it, rest, hcons, -, rfl, -⟩ | ⟨m, items, -, -, rfl, hfst, hval⟩
  · refine ⟨rfl, rfl, (hportable it (hmem it ?_)).legible_del, Nat.le_succ 1⟩
    rw [hcons]
    exact List.mem_cons_self
  · have hnum : items.length ≤ syncNum := by
      rw [← List.length_map (f := Prod.fst), hfst]
      exact ((List.length_take_le' _ _).trans (List.length_take_le _ _)).trans hk
    refine ⟨rfl, rfl, legible_mset hnum fun x hx => ?_, by rwa [Batch.items, List.length_map]⟩
    obtain ⟨-, hvalue⟩ := hval x hx
    exact hsend _ _ _ hvalue

lemma Deliverable.outstr_ne_nil {b : Batch} (h : Deliverable b) : b.outstr ≠ [] := by
  cases b with
  | text t => cases h.plain
  | add it nr expire => cases h.plain
  | del it => exact snprintf_ne_nil (by decide) (List.cons_ne_nil _ _)
  | mset items =>
      exact List.append_ne_nil_of_left_ne_nil (snprintf_ne_nil (by decide) (List.cons_ne_nil _ _)) _

lemma emitted_of_ne_nil {out : Str} (h : out ≠ []) : emitted out = [out] := if_neg h

/-- **The call of `Start`** on a word keeps master and slave together. -/
lemma SyncInv.start_step {db : GentDb} {rep rep' : GentReplication} {now : ℕ} {b : Batch} {ret : Bool}
    (h : SyncInv ⟨db, rep, 0, bs, slave⟩ a c) (hsend : Sendable a)
    (hportable : ∀ it ∈ rep.pending, Portable it.name)
    (hflagged : rep.status = 1 → ∃ it ∈ rep.pending, it.is_sync = true)
    (hstart : rep.start db now word.text = .ok (rep', b, ret)) :
    SyncInv ⟨db, rep', 0, bs ++ b.sent, slave⟩ a c ∧ (∀ it ∈ rep'.pending, Portable it.name) ∧
      (rep'.status = 1 → ∃ it ∈ rep'.pending, it.is_sync = true) ∧ Step word rep rep' b ∧
      ∃ p q k n, StartStep rep db now word.text rep' b p q k n := by
  have hstep : SyncSystem.step ⟨db, rep, 0, bs, slave⟩ (.start now word)
      = some ⟨db, rep', 0, bs ++ b.sent, slave⟩ := by
    cases b <;> simp [SyncSystem.step, hstart, Batch.sent]
  obtain ⟨-, p, q, k, n, hst⟩ := h.queues.start word.text_cases hstart
  have hlen : rep'.pending.length = q.length := by
    rw [hst.after]
    simp only [List.length_append, List.length_map, List.length_take, List.length_drop]
    omega
  have hold : rep.pending.length = p.length + q.length := by rw [hst.split, List.length_append]
  have hshort : word = .ok → rep.status = 1 → q.length < rep.pending.length := by
    rintro rfl hone
    obtain ⟨it, hit, hsync⟩ := hflagged hone
    -- what is flagged is acknowledged, so that it is not in what is left
    rcases List.mem_append.mp (hst.split ▸ hit) with hit | hit
    · have := List.length_pos_of_mem hit
      omega
    · rw [hst.fresh ⟨hone, rfl⟩ it hit] at hsync
      cases hsync
  have hnames : ∀ it ∈ rep'.pending, Portable it.name := by
    intro it hit
    rw [hst.after] at hit
    have hq : ∀ it ∈ q, Portable it.name := fun it hit =>
      hportable it (hst.split ▸ List.mem_append_right p hit)
    rcases List.mem_append.mp hit with hit | hit
    · obtain ⟨it', hit', rfl⟩ := List.mem_map.mp hit
      exact hq it' (List.mem_of_mem_take hit')
    · exact hq it (List.mem_of_mem_drop hit)
  refine ⟨h.start hstep, hnames, ?_⟩
  rcases h.batch_cases hsend hportable hst with ⟨rfl, rfl⟩ | ⟨hne, hsent, hdeliver⟩
  · refine ⟨fun hone => absurd hone (status_of_idle hstart), ⟨by simp [Batch.sent], rfl, fun _ => ?_,
      fun hne => absurd rfl hne, by omega, fun hw hone => hlen ▸ hshort hw hone⟩, _, _, _, _, hst⟩
    exact List.length_eq_zero_iff.mp hlen
  · have hone : rep'.status = 1 := status_of_batch hstart (by rw [hsent]; simp)
    refine ⟨fun _ => ?_, ⟨by simpa [hsent] using hdeliver, ?_, by simp [hsent], fun _ => hone, by omega,
      fun hw hone => hlen ▸ hshort hw hone⟩, _, _, _, _, hst⟩
    · rcases hst.batch with ⟨hnil, -⟩ | ⟨-, hn, -⟩
      · exact absurd hnil hne
      obtain ⟨it, rest, rfl⟩ := List.exists_cons_of_ne_nil hne
      obtain ⟨n, rfl⟩ : ∃ n', n = n' + 1 := ⟨n - 1, by omega⟩
      exact ⟨it.setSync, by rw [hst.after]; simp, rfl⟩
    · rw [hsent, emitted_of_ne_nil hdeliver.outstr_ne_nil]
      rfl

/-- **`MasterHandle` keeps master and slave together**, and says which batch it sends. -/
lemma Synced.handle (h : Synced id.text sv a bs slave c e) (hsend : Sendable a) (hkey : r.keystr = id.text)
    (hmsg : r.repmsg = word.text) (w : World) :
    ∃ b idle sv' e', sv.masterHandle w r = .ok (b.outstr, idle, sv') ∧ sv'.db = sv.db ∧
      Synced id.text sv' a (bs ++ b.sent) slave c e' ∧ Step word e.rep e'.rep b ∧
      sv.Attends id.text sv' ∧
      ∃ p q k n, StartStep (sv.master.load e) sv.db w.now word.text e'.rep b p q k n := by
  have hmaster : Refines sv.db a := h.inv.master
  obtain ⟨⟨rep, b, ret⟩, hstart⟩ := start_total hmaster (sv.master.load e) w.now word
  obtain ⟨hinv, hportable, hflagged, hstep, hst⟩ :=
    (h.inv.setInfo (sv.master.repfile.slot e.slot)).start_step hsend h.portable h.flagged hstart
  have hget : sv.master.get ⟨sv.db, w.now, w.uninit, w.id⟩ w.junk id.text r.is_sync_all
      = (some e, sv.master) := by
    rw [GentRepMgr.get, show sv.master.rep_list[id.text]? = some e from h.registered]
  refine ⟨b, !ret, { sv with master := sv.master.store id.text e.slot rep }, ⟨e.slot, rep⟩, ?_, rfl,
    ⟨GentRepMgr.registers_store.mpr (Or.inl ⟨rfl, rfl⟩), hinv, hportable, hflagged⟩,
    ⟨hstep.deliverable, hstep.message, hstep.idle, hstep.awaits, hstep.shorter, hstep.acknowledged⟩,
    .store (Option.isSome_of_mem h.registered) (start_available hstart), hst⟩
  rw [Server.masterHandle, hkey, hmsg, hget]
  exact bind_eq_ok.mpr ⟨_, hstart, rfl⟩

/-! ### The slave's end -/

/-- A connection that goes on is not closed. -/
lemma closes_of_react {x : Session.Reaction} {is_slave : Bool} {data : Str}
    (h : Session.react cfg is_slave w sv r data = some x) : Dialogue.closes cfg w.now r data = false := by
  unfold Session.react at h
  unfold Dialogue.closes
  cases hproc : process cfg w.now r data with
  | error f => rfl
  | ok res =>
      obtain ⟨status, out, r'⟩ := res
      cases out with
      | cons b out => rfl
      | nil =>
          simp only [hproc] at h
          dsimp only
          rw [decide_eq_false_iff_not]
          intro hclose
          simp [hclose] at h

/-- **The slave takes a batch off the line.** -/
lemma Synced.receive {x : Server} {b : Batch} {latest : ℕ} (h : Synced id.text sv a (b :: bs) x.db c e)
    (hb : Deliverable b) (hw : w.Fair latest) (hr : Listens r) (cfg : Config) :
    ∃ z c', Session.react cfg true w x r b.outstr = some z ∧ z.out = slaveReply x.server_id true ∧
      z.server.server_id = x.server_id ∧ Listens z.comm ∧ Synced id.text sv a bs z.server.db c' e := by
  obtain ⟨z, hreact, hout, happ⟩ : ∃ z, Session.react cfg true w x r b.outstr = some z ∧ _ :=
    react_batch h.inv.slave hw hr hb.plain hb.legible hb.few
  have htext : ∀ t, b ≠ .text t := by
    rintro t rfl
    cases hb.plain
  have hbuilt : b.Built x.db w.now syncNum := by
    cases b with
    | mset items => exact (List.length_map _).symm.trans_le hb.few
    | add it nr expire => cases hb.plain
    | del it => exact trivial
    | text t => exact trivial
  obtain ⟨-, hid, hlistens⟩ := Dialogue.react_heard (hears_batch hr hb.legible htext hbuilt) hreact
  have hstep : SyncSystem.step ⟨sv.db, e.rep, 0, b :: bs, x.db⟩ (.apply w.now)
      = some ⟨sv.db, e.rep, 0, bs, z.server.db⟩ := by
    simp only [SyncSystem.step, happ]
  obtain ⟨c', hinv⟩ := h.inv.apply hstep
  exact ⟨z, c', hreact, hout, hid, hlistens, h.registered, hinv, h.portable, h.flagged⟩

end Master

end Riser
