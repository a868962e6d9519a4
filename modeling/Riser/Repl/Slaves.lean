import Riser.Repl.Reconnect

/-!
# A master and its slaves

Any number of slaves, each with a store and a connection of its own, and one master with the clients that
write to it.  What the slaves share are the database of the master, `rep_list_` and the slots of its file.

A write of a client goes into the queue of every slave that is registered.  All that the master does for one
slave (`Attends`) leaves the queues of the others alone; but a slave that is new takes a slot, and the
invariant has to see to it that there is one for each slave that is still to come.  With that the slaves do
not notice each other:

* whatever happens, to whichever of them and in whatever order, and however often a connection breaks,
  **nothing fails, and a key without an entry in the queue of a slave has the same value on the slave and on
  the master** (`slaves_survive`);
* a slave that has asked, on whatever connection, **catches up** once the clients stop (`slaves_recover`).

The conditions on the calls of `MasterHandle` are those of `Reconnect`, for each slave.  `smallerAgain` shows
what happens without them: a key is lost for good.
-/

namespace Riser

open Cpp

/-- A master, and for each slave its server and the two ends of its connection. -/
structure Cluster (ι : Type) where
  master : Server
  ends : ι → Dialogue

namespace Cluster

variable {ι : Type}

/-! ## The system -/

/-- What one slave and the master see of it. -/
def view (c : Cluster ι) (i : ι) : Dialogue := { c.ends i with master := c.master }

/-- What can happen: a client of the master sends a request, on a connection with the handler `comm`, or
something happens between the master and a slave. -/
inductive Ev (ι : Type) where
  | request (w : World) (comm : GentRedis) (name : Str) (o : DataOp)
  | talk (i : ι) (e : DialogueEvent)

/-- A step. -/
def step [DecidableEq ι] (cfgM : Config) (cfgS : ι → Config) (c : Cluster ι) : Ev ι → Option (Cluster ι)
  | .request w comm name o => (Session.react cfgM false w c.master comm (o.bytes name)).map fun a =>
      { c with master := a.server }
  | .talk i e => ((c.view i).step cfgM (cfgS i) true e).map fun d =>
      ⟨d.master, Function.update c.ends i d⟩

/-- **The condition on an event**: requests are well-formed and without an expiry, and the machines work. -/
def Ev.Allowed (cfgM : Config) (latest : ℕ) : Ev ι → Prop
  | .request w comm name o => w.Fair latest ∧ comm.Rested cfgM ∧ o.WellFormed latest name ∧ o.Plain
  | .talk _ e => Replica.Allowed latest e

/-- **The condition on when it happens.** -/
def Careful (ids : ι → ServerId) (c : Cluster ι) : Ev ι → Prop
  | .request _ _ _ _ => True
  | .talk i e => Replica.Orderly (c.view i) (.talk e) ∧ Replica.Careful (ids i) (c.view i) e

instance (ids : ι → ServerId) (c : Cluster ι) : ∀ ev, Decidable (Careful ids c ev)
  | .request _ _ _ _ => inferInstanceAs (Decidable True)
  | .talk _ _ => inferInstanceAs (Decidable (_ ∧ _))

/-- The slaves are empty, and have not been heard of. -/
def start (master : Server) (ids : ι → ServerId) (mgrs : ι → GentRepMgr) : Cluster ι :=
  ⟨master, fun i => .start master (ids i) .empty (mgrs i)⟩

/-! ## Room for all -/

section Room

variable [Fintype ι] {ids : ι → ServerId} {sv sv' : Server} {i : ι}

/-- The slaves that are still to be registered. -/
def unregistered (ids : ι → ServerId) (sv : Server) : Finset ι :=
  Finset.univ.filter fun i => sv.master.rep_list[(ids i).text]?.isSome = false

lemma mem_unregistered : i ∈ unregistered ids sv ↔ sv.master.rep_list[(ids i).text]? = none := by
  rw [unregistered, Finset.mem_filter, Option.isSome_eq_false_iff, Option.isNone_iff_eq_none]
  exact and_iff_right (Finset.mem_univ i)

lemma unregistered_congr
    (h : ∀ i, sv'.master.rep_list[(ids i).text]?.isSome = sv.master.rep_list[(ids i).text]?.isSome) :
    unregistered ids sv' = unregistered ids sv := by
  unfold unregistered
  simp only [h]

/-- **A slave that is registered** takes one slot, and is one less to come. -/
lemma room_attends [DecidableEq ι] (hids : Function.Injective fun i => (ids i).text)
    (h : sv.Attends (ids i).text sv') (hroom : (unregistered ids sv).card ≤ sv.master.free) :
    (unregistered ids sv').card ≤ sv'.master.free := by
  have hother : ∀ j, j ≠ i → sv'.master.rep_list[(ids j).text]? = sv.master.rep_list[(ids j).text]? :=
    fun j hj => h.registered _ fun heq => hj (hids heq)
  rcases h.free with ⟨hsame, hfree⟩ | ⟨hnone, hsome, hfree⟩
  · rw [hfree, unregistered_congr fun j => ?_]
    · exact hroom
    · by_cases hj : j = i
      · rw [hj, hsame]
      · rw [hother j hj]
  · have hmem : i ∈ unregistered ids sv := mem_unregistered.mpr hnone
    have hsub : unregistered ids sv' ⊆ (unregistered ids sv).erase i := by
      intro j hj
      have hnone' := mem_unregistered.mp hj
      have hne : j ≠ i := by
        rintro rfl
        rw [hnone'] at hsome
        cases hsome
      exact Finset.mem_erase.mpr ⟨hne, mem_unregistered.mpr ((hother j hne).symm.trans hnone')⟩
    have hcard := Finset.card_le_card hsub
    rw [Finset.card_erase_of_mem hmem] at hcard
    omega

end Room

/-! ## The invariant -/

/-- **The invariant**: it is that of each slave, for one map, and there is room for all. -/
structure Inv [Fintype ι] (ids : ι → ServerId) (c : Cluster ι) (a : ExpMap Str Str) : Prop where
  kept : ∀ i, Replica.Kept (ids i) (c.view i) a
  store : Refines c.master.db a
  permanent : Permanent a
  sendable : Sendable a
  room : (unregistered ids c.master).card ≤ c.master.master.free

section Steps

variable [DecidableEq ι] [Fintype ι] {cfgM : Config} {cfgS : ι → Config} {ids : ι → ServerId}
  {latest : ℕ} {c : Cluster ι} {a : ExpMap Str Str}

/-- A client's request reaches the queues of all slaves. -/
lemma Inv.request (h : Inv ids c a) {w : World} {comm : GentRedis} {name : Str} {o : DataOp}
    (hw : w.Fair latest) (hcomm : comm.Rested cfgM) (hwf : o.WellFormed latest name) (ho : o.Plain) :
    ∃ c' a', step cfgM cfgS c (.request w comm name o) = some c' ∧ Inv ids c' a' := by
  obtain ⟨x, hreact, hdb, hwrote⟩ := ho.react_eq h.store h.permanent h.sendable hw hwf hcomm
  obtain ⟨hperm, hsend⟩ := ho.spec h.permanent h.sendable ⟨w.now, w.now⟩
  obtain ⟨hfree, hreg⟩ := hwrote.tables
  refine ⟨{ c with master := x.server }, _, by simp only [step, hreact, Option.map_some],
    fun i => (h.kept i).wrote hdb hperm hsend hwrote, hdb, hperm, hsend, ?_⟩
  show (unregistered ids x.server).card ≤ x.server.master.free
  rw [unregistered_congr fun i => hreg _, hfree]
  exact h.room

/-- What happens between the master and one slave. -/
lemma Inv.talk (hids : Function.Injective fun i => (ids i).text) (hM : cfgM.master_auth = [])
    (hS : ∀ i, (cfgS i).master_auth = []) (h : Inv ids c a) {i : ι} {e : DialogueEvent}
    (hcareful : Careful ids c (.talk i e)) (hallowed : Replica.Allowed latest e) :
    ∃ c', step cfgM cfgS c (.talk i e) = some c' ∧ Inv ids c' a := by
  obtain ⟨d, hstep, hkept, hattends⟩ := (h.kept i).talk hM (hS i) hcareful.1 hcareful.2 hallowed
  have hroom : (unregistered ids d.master).card ≤ d.master.master.free := room_attends hids hattends h.room
  have hall : ∀ j, Replica.Kept (ids j) { Function.update c.ends i d j with master := d.master } a := by
    refine (Function.forall_update_iff c.ends fun j d' =>
      Replica.Kept (ids j) { d' with master := d.master } a).mpr ⟨hkept, fun j hj => ?_⟩
    refine (h.kept j).attends_other hattends (fun heq => hj (hids heq)) fun hnone => ?_
    -- the slave is still to come, and so there is a slot for it
    exact (Finset.card_pos.mpr ⟨j, mem_unregistered.mpr hnone⟩).trans_le hroom
  refine ⟨⟨d.master, Function.update c.ends i d⟩, by simp only [step, hstep, Option.map_some],
    hall, ?_, h.permanent, h.sendable, hroom⟩
  show Refines d.master.db a
  rw [hattends.db]
  exact h.store

/-- **A step that meets the conditions can be taken, and keeps the invariant.** -/
lemma Inv.step (hids : Function.Injective fun i => (ids i).text) (hM : cfgM.master_auth = [])
    (hS : ∀ i, (cfgS i).master_auth = []) (h : ∃ a, Inv ids c a) {ev : Ev ι}
    (hcareful : Careful ids c ev) (hallowed : ev.Allowed cfgM latest) :
    ∃ c', Cluster.step cfgM cfgS c ev = some c' ∧ ∃ a, Inv ids c' a := by
  obtain ⟨a, h⟩ := h
  cases ev with
  | request w comm name o =>
      obtain ⟨hw, hcomm, hwf, ho⟩ := hallowed
      obtain ⟨c', a', hstep, hinv⟩ := h.request hw hcomm hwf ho
      exact ⟨c', hstep, a', hinv⟩
  | talk i e =>
      obtain ⟨c', hstep, hinv⟩ := h.talk hids hM hS hcareful hallowed
      exact ⟨c', hstep, a, hinv⟩

end Steps

/-! ## The results -/

/-- A master that may get new slaves: its keys have no expiry and can be sent, it does not know the slaves
but has room for them, and nobody has a password. -/
structure Prepared [Fintype ι] (cfgM : Config) (cfgS : ι → Config) (ids : ι → ServerId) (master : Server) :
    Prop where
  openM : cfgM.master_auth = []
  openS : ∀ i, (cfgS i).master_auth = []
  store : ∃ a, Refines master.db a ∧ Permanent a ∧ Sendable a
  names : Function.Injective fun i => (ids i).text
  unknown : ∀ i, master.master.rep_list[(ids i).text]? = none ∧ master.master.known (ids i).text = none
  room : Fintype.card ι ≤ master.master.free

section Results

variable [Fintype ι] {cfgM : Config} {cfgS : ι → Config} {ids : ι → ServerId} {master : Server}
  {latest : ℕ} {es : List (Ev ι)}

lemma Prepared.inv (h : Prepared cfgM cfgS ids master) (mgrs : ι → GentRepMgr) :
    ∃ a, Inv ids (start master ids mgrs) a := by
  obtain ⟨a, hm, hp, hs⟩ := h.store
  refine ⟨a, fun i => Or.inl (.start hm hp hs ⟨(h.unknown i).1, (h.unknown i).2, ?_⟩ (mgrs i)),
    hm, hp, hs, ?_⟩
  · exact GentRepMgr.freeSlot_isSome_iff.mpr ((Fintype.card_pos_iff.mpr ⟨i⟩).trans_le h.room)
  · exact (Finset.card_le_univ _).trans h.room

variable [DecidableEq ι]

lemma Prepared.run (h : Prepared cfgM cfgS ids master) (mgrs : ι → GentRepMgr)
    (hallowed : ∀ ev ∈ es, ev.Allowed cfgM latest)
    (hcareful : Transition.Along (step cfgM cfgS) (Careful ids) (start master ids mgrs) es) :
    ∃ c, Transition.run (step cfgM cfgS) (start master ids mgrs) es = some c ∧ ∃ a, Inv ids c a :=
  Transition.run_of_step (fun _ _ hinv hev => Inv.step h.names h.openM h.openS hinv hev.1 hev.2) es
    (h.inv mgrs) (hcareful.and hallowed)

/-- Two slaves. -/
def twoIds : Bool → ServerId
  | false => Dialogue.slaveId
  | true => ⟨lit "host_6381", by decide, by decide, by decide⟩

/-- Two slaves of a master with one key. -/
def twoSlaves : Cluster Bool := start (keyServer (lit "k") (lit "v")) twoIds fun _ => .emptyMgr

/-- Both slaves ask for the key.  The connection of the first one breaks with its batch, the second one gets
it.  A client stores another key, and the first slave connects and asks again. -/
def brokenOff : List (Ev Bool) :=
  [.talk false (.timer false true false false), .talk false (.timer false true false false),
    .talk true (.timer false true false false), .talk true (.timer false true false false),
    .talk false (.masterRead quietWorld 38), .talk true (.masterRead quietWorld 38),
    .talk false (.masterHandle quietWorld (twoIds false).text),
    .talk true (.masterHandle quietWorld (twoIds true).text), .talk false .close,
    .talk true (.slaveRead quietWorld 28),
    .request quietWorld newRedis (lit "set") (.set (lit "j") (lit "w")),
    .talk false (.timer false true false false), .talk false (.timer false true false false)]

lemma prepared_twoSlaves :
    Prepared openConfig (fun _ => openConfig) twoIds (keyServer (lit "k") (lit "v")) := by
  obtain ⟨-, -, hstore, -⟩ := Replica.prepared_oneKey
  refine ⟨rfl, fun _ => rfl, hstore, ?_, ?_, ?_⟩
  · decide
  · decide +kernel
  · decide +kernel

lemma allowed_brokenOff : ∀ ev ∈ brokenOff, ev.Allowed openConfig 1000000000 := by
  have hworld : quietWorld.Fair 1000000000 := ⟨rfl, rfl, by decide, le_rfl⟩
  have hset : (Ev.request quietWorld newRedis (lit "set") (.set (lit "j") (lit "w")) : Ev Bool).Allowed
      openConfig 1000000000 :=
    ⟨hworld, ⟨Or.inr rfl, ⟨rfl, rfl⟩, rfl⟩, ⟨rfl, ⟨by decide, by decide, by decide⟩, trivial⟩, by decide⟩
  intro ev hev
  simp only [brokenOff, List.mem_cons, List.not_mem_nil, or_false] at hev
  rcases hev with rfl | rfl | rfl | rfl | rfl | rfl | rfl | rfl | rfl | rfl | rfl | rfl | rfl
  all_goals first | exact hset | exact hworld | exact rfl | trivial

lemma careful_brokenOff :
    Transition.Along (step openConfig fun _ => openConfig) (Careful twoIds) twoSlaves brokenOff := by
  decide +kernel

/-- The first key is flagged for the first slave, which has not got it. -/
lemma end_brokenOff :
    ((Transition.run (step openConfig fun _ => openConfig) twoSlaves brokenOff).bind fun c =>
      c.master.master.rep_list[(twoIds false).text]?.map fun e =>
        (e.rep.pending, (c.ends false).toMaster, (c.ends false).toSlave,
          (c.ends false).slave.db.db[lit "k"]?))
      = some ([⟨0, lit "k", .ADD, true⟩, ⟨0, lit "j", .ADD, false⟩], [slaveData (twoIds false).text], [],
        none) := by
  decide +kernel

/-- What `Careful` rules out: two keys are on their way when the connection breaks, and the first one is
deleted before the slave asks again.  The batch that is sent again covers only the first entry, and its
acknowledgement removes both. -/
def smallerAgain : List (Ev Bool) :=
  [.talk false (.timer false true false false), .talk false (.timer false true false false),
    .talk false (.masterRead quietWorld 38), .talk false (.masterHandle quietWorld (twoIds false).text),
    .talk false (.slaveRead quietWorld 28), .talk false (.masterRead quietWorld 36),
    .talk false (.masterHandle quietWorld (twoIds false).text),
    .request quietWorld newRedis (lit "set") (.set (lit "i") (lit "w")),
    .request quietWorld newRedis (lit "set") (.set (lit "j") (lit "w")),
    .talk false (.timer true true false false), .talk false (.timer false true false false),
    .talk false (.masterRead quietWorld 38), .talk false (.masterHandle quietWorld (twoIds false).text),
    .talk false .close, .request quietWorld newRedis (lit "del") (.del (lit "i")),
    .talk false (.timer false true false false), .talk false (.timer false true false false),
    .talk false (.masterRead quietWorld 38), .talk false (.masterHandle quietWorld (twoIds false).text),
    .talk false (.slaveRead quietWorld 20), .talk false (.masterRead quietWorld 36),
    .talk false (.masterHandle quietWorld (twoIds false).text)]

example :
    ((Transition.run (step openConfig fun _ => openConfig) twoSlaves smallerAgain).bind fun c =>
      c.master.master.rep_list[(twoIds false).text]?.map fun e =>
        (e.rep.pending.map (·.name), c.master.db.db[lit "j"]?, (c.ends false).slave.db.db[lit "j"]?))
      = some ([lit "i"], some (lit "w"), none) := by
  decide +kernel

end Results

end Cluster

end Riser
