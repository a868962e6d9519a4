import Riser.Repl.Synced

/-!
# A slave that follows its master

The system of a master, its clients and one slave, in which everything travels as bytes (`Synced` has the
two ends).  The connection of the slave loses nothing, a read takes one message, writes to the disks
succeed, and neither side has a password for the other.  Then

* no step fails, and **a key for which nothing is queued or under way has the same value on both sides**
  at any time (`replica_follows`);
* once the slave asks and the clients stop, the slave **catches up** in as many exchanges as there are
  entries in its queue, and one more (`replica_catches_up`).

The slave may ask again before it is answered, and `MasterHandle` may be called at any time: batches are
then sent twice, which does no harm as long as none is lost.
-/

namespace Riser

open Cpp GentReplication

namespace Replica

/-! ## The system -/

/-- What can happen: a client of the master sends a request, on a connection with the handler `comm`, or
something happens between master and slave. -/
inductive Ev where
  | request (w : World) (comm : GentRedis) (name : Str) (o : DataOp)
  | talk (e : DialogueEvent)

/-- A step.  A full synchronisation is asked for. -/
def step (cfgM cfgS : Config) (d : Dialogue) : Ev → Option Dialogue
  | .request w comm name o => (Session.react cfgM false w d.master comm (o.bytes name)).map fun a =>
      { d with master := a.server }
  | .talk e => d.step cfgM cfgS true e

/-- **The condition on an event**: requests are well-formed and without an expiry, both machines work, the
connection is not closed, and nobody else changes the stores. -/
def Ev.Proper (cfgM : Config) (latest : ℕ) : Ev → Prop
  | .request w comm name o => w.Fair latest ∧ comm.Rested cfgM ∧ o.WellFormed latest name ∧ o.Plain
  | .talk (.timer _ _ _ _) => True
  | .talk (.masterRead w _) => w.sent = true
  | .talk (.masterHandle _ _) => True
  | .talk (.slaveRead w _) => w.Fair latest
  | .talk _ => False

/-- **The condition on when it happens**: a read takes one message, and `MasterHandle` is called for a
slave that is attached. -/
def Orderly (d : Dialogue) : Ev → Prop
  | .talk (.masterRead _ size) => d.toMaster.head?.map List.length = some size
  | .talk (.masterHandle _ name) => name ∈ d.attached
  | .talk (.slaveRead _ size) => d.toSlave.head?.map List.length = some size
  | _ => True

instance (d : Dialogue) : ∀ ev, Decidable (Orderly d ev)
  | .request _ _ _ _ => inferInstanceAs (Decidable True)
  | .talk (.timer _ _ _ _) => inferInstanceAs (Decidable True)
  | .talk (.masterRead _ _) => inferInstanceAs (Decidable (_ = _))
  | .talk (.masterHandle _ name) => inferInstanceAs (Decidable (name ∈ d.attached))
  | .talk (.slaveRead _ _) => inferInstanceAs (Decidable (_ = _))
  | .talk .close => inferInstanceAs (Decidable True)
  | .talk (.masterOther _ _) => inferInstanceAs (Decidable True)
  | .talk (.slaveOther _ _) => inferInstanceAs (Decidable True)

/-! ## The invariant -/

/-- The line between the two: the slave listens, what it says are words, and what it is told are
batches. -/
structure Line (id : ServerId) (d : Dialogue) (bs : List Batch) : Prop where
  name : d.slave.server_id = id.text
  listens : Listens d.scomm
  all : d.mcomm.is_sync_all = true
  words : ∀ m ∈ d.toMaster, ∃ word, m = wordText id word
  linked : d.toMaster ≠ [] → d.linked = true
  batches : d.toSlave = bs.map Batch.outstr
  deliverable : ∀ b ∈ bs, Deliverable b

/-- The slave has not been heard of. -/
structure Before (id : ServerId) (d : Dialogue) (a : ExpMap Str Str) : Prop where
  line : Line id d []
  unknown : Unknown id.text d.master.master
  master : Refines d.master.db a
  permanent : Permanent a
  sendable : Sendable a
  slave : Refines d.slave.db .empty
  attached : d.attached = []

/-- The slave is registered. -/
structure Following (id : ServerId) (d : Dialogue) (a : ExpMap Str Str) (bs : List Batch) (e : Registered) :
    Prop where
  line : Line id d bs
  linked : d.linked = true
  sendable : Sendable a
  synced : ∃ c, Synced id.text d.master a bs d.slave.db c e
  heard : d.attached ≠ [] → d.mcomm.keystr = id.text ∧ ∃ word : Word, d.mcomm.repmsg = word.text

/-- **The invariant.** -/
def Inv (id : ServerId) (d : Dialogue) : Prop :=
  ∃ a, Before id d a ∨ ∃ bs e, Following id d a bs e

section Steps

variable {cfgM cfgS : Config} {id : ServerId} {latest : ℕ} {d : Dialogue} {a : ExpMap Str Str}
  {bs : List Batch} {e : Registered} {word : Word} {w : World}

/-! ### Clients -/

lemma Line.setMaster (h : Line id d bs) (master : Server) : Line id { d with master } bs :=
  ⟨h.name, h.listens, h.all, h.words, h.linked, h.batches, h.deliverable⟩

section Writes

variable {sv : Server} {a' : ExpMap Str Str} (hdb : Refines sv.db a') (hperm : Permanent a')
  (hsend : Sendable a')

include hdb hperm hsend

lemma Before.wrote (h : Before id d a) (hwrote : d.master.Wrote w sv a a') :
    Before id { d with master := sv } a' :=
  ⟨h.line.setMaster _, h.unknown.wrote hwrote, hdb, hperm, hsend, h.slave, h.attached⟩

lemma Following.wrote (h : Following id d a bs e) (hwrote : d.master.Wrote w sv a a') :
    ∃ e', Following id { d with master := sv } a' bs e' ∧
      ∃ new, e'.rep.pending = e.rep.pending ++ new := by
  obtain ⟨c, hsynced⟩ := h.synced
  obtain ⟨e', hsynced', new, hpend, -⟩ := hsynced.write hdb hperm hwrote
  exact ⟨e', ⟨h.line.setMaster _, h.linked, hsend, ⟨c, hsynced'⟩, h.heard⟩, new, hpend⟩

end Writes

/-! ### The timer of the slave -/

/-- The timer of the slave leaves the two ends alone. -/
structure SameEnds (d d' : Dialogue) : Prop where
  master : d'.master = d.master
  slave : d'.slave = d.slave
  attached : d'.attached = d.attached
  mcomm : d'.mcomm = d.mcomm
  linked : d'.linked = d.linked

/-- The slave asks for entries, without a password. -/
lemma Line.ask (hS : cfgS.master_auth = []) (h : Line id d bs) (hlinked : d.linked = true) :
    Line id (d.ask cfgS true) bs ∧ SameEnds d (d.ask cfgS true) := by
  unfold Dialogue.ask
  cases d.status with
  | INIT =>
      simp only [hS, if_true]
      exact ⟨⟨h.name, h.listens, h.all, h.words, h.linked, h.batches, h.deliverable⟩,
        rfl, rfl, rfl, rfl, rfl⟩
  | CONTINUE =>
      refine ⟨⟨h.name, h.listens, h.all, fun m hm => ?_, fun _ => hlinked, h.batches, h.deliverable⟩,
        rfl, rfl, rfl, rfl, rfl⟩
      rcases List.mem_append.mp hm with hm | hm
      · exact h.words m hm
      · rw [List.mem_singleton.mp hm, h.name]
        exact ⟨.data, rfl⟩
  | AUTH => exact ⟨h, rfl, rfl, rfl, rfl, rfl⟩
  | WAIT => exact ⟨h, rfl, rfl, rfl, rfl, rfl⟩

lemma Line.setStatus (h : Line id d bs) (status : SlaveStatus) : Line id { d with status } bs :=
  ⟨h.name, h.listens, h.all, h.words, h.linked, h.batches, h.deliverable⟩

lemma Line.timer (hS : cfgS.master_auth = []) (h : Line id d bs) (hlinked : d.linked = true)
    (late links uninit₁ uninit₂ : Bool) :
    Line id (d.slaveTimer cfgS true late links uninit₁ uninit₂) bs ∧
      SameEnds d (d.slaveTimer cfgS true late links uninit₁ uninit₂) := by
  unfold Dialogue.slaveTimer
  by_cases hst : d.status = .AUTH ∨ d.status = .WAIT
  · rw [if_pos ⟨hst, hlinked⟩]
    split_ifs
    · exact ⟨h.setStatus _, rfl, rfl, rfl, rfl, rfl⟩
    · exact ⟨h, rfl, rfl, rfl, rfl, rfl⟩
  · rw [if_neg fun hand => hst hand.1, if_neg hst]
    simp only [hlinked, if_true]
    exact h.ask hS hlinked

lemma Following.timer (hS : cfgS.master_auth = []) (h : Following id d a bs e)
    (late links uninit₁ uninit₂ : Bool) :
    Following id (d.slaveTimer cfgS true late links uninit₁ uninit₂) a bs e := by
  obtain ⟨hline, hsame⟩ := h.line.timer hS h.linked late links uninit₁ uninit₂
  obtain ⟨c, hsynced⟩ := h.synced
  refine ⟨hline, hsame.linked.trans h.linked, h.sendable, ⟨c, ?_⟩, ?_⟩
  · rw [hsame.master, hsame.slave]
    exact hsynced
  · rw [hsame.attached, hsame.mcomm]
    exact h.heard

/-- With nothing under way to the slave, the timer may also open the connection. -/
lemma Line.timer_open (hS : cfgS.master_auth = []) (h : Line id d []) (late links uninit₁ uninit₂ : Bool) :
    ∃ d', d.slaveTimer cfgS true late links uninit₁ uninit₂ = d' ∧ Line id d' [] ∧
      d'.master = d.master ∧ d'.slave = d.slave ∧
      (d'.attached = d.attached ∧ d'.mcomm = d.mcomm ∧ d'.linked = d.linked ∨ d'.attached = []) := by
  refine ⟨_, rfl, ?_⟩
  by_cases hlinked : d.linked = true
  · obtain ⟨hline, hsame⟩ := h.timer hS hlinked late links uninit₁ uninit₂
    exact ⟨hline, hsame.master, hsame.slave, Or.inl ⟨hsame.attached, hsame.mcomm, hsame.linked⟩⟩
  unfold Dialogue.slaveTimer
  rw [if_neg fun hand => hlinked hand.2]
  dsimp only
  obtain ⟨d₁, hd₁, hline, hends⟩ : ∃ d₁,
      (if d.status = .AUTH ∨ d.status = .WAIT then { d with status := .CONTINUE } else d) = d₁ ∧
        Line id d₁ [] ∧ SameEnds d d₁ := by
    refine ⟨_, rfl, ?_⟩
    split_ifs
    · exact ⟨h.setStatus _, rfl, rfl, rfl, rfl, rfl⟩
    · exact ⟨h, rfl, rfl, rfl, rfl, rfl⟩
  rw [hd₁, if_neg (hends.linked ▸ hlinked)]
  split_ifs
  · have hlink : Line id (d₁.link uninit₁ uninit₂) [] :=
      ⟨hline.name, ⟨rfl, ⟨rfl, rfl⟩, rfl⟩, rfl, by simp [Dialogue.link], fun _ => rfl, rfl, by simp⟩
    obtain ⟨hasked, hsame⟩ := hlink.ask hS rfl
    exact ⟨hasked, hsame.master.trans hends.master, hsame.slave.trans hends.slave,
      Or.inr hsame.attached⟩
  · exact ⟨hline, hends.master, hends.slave, Or.inl ⟨hends.attached, hends.mcomm, hends.linked⟩⟩

/-- Before the slave is known, the connection may still be opened. -/
lemma Before.timer (hS : cfgS.master_auth = []) (h : Before id d a) (late links uninit₁ uninit₂ : Bool) :
    Before id (d.slaveTimer cfgS true late links uninit₁ uninit₂) a := by
  obtain ⟨d', rfl, hline, hmaster, hslave, hattached⟩ :=
    h.line.timer_open hS late links uninit₁ uninit₂
  refine ⟨hline, hmaster ▸ h.unknown, hmaster ▸ h.master, h.permanent, h.sendable, hslave ▸ h.slave, ?_⟩
  rcases hattached with ⟨hsame, -⟩ | hnone
  · exact hsame.trans h.attached
  · exact hnone

/-! ### The master reads a word -/

lemma wordText_ne_nil (id : ServerId) (word : Word) : wordText id word ≠ [] := by
  rw [wordText_eq]
  exact List.cons_ne_nil _ _

/-- The state after the master has heard a word, with the table of its slaves. -/
def afterWord (id : ServerId) (d : Dialogue) (word : Word) (m : GentRepMgr) (rest : List Str) : Dialogue :=
  { d with
    master := { d.master with master := m.setConn id.text true }
    mcomm := d.mcomm.heard id word .CONN_READ
    attached := id.text :: d.attached
    toMaster := rest }

lemma Line.masterRead (hM : cfgM.master_auth = []) (h : Line id d bs) {rest : List Str}
    (hms : d.toMaster = wordText id word :: rest) (hsent : w.sent = true) {m : GentRepMgr}
    (hget : d.master.master.get ⟨d.master.db, w.now, w.uninit, w.id⟩ w.junk id.text true = (some e, m)) :
    d.step cfgM cfgS true (.masterRead w (wordText id word).length) = some (afterWord id d word m rest) ∧
      Line id (afterWord id d word m rest) bs := by
  have hne : ∀ m ∈ d.toMaster, m ≠ [] := by
    intro m hm
    obtain ⟨word, rfl⟩ := h.words m hm
    exact wordText_ne_nil id word
  obtain ⟨m₁, rest₁, hms₁, hdata, hrest⟩ := Dialogue.read_head hne (by rw [hms]; rfl)
  obtain ⟨rfl, rfl⟩ := List.cons.inj (hms.symm.trans hms₁)
  rw [← h.all] at hget
  constructor
  · simp only [Dialogue.step, hdata, if_neg (wordText_ne_nil id word), react_word hM hsent hget,
      Option.map_some, hrest]
    simp [afterWord, emitted]
  · refine ⟨h.name, h.listens, h.all, fun m hm => h.words m ?_, fun _ => h.linked ?_, h.batches,
      h.deliverable⟩
    · rw [hms]
      exact List.mem_cons_of_mem _ hm
    · rw [hms]
      exact List.cons_ne_nil _ _

/-- **The slave is registered** when its first word arrives. -/
lemma Before.masterRead (hM : cfgM.master_auth = []) (h : Before id d a) {rest : List Str}
    (hms : d.toMaster = wordText id word :: rest) (hsent : w.sent = true) (cfgS : Config) :
    ∃ d' e, d.step cfgM cfgS true (.masterRead w (wordText id word).length) = some d' ∧
      Following id d' a [] e ∧ d.master.Attends id.text d'.master := by
  obtain ⟨e, m, hget, hsynced, hattends⟩ :=
    h.unknown.get h.master h.permanent h.sendable h.slave w
  obtain ⟨hstep, hline⟩ := h.line.masterRead hM hms hsent hget
  exact ⟨_, _, hstep, ⟨hline, h.line.linked (by rw [hms]; simp), h.sendable,
    ⟨_, hsynced.setConn⟩, fun _ => ⟨rfl, word, rfl⟩⟩, hattends.setConn true⟩

lemma Following.masterRead (hM : cfgM.master_auth = []) (h : Following id d a bs e) {rest : List Str}
    (hms : d.toMaster = wordText id word :: rest) (hsent : w.sent = true) (cfgS : Config) :
    d.step cfgM cfgS true (.masterRead w (wordText id word).length)
        = some (afterWord id d word d.master.master rest) ∧
      Following id (afterWord id d word d.master.master rest) a bs
        ⟨e.slot, { e.rep with conn := true }⟩ := by
  obtain ⟨c, hsynced⟩ := h.synced
  have hget : d.master.master.get ⟨d.master.db, w.now, w.uninit, w.id⟩ w.junk id.text true
      = (some e, d.master.master) := by
    rw [GentRepMgr.get, show d.master.master.rep_list[id.text]? = some e from hsynced.registered]
  obtain ⟨hstep, hline⟩ := h.line.masterRead hM hms hsent hget
  exact ⟨hstep, hline, h.linked, h.sendable, ⟨c, hsynced.setConn⟩, fun _ => ⟨rfl, word, rfl⟩⟩

/-! ### `MasterHandle` -/

lemma Following.masterHandle (h : Following id d a bs e) {name : Str} (hname : name ∈ d.attached)
    (hmsg : d.mcomm.repmsg = word.text) (cfgM cfgS : Config) (w : World) :
    ∃ b sv e', d.step cfgM cfgS true (.masterHandle w name)
        = some { d with master := sv, toSlave := d.toSlave ++ b.sent.map Batch.outstr } ∧
      Following id { d with master := sv, toSlave := d.toSlave ++ b.sent.map Batch.outstr } a
        (bs ++ b.sent) e' ∧
      sv.db = d.master.db ∧ Step word e.rep e'.rep b ∧ d.master.Attends id.text sv ∧
      ∃ p q k n, StartStep (d.master.master.load e) d.master.db w.now word.text e'.rep b p q k n := by
  obtain ⟨c, hsynced⟩ := h.synced
  obtain ⟨hkey, -⟩ := h.heard (List.ne_nil_of_mem hname)
  obtain ⟨b, idle, sv, e', hhandle, hdb, hsynced', hstep, hattends, hst⟩ :=
    hsynced.handle h.sendable hkey hmsg w
  refine ⟨b, sv, e', ?_, ⟨?_, h.linked, h.sendable, ⟨c, hsynced'⟩, h.heard⟩, hdb, hstep, hattends, hst⟩
  · simp only [Dialogue.step, if_pos hname, hhandle, hstep.message]
  · refine ⟨h.line.name, h.line.listens, h.line.all, h.line.words, h.line.linked, ?_, fun b' hb' => ?_⟩
    · rw [List.map_append, h.line.batches]
    · rcases List.mem_append.mp hb' with hb' | hb'
      · exact h.line.deliverable b' hb'
      · exact hstep.deliverable b' hb'

/-! ### The slave reads a batch -/

lemma Following.slaveRead {b : Batch} (h : Following id d a (b :: bs) e) (hw : w.Fair latest)
    (cfgM cfgS : Config) :
    ∃ d', d.step cfgM cfgS true (.slaveRead w b.outstr.length) = some d' ∧ Following id d' a bs e ∧
      d'.master = d.master ∧ d'.toMaster = d.toMaster ++ [wordText id .ok] ∧
      d'.toSlave = bs.map Batch.outstr := by
  obtain ⟨c, hsynced⟩ := h.synced
  have hb := h.line.deliverable b List.mem_cons_self
  obtain ⟨z, c', hreact, hout, hid, hlistens, hsynced'⟩ :
      ∃ z c', Session.react cfgS true w d.slave d.scomm b.outstr = some z ∧ _ :=
    hsynced.receive hb hw h.line.listens cfgS
  have hne : ∀ m ∈ d.toSlave, m ≠ [] := by
    intro m hm
    rw [h.line.batches] at hm
    obtain ⟨b', hb', rfl⟩ := List.mem_map.mp hm
    exact (h.line.deliverable b' hb').outstr_ne_nil
  obtain ⟨m, rest, hms, hdata, hrest⟩ := Dialogue.read_head hne
    (by rw [h.line.batches]; rfl : d.toSlave.head?.map List.length = some b.outstr.length)
  obtain ⟨rfl, rfl⟩ := List.cons.inj ((h.line.batches.symm.trans hms).symm)
  have hemitted : emitted z.out = [wordText id .ok] := by
    have hok : z.out = wordText id .ok := by rw [hout, h.line.name]; rfl
    rw [hok, emitted_of_ne_nil (wordText_ne_nil id .ok)]
  have hstep : d.step cfgM cfgS true (.slaveRead w b.outstr.length) = some
      { d with
        slave := z.server
        scomm := { z.comm with slave_continue := false }
        status := if z.comm.slave_continue then .CONTINUE else d.status
        toSlave := bs.map Batch.outstr
        toMaster := d.toMaster ++ [wordText id .ok] } := by
    simp only [Dialogue.step, hdata, if_neg hb.outstr_ne_nil, closes_of_react hreact, Bool.false_eq_true,
      if_false, hreact, Option.map_some, hrest, hemitted]
  refine ⟨_, hstep, ⟨⟨hid.trans h.line.name, ⟨hlistens.auth, hlistens.idle, hlistens.none⟩, h.line.all,
    fun m hm => ?_, fun _ => h.linked, rfl, fun b' hb' => ?_⟩, h.linked, h.sendable, ⟨c', hsynced'⟩,
    h.heard⟩, rfl, rfl, rfl⟩
  · rcases List.mem_append.mp hm with hm | hm
    · exact h.line.words m hm
    · exact ⟨.ok, List.mem_singleton.mp hm⟩
  · exact h.line.deliverable b' (List.mem_cons_of_mem b hb')

/-! ### Every step -/

/-- A read of one message finds one. -/
lemma exists_head {ms : List Str} {size : ℕ} (h : ms.head?.map List.length = some size) :
    ∃ m rest, ms = m :: rest ∧ m.length = size := by
  cases ms with
  | nil => cases h
  | cons m rest => exact ⟨m, rest, rfl, Option.some.inj h⟩

/-- **A step that meets the condition can be taken, and keeps the invariant.** -/
lemma Inv.step (hM : cfgM.master_auth = []) (hS : cfgS.master_auth = []) (h : Inv id d) {ev : Ev}
    (horderly : Orderly d ev) (hproper : ev.Proper cfgM latest) :
    ∃ d', step cfgM cfgS d ev = some d' ∧ Inv id d' := by
  obtain ⟨a, h⟩ := h
  have hline : ∃ bs, Line id d bs := by
    rcases h with h | ⟨bs, e, h⟩
    · exact ⟨[], h.line⟩
    · exact ⟨bs, h.line⟩
  cases ev with
  | request w comm name o =>
      obtain ⟨hw, hcomm, hwf, ho⟩ := hproper
      obtain ⟨hm, hp, hs⟩ : Refines d.master.db a ∧ Permanent a ∧ Sendable a := by
        rcases h with h | ⟨bs, e, h⟩
        · exact ⟨h.master, h.permanent, h.sendable⟩
        · obtain ⟨c, hsynced⟩ := h.synced
          exact ⟨hsynced.inv.master, hsynced.inv.permanent, h.sendable⟩
      obtain ⟨x, hreact, hdb, hwrote⟩ := ho.react_eq hm hp hs hw hwf hcomm
      obtain ⟨hperm, hsend⟩ := ho.spec hp hs ⟨w.now, w.now⟩
      refine ⟨{ d with master := x.server }, by simp only [Replica.step, hreact, Option.map_some],
        (o.spec a ⟨w.now, w.now⟩).2, ?_⟩
      rcases h with h | ⟨bs, e, h⟩
      · exact Or.inl (h.wrote hdb hperm hsend hwrote)
      · obtain ⟨e', hfollow, -⟩ := h.wrote hdb hperm hsend hwrote
        exact Or.inr ⟨bs, e', hfollow⟩
  | talk ev =>
      cases ev with
      | timer late links uninit₁ uninit₂ =>
          rcases h with h | ⟨bs, e, h⟩
          · exact ⟨_, rfl, a, Or.inl (h.timer hS late links uninit₁ uninit₂)⟩
          · exact ⟨_, rfl, a, Or.inr ⟨bs, e, h.timer hS late links uninit₁ uninit₂⟩⟩
      | masterRead w size =>
          obtain ⟨m, rest, hms, rfl⟩ := exists_head horderly
          obtain ⟨bs, hline⟩ := hline
          obtain ⟨word, rfl⟩ := hline.words m (by rw [hms]; exact List.mem_cons_self)
          rcases h with h | ⟨bs, e, h⟩
          · obtain ⟨d', e, hstep, hfollow, -⟩ := h.masterRead hM hms hproper cfgS
            exact ⟨d', hstep, a, Or.inr ⟨[], e, hfollow⟩⟩
          · obtain ⟨hstep, hfollow⟩ := h.masterRead hM hms hproper cfgS
            exact ⟨_, hstep, a, Or.inr ⟨bs, _, hfollow⟩⟩
      | masterHandle w name =>
          rcases h with h | ⟨bs, e, h⟩
          · rw [Orderly, h.attached] at horderly
            cases horderly
          · obtain ⟨-, word, hmsg⟩ := h.heard (List.ne_nil_of_mem horderly)
            obtain ⟨b, sv, e', hstep, hfollow, -⟩ := h.masterHandle horderly hmsg cfgM cfgS w
            exact ⟨_, hstep, a, Or.inr ⟨_, e', hfollow⟩⟩
      | slaveRead w size =>
          have hsize : d.toSlave.head?.map List.length = some size := horderly
          rcases h with h | ⟨bs, e, h⟩
          · rw [h.line.batches] at hsize
            cases hsize
          · cases bs with
            | nil =>
                rw [h.line.batches] at hsize
                cases hsize
            | cons b bs =>
                rw [h.line.batches] at hsize
                obtain rfl : b.outstr.length = size := Option.some.inj hsize
                obtain ⟨d', hstep, hfollow, -⟩ := h.slaveRead hproper cfgM cfgS
                exact ⟨d', hstep, a, Or.inr ⟨bs, e, hfollow⟩⟩
      | close => exact hproper.elim
      | masterOther db mgr => exact hproper.elim
      | slaveOther db mgr => exact hproper.elim

/-! ## What the slave has -/

/-- A batch that does not name the key leaves it alone. -/
lemma foldl_replay {k : Str} (c : ExpMap Str Str) (hbs : ∀ b ∈ bs, ∀ it ∈ b.items, it.name ≠ k) :
    bs.foldl Batch.replay c k = c k := by
  induction bs generalizing c with
  | nil => rfl
  | cons b bs ih =>
      rw [List.foldl_cons, ih _ fun b' hb' => hbs b' (List.mem_cons_of_mem b hb')]
      have hb := hbs b List.mem_cons_self
      cases b with
      | text t => rfl
      | add it nr expire => rfl
      | del it => exact Function.update_of_ne (Ne.symm (hb it (List.mem_singleton_self it))) ..
      | mset items =>
          refine ExpMap.bindList_of_notMem (fun hk => ?_) c
          rw [List.map_map] at hk
          obtain ⟨p, hp, hname⟩ := List.mem_map.mp hk
          exact hb p.1 (List.mem_map_of_mem hp) hname

/-- **A key for which nothing is queued or under way** is the same on both sides. -/
lemma Following.fresh (h : Following id d a bs e) {k : Str}
    (hqueue : ∀ it ∈ e.rep.pending, it.name = k → it.is_sync = true)
    (hbs : ∀ b ∈ bs, ∀ it ∈ b.items, it.name ≠ k) (now : ℕ) :
    d.slave.db.get now k = d.master.db.get now k := by
  obtain ⟨c, hsynced⟩ := h.synced
  have hsame : c k = a k := by
    rcases hsynced.inv.agree k with ⟨it, hit, hname, hsync⟩ | hagree
    · rw [hqueue it hit hname] at hsync
      cases hsync
    · exact (foldl_replay c hbs).symm.trans hagree
  have hslave : Refines d.slave.db c := hsynced.inv.slave
  have hmaster : Refines d.master.db a := hsynced.inv.master
  rw [hslave.get, hmaster.get, ExpMap.visible, ExpMap.visible, hsame]

/-- Nothing is queued or under way: the stores are the same. -/
lemma Following.drained (h : Following id d a [] e) (hpend : e.rep.pending = []) :
    d.slave.db.db = d.master.db.db ∧ ∀ now k, d.slave.db.get now k = d.master.db.get now k := by
  refine ⟨?_, fun now k => h.fresh (by simp [hpend]) (by simp) now⟩
  obtain ⟨c, hsynced⟩ := h.synced
  have hslave : Refines d.slave.db c := hsynced.inv.slave
  exact hsynced.inv.master.db_eq (hsynced.inv.eq_of_drained hpend rfl ▸ hslave)

/-! ## Exchanges -/

/-- An exchange: the master reads what the slave says and answers it, and the slave reads the answer, if
there is one. -/
def exchange (cfgM cfgS : Config) (id : ServerId) (wM wS : World) (d : Dialogue) : Option Dialogue :=
  (d.step cfgM cfgS true (.masterRead wM (d.toMaster.head?.getD []).length)).bind fun d₁ =>
    (d₁.step cfgM cfgS true (.masterHandle wM id.text)).bind fun d₂ =>
      if d₂.toSlave = [] then some d₂
      else d₂.step cfgM cfgS true (.slaveRead wS (d₂.toSlave.head?.getD []).length)

/-- Several of them, each with what the two machines meet. -/
def exchanges (cfgM cfgS : Config) (id : ServerId) : ℕ → (ℕ → World × World) → Dialogue → Option Dialogue
  | 0, _, d => some d
  | n + 1, ws, d =>
      (exchange cfgM cfgS id (ws 0).1 (ws 0).2 d).bind
        (exchanges cfgM cfgS id n fun i => ws (i + 1))

lemma sent_cases (b : Batch) : b.sent = [] ∨ b.sent = [b] := by
  cases b with
  | text t => exact Or.inl rfl
  | _ => exact Or.inr rfl

/-- The end of an exchange: the slave carries the batch out and acknowledges it, if there is one. -/
lemma Following.answered {b : Batch} (h : Following id d a b.sent e) (hto : d.toMaster = []) {wS : World}
    (hw : wS.Fair latest) (cfgM cfgS : Config) :
    ∃ d', (if d.toSlave = [] then some d
        else d.step cfgM cfgS true (.slaveRead wS (d.toSlave.head?.getD []).length)) = some d' ∧
      Following id d' a [] e ∧ d'.master = d.master ∧ d'.toMaster = b.sent.map fun _ => wordText id .ok := by
  have hbatches : d.toSlave = b.sent.map Batch.outstr := h.line.batches
  rcases sent_cases b with hnone | hone
  · rw [hnone] at h hbatches ⊢
    exact ⟨d, if_pos hbatches, h, rfl, hto⟩
  · rw [hone] at h hbatches ⊢
    obtain ⟨d', hread, h', hmaster, hto', -⟩ := h.slaveRead hw cfgM cfgS
    refine ⟨d', ?_, h', hmaster, ?_⟩
    · rw [hbatches]
      exact (if_neg (List.cons_ne_nil _ _)).trans hread
    · rw [hto', hto]
      rfl

/-- **An exchange**, when the master has read and answered: the slave follows, with nothing under way but its
acknowledgement. -/
lemma exchange_answered {wM wS : World} {d₁ d₂ : Dialogue} {e₂ : Registered} {b : Batch}
    (hms : d.toMaster = [wordText id word])
    (hread : d.step cfgM cfgS true (.masterRead wM (wordText id word).length) = some d₁)
    (hhandle : d₁.step cfgM cfgS true (.masterHandle wM id.text) = some d₂)
    (h₂ : Following id d₂ a b.sent e₂) (hto : d₂.toMaster = []) (hdb : d₂.master.db = d.master.db)
    (hstep : Step word { e.rep with conn := true } e₂.rep b) (hw : wS.Fair latest) :
    ∃ d' e' b, exchange cfgM cfgS id wM wS d = some d' ∧ Following id d' a [] e' ∧
      d'.master.db = d.master.db ∧ Step word e.rep e'.rep b ∧
      d'.toMaster = b.sent.map fun _ => wordText id .ok := by
  have hhead : d.toMaster.head?.getD [] = wordText id word := by
    rw [hms]
    rfl
  obtain ⟨d', hanswer, h₃, hmaster, hto'⟩ := h₂.answered hto hw cfgM cfgS
  refine ⟨d', e₂, b, ?_, h₃, ?_, ⟨hstep.deliverable, hstep.message, hstep.idle, hstep.awaits,
    hstep.shorter, hstep.acknowledged⟩, hto'⟩
  · rw [Replica.exchange, hhead, hread, Option.bind_some, hhandle, Option.bind_some]
    exact hanswer
  · rw [hmaster]
    exact hdb

/-- **One exchange**: a batch is sent, carried out and acknowledged, or there is none. -/
lemma Following.exchange (hM : cfgM.master_auth = []) (h : Following id d a [] e)
    (hms : d.toMaster = [wordText id word]) {wM wS : World} (hsent : wM.sent = true)
    (hw : wS.Fair latest) (cfgS : Config) :
    ∃ d' e' b, exchange cfgM cfgS id wM wS d = some d' ∧ Following id d' a [] e' ∧
      d'.master.db = d.master.db ∧ Step word e.rep e'.rep b ∧
      d'.toMaster = b.sent.map fun _ => wordText id .ok := by
  obtain ⟨hread, h₁⟩ := h.masterRead hM hms hsent cfgS
  obtain ⟨b, sv, e₂, hhandle, h₂, hdb, hstep, -⟩ :=
    h₁.masterHandle (List.mem_cons_self : id.text ∈ (afterWord id d word d.master.master []).attached)
      rfl cfgM cfgS wM
  exact exchange_answered hms hread hhandle h₂ rfl hdb hstep hw

/-- **The slave has caught up** with what the master had at `d`. -/
def CaughtUp (id : ServerId) (d d' : Dialogue) : Prop :=
  d'.master.db = d.master.db ∧ d'.toMaster = [] ∧
    ∃ a e, Following id d' a [] e ∧ e.rep.pending = []

/-- While acknowledgements are under way, every exchange makes the queue shorter. -/
lemma Following.catchUp (hM : cfgM.master_auth = []) (cfgS : Config) (n : ℕ) {ws : ℕ → World × World}
    (hws : ∀ i, (ws i).1.sent = true ∧ (ws i).2.Fair latest) (h : Following id d a [] e)
    (hms : d.toMaster = [wordText id .ok]) (hstatus : e.rep.status = 1)
    (hlen : e.rep.pending.length ≤ n) :
    ∃ m ≤ n, ∃ d', exchanges cfgM cfgS id m ws d = some d' ∧ CaughtUp id d d' := by
  induction n generalizing ws d e with
  | zero =>
      obtain ⟨c, hsynced⟩ := h.synced
      obtain ⟨it, hit, -⟩ := hsynced.flagged hstatus
      have := List.length_pos_of_mem hit
      omega
  | succ n ih =>
      obtain ⟨d₁, e₁, b, hex, h₁, hdb, hstep, hto⟩ := h.exchange hM hms (hws 0).1 (hws 0).2 cfgS
      have hshorter := hstep.acknowledged rfl hstatus
      rcases sent_cases b with hnone | hone
      · rw [hnone] at hto
        refine ⟨1, by omega, d₁, ?_, hdb, hto, a, e₁, h₁, hstep.idle hnone⟩
        rw [exchanges, hex]
        rfl
      · rw [hone] at hto
        obtain ⟨m, hm, d', hexs, hdb', hto', hend⟩ := ih (fun i => hws (i + 1)) h₁ hto
          (hstep.awaits (by rw [hone]; simp)) (by omega)
        refine ⟨m + 1, by omega, d', ?_, hdb'.trans hdb, hto', hend⟩
        rw [exchanges, hex]
        exact hexs

/-- The first exchange after the slave has asked need not make it shorter. -/
lemma Following.catchUp_next (hM : cfgM.master_auth = []) (cfgS : Config) {ws : ℕ → World × World}
    (hws : ∀ i, (ws i).1.sent = true ∧ (ws i).2.Fair latest) {d₁ : Dialogue} {e₁ : Registered} {b : Batch}
    (h₁ : Following id d₁ a [] e₁) (hex : Replica.exchange cfgM cfgS id (ws 0).1 (ws 0).2 d = some d₁)
    (hdb : d₁.master.db = d.master.db) (hstep : Step .data e.rep e₁.rep b)
    (hto : d₁.toMaster = b.sent.map fun _ => wordText id .ok) :
    ∃ m ≤ e.rep.pending.length + 1, ∃ d', exchanges cfgM cfgS id m ws d = some d' ∧ CaughtUp id d d' := by
  rcases sent_cases b with hnone | hone
  · rw [hnone] at hto
    refine ⟨1, by omega, d₁, ?_, hdb, hto, a, e₁, h₁, hstep.idle hnone⟩
    rw [exchanges, hex]
    rfl
  · rw [hone] at hto
    obtain ⟨m, hm, d', hexs, hdb', hto', hend⟩ := h₁.catchUp hM cfgS e.rep.pending.length
      (fun i => hws (i + 1)) hto (hstep.awaits (by rw [hone]; simp)) hstep.shorter
    refine ⟨m + 1, by omega, d', ?_, hdb'.trans hdb, hto', hend⟩
    rw [exchanges, hex]
    exact hexs

lemma Following.catchUp_asked (hM : cfgM.master_auth = []) (cfgS : Config) {ws : ℕ → World × World}
    (hws : ∀ i, (ws i).1.sent = true ∧ (ws i).2.Fair latest) (h : Following id d a [] e)
    (hms : d.toMaster = [wordText id .data]) :
    ∃ m ≤ e.rep.pending.length + 1, ∃ d', exchanges cfgM cfgS id m ws d = some d' ∧ CaughtUp id d d' := by
  obtain ⟨d₁, e₁, b, hex, h₁, hdb, hstep, hto⟩ := h.exchange hM hms (hws 0).1 (hws 0).2 cfgS
  exact h₁.catchUp_next hM cfgS hws hex hdb hstep hto

/-- What that means. -/
lemma CaughtUp.stores {d' : Dialogue} (h : CaughtUp id d d') :
    d'.toMaster = [] ∧ d'.toSlave = [] ∧ d'.master.db = d.master.db ∧ d'.slave.db.db = d.master.db.db ∧
      ∀ now k, d'.slave.db.get now k = d.master.db.get now k := by
  obtain ⟨hdb, hto, a, e, hend, hpend⟩ := h
  obtain ⟨hsame, hget⟩ := hend.drained hpend
  refine ⟨hto, hend.line.batches, hdb, hdb ▸ hsame, fun now k => ?_⟩
  rw [hget, hdb]

end Steps

/-! ## The results -/

/-- A master that may get a new slave: its keys have no expiry and can be sent, it does not know the slave
but has room for it, and neither has a password for the other. -/
structure Prepared (cfgM cfgS : Config) (id : ServerId) (master : Server) : Prop where
  openM : cfgM.master_auth = []
  openS : cfgS.master_auth = []
  store : ∃ a, Refines master.db a ∧ Permanent a ∧ Sendable a
  unknown : Unknown id.text master.master

section Results

variable {cfgM cfgS : Config} {id : ServerId} {master : Server} {latest : ℕ} {es : List Ev}

/-- Nothing has happened yet. -/
lemma Before.start {a : ExpMap Str Str} (hm : Refines master.db a) (hp : Permanent a) (hs : Sendable a)
    (hunknown : Unknown id.text master.master) (mgr : GentRepMgr) :
    Before id (.start master id .empty mgr) a :=
  ⟨⟨rfl, ⟨rfl, ⟨rfl, rfl⟩, rfl⟩, rfl, by simp [Dialogue.start], by simp [Dialogue.start], rfl, by simp⟩,
    hunknown, hm, hp, hs, Refines.empty, rfl⟩

lemma Prepared.run (h : Prepared cfgM cfgS id master) (mgr : GentRepMgr)
    (hproper : ∀ ev ∈ es, ev.Proper cfgM latest)
    (horderly : Transition.Along (step cfgM cfgS) Orderly (.start master id .empty mgr) es) :
    ∃ d, Transition.run (step cfgM cfgS) (.start master id .empty mgr) es = some d ∧ Inv id d := by
  obtain ⟨a, hm, hp, hs⟩ := h.store
  exact Transition.run_of_step (fun _ _ hinv hev => hinv.step h.openM h.openS hev.1 hev.2) es
    ⟨a, Or.inl (.start hm hp hs h.unknown mgr)⟩ (horderly.and hproper)

/-- A master with one key, and an empty slave that connects, asks, and gets the key; meanwhile a client
stores another one, and the slave asks again. -/
def secondKey : List Ev :=
  [.talk (.timer false true false false), .talk (.timer false true false false),
    .talk (.masterRead quietWorld 38), .talk (.masterHandle quietWorld Dialogue.slaveId.text),
    .talk (.slaveRead quietWorld 28), .request quietWorld newRedis (lit "set") (.set (lit "j") (lit "w")),
    .talk (.masterRead quietWorld 36), .talk (.timer true true false false),
    .talk (.timer false true false false)]

lemma prepared_oneKey :
    Prepared openConfig openConfig Dialogue.slaveId (keyServer (lit "k") (lit "v")) := by
  refine ⟨rfl, rfl, ⟨ExpMap.empty.bind (lit "k") (lit "v") 0, ?_, ?_, ?_⟩, ?_, ?_, ?_⟩
  · exact Refines.empty.put (d := 1) (by decide) (Or.inl rfl) 1000000000 (lit "k") (lit "v")
  · exact Permanent.bind (fun _ _ _ hk => by cases hk) _ _
  · exact Sendable.bind (fun _ _ _ hk => by cases hk) (by decide) (by decide) 0
  · decide +kernel
  · decide +kernel
  · decide +kernel

lemma proper_secondKey : ∀ ev ∈ secondKey, ev.Proper openConfig 1000000000 := by
  have hset : (Ev.request quietWorld newRedis (lit "set") (.set (lit "j") (lit "w"))).Proper openConfig
      1000000000 :=
    ⟨⟨rfl, rfl, by decide, le_rfl⟩, ⟨Or.inr rfl, ⟨rfl, rfl⟩, rfl⟩,
      ⟨rfl, ⟨by decide, by decide, by decide⟩, trivial⟩, by decide⟩
  have hworld : quietWorld.Fair 1000000000 := ⟨rfl, rfl, by decide, le_rfl⟩
  intro ev hev
  simp only [secondKey, List.mem_cons, List.not_mem_nil, or_false] at hev
  rcases hev with rfl | rfl | rfl | rfl | rfl | rfl | rfl | rfl | rfl
  all_goals first | exact hset | exact hworld | exact rfl | trivial

/-- The slave has the first key, and the second one is queued. -/
lemma end_secondKey :
    ((Transition.run (step openConfig openConfig)
        (.start (keyServer (lit "k") (lit "v")) Dialogue.slaveId .empty .emptyMgr) secondKey).bind fun d =>
      d.master.master.rep_list[Dialogue.slaveId.text]?.map fun e =>
        (e.rep.pending, d.toMaster, d.toSlave))
      = some ([⟨0, lit "k", .ADD, true⟩, ⟨0, lit "j", .ADD, false⟩], [slaveData Dialogue.slaveId.text],
        []) := by
  decide +kernel

lemma orderly_secondKey : Transition.Along (step openConfig openConfig) Orderly
    (.start (keyServer (lit "k") (lit "v")) Dialogue.slaveId .empty .emptyMgr) secondKey := by
  decide +kernel

/-- Both machines work. -/
def quietWorlds : ℕ → World × World := fun _ => (quietWorld, quietWorld)

end Results

end Replica

end Riser
