import Riser.Repl.Replica

/-!
# A slave that loses its connection

A connection that breaks takes everything with it that is under way.  The master does not notice which
batches the slave has read, but the entries of a batch stay in the queue until they are acknowledged: after
the slave has connected again and asked, `Start` builds its batch from the front of the queue, flagged or
not.  So **a key without an entry in the queue has the same value on both sides** at any time, however often
the connection has been lost (`Kept.get_eq`), and a slave that has asked again **catches up**
(`Kept.catchUp`).

Two things can go wrong, and both are conditions on the calls of `MasterHandle` (`Careful`).

* An acknowledgement does not say what it acknowledges.  It must not be taken while a batch is under way.
* The batch that is sent again may be smaller than the one that was lost: it ends before a key that has been
  deleted in the meantime.  The entries behind it are still flagged, and the next acknowledgement removes
  them.  So if two entries are flagged, both of their keys must still be there.

While the connection holds, the invariant is that of a slave that follows its master, and what the batches
under way name is queued (`Live`).  When it breaks, `Severed` is left of that: the queue on its own, and the
slave up to the keys in it (`Parted`).  `Kept.talk` is what happens between master and slave, `Kept.wrote`
what the clients do, and `Kept.attends_other` what the master does for another slave.
-/

namespace Riser

open Cpp GentReplication

/-! ## What a batch names -/

section Queue

variable {rep rep' : GentReplication} {db slave : GentDb} {now : ℕ} {msg : Str} {b : Batch}
  {p q : List ItemData} {k n : ℕ}

/-- Flags are not names. -/
lemma GentReplication.StartStep.names (h : StartStep rep db now msg rep' b p q k n) :
    rep'.pending.map (·.name) = q.map (·.name) := by
  have hflag : (fun it : ItemData => it.name) ∘ ItemData.setSync = fun it => it.name := rfl
  rw [h.after, List.map_append, List.map_map, hflag, ← List.map_append, List.take_append_drop]

/-- Without an acknowledgement every entry stays. -/
lemma GentReplication.StartStep.kept (h : StartStep rep db now msg rep' b p q k n)
    (hack : ¬ (rep.status = 1 ∧ msg = lit "ok")) : rep.pending = q := by
  have hp : p = [] := by
    by_contra hne
    exact hack (h.acked hne)
  rw [h.split, hp, List.nil_append]

/-- **A batch that is sent again** covers the entries that are flagged: there are two at most, and if there
are two, their keys must be there. -/
lemma GentReplication.StartStep.resent (h : StartStep rep db now msg rep' b p q k n)
    (hname : ∀ it ∈ q, it.name ≠ [])
    (hplain : (∃ it ∈ q.drop 1, it.is_sync = true) → ∀ it ∈ q.take 2, plain db it = true) :
    ∀ it ∈ q, it.is_sync = true → it ∈ b.items := by
  intro it hit hsync
  rcases h.batch with ⟨rfl, -⟩ | ⟨-, hn, hnk, hk, -, hb⟩
  · cases hit
  rw [← List.take_append_drop n q] at hit
  rcases List.mem_append.mp hit with hit | hit
  · exact h.covers it hit (hname it (List.mem_of_mem_take hit))
  -- a flag behind the covered part is in the second entry
  have hfront : it ∉ q.drop k := by
    intro hmem
    rw [h.waiting it hmem] at hsync
    cases hsync
  have hnk' : n ≠ k := by
    rintro rfl
    exact hfront hit
  obtain ⟨rfl, rfl⟩ : n = 1 ∧ k = 2 := by
    simp only [syncNum] at hk
    omega
  obtain ⟨vs, hvs, hres⟩ := batchLoop_plain now (d := q.take 2)
    (fun x hx => ⟨hplain ⟨it, hit, hsync⟩ x hx, hname x (List.mem_of_mem_take hx)⟩) []
  have hitems := (Prod.mk.inj (Except.ok.inj (hres.symm.trans hb))).2
  rw [← hitems, Batch.items, List.nil_append, hvs]
  have hmem : it ∈ q.take 2 ++ q.drop 2 := by
    rw [List.take_append_drop]
    exact List.mem_of_mem_drop hit
  exact (List.mem_append.mp hmem).resolve_right hfront

/-- What a batch names is queued. -/
lemma SyncInv.items_queued {a c : ExpMap Str Str} {bs : List Batch} {word : Word}
    (h : SyncInv ⟨db, rep, 0, bs, slave⟩ a c) (hst : StartStep rep db now word.text rep' b p q k n) :
    ∀ it ∈ b.items, it.name ∈ rep'.pending.map (·.name) := by
  have hq : ∀ it ∈ q.take k, it ∈ q := fun it hit => List.mem_of_mem_take hit
  have hname : ∀ it ∈ q.take k, it.name ≠ [] := by
    intro it hit
    refine h.named it ?_
    show it ∈ rep.pending
    rw [hst.split]
    exact List.mem_append_right p (hq it hit)
  rw [hst.names]
  intro it hit
  refine List.mem_map_of_mem ?_
  rcases hst.batch with ⟨-, rfl⟩ | ⟨hne, hn, hnk, -, -, hb⟩
  · cases hit
  have hd : q.take k ≠ [] := by
    have hk0 : k ≠ 0 := by omega
    simp [hk0, hne]
  rcases batchLoop_permanent h.master h.permanent hname hd hb with
    ⟨it', rest, hcons, -, rfl, -⟩ | ⟨m, items, -, -, rfl, hfst, -⟩
  · obtain rfl := List.mem_singleton.mp hit
    exact hq it (by rw [hcons]; exact List.mem_cons_self)
  · rw [Batch.items, hfst] at hit
    exact hq it (List.mem_of_mem_take hit)

end Queue

/-! ## What is left of a connection -/

section Severed

variable {name : Str} {sv : Server} {a c : ExpMap Str Str} {bs : List Batch} {slave : GentDb}
  {e : Registered}

/-- What is under way, and to whom, does not matter for the queue. -/
lemma Synced.own (h : Synced name sv a bs slave c e) : Synced name sv a [] sv.db a e := by
  refine ⟨h.registered, ⟨h.inv.master, h.inv.master, h.inv.permanent, h.inv.permanent, by simp, h.inv.queues,
    h.inv.running, h.inv.unnamed, h.inv.named, h.inv.settled, h.inv.alone, fun _ => Or.inr rfl⟩,
    h.portable, h.flagged⟩

/-- What the master does for another slave. -/
lemma Synced.attends_other {other : Str} {sv' : Server} (h : Synced name sv a bs slave c e)
    (hattends : sv.Attends other sv') (hname : name ≠ other) : Synced name sv' a bs slave c e := by
  refine ⟨(hattends.registered name hname).trans h.registered, ?_, h.portable, h.flagged⟩
  rw [hattends.db]
  exact h.inv

/-- **Nothing is under way, and something may have been lost**: the slave has what the master has, but for
the keys in the queue. -/
structure Severed (name : Str) (sv : Server) (a : ExpMap Str Str) (slave : GentDb) (c : ExpMap Str Str)
    (e : Registered) : Prop where
  own : Synced name sv a [] sv.db a e
  slave : Refines slave c
  permanent : Permanent c
  agree : ∀ k ∉ e.rep.pending.map (·.name), c k = a k

/-- **The connection breaks.** -/
lemma Synced.sever (h : Synced name sv a bs slave c e)
    (hcarried : ∀ b ∈ bs, ∀ it ∈ b.items, it.name ∈ e.rep.pending.map (·.name)) :
    Severed name sv a slave c e := by
  refine ⟨h.own, h.inv.slave, h.inv.permanent', fun k hk => ?_⟩
  have hbs : ∀ b ∈ bs, ∀ it ∈ b.items, it.name ≠ k := by
    rintro b hb it hit rfl
    exact hk (hcarried b hb it hit)
  rcases h.inv.agree k with ⟨it, hit, rfl, -⟩ | hagree
  · exact absurd (List.mem_map_of_mem hit) hk
  · exact (Replica.foldl_replay c hbs).symm.trans hagree

/-- A write on the master. -/
lemma Severed.write (h : Severed name sv a slave c e) {sv' : Server} {a' : ExpMap Str Str} {w : World}
    (hdb : Refines sv'.db a') (hperm : Permanent a') (hwrote : sv.Wrote w sv' a a') :
    ∃ e', Severed name sv' a' slave c e' := by
  obtain ⟨e', hsynced, new, hpend, hother⟩ := h.own.write hdb hperm hwrote
  refine ⟨e', hsynced.own, h.slave, h.permanent, fun k hk => ?_⟩
  rw [hpend, List.map_append, List.mem_append, not_or] at hk
  rw [h.agree k hk.1, hother k hk.2]

/-- What the master does for another slave. -/
lemma Severed.attends_other {other : Str} {sv' : Server} (h : Severed name sv a slave c e)
    (hattends : sv.Attends other sv') (hname : name ≠ other) : Severed name sv' a slave c e :=
  ⟨(h.own.attends_other hattends hname).own, h.slave, h.permanent, h.agree⟩

/-- The master hears from the slave. -/
lemma Severed.setConn {id : ServerId} (h : Severed id.text sv a slave c e) :
    Severed id.text { sv with master := sv.master.setConn id.text true } a slave c
      ⟨e.slot, { e.rep with conn := true }⟩ :=
  ⟨h.own.setConn, h.slave, h.permanent, h.agree⟩

/-- A batch does the same to every map, where it does something. -/
lemma Batch.replay_congr {b : Batch} {k : Str} (hk : k ∈ b.items.map (·.name)) (hb : b.isPlain = true)
    (m m' : ExpMap Str Str) : b.replay m k = b.replay m' k := by
  cases b with
  | text t => cases hb
  | add it nr expire => cases hb
  | del it =>
      obtain rfl : k = it.name := by simpa [Batch.items] using hk
      have hnone : ∀ m : ExpMap Str Str, (Batch.del it).replay m it.name = none := fun m =>
        Function.update_self ..
      rw [hnone, hnone]
  | mset items =>
      refine ExpMap.bindList_congr ?_ m m'
      rw [Batch.items, List.map_map] at hk
      rw [List.map_map]
      exact hk

/-- What `Start` leaves of an entry that its batch does not name. -/
lemma GentReplication.StartStep.waiting_of_notMem {rep rep' : GentReplication} {db : GentDb} {now : ℕ}
    {msg : Str} {b : Batch} {p q : List ItemData} {k n : ℕ}
    (h : StartStep rep db now msg rep' b p q k n) (hname : ∀ it ∈ q, it.name ≠ [])
    (hresent : ∀ it ∈ q, it.is_sync = true → it ∈ b.items) {it : ItemData} (hit : it ∈ q)
    (hnot : it.name ∉ b.items.map (·.name)) : Waiting rep'.pending it.name := by
  have hitems : it ∉ b.items := fun hmem => hnot (List.mem_map_of_mem hmem)
  have hsync : it.is_sync = false := by
    by_contra hflag
    exact hitems (hresent it hit (by simpa using hflag))
  refine ⟨it, ?_, rfl, hsync⟩
  rw [← List.take_append_drop n q] at hit
  rw [h.after]
  rcases List.mem_append.mp hit with hit | hit
  · exact absurd (h.covers it hit (hname it (List.mem_of_mem_take hit))) hitems
  · exact List.mem_append_right _ hit

/-- **The first batch on a new connection** brings master and slave together again. -/
lemma Severed.handle {id : ServerId} {r : GentRedis} (h : Severed id.text sv a slave c e)
    (hsend : Sendable a) (hkey : r.keystr = id.text) (hmsg : r.repmsg = Word.data.text)
    (hcover : (∃ it ∈ e.rep.pending.drop 1, it.is_sync = true) →
      ∀ it ∈ e.rep.pending.take 2, plain sv.db it = true) (w : World) :
    ∃ b idle sv' e', sv.masterHandle w r = .ok (b.outstr, idle, sv') ∧ sv'.db = sv.db ∧
      Synced id.text sv' a b.sent slave c e' ∧ Step .data e.rep e'.rep b ∧ sv.Attends id.text sv' ∧
      ∀ b' ∈ b.sent, ∀ it ∈ b'.items, it.name ∈ e'.rep.pending.map (·.name) := by
  obtain ⟨b, idle, sv', e', hhandle, hdb, hown, hstep, hattends, p, q, k, n, hst⟩ :=
    h.own.handle hsend hkey hmsg w
  rw [List.nil_append] at hown
  have hq : e.rep.pending = q := hst.kept fun hack => absurd hack.2 (by decide)
  have hname : ∀ it ∈ q, it.name ≠ [] := fun it hit => h.own.inv.named it (hq ▸ hit)
  have hqueued := (h.own.inv.setInfo (sv.master.repfile.slot e.slot)).items_queued hst
  have hsent : ∀ b' ∈ b.sent, b' = b := by
    intro b' hb'
    rcases Replica.sent_cases b with hnone | hone
    · rw [hnone] at hb'
      cases hb'
    · exact List.mem_singleton.mp (hone ▸ hb')
  refine ⟨b, idle, sv', e', hhandle, hdb, ⟨hown.registered, ⟨hown.inv.master, h.slave, hown.inv.permanent,
    h.permanent, hown.inv.plain, hown.inv.queues, hown.inv.running, hown.inv.unnamed, hown.inv.named,
    hown.inv.settled, hown.inv.alone, fun key => ?_⟩, hown.portable, hown.flagged⟩, hstep, hattends, ?_⟩
  · by_cases hkey : key ∈ b.items.map (·.name)
    · -- the batch carries the value that the master has
      refine (hown.inv.agree key).imp_right fun hagree => ?_
      have hone : b.sent = [b] := by
        cases b with
        | text t => cases hkey
        | _ => rfl
      have hmem : b ∈ b.sent := by
        rw [hone]
        exact List.mem_singleton_self b
      have hplain : b.isPlain = true := (hstep.deliverable b hmem).plain
      simp only [hone, List.foldl_cons, List.foldl_nil] at hagree ⊢
      exact (Batch.replay_congr hkey hplain c a).trans hagree
    · have hbs : ∀ b' ∈ b.sent, ∀ it ∈ b'.items, it.name ≠ key := by
        rintro b' hb' it hit rfl
        exact hkey (List.mem_map_of_mem (hsent b' hb' ▸ hit))
      by_cases hpend : key ∈ e.rep.pending.map (·.name)
      · obtain ⟨it, hit, rfl⟩ := List.mem_map.mp hpend
        exact Or.inl (hst.waiting_of_notMem hname (hst.resent hname (hq ▸ hcover)) (hq ▸ hit) hkey)
      · exact Or.inr ((Replica.foldl_replay c hbs).trans (h.agree key hpend))
  · intro b' hb' it hit
    exact hqueued it (hsent b' hb' ▸ hit)

end Severed

/-! ## The system -/

namespace Replica

/-- **The condition on an event**: both machines work, and nobody else changes the stores. -/
def Allowed (latest : ℕ) : DialogueEvent → Prop
  | .timer _ _ _ _ => True
  | .masterRead w _ => w.sent = true
  | .masterHandle _ _ => True
  | .slaveRead w _ => w.Fair latest
  | .close => True
  | .masterOther _ _ => False
  | .slaveOther _ _ => False

/-- The word at hand will be taken as an acknowledgement. -/
def Acking (d : Dialogue) (e : Registered) : Prop := e.rep.status = 1 ∧ d.mcomm.repmsg = lit "ok"

instance (d : Dialogue) (e : Registered) : Decidable (Acking d e) := inferInstanceAs (Decidable (_ ∧ _))

/-- If two entries are flagged, their keys are there. -/
def Intact (db : GentDb) (e : Registered) : Prop :=
  (∃ it ∈ e.rep.pending.drop 1, it.is_sync = true) → ∀ it ∈ e.rep.pending.take 2, plain db it = true

instance (db : GentDb) (e : Registered) : Decidable (Intact db e) :=
  inferInstanceAs (Decidable (_ → _))

/-- **The condition on `MasterHandle`**: an acknowledgement is not taken while a batch is under way, and a
batch that may be sent again covers what is flagged. -/
def Careful (id : ServerId) (d : Dialogue) : DialogueEvent → Prop
  | .masterHandle _ _ => ∀ e ∈ d.master.master.rep_list[id.text]?,
      (Acking d e → d.toSlave = []) ∧ (¬ Acking d e → Intact d.master.db e)
  | _ => True

instance (id : ServerId) (d : Dialogue) : ∀ ev, Decidable (Careful id d ev)
  | .masterHandle _ _ => inferInstanceAs (Decidable (∀ e ∈ d.master.master.rep_list[id.text]?, _))
  | .timer _ _ _ _ => inferInstanceAs (Decidable True)
  | .masterRead _ _ => inferInstanceAs (Decidable True)
  | .slaveRead _ _ => inferInstanceAs (Decidable True)
  | .close => inferInstanceAs (Decidable True)
  | .masterOther _ _ => inferInstanceAs (Decidable True)
  | .slaveOther _ _ => inferInstanceAs (Decidable True)

/-! ## The invariant -/

/-- The connection holds, and what is under way is still queued. -/
structure Live (id : ServerId) (d : Dialogue) (a : ExpMap Str Str) (bs : List Batch) (e : Registered) :
    Prop extends Following id d a bs e where
  carried : ∀ b ∈ bs, ∀ it ∈ b.items, it.name ∈ e.rep.pending.map (·.name)

/-- No batch has been sent since the connection was lost.  So there is nothing that the slave could have
acknowledged. -/
structure Parted (id : ServerId) (d : Dialogue) (a : ExpMap Str Str) (e : Registered) : Prop where
  line : Line id d []
  asks : ∀ m ∈ d.toMaster, m = wordText id .data
  sendable : Sendable a
  severed : ∃ c, Severed id.text d.master a d.slave.db c e
  heard : d.attached ≠ [] →
    d.linked = true ∧ d.mcomm.keystr = id.text ∧ d.mcomm.repmsg = Word.data.text

/-- **The invariant**, for a master with the map `a`. -/
def Kept (id : ServerId) (d : Dialogue) (a : ExpMap Str Str) : Prop :=
  Before id d a ∨ ∃ e, Parted id d a e ∨ ∃ bs, Live id d a bs e

section Steps

variable {cfgM cfgS : Config} {id : ServerId} {latest : ℕ} {d : Dialogue} {a : ExpMap Str Str}
  {bs : List Batch} {e : Registered} {word : Word} {w : World}

/-! ### The connection breaks -/

lemma Line.unlink (h : Line id d bs) : Line id d.unlink [] :=
  ⟨h.name, h.listens, h.all, by simp [Dialogue.unlink], by simp [Dialogue.unlink], rfl, by simp⟩

lemma Before.close (h : Before id d a) : Before id d.unlink a :=
  ⟨h.line.unlink, h.unknown, h.master, h.permanent, h.sendable, h.slave, rfl⟩

lemma Live.close (h : Live id d a bs e) : Parted id d.unlink a e := by
  obtain ⟨c, hsynced⟩ := h.synced
  exact ⟨h.line.unlink, by simp [Dialogue.unlink], h.sendable, ⟨c, hsynced.sever h.carried⟩,
    fun hne => absurd rfl hne⟩

lemma Parted.close (h : Parted id d a e) : Parted id d.unlink a e :=
  ⟨h.line.unlink, by simp [Dialogue.unlink], h.sendable, h.severed, fun hne => absurd rfl hne⟩

/-! ### Clients -/

/-- **A client writes.** -/
lemma Kept.wrote {sv : Server} {a' : ExpMap Str Str} (h : Kept id d a) (hdb : Refines sv.db a')
    (hperm : Permanent a') (hsend : Sendable a') (hwrote : d.master.Wrote w sv a a') :
    Kept id { d with master := sv } a' := by
  obtain h | ⟨e, h | ⟨bs, h⟩⟩ := h
  · exact Or.inl (h.wrote hdb hperm hsend hwrote)
  · obtain ⟨c, hsevered⟩ := h.severed
    obtain ⟨e', hsevered'⟩ := hsevered.write hdb hperm hwrote
    exact Or.inr ⟨e', Or.inl ⟨h.line.setMaster _, h.asks, hsend, ⟨c, hsevered'⟩, h.heard⟩⟩
  · obtain ⟨e', hfollow, new, hpend⟩ := h.toFollowing.wrote hdb hperm hsend hwrote
    refine Or.inr ⟨e', Or.inr ⟨bs, hfollow, fun b hb it hit => ?_⟩⟩
    rw [hpend, List.map_append]
    exact List.mem_append_left _ (h.carried b hb it hit)

/-! ### The timer of the slave -/

/-- All that the timer of the slave says is that it wants data. -/
lemma asks_timer (hS : cfgS.master_auth = []) (hname : d.slave.server_id = id.text)
    (h : ∀ m ∈ d.toMaster, m = wordText id .data) (late links uninit₁ uninit₂ : Bool) :
    ∀ m ∈ (d.slaveTimer cfgS true late links uninit₁ uninit₂).toMaster, m = wordText id .data := by
  have hask : ∀ {d : Dialogue}, d.slave.server_id = id.text → (∀ m ∈ d.toMaster, m = wordText id .data) →
      ∀ m ∈ (d.ask cfgS true).toMaster, m = wordText id .data := by
    intro d hname h m hm
    unfold Dialogue.ask at hm
    cases hst : d.status with
    | INIT =>
        simp only [hst, hS, if_true] at hm
        exact h m hm
    | CONTINUE =>
        simp only [hst, hname] at hm
        rcases List.mem_append.mp hm with hm | hm
        · exact h m hm
        · exact List.mem_singleton.mp hm
    | AUTH =>
        simp only [hst] at hm
        exact h m hm
    | WAIT =>
        simp only [hst] at hm
        exact h m hm
  unfold Dialogue.slaveTimer
  dsimp only
  split_ifs
  · exact h
  · exact h
  · exact hask hname h
  · exact hask hname (by simp [Dialogue.link])
  · exact h
  · exact hask hname h
  · exact hask hname (by simp [Dialogue.link])
  · exact h

/-- It does nothing to the master. -/
lemma slaveTimer_master (cfgS : Config) (d : Dialogue) (late links uninit₁ uninit₂ : Bool) :
    (d.slaveTimer cfgS true late links uninit₁ uninit₂).master = d.master := by
  have hask : ∀ d : Dialogue, (d.ask cfgS true).master = d.master := by
    intro d
    unfold Dialogue.ask
    split
    · split_ifs <;> rfl
    · rfl
    · rfl
  unfold Dialogue.slaveTimer
  dsimp only
  split_ifs <;> first | rfl | exact hask _

lemma Live.timer (hS : cfgS.master_auth = []) (h : Live id d a bs e) (late links uninit₁ uninit₂ : Bool) :
    Live id (d.slaveTimer cfgS true late links uninit₁ uninit₂) a bs e :=
  ⟨h.toFollowing.timer hS late links uninit₁ uninit₂, h.carried⟩

lemma Parted.timer (hS : cfgS.master_auth = []) (h : Parted id d a e) (late links uninit₁ uninit₂ : Bool) :
    Parted id (d.slaveTimer cfgS true late links uninit₁ uninit₂) a e := by
  have hasks := asks_timer hS h.line.name h.asks late links uninit₁ uninit₂
  obtain ⟨d', rfl, hline, hmaster, hslave, hattached⟩ :=
    h.line.timer_open hS late links uninit₁ uninit₂
  refine ⟨hline, hasks, h.sendable, ?_, fun hne => ?_⟩
  · rw [hmaster, hslave]
    exact h.severed
  · rcases hattached with ⟨hsame, hcomm, hlinked⟩ | hnone
    · rw [hcomm, hlinked]
      exact h.heard (hsame ▸ hne)
    · exact absurd hnone hne

/-! ### The master hears and answers -/

lemma Live.masterRead (hM : cfgM.master_auth = []) (h : Live id d a bs e) {rest : List Str}
    (hms : d.toMaster = wordText id word :: rest) (hsent : w.sent = true) (cfgS : Config) :
    d.step cfgM cfgS true (.masterRead w (wordText id word).length)
        = some (afterWord id d word d.master.master rest) ∧
      Live id (afterWord id d word d.master.master rest) a bs ⟨e.slot, { e.rep with conn := true }⟩ := by
  obtain ⟨hstep, hfollow⟩ := h.toFollowing.masterRead hM hms hsent cfgS
  exact ⟨hstep, hfollow, h.carried⟩

lemma Parted.masterRead (hM : cfgM.master_auth = []) (h : Parted id d a e) {rest : List Str}
    (hms : d.toMaster = wordText id .data :: rest) (hsent : w.sent = true) (cfgS : Config) :
    d.step cfgM cfgS true (.masterRead w (wordText id .data).length)
        = some (afterWord id d .data d.master.master rest) ∧
      Parted id (afterWord id d .data d.master.master rest) a ⟨e.slot, { e.rep with conn := true }⟩ := by
  obtain ⟨c, hsevered⟩ := h.severed
  have hget : d.master.master.get ⟨d.master.db, w.now, w.uninit, w.id⟩ w.junk id.text true
      = (some e, d.master.master) := by
    rw [GentRepMgr.get, show d.master.master.rep_list[id.text]? = some e from hsevered.own.registered]
  obtain ⟨hstep, hline⟩ := h.line.masterRead hM hms hsent hget
  refine ⟨hstep, hline, fun m hm => h.asks m ?_, h.sendable, ⟨c, hsevered.setConn⟩,
    fun _ => ⟨h.line.linked ?_, rfl, rfl⟩⟩
  · rw [hms]
    exact List.mem_cons_of_mem _ hm
  · rw [hms]
    exact List.cons_ne_nil _ _

/-- **While the connection holds**, entries leave the queue only when nothing is under way. -/
lemma Live.masterHandle (h : Live id d a bs e) {name : Str} (hname : name ∈ d.attached)
    (hquiet : Acking d e → d.toSlave = []) (cfgM cfgS : Config) (w : World) :
    ∃ d' bs' e', d.step cfgM cfgS true (.masterHandle w name) = some d' ∧ Live id d' a bs' e' ∧
      d.master.Attends id.text d'.master := by
  obtain ⟨c, hsynced⟩ := h.synced
  obtain ⟨-, word, hmsg⟩ := h.heard (List.ne_nil_of_mem hname)
  obtain ⟨b, sv, e', hstep, hfollow, -, -, hattends, p, q, k, n, hst⟩ :=
    h.toFollowing.masterHandle hname hmsg cfgM cfgS w
  have hqueued := (hsynced.inv.setInfo (d.master.master.repfile.slot e.slot)).items_queued hst
  refine ⟨_, _, e', hstep, ⟨hfollow, fun b' hb' it hit => ?_⟩, hattends⟩
  rcases List.mem_append.mp hb' with hold | hnew
  · -- a batch is under way, so nothing is acknowledged
    have hack : ¬ (e.rep.status = 1 ∧ word.text = lit "ok") := by
      intro hack
      have hnone : bs.map Batch.outstr = [] := h.line.batches.symm.trans (hquiet ⟨hack.1, hmsg.trans hack.2⟩)
      rw [List.map_eq_nil_iff.mp hnone] at hold
      cases hold
    have hpend : e.rep.pending = q := hst.kept hack
    rw [hst.names, ← hpend]
    exact h.carried b' hold it hit
  · rcases sent_cases b with hnone | hone
    · rw [hnone] at hnew
      cases hnew
    · obtain rfl := List.mem_singleton.mp (hone ▸ hnew)
      exact hqueued it hit

/-- **The first batch on a new connection.** -/
lemma Parted.masterHandle (h : Parted id d a e) {name : Str} (hname : name ∈ d.attached)
    (hintact : Intact d.master.db e) (cfgM cfgS : Config) (w : World) :
    ∃ b sv e', d.step cfgM cfgS true (.masterHandle w name)
        = some { d with master := sv, toSlave := b.sent.map Batch.outstr } ∧
      Live id { d with master := sv, toSlave := b.sent.map Batch.outstr } a b.sent e' ∧
      Step .data e.rep e'.rep b ∧ d.master.Attends id.text sv := by
  obtain ⟨c, hsevered⟩ := h.severed
  obtain ⟨hlinked, hkey, hmsg⟩ := h.heard (List.ne_nil_of_mem hname)
  obtain ⟨b, idle, sv, e', hhandle, -, hsynced, hstep, hattends, hcarried⟩ :=
    hsevered.handle h.sendable hkey hmsg hintact w
  have hslave : d.toSlave = [] := h.line.batches
  refine ⟨b, sv, e', ?_, ⟨⟨⟨h.line.name, h.line.listens, h.line.all, h.line.words, h.line.linked, rfl,
    hstep.deliverable⟩, hlinked, h.sendable, ⟨c, hsynced⟩, fun hne => ⟨hkey, .data, hmsg⟩⟩, hcarried⟩,
    hstep, hattends⟩
  simp only [Dialogue.step, if_pos hname, hhandle, hstep.message, hslave, List.nil_append]

/-! ### Every step -/

lemma Kept.masterRead (hM : cfgM.master_auth = []) (h : Kept id d a) {size : ℕ} (hsent : w.sent = true)
    (hsize : d.toMaster.head?.map List.length = some size) (cfgS : Config) :
    ∃ d', d.step cfgM cfgS true (.masterRead w size) = some d' ∧ Kept id d' a ∧
      d.master.Attends id.text d'.master := by
  obtain ⟨m, rest, hms, rfl⟩ := exists_head hsize
  have hm : m ∈ d.toMaster := by
    rw [hms]
    exact List.mem_cons_self
  have hheard : d.master.Attends id.text
      { d.master with master := d.master.master.setConn id.text true } :=
    (Server.Attends.refl id.text d.master).setConn true
  obtain h | ⟨e, h | ⟨bs, h⟩⟩ := h
  · obtain ⟨word, rfl⟩ := h.line.words m hm
    obtain ⟨d', e, hstep, hfollow, hattends⟩ := h.masterRead hM hms hsent cfgS
    exact ⟨d', hstep, Or.inr ⟨e, Or.inr ⟨[], hfollow, by simp⟩⟩, hattends⟩
  · obtain rfl := h.asks m hm
    obtain ⟨hstep, hparted⟩ := h.masterRead hM hms hsent cfgS
    exact ⟨_, hstep, Or.inr ⟨_, Or.inl hparted⟩, hheard⟩
  · obtain ⟨word, rfl⟩ := h.line.words m hm
    obtain ⟨hstep, hlive⟩ := h.masterRead hM hms hsent cfgS
    exact ⟨_, hstep, Or.inr ⟨_, Or.inr ⟨bs, hlive⟩⟩, hheard⟩

lemma Kept.masterHandle (h : Kept id d a) {name : Str} (hname : name ∈ d.attached)
    (hcareful : Careful id d (.masterHandle w name)) (cfgM cfgS : Config) :
    ∃ d', d.step cfgM cfgS true (.masterHandle w name) = some d' ∧ Kept id d' a ∧
      d.master.Attends id.text d'.master := by
  obtain h | ⟨e, h | ⟨bs, h⟩⟩ := h
  · rw [h.attached] at hname
    cases hname
  · obtain ⟨c, hsevered⟩ := h.severed
    obtain ⟨-, -, hmsg⟩ := h.heard (List.ne_nil_of_mem hname)
    -- nothing has been sent, and so the word is not an acknowledgement
    have hack : ¬ Acking d e := by
      rintro ⟨-, hok⟩
      exact absurd (hmsg.symm.trans hok) (by decide)
    obtain ⟨b, sv, e', hstep, hlive, -, hattends⟩ :=
      h.masterHandle hname ((hcareful e hsevered.own.registered).2 hack) cfgM cfgS w
    exact ⟨_, hstep, Or.inr ⟨e', Or.inr ⟨_, hlive⟩⟩, hattends⟩
  · obtain ⟨c, hsynced⟩ := h.synced
    obtain ⟨d', bs', e', hstep, hlive, hattends⟩ :=
      h.masterHandle hname (hcareful e hsynced.registered).1 cfgM cfgS w
    exact ⟨d', hstep, Or.inr ⟨e', Or.inr ⟨bs', hlive⟩⟩, hattends⟩

lemma Kept.slaveRead (h : Kept id d a) {size : ℕ} (hw : w.Fair latest)
    (hsize : d.toSlave.head?.map List.length = some size) (cfgM cfgS : Config) :
    ∃ d', d.step cfgM cfgS true (.slaveRead w size) = some d' ∧ Kept id d' a ∧ d'.master = d.master := by
  obtain ⟨m, rest, hms, rfl⟩ := exists_head hsize
  have hnone : Line id d [] → False := by
    intro hline
    have hnil : d.toSlave = [] := hline.batches
    rw [hnil] at hms
    cases hms
  obtain h | ⟨e, h | ⟨bs, h⟩⟩ := h
  · exact (hnone h.line).elim
  · exact (hnone h.line).elim
  · cases bs with
    | nil => exact (hnone h.line).elim
    | cons b bs =>
        obtain rfl : b.outstr = m := (List.cons.inj (h.line.batches.symm.trans hms)).1
        obtain ⟨d', hstep, hfollow, hmaster, -⟩ := h.toFollowing.slaveRead hw cfgM cfgS
        refine ⟨d', hstep, Or.inr ⟨e, Or.inr ⟨bs, hfollow, fun b' hb' => ?_⟩⟩, hmaster⟩
        exact h.carried b' (List.mem_cons_of_mem b hb')

lemma Kept.timer (hS : cfgS.master_auth = []) (h : Kept id d a) (late links uninit₁ uninit₂ : Bool) :
    Kept id (d.slaveTimer cfgS true late links uninit₁ uninit₂) a := by
  obtain h | ⟨e, h | ⟨bs, h⟩⟩ := h
  · exact Or.inl (h.timer hS late links uninit₁ uninit₂)
  · exact Or.inr ⟨e, Or.inl (h.timer hS late links uninit₁ uninit₂)⟩
  · exact Or.inr ⟨e, Or.inr ⟨bs, h.timer hS late links uninit₁ uninit₂⟩⟩

lemma Kept.close (h : Kept id d a) : Kept id d.unlink a := by
  obtain h | ⟨e, h | ⟨bs, h⟩⟩ := h
  · exact Or.inl h.close
  · exact Or.inr ⟨e, Or.inl h.close⟩
  · exact Or.inr ⟨e, Or.inl h.close⟩

/-- **What happens between master and slave** under the conditions can happen, keeps the invariant, and is
nothing to the other slaves. -/
lemma Kept.talk (hM : cfgM.master_auth = []) (hS : cfgS.master_auth = []) (h : Kept id d a)
    {ev : DialogueEvent} (horderly : Orderly d (.talk ev)) (hcareful : Careful id d ev)
    (hallowed : Allowed latest ev) :
    ∃ d', d.step cfgM cfgS true ev = some d' ∧ Kept id d' a ∧ d.master.Attends id.text d'.master := by
  have hsame : ∀ {d' : Dialogue}, d'.master = d.master → d.master.Attends id.text d'.master := by
    intro d' hmaster
    rw [hmaster]
    exact .refl id.text d.master
  cases ev with
  | timer late links uninit₁ uninit₂ =>
      exact ⟨_, rfl, h.timer hS late links uninit₁ uninit₂, hsame (slaveTimer_master cfgS d _ _ _ _)⟩
  | masterRead w size => exact h.masterRead hM hallowed horderly cfgS
  | masterHandle w name => exact h.masterHandle horderly hcareful cfgM cfgS
  | slaveRead w size =>
      obtain ⟨d', hstep, hkept, hmaster⟩ := h.slaveRead hallowed horderly cfgM cfgS
      exact ⟨d', hstep, hkept, hsame hmaster⟩
  | close => exact ⟨_, rfl, h.close, hsame rfl⟩
  | masterOther db mgr => exact hallowed.elim
  | slaveOther db mgr => exact hallowed.elim

/-! ### After the slave has asked again -/

/-- **One exchange on a new connection.** -/
lemma Parted.exchange (hM : cfgM.master_auth = []) (h : Parted id d a e)
    (hms : d.toMaster = [wordText id .data]) (hintact : Intact d.master.db e) {wM wS : World}
    (hsent : wM.sent = true) (hw : wS.Fair latest) (cfgS : Config) :
    ∃ d' e' b, exchange cfgM cfgS id wM wS d = some d' ∧ Following id d' a [] e' ∧
      d'.master.db = d.master.db ∧ Step .data e.rep e'.rep b ∧
      d'.toMaster = b.sent.map fun _ => wordText id .ok := by
  obtain ⟨hread, h₁⟩ := h.masterRead hM hms hsent cfgS
  obtain ⟨b, sv, e₂, hhandle, h₂, hstep, hattends⟩ :=
    h₁.masterHandle (List.mem_cons_self : id.text ∈ (afterWord id d .data d.master.master []).attached)
      hintact cfgM cfgS wM
  exact exchange_answered hms hread hhandle h₂.toFollowing rfl hattends.db hstep hw

/-! ### The master and another slave -/

/-- **What the master does for another slave** is nothing to this one, as long as a slot is left for it. -/
lemma Kept.attends_other {name : Str} {sv : Server} (h : Kept id d a) (hattends : d.master.Attends name sv)
    (hname : id.text ≠ name) (hroom : sv.master.rep_list[id.text]? = none → 0 < sv.master.free) :
    Kept id { d with master := sv } a := by
  have hreg := hattends.registered id.text hname
  obtain h | ⟨e, h | ⟨bs, h⟩⟩ := h
  · have hnone : sv.master.rep_list[id.text]? = none := hreg.trans h.unknown.unregistered
    refine Or.inl ⟨h.line.setMaster sv, ⟨hnone, (hattends.known _ hname).trans h.unknown.unnamed,
      GentRepMgr.freeSlot_isSome_iff.mpr (hroom hnone)⟩, ?_, h.permanent, h.sendable, h.slave, h.attached⟩
    rw [hattends.db]
    exact h.master
  · obtain ⟨c, hsevered⟩ := h.severed
    exact Or.inr ⟨e, Or.inl ⟨h.line.setMaster sv, h.asks, h.sendable,
      ⟨c, hsevered.attends_other hattends hname⟩, h.heard⟩⟩
  · obtain ⟨c, hsynced⟩ := h.synced
    exact Or.inr ⟨e, Or.inr ⟨bs, ⟨h.line.setMaster sv, h.linked, h.sendable,
      ⟨c, hsynced.attends_other hattends hname⟩, h.heard⟩, h.carried⟩⟩

end Steps

/-! ## What the slave has -/

section Outcome

variable {cfgM cfgS : Config} {id : ServerId} {latest : ℕ} {d : Dialogue} {a : ExpMap Str Str}
  {e : Registered}

/-- A slave that the master knows is connected, or it has been. -/
lemma Kept.registered (h : Kept id d a) (hreg : d.master.master.Registers id.text e) :
    Parted id d a e ∨ ∃ bs, Live id d a bs e := by
  obtain h | ⟨e', h | ⟨bs, h⟩⟩ := h
  · rw [GentRepMgr.Registers, h.unknown.unregistered] at hreg
    cases hreg
  · obtain ⟨c, hsevered⟩ := h.severed
    obtain rfl : e' = e := Option.some.inj (hsevered.own.registered.symm.trans hreg)
    exact Or.inl h
  · obtain ⟨c, hsynced⟩ := h.synced
    obtain rfl : e' = e := Option.some.inj (hsynced.registered.symm.trans hreg)
    exact Or.inr ⟨bs, h⟩

/-- **A key that is not queued** has the same value on both sides: a break would leave the slave with
it. -/
lemma Kept.get_eq (h : Kept id d a) (hreg : d.master.master.Registers id.text e) {k : Str}
    (hk : k ∉ e.rep.pending.map (·.name)) (now : ℕ) : d.slave.db.get now k = d.master.db.get now k := by
  obtain ⟨c, hsevered⟩ : ∃ c, Severed id.text d.master a d.slave.db c e := by
    obtain h | ⟨bs, h⟩ := h.registered hreg
    · exact h.severed
    · obtain ⟨c, hsynced⟩ := h.synced
      exact ⟨c, hsynced.sever h.carried⟩
  have hmaster : Refines d.master.db a := hsevered.own.inv.master
  rw [hsevered.slave.get, hmaster.get, ExpMap.visible, ExpMap.visible, hsevered.agree k hk]

/-- **A slave that has asked** catches up, on whatever connection. -/
lemma Kept.catchUp (hM : cfgM.master_auth = []) (cfgS : Config) {ws : ℕ → World × World}
    (hws : ∀ i, (ws i).1.sent = true ∧ (ws i).2.Fair latest) (h : Kept id d a)
    (hreg : d.master.master.Registers id.text e) (hasked : d.toMaster = [slaveData id.text])
    (hquiet : d.toSlave = []) (hintact : Intact d.master.db e) :
    ∃ n ≤ e.rep.pending.length + 1, ∃ d', exchanges cfgM cfgS id n ws d = some d' ∧ CaughtUp id d d' := by
  obtain hparted | ⟨bs, hlive⟩ := h.registered hreg
  · obtain ⟨d', e', b, hex, hnext, hdb, hstep, hto⟩ :=
      hparted.exchange hM hasked hintact (hws 0).1 (hws 0).2 cfgS
    exact hnext.catchUp_next hM cfgS hws hex hdb hstep hto
  · obtain rfl : bs = [] := List.map_eq_nil_iff.mp (hlive.line.batches.symm.trans hquiet)
    exact hlive.toFollowing.catchUp_asked hM cfgS hws hasked

end Outcome

end Replica

end Riser
