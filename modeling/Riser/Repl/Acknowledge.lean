import Riser.Core.Transition
import Riser.Repl.GentReplication

/-!
# Are updates only dropped when the slave has them?

The master, one slave and the connection between them, as a step function.  On the master a client
thread writes to the store and then pushes an entry, a worker thread reads a message of the slave
into `repmsg` and queues a **wake-up** for the replication thread, and the replication thread
handles one wake-up after another with whatever `repmsg` holds *then*.  The slave applies the
batches in order, answers each with `ok`, and sends `data` to ask for more.  A lost connection
takes everything in flight with it.

The history variables record which batch an `ok` answers, which batches have been applied and
acknowledged, and which entries have left the queues.  `AckedPops` is what one would want: an entry
has left only if a batch that printed it was applied and its `ok` was received.

**It does not hold** (`drops_unacknowledged`): an `ok` carries no batch number, so an `ok` that
comes after a resend is taken for the answer to the second, larger batch.  What does hold is
`ackedPops_of_calm`, with three conditions on the steps of the replication thread (`Calm`):

* an `ok` is acted on only when no batch and no other `ok` is under way,
* when a batch is sent again that covered two entries, both keys are still there without expiry,
  so that the new batch covers both again,
* no entry has an empty name.

The invariant behind it (`AckInv`): every flagged entry was printed in the *last* batch sent.
-/

namespace Riser

open Cpp GentReplication

/-- A batch on its way, numbered to tell it from others with the same content. -/
structure Sent where
  no : ℕ
  batch : Batch
  deriving DecidableEq

/-- The entries that the batch printed. -/
def Sent.ids (b : Sent) : List ℕ := b.batch.items.map (·.id)

/-- A message of the slave; the batch that an `ok` answers is not part of what is transmitted. -/
inductive SlaveMsg where
  | data
  | ok (b : Sent)
  deriving DecidableEq

/-- The word that the master reads. -/
def SlaveMsg.text : SlaveMsg → Str
  | .data => lit "data"
  | .ok _ => lit "ok"

/-- The master, the link and the slave. -/
structure RepSystem where
  db : GentDb
  rep : GentReplication
  /-- The number of entries allocated so far. -/
  next : ℕ
  /-- The wake-ups queued in `master_msg_`. -/
  master_msg : ℕ
  /-- `repmsg` of the current connection. -/
  repmsg : Str
  toSlave : List Sent
  toMaster : List SlaveMsg
  -- history
  count : ℕ
  last : Option Sent
  onLink : Bool
  popped : List ItemData
  applied : List Sent
  received : List Sent

namespace RepSystem

/-- A replication as it is constructed, before its slave connects. -/
def init (rinfo : RepInfo) (db : GentDb) (now : ℕ) (is_sync_all uninit : Bool) : RepSystem where
  db := db
  rep := GentReplication.new rinfo db now is_sync_all uninit 0
  next := (db.keys (lit "*")).length
  master_msg := 0
  repmsg := []
  toSlave := []
  toMaster := []
  count := 0
  last := none
  onLink := false
  popped := []
  applied := []
  received := []

/-- What the threads and the network do. -/
inductive Ev where
  /-- A client's write to the store, or the sweeper's. -/
  | store (now : ℕ) (call : StoreCall)
  /-- The `Push` that follows a write. -/
  | push (now : ℕ) (type : OptType) (key : Str)
  /-- A worker reads the slave's next message. -/
  | deliver
  /-- The replication thread handles a wake-up. -/
  | masterHandle (now : ℕ)
  /-- The slave applies the next batch and answers. -/
  | apply
  /-- The slave asks for data, at first or after its timeout. -/
  | resend
  /-- The connection breaks, and the slave connects again. -/
  | reconnect

/-- `OutString` of what `Start` produced. -/
def send (s : RepSystem) : Batch → RepSystem
  | .text _ => s
  | b =>
      { s with
        toSlave := s.toSlave ++ [⟨s.count, b⟩]
        count := s.count + 1
        last := some ⟨s.count, b⟩
        onLink := true }

/-- `GentRepMgr::MasterHandle`. -/
def masterHandle (s : RepSystem) (now : ℕ) : Option RepSystem :=
  if s.master_msg = 0 then none
  else if s.rep.conn = false then some { s with master_msg := s.master_msg - 1 }
  else
    match s.rep.start s.db now s.repmsg with
    | .error _ => none
    | .ok (r, b, _) =>
        some { s.send b with
          rep := r
          master_msg := s.master_msg - 1
          popped := s.popped ++ s.rep.pending.take (s.rep.pending.length - r.pending.length) }

/-- One step.  An exception ends the run. -/
def step (s : RepSystem) : Ev → Option RepSystem
  | .store now call =>
      match s.db.call now call with
      | .ok db => some { s with db }
      | .error _ => none
  | .push now type key =>
      let (rep, notify) := s.rep.push now s.next type key
      some { s with
        rep
        next := s.next + 1
        master_msg := if notify then s.master_msg + 1 else s.master_msg }
  | .deliver =>
      match s.toMaster with
      | [] => none
      | m :: ms =>
          some { s with
            toMaster := ms
            repmsg := m.text
            rep := { s.rep with conn := true }
            master_msg := s.master_msg + 1
            received := match m with
              | .data => s.received
              | .ok b => s.received ++ [b] }
  | .masterHandle now => s.masterHandle now
  | .apply =>
      match s.toSlave with
      | [] => none
      | b :: bs =>
          some { s with
            toSlave := bs
            toMaster := s.toMaster ++ [.ok b]
            applied := s.applied ++ [b] }
  | .resend => some { s with toMaster := s.toMaster ++ [.data] }
  | .reconnect =>
      some { s with
        rep := { s.rep with conn := false }
        repmsg := []
        toSlave := []
        toMaster := []
        onLink := false }

/-- An entry has left the queues only if a batch that printed it was applied and acknowledged. -/
def AckedPops (s : RepSystem) : Prop :=
  ∀ it ∈ s.popped, ∃ b ∈ s.received, b ∈ s.applied ∧ it.id ∈ b.ids

/-- The message at hand will be taken as an acknowledgement. -/
def acking (s : RepSystem) : Bool := s.rep.status = 1 && s.repmsg = lit "ok"

/-- The condition on a step; only the replication thread is concerned. -/
def Calm (s : RepSystem) : Ev → Prop
  | .masterHandle _ =>
      (s.acking = true → s.toSlave = [] ∧ ∀ m ∈ s.toMaster, m = .data) ∧
      (s.acking = false → (∃ it ∈ s.rep.pending.drop 1, it.is_sync = true) →
        ∀ it ∈ s.rep.pending.take 2, plain s.db it = true) ∧
      ∀ it ∈ s.rep.pending, it.name ≠ []
  | _ => True

instance (s : RepSystem) : (e : Ev) → Decidable (s.Calm e)
  | .masterHandle _ => inferInstanceAs (Decidable (_ ∧ _ ∧ _))
  | .store _ _ | .push _ _ _ | .deliver | .apply | .resend | .reconnect => .isTrue trivial

/-! ## The invariant -/

/-- **Every flagged entry was printed in the last batch**, and unless the connection has broken
since, that batch or its answer is under way or the answer has been received. -/
structure AckInv (s : RepSystem) : Prop where
  queues : s.rep.QueueInv
  heard : s.rep.conn = true → s.repmsg = lit "ok" ∨ s.repmsg = lit "data"
  covered : ∀ it ∈ s.rep.pending, it.is_sync = true → ∃ b ∈ s.last, it.id ∈ b.ids
  live : s.onLink = true →
    ∀ b ∈ s.last, b ∈ s.toSlave ∨ .ok b ∈ s.toMaster ∨ b ∈ s.received
  dead : s.onLink = false → s.repmsg ≠ lit "ok" ∧ s.toSlave = [] ∧ ∀ m ∈ s.toMaster, m = .data
  answered : ∀ b, .ok b ∈ s.toMaster → b ∈ s.applied
  applied : ∀ b ∈ s.received, b ∈ s.applied
  safe : s.AckedPops

lemma AckInv.init (rinfo : RepInfo) (db : GentDb) (now : ℕ) (is_sync_all uninit : Bool) :
    AckInv (init rinfo db now is_sync_all uninit) := by
  refine ⟨QueueInv.new .., ?_, ?_, by simp [RepSystem.init],
    fun _ => ⟨by simp [RepSystem.init, lit], rfl, by simp [RepSystem.init]⟩,
    by simp [RepSystem.init], by simp [RepSystem.init], by simp [AckedPops, RepSystem.init]⟩
  · intro hconn
    have := (new_que rinfo db now is_sync_all uninit 0).2.1
    exact absurd hconn (by simp [RepSystem.init, this])
  · intro it hit hsync
    rw [new_unsynced rinfo db now is_sync_all uninit 0 it hit] at hsync
    cases hsync

variable {s s' : RepSystem}

lemma AckInv.store (h : AckInv s) (db : GentDb) : AckInv { s with db } :=
  ⟨h.queues, h.heard, h.covered, h.live, h.dead, h.answered, h.applied, h.safe⟩

lemma AckInv.push (h : AckInv s) (now : ℕ) (type : OptType) (key : Str) (n m : ℕ) :
    AckInv { s with rep := (s.rep.push now s.next type key).1, next := n, master_msg := m } := by
  refine ⟨h.queues.push .., ?_, ?_, h.live, h.dead, h.answered, h.applied, h.safe⟩
  · intro hconn
    refine h.heard ?_
    cases hrun : s.rep.is_run <;> simpa [GentReplication.push, hrun] using hconn
  · intro it hit hsync
    cases hrun : s.rep.is_run with
    | false => exact h.covered it (by simpa [GentReplication.push, hrun] using hit) hsync
    | true =>
        rw [push_pending hrun] at hit
        rcases List.mem_append.mp hit with hit | hit
        · exact h.covered it hit hsync
        · obtain rfl := List.mem_singleton.mp hit
          cases hsync

lemma AckInv.deliver (h : AckInv s) (hs : s.step .deliver = some s') : AckInv s' := by
  simp only [step] at hs
  cases hm : s.toMaster with
  | nil => simp [hm] at hs
  | cons m ms =>
      rw [hm] at hs
      cases hs
      cases m with
      | data =>
          refine ⟨h.queues.setConn true, fun _ => Or.inr rfl, h.covered, ?_, ?_, ?_, h.applied, h.safe⟩
          · intro hl b hb
            have := h.live hl b hb
            simpa [hm] using this
          · intro hl
            obtain ⟨-, hts, hall⟩ := h.dead hl
            exact ⟨by simp [SlaveMsg.text, lit], hts, fun m hmem => hall m (by simp [hm, hmem])⟩
          · exact fun b hb => h.answered b (by simp [hm, hb])
      | ok b₀ =>
          have happ : b₀ ∈ s.applied := h.answered b₀ (by simp [hm])
          refine ⟨h.queues.setConn true, fun _ => Or.inl rfl, h.covered, ?_, ?_, ?_, ?_, ?_⟩
          · intro hl b hb
            rcases h.live hl b hb with hts | htm | hrec
            · exact Or.inl hts
            · rw [hm] at htm
              rcases List.mem_cons.mp htm with heq | htm
              · cases heq
                exact Or.inr (Or.inr (by simp))
              · exact Or.inr (Or.inl htm)
            · exact Or.inr (Or.inr (by simp [hrec]))
          · intro hl
            have := (h.dead hl).2.2 (.ok b₀) (by simp [hm])
            cases this
          · exact fun b hb => h.answered b (by simp [hm, hb])
          · intro b hb
            rcases List.mem_append.mp hb with hb | hb
            · exact h.applied b hb
            · obtain rfl := List.mem_singleton.mp hb
              exact happ
          · intro it hit
            obtain ⟨b, hb, hrest⟩ := h.safe it hit
            exact ⟨b, by simp [hb], hrest⟩

lemma AckInv.apply (h : AckInv s) (hs : s.step .apply = some s') : AckInv s' := by
  simp only [step] at hs
  cases hm : s.toSlave with
  | nil => simp [hm] at hs
  | cons b₀ bs =>
      rw [hm] at hs
      cases hs
      refine ⟨h.queues, h.heard, h.covered, ?_, ?_, ?_, ?_, ?_⟩
      · intro hl b hb
        rcases h.live hl b hb with hts | htm | hrec
        · rw [hm] at hts
          rcases List.mem_cons.mp hts with rfl | hts
          · exact Or.inr (Or.inl (by simp))
          · exact Or.inl hts
        · exact Or.inr (Or.inl (by simp [htm]))
        · exact Or.inr (Or.inr hrec)
      · intro hl
        have := (h.dead hl).2.1
        simp [hm] at this
      · intro b hb
        rcases List.mem_append.mp hb with hb | hb
        · simp [h.answered b hb]
        · cases List.mem_singleton.mp hb
          simp
      · exact fun b hb => by simp [h.applied b hb]
      · intro it hit
        obtain ⟨b, hb, happ, hid⟩ := h.safe it hit
        exact ⟨b, hb, by simp [happ], hid⟩

lemma AckInv.resend (h : AckInv s) : AckInv { s with toMaster := s.toMaster ++ [.data] } := by
  refine ⟨h.queues, h.heard, h.covered, ?_, ?_, ?_, h.applied, h.safe⟩
  · intro hl b hb
    rcases h.live hl b hb with hts | htm | hrec
    · exact Or.inl hts
    · exact Or.inr (Or.inl (by simp [htm]))
    · exact Or.inr (Or.inr hrec)
  · intro hl
    obtain ⟨hmsg, hts, hall⟩ := h.dead hl
    refine ⟨hmsg, hts, fun m hmem => ?_⟩
    rcases List.mem_append.mp hmem with hmem | hmem
    · exact hall m hmem
    · exact List.mem_singleton.mp hmem
  · intro b hb
    rcases List.mem_append.mp hb with hb | hb
    · exact h.answered b hb
    · cases List.mem_singleton.mp hb

lemma AckInv.reconnect (h : AckInv s) (hs : s.step .reconnect = some s') : AckInv s' := by
  cases hs
  exact ⟨h.queues.setConn false, by simp, h.covered, by simp, fun _ => ⟨by simp [lit], rfl, by simp⟩,
    by simp, h.applied, h.safe⟩

lemma send_eq (s : RepSystem) {b : Batch} (h : ∀ t, b ≠ .text t) :
    s.send b = { s with
      toSlave := s.toSlave ++ [⟨s.count, b⟩]
      count := s.count + 1
      last := some ⟨s.count, b⟩
      onLink := true } := by
  cases b with
  | text t => exact absurd rfl (h t)
  | _ => rfl

/-- Every flagged entry left after a call of `Start` was printed in the batch of that call. -/
lemma covered_of_startStep {r r' : GentReplication} {db : GentDb} {now : ℕ} {msg : Str} {b : Batch}
    {p q : List ItemData} {k n : ℕ} (h : StartStep r db now msg r' b p q k n)
    (hplain : ¬ (r.status = 1 ∧ msg = lit "ok") →
      (∃ it ∈ r.pending.drop 1, it.is_sync = true) →
      ∀ it ∈ r.pending.take 2, plain db it = true)
    (hname : ∀ it ∈ r.pending, it.name ≠ []) :
    ∀ it ∈ r'.pending, it.is_sync = true → it.id ∈ b.items.map (·.id) := by
  intro it hit hsync
  have hname' : ∀ x ∈ q, x.name ≠ [] := fun x hx => hname x (h.split ▸ by simp [hx])
  rcases h.batch with ⟨rfl, -⟩ | ⟨hq, hn, hnk, hk, hkq, hb⟩
  · simp [h.after] at hit
  rw [h.after] at hit
  rcases List.mem_append.mp hit with hit | hit
  · obtain ⟨x, hx, rfl⟩ := List.mem_map.mp hit
    have hmem := h.covers x hx (hname' x (List.mem_of_mem_take hx))
    exact List.mem_map.mpr ⟨x, hmem, rfl⟩
  · -- a flag behind the covered part is an old one: then the batch printed both front entries
    have hack : ¬ (r.status = 1 ∧ msg = lit "ok") := fun hack => by
      simp [h.fresh hack it (List.mem_of_mem_drop hit)] at hsync
    have hp : p = [] := by
      by_contra hp
      exact hack (h.acked hp)
    have hrq : r.pending = q := by rw [h.split, hp, List.nil_append]
    have hitk : it ∉ q.drop k := fun hmem => by simp [h.waiting it hmem] at hsync
    have hk2 : k = 2 := by
      by_contra hne
      have hkn : k = n := by
        simp only [syncNum] at hk
        omega
      exact hitk (hkn ▸ hit)
    subst hk2
    have hdrop1 : it ∈ q.drop 1 := by
      rw [show n = 1 + (n - 1) by omega, ← List.drop_drop] at hit
      exact List.mem_of_mem_drop hit
    rw [hrq] at hplain
    have hpl := hplain hack ⟨it, hdrop1, hsync⟩
    obtain ⟨vs, hvs, hres⟩ := batchLoop_plain now (d := q.take 2)
      (fun x hx => ⟨hpl x hx, hname' x (List.mem_of_mem_take hx)⟩) []
    have hb' := (hres.symm.trans hb)
    simp only [Except.ok.injEq, Prod.mk.injEq, List.nil_append] at hb'
    rw [← hb'.2, Batch.items, hvs]
    refine List.mem_map.mpr ⟨it, ?_, rfl⟩
    have hmem : it ∈ q.take 2 ++ q.drop 2 := by
      rw [List.take_append_drop]
      exact List.mem_of_mem_drop hit
    exact (List.mem_append.mp hmem).resolve_right hitk

/-- **The replication thread** keeps the invariant when it is calm. -/
lemma AckInv.masterHandle (h : AckInv s) {now : ℕ} (hc : s.Calm (.masterHandle now))
    (hs : s.masterHandle now = some s') : AckInv s' := by
  unfold RepSystem.masterHandle at hs
  by_cases h0 : s.master_msg = 0
  · simp [h0] at hs
  rw [if_neg h0] at hs
  cases hconn : s.rep.conn with
  | false =>
      rw [if_pos hconn] at hs
      cases hs
      exact ⟨h.queues, h.heard, h.covered, h.live, h.dead, h.answered, h.applied, h.safe⟩
  | true =>
      rw [if_neg (by simp [hconn])] at hs
      cases hstart : s.rep.start s.db now s.repmsg with
      | error f => simp [hstart] at hs
      | ok res =>
          obtain ⟨r, b, ret⟩ := res
          simp only [hstart, Option.some.injEq] at hs
          obtain ⟨hq, p, q, k, n, hstep⟩ := h.queues.start (h.heard hconn) hstart
          obtain ⟨hquiet, hplain, hname⟩ := hc
          have hacking : s.acking = true ↔ s.rep.status = 1 ∧ s.repmsg = lit "ok" := by
            simp [acking]
          have hcov := covered_of_startStep hstep
            (fun hn => hplain (Bool.eq_false_iff.mpr fun ht => hn (hacking.mp ht))) hname
          have hsafe : ∀ it ∈ s.popped ++ p, ∃ b ∈ s.received, b ∈ s.applied ∧ it.id ∈ b.ids := by
            intro it hit
            rcases List.mem_append.mp hit with hit | hit
            · exact h.safe it hit
            have hack := hstep.acked (List.ne_nil_of_mem hit)
            obtain ⟨hts, htm⟩ := hquiet (hacking.mpr hack)
            have hlink : s.onLink = true := by
              by_contra hl
              exact (h.dead (by simpa using hl)).1 hack.2
            obtain ⟨b₀, hb₀, hid⟩ := h.covered it (by simp [hstep.split, hit])
              (hstep.popped it hit)
            rcases h.live hlink b₀ hb₀ with hmem | hmem | hmem
            · simp [hts] at hmem
            · cases htm _ hmem
            · exact ⟨b₀, hmem, h.applied b₀ hmem, hid⟩
          rw [hstep.removed] at hs
          rcases hstep.batch with ⟨hq0, rfl⟩ | ⟨-, -, -, -, -, hb⟩
          · -- nothing was pending, nothing is sent
            subst hs
            refine ⟨hq, fun _ => h.heard hconn, ?_, h.live, h.dead, h.answered, h.applied, hsafe⟩
            simp [hstep.after, hq0]
          · have htext : ∀ t, b ≠ .text t := fun t ht => batchLoop_ne_text (ht ▸ hb)
            rw [send_eq s htext] at hs
            subst hs
            refine ⟨hq, fun _ => h.heard hconn, ?_, ?_, by simp, h.answered, h.applied, hsafe⟩
            · exact fun it hit hsync => ⟨_, rfl, hcov it hit hsync⟩
            · intro _ b₀ hb₀
              cases hb₀
              exact Or.inl (by simp)

theorem AckInv.step (h : AckInv s) {e : Ev} (hc : s.Calm e) (hs : s.step e = some s') :
    AckInv s' := by
  cases e with
  | store now call =>
      simp only [RepSystem.step] at hs
      split at hs
      · cases hs
        exact h.store _
      · cases hs
  | push now type key =>
      cases hs
      exact h.push ..
  | deliver => exact h.deliver hs
  | masterHandle now => exact h.masterHandle hc hs
  | apply => exact h.apply hs
  | resend =>
      cases hs
      exact h.resend
  | reconnect => exact h.reconnect hs

/-- Two writes, with the slave's timeout between the first batch and its answer. -/
def lateOk : List Ev :=
  [.store 1700000000 (.put (lit "a") (lit "1") 0 1), .push 1700000000 .ADD (lit "a"),
    .resend, .deliver, .masterHandle 1700000000,
    .store 1700000001 (.put (lit "b") (lit "2") 0 1), .push 1700000001 .ADD (lit "b"),
    .resend, .deliver, .masterHandle 1700000061,
    .apply, .deliver, .masterHandle 1700000062]

/-- **An update is dropped unacknowledged.**  The `ok` for the batch `a` removes `a` and `b`, and
the batch that printed `b` is still on its way. -/
theorem drops_unacknowledged :
    ∃ s, Transition.run step (init (RepInfo.fresh (lit "slave")) .empty 1700000000 true false)
        lateOk = some s ∧ ¬ s.AckedPops := by
  refine ⟨_, rfl, ?_⟩
  unfold AckedPops
  decide

/-- **Calm runs drop nothing.**  In every run whose steps are all calm, from any slot and any
store, an entry has left the queues only after a batch that printed it was applied by the slave
and acknowledged. -/
theorem ackedPops_of_calm (rinfo : RepInfo) (db : GentDb) (now : ℕ) (is_sync_all uninit : Bool)
    (evs : List Ev) (hcalm : Transition.Along step Calm (init rinfo db now is_sync_all uninit) evs)
    (hrun : Transition.run step (init rinfo db now is_sync_all uninit) evs = some s) :
    s.AckedPops :=
  (Transition.inv_run (fun _ _ _ h hc hs => h.step hc hs) evs (AckInv.init ..) hcalm hrun).safe

/-- A write, its batch, the slave's answer, and the acknowledged pop. -/
def calmRun : List Ev :=
  [.store 1700000000 (.put (lit "a") (lit "1") 0 1), .push 1700000000 .ADD (lit "a"),
    .resend, .deliver, .masterHandle 1700000000, .apply, .deliver, .masterHandle 1700000001]

theorem ackedPops_of_calm_calmRun :
    ∃ s, Transition.run step (init (RepInfo.fresh (lit "slave")) .empty 1700000000 true false)
        calmRun = some s ∧ s.popped.length = 1 ∧ s.AckedPops := by
  refine ⟨_, rfl, by decide, ?_⟩
  exact ackedPops_of_calm (RepInfo.fresh (lit "slave")) .empty 1700000000 true false calmRun
    (by decide) rfl

end RepSystem

end Riser
