import Riser.Core.Loop
import Riser.Repl.Acknowledge
import Riser.Repl.GentRepMgr

/-!
# Clearing the queues of a slave that is logged out

`Logout` hands the replication to a thread that deletes it, and the destructor calls `Pop` until
`main_que_length` is zero.  But `Pop` removes **flagged entries only**, and only those of the queue
that is being worked on.  An entry that was never sent stays where it is, and the destructor runs on
for ever.

`clears_iff` is about every state that a replication can get into: the loop ends, and then with both
queues empty, exactly if every entry in the two queues has been sent.
-/

namespace Riser

open Cpp

namespace GentReplication

/-- One turn of the loop of `~GentReplication`. -/
def clearTurn (now : ℕ) (r : GentReplication) : Loop.Outcome GentReplication GentReplication :=
  if 0 < r.main_que_length then .next (r.pop false now) else .leave r

/-- **The destructor ends**, with both queues empty. -/
def Clears (now : ℕ) (r : GentReplication) : Prop :=
  ∃ n r', Loop.run (clearTurn now) n r = some r' ∧ r'.que = [] ∧ r'.main_que = []

/-! ## What `Pop` leaves -/

variable {r : GentReplication}

/-- What leaves the queue is a flagged front part of it. -/
lemma popSynced_suffix (max : ℕ) (q : List ItemData) :
    ∃ p, q = p ++ popSynced max q ∧ ∀ it ∈ p, it.is_sync = true := by
  induction max generalizing q with
  | zero => exact ⟨[], rfl, by simp⟩
  | succ max ih =>
      cases q with
      | nil => exact ⟨[], rfl, by simp⟩
      | cons it q =>
          cases hsync : it.is_sync with
          | false => exact ⟨[], by simp [popSynced, hsync], by simp⟩
          | true =>
              obtain ⟨p, hp, hflag⟩ := ih q
              refine ⟨it :: p, ?_, ?_⟩
              · rw [popSynced, if_pos hsync, List.cons_append, ← hp]
              · rintro x (_ | ⟨_, hx⟩)
                · exact hsync
                · exact hflag x hx

/-- A flagged entry at the front does leave. -/
lemma length_popSynced_lt {it : ItemData} (hsync : it.is_sync = true) (max : ℕ) (q : List ItemData) :
    (popSynced (max + 1) (it :: q)).length < (it :: q).length := by
  obtain ⟨p, hp, -⟩ := popSynced_suffix max q
  have hlen := congrArg List.length hp
  rw [List.length_append] at hlen
  rw [popSynced, if_pos hsync, List.length_cons]
  omega

/-- `Pop` works on the active queue, and leaves the other one alone. -/
lemma pop_active (r : GentReplication) (now : ℕ) :
    (r.pop false now).active = popSynced (syncNum * 2) r.active ∧
      (r.pop false now).resting = r.resting := by
  cases hflag : r.is_update_que <;> simp [pop, active, resting, hflag]

lemma length_pending (r : GentReplication) :
    r.pending.length = r.active.length + r.resting.length := by
  cases hflag : r.is_update_que <;> simp [pending, active, resting, hflag, Nat.add_comm]

/-- The counter says how many entries there are. -/
def Counted (r : GentReplication) : Prop := r.main_que_length = r.pending.length

/-- `Pop` takes off the counter what it takes off the queue. -/
lemma Counted.pop (h : r.Counted) (now : ℕ) : (r.pop false now).Counted := by
  obtain ⟨p, hp, -⟩ := popSynced_suffix (syncNum * 2) r.active
  have hlen := congrArg List.length hp
  obtain ⟨hactive, hrest⟩ := pop_active r now
  rw [Counted, length_pending] at h
  rw [List.length_append] at hlen
  rw [Counted, length_pending, hactive, hrest]
  cases hflag : r.is_update_que with
  | false =>
      simp only [active, hflag, Bool.false_eq_true, if_false] at h hlen ⊢
      simp only [GentReplication.pop, hflag, if_true]
      omega
  | true =>
      simp only [active, hflag, if_true] at h hlen ⊢
      simp only [GentReplication.pop, hflag, Bool.true_eq_false, if_false]
      omega

/-! ## The loop -/

lemma clearTurn_next {now : ℕ} {r' : GentReplication} (h : clearTurn now r = .next r') :
    r' = r.pop false now := by
  unfold clearTurn at h
  split_ifs at h
  exact (Loop.Outcome.next.inj h).symm

lemma clearTurn_leave {now : ℕ} {r' : GentReplication} (h : clearTurn now r = .leave r') :
    r' = r ∧ r.main_que_length = 0 := by
  unfold clearTurn at h
  split_ifs at h with hlen
  exact ⟨(Loop.Outcome.leave.inj h).symm, by omega⟩

/-- A loop that ends leaves nothing. -/
lemma clears_of_ends (h : r.Counted) {now : ℕ} (hends : Loop.Ends (clearTurn now) r) :
    r.Clears now := by
  obtain ⟨n, r', hrun⟩ := hends
  have hstep : ∀ s s', Counted s → clearTurn now s = .next s' → Counted s' := by
    intro s s' hs hnext
    rw [clearTurn_next hnext]
    exact hs.pop now
  obtain ⟨s, hs, hleave⟩ := Loop.leaves_of_run hstep h hrun
  obtain ⟨rfl, hzero⟩ := clearTurn_leave hleave
  have hnil : r'.pending = [] := List.length_eq_zero_iff.mp (hs.symm.trans hzero)
  exact ⟨n, r', hrun, List.append_eq_nil_iff.mp hnil⟩

/-- If all entries are flagged, every turn removes some. -/
lemma ends_of_synced (now : ℕ) (h : r.Counted) (hrest : r.resting = [])
    (hsync : ∀ it ∈ r.active, it.is_sync = true) : Loop.Ends (clearTurn now) r := by
  refine Loop.ends_of_measure (fun r => r.active.length)
    (fun r => r.Counted ∧ r.resting = [] ∧ ∀ it ∈ r.active, it.is_sync = true) ?_ r
    ⟨h, hrest, hsync⟩
  rintro r ⟨hcount, hrest, hsync⟩
  unfold clearTurn
  rw [Counted, length_pending, hrest, List.length_nil, Nat.add_zero] at hcount
  cases hq : r.active with
  | nil => exact Or.inl ⟨r, if_neg (by rw [hcount, hq]; exact Nat.lt_irrefl 0)⟩
  | cons it q =>
      refine Or.inr ⟨r.pop false now, if_pos (by rw [hcount, hq]; exact Nat.succ_pos _), ?_, ?_⟩
      · obtain ⟨hactive, hrest'⟩ := pop_active r now
        obtain ⟨p, hp, -⟩ := popSynced_suffix (syncNum * 2) r.active
        refine ⟨Counted.pop (by rw [Counted, length_pending, hrest]; exact hcount) now,
          hrest'.trans hrest, fun x hx => hsync x ?_⟩
        rw [hp, ← hactive]
        exact List.mem_append_right _ hx
      · rw [(pop_active r now).1, hq]
        exact length_popSynced_lt (hsync it (by rw [hq]; exact List.mem_cons_self)) _ q

/-- An entry that is not flagged, or is in the other queue, stays for ever. -/
lemma not_ends_of_unsynced (now : ℕ) (h : r.Counted)
    (hstuck : r.resting ≠ [] ∨ ∃ it ∈ r.active, it.is_sync = false) :
    ¬ Loop.Ends (clearTurn now) r := by
  refine Loop.not_ends_of_inv
    (fun r => r.Counted ∧ (r.resting ≠ [] ∨ ∃ it ∈ r.active, it.is_sync = false)) ?_ r ⟨h, hstuck⟩
  rintro r ⟨hcount, hstuck⟩
  obtain ⟨hactive, hrest⟩ := pop_active r now
  have hpos : 0 < r.main_que_length := by
    rw [hcount, length_pending]
    rcases hstuck with hne | ⟨it, hit, -⟩
    · exact Nat.add_pos_right _ (List.length_pos_of_ne_nil hne)
    · exact Nat.add_pos_left (List.length_pos_of_mem hit) _
  refine ⟨r.pop false now, if_pos hpos, hcount.pop now, ?_⟩
  rcases hstuck with hne | ⟨it, hit, hunsent⟩
  · exact Or.inl (hrest ▸ hne)
  · obtain ⟨p, hp, hflag⟩ := popSynced_suffix (syncNum * 2) r.active
    rw [hp] at hit
    rcases List.mem_append.mp hit with hit | hit
    · exact absurd (hflag it hit) (by simp [hunsent])
    · exact Or.inr ⟨it, by rw [hactive]; exact hit, hunsent⟩

/-- **When the destructor ends**, whatever is in the queues. -/
lemma clears_iff_synced (now : ℕ) (h : r.Counted) :
    r.Clears now ↔ r.resting = [] ∧ ∀ it ∈ r.active, it.is_sync = true := by
  constructor
  · rintro ⟨n, r', hrun, -⟩
    by_contra hstuck
    refine not_ends_of_unsynced now h ?_ ⟨n, r', hrun⟩
    by_cases hrest : r.resting = []
    · refine Or.inr ?_
      by_contra hall
      exact hstuck ⟨hrest, fun it hit => by
        by_contra hne
        exact hall ⟨it, hit, by simpa using hne⟩⟩
    · exact Or.inl hrest
  · rintro ⟨hrest, hsync⟩
    exact clears_of_ends h (ends_of_synced now h hrest hsync)

/-- In the states that occur, the other queue holds nothing that was sent. -/
lemma QueueInv.synced_iff (h : QueueInv r) :
    (r.resting = [] ∧ ∀ it ∈ r.active, it.is_sync = true) ↔ ∀ it ∈ r.pending, it.is_sync = true := by
  cases hflag : r.is_update_que with
  | false => simp [resting, active, pending, hflag, h.drained hflag]
  | true =>
      simp only [resting, active, pending, hflag, if_true]
      constructor
      · rintro ⟨hmain, hque⟩ it hit
        rw [hmain, List.append_nil] at hit
        exact hque it hit
      · intro hall
        refine ⟨List.eq_nil_iff_forall_not_mem.mpr fun it hit => ?_,
          fun it hit => hall it (List.mem_append_left _ hit)⟩
        have hunsent := h.waiting hflag it hit
        exact absurd (hall it (List.mem_append_right _ hit)) (by simp [hunsent])

end GentReplication

/-! ## Every state that occurs -/

namespace RepSystem

open GentReplication

variable {s s' : RepSystem}

/-- The shape of the queues, and what the slave can have said. -/
structure QueuesOk (s : RepSystem) : Prop where
  queues : s.rep.QueueInv
  heard : s.rep.conn = true → s.repmsg = lit "ok" ∨ s.repmsg = lit "data"

lemma send_repmsg (s : RepSystem) (b : Batch) : (s.send b).repmsg = s.repmsg := by
  cases b <;> rfl

lemma QueuesOk.masterHandle (h : QueuesOk s) {now : ℕ} (hs : s.masterHandle now = some s') :
    QueuesOk s' := by
  unfold RepSystem.masterHandle at hs
  split_ifs at hs with hmsg hconn
  · obtain rfl := Option.some.inj hs
    exact ⟨h.queues, h.heard⟩
  · have hheard := h.heard (by simpa using hconn)
    cases hstart : s.rep.start s.db now s.repmsg with
    | error f => simp [hstart] at hs
    | ok res =>
        obtain ⟨r, b, ret⟩ := res
        simp only [hstart, Option.some.injEq] at hs
        subst hs
        exact ⟨(h.queues.start hheard hstart).1, fun _ => by rw [send_repmsg]; exact hheard⟩

/-- **Every step keeps the shape of the queues.** -/
lemma QueuesOk.step (h : QueuesOk s) {e : Ev} (hs : s.step e = some s') : QueuesOk s' := by
  cases e with
  | store now call =>
      simp only [RepSystem.step] at hs
      split at hs
      · cases hs
        exact ⟨h.queues, h.heard⟩
      · cases hs
  | push now type key =>
      cases hs
      refine ⟨h.queues.push .., fun hconn => h.heard ?_⟩
      have hsame : (s.rep.push now s.next type key).1.conn = s.rep.conn := by
        unfold GentReplication.push
        split_ifs <;> rfl
      exact hsame ▸ hconn
  | deliver =>
      simp only [RepSystem.step] at hs
      split at hs
      · cases hs
      · rename_i m ms hmsgs
        cases hs
        refine ⟨h.queues.setConn true, fun _ => ?_⟩
        cases m with
        | data => exact Or.inr rfl
        | ok b => exact Or.inl rfl
  | masterHandle now => exact h.masterHandle hs
  | apply =>
      simp only [RepSystem.step] at hs
      split at hs
      · cases hs
      · cases hs
        exact ⟨h.queues, h.heard⟩
  | resend =>
      cases hs
      exact ⟨h.queues, h.heard⟩
  | reconnect =>
      cases hs
      exact ⟨h.queues.setConn false, (by simp)⟩

lemma QueuesOk.init (rinfo : RepInfo) (db : GentDb) (now : ℕ) (is_sync_all uninit : Bool) :
    QueuesOk (init rinfo db now is_sync_all uninit) :=
  ⟨(AckInv.init rinfo db now is_sync_all uninit).queues,
    (AckInv.init rinfo db now is_sync_all uninit).heard⟩

/-- **The destructor ends exactly if every entry was sent**, in every state in which `Logout` is
accepted. -/
theorem clears_iff (rinfo : RepInfo) (db : GentDb) (now : ℕ) (is_sync_all uninit : Bool)
    (evs : List Ev) (s : RepSystem)
    (hrun : Transition.run step (init rinfo db now is_sync_all uninit) evs = some s)
    (hout : s.rep.setLogout.1 = true) (clock : ℕ) :
    s.rep.setLogout.2.Clears clock ↔ ∀ it ∈ s.rep.pending, it.is_sync = true := by
  have hinv : QueuesOk s := Transition.inv_run_of_step (fun _ _ _ h hs => QueuesOk.step h hs)
    (QueuesOk.init rinfo db now is_sync_all uninit) hrun
  have hout' : s.rep.setLogout.2
      = { s.rep with is_run := false, rinfo := s.rep.rinfo.set .available 0 } := by
    unfold setLogout at hout ⊢
    split_ifs at hout ⊢
    rfl
  rw [clears_iff_synced clock (by rw [hout']; exact hinv.queues.length), hout',
    ← hinv.queues.synced_iff]
  rfl

/-- A write that is sent to the slave, before the connection breaks. -/
def sentRun : List Ev :=
  [.push 1700000000 .DEL (lit "a"), .resend, .deliver, .masterHandle 1700000000, .reconnect]

theorem clears_iff_sentRun :
    ∃ s, Transition.run step (init (RepInfo.fresh (lit "slave")) .empty 1700000000 true false)
        sentRun = some s ∧ s.rep.main_que_length = 1 ∧ s.rep.setLogout.2.Clears 1700000001 := by
  refine ⟨_, rfl, by decide, ?_⟩
  exact (clears_iff (RepInfo.fresh (lit "slave")) .empty 1700000000 true false sentRun _ rfl
    (by decide) 1700000001).mpr (by decide)

/-- **A write for a slave that is not connected** is never sent, and the slave can be logged out. -/
theorem clears_unsent :
    ∃ s, Transition.run step (init (RepInfo.fresh (lit "slave")) .empty 1700000000 true false)
        [.push 1700000000 .ADD (lit "a")] = some s ∧ s.rep.setLogout.1 = true ∧
      ¬ s.rep.setLogout.2.Clears 1700000001 := by
  refine ⟨_, rfl, by decide, ?_⟩
  rw [clears_iff_synced 1700000001 (by unfold Counted; decide)]
  decide

end RepSystem

end Riser
