import Riser.Core.Transition
import Riser.Repl.GentReplication

/-!
# The locks of the replications and the master's queue

`GentReplication::Push` sends its notification **while it holds `que_push_lock`**, and the sending may
wait: `master_msg_` is bounded.  The only thread that makes room in it is the master thread, and that
needs the lock, in `Pop` and in `front_nums_element`.  So the two can wait for each other.

What happens under a lock is one step, except for the notification.  Nothing depends on which thread a
step is taken by, so a lock says how far its holder is, and the REP requests in progress are a list.

* `Inv` bounds what can be in the queue.  A replication can notify once for each time its length is
  zero, and only a `Start` that acknowledges a batch makes it zero again; that `Start` uses up a
  message, and an earlier one was used up to send the batch (`weight`).
* So **the two never wait for each other as long as the REP messages and the replications they name are
  at most one more than the places of the queue**, and a run with one more exists for every capacity.
-/

namespace Riser

open Cpp

namespace GentReplication

/-- `Push` up to the notification: the entry is in `main_que` and not yet counted. -/
def enqueue (r : GentReplication) (id : ℕ) (type : OptType) (key : Str) : GentReplication :=
  { r with main_que := r.main_que ++ [⟨id, key, type, false⟩] }

/-- `Push` behind the notification. -/
def count (r : GentReplication) (now : ℕ) : GentReplication :=
  { r with main_que_length := r.main_que_length + 1, rinfo := r.rinfo.set .ser_time now }

/-- The two halves are `Push`. -/
theorem count_enqueue {r : GentReplication} (hrun : r.is_run = true) (now id : ℕ) (type : OptType)
    (key : Str) : (r.enqueue id type key).count now = (r.push now id type key).1 := by
  simp [enqueue, count, push, hrun]

end GentReplication

/-- A `que_push_lock`: free, or held by a writer that is to push to `master_msg_`, or that is to write
the byte. -/
inductive Lock where
  | free
  | notify
  | write
  deriving DecidableEq

/-- Where the master thread is: in `MasterHandle`, or in `Start` before one of its two locks. -/
inductive MasterPoint where
  | idle
  | hasByte
  | popped (r : Str)
  | pop (r : Str)
  | front (r : Str)
  deriving DecidableEq

/-- The replications by name, their locks, the REP requests that have not sent their message or not
written their byte, and the queue and pipe to the master thread.  `named` and `sent` keep account of the
REP requests. -/
structure MasterQueue where
  reps : Str → GentReplication
  lock : Str → Lock
  pending : List Str
  owed : ℕ
  queue : List Str
  pipe : ℕ
  master : MasterPoint
  named : Finset Str
  sent : ℕ

namespace MasterQueue

/-- What the threads do next. -/
inductive Event where
  | rep (r : Str)
  | repSend (r : Str)
  | repWrite (ok : Bool)
  | push (r : Str) (now id : ℕ) (type : OptType) (key : Str)
  | notify (r : Str)
  | notifyWrite (r : Str) (now : ℕ) (ok : Bool)
  | close (r : Str)
  | read
  | popMsg
  | skip
  | start (r msg : Str)
  | pop (now : ℕ)
  | front (db : GentDb) (now : ℕ)

/-- Nobody is connected, and nothing was sent. -/
def init (reps : Str → GentReplication) : MasterQueue where
  reps r := { reps r with conn := false, status := 0 }
  lock _ := .free
  pending := []
  owed := 0
  queue := []
  pipe := 0
  master := .idle
  named := ∅
  sent := 0

/-- The replication of a name changes. -/
def setRep (s : MasterQueue) (r : Str) (rep : GentReplication) : MasterQueue :=
  { s with reps := Function.update s.reps r rep }

/-- A byte is written to the master's pipe, if the write succeeds. -/
def wrote (s : MasterQueue) (ok : Bool) : MasterQueue :=
  { s with pipe := if ok then s.pipe + 1 else s.pipe }

/-- `GentProcessRep::Complete` up to `SendMasterMsg`. -/
def rep (s : MasterQueue) (r : Str) : MasterQueue :=
  { s.setRep r { s.reps r with conn := true } with
    pending := r :: s.pending
    named := insert r s.named }

/-- `GentReplication::Push` up to the notification, or to its end if there is none. -/
def push (s : MasterQueue) (r : Str) (now id : ℕ) (type : OptType) (key : Str) : MasterQueue :=
  if (s.reps r).is_run = false then s
  else if (s.reps r).main_que_length = 0 ∧ (s.reps r).conn = true then
    { s.setRep r ((s.reps r).enqueue id type key) with lock := Function.update s.lock r .notify }
  else s.setRep r (((s.reps r).enqueue id type key).count now)

/-- `MasterHandle` behind its `Pop`, and `Start` up to its first lock. -/
def start (s : MasterQueue) (r msg : Str) : MasterQueue :=
  let rep := { s.reps r with conn := true }
  if msg ≠ lit "ok" ∧ msg ≠ lit "data" then { s.setRep r rep with master := .idle }
  else if rep.status = 1 then
    { s.setRep r { rep with status := 0 } with
      master := if msg = lit "ok" then .pop r else .front r }
  else { s.setRep r rep with master := .front r }

/-- The batch of `Start`, behind `front_nums_element`. -/
def front (s : MasterQueue) (r : Str) (db : GentDb) (now : ℕ) : Option MasterQueue :=
  match (s.reps r).frontNumsElement now syncNum with
  | (rep, none) => some { s.setRep r rep with master := .idle }
  | (rep, some syncData) =>
      match GentReplication.batchLoop db now syncData [] with
      | .error _ => none
      | .ok p => some { s.setRep r ({ rep with status := 1 }.setFront p.1) with master := .idle }

/-- One step; `none` while a thread has to wait, or is elsewhere.  `MasterHandle` may end without a
`Start`: the connection has gone, or there is no place for the name. -/
def step (cap : ℕ) (s : MasterQueue) : Event → Option MasterQueue
  | .rep r => some (s.rep r)
  | .repSend r =>
      if r ∈ s.pending ∧ s.queue.length < cap then
        some { s with
          pending := s.pending.erase r
          queue := s.queue ++ [r]
          owed := s.owed + 1
          sent := s.sent + 1 }
      else none
  | .repWrite ok => if 0 < s.owed then some { s.wrote ok with owed := s.owed - 1 } else none
  | .push r now id type key => if s.lock r = .free then some (s.push r now id type key) else none
  | .notify r =>
      if s.lock r = .notify ∧ s.queue.length < cap then
        some { s with queue := s.queue ++ [r], lock := Function.update s.lock r .write }
      else none
  | .notifyWrite r now ok =>
      if s.lock r = .write then
        some { (s.setRep r ((s.reps r).count now)).wrote ok with
          lock := Function.update s.lock r .free }
      else none
  | .close r => some (s.setRep r { s.reps r with conn := false })
  | .read =>
      if s.master = .idle ∧ 0 < s.pipe then some { s with master := .hasByte, pipe := s.pipe - 1 }
      else none
  | .popMsg =>
      match s.master, s.queue with
      | .hasByte, r :: rest => some { s with master := .popped r, queue := rest }
      | _, _ => none
  | .skip =>
      match s.master with
      | .popped _ => some { s with master := .idle }
      | _ => none
  | .start r msg =>
      match s.master with
      | .popped r' =>
          -- the name is that of the last request on the connection, which may be another one
          if (s.reps r').conn = true ∧ r ∈ s.named then some (s.start r msg) else none
      | _ => none
  | .pop now =>
      match s.master with
      | .pop r =>
          if s.lock r = .free then
            some { s.setRep r ((s.reps r).pop true now) with master := .front r }
          else none
      | _ => none
  | .front db now =>
      match s.master with
      | .front r => if s.lock r = .free then s.front r db now else none
      | _ => none

/-- **The two wait for each other**: a writer for room in the queue, and the master thread for the
writer's lock. -/
def Deadlock (cap : ℕ) (s : MasterQueue) : Prop :=
  ∃ r, s.lock r = .notify ∧ cap ≤ s.queue.length ∧ (s.master = .pop r ∨ s.master = .front r)

section Accounts

variable {cap : ℕ} {s s' : MasterQueue} {r : Str}

/-- What a replication can still add to the queue: a notification if its length is zero and it has not
sent one, and another one after the acknowledgement of a batch. -/
def weight (rep : GentReplication) (lock : Lock) : ℕ :=
  (if rep.main_que_length = 0 ∧ lock ≠ .write then 1 else 0) + if rep.status = 1 then 1 else 0

/-- What the message that the master thread has can still lead to. -/
def masterWeight : MasterPoint → ℕ
  | .idle => 0
  | .hasByte => 0
  | .popped _ => 1
  | .pop _ => 2
  | .front _ => 1

/-- The part of one name in the account. -/
def share (s : MasterQueue) (r : Str) : ℕ :=
  if r ∈ s.named then weight (s.reps r) (s.lock r) else 0

/-- The replications' part in the account. -/
def total (s : MasterQueue) : ℕ := ∑ r ∈ s.named, weight (s.reps r) (s.lock r)

/-- **The account**: every message is a REP message, or was paid for by a replication. -/
structure Inv (s : MasterQueue) : Prop where
  zero : ∀ r, s.lock r = .notify → (s.reps r).main_que_length = 0
  notifying : ∀ r, s.lock r = .notify → r ∈ s.named
  conn : ∀ r, (s.reps r).conn = true → r ∈ s.named
  status : ∀ r, r ∉ s.named → (s.reps r).status = 0
  target : ∀ r, s.master = .pop r ∨ s.master = .front r → r ∈ s.named
  paid : s.queue.length + masterWeight s.master + s.total ≤ s.sent + s.named.card

/-- A step touches the replication and the lock of at most one name. -/
structure Only (s s' : MasterQueue) (r : Str) : Prop where
  named : s'.named = s.named
  reps : ∀ x, x ≠ r → s'.reps x = s.reps x
  lock : ∀ x, x ≠ r → s'.lock x = s.lock x

/-- The account changes by the part of that name. -/
lemma Only.total_eq (h : Only s s' r) : s'.total + s.share r = s.total + s'.share r := by
  unfold total share
  rw [h.named]
  have hrest : ∀ x ∈ s.named.erase r,
      weight (s'.reps x) (s'.lock x) = weight (s.reps x) (s.lock x) := fun x hx => by
    rw [h.reps x (Finset.ne_of_mem_erase hx), h.lock x (Finset.ne_of_mem_erase hx)]
  by_cases hr : r ∈ s.named
  · rw [if_pos hr, if_pos hr, ← Finset.add_sum_erase _ _ hr, ← Finset.add_sum_erase _ _ hr,
      Finset.sum_congr rfl hrest]
    omega
  · rw [Finset.erase_eq_of_notMem hr] at hrest
    rw [if_neg hr, if_neg hr, Finset.sum_congr rfl hrest]

/-- **The rule for a step**: what is to be shown is about the one name, and the account. -/
lemma Inv.change (h : Inv s) (honly : Only s s' r)
    (hzero : s'.lock r = .notify → (s'.reps r).main_que_length = 0)
    (hnotifying : s'.lock r = .notify → r ∈ s.named)
    (hconn : (s'.reps r).conn = true → r ∈ s.named)
    (hstatus : r ∉ s.named → (s'.reps r).status = 0)
    (htarget : ∀ x, s'.master = .pop x ∨ s'.master = .front x → x ∈ s.named)
    (hpaid : s'.queue.length + masterWeight s'.master + s'.share r + s.sent ≤
      s.queue.length + masterWeight s.master + s.share r + s'.sent) : Inv s' where
  zero x := by
    rcases eq_or_ne x r with rfl | hne
    · exact hzero
    · rw [honly.lock x hne, honly.reps x hne]
      exact h.zero x
  notifying x := by
    rw [honly.named]
    rcases eq_or_ne x r with rfl | hne
    · exact hnotifying
    · rw [honly.lock x hne]
      exact h.notifying x
  conn x := by
    rw [honly.named]
    rcases eq_or_ne x r with rfl | hne
    · exact hconn
    · rw [honly.reps x hne]
      exact h.conn x
  status x := by
    rw [honly.named]
    rcases eq_or_ne x r with rfl | hne
    · exact hstatus
    · rw [honly.reps x hne]
      exact h.status x
  target := honly.named ▸ htarget
  paid := by
    have htotal := honly.total_eq
    have hpay := h.paid
    rw [honly.named]
    omega

/-- A step that changes neither a replication nor a lock. -/
lemma Inv.same (h : Inv s) (hreps : s'.reps = s.reps) (hlock : s'.lock = s.lock)
    (hnamed : s'.named = s.named)
    (htarget : ∀ x, s'.master = .pop x ∨ s'.master = .front x → x ∈ s.named)
    (hpaid : s'.queue.length + masterWeight s'.master + s.sent ≤
      s.queue.length + masterWeight s.master + s'.sent) : Inv s' := by
  have hshare : s'.share [] = s.share [] := by simp only [share, hreps, hlock, hnamed]
  refine h.change (r := []) ⟨hnamed, fun _ _ => by rw [hreps], fun _ _ => by rw [hlock]⟩ ?_ ?_ ?_ ?_
    htarget (by omega)
  · rw [hreps, hlock]
    exact h.zero []
  · rw [hlock]
    exact h.notifying []
  · rw [hreps]
    exact h.conn []
  · rw [hreps]
    exact h.status []

lemma Inv.init (reps : Str → GentReplication) : Inv (init reps) where
  zero _ hr := nomatch hr
  notifying _ hr := nomatch hr
  conn _ hr := nomatch hr
  status _ _ := rfl
  target _ hr := by simp [MasterQueue.init] at hr
  paid := le_refl 0

/-- **The account rules the deadlock out.** -/
lemma Inv.not_deadlock (h : Inv s) (hfew : s.sent + s.named.card ≤ cap + 1) : ¬Deadlock cap s := by
  rintro ⟨r, hlock, hfull, hmaster⟩
  have hmem : r ∈ s.named := h.notifying r hlock
  have hone : 1 ≤ weight (s.reps r) (s.lock r) := by simp [weight, h.zero r hlock, hlock]
  have htotal : weight (s.reps r) (s.lock r) ≤ s.total :=
    Finset.single_le_sum (f := fun r => weight (s.reps r) (s.lock r)) (fun _ _ => Nat.zero_le _) hmem
  have hheld : 1 ≤ masterWeight s.master := by
    rcases hmaster with hm | hm
    · simp [hm, masterWeight]
    · simp [hm, masterWeight]
  have hpaid := h.paid
  omega

/-! ### The steps -/

lemma only_setRep (s : MasterQueue) (r : Str) (rep : GentReplication) :
    Only s (s.setRep r rep) r :=
  ⟨rfl, fun _ hne => Function.update_of_ne hne .., fun _ _ => rfl⟩

/-- A name is mentioned: it may notify once. -/
lemma Inv.name (h : Inv s) (r : Str) : Inv { s with named := insert r s.named } where
  zero := h.zero
  notifying x hx := Finset.mem_insert_of_mem (h.notifying x hx)
  conn x hx := Finset.mem_insert_of_mem (h.conn x hx)
  status x hx := h.status x fun hmem => hx (Finset.mem_insert_of_mem hmem)
  target x hx := Finset.mem_insert_of_mem (h.target x hx)
  paid := by
    have hpaid := h.paid
    by_cases hr : r ∈ s.named
    · rw [Finset.insert_eq_of_mem hr]
      exact hpaid
    · have hweight : weight (s.reps r) (s.lock r) ≤ 1 := by
        simp only [weight, h.status r hr, zero_ne_one, if_false, add_zero]
        split_ifs <;> omega
      simp only [total, Finset.sum_insert hr, Finset.card_insert_of_notMem hr] at hpaid ⊢
      omega

lemma Inv.rep (h : Inv s) (r : Str) : Inv (s.rep r) := by
  have hname := h.name r
  have hmem : r ∈ insert r s.named := Finset.mem_insert_self r s.named
  refine hname.change (r := r) ⟨rfl, fun _ hne => Function.update_of_ne hne .., fun _ _ => rfl⟩
    ?_ (fun _ => hmem) (fun _ => hmem) (fun hr => absurd hmem hr) hname.target (le_of_eq ?_)
  · simp only [MasterQueue.rep, setRep, Function.update_self]
    exact h.zero r
  · simp [share, weight, MasterQueue.rep, setRep]

lemma Inv.push (h : Inv s) (hfree : s.lock r = .free) (now id : ℕ) (type : OptType) (key : Str) :
    Inv (s.push r now id type key) := by
  unfold MasterQueue.push
  split_ifs with hrun hnotify
  · exact h
  · refine h.change (r := r) ⟨rfl, fun _ hne => Function.update_of_ne hne ..,
      fun _ hne => Function.update_of_ne hne ..⟩ ?_ (fun _ => h.conn r hnotify.2)
      (fun _ => h.conn r hnotify.2) (fun hr => absurd (h.conn r hnotify.2) hr) h.target (le_of_eq ?_)
    · simp only [setRep, Function.update_self]
      exact fun _ => hnotify.1
    · simp [share, weight, setRep, GentReplication.enqueue, hfree]
  · refine h.change (only_setRep s r _) ?_ ?_ ?_ ?_ h.target ?_
    · simp [setRep, hfree]
    · simp [setRep, hfree]
    · simp only [setRep, Function.update_self]
      exact h.conn r
    · simp only [setRep, Function.update_self]
      exact h.status r
    · -- a length that is counted up is not zero
      have hle : weight (((s.reps r).enqueue id type key).count now) (s.lock r) ≤
          weight (s.reps r) (s.lock r) := by
        simp only [weight, GentReplication.enqueue, GentReplication.count, Nat.add_eq_zero_iff,
          one_ne_zero, and_false, false_and, if_false, zero_add]
        exact Nat.le_add_left _ _
      simp only [share, setRep, Function.update_self]
      split_ifs <;> omega

lemma Inv.notify (h : Inv s) (hlock : s.lock r = .notify) :
    Inv { s with queue := s.queue ++ [r], lock := Function.update s.lock r .write } := by
  refine h.change (r := r) ⟨rfl, fun _ _ => rfl, fun _ hne => Function.update_of_ne hne ..⟩ ?_ ?_
    (h.conn r) (h.status r) h.target ?_
  · simp
  · simp
  · -- the notification was in the account
    have hpaid : weight (s.reps r) .write + 1 = weight (s.reps r) .notify := by
      simp [weight, h.zero r hlock, Nat.add_comm]
    simp only [share, h.notifying r hlock, hlock, Function.update_self, List.length_append,
      List.length_singleton, if_true]
    omega

lemma Inv.notifyWrite (h : Inv s) (hlock : s.lock r = .write) (now : ℕ) (ok : Bool) :
    Inv { (s.setRep r ((s.reps r).count now)).wrote ok with
      lock := Function.update s.lock r .free } := by
  refine h.change (r := r) ⟨rfl, fun _ hne => Function.update_of_ne hne ..,
    fun _ hne => Function.update_of_ne hne ..⟩ ?_ ?_ ?_ ?_ h.target (le_of_eq ?_)
  · simp
  · simp
  · simp only [wrote, setRep, Function.update_self]
    exact h.conn r
  · simp only [wrote, setRep, Function.update_self]
    exact h.status r
  · simp [share, weight, wrote, setRep, GentReplication.count, hlock]

lemma Inv.close (h : Inv s) (r : Str) : Inv (s.setRep r { s.reps r with conn := false }) := by
  refine h.change (only_setRep s r _) ?_ (h.notifying r) ?_ ?_ h.target (le_of_eq ?_)
  · simp only [setRep, Function.update_self]
    exact h.zero r
  · simp [setRep]
  · simp only [setRep, Function.update_self]
    exact h.status r
  · simp [share, weight, setRep]

lemma Inv.start (h : Inv s) {r' : Str} (hm : s.master = .popped r') (hr : r ∈ s.named) (msg : Str) :
    Inv (s.start r msg) := by
  have hset : ∀ (rep : GentReplication) (m : MasterPoint),
      rep.main_que_length = (s.reps r).main_que_length →
      (∀ x, m = .pop x ∨ m = .front x → x = r) →
      masterWeight m + (if rep.status = 1 then 1 else 0) ≤
        1 + (if (s.reps r).status = 1 then 1 else 0) →
      Inv { s.setRep r rep with master := m } := by
    intro rep m hlen hmaster hweight
    refine h.change (r := r) ⟨rfl, fun _ hne => Function.update_of_ne hne .., fun _ _ => rfl⟩ ?_
      (fun _ => hr) (fun _ => hr) (fun hnot => absurd hr hnot) (fun x hx => hmaster x hx ▸ hr) ?_
    · simp only [setRep, Function.update_self, hlen]
      exact h.zero r
    · have hone : masterWeight s.master = 1 := by rw [hm, masterWeight]
      simp only [share, weight, setRep, Function.update_self, hlen, hone, if_pos hr]
      omega
  unfold MasterQueue.start
  dsimp only
  split_ifs with hmsg hstatus hok
  · exact hset _ _ rfl (by simp) (by simp [masterWeight])
  · exact hset _ _ rfl (by simp [eq_comm]) (by simp [masterWeight, hstatus])
  · exact hset _ _ rfl (by simp [eq_comm]) (by simp [masterWeight])
  · exact hset _ _ rfl (by simp [eq_comm]) (by simp [masterWeight])

/-- What the two critical sections of `Start` leave alone. -/
lemma pop_status (rep : GentReplication) (now : ℕ) : (rep.pop true now).status = rep.status := by
  unfold GentReplication.pop
  split_ifs
  · rfl
  · rfl

lemma frontNumsElement_count {rep rep' : GentReplication} {now num : ℕ}
    {dat : Option (List ItemData)} (h : rep.frontNumsElement now num = (rep', dat)) :
    rep'.main_que_length = rep.main_que_length := by
  unfold GentReplication.frontNumsElement at h
  by_cases hque : rep.is_update_que = false
  · rw [if_pos hque] at h
    obtain ⟨rfl, -⟩ := Prod.mk.inj h
    rfl
  · rw [if_neg hque] at h
    split at h
    · obtain ⟨rfl, -⟩ := Prod.mk.inj h
      rfl
    · obtain ⟨rfl, -⟩ := Prod.mk.inj h
      rfl

lemma setFront_length (rep : GentReplication) (synced : List ItemData) :
    (rep.setFront synced).main_que_length = rep.main_que_length := by
  unfold GentReplication.setFront
  split_ifs
  · rfl
  · rfl

lemma Inv.pop (h : Inv s) (hm : s.master = .pop r) (hfree : s.lock r = .free) (now : ℕ) :
    Inv { s.setRep r ((s.reps r).pop true now) with master := .front r } := by
  have hr : r ∈ s.named := h.target r (.inl hm)
  have hstatus := pop_status (s.reps r) now
  refine h.change (r := r) ⟨rfl, fun _ hne => Function.update_of_ne hne .., fun _ _ => rfl⟩ ?_
    (fun _ => hr) (fun _ => hr) (fun hnot => absurd hr hnot) (by simp [hr]) ?_
  · simp [setRep, hfree]
  · -- the length may be zero now; the message has paid for that
    simp only [share, weight, setRep, Function.update_self, hstatus, hm, masterWeight, if_pos hr]
    split_ifs <;> omega

/-- Whatever it finds, the batch leaves the master thread idle and touches one replication. -/
lemma front_eq {db : GentDb} {now : ℕ} (hfront : s.front r db now = some s') :
    ∃ rep, s' = { s.setRep r rep with master := .idle } := by
  unfold MasterQueue.front at hfront
  split at hfront
  · exact ⟨_, (Option.some.inj hfront).symm⟩
  · split at hfront
    · cases hfront
    · exact ⟨_, (Option.some.inj hfront).symm⟩

lemma Inv.front (h : Inv s) (hm : s.master = .front r) (hfree : s.lock r = .free) {db : GentDb}
    {now : ℕ} (hfront : s.front r db now = some s') : Inv s' := by
  have hr : r ∈ s.named := h.target r (.inr hm)
  have hset : ∀ rep : GentReplication, rep.main_que_length = (s.reps r).main_que_length →
      Inv { s.setRep r rep with master := .idle } := by
    intro rep hlen
    refine h.change (r := r) ⟨rfl, fun _ hne => Function.update_of_ne hne .., fun _ _ => rfl⟩ ?_
      (fun _ => hr) (fun _ => hr) (fun hnot => absurd hr hnot) (by simp) ?_
    · simp [setRep, hfree]
    · simp only [share, weight, setRep, Function.update_self, hlen, hm, masterWeight, if_pos hr]
      split_ifs <;> omega
  unfold MasterQueue.front at hfront
  split at hfront
  · next rep hnone =>
    rw [← Option.some.inj hfront]
    exact hset rep (frontNumsElement_count hnone)
  · next rep syncData hsome =>
    split at hfront
    · cases hfront
    · next p _ =>
      rw [← Option.some.inj hfront]
      have hcount : rep.main_que_length = (s.reps r).main_que_length := frontNumsElement_count hsome
      exact hset _ ((setFront_length _ p.1).trans hcount)

/-! ### Runs -/

/-- The replications that the REP requests of a run name. -/
def names : List Event → Finset Str
  | [] => ∅
  | .rep r :: es => insert r (names es)
  | _ :: es => names es

/-- How many REP requests of a run send their message. -/
def sends : List Event → ℕ
  | [] => 0
  | .repSend _ :: es => sends es + 1
  | _ :: es => sends es

/-- **The step lemma**, with the account of the REP requests. -/
lemma step_keeps {e : Event} (hstep : step cap s e = some s') :
    (Inv s → Inv s') ∧ s'.sent = s.sent + sends [e] ∧ s'.named = names [e] ∪ s.named := by
  cases e with
  | rep r =>
      rw [← Option.some.inj hstep]
      exact ⟨fun h => h.rep r, rfl, by simp [names, MasterQueue.rep, setRep]⟩
  | repSend r =>
      obtain ⟨-, hs⟩ := Option.ite_none_right_eq_some.mp hstep
      rw [← Option.some.inj hs]
      refine ⟨fun h => h.same rfl rfl rfl h.target ?_, rfl, by simp [names]⟩
      simp only [List.length_append, List.length_singleton]
      omega
  | repWrite ok =>
      obtain ⟨-, hs⟩ := Option.ite_none_right_eq_some.mp hstep
      rw [← Option.some.inj hs]
      exact ⟨fun h => h.same rfl rfl rfl h.target (le_refl _), rfl, by simp [names, wrote]⟩
  | push r now id type key =>
      obtain ⟨hfree, hs⟩ := Option.ite_none_right_eq_some.mp hstep
      rw [← Option.some.inj hs]
      refine ⟨fun h => h.push hfree now id type key, ?_, ?_⟩
      · unfold MasterQueue.push
        split_ifs <;> rfl
      · unfold MasterQueue.push
        split_ifs <;> simp [names, setRep]
  | notify r =>
      obtain ⟨⟨hlock, -⟩, hs⟩ := Option.ite_none_right_eq_some.mp hstep
      rw [← Option.some.inj hs]
      exact ⟨fun h => h.notify hlock, rfl, by simp [names]⟩
  | notifyWrite r now ok =>
      obtain ⟨hlock, hs⟩ := Option.ite_none_right_eq_some.mp hstep
      rw [← Option.some.inj hs]
      exact ⟨fun h => h.notifyWrite hlock now ok, rfl, by simp [names, wrote, setRep]⟩
  | close r =>
      rw [← Option.some.inj hstep]
      exact ⟨fun h => h.close r, rfl, by simp [names, setRep]⟩
  | read =>
      obtain ⟨⟨hm, -⟩, hs⟩ := Option.ite_none_right_eq_some.mp hstep
      rw [← Option.some.inj hs]
      refine ⟨fun h => h.same rfl rfl rfl (by simp) ?_, rfl, by simp [names]⟩
      rw [hm]
      exact le_refl _
  | popMsg =>
      simp only [step] at hstep
      split at hstep
      · next hm hq =>
        rw [← Option.some.inj hstep]
        refine ⟨fun h => h.same rfl rfl rfl (by simp) ?_, rfl, by simp [names]⟩
        simp only [hm, hq, masterWeight, List.length_cons]
        omega
      · cases hstep
  | skip =>
      simp only [step] at hstep
      split at hstep
      · next hm =>
        rw [← Option.some.inj hstep]
        refine ⟨fun h => h.same rfl rfl rfl (by simp) ?_, rfl, by simp [names]⟩
        simp only [hm, masterWeight]
        omega
      · cases hstep
  | start r msg =>
      simp only [step] at hstep
      split at hstep
      · next hm =>
        obtain ⟨⟨-, hr⟩, hs⟩ := Option.ite_none_right_eq_some.mp hstep
        rw [← Option.some.inj hs]
        refine ⟨fun h => h.start hm hr msg, ?_, ?_⟩
        · unfold MasterQueue.start
          dsimp only
          split_ifs <;> rfl
        · unfold MasterQueue.start
          dsimp only
          split_ifs <;> simp [names, setRep]
      · cases hstep
  | pop now =>
      simp only [step] at hstep
      split at hstep
      · next hm =>
        obtain ⟨hfree, hs⟩ := Option.ite_none_right_eq_some.mp hstep
        rw [← Option.some.inj hs]
        exact ⟨fun h => h.pop hm hfree now, rfl, by simp [names, setRep]⟩
      · cases hstep
  | front db now =>
      simp only [step] at hstep
      split at hstep
      · next r hm =>
        obtain ⟨hfree, hs⟩ := Option.ite_none_right_eq_some.mp hstep
        obtain ⟨rep, rfl⟩ : ∃ rep, s' = { s.setRep r rep with master := .idle } := front_eq hs
        exact ⟨fun h => h.front hm hfree hs, rfl, by simp [names, setRep]⟩
      · cases hstep

lemma sends_cons (e : Event) (es : List Event) : sends (e :: es) = sends [e] + sends es := by
  cases e <;> simp [sends, Nat.add_comm]

lemma names_cons (e : Event) (es : List Event) : names (e :: es) = names [e] ∪ names es := by
  cases e <;> simp [names]

/-- **The run lemma.** -/
lemma run_keeps {es : List Event} (hrun : Transition.run (step cap) s es = some s') :
    (Inv s → Inv s') ∧ s'.sent = s.sent + sends es ∧ s'.named = names es ∪ s.named := by
  induction es generalizing s with
  | nil =>
      obtain rfl : s = s' := Option.some.inj hrun
      exact ⟨id, rfl, (Finset.empty_union _).symm⟩
  | cons e es ih =>
      obtain ⟨s₁, h₁, hrun⟩ := Transition.run_cons hrun
      obtain ⟨hinv, hsent, hnamed⟩ := step_keeps h₁
      obtain ⟨hinv', hsent', hnamed'⟩ := ih hrun
      refine ⟨hinv' ∘ hinv, ?_, ?_⟩
      · rw [hsent', hsent, sends_cons e es, Nat.add_assoc]
      · rw [hnamed', hnamed, names_cons e es, ← Finset.union_assoc, Finset.union_comm (names es)]

end Accounts

/-! ## A run that fills the queue -/

section Filling

variable {cap : ℕ} {s : MasterQueue}

/-- A replication without entries. -/
def fresh : GentReplication where
  is_run := true
  status := 0
  is_update_que := false
  main_que := []
  que := []
  main_que_length := 0
  rinfo := RepInfo.init [] []
  conn := false

/-- Some names: `a`, `aa` and so on. -/
def name (i : ℕ) : Str := List.replicate (i + 1) 97

lemma name_inj {i j : ℕ} : name i = name j ↔ i = j := by
  simp [name, List.replicate_inj]

/-- A REP request is handled. -/
def ask (r : Str) : List Event := [.rep r, .repSend r, .repWrite true]

/-- A write is pushed to an empty replication. -/
def tell (r : Str) : List Event := [.push r 0 0 .ADD [], .notify r, .notifyWrite r 0 true]

/-- `n` messages are waiting while the master thread is before the lock of the first replication.  That
one is empty, and so are those whose number is above `i`. -/
structure Filled (i n : ℕ) (s : MasterQueue) : Prop where
  master : s.master = .front (name 0)
  length : s.queue.length = n
  free : ∀ r, s.lock r = .free
  first : (s.reps (name 0)).is_run = true ∧ (s.reps (name 0)).main_que_length = 0 ∧
    (s.reps (name 0)).conn = true
  others : ∀ j, i < j → (s.reps (name j)).is_run = true ∧ (s.reps (name j)).main_que_length = 0

/-- The state after a REP request. -/
def asked (s : MasterQueue) (r : Str) : MasterQueue :=
  { s.rep r with
    pending := (r :: s.pending).erase r
    queue := s.queue ++ [r]
    pipe := s.pipe + 1
    owed := s.owed + 1 - 1
    sent := s.sent + 1 }

/-- The state after a write. -/
def told (s : MasterQueue) (r : Str) : MasterQueue :=
  { s.setRep r (((s.reps r).enqueue 0 .ADD []).count 0) with
    queue := s.queue ++ [r]
    pipe := s.pipe + 1
    lock := Function.update s.lock r .free }

lemma run_ask (r : Str) (hroom : s.queue.length < cap) :
    Transition.run (step cap) s (ask r) = some (s.asked r) := by
  simp [ask, asked, Transition.run, step, rep, setRep, wrote, hroom]

lemma run_tell {r : Str} (hroom : s.queue.length < cap) (hfree : s.lock r = .free)
    (hrun : (s.reps r).is_run = true) (hlen : (s.reps r).main_que_length = 0)
    (hconn : (s.reps r).conn = true) :
    Transition.run (step cap) s (tell r) = some (s.told r) := by
  simp [tell, told, Transition.run, step, push, setRep, wrote, hroom, hfree, hrun, hlen, hconn]

/-- Another REP request for the first replication. -/
lemma Filled.ask {i n : ℕ} (h : Filled i n s) : Filled i (n + 1) (s.asked (name 0)) where
  master := h.master
  length := by simp [asked, h.length]
  free := h.free
  first := by simpa [asked, rep, setRep] using ⟨h.first.1, h.first.2.1⟩
  others j hj := by
    have hne : name j ≠ name 0 := fun heq => by
      rw [name_inj] at heq
      omega
    simpa [asked, rep, setRep, hne] using h.others j hj

/-- A REP request for the next replication, and a write for it. -/
lemma Filled.next {i n : ℕ} (h : Filled i n s) (hroom : n + 1 < cap) :
    Transition.run (step cap) s (MasterQueue.ask (name (i + 1)) ++ tell (name (i + 1))) =
        some ((s.asked (name (i + 1))).told (name (i + 1))) ∧
      Filled (i + 1) (n + 2) ((s.asked (name (i + 1))).told (name (i + 1))) := by
  obtain ⟨hrun, hlen⟩ := h.others (i + 1) (by omega)
  have hlength := h.length
  have hne : name 0 ≠ name (i + 1) := fun heq => by
    rw [name_inj] at heq
    omega
  refine ⟨?_, h.master, by simp [asked, told, setRep, hlength], fun r => ?_, ?_, fun j hj => ?_⟩
  · rw [Transition.run_append, run_ask _ (by omega), Option.bind_some]
    refine run_tell ?_ (h.free _) ?_ ?_ ?_
    · simp only [asked, List.length_append, List.length_singleton]
      omega
    · simpa [asked, rep, setRep] using hrun
    · simpa [asked, rep, setRep] using hlen
    · simp [asked, rep, setRep]
  · rcases eq_or_ne r (name (i + 1)) with rfl | hr
    · simp [told]
    · simpa [told, asked, rep, setRep, hr] using h.free r
  · simpa [told, asked, rep, setRep, hne] using h.first
  · have hne' : name j ≠ name (i + 1) := fun heq => by
      rw [name_inj] at heq
      omega
    simpa [told, asked, rep, setRep, hne'] using h.others j (by omega)

/-- The master thread takes the first request, and comes to the lock. -/
def opening : List Event := ask (name 0) ++ [.read, .popMsg, .start (name 0) (lit "data")]

/-- Then there are `y` other replications, with a request and a notification each, … -/
def others (y : ℕ) : List Event :=
  (List.range y).flatMap fun i => ask (name (i + 1)) ++ tell (name (i + 1))

/-- … and `x` more requests for the first one. -/
def again (x : ℕ) : List Event := (List.replicate x (ask (name 0))).flatten

/-- At last a write comes to the first replication. -/
def filling (y x : ℕ) : List Event :=
  opening ++ others y ++ again x ++ [.push (name 0) 0 0 .ADD []]

lemma filled_opening (hcap : 1 ≤ cap) :
    ∃ s, Transition.run (step cap) (init fun _ => fresh) opening = some s ∧ Filled 0 0 s := by
  have hask : Transition.run (step cap) (init fun _ => fresh) (ask (name 0)) =
      some ((init fun _ => fresh).asked (name 0)) := run_ask _ hcap
  rw [opening, Transition.run_append, hask, Option.bind_some]
  simp only [Transition.run, step, asked, rep, setRep, init, start]
  refine ⟨_, rfl, rfl, rfl, fun _ => rfl, ?_, fun j hj => ?_⟩
  · simp [fresh]
  · have hne : name j ≠ name 0 := fun heq => by
      rw [name_inj] at heq
      omega
    simp [hne, fresh]

lemma filled_others (h : Filled 0 0 s) {y : ℕ} (hroom : 2 * y ≤ cap) :
    ∃ s', Transition.run (step cap) s (others y) = some s' ∧ Filled y (2 * y) s' := by
  induction y with
  | zero => exact ⟨s, rfl, h⟩
  | succ y ih =>
      obtain ⟨s₁, hrun, hfilled⟩ := ih (by omega)
      have hnextRoom : 2 * y + 1 < cap := by omega
      obtain ⟨hnext, hfilled'⟩ := hfilled.next hnextRoom
      refine ⟨_, ?_, hfilled'⟩
      rw [others, List.range_succ, List.flatMap_append, Transition.run_append]
      rw [others] at hrun
      rw [hrun, Option.bind_some]
      simpa using hnext

lemma filled_again {i n : ℕ} (h : Filled i n s) {x : ℕ} (hroom : n + x ≤ cap) :
    ∃ s', Transition.run (step cap) s (again x) = some s' ∧ Filled i (n + x) s' := by
  induction x generalizing s n with
  | zero => exact ⟨s, rfl, h⟩
  | succ x ih =>
      obtain ⟨s', hrun, hfilled⟩ := ih h.ask (by omega)
      have hlength := h.length
      refine ⟨s', ?_, by rwa [Nat.add_right_comm] at hfilled⟩
      rw [again, List.replicate_succ, List.flatten_cons, Transition.run_append,
        run_ask _ (by omega), Option.bind_some]
      exact hrun

/-- **The run brings both threads to the lock**: the writer holds it, and the master thread is to take
it. -/
lemma filling_waits (hcap : 1 ≤ cap) {y x : ℕ} (hroom : 2 * y + x ≤ cap) :
    ∃ s, Transition.run (step cap) (init fun _ => fresh) (filling y x) = some s ∧
      s.lock (name 0) = .notify ∧ s.queue.length = 2 * y + x ∧ s.master = .front (name 0) := by
  obtain ⟨s₁, h₁, hfilled₁⟩ := filled_opening hcap
  have hothers : 2 * y ≤ cap := by omega
  obtain ⟨s₂, h₂, hfilled₂⟩ := filled_others hfilled₁ hothers
  obtain ⟨s₃, h₃, hfilled⟩ := filled_again hfilled₂ hroom
  obtain ⟨hrun, hlen, hconn⟩ := hfilled.first
  refine ⟨s₃.push (name 0) 0 0 .ADD [], ?_, ?_, ?_, ?_⟩
  · simp only [filling, Transition.run_append, h₁, h₂, h₃, Option.bind_some]
    simp [Transition.run, step, hfilled.free]
  · simp [push, hrun, hlen, hconn]
  · rw [← hfilled.length]
    simp [push, hrun, hlen, hconn, setRep]
  · simpa [push, hrun, hlen, hconn, setRep] using hfilled.master

/-- **It ends in the deadlock** if it fills the queue. -/
lemma filling_deadlock (hcap : 1 ≤ cap) {y x : ℕ} (hfull : 2 * y + x = cap) :
    ∃ s, Transition.run (step cap) (init fun _ => fresh) (filling y x) = some s ∧
      Deadlock cap s := by
  obtain ⟨s, hrun, hlock, hlength, hmaster⟩ := filling_waits hcap (le_of_eq hfull)
  exact ⟨s, hrun, name 0, hlock, by rw [hlength, hfull], .inr hmaster⟩

lemma sends_append (es es' : List Event) : sends (es ++ es') = sends es + sends es' := by
  induction es with
  | nil => simp [sends]
  | cons e es ih => rw [List.cons_append, sends_cons, ih, sends_cons e es, Nat.add_assoc]

lemma names_append (es es' : List Event) : names (es ++ es') = names es ∪ names es' := by
  induction es with
  | nil => simp [names]
  | cons e es ih => rw [List.cons_append, names_cons, ih, names_cons e es, Finset.union_assoc]

lemma sends_filling (y x : ℕ) : sends (filling y x) = 1 + y + x := by
  have hothers : sends (others y) = y := by
    induction y with
    | zero => rfl
    | succ y ih =>
        rw [others] at ih
        rw [others, List.range_succ, List.flatMap_append, sends_append, ih]
        simp [ask, tell, sends]
  have hagain : sends (again x) = x := by
    induction x with
    | zero => rfl
    | succ x ih =>
        rw [again] at ih
        rw [again, List.replicate_succ, List.flatten_cons, sends_append, ih]
        simp [ask, sends, Nat.add_comm]
  rw [filling, sends_append, sends_append, sends_append, hothers, hagain]
  simp [opening, ask, sends]

lemma card_names_filling (y x : ℕ) : (names (filling y x)).card ≤ y + 1 := by
  have hothers : names (others y) ⊆ (Finset.range (y + 1)).image name := by
    induction y with
    | zero => simp [others, names]
    | succ y ih =>
        rw [others] at ih
        rw [others, List.range_succ, List.flatMap_append, names_append]
        refine Finset.union_subset (ih.trans ?_) ?_
        · exact Finset.image_subset_image (Finset.range_mono (by omega))
        · simp only [List.flatMap_cons, List.flatMap_nil, List.append_nil, ask, tell, names,
            List.cons_append, List.nil_append, insert_empty_eq, Finset.singleton_subset_iff]
          exact Finset.mem_image_of_mem name (Finset.mem_range.mpr (by omega))
  have hfirst : {name 0} ⊆ (Finset.range (y + 1)).image name :=
    Finset.singleton_subset_iff.mpr (Finset.mem_image_of_mem name (Finset.mem_range.mpr (by omega)))
  have hagain : names (again x) ⊆ {name 0} := by
    induction x with
    | zero => simp [again, names]
    | succ x ih =>
        rw [again] at ih
        rw [again, List.replicate_succ, List.flatten_cons, names_append]
        exact Finset.union_subset (by simp [ask, names]) ih
  have hall : names (filling y x) ⊆ (Finset.range (y + 1)).image name := by
    rw [filling, names_append, names_append, names_append]
    refine Finset.union_subset (Finset.union_subset (Finset.union_subset ?_ hothers)
      (hagain.trans hfirst)) (by simp [names])
    simpa [opening, ask, names] using hfirst
  calc (names (filling y x)).card ≤ ((Finset.range (y + 1)).image name).card :=
        Finset.card_le_card hall
    _ ≤ (Finset.range (y + 1)).card := Finset.card_image_le
    _ = y + 1 := Finset.card_range _

end Filling

/-- A run with few REP messages and names, wherever it is cut off. -/
lemma run_not_deadlock {cap : ℕ} {reps : Str → GentReplication} {es : List Event} {s : MasterQueue}
    (hrun : Transition.run (step cap) (init reps) es = some s)
    (hfew : sends es + (names es).card ≤ cap + 1) : ¬Deadlock cap s := by
  obtain ⟨hinv, hsent, hnamed⟩ := run_keeps hrun
  refine (hinv (Inv.init reps)).not_deadlock ?_
  have hsent' : s.sent = sends es := by simpa [init] using hsent
  have hnamed' : s.named = names es := by simpa [init] using hnamed
  rwa [hsent', hnamed']

end MasterQueue

end Riser
