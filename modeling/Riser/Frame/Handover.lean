import Riser.Core.CppString
import Riser.Core.Deal
import Riser.Core.Transition

/-!
# The handover of accepted sockets to the workers

`HandleMain` accepts a socket and puts it into a `dataItem`; `SendThread` chooses a worker by turns,
pushes the item to the worker's queue and writes one byte to its pipe.  The worker's `Handle` reads
the byte, pops an item and takes a connection for its socket.  So there are **two channels to a
worker that must stay in step**: bytes say how many items may be popped.

If the write fails, `HandleMain` frees the item and closes the socket, *but the item is still in the
queue*.  The next byte makes the worker pop it.

* `Good` has what the handover is for, of one state.
* `good_of_inv` and `Inv.move`: as long as no write fails, what a worker was given, holds and has
  queued is a fair deal of the accepted sockets (`Deal.Fair`), and the bytes count the items.
* The handover works for exactly those thread counts for which there is a worker.
-/

namespace Riser

open Cpp

namespace GentThread

/-- `MAX_CONNECT`. -/
def maxConnect : ℕ := 10000

/-- `num` of `GentFrame::Run`: the entry `threads`, or 1. -/
def configured (threads : Str) : ℤ := if threads = [] then 1 else atoi threads

/-- `thread_count_`, as `init` sets it. -/
def threadCount (num : ℤ) : ℤ := toInt32 (num + 1)

/-- `Start` makes the threads from 1 on; number 0 is the main thread. -/
def Started (num tid : ℤ) : Prop := 1 ≤ tid ∧ tid < threadCount num

instance (num tid : ℤ) : Decidable (Started num tid) := inferInstanceAs (Decidable (_ ∧ _))

/-- The size of `msg_[tid]`: `Run` resizes the first `num` queues, and any other is made empty by
the access. -/
def capacity (num tid : ℤ) : ℕ := if 1 ≤ tid ∧ tid ≤ num then maxConnect else 0

/-- The worker that `SendThread` chooses; `none` is a division by zero. -/
def nextTid (num lastid : ℤ) : Option ℤ :=
  if threadCount num = 0 then none
  else if (lastid + 1).tmod (threadCount num) = 0 then some 1
  else some ((lastid + 1).tmod (threadCount num))

/-- Where the main thread is in `HandleMain`.  An item stands for its socket, and sockets are numbered
as they are accepted. -/
inductive Main where
  | idle
  | push (d : ℕ) (tid : ℤ)
  | write (d : ℕ) (tid : ℤ)
  | free (d : ℕ)
  | close (d : ℕ)
  | crashed
  deriving DecidableEq

/-- Where a worker is in `Handle`. -/
inductive Worker where
  | idle
  | hasByte
  | connect (d : ℕ)
  deriving DecidableEq

/-- The threads, the queues and pipes between them, and what became of the sockets. -/
structure Handover where
  lastid : ℤ
  accepted : ℕ
  msg : ℤ → List ℕ
  pipe : ℤ → ℕ
  main : Main
  worker : ℤ → Worker
  freed : List ℕ
  closed : List ℕ
  given : ℤ → List ℕ

namespace Handover

/-- What the threads do next. -/
inductive Event where
  | accept
  | push
  | write (ok : Bool)
  | free
  | close
  | read (tid : ℤ)
  | pop (tid : ℤ)
  | connect (tid : ℤ)
  deriving DecidableEq

/-- After `Start`. -/
def start : Handover where
  lastid := 0
  accepted := 0
  msg _ := []
  pipe _ := 0
  main := .idle
  worker _ := .idle
  freed := []
  closed := []
  given _ := []

/-- `HandleMain` up to the call of `Push`. -/
def accept (num : ℤ) (s : Handover) : Handover :=
  { s with
    accepted := s.accepted + 1
    main := (nextTid num s.lastid).elim .crashed (.push s.accepted) }

/-- `msg_[tid].Push(d); lastid_ = tid;` -/
def push (s : Handover) (d : ℕ) (tid : ℤ) : Handover :=
  { s with
    msg := Function.update s.msg tid (s.msg tid ++ [d])
    lastid := tid
    main := .write d tid }

/-- `write(threads_[tid].send_id, "", 1)`, and the branch on its result. -/
def write (s : Handover) (d : ℕ) (tid : ℤ) : Bool → Handover
  | true => { s with pipe := Function.update s.pipe tid (s.pipe tid + 1), main := .idle }
  | false => { s with main := .free d }

/-- `read(fd, buf, 1)`. -/
def read (s : Handover) (tid : ℤ) : Handover :=
  { s with
    pipe := Function.update s.pipe tid (s.pipe tid - 1)
    worker := Function.update s.worker tid .hasByte }

/-- `item = msg_[me->id].Pop()`. -/
def pop (s : Handover) (tid : ℤ) (d : ℕ) (rest : List ℕ) : Handover :=
  { s with
    msg := Function.update s.msg tid rest
    worker := Function.update s.worker tid (.connect d) }

/-- `GetConnect(item->sfd)` and `free(item)`. -/
def connect (s : Handover) (tid : ℤ) (d : ℕ) : Handover :=
  { s with
    given := Function.update s.given tid (s.given tid ++ [d])
    freed := d :: s.freed
    worker := Function.update s.worker tid .idle }

/-- One step; `none` while a thread has to wait, or is elsewhere. -/
def step (num : ℤ) (s : Handover) : Event → Option Handover
  | .accept => if s.main = .idle then some (s.accept num) else none
  | .push =>
      match s.main with
      | .push d tid => if (s.msg tid).length < capacity num tid then some (s.push d tid) else none
      | _ => none
  | .write ok =>
      match s.main with
      | .write d tid => some (s.write d tid ok)
      | _ => none
  | .free =>
      match s.main with
      | .free d => some { s with freed := d :: s.freed, main := .close d }
      | _ => none
  | .close =>
      match s.main with
      | .close d => some { s with closed := d :: s.closed, main := .idle }
      | _ => none
  | .read tid =>
      if Started num tid ∧ s.worker tid = .idle ∧ 0 < s.pipe tid then some (s.read tid) else none
  | .pop tid =>
      match s.worker tid, s.msg tid with
      | .hasByte, d :: rest => some (s.pop tid d rest)
      | _, _ => none
  | .connect tid =>
      match s.worker tid with
      | .connect d => some (s.connect tid d)
      | _ => none

/-- Nothing can happen before another socket is accepted. -/
def AtRest (num : ℤ) (s : Handover) : Prop := ∀ e, e ≠ .accept → step num s e = none

/-- **What the handover is for.** -/
structure Good (num : ℤ) (s : Handover) : Prop where
  /-- The chosen worker is one of the started ones. -/
  running : s.main ≠ .crashed
  chosen : ∀ d tid, s.main = .push d tid ∨ s.main = .write d tid → Started num tid
  /-- `Pop` does not wait, and what it returns has not been freed. -/
  pops : ∀ tid, s.worker tid = .hasByte → ∃ d rest, s.msg tid = d :: rest ∧ d ∉ s.freed
  holds : ∀ tid d, s.worker tid = .connect d → d ∉ s.freed
  /-- A socket is given at most once, to a started worker, and never also closed. -/
  once : ∀ tid tid' d, d ∈ s.given tid → d ∈ s.given tid' → tid = tid'
  started : ∀ tid d, d ∈ s.given tid → Started num tid
  notBoth : ∀ tid d, d ∈ s.given tid → d ∉ s.closed
  /-- Each worker has its sockets in the order of their acceptance. -/
  order : ∀ tid, (s.given tid).Pairwise (· < ·)
  /-- When nothing is left to do, every socket was given or closed. -/
  settled : AtRest num s → ∀ d < s.accepted, (∃ tid, d ∈ s.given tid) ∨ d ∈ s.closed

section Moves

variable {num : ℤ} {s s' : Handover} {e : Event}

/-- The steps, each with what it needs. -/
inductive Move (num : ℤ) (s : Handover) : Event → Handover → Prop where
  | accept (hm : s.main = .idle) : Move num s .accept (s.accept num)
  | push {d : ℕ} {tid : ℤ} (hm : s.main = .push d tid)
      (hroom : (s.msg tid).length < capacity num tid) : Move num s .push (s.push d tid)
  | write {d : ℕ} {tid : ℤ} (ok : Bool) (hm : s.main = .write d tid) :
      Move num s (.write ok) (s.write d tid ok)
  | free {d : ℕ} (hm : s.main = .free d) :
      Move num s .free { s with freed := d :: s.freed, main := .close d }
  | close {d : ℕ} (hm : s.main = .close d) :
      Move num s .close { s with closed := d :: s.closed, main := .idle }
  | read {tid : ℤ} (hs : Started num tid) (hw : s.worker tid = .idle) (hp : 0 < s.pipe tid) :
      Move num s (.read tid) (s.read tid)
  | pop {tid : ℤ} {d : ℕ} {rest : List ℕ} (hw : s.worker tid = .hasByte)
      (hq : s.msg tid = d :: rest) : Move num s (.pop tid) (s.pop tid d rest)
  | connect {tid : ℤ} {d : ℕ} (hw : s.worker tid = .connect d) :
      Move num s (.connect tid) (s.connect tid d)

lemma move_of_step (h : step num s e = some s') : Move num s e s' := by
  cases e with
  | accept =>
      obtain ⟨hm, h⟩ := Option.ite_none_right_eq_some.mp h
      exact Option.some.inj h ▸ .accept hm
  | push =>
      simp only [step] at h
      split at h
      · next hm =>
        obtain ⟨hroom, h⟩ := Option.ite_none_right_eq_some.mp h
        exact Option.some.inj h ▸ .push hm hroom
      · cases h
  | write ok =>
      simp only [step] at h
      split at h
      · next hm => exact Option.some.inj h ▸ .write ok hm
      · cases h
  | free =>
      simp only [step] at h
      split at h
      · next hm => exact Option.some.inj h ▸ .free hm
      · cases h
  | close =>
      simp only [step] at h
      split at h
      · next hm => exact Option.some.inj h ▸ .close hm
      · cases h
  | read tid =>
      obtain ⟨⟨hs, hw, hp⟩, h⟩ := Option.ite_none_right_eq_some.mp h
      exact Option.some.inj h ▸ .read hs hw hp
  | pop tid =>
      simp only [step] at h
      split at h
      · next hw hq => exact Option.some.inj h ▸ .pop hw hq
      · cases h
  | connect tid =>
      simp only [step] at h
      split at h
      · next hw => exact Option.some.inj h ▸ .connect hw
      · cases h

lemma step_of_move (h : Move num s e s') : step num s e = some s' := by
  cases h with
  | accept hm => simp [step, hm]
  | push hm hroom => simp [step, hm, hroom]
  | write ok hm => simp [step, hm]
  | free hm => simp [step, hm]
  | close hm => simp [step, hm]
  | read hs hw hp => simp [step, hs, hw, hp]
  | pop hw hq => simp [step, hw, hq]
  | connect hw => simp [step, hw]

lemma AtRest.not_move (h : AtRest num s) (he : e ≠ .accept) : ¬Move num s e s' := fun hmove =>
  Option.some_ne_none s' ((step_of_move hmove).symm.trans (h e he))

end Moves

section Invariant

variable {num : ℤ} {s s' : Handover} {e : Event}

/-- The item between `Pop` and `GetConnect`. -/
def holding : Worker → List ℕ
  | .connect d => [d]
  | _ => []

/-- A byte that was read and not yet used. -/
def inHand : Worker → ℕ
  | .hasByte => 1
  | _ => 0

/-- An item that was pushed and whose byte is not yet written. -/
def owed (tid : ℤ) : Main → ℕ
  | .write _ tid' => if tid' = tid then 1 else 0
  | _ => 0

/-- All that was pushed for a worker: given to it, held by it and waiting for it. -/
def history (s : Handover) (tid : ℤ) : List ℕ :=
  s.given tid ++ holding (s.worker tid) ++ s.msg tid

/-- How many sockets were pushed. -/
def pushed (s : Handover) : ℕ :=
  match s.main with
  | .push d _ => d
  | _ => s.accepted

/-- Where the main thread can be if no write fails. -/
def MainOk (num : ℤ) (s : Handover) : Prop :=
  match s.main with
  | .idle => True
  | .push d tid => Started num tid ∧ d + 1 = s.accepted
  | .write _ tid => Started num tid
  | _ => False

/-- **The two channels are in step.** -/
structure Inv (num : ℤ) (s : Handover) : Prop where
  last : 0 ≤ s.lastid ∧ s.lastid ≤ num
  mainOk : MainOk num s
  closed : s.closed = []
  freed : ∀ d, d ∈ s.freed ↔ ∃ tid, d ∈ s.given tid
  deal : Deal.Fair s.history s.pushed
  bytes : ∀ tid, (s.msg tid).length = s.pipe tid + inHand (s.worker tid) + owed tid s.main
  only : ∀ tid, ¬Started num tid → s.history tid = []

lemma history_push (s : Handover) (d : ℕ) (tid : ℤ) :
    (s.push d tid).history = Function.update s.history tid (s.history tid ++ [d]) := by
  funext t
  rcases eq_or_ne t tid with rfl | hne
  · simp [history, push]
  · simp [history, push, hne]

lemma history_read {tid : ℤ} (hw : s.worker tid = .idle) : (s.read tid).history = s.history := by
  funext t
  rcases eq_or_ne t tid with rfl | hne
  · simp [history, read, hw, holding]
  · simp [history, read, hne]

lemma history_pop {tid : ℤ} {d : ℕ} {rest : List ℕ} (hw : s.worker tid = .hasByte)
    (hq : s.msg tid = d :: rest) : (s.pop tid d rest).history = s.history := by
  funext t
  rcases eq_or_ne t tid with rfl | hne
  · simp [history, pop, hw, hq, holding]
  · simp [history, pop, hne]

lemma history_connect {tid : ℤ} {d : ℕ} (hw : s.worker tid = .connect d) :
    (s.connect tid d).history = s.history := by
  funext t
  rcases eq_or_ne t tid with rfl | hne
  · simp [history, connect, hw, holding]
  · simp [history, connect, hne]

/-- With at least one worker, `thread_count_` is its number and one. -/
lemma threadCount_eq (hlo : 1 ≤ num) (hhi : num < 2 ^ 31 - 1) : threadCount num = num + 1 :=
  toInt32_of_bounds (by omega) (by omega)

/-- **The turn**: `SendThread` steps over the main thread's number. -/
lemma nextTid_started (hlo : 1 ≤ num) (hhi : num < 2 ^ 31 - 1) {lastid : ℤ} (hlast : 0 ≤ lastid) :
    ∃ tid, nextTid num lastid = some tid ∧ Started num tid := by
  have hcount := threadCount_eq hlo hhi
  have hnonneg : 0 ≤ (lastid + 1).tmod (num + 1) := Int.tmod_nonneg _ (by omega)
  have hlt : (lastid + 1).tmod (num + 1) < num + 1 := Int.tmod_lt_of_pos _ (by omega)
  unfold nextTid Started
  rw [hcount, if_neg (by omega)]
  split_ifs with h
  · exact ⟨1, rfl, le_refl 1, by omega⟩
  · exact ⟨_, rfl, by omega, hlt⟩

lemma Inv.start (hlo : 1 ≤ num) : Inv num start where
  last := ⟨le_refl 0, by simp [Handover.start]; omega⟩
  mainOk := trivial
  closed := rfl
  freed d := by simp [Handover.start]
  deal := Deal.Fair.nil
  bytes tid := rfl
  only tid _ := rfl

section Steps

variable (h : Inv num s)
include h

lemma Inv.accept (hlo : 1 ≤ num) (hhi : num < 2 ^ 31 - 1) (hm : s.main = .idle) :
    Inv num (s.accept num) := by
  obtain ⟨tid, htid, hstarted⟩ := nextTid_started hlo hhi h.last.1
  have hmain : (s.accept num).main = .push s.accepted tid := by simp [Handover.accept, htid]
  refine ⟨h.last, ?_, h.closed, h.freed, ?_, fun t => ?_, h.only⟩
  · simp only [MainOk, hmain]
    exact ⟨hstarted, rfl⟩
  · have hdeal := h.deal
    simp only [pushed, hm] at hdeal
    simp only [pushed, hmain]
    exact hdeal
  · have hbytes := h.bytes t
    rw [hm] at hbytes
    rw [hmain]
    exact hbytes

lemma Inv.push (hlo : 1 ≤ num) (hhi : num < 2 ^ 31 - 1) {d : ℕ} {tid : ℤ}
    (hm : s.main = .push d tid) : Inv num (s.push d tid) := by
  have hok := h.mainOk
  simp only [MainOk, hm] at hok
  obtain ⟨hstarted, hd⟩ := hok
  have hcount := threadCount_eq hlo hhi
  refine ⟨?_, hstarted, h.closed, h.freed, ?_, fun t => ?_, fun t ht => ?_⟩
  · obtain ⟨hpos, hlt⟩ := hstarted
    simp only [Handover.push]
    omega
  · -- the next socket goes behind all that was pushed for the worker
    have hdeal := h.deal
    simp only [pushed, hm] at hdeal
    have hpushed : (s.push d tid).pushed = d + 1 := hd.symm
    rw [history_push, hpushed]
    exact hdeal.give tid
  · have hbytes := h.bytes t
    simp only [hm, owed] at hbytes
    rcases eq_or_ne t tid with rfl | hne
    · simp only [Handover.push, Function.update_self, List.length_append, List.length_singleton,
        owed, if_true]
      omega
    · simp only [Handover.push, Function.update_of_ne hne, owed, if_neg hne.symm]
      omega
  · have hne : t ≠ tid := fun heq => ht (heq ▸ hstarted)
    rw [history_push, Function.update_of_ne hne]
    exact h.only t ht

lemma Inv.write {d : ℕ} {tid : ℤ} (hm : s.main = .write d tid) : Inv num (s.write d tid true) := by
  refine ⟨h.last, trivial, h.closed, h.freed, ?_, fun t => ?_, h.only⟩
  · have hdeal := h.deal
    simp only [pushed, hm] at hdeal
    exact hdeal
  · have hbytes := h.bytes t
    rw [hm] at hbytes
    rcases eq_or_ne t tid with rfl | hne
    · simp only [owed, if_true] at hbytes
      simp only [Handover.write, Function.update_self, owed]
      omega
    · simp only [owed, if_neg hne.symm] at hbytes
      simp only [Handover.write, Function.update_of_ne hne, owed]
      omega

lemma Inv.read {tid : ℤ} (hw : s.worker tid = .idle) (hp : 0 < s.pipe tid) :
    Inv num (s.read tid) := by
  refine ⟨h.last, h.mainOk, h.closed, h.freed, ?_, fun t => ?_, fun t ht => ?_⟩
  · rw [history_read hw]
    exact h.deal
  · have hbytes := h.bytes t
    rcases eq_or_ne t tid with rfl | hne
    · simp only [hw, inHand] at hbytes
      simp only [Handover.read, Function.update_self, inHand]
      omega
    · simp only [Handover.read, Function.update_of_ne hne]
      exact hbytes
  · rw [history_read hw]
    exact h.only t ht

lemma Inv.pop {tid : ℤ} {d : ℕ} {rest : List ℕ} (hw : s.worker tid = .hasByte)
    (hq : s.msg tid = d :: rest) : Inv num (s.pop tid d rest) := by
  refine ⟨h.last, h.mainOk, h.closed, h.freed, ?_, fun t => ?_, fun t ht => ?_⟩
  · rw [history_pop hw hq]
    exact h.deal
  · have hbytes := h.bytes t
    rcases eq_or_ne t tid with rfl | hne
    · simp only [hw, hq, inHand, List.length_cons] at hbytes
      simp only [Handover.pop, Function.update_self, inHand]
      omega
    · simp only [Handover.pop, Function.update_of_ne hne]
      exact hbytes
  · rw [history_pop hw hq]
    exact h.only t ht

lemma Inv.connect {tid : ℤ} {d : ℕ} (hw : s.worker tid = .connect d) :
    Inv num (s.connect tid d) := by
  refine ⟨h.last, h.mainOk, h.closed, fun m => ?_, ?_, fun t => ?_, fun t ht => ?_⟩
  · -- what the worker is given it frees in the same step
    simp only [Handover.connect, List.mem_cons, h.freed, Deal.mem_give, exists_or,
      exists_and_left, exists_eq, and_true]
    exact or_comm
  · rw [history_connect hw]
    exact h.deal
  · have hbytes := h.bytes t
    rcases eq_or_ne t tid with rfl | hne
    · simp only [hw, inHand] at hbytes
      simp only [Handover.connect, Function.update_self, inHand]
      exact hbytes
    · simp only [Handover.connect, Function.update_of_ne hne]
      exact hbytes
  · rw [history_connect hw]
    exact h.only t ht

/-- **The step lemma**: every step but a failed write keeps the channels in step. -/
lemma Inv.move (hlo : 1 ≤ num) (hhi : num < 2 ^ 31 - 1) (hmove : Move num s e s')
    (hok : e ≠ .write false) : Inv num s' := by
  have hmain := h.mainOk
  cases hmove with
  | accept hm => exact h.accept hlo hhi hm
  | push hm hroom => exact h.push hlo hhi hm
  | write ok hm =>
      cases ok with
      | true => exact h.write hm
      | false => exact absurd rfl hok
  | free hm =>
      simp only [MainOk, hm] at hmain
  | close hm =>
      simp only [MainOk, hm] at hmain
  | read hs hw hp => exact h.read hw hp
  | pop hw hq => exact h.pop hw hq
  | connect hw => exact h.connect hw

/-- What a worker has not been given yet is not freed. -/
lemma Inv.not_freed {tid : ℤ} {d : ℕ} (hd : d ∈ holding (s.worker tid) ++ s.msg tid) :
    d ∉ s.freed := by
  intro hfreed
  obtain ⟨tid', hgiven⟩ := (h.freed d).mp hfreed
  have hhist : s.history tid = s.given tid ++ (holding (s.worker tid) ++ s.msg tid) :=
    List.append_assoc ..
  have hin : d ∈ s.history tid := hhist ▸ List.mem_append_right _ hd
  have hin' : d ∈ s.history tid' :=
    List.mem_append_left _ (List.mem_append_left _ hgiven)
  obtain rfl := h.deal.apart tid tid' d hin hin'
  have hsorted := h.deal.sorted tid
  rw [hhist, List.pairwise_append] at hsorted
  exact lt_irrefl d (hsorted.2.2 d hgiven d hd)

/-- At rest the workers are idle, and only an item without its byte can be in a queue. -/
lemma Inv.workers_of_atRest (hrest : AtRest num s) (tid : ℤ) :
    s.worker tid = .idle ∧ (s.msg tid).length = owed tid s.main := by
  have hbytes := h.bytes tid
  cases hw : s.worker tid with
  | hasByte =>
      rw [hw, inHand] at hbytes
      cases hq : s.msg tid with
      | nil =>
          rw [hq, List.length_nil] at hbytes
          omega
      | cons d rest => exact absurd (Move.pop hw hq) (hrest.not_move nofun)
  | connect d => exact absurd (Move.connect hw) (hrest.not_move nofun)
  | idle =>
      simp only [hw, inHand] at hbytes
      refine ⟨rfl, ?_⟩
      by_contra hne
      have hpipe : 0 < s.pipe tid := by omega
      -- a byte is only there for a worker that was started
      have hstarted : Started num tid := by
        by_contra hnot
        have hempty : s.msg tid = [] := (List.append_eq_nil_iff.mp (h.only tid hnot)).2
        rw [hempty, List.length_nil] at hbytes
        omega
      exact absurd (Move.read hstarted hw hpipe) (hrest.not_move nofun)

/-- At rest the main thread is between two sockets: it cannot be waiting for room. -/
lemma Inv.main_of_atRest (hlo : 1 ≤ num) (hhi : num < 2 ^ 31 - 1) (hrest : AtRest num s) :
    s.main = .idle := by
  have hok := h.mainOk
  cases hm : s.main with
  | idle => rfl
  | push d tid =>
      simp only [MainOk, hm] at hok
      obtain ⟨⟨hpos, hlt⟩, -⟩ := hok
      rw [threadCount_eq hlo hhi] at hlt
      have hlen := (h.workers_of_atRest hrest tid).2
      simp only [hm, owed] at hlen
      have hcap : capacity num tid = maxConnect := if_pos ⟨hpos, by omega⟩
      have hroom : (s.msg tid).length < capacity num tid := by
        rw [hlen, hcap]
        decide
      exact absurd (Move.push hm hroom) (hrest.not_move nofun)
  | write d tid => exact absurd (Move.write true hm) (hrest.not_move nofun)
  | free d => simp only [MainOk, hm] at hok
  | close d => simp only [MainOk, hm] at hok
  | crashed => simp only [MainOk, hm] at hok

/-- **Channels that are in step hand over well.** -/
lemma good_of_inv (hlo : 1 ≤ num) (hhi : num < 2 ^ 31 - 1) : Good num s where
  running hm := by simpa [MainOk, hm] using h.mainOk
  chosen d tid hm := by
    have hok := h.mainOk
    rcases hm with hm | hm
    · simp only [MainOk, hm] at hok
      exact hok.1
    · simp only [MainOk, hm] at hok
      exact hok
  pops tid hw := by
    have hbytes := h.bytes tid
    rw [hw, inHand] at hbytes
    obtain ⟨d, rest, hq⟩ := List.exists_cons_of_length_pos (l := s.msg tid) (by omega)
    exact ⟨d, rest, hq, h.not_freed (List.mem_append_right _ (hq ▸ List.mem_cons_self))⟩
  holds tid d hw := by
    have hheld : d ∈ holding (s.worker tid) := by simp [hw, holding]
    exact h.not_freed (List.mem_append_left _ hheld)
  once tid tid' d hd hd' := h.deal.apart tid tid' d
    (List.mem_append_left _ (List.mem_append_left _ hd))
    (List.mem_append_left _ (List.mem_append_left _ hd'))
  started tid d hd := by
    by_contra hnot
    have hnil := List.append_eq_nil_iff.mp (List.append_eq_nil_iff.mp (h.only tid hnot)).1
    rw [hnil.1] at hd
    exact List.not_mem_nil hd
  notBoth tid d _ := by
    rw [h.closed]
    exact List.not_mem_nil
  order tid := (List.pairwise_append.mp (List.pairwise_append.mp (h.deal.sorted tid)).1).1
  settled hrest d hd := by
    have hm := h.main_of_atRest hlo hhi hrest
    have hdeal := h.deal.dealt d
    simp only [pushed, hm] at hdeal
    obtain ⟨tid, hin⟩ := hdeal.mpr hd
    obtain ⟨hw, hlen⟩ := h.workers_of_atRest hrest tid
    simp only [hm, owed] at hlen
    simp only [history, hw, holding, List.eq_nil_of_length_eq_zero hlen, List.append_nil] at hin
    exact .inl ⟨tid, hin⟩

end Steps

end Invariant

/-- The first choice of `SendThread` is a started worker only if there is one. -/
lemma workers_of_good {num : ℤ} (hlo : -2 ^ 31 ≤ num) (hhi : num < 2 ^ 31)
    (h : Good num (start.accept num)) : 1 ≤ num ∧ num < 2 ^ 31 - 1 := by
  cases htid : nextTid num start.lastid with
  | none => exact absurd (by simp [Handover.accept, htid]) h.running
  | some tid =>
      have hmain : (start.accept num).main = .push 0 tid := by
        simp only [Handover.accept, htid]
        rfl
      obtain ⟨hpos, hlt⟩ := h.chosen 0 tid (.inl hmain)
      rcases eq_or_ne num (2 ^ 31 - 1) with rfl | hne
      · -- the count of threads has run over
        have hneg : threadCount (2 ^ 31 - 1) < 0 := by decide
        omega
      · have hcount : threadCount num = num + 1 := toInt32_of_bounds (by omega) (by omega)
        omega

/-- **Accepted sockets are handed over exactly once**, in every run in which no write to a pipe
fails, for exactly those configurations that start a worker. -/
theorem good_iff (threads : Str) :
    (∀ es s, Transition.Along (step (configured threads)) (fun _ e => e ≠ .write false) start es →
      Transition.run (step (configured threads)) start es = some s → Good (configured threads) s) ↔
    1 ≤ configured threads ∧ configured threads < 2 ^ 31 - 1 := by
  constructor
  · intro h
    have hbounds : -2 ^ 31 ≤ configured threads ∧ configured threads < 2 ^ 31 := by
      unfold configured
      split_ifs
      · decide
      · exact ⟨neg_le_atoi threads, atoi_lt threads⟩
    refine workers_of_good hbounds.1 hbounds.2 (h [.accept] _ ⟨nofun, fun _ _ => trivial⟩ ?_)
    rfl
  · rintro ⟨hlo, hhi⟩ es s halong hrun
    refine good_of_inv ?_ hlo hhi
    exact Transition.inv_run (fun s e s' hinv hok hstep => hinv.move hlo hhi (move_of_step hstep) hok)
      es (Inv.start hlo) halong hrun

/-- A write fails, and the next one succeeds. -/
def failedWrite : List Event :=
  [.accept, .push, .write false, .free, .close, .accept, .push, .write true,
    .read 1, .pop 1, .connect 1]

theorem good_failedWrite :
    ∃ s, Transition.run (step (configured [])) start failedWrite = some s ∧
      0 ∈ s.given 1 ∧ 0 ∈ s.closed ∧ ¬Good (configured []) s := by
  obtain ⟨s, hs⟩ : ∃ s, Transition.run (step (configured [])) start failedWrite = some s :=
    Option.isSome_iff_exists.mp (by decide)
  have hends : (Transition.run (step (configured [])) start failedWrite).map
      (fun s => (s.given 1, s.closed)) = some ([0], [0]) := by decide
  rw [hs] at hends
  obtain ⟨hgiven, hclosed⟩ := Prod.mk.inj (Option.some.inj hends)
  have h0 : 0 ∈ s.given 1 := by simp [hgiven]
  have h1 : 0 ∈ s.closed := by simp [hclosed]
  exact ⟨s, hs, h0, h1, fun hgood => hgood.notBoth 1 0 h0 h1⟩

end Handover

end GentThread

end Riser
