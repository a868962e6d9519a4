import Riser.Core.CppString
import Riser.Core.Monitor
import Riser.Core.Ring

/-!
# `GentMsg`: the queue between the threads

A ring of fixed capacity under a mutex.  `Push` waits on `empt_cond_` while the ring is full and `Pop`
on `full_cond_` while it is empty; each signals the other's condition variable once.  So this is a
monitor with two condition variables (`Riser.Core.Monitor`), whose data are the ring and the history
of what was pushed and popped.

* `fifo` — **a bounded queue, first in first out**: in every state that any number of threads reach,
  the undelivered items stand in the ring in their order, none of them overwritten, and what was
  popped is a front part of what was pushed.
* `attended` — **no wake-up is lost**: if a thread sleeps in `Pop`, at least as many threads have been
  woken for it as there are items, and in the same way for `Push` and the free places.
-/

namespace Riser

open Cpp

/-- `class GentMsg`, for a vector of any item. -/
structure GentMsg (T : Type) where
  app_cq : List T
  size : ℕ
  start : ℕ

namespace GentMsg

variable {T : Type}

/-- `GentMsg()` and `Resize(cap)`, which fills the vector with `T()`. -/
def new (cap : ℕ) (init : T) : GentMsg T := ⟨List.replicate cap init, 0, 0⟩

/-- Where `Push` writes: an `unsigned` sum, kept in an `int`. -/
def index (q : GentMsg T) : ℕ :=
  toUInt64 (toInt32 ((q.start + q.size) % 2 ^ 32 % q.app_cq.length : ℕ))

/-- `GentMsg::Push`, behind the wait. -/
def push (q : GentMsg T) (appName : T) : GentMsg T :=
  { q with app_cq := q.app_cq.set q.index appName, size := (q.size + 1) % 2 ^ 32 }

/-- `GentMsg::Pop`, behind the wait; `none` beyond the end of the vector. -/
def pop (q : GentMsg T) : Option (T × GentMsg T) :=
  q.app_cq[q.start]?.map fun appName =>
    (appName, { q with
      start := (q.start + 1) % 2 ^ 32 % q.app_cq.length
      size := if q.size = 0 then 2 ^ 32 - 1 else q.size - 1 })

/-- The two calls. -/
inductive Call (T : Type) where
  | push (appName : T)
  | pop

/-- The queue, and what was pushed to it and popped from it. -/
structure Log (T : Type) where
  queue : GentMsg T
  pushed : List T
  popped : List T

/-- The threads' view.  `true` stands for `Push` and `empt_cond_`, `false` for `Pop` and
`full_cond_`. -/
def monitor (T : Type) : Monitor (Log T) (Call T) where
  kind
    | .push _ => true
    | .pop => false
  blocked
    | .push _, d => decide (d.queue.app_cq.length ≤ d.queue.size)
    | .pop, d => decide (d.queue.size ≤ 0)
  body
    | .push appName, d =>
        some { d with queue := d.queue.push appName, pushed := d.pushed ++ [appName] }
    | .pop, d =>
        d.queue.pop.map fun res => { d with queue := res.2, popped := d.popped ++ [res.1] }

/-- `n` threads and an empty queue. -/
def init (cap : ℕ) (value : T) (n : ℕ) : Monitor.State (Log T) (Call T) :=
  Monitor.start ⟨new cap value, [], []⟩ n

/-! ## First in, first out -/

/-- **A bounded queue.** -/
structure Fifo (cap : ℕ) (d : Log T) : Prop where
  start : d.queue.start < cap
  size : d.queue.size ≤ cap
  /-- The undelivered items stand in the ring. -/
  holds : ∀ i < d.queue.size,
    d.queue.app_cq[Ring.slot cap d.queue.start i]? = d.pushed[d.popped.length + i]?
  /-- The next `Push` does not write over one of them. -/
  spares : d.queue.size < cap → ∀ i < d.queue.size, Ring.slot cap d.queue.start i ≠ d.queue.index
  /-- They are all that is undelivered, and the rest was delivered in order. -/
  number : d.pushed.length = d.popped.length + d.queue.size
  order : d.popped <+: d.pushed

/-- The invariant: the ring holds the undelivered items. -/
structure RingInv (cap : ℕ) (d : Log T) : Prop where
  capacity : d.queue.app_cq.length = cap
  start : d.queue.start < cap
  undelivered : ∃ items, d.pushed = d.popped ++ items ∧ items.length = d.queue.size ∧
    Ring.Holds d.queue.app_cq d.queue.start items

variable {cap : ℕ} {d : Log T}

/-- Below `2 ^ 31` nothing overflows in the index. -/
lemma index_eq {q : GentMsg T} (hcap : q.app_cq.length < 2 ^ 31)
    (hstart : q.start < q.app_cq.length) (hsize : q.size ≤ q.app_cq.length) :
    q.index = Ring.slot q.app_cq.length q.start q.size := by
  have hlt : (q.start + q.size) % q.app_cq.length < q.app_cq.length := Nat.mod_lt _ (by omega)
  have hsum : (q.start + q.size) % 2 ^ 32 = q.start + q.size := Nat.mod_eq_of_lt (by omega)
  rw [index, hsum, toInt32_of_bounds (by omega) (by omega), toUInt64_natCast (by omega), Ring.slot]

lemma RingInv.init {value : T} (hcap : 0 < cap) : RingInv cap ⟨new cap value, [], []⟩ :=
  ⟨List.length_replicate, hcap, [], rfl, rfl, Ring.Holds.nil _ _⟩

/-- **`Push` keeps the invariant.** -/
lemma RingInv.push (hcap : cap < 2 ^ 31) (h : RingInv cap d) (hroom : d.queue.size < cap)
    (appName : T) :
    RingInv cap { d with queue := d.queue.push appName, pushed := d.pushed ++ [appName] } := by
  obtain ⟨rfl, hstart, items, hpushed, hlen, hholds⟩ := h
  refine ⟨List.length_set, hstart, items ++ [appName], ?_, ?_, ?_⟩
  · rw [hpushed, List.append_assoc]
  · show _ = (d.queue.size + 1) % 2 ^ 32
    rw [List.length_append, List.length_singleton, hlen, Nat.mod_eq_of_lt (by omega)]
  · show Ring.Holds (d.queue.app_cq.set d.queue.index appName) d.queue.start _
    rw [index_eq hcap hstart hroom.le, ← hlen]
    exact hholds.push (by omega) appName

/-- **`Pop` returns the first item and keeps the invariant.** -/
lemma RingInv.pop (hcap : cap < 2 ^ 31) (h : RingInv cap d) (hitem : 0 < d.queue.size)
    {v : T} {q : GentMsg T} (hpop : d.queue.pop = some (v, q)) :
    RingInv cap { d with queue := q, popped := d.popped ++ [v] } := by
  obtain ⟨rfl, hstart, items, hpushed, hlen, hholds⟩ := h
  cases items with
  | nil => exact absurd hlen (by simp; omega)
  | cons a items =>
      obtain ⟨hfirst, hrest⟩ := hholds.pop hstart
      rw [GentMsg.pop, hfirst, Option.map_some, Option.some.injEq, Prod.mk.injEq] at hpop
      obtain ⟨rfl, rfl⟩ := hpop
      rw [List.length_cons] at hlen
      have hwrap : (d.queue.start + 1) % 2 ^ 32 = d.queue.start + 1 := Nat.mod_eq_of_lt (by omega)
      refine ⟨rfl, Nat.mod_lt _ (by omega), items, ?_, ?_, ?_⟩
      · rw [hpushed, List.append_assoc, List.singleton_append]
      · show _ = if d.queue.size = 0 then 2 ^ 32 - 1 else d.queue.size - 1
        rw [if_neg (by omega)]
        omega
      · show Ring.Holds d.queue.app_cq ((d.queue.start + 1) % 2 ^ 32 % d.queue.app_cq.length) items
        rw [hwrap]
        exact hrest

/-- What the invariant means. -/
lemma RingInv.isFifo (hcap : cap < 2 ^ 31) (h : RingInv cap d) : Fifo cap d := by
  obtain ⟨rfl, hstart, items, hpushed, hlen, hholds⟩ := h
  have hsize : d.queue.size ≤ d.queue.app_cq.length := hlen ▸ hholds.fits
  refine ⟨hstart, hsize, fun i hi => ?_, fun hroom i hi heq => ?_, ?_, ?_⟩
  · rw [hholds.stands i (by omega), hpushed, List.getElem?_append_right (Nat.le_add_right ..),
      Nat.add_sub_cancel_left]
  · rw [index_eq hcap hstart hsize] at heq
    exact absurd (Ring.slot_injOn (by omega) hroom heq) (by omega)
  · rw [hpushed, List.length_append, hlen]
  · exact ⟨items, hpushed.symm⟩

/-- What a body does keeps the invariant. -/
lemma RingInv.body (hcap : cap < 2 ^ 31) {c : Call T} {d' : Log T} (h : RingInv cap d)
    (hb : (monitor T).blocked c d = false) (hd : (monitor T).body c d = some d') :
    RingInv cap d' := by
  cases c with
  | push appName =>
      have hroom : ¬ d.queue.app_cq.length ≤ d.queue.size := by simpa [monitor] using hb
      obtain rfl := Option.some.inj hd
      exact h.push hcap (by rw [← h.capacity]; omega) appName
  | pop =>
      have hitem : ¬ d.queue.size ≤ 0 := by simpa [monitor] using hb
      obtain ⟨⟨v, q⟩, hpop, rfl⟩ := Option.map_eq_some_iff.mp hd
      exact h.pop hcap (by omega) hpop

/-- **`GentMsg` is a bounded queue**, for any number of threads that push and pop. -/
theorem fifo (cap : ℕ) (hpos : 0 < cap) (hcap : cap < 2 ^ 31) (value : T) (n : ℕ)
    (es : List (Monitor.Event (Call T))) (s : Monitor.State (Log T) (Call T))
    (hrun : Transition.run (monitor T).step (init cap value n) es = some s) : Fifo cap s.data :=
  (Monitor.data_inv (fun _ _ _ h hb hd => RingInv.body hcap h hb hd) (RingInv.init hpos)
    hrun).isFifo hcap

/-- Two items through a ring of one place: the second `Push` sleeps until the first item is out. -/
def oneByOne : List (Monitor.Event (Call ℕ)) :=
  [.call 0 (.push 7) none, .call 1 (.push 8) none, .call 2 .pop (some 1), .rerun 1 none,
    .call 2 .pop none]

theorem fifo_oneByOne : ∃ s, Transition.run (monitor ℕ).step (init 1 0 3) oneByOne = some s ∧
    s.data.popped = [7, 8] ∧ Fifo 1 s.data := by
  obtain ⟨s, hs⟩ : ∃ s, Transition.run (monitor ℕ).step (init 1 0 3) oneByOne = some s :=
    Option.isSome_iff_exists.mp (by decide)
  have hpopped : (Transition.run (monitor ℕ).step (init 1 0 3) oneByOne).map (·.data.popped)
      = some [7, 8] := by decide
  rw [hs] at hpopped
  exact ⟨s, hs, Option.some.inj hpopped, fifo 1 (by decide) (by decide) 0 3 oneByOne s hs⟩

/-! ## Wake-ups -/

/-- What a call of the given kind needs: free places for `Push`, items for `Pop`. -/
def room (k : Bool) (d : Log T) : ℕ :=
  if k then d.queue.app_cq.length - d.queue.size else d.queue.size

/-- A call waits only without room, and takes one place or item from its own kind to the other. -/
lemma room_body (hcap : cap < 2 ^ 31) (c : Call T) (d d' : Log T)
    (h : d.queue.app_cq.length = cap ∧ d.queue.size ≤ cap)
    (hb : (monitor T).blocked c d = false) (hd : (monitor T).body c d = some d') :
    (d'.queue.app_cq.length = cap ∧ d'.queue.size ≤ cap) ∧
      room ((monitor T).kind c) d' + 1 ≤ room ((monitor T).kind c) d ∧
      room (!(monitor T).kind c) d' ≤ room (!(monitor T).kind c) d + 1 := by
  obtain ⟨hlen, hsize⟩ := h
  cases c with
  | push appName =>
      have hroom : ¬ d.queue.app_cq.length ≤ d.queue.size := by simpa [monitor] using hb
      obtain rfl := Option.some.inj hd
      have hnext : (d.queue.size + 1) % 2 ^ 32 = d.queue.size + 1 := Nat.mod_eq_of_lt (by omega)
      simp only [monitor, room, GentMsg.push, List.length_set, hnext, Bool.not_true,
        Bool.false_eq_true, if_true, if_false]
      omega
  | pop =>
      have hitem : ¬ d.queue.size ≤ 0 := by simpa [monitor] using hb
      obtain ⟨⟨v, q⟩, hpop, rfl⟩ := Option.map_eq_some_iff.mp hd
      obtain ⟨a, -, heq⟩ := Option.map_eq_some_iff.mp hpop
      obtain rfl := (Prod.mk.inj heq).2
      have hne : d.queue.size ≠ 0 := by omega
      simp only [monitor, room, hne, Bool.not_false, Bool.false_eq_true, if_true, if_false]
      omega

/-- **No wake-up is lost.**  While a thread sleeps in `Pop`, as many have been woken as there are
items; while one sleeps in `Push`, as many as there are free places.  So there is always somebody on
the way. -/
theorem attended (cap : ℕ) (hcap : cap < 2 ^ 31) (value : T) (n : ℕ)
    (es : List (Monitor.Event (Call T))) (s : Monitor.State (Log T) (Call T))
    (hrun : Transition.run (monitor T).step (init cap value n) es = some s) :
    (0 < (monitor T).asleep s false → s.data.queue.size ≤ (monitor T).woken s false) ∧
      (0 < (monitor T).asleep s true → cap - s.data.queue.size ≤ (monitor T).woken s true) ∧
      ¬ (0 < (monitor T).asleep s false ∧ 0 < s.data.queue.size ∧ (monitor T).woken s false = 0) := by
  have hstart : (new cap value).app_cq.length = cap ∧ (new cap value).size ≤ cap :=
    ⟨List.length_replicate, Nat.zero_le _⟩
  have hblocked : ∀ (c : Call T) (d : Log T),
      d.queue.app_cq.length = cap ∧ d.queue.size ≤ cap → (monitor T).blocked c d = true →
      room ((monitor T).kind c) d = 0 := by
    intro c d _ hb
    cases c with
    | push appName =>
        have hfull : d.queue.app_cq.length ≤ d.queue.size := by simpa [monitor] using hb
        exact Nat.sub_eq_zero_of_le hfull
    | pop =>
        have hempty : d.queue.size ≤ 0 := by simpa [monitor] using hb
        exact Nat.le_zero.mp hempty
  have hattended : (monitor T).Attended room s :=
    Monitor.asleep_le_woken hblocked (room_body hcap) hstart hrun
  have hlen : s.data.queue.app_cq.length = cap :=
    (Monitor.data_inv (fun c d d' h hb hd => (room_body hcap c d d' h hb hd).1) hstart hrun).1
  have hpop := hattended false
  have hpush := hattended true
  simp only [room, Bool.false_eq_true, if_false, if_true, hlen] at hpop hpush
  exact ⟨hpop, hpush, fun ⟨hsleep, hitem, hnone⟩ => by have := hpop hsleep; omega⟩

/-- Two consumers sleep, and an item wakes one of them. -/
def twoSleepers : List (Monitor.Event (Call ℕ)) :=
  [.call 0 .pop none, .call 1 .pop none, .call 2 (.push 7) (some 1)]

theorem attended_twoSleepers : ∃ s, Transition.run (monitor ℕ).step (init 1 0 3) twoSleepers = some s ∧
    0 < (monitor ℕ).asleep s false ∧ s.data.queue.size ≤ (monitor ℕ).woken s false :=
  ⟨_, rfl, by decide, (attended 1 (by decide) 0 3 twoSleepers _ rfl).1 (by decide)⟩

end GentMsg

end Riser
