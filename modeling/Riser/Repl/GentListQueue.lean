import Riser.Core.Chain
import Riser.Core.Loop
import Riser.Core.Transition
import Riser.Redis.Faults
import Riser.Repl.GentReplication

/-!
# `GentListQueue`: the linked queue under a replication

The queues of a replication are chains of nodes with a sentinel in front: `front` stays at the sentinel,
`rear` points to the last node, and to the sentinel when there is no other.  Here the nodes are in an
explicit heap.  Following a null pointer, or one to a node that was deleted, is `none`, and `new` returns
any address that is not in use, also one that was deleted before.

`Rep q l` ties the queue to the addresses and elements of its chain.  It is kept by `push` and `pop`
(`Rep.push`, `Rep.pop`), none of them goes astray, and all that can be asked of the queue can be read off
the list.  **Except for `size`**, which counts in an `int` while `length` is a `uint64_t`: `refines_iff`.

`GentReplication` has lists for its queues.  That this is right is said by the same lemmas; the one for
the loop of `front_nums_element` is `frontNums_eq`.
-/

namespace Riser

open Cpp Chain

/-- `class GentListQueue`, with the heap that its nodes are in. -/
structure GentListQueue (α : Type) where
  heap : Heap α
  front : ℕ
  rear : ℕ
  length : ℕ

namespace GentListQueue

variable {α : Type}

/-- The constructor, with the sentinel at `p`. -/
def new (p : ℕ) : GentListQueue α where
  heap := Function.update (fun _ => none) p (some ⟨none, none⟩)
  front := p
  rear := p
  length := 0

/-- `push`, with the new node at `p`. -/
def push (q : GentListQueue α) (p : ℕ) (e : α) : Option (GentListQueue α) := do
  let heap := Function.update q.heap p (some ⟨none, some e⟩)
  let last ← heap q.rear
  return {
    heap := Function.update heap q.rear (some { last with next := some p })
    front := q.front
    rear := p
    length := toUInt64 (q.length + 1) }

/-- `pop`.  When the only element goes, `rear` goes back to the sentinel. -/
def pop (q : GentListQueue α) : Option (GentListQueue α × Option α) :=
  if q.front = q.rear then some (q, none)
  else do
    let head ← q.heap q.front
    let p ← head.next
    let node ← q.heap p
    return ({
      heap := Function.update (Function.update q.heap q.front (some ⟨node.next, head.data⟩)) p none
      front := q.front
      rear := if q.rear = p then q.front else q.rear
      length := toUInt64 (q.length - 1) }, node.data)

/-- `front_element`. -/
def frontElement (q : GentListQueue α) : Option (Option α) :=
  if q.front = q.rear then some none
  else do
    let head ← q.heap q.front
    let p ← head.next
    let node ← q.heap p
    return node.data

/-- The loop of `front_nums_element`, for `num` more turns. -/
def frontLoop (heap : Heap α) : ℕ → ℕ → List (Option α) → Option (List (Option α))
  | 0, _, dat => some dat
  | num + 1, p, dat => do
      let node ← heap p
      match node.next with
      | none => return dat ++ [node.data]
      | some p' => frontLoop heap num p' (dat ++ [node.data])

/-- `front_nums_element`. -/
def frontNumsElement (q : GentListQueue α) (dat : List (Option α)) (num : ℤ) :
    Option (Bool × List (Option α)) :=
  if q.front = q.rear then some (false, dat)
  else do
    let head ← q.heap q.front
    let p ← head.next
    let dat ← frontLoop q.heap num.toNat p dat
    return (true, dat)

/-- A turn of the loop of `size`, which leaves with `none` where the pointer is null or stale. -/
def sizeTurn (q : GentListQueue α) : ℕ × ℤ → Loop.Outcome (ℕ × ℤ) (Option ℤ)
  | (p, count) =>
      if p = q.rear then .leave (some count)
      else
        match (q.heap p).bind Node.next with
        | none => .leave none
        | some p' => .next (p', toInt32 (count + 1))

/-- `size` returns `count`. -/
def Sizes (q : GentListQueue α) (count : ℤ) : Prop :=
  ∃ n, Loop.run q.sizeTurn n (q.front, 0) = some (some count)

/-! ## The list -/

/-- The queue is the chain `l`. -/
structure Rep (q : GentListQueue α) (l : List (ℕ × α)) : Prop where
  linked : Linked q.heap q.front l
  nodup : (addrs q.front l).Nodup
  rear : q.rear = last q.front l
  length : q.length = l.length % 2 ^ 64

variable {q : GentListQueue α} {l : List (ℕ × α)}

lemma Rep.new (p : ℕ) : Rep (α := α) (new p) [] where
  linked := ⟨none, by simp [GentListQueue.new]⟩
  nodup := List.nodup_singleton p
  rear := rfl
  length := rfl

/-- Only an empty queue has its two ends at the sentinel. -/
lemma Rep.front_eq_iff (h : Rep q l) : q.front = q.rear ↔ l = [] := by
  rw [h.rear]
  cases l with
  | nil => exact iff_of_true rfl rfl
  | cons ax l =>
      obtain ⟨a, x⟩ := ax
      refine iff_of_false ?_ (List.cons_ne_nil _ _)
      intro heq
      exact (List.nodup_cons.mp h.nodup).1 (heq ▸ last_mem_addrs (p := a))

/-- **`push` appends.** -/
lemma Rep.push (h : Rep q l) {p : ℕ} (hfree : q.heap p = none) (e : α) :
    ∃ q', q.push p e = some q' ∧ Rep q' (l ++ [(p, e)]) := by
  obtain ⟨d, hd⟩ := h.linked.last
  have hrear : q.rear ≠ p := by
    intro heq
    rw [← h.rear, heq, hfree] at hd
    cases hd
  have hlast : Function.update q.heap p (some ⟨none, some e⟩) q.rear = some ⟨none, d⟩ := by
    rw [Function.update_of_ne hrear, h.rear, hd]
  have hpush : q.push p e = some {
      heap := Function.update (Function.update q.heap p (some ⟨none, some e⟩)) q.rear
        (some ⟨some p, d⟩)
      front := q.front
      rear := p
      length := toUInt64 (q.length + 1) } := by
    simp [GentListQueue.push, hlast]
  refine ⟨_, hpush, ?_, ?_, ?_, ?_⟩
  · have hsnoc := h.linked.snoc (x := e) h.nodup hfree hd
    rw [← h.rear] at hsnoc
    exact hsnoc
  · have hp : p ∉ addrs q.front l := fun hmem => h.linked.allocated hmem hfree
    have hsplit : addrs q.front (l ++ [(p, e)]) = addrs q.front l ++ [p] := by simp [addrs]
    rw [hsplit]
    exact List.nodup_append.mpr ⟨h.nodup, List.nodup_singleton p, fun a ha b hb => by
      rintro rfl
      exact hp (List.mem_singleton.mp hb ▸ ha)⟩
  · exact last_snoc.symm
  · simp only [h.length, List.length_append, List.length_singleton, toUInt64]
    omega

/-- **`pop` returns the oldest element and removes it.** -/
lemma Rep.pop (h : Rep q l) :
    ∃ q', q.pop = some (q', (l.map Prod.snd).head?) ∧ Rep q' l.tail := by
  cases l with
  | nil =>
      have heq := h.front_eq_iff.mpr rfl
      exact ⟨q, by simp [GentListQueue.pop, heq], h⟩
  | cons ax l =>
      obtain ⟨a, x⟩ := ax
      have hne : q.front ≠ q.rear := fun heq => List.cons_ne_nil _ _ (h.front_eq_iff.mp heq)
      obtain ⟨⟨d, hd⟩, ⟨n, hn⟩, -⟩ := h.linked
      obtain ⟨hfront, hnodup⟩ := List.nodup_cons.mp h.nodup
      have hpop : q.pop = some ({
          heap := Function.update (Function.update q.heap q.front (some ⟨n, d⟩)) a none
          front := q.front
          rear := if q.rear = a then q.front else q.rear
          length := toUInt64 (q.length - 1) }, some x) := by
        simp [GentListQueue.pop, hne, hd, hn]
      refine ⟨_, hpop, ?_, ?_, ?_, ?_⟩
      · exact h.linked.unlink h.nodup hn d
      · exact List.nodup_cons.mpr ⟨fun hmem => hfront (List.mem_cons_of_mem _ hmem),
          (List.nodup_cons.mp hnodup).2⟩
      · -- the alias of the last node is repaired exactly if that node goes
        have hrear : q.rear = last a l := h.rear
        cases l with
        | nil => simp [hrear, last]
        | cons bx l =>
            have hlast : last a (bx :: l) ≠ a := by
              intro heq
              exact (List.nodup_cons.mp hnodup).1 (heq ▸ last_mem_addrs (p := bx.1) (l := l))
            show (if q.rear = a then q.front else q.rear) = last a (bx :: l)
            rw [hrear, if_neg hlast]
      · have hlen := h.length
        simp only [List.length_cons] at hlen
        simp only [hlen, toUInt64, List.tail_cons]
        omega

/-! ## What can be asked -/

lemma Rep.frontElement (h : Rep q l) : q.frontElement = some (l.map Prod.snd).head? := by
  cases l with
  | nil =>
      have heq := h.front_eq_iff.mpr rfl
      simp [GentListQueue.frontElement, heq]
  | cons ax l =>
      obtain ⟨a, x⟩ := ax
      have hne : q.front ≠ q.rear := fun heq => List.cons_ne_nil _ _ (h.front_eq_iff.mp heq)
      obtain ⟨⟨d, hd⟩, ⟨n, hn⟩, -⟩ := h.linked
      simp [GentListQueue.frontElement, hne, hd, hn]

/-- The loop, from the first node on. -/
lemma frontLoop_eq {heap : Heap α} {p : ℕ} {x : α} (hx : ∃ n, heap p = some ⟨n, some x⟩)
    (hl : Linked heap p l) (num : ℕ) (dat : List (Option α)) :
    frontLoop heap num p dat = some (dat ++ ((x :: l.map Prod.snd).take num).map some) := by
  induction num generalizing p x l dat with
  | zero => simp [frontLoop]
  | succ num ih =>
      obtain ⟨n, hn⟩ := hx
      cases l with
      | nil =>
          obtain ⟨d, hd⟩ := hl
          rw [hn, Option.some.injEq, Node.mk.injEq] at hd
          simp [frontLoop, hn, hd.1]
      | cons ay l =>
          obtain ⟨a, y⟩ := ay
          obtain ⟨⟨d, hd⟩, hy, hl⟩ := hl
          rw [hn, Option.some.injEq, Node.mk.injEq] at hd
          have hrest := ih hy hl (dat ++ [some x])
          simp [frontLoop, hn, hd.1, hrest]

lemma Rep.frontNumsElement (h : Rep q l) (dat : List (Option α)) (num : ℤ) :
    q.frontNumsElement dat num
      = some (decide (l ≠ []), dat ++ ((l.map Prod.snd).take num.toNat).map some) := by
  cases l with
  | nil =>
      have heq := h.front_eq_iff.mpr rfl
      simp [GentListQueue.frontNumsElement, heq]
  | cons ax l =>
      obtain ⟨a, x⟩ := ax
      have hne : q.front ≠ q.rear := fun heq => List.cons_ne_nil _ _ (h.front_eq_iff.mp heq)
      obtain ⟨⟨d, hd⟩, hx, hl⟩ := h.linked
      simp [GentListQueue.frontNumsElement, hne, hd, frontLoop_eq hx hl]

/-- **In `GentReplication` the queues are lists**, and this is its `front_nums_element`. -/
theorem frontNums_eq {q : GentListQueue ItemData} {l : List (ℕ × ItemData)} (h : Rep q l) (num : ℕ) :
    q.frontNumsElement [] num
      = match GentReplication.frontNums (l.map Prod.snd) num with
        | none => some (false, [])
        | some dat => some (true, dat.map some) := by
  rw [h.frontNumsElement]
  by_cases hl : l = []
  · simp [hl, GentReplication.frontNums]
  · simp [hl, GentReplication.frontNums]

/-- The loop of `size`, from a node in the chain on. -/
lemma sizeTurn_run (q : GentListQueue α) {p : ℕ} (hl : Linked q.heap p l)
    (hnodup : (addrs p l).Nodup) (hrear : q.rear = last p l) {count : ℤ}
    (hcount : toInt32 count = count) :
    Loop.run q.sizeTurn (l.length + 1) (p, count) = some (some (toInt32 (count + l.length))) := by
  induction l generalizing p count with
  | nil => simp [Loop.run, sizeTurn, hrear, last, hcount]
  | cons ax l ih =>
      obtain ⟨a, x⟩ := ax
      obtain ⟨⟨d, hd⟩, -, hl⟩ := hl
      obtain ⟨hp, hnodup⟩ := List.nodup_cons.mp hnodup
      have hne : p ≠ q.rear := by
        intro heq
        exact hp (heq.trans hrear ▸ last_mem_addrs (p := a))
      have hturn : q.sizeTurn (p, count) = .next (a, toInt32 (count + 1)) := by
        simp [sizeTurn, hne, hd]
      have hfix : toInt32 (toInt32 (count + 1)) = toInt32 (count + 1) := Int.bmod_bmod
      have hrun := ih hl hnodup hrear hfix
      have hsum : toInt32 (toInt32 (count + 1) + l.length)
          = toInt32 (count + ((l.length + 1 : ℕ) : ℤ)) := by
        simp only [toInt32, Int.bmod_add_bmod]
        congr 1
        push_cast
        ring
      rw [List.length_cons, Loop.run, hturn]
      exact hrun.trans (by rw [hsum])

/-- **`size` counts in an `int`.** -/
lemma Rep.sizes (h : Rep q l) : q.Sizes (toInt32 l.length) := by
  have hzero : toInt32 0 = 0 := toInt32_of_bounds (by norm_num) (by norm_num)
  refine ⟨l.length + 1, ?_⟩
  rw [sizeTurn_run q h.linked h.nodup h.rear hzero, zero_add]

/-- A loop that is left has one result. -/
lemma Sizes.unique {m n : ℤ} (hm : q.Sizes m) (hn : q.Sizes n) : m = n := by
  obtain ⟨i, hi⟩ := hm
  obtain ⟨j, hj⟩ := hn
  exact Option.some.inj (Loop.run_unique hi hj)

/-! ## Runs -/

/-- A call, with the address that `new` returns. -/
inductive Event (α : Type) where
  | push (p : ℕ) (e : α)
  | pop

def step (q : GentListQueue α) : Event α → Option (GentListQueue α)
  | .push p e => q.push p e
  | .pop => q.pop.map Prod.fst

/-- `new` returns memory that is not in use. -/
def Allocates (q : GentListQueue α) : Event α → Prop
  | .push p _ => q.heap p = none
  | .pop => True

/-- The elements after the calls, `xs` before them. -/
def contents : List α → List (Event α) → List α
  | xs, [] => xs
  | xs, .push _ e :: es => contents (xs ++ [e]) es
  | xs, .pop :: es => contents xs.tail es

/-- **The queue is the list `xs`**, in all that can be asked of it. -/
structure IsList (q : GentListQueue α) (xs : List α) : Prop where
  length : q.length = xs.length
  reaches : ∀ i ≤ q.length, follow q.heap i q.front = some q.rear ↔ i = q.length
  ends : ∃ d, q.heap q.rear = some ⟨none, d⟩
  pop : ∃ q', q.pop = some (q', xs.head?)
  frontElement : q.frontElement = some xs.head?
  size : q.Sizes q.length
  frontNumsElement : ∀ dat num, 1 ≤ num → q.frontNumsElement dat num
    = some (decide (xs ≠ []), dat ++ (xs.take num.toNat).map some)

/-- It is one as long as an `int` can count its elements. -/
lemma Rep.isList_iff (h : Rep q l) : IsList q (l.map Prod.snd) ↔ l.length < 2 ^ 31 := by
  have hsizes := h.sizes
  constructor
  · intro hlist
    have hlen : q.length = l.length := by simpa using hlist.length
    have hcount := hlist.size.unique hsizes
    have hlt := toInt32_lt l.length
    omega
  · intro hlt
    have hlen : q.length = l.length := by
      rw [h.length]
      omega
    have hsize : toInt32 l.length = q.length := by
      rw [hlen]
      exact toInt32_of_bounds (by omega) (by omega)
    obtain ⟨q', hpop, -⟩ := h.pop
    refine ⟨by simpa using hlen, ?_, ?_, ⟨q', hpop⟩, h.frontElement, hsize ▸ hsizes, ?_⟩
    · intro i hi
      rw [hlen] at hi ⊢
      rw [h.rear]
      exact h.linked.follow_iff h.nodup hi
    · rw [h.rear]
      exact h.linked.last
    · intro dat num _
      rw [h.frontNumsElement]
      simp

/-- **The run lemma.** -/
lemma Rep.run (h : Rep q l) {es : List (Event α)} (halloc : Transition.Along step Allocates q es) :
    ∃ q' l', Transition.run step q es = some q' ∧ Rep q' l' ∧
      l'.map Prod.snd = contents (l.map Prod.snd) es := by
  induction es generalizing q l with
  | nil => exact ⟨q, l, rfl, h, rfl⟩
  | cons e es ih =>
      obtain ⟨hfree, halloc⟩ := halloc
      cases e with
      | push p e =>
          obtain ⟨q₁, hq₁, h₁⟩ := h.push hfree e
          have hstep : step q (.push p e) = some q₁ := hq₁
          obtain ⟨q', l', hrun, h', hl'⟩ := ih h₁ (halloc q₁ hstep)
          refine ⟨q', l', by rw [Transition.run, hstep, Option.bind_some, hrun], h', ?_⟩
          simpa [contents] using hl'
      | pop =>
          obtain ⟨q₁, hq₁, h₁⟩ := h.pop
          have hstep : step q .pop = some q₁ := by rw [step, hq₁, Option.map_some]
          obtain ⟨q', l', hrun, h', hl'⟩ := ih h₁ (halloc q₁ hstep)
          refine ⟨q', l', by rw [Transition.run, hstep, Option.bind_some, hrun], h', ?_⟩
          simpa [contents, List.map_tail] using hl'

/-- **A queue refines a list exactly when** it has less than `2 ^ 31` elements, and no call goes astray
in the heap. -/
theorem refines_iff (p₀ : ℕ) (es : List (Event α))
    (halloc : Transition.Along step Allocates (new p₀) es) :
    ∃ q, Transition.run step (new p₀) es = some q ∧
      (IsList q (contents [] es) ↔ (contents [] es).length < 2 ^ 31) := by
  obtain ⟨q, l, hrun, h, hl⟩ := (Rep.new p₀).run halloc
  refine ⟨q, hrun, ?_⟩
  rw [List.map_nil] at hl
  rw [← hl, List.length_map]
  exact h.isList_iff

/-- The only element goes, and its memory is used again. -/
theorem refines_reused :
    ∃ q, Transition.run step (new 0) [.push 1 'a', .pop, .push 1 'b'] = some q ∧
      IsList q ['b'] := by
  have halloc : Transition.Along step Allocates (new 0) [.push 1 'a', .pop, .push 1 'b'] := by
    simp [Transition.Along, Allocates, step, GentListQueue.push, GentListQueue.pop,
      GentListQueue.new, Function.update]
  obtain ⟨q, hrun, hiff⟩ := refines_iff 0 [.push 1 'a', .pop, .push 1 'b'] halloc
  exact ⟨q, hrun, hiff.mpr (by decide)⟩

/-- `n` elements, at the addresses above `k`. -/
def filling : ℕ → ℕ → List (Event Unit)
  | _, 0 => []
  | k, n + 1 => .push (k + 1) () :: filling (k + 1) n

lemma length_contents_filling (n : ℕ) :
    ∀ (k : ℕ) (xs : List Unit), (contents xs (filling k n)).length = xs.length + n := by
  induction n with
  | zero => exact fun _ _ => rfl
  | succ n ih =>
      intro k xs
      rw [filling, contents, ih, List.length_append, List.length_singleton]
      omega

/-- The addresses are all different. -/
lemma filling_allocates (n : ℕ) : ∀ {k : ℕ} {q : GentListQueue Unit},
    (∀ a, k < a → q.heap a = none) → q.rear ≤ k → Transition.Along step Allocates q (filling k n) := by
  induction n with
  | zero => exact fun _ _ => trivial
  | succ n ih =>
      intro k q hfree hrear
      refine ⟨hfree (k + 1) (Nat.lt_succ_self k), fun q' hq' => ?_⟩
      simp only [step, GentListQueue.push, Option.mem_def, Option.bind_eq_bind,
        Option.bind_eq_some_iff] at hq'
      obtain ⟨nd, -, hq'⟩ := hq'
      obtain rfl := Option.some.inj hq'
      refine ih (fun a ha => ?_) (le_refl _)
      have ha₁ : a ≠ q.rear := by omega
      have ha₂ : a ≠ k + 1 := by omega
      simp only [Function.update_of_ne ha₁, Function.update_of_ne ha₂]
      exact hfree a (by omega)

/-- **With `2 ^ 31` elements `size` is negative**, and `length` is not. -/
theorem size_overflow :
    ∃ q, Transition.run step (new 0) (filling 0 (2 ^ 31)) = some q ∧
      ¬ IsList q (contents [] (filling 0 (2 ^ 31))) := by
  have hfree : ∀ a, 0 < a → (new (α := Unit) 0).heap a = none := by
    intro a ha
    simp [GentListQueue.new, Function.update_of_ne ha.ne']
  obtain ⟨q, l, hrun, h, hl⟩ := (Rep.new 0).run (filling_allocates (2 ^ 31) hfree (le_refl 0))
  refine ⟨q, hrun, ?_⟩
  rw [List.map_nil] at hl
  have hlen : l.length = 2 ^ 31 := by
    rw [← List.length_map Prod.snd, hl, length_contents_filling]
    rfl
  rw [← hl, h.isList_iff, hlen]
  exact lt_irrefl _

end GentListQueue

end Riser
