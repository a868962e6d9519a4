import Mathlib.Tactic

/-!
# Clients of a shared object

Several clients work on one object.  Each of them asks for an operation, waits until it is told the
answer, and goes on to the next.  Between the two the operation **takes effect**, in one step, and
nothing else that is done for the client touches the object.

The operations that have taken effect make up a log, in the order in which they did.  The log
*explains* what the clients see (`Explains`) if the object is what comes of the log, one operation
after the other, and every client has been told the answers that belong to its entries, in order, all
but the one that is still on its way to it.

A system of this kind does one of four things in a step that matters: a client asks (`ask`), an
operation takes effect (`take_effect`), a client is told its answer (`tell`), or the object changes of
its own accord (`change`).  The log explains the state after each of them, if it explains the one before.
-/

namespace SharedObject

variable {I S O E R : Type*}

/-- What the operations do: `call` at the request of a client, `own` without one.  An `E` is what an
operation may depend on besides. -/
structure Spec (S O E R : Type*) where
  call : S → E → O → R × S
  own : S → E → S

/-- How far a client is with its operation. -/
inductive Phase (O R : Type*) where
  | idle
  | pending (o : O)
  | answered (r : R)

namespace Phase

/-- The operation that has not taken effect. -/
def waiting : Phase O R → List O
  | .pending o => [o]
  | _ => []

/-- The answer that is on its way. -/
def owed : Phase O R → List R
  | .answered r => [r]
  | _ => []

end Phase

/-- What has taken effect. -/
inductive Entry (I O E : Type*) where
  | call (i : I) (o : O) (e : E)
  | own (e : E)

namespace Spec

variable (spec : Spec S O E R)

/-- The object after an entry. -/
def exec (s : S) : Entry I O E → S
  | .call _ o e => (spec.call s e o).2
  | .own e => spec.own s e

/-- The object after a log. -/
def after (s : S) (log : List (Entry I O E)) : S := log.foldl spec.exec s

lemma after_snoc (s : S) (log : List (Entry I O E)) (e : Entry I O E) :
    spec.after s (log ++ [e]) = spec.exec (spec.after s log) e := by
  simp [after]

variable [DecidableEq I]

/-- What an entry has a client told. -/
def answer (i : I) (s : S) : Entry I O E → List R
  | .call j o e => if j = i then [(spec.call s e o).1] else []
  | .own _ => []

/-- What a log has a client told. -/
def answers (i : I) : S → List (Entry I O E) → List R
  | _, [] => []
  | s, e :: log => spec.answer i s e ++ answers i (spec.exec s e) log

lemma answers_snoc (i : I) (s : S) (log : List (Entry I O E)) (e : Entry I O E) :
    spec.answers i s (log ++ [e]) = spec.answers i s log ++ spec.answer i (spec.after s log) e := by
  induction log generalizing s with
  | nil => simp [answers, after]
  | cons e' log ih =>
      rw [List.cons_append, answers, ih, answers, List.append_assoc]
      rfl

end Spec

/-- The operations of a client in a log. -/
def ops [DecidableEq I] (i : I) (log : List (Entry I O E)) : List O :=
  log.filterMap fun
    | .call j o _ => if j = i then some o else none
    | .own _ => none

/-- **The log explains what the clients see.** -/
structure Explains [DecidableEq I] (spec : Spec S O E R) (s₀ s : S) (log : List (Entry I O E))
    (asked : I → List O) (told : I → List R) (phase : I → Phase O R) : Prop where
  object : s = spec.after s₀ log
  asked : ∀ i, asked i = ops i log ++ (phase i).waiting
  told : ∀ i, spec.answers i s₀ log = told i ++ (phase i).owed

namespace Explains

variable [DecidableEq I] {spec : Spec S O E R} {s₀ s : S} {log : List (Entry I O E)}
  {asked : I → List O} {told : I → List R} {phase : I → Phase O R}

/-- Nothing has happened. -/
lemma start (spec : Spec S O E R) (s₀ : S) :
    Explains (I := I) spec s₀ s₀ [] (fun _ => []) (fun _ => []) (fun _ => .idle) where
  object := rfl
  asked := fun _ => rfl
  told := fun _ => rfl

/-- **A client asks.** -/
lemma ask (h : Explains spec s₀ s log asked told phase) {i : I} (hi : phase i = .idle) (o : O) :
    Explains spec s₀ s log (Function.update asked i (asked i ++ [o])) told
      (Function.update phase i (.pending o)) where
  object := h.object
  asked := by
    intro j
    by_cases hj : j = i
    · subst hj
      have hnone := h.asked j
      rw [hi] at hnone
      simp [hnone, Phase.waiting]
    · simpa [Function.update_of_ne hj] using h.asked j
  told := by
    intro j
    by_cases hj : j = i
    · subst hj
      have htold := h.told j
      rw [hi] at htold
      simpa [Phase.owed] using htold
    · simpa [Function.update_of_ne hj] using h.told j

/-- **An operation takes effect.** -/
lemma take_effect (h : Explains spec s₀ s log asked told phase) {i : I} {o : O}
    (hi : phase i = .pending o) (e : E) :
    Explains spec s₀ (spec.call s e o).2 (log ++ [.call i o e]) asked told
      (Function.update phase i (.answered (spec.call s e o).1)) where
  object := by
    rw [spec.after_snoc, ← h.object]
    rfl
  asked := by
    intro j
    by_cases hj : j = i
    · subst hj
      rw [h.asked j, hi]
      simp [ops, Phase.waiting]
    · rw [h.asked j, Function.update_of_ne hj]
      simp [ops, Ne.symm hj]
  told := by
    intro j
    rw [spec.answers_snoc, ← h.object, h.told j]
    by_cases hj : j = i
    · subst hj
      simp [hi, Spec.answer, Phase.owed]
    · simp [Function.update_of_ne hj, Spec.answer, Ne.symm hj]

/-- **A client is told its answer.** -/
lemma tell (h : Explains spec s₀ s log asked told phase) {i : I} {r : R} (hi : phase i = .answered r) :
    Explains spec s₀ s log asked (Function.update told i (told i ++ [r]))
      (Function.update phase i .idle) where
  object := h.object
  asked := by
    intro j
    by_cases hj : j = i
    · subst hj
      have hasked := h.asked j
      rw [hi] at hasked
      simpa [Phase.waiting] using hasked
    · simpa [Function.update_of_ne hj] using h.asked j
  told := by
    intro j
    by_cases hj : j = i
    · subst hj
      rw [h.told j, hi]
      simp [Phase.owed]
    · simpa [Function.update_of_ne hj] using h.told j

/-- **The object changes of its own accord.** -/
lemma change (h : Explains spec s₀ s log asked told phase) (e : E) :
    Explains spec s₀ (spec.own s e) (log ++ [.own e]) asked told phase where
  object := by
    rw [spec.after_snoc, ← h.object]
    rfl
  asked := fun j => by simpa [ops] using h.asked j
  told := fun j => by simpa [spec.answers_snoc, Spec.answer] using h.told j

end Explains

end SharedObject
