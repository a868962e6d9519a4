import Mathlib.Tactic

/-!
# Loops that may not end

A loop is given by what one turn does: go on with a new state, or leave with a result.  `Ends` says
that the loop is left after finitely many turns.  There is one rule for each answer:

* `ends_of_measure` — a number that gets smaller with every turn that goes on,
* `not_ends_of_inv` — an invariant under which every turn goes on.

Both take a predicate on the states, so that neither has to speak about states that are not reached.
-/

namespace Loop

variable {σ ρ : Type}

/-- What a turn does. -/
inductive Outcome (σ ρ : Type) where
  | next (s : σ)
  | leave (r : ρ)

/-- At most `n` turns. -/
def run (turn : σ → Outcome σ ρ) : ℕ → σ → Option ρ
  | 0, _ => none
  | n + 1, s =>
      match turn s with
      | .next s' => run turn n s'
      | .leave r => some r

/-- The loop is left after finitely many turns. -/
def Ends (turn : σ → Outcome σ ρ) (s : σ) : Prop := ∃ n r, run turn n s = some r

variable {turn : σ → Outcome σ ρ} {s s' : σ} {r : ρ}

lemma run_leave (h : turn s = .leave r) (n : ℕ) : run turn (n + 1) s = some r := by
  simp only [run, h]

lemma run_next (h : turn s = .next s') (n : ℕ) : run turn (n + 1) s = run turn n s' := by
  simp only [run, h]

lemma ends_of_leave (h : turn s = .leave r) : Ends turn s :=
  ⟨1, r, run_leave h 0⟩

lemma ends_of_next (h : turn s = .next s') (hs : Ends turn s') : Ends turn s := by
  obtain ⟨n, r, hr⟩ := hs
  exact ⟨n + 1, r, (run_next h n).trans hr⟩

/-- How many turns are allowed does not matter. -/
lemma run_unique {m n : ℕ} {r' : ρ} (hm : run turn m s = some r) (hn : run turn n s = some r') :
    r = r' := by
  induction m generalizing s n with
  | zero => cases hm
  | succ m ih =>
      cases n with
      | zero => cases hn
      | succ n =>
          cases hturn : turn s with
          | next s' =>
              simp only [run, hturn] at hm hn
              exact ih hm hn
          | leave r₀ =>
              simp only [run, hturn, Option.some.injEq] at hm hn
              exact hm.symm.trans hn

/-- What every turn keeps holds when the loop is left. -/
lemma leaves_of_run {P : σ → Prop} (hstep : ∀ s s', P s → turn s = .next s' → P s') {n : ℕ}
    (hs : P s) (h : run turn n s = some r) : ∃ s', P s' ∧ turn s' = .leave r := by
  induction n generalizing s with
  | zero => cases h
  | succ n ih =>
      cases hturn : turn s with
      | next s' =>
          simp only [run, hturn] at h
          exact ih (hstep s s' hs hturn) h
      | leave r' =>
          simp only [run, hturn, Option.some.injEq] at h
          exact ⟨s, hs, h ▸ hturn⟩

/-- The loop comes from `s` to `s'`. -/
def Visits (turn : σ → Outcome σ ρ) : σ → σ → Prop :=
  Relation.ReflTransGen fun s s' => turn s = .next s'

/-- What every turn keeps holds in every state that the loop comes to. -/
lemma Visits.inv {P : σ → Prop} (hstep : ∀ s s', P s → turn s = .next s' → P s') (hs : P s)
    (h : Visits turn s s') : P s' := by
  induction h with
  | refl => exact hs
  | tail _ hturn ih => exact hstep _ _ ih hturn

/-- **The rule for loops that end.** -/
theorem ends_of_measure (μ : σ → ℕ) (P : σ → Prop)
    (hstep : ∀ s, P s → (∃ r, turn s = .leave r) ∨ ∃ s', turn s = .next s' ∧ P s' ∧ μ s' < μ s)
    (s : σ) (hs : P s) : Ends turn s := by
  rcases hstep s hs with ⟨r, hleave⟩ | ⟨s', hnext, hP, hless⟩
  · exact ends_of_leave hleave
  · exact ends_of_next hnext (ends_of_measure μ P hstep s' hP)
termination_by μ s

/-- **The rule for loops that do not.** -/
theorem not_ends_of_inv (P : σ → Prop) (hstep : ∀ s, P s → ∃ s', turn s = .next s' ∧ P s') :
    ∀ s, P s → ¬ Ends turn s := by
  have hnone : ∀ n s, P s → run turn n s = none := by
    intro n
    induction n with
    | zero => exact fun _ _ => rfl
    | succ n ih =>
        intro s hs
        obtain ⟨s', hs', hP⟩ := hstep s hs
        simp only [run, hs']
        exact ih s' hP
  rintro s hs ⟨n, r, hr⟩
  rw [hnone n s hs] at hr
  cases hr

end Loop
