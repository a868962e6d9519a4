import Mathlib.Tactic

/-!
# Runs of a step function, and invariants that need a condition on the steps

A system is a step function `S → E → Option S`: an event is taken in a state, and `none` says that
it cannot be.  A **run** is a list of events.  Many safety properties hold only of the runs in
which every step meets some condition on the state it is taken in; `Along` says that of a run, and
`inv_run` is the induction behind all of them: an invariant that each step *meeting the condition*
preserves holds at the end of every such run, hence in every state it goes through.

`inv_run_of_step` is the case without a condition, `along_of_inv` the way from an invariant to a
condition, and `along_inv_iff` says when a condition is not only enough but needed.

`settles_of_rank` is about progress: a system whose states have a rank, and whose every step makes the
rank smaller until the goal is reached, reaches it whatever the events are.

A concurrent system keeps its threads in a list, and a step replaces the one that moves: the last two
lemmas say which threads there are before and after.
-/

namespace Transition

variable {S E : Type*} (step : S → E → Option S)

/-- The state after the events, `none` if one of them could not be taken. -/
def run : S → List E → Option S
  | s, [] => some s
  | s, e :: es => (step s e).bind fun s' => run s' es

/-- Every step of the run meets `P` in the state it is taken in. -/
def Along (P : S → E → Prop) : S → List E → Prop
  | _, [] => True
  | s, e :: es => P s e ∧ ∀ s' ∈ step s e, Along P s' es

instance Along.decidable (P : S → E → Prop) [∀ s e, Decidable (P s e)] :
    ∀ s es, Decidable (Along step P s es)
  | _, [] => .isTrue trivial
  | _, _ :: es =>
      have : ∀ s', Decidable (Along step P s' es) := fun s' => Along.decidable P s' es
      inferInstanceAs (Decidable (_ ∧ _))

variable {step}

/-- A run of at least one step goes through the state after the first. -/
lemma run_cons {s s' : S} {e : E} {es : List E} (h : run step s (e :: es) = some s') :
    ∃ s₁, step s e = some s₁ ∧ run step s₁ es = some s' := by
  simpa [run, Option.bind_eq_some_iff] using h

lemma run_append (s : S) (es es' : List E) :
    run step s (es ++ es') = (run step s es).bind fun s' => run step s' es' := by
  induction es generalizing s with
  | nil => rfl
  | cons e es ih =>
      simp only [List.cons_append, run, Option.bind_assoc]
      exact congrArg _ (funext fun s' => ih s')

/-- A step that meets the condition, before a run that does. -/
lemma Along.cons {P : S → E → Prop} {s s₁ : S} {e : E} {es : List E} (h : step s e = some s₁)
    (hP : P s e) (hrest : Along step P s₁ es) : Along step P s (e :: es) := by
  refine ⟨hP, fun s' hs' => ?_⟩
  obtain rfl : s₁ = s' := Option.some.inj (h.symm.trans hs')
  exact hrest

/-- A condition on the events alone comes on top. -/
lemma Along.and {P : S → E → Prop} {Q : E → Prop} {s : S} {es : List E} (h : Along step P s es)
    (hQ : ∀ e ∈ es, Q e) : Along step (fun s e => P s e ∧ Q e) s es := by
  induction es generalizing s with
  | nil => trivial
  | cons e es ih =>
      refine ⟨⟨h.1, hQ e List.mem_cons_self⟩, fun s' hs' => ih (h.2 s' hs') fun e' he' => ?_⟩
      exact hQ e' (List.mem_cons_of_mem e he')

/-- **Invariants along conditioned runs.** -/
theorem inv_run {P : S → E → Prop} {I : S → Prop}
    (hstep : ∀ s e s', I s → P s e → step s e = some s' → I s') :
    ∀ (es : List E) {s s' : S}, I s → Along step P s es → run step s es = some s' → I s'
  | [], _, _, hI, _, hrun => by
      obtain rfl : _ = _ := by simpa [run] using hrun
      exact hI
  | e :: es, s, s', hI, ⟨hP, hrest⟩, hrun => by
      obtain ⟨s₁, h₁, hrun⟩ := run_cons hrun
      exact inv_run hstep es (hstep s e s₁ hI hP h₁) (hrest s₁ h₁) hrun

/-- **Invariants along all runs.** -/
theorem inv_run_of_step {I : S → Prop} (hstep : ∀ s e s', I s → step s e = some s' → I s')
    {es : List E} {s s' : S} (hI : I s) (hrun : run step s es = some s') : I s' := by
  induction es generalizing s with
  | nil =>
      obtain rfl : s = s' := by simpa [run] using hrun
      exact hI
  | cons e es ih =>
      obtain ⟨s₁, h₁, hrun⟩ := run_cons hrun
      exact ih (hstep s e s₁ hI h₁) hrun

/-- **Runs that do not fail**: a step from `I` that meets the condition can be taken, and leads to `I`. -/
theorem run_of_step {P : S → E → Prop} {I : S → Prop}
    (hstep : ∀ s e, I s → P s e → ∃ s', step s e = some s' ∧ I s') (es : List E) {s : S} (hs : I s)
    (hrun : Along step P s es) : ∃ s', run step s es = some s' ∧ I s' := by
  induction es generalizing s with
  | nil => exact ⟨s, rfl, hs⟩
  | cons e es ih =>
      obtain ⟨s₁, h₁, hs₁⟩ := hstep s e hs hrun.1
      obtain ⟨s', hrun', hs'⟩ := ih hs₁ (hrun.2 s₁ h₁)
      exact ⟨s', by rw [run, h₁, Option.bind_some, hrun'], hs'⟩

/-- **Conditions from invariants.**  If the events are all of a kind under which `I` is kept and
implies the condition, the run meets it. -/
theorem along_of_inv {P : S → E → Prop} {Q : E → Prop} {I : S → Prop}
    (hstep : ∀ s e s', I s → Q e → step s e = some s' → I s')
    (hcond : ∀ s e, I s → Q e → P s e) :
    ∀ (es : List E) {s : S}, I s → (∀ e ∈ es, Q e) → Along step P s es
  | [], _, _, _ => trivial
  | e :: es, s, hI, hQ => by
      have hhead : Q e := hQ e List.mem_cons_self
      refine ⟨hcond s e hI hhead, fun s₁ h₁ => ?_⟩
      exact along_of_inv hstep hcond es (hstep s e s₁ hI hhead h₁) fun e' he' =>
        hQ e' (List.mem_cons_of_mem e he')

/-- **Conditions that agree on the states of a run.** -/
theorem along_congr {P Q : S → E → Prop} {W : S → Prop}
    (hW : ∀ s e s', W s → step s e = some s' → W s') (hPQ : ∀ s e, W s → (P s e ↔ Q s e)) :
    ∀ (es : List E) {s : S}, W s → (Along step P s es ↔ Along step Q s es)
  | [], _, _ => Iff.rfl
  | e :: es, s, hs =>
      and_congr (hPQ s e hs) <| forall₂_congr fun s' hs' => along_congr hW hPQ es (hW s e s' hs hs')

/-- **The exact condition for a property of every state**, with a stronger invariant `J`: if a step from `J`
that meets `P` leads to `J`, and one that leads to `I` meets `P`, then `I` holds throughout a run exactly
when all its steps meet `P`. -/
theorem along_strong_iff {P : S → E → Prop} {I J : S → Prop} (hJI : ∀ s, J s → I s)
    (hkeep : ∀ s e s', J s → P s e → step s e = some s' → J s')
    (hneed : ∀ s e s', J s → step s e = some s' → I s' → P s e) :
    ∀ (es : List E) {s s' : S}, J s → run step s es = some s' →
      (Along step (fun s _ => I s) s es ∧ I s' ↔ Along step P s es)
  | [], s, s', hs, hrun => by
      obtain rfl : s = s' := Option.some.inj hrun
      exact ⟨fun _ => trivial, fun _ => ⟨trivial, hJI s hs⟩⟩
  | e :: es, s, s', hs, hrun => by
      obtain ⟨s₁, h₁, hrun⟩ := run_cons hrun
      constructor
      · rintro ⟨hall, hend⟩
        have htail := hall.2 s₁ h₁
        have hI₁ : I s₁ := by
          cases es with
          | nil =>
              obtain rfl : s₁ = s' := Option.some.inj hrun
              exact hend
          | cons e' es => exact htail.1
        have hP := hneed s e s₁ hs h₁ hI₁
        have hs₁ := hkeep s e s₁ hs hP h₁
        exact .cons h₁ hP ((along_strong_iff hJI hkeep hneed es hs₁ hrun).mp ⟨htail, hend⟩)
      · rintro ⟨hP, hrest⟩
        have hs₁ := hkeep s e s₁ hs hP h₁
        obtain ⟨htail, hend⟩ := (along_strong_iff hJI hkeep hneed es hs₁ hrun).mpr (hrest s₁ h₁)
        exact ⟨.cons h₁ (hJI s hs) htail, hend⟩

/-- If, in the states that a run can reach (`W`), a step from `I` leads to `I` exactly when it meets `P`,
then `I` holds throughout a run exactly when all its steps meet `P`. -/
theorem along_inv_iff {P : S → E → Prop} {I W : S → Prop}
    (hW : ∀ s e s', W s → step s e = some s' → W s')
    (hstep : ∀ s e s', W s → I s → step s e = some s' → (I s' ↔ P s e))
    (es : List E) {s s' : S} (hs : W s) (hI : I s) (hrun : run step s es = some s') :
    Along step (fun s _ => I s) s es ∧ I s' ↔ Along step P s es := by
  refine along_strong_iff (J := fun s => W s ∧ I s) (fun s h => h.2) ?_ ?_ es ⟨hs, hI⟩ hrun
  · rintro s e s' ⟨hs, hI⟩ hP h
    exact ⟨hW s e s' hs h, (hstep s e s' hs hI h).mpr hP⟩
  · rintro s e s' ⟨hs, hI⟩ h hI'
    exact (hstep s e s' hs hI h).mp hI'

section Progress

/-- The first `n` of infinitely many events. -/
def first (es : ℕ → E) (n : ℕ) : List E := (List.range n).map es

lemma first_succ (es : ℕ → E) (n : ℕ) :
    first es (n + 1) = es 0 :: first (fun i => es (i + 1)) n := by
  simp [first, List.range_succ_eq_map, Function.comp_def]

variable {Q : S → Prop}

/-- A goal that is kept. -/
lemma stays (hkeep : ∀ s e, Q s → ∃ s', step s e = some s' ∧ Q s') (n : ℕ) (es : ℕ → E) {s : S}
    (hs : Q s) : ∃ s', run step s (first es n) = some s' ∧ Q s' := by
  induction n generalizing es s with
  | zero => exact ⟨s, rfl, hs⟩
  | succ n ih =>
      obtain ⟨s₁, h₁, hs₁⟩ := hkeep s (es 0) hs
      rw [first_succ, run, h₁]
      exact ih _ hs₁

/-- **Progress by rank.**  Every step from a state with a rank leads to the goal or to a smaller rank,
and the goal is kept: then it is reached, and holds from there on. -/
theorem settles_of_rank {α : Type*} [Preorder α] [WellFoundedLT α] {I : α → S → Prop}
    (hkeep : ∀ s e, Q s → ∃ s', step s e = some s' ∧ Q s')
    (hstep : ∀ a s e, I a s → ∃ s', step s e = some s' ∧ (Q s' ∨ ∃ b < a, I b s'))
    (es : ℕ → E) {a : α} {s : S} (hs : I a s) :
    ∃ n, ∀ m, n ≤ m → ∃ s', run step s (first es m) = some s' ∧ Q s' := by
  induction a using WellFoundedLT.induction generalizing es s with
  | ind a ih =>
      obtain ⟨s₁, h₁, hs₁⟩ := hstep a s (es 0) hs
      -- from the next state on
      obtain ⟨n, hn⟩ : ∃ n, ∀ m, n ≤ m →
          ∃ s', run step s₁ (first (fun i => es (i + 1)) m) = some s' ∧ Q s' := by
        rcases hs₁ with hQ | ⟨b, hb, hI⟩
        · exact ⟨0, fun m _ => stays hkeep m _ hQ⟩
        · exact ih b hb _ hI
      refine ⟨n + 1, fun m hm => ?_⟩
      obtain ⟨k, rfl⟩ : ∃ k, m = k + 1 := ⟨m - 1, by omega⟩
      rw [first_succ, run, h₁]
      exact hn k (by omega)

end Progress

section Threads

variable {T : Type*} {threads : List T} {i : ℕ} {w : T}

/-- The threads before a move are the ones after it, and the one that moved. -/
lemma mem_set_or_eq (w' : T) (hi : threads[i]? = some w) {u : T} (hu : u ∈ threads) :
    u ∈ threads.set i w' ∨ u = w := by
  obtain ⟨j, hj⟩ := List.mem_iff_getElem?.mp hu
  by_cases hij : j = i
  · subst hij
    exact .inr (Option.some.inj (hj.symm.trans hi))
  · left
    exact List.mem_iff_getElem?.mpr ⟨j, by rw [List.getElem?_set_ne (Ne.symm hij), hj]⟩

lemma self_mem_set {w' : T} (hi : threads[i]? = some w) : w' ∈ threads.set i w' :=
  List.mem_set (List.getElem?_eq_some_iff.mp hi).1 w'

end Threads

end Transition
