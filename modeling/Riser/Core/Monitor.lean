import Riser.Core.Transition

/-!
# Monitors with two condition variables

Calls of two kinds share data under one mutex.  A call that cannot go on sleeps on the condition
variable of its kind; a call that could go on **signals the other kind once**.  That wakes one of the
threads that sleep there, if there is one, and any of them.  A woken thread has to get the mutex
again and to look again, and until then any other thread may come first.  What happens while the mutex
is held is one step.

`data_inv` is the rule for the data: what the bodies keep holds in every state.  `asleep_le_woken` is
the rule for the wake-ups.  If every body takes one from the room of its own kind and gives at most
one to the other, and a call is stopped only when its kind has no room, then **as long as somebody
sleeps, at least as many threads of that kind have been woken as there is room for**.
-/

/-- A monitor: which kind a call is of, when it has to wait, and what it does. -/
structure Monitor (σ C : Type*) where
  kind : C → Bool
  blocked : C → σ → Bool
  body : C → σ → Option σ

namespace Monitor

variable {σ C : Type*}

/-- A thread: in no call, asleep in one, or woken and on the way to look again. -/
inductive Thread (C : Type*) where
  | out
  | asleep (c : C)
  | woken (c : C)

/-- The data and the threads. -/
structure State (σ C : Type*) where
  data : σ
  threads : List (Thread C)

/-- Thread `t` gets the mutex: with a new call, or with the call it was woken in.  `wake` is the
thread that its signal wakes, if it gives one and somebody sleeps. -/
inductive Event (C : Type*) where
  | call (t : ℕ) (c : C) (wake : Option ℕ)
  | rerun (t : ℕ) (wake : Option ℕ)

variable (m : Monitor σ C)

/-- The thread sleeps on the condition variable of kind `k`. -/
def asleepOn (k : Bool) : Thread C → Bool
  | .asleep c => m.kind c == k
  | _ => false

/-- The thread was woken from the condition variable of kind `k`. -/
def wokenOn (k : Bool) : Thread C → Bool
  | .woken c => m.kind c == k
  | _ => false

/-- `pthread_cond_signal`: a sleeper must be woken if there is one. -/
def signal (threads : List (Thread C)) (k : Bool) : Option ℕ → Option (List (Thread C))
  | none => if threads.any (m.asleepOn k) then none else some threads
  | some i =>
      match threads[i]? with
      | some (.asleep c) => if m.kind c = k then some (threads.set i (.woken c)) else none
      | _ => none

/-- What thread `t` does with the mutex. -/
def turn (s : State σ C) (t : ℕ) (c : C) (wake : Option ℕ) : Option (State σ C) :=
  if m.blocked c s.data then some { s with threads := s.threads.set t (.asleep c) }
  else (m.body c s.data).bind fun data =>
    (m.signal (s.threads.set t .out) (!m.kind c) wake).map fun threads => ⟨data, threads⟩

/-- One step. -/
def step (s : State σ C) : Event C → Option (State σ C)
  | .call t c wake =>
      match s.threads[t]? with
      | some .out => m.turn s t c wake
      | _ => none
  | .rerun t wake =>
      match s.threads[t]? with
      | some (.woken c) => m.turn s t c wake
      | _ => none

/-- `n` threads in no call. -/
def start (data : σ) (n : ℕ) : State σ C := ⟨data, List.replicate n .out⟩

/-- How many threads sleep. -/
def asleep (s : State σ C) (k : Bool) : ℕ := s.threads.countP (m.asleepOn k)

/-- How many threads have been woken, and have not looked again. -/
def woken (s : State σ C) (k : Bool) : ℕ := s.threads.countP (m.wokenOn k)

variable {m} {s s' : State σ C}

/-! ## What a step can do -/

/-- The thread that moves was in no call, or was woken in the call it goes on with. -/
def Enters (c : C) (th : Thread C) : Prop := th = .out ∨ th = .woken c

/-- **A step**: a thread goes to sleep, or does what it is there for and signals. -/
lemma step_cases {e : Event C} (h : m.step s e = some s') :
    ∃ t c th, s.threads[t]? = some th ∧ Enters c th ∧
      ((m.blocked c s.data = true ∧ s' = { s with threads := s.threads.set t (.asleep c) }) ∨
        ∃ data threads wake, m.blocked c s.data = false ∧ m.body c s.data = some data ∧
          m.signal (s.threads.set t .out) (!m.kind c) wake = some threads ∧
          s' = ⟨data, threads⟩) := by
  have hturn : ∀ {t : ℕ} {c : C} {wake : Option ℕ}, m.turn s t c wake = some s' →
      (m.blocked c s.data = true ∧ s' = { s with threads := s.threads.set t (.asleep c) }) ∨
        ∃ data threads wake, m.blocked c s.data = false ∧ m.body c s.data = some data ∧
          m.signal (s.threads.set t .out) (!m.kind c) wake = some threads ∧
          s' = ⟨data, threads⟩ := by
    intro t c wake hs
    unfold turn at hs
    split_ifs at hs with hb
    · exact Or.inl ⟨hb, (Option.some.inj hs).symm⟩
    · obtain ⟨data, hdata, hrest⟩ := Option.bind_eq_some_iff.mp hs
      obtain ⟨threads, hsig, rfl⟩ := Option.map_eq_some_iff.mp hrest
      exact Or.inr ⟨data, threads, wake, by simpa using hb, hdata, hsig, rfl⟩
  cases e with
  | call t c wake =>
      simp only [step] at h
      split at h
      · rename_i hout
        exact ⟨t, c, _, hout, Or.inl rfl, hturn h⟩
      · cases h
  | rerun t wake =>
      simp only [step] at h
      split at h
      · rename_i c hwoken
        exact ⟨t, c, _, hwoken, Or.inr rfl, hturn h⟩
      · cases h

/-- **The rule for the data.** -/
theorem data_inv {P : σ → Prop}
    (hbody : ∀ c d d', P d → m.blocked c d = false → m.body c d = some d' → P d')
    {data : σ} {n : ℕ} {es : List (Event C)} (hP : P data)
    (hrun : Transition.run m.step (start data n) es = some s) : P s.data := by
  refine Transition.inv_run_of_step (I := fun s => P s.data) (fun s e s' hs hstep => ?_) hP hrun
  obtain ⟨t, c, th, -, -, ⟨-, rfl⟩ | ⟨d, threads, wake, hb, hd, -, rfl⟩⟩ := step_cases hstep
  · exact hs
  · exact hbody c _ d hs hb hd

/-! ## Wake-ups -/

lemma countP_set {p : Thread C → Bool} {threads : List (Thread C)} {t : ℕ} {th : Thread C}
    (ht : threads[t]? = some th) (th' : Thread C) :
    (threads.set t th').countP p + (if p th then 1 else 0)
      = threads.countP p + if p th' then 1 else 0 := by
  obtain ⟨hlt, hget⟩ := List.getElem?_eq_some_iff.mp ht
  have hpos : p th = true → 0 < threads.countP p := fun hp =>
    List.countP_pos_iff.mpr ⟨th, List.mem_of_getElem? ht, hp⟩
  rw [List.countP_set hlt, hget]
  split_ifs with h
  all_goals try have := hpos h
  all_goals omega

/-- A signal wakes one sleeper of its kind, if there is one, and changes nothing for the other. -/
lemma signal_counts {threads threads' : List (Thread C)} {k : Bool} {wake : Option ℕ}
    (h : m.signal threads k wake = some threads') :
    (threads'.countP (m.asleepOn k) = 0 ∨ 0 < threads.countP (m.asleepOn k) ∧
        threads'.countP (m.wokenOn k) = threads.countP (m.wokenOn k) + 1) ∧
      threads'.countP (m.asleepOn !k) = threads.countP (m.asleepOn !k) ∧
      threads'.countP (m.wokenOn !k) = threads.countP (m.wokenOn !k) := by
  cases wake with
  | none =>
      simp only [signal] at h
      split_ifs at h with hany
      obtain rfl := Option.some.inj h
      refine ⟨Or.inl ?_, rfl, rfl⟩
      rw [List.countP_eq_zero]
      intro th hth hasleep
      exact hany (List.any_eq_true.mpr ⟨th, hth, hasleep⟩)
  | some i =>
      simp only [signal] at h
      split at h
      · rename_i c hi
        split_ifs at h with hk
        obtain rfl := Option.some.inj h
        have hne : (k == !k) = false := by cases k <;> rfl
        have hw := countP_set (p := m.wokenOn k) hi (.woken c)
        have ha' := countP_set (p := m.asleepOn !k) hi (.woken c)
        have hw' := countP_set (p := m.wokenOn !k) hi (.woken c)
        simp only [asleepOn, wokenOn, hk, hne, beq_self_eq_true, Bool.false_eq_true, if_false,
          if_true, Nat.add_zero] at hw ha' hw'
        refine ⟨Or.inr ⟨List.countP_pos_iff.mpr ⟨_, List.mem_of_getElem? hi, ?_⟩, hw⟩, ha', hw'⟩
        simp only [asleepOn, hk, beq_self_eq_true]
      · cases h

/-- The counts when the thread that moves is out of its call. -/
lemma enters_counts {c : C} {th : Thread C} {t : ℕ} (ht : s.threads[t]? = some th)
    (hth : Enters c th) (k : Bool) :
    (s.threads.set t .out).countP (m.asleepOn k) = m.asleep s k ∧
      m.woken s k ≤ (s.threads.set t .out).countP (m.wokenOn k) + (if m.kind c = k then 1 else 0) := by
  have ha := countP_set (p := m.asleepOn k) ht .out
  have hw := countP_set (p := m.wokenOn k) ht .out
  rcases hth with rfl | rfl
  · simp only [asleepOn, wokenOn, Bool.false_eq_true, if_false, Nat.add_zero] at ha hw
    exact ⟨ha, by rw [hw]; exact Nat.le_add_right ..⟩
  · simp only [asleepOn, wokenOn, Bool.false_eq_true, if_false, Nat.add_zero, beq_iff_eq] at ha hw
    exact ⟨ha, hw.ge⟩

/-- As long as somebody sleeps, enough threads have been woken. -/
def Attended (m : Monitor σ C) (room : Bool → σ → ℕ) (s : State σ C) : Prop :=
  ∀ k, 0 < m.asleep s k → room k s.data ≤ m.woken s k

section Rule

variable {P : σ → Prop} {room : Bool → σ → ℕ}
  (hblocked : ∀ c d, P d → m.blocked c d = true → room (m.kind c) d = 0)
  (hbody : ∀ c d d', P d → m.blocked c d = false → m.body c d = some d' →
    P d' ∧ room (m.kind c) d' + 1 ≤ room (m.kind c) d ∧
      room (!m.kind c) d' ≤ room (!m.kind c) d + 1)
include hblocked hbody

lemma Attended.step (hP : P s.data) (h : Attended m room s) {e : Event C}
    (hs : m.step s e = some s') : P s'.data ∧ Attended m room s' := by
  obtain ⟨t, c, th, ht, hth, ⟨hb, rfl⟩ | ⟨d, threads, wake, hb, hd, hsig, rfl⟩⟩ := step_cases hs
  · -- the thread goes to sleep: its kind has no room, and the other kind is as it was
    refine ⟨hP, fun k hk => ?_⟩
    by_cases hkind : m.kind c = k
    · rw [← hkind, hblocked c s.data hP hb]
      exact Nat.zero_le _
    · have hne : (m.kind c == k) = false := by simpa using hkind
      have ha := countP_set (p := m.asleepOn k) ht (.asleep c)
      have hw := countP_set (p := m.wokenOn k) ht (.asleep c)
      have hsame : m.asleep { s with threads := s.threads.set t (.asleep c) } k = m.asleep s k ∧
          m.woken { s with threads := s.threads.set t (.asleep c) } k = m.woken s k := by
        rcases hth with rfl | rfl <;>
          simp only [asleepOn, wokenOn, hne, Bool.false_eq_true, if_false, Nat.add_zero] at ha hw <;>
          exact ⟨ha, hw⟩
      rw [hsame.1] at hk
      rw [hsame.2]
      exact h k hk
  · obtain ⟨hP', hown, hother⟩ := hbody c s.data d hP hb hd
    obtain ⟨hwake, hasleep, hwoken⟩ := signal_counts hsig
    rw [Bool.not_not] at hasleep hwoken
    refine ⟨hP', fun k hk => ?_⟩
    obtain ⟨hout, hleft⟩ := enters_counts (m := m) ht hth k
    by_cases hkind : k = m.kind c
    · -- the kind of the call: one place less, and at most one woken thread less
      subst hkind
      have hk' : 0 < threads.countP (m.asleepOn (m.kind c)) := hk
      rw [hasleep, hout] at hk'
      rw [if_pos rfl, ← hwoken] at hleft
      have hbefore := h _ hk'
      show room (m.kind c) d ≤ threads.countP (m.wokenOn (m.kind c))
      omega
    · -- the other kind: one place more at most, and one woken thread more
      obtain rfl : k = !m.kind c := by
        cases hc : m.kind c <;> cases k <;> simp_all
      have hk' : 0 < threads.countP (m.asleepOn (!m.kind c)) := hk
      rcases hwake with hnone | ⟨hsome, hwake⟩
      · omega
      · rw [hout] at hsome
        rw [if_neg fun h => hkind h.symm] at hleft
        have hbefore := h _ hsome
        show room (!m.kind c) d ≤ threads.countP (m.wokenOn (!m.kind c))
        omega

/-- **The rule for the wake-ups.** -/
theorem asleep_le_woken {data : σ} {n : ℕ} {es : List (Event C)} (hP : P data)
    (hrun : Transition.run m.step (start data n) es = some s) : Attended m room s := by
  have hstart : P (start data n : State σ C).data ∧ Attended m room (start data n) := by
    refine ⟨hP, fun k hk => ?_⟩
    have hnone : m.asleep (start data n) k = 0 := by
      simp [asleep, start, List.countP_replicate, asleepOn]
    omega
  exact (Transition.inv_run_of_step (I := fun s => P s.data ∧ Attended m room s)
    (fun s e s' hs hstep => Attended.step hblocked hbody hs.1 hs.2 hstep) hstart hrun).2

end Rule

end Monitor
