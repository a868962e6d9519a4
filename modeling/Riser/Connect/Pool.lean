import Mathlib.Data.Int.ModEq
import Riser.Core.Transition

/-!
# The pool of connections

`GentAppMgr` keeps the connections in use in `conn_mgr`, **by descriptor**, and the others in
`free_conn_mgr`.  A connection is a pointer in the source and a number here; `fd` holds the member of
that name.

A worker that is done with a connection closes the descriptor (`Destruct`) and then returns the
connection (`RetConnect`).  In between the kernel may hand the descriptor out again, and another worker
enter its connection under it.  The entry of the first one is overwritten then, `RetConnect` of the
first erases the entry of the second, and `RetConnect` of the second finds none and ends the server
(`descriptor_reused`).

`pool_safe_iff` says that this is the only way to go wrong: the table is right throughout a run if and
only if no `GetConnect` ever meets an entry for its descriptor.
-/

namespace Riser

/-! ## `GentAppMgr` -/

/-- The connections of `class GentAppMgr`.  `fd c` is `c->fd`, and `next` is what `new` returns next. -/
structure GentAppMgr where
  conn_mgr : Std.ExtTreeMap ℤ ℕ compare
  free_conn_mgr : List ℕ
  total_conn : ℕ
  fd : ℕ → ℤ
  next : ℕ

namespace GentAppMgr

/-- The difference of two `size_t`. -/
def sizeSub (a b : ℕ) : ℕ := (((a : ℤ) - b) % 2 ^ 64).toNat

/-- No connection. -/
def empty : GentAppMgr := ⟨∅, [], 0, fun _ => -1, 0⟩

/-- `GentAppMgr::GetConnCount`. -/
def getConnCount (m : GentAppMgr) : ℕ := sizeSub m.total_conn m.free_conn_mgr.length

/-- `conn_mgr[sfd] = c`, after `c->Init(sfd)`. -/
def enter (m : GentAppMgr) (sfd : ℤ) (c : ℕ) : GentAppMgr :=
  { m with fd := Function.update m.fd c sfd, conn_mgr := m.conn_mgr.insert sfd c }

/-- `GentAppMgr::GetConnect`. -/
def getConnect (m : GentAppMgr) (sfd : ℤ) : ℕ × GentAppMgr :=
  match m.free_conn_mgr.getLast? with
  | some c => (c, { m with free_conn_mgr := m.free_conn_mgr.dropLast }.enter sfd c)
  | none =>
      (m.next, { m with total_conn := (m.total_conn + 1) % 2 ^ 64, next := m.next + 1 }.enter sfd m.next)

/-- The loop of `RetConnect` that deletes free connections from the front.  They have no descriptor,
so that the destructor closes nothing. -/
def trimLoop : ℕ → GentAppMgr → GentAppMgr
  | 0, m => m
  | num + 1, m =>
      trimLoop num
        { m with free_conn_mgr := m.free_conn_mgr.tail, total_conn := sizeSub m.total_conn 1 }

/-- What `RetConnect` does about too many free connections. -/
def trim (m : GentAppMgr) : GentAppMgr :=
  let linkNum := m.getConnCount * 20 % 2 ^ 64
  if linkNum < m.free_conn_mgr.length then trimLoop (m.free_conn_mgr.length - linkNum) m else m

/-- `GentAppMgr::RetConnect`: `none` for `exit(1)`. -/
def retConnect (m : GentAppMgr) (c : ℕ) : Option GentAppMgr :=
  match m.conn_mgr[m.fd c]? with
  | none => none
  | some _ =>
      some { m with
        fd := Function.update m.fd c (-1)
        free_conn_mgr := c :: m.free_conn_mgr
        conn_mgr := m.conn_mgr.erase (m.fd c) }.trim

/-- Trimming is about the free connections only. -/
lemma trimLoop_eq : ∀ (num : ℕ) (m : GentAppMgr), ∃ t,
    trimLoop num m = { m with free_conn_mgr := m.free_conn_mgr.drop num, total_conn := t }
  | 0, m => ⟨m.total_conn, rfl⟩
  | num + 1, m => by
      obtain ⟨t, ht⟩ := trimLoop_eq num
        { m with free_conn_mgr := m.free_conn_mgr.tail, total_conn := sizeSub m.total_conn 1 }
      refine ⟨t, ?_⟩
      rw [trimLoop, ht]
      simp only [List.drop_tail]

lemma trim_eq (m : GentAppMgr) : ∃ num t,
    m.trim = { m with free_conn_mgr := m.free_conn_mgr.drop num, total_conn := t } := by
  unfold trim
  dsimp only
  split_ifs
  · exact ⟨_, trimLoop_eq _ m⟩
  · exact ⟨0, m.total_conn, rfl⟩

/-- **What `RetConnect` does**, when it finds an entry. -/
lemma retConnect_some {m m' : GentAppMgr} {c : ℕ} (h : m.retConnect c = some m') :
    m'.fd = Function.update m.fd c (-1) ∧ m'.conn_mgr = m.conn_mgr.erase (m.fd c) ∧
      m'.next = m.next ∧ m'.free_conn_mgr.Sublist (c :: m.free_conn_mgr) := by
  unfold retConnect at h
  cases hentry : m.conn_mgr[m.fd c]? with
  | none => simp [hentry] at h
  | some d =>
      simp only [hentry] at h
      obtain rfl := Option.some.inj h
      obtain ⟨num, t, heq⟩ := trim_eq { m with
        fd := Function.update m.fd c (-1)
        free_conn_mgr := c :: m.free_conn_mgr
        conn_mgr := m.conn_mgr.erase (m.fd c) }
      rw [heq]
      exact ⟨rfl, rfl, rfl, List.drop_sublist num _⟩

end GentAppMgr

/-! ## The workers and the kernel -/

/-- The pool; the descriptors that are open, and those that were accepted and wait for their worker;
the connections from `GetConnect` to `RetConnect`, and those of them that are destructed. -/
structure Pool where
  mgr : GentAppMgr
  opened : List ℤ
  accepted : List ℤ
  used : List ℕ
  closed : List ℕ
  exited : Bool

inductive PoolEvent where
  | accept (sfd : ℤ)
  | getConnect (sfd : ℤ)
  | destruct (c : ℕ)
  | retConnect (c : ℕ)

namespace Pool

/-- No connection yet; the server itself has some descriptors. -/
def start (opened : List ℤ) : Pool := ⟨.empty, opened, [], [], [], false⟩

/-- A step.  The kernel accepts with any descriptor that is not open, and a connection is destructed
once and then returned once. -/
def step (s : Pool) : PoolEvent → Option Pool
  | .accept sfd =>
      if s.exited = false ∧ 0 ≤ sfd ∧ sfd ∉ s.opened then
        some { s with opened := sfd :: s.opened, accepted := sfd :: s.accepted }
      else none
  | .getConnect sfd =>
      if s.exited = false ∧ sfd ∈ s.accepted then
        let (c, mgr) := s.mgr.getConnect sfd
        some { s with mgr, accepted := s.accepted.erase sfd, used := c :: s.used }
      else none
  | .destruct c =>
      if s.exited = false ∧ c ∈ s.used ∧ c ∉ s.closed then
        some { s with opened := s.opened.erase (s.mgr.fd c), closed := c :: s.closed }
      else none
  | .retConnect c =>
      if s.exited = false ∧ c ∈ s.closed then
        match s.mgr.retConnect c with
        | none => some { s with exited := true }
        | some mgr => some { s with mgr, used := s.used.erase c, closed := s.closed.erase c }
      else none

/-- **The table is right**: a descriptor has the connection in use that owns it, and the server runs.
So `RetConnect` finds the entry of the connection it is given. -/
structure Safe (s : Pool) : Prop where
  entry : ∀ (f : ℤ) (c : ℕ), s.mgr.conn_mgr[f]? = some c ↔ c ∈ s.used ∧ s.mgr.fd c = f
  running : s.exited = false

/-- **The condition on a step**: `GetConnect` finds no entry for its descriptor. -/
def Vacant (s : Pool) : PoolEvent → Prop
  | .getConnect sfd => s.mgr.conn_mgr[sfd]? = none
  | _ => True

/-! ## Connections are told apart -/

/-- Each connection is free or in use, and not both. -/
structure Wf (s : Pool) : Prop where
  nodup : (s.mgr.free_conn_mgr ++ s.used).Nodup
  fresh : ∀ c ∈ s.mgr.free_conn_mgr ++ s.used, c < s.mgr.next
  closed : ∀ c ∈ s.closed, c ∈ s.used
  once : s.closed.Nodup

variable {s s' : Pool}

/-- **What `GetConnect` does**: it enters a connection that is not in use. -/
lemma Wf.getConnect (h : s.Wf) (sfd : ℤ) :
    ∃ (c : ℕ) (m : GentAppMgr), s.mgr.getConnect sfd = (c, m.enter sfd c) ∧ c ∉ s.used ∧
      m.fd = s.mgr.fd ∧ m.conn_mgr = s.mgr.conn_mgr ∧ (m.free_conn_mgr ++ c :: s.used).Nodup ∧
      ∀ d ∈ m.free_conn_mgr ++ c :: s.used, d < m.next := by
  unfold GentAppMgr.getConnect
  have hnd := h.nodup
  have hfresh := h.fresh
  rcases hfree : s.mgr.free_conn_mgr.getLast? with _ | c
  · rw [List.getLast?_eq_none_iff] at hfree
    rw [hfree, List.nil_append] at hnd hfresh
    have hnew : s.mgr.next ∉ s.used := fun hmem => absurd (hfresh _ hmem) (lt_irrefl _)
    refine ⟨_, _, rfl, hnew, rfl, rfl, ?_, ?_⟩
    · rw [hfree]
      exact List.nodup_cons.mpr ⟨hnew, hnd⟩
    · rw [hfree]
      intro d hd
      rcases List.mem_cons.mp hd with rfl | hd
      · exact Nat.lt_succ_self _
      · exact Nat.lt_succ_of_lt (hfresh d hd)
  · obtain ⟨free, hlast⟩ := List.getLast?_eq_some_iff.mp hfree
    rw [hlast, List.append_assoc] at hnd hfresh
    refine ⟨_, _, rfl, ?_, rfl, rfl, ?_, ?_⟩
    · exact (List.nodup_cons.mp (List.nodup_append.mp hnd).2.1).1
    · rw [hlast, List.dropLast_concat]
      exact hnd
    · rw [hlast, List.dropLast_concat]
      exact hfresh

/-- **Every step** keeps the connections apart. -/
lemma Wf.step (h : s.Wf) {e : PoolEvent} (hs : s.step e = some s') : s'.Wf := by
  cases e with
  | accept sfd =>
      rw [Pool.step, Option.ite_none_right_eq_some] at hs
      obtain ⟨-, rfl⟩ := hs.imp_right Option.some.inj
      exact ⟨h.nodup, h.fresh, h.closed, h.once⟩
  | getConnect sfd =>
      rw [Pool.step, Option.ite_none_right_eq_some] at hs
      obtain ⟨c, m, hget, -, -, -, hnd, hfresh⟩ := h.getConnect sfd
      rw [hget] at hs
      obtain ⟨-, rfl⟩ := hs.imp_right Option.some.inj
      exact ⟨hnd, hfresh, fun d hd => List.mem_cons_of_mem c (h.closed d hd), h.once⟩
  | destruct c =>
      rw [Pool.step, Option.ite_none_right_eq_some] at hs
      obtain ⟨⟨-, hc, hopen⟩, rfl⟩ := hs.imp_right Option.some.inj
      refine ⟨h.nodup, h.fresh, fun d hd => ?_, List.nodup_cons.mpr ⟨hopen, h.once⟩⟩
      rcases List.mem_cons.mp hd with rfl | hd
      · exact hc
      · exact h.closed d hd
  | retConnect c =>
      rw [Pool.step, Option.ite_none_right_eq_some] at hs
      obtain ⟨⟨-, hc⟩, hs⟩ := hs
      cases hret : s.mgr.retConnect c with
      | none =>
          rw [hret] at hs
          obtain rfl := Option.some.inj hs
          exact ⟨h.nodup, h.fresh, h.closed, h.once⟩
      | some m =>
          rw [hret] at hs
          obtain rfl := Option.some.inj hs
          obtain ⟨-, -, hnext, hfree⟩ := GentAppMgr.retConnect_some hret
          -- what was in use and what was free is the same as before, up to order
          have hperm : (c :: s.mgr.free_conn_mgr ++ s.used.erase c).Perm
              (s.mgr.free_conn_mgr ++ s.used) :=
            List.perm_middle.symm.trans
              ((List.perm_cons_erase (h.closed c hc)).symm.append_left s.mgr.free_conn_mgr)
          have hsub : (m.free_conn_mgr ++ s.used.erase c).Sublist
              (c :: s.mgr.free_conn_mgr ++ s.used.erase c) := hfree.append_right _
          refine ⟨(hperm.nodup_iff.mpr h.nodup).sublist hsub, fun d hd => ?_, fun d hd => ?_,
            h.once.erase c⟩
          · show d < m.next
            rw [hnext]
            exact h.fresh d (hperm.subset (hsub.subset hd))
          · obtain ⟨hne, hd⟩ := h.once.mem_erase_iff.mp hd
            exact (List.mem_erase_of_ne hne).mpr (h.closed d hd)

/-! ## The table -/

lemma Safe.getConnect (h : s.Safe) (hwf : s.Wf) {sfd : ℤ} (hvac : s.mgr.conn_mgr[sfd]? = none)
    (hs : s.step (.getConnect sfd) = some s') : s'.Safe := by
  rw [Pool.step, Option.ite_none_right_eq_some] at hs
  obtain ⟨c, m, hget, hc, hfd, hconn, -, -⟩ := hwf.getConnect sfd
  rw [hget] at hs
  obtain ⟨⟨hrun, -⟩, rfl⟩ := hs.imp_right Option.some.inj
  refine ⟨fun f d => ?_, hrun⟩
  show (m.conn_mgr.insert sfd c)[f]? = some d ↔ d ∈ c :: s.used ∧ Function.update m.fd c sfd d = f
  simp only [Std.ExtTreeMap.getElem?_insert, Std.LawfulEqCmp.compare_eq_iff_eq, hconn, hfd,
    List.mem_cons]
  by_cases hd : d = c
  · subst hd
    rw [Function.update_self]
    by_cases hf : sfd = f
    · simp [hf]
    · simp [hf, h.entry f d, hc]
  · rw [Function.update_of_ne hd]
    by_cases hf : sfd = f
    · subst hf
      have hnone : ¬ (d ∈ s.used ∧ s.mgr.fd d = sfd) := fun hin => by
        rw [(h.entry sfd d).mpr hin] at hvac
        cases hvac
      simpa [hd, Ne.symm hd] using hnone
    · simp [hf, hd, h.entry f d]

lemma Safe.retConnect (h : s.Safe) (hwf : s.Wf) {c : ℕ}
    (hs : s.step (.retConnect c) = some s') : s'.Safe := by
  rw [Pool.step, Option.ite_none_right_eq_some] at hs
  obtain ⟨⟨hrun, hc⟩, hs⟩ := hs
  have hused : s.used.Nodup := (List.nodup_append.mp hwf.nodup).2.1
  have hown : s.mgr.conn_mgr[s.mgr.fd c]? = some c := (h.entry _ c).mpr ⟨hwf.closed c hc, rfl⟩
  cases hret : s.mgr.retConnect c with
  | none => simp [GentAppMgr.retConnect, hown] at hret
  | some m =>
      rw [hret] at hs
      obtain rfl := Option.some.inj hs
      obtain ⟨hfd, hconn, -, -⟩ := GentAppMgr.retConnect_some hret
      refine ⟨fun f d => ?_, hrun⟩
      show m.conn_mgr[f]? = some d ↔ d ∈ s.used.erase c ∧ m.fd d = f
      simp only [hconn, hfd, Std.ExtTreeMap.getElem?_erase, Std.LawfulEqCmp.compare_eq_iff_eq,
        hused.mem_erase_iff]
      by_cases hd : d = c
      · subst hd
        by_cases hf : s.mgr.fd d = f
        · simp [hf]
        · simp [hf, h.entry f d]
      · rw [Function.update_of_ne hd]
        by_cases hf : s.mgr.fd c = f
        · subst hf
          have hne : ¬ (d ∈ s.used ∧ s.mgr.fd d = s.mgr.fd c) := fun hin =>
            hd (Option.some.inj (((h.entry _ d).mpr hin).symm.trans hown))
          simpa [hd] using hne
        · simp [hf, hd, h.entry f d]

/-- **Every step** that finds its descriptor vacant keeps the table right. -/
lemma Safe.step (h : s.Safe) (hwf : s.Wf) {e : PoolEvent} (hvac : s.Vacant e)
    (hs : s.step e = some s') : s'.Safe := by
  cases e with
  | accept sfd =>
      rw [Pool.step, Option.ite_none_right_eq_some] at hs
      obtain ⟨-, rfl⟩ := hs.imp_right Option.some.inj
      exact ⟨h.entry, h.running⟩
  | getConnect sfd => exact h.getConnect hwf hvac hs
  | destruct c =>
      rw [Pool.step, Option.ite_none_right_eq_some] at hs
      obtain ⟨-, rfl⟩ := hs.imp_right Option.some.inj
      exact ⟨h.entry, h.running⟩
  | retConnect c => exact h.retConnect hwf hs

/-- **The converse**: a `GetConnect` that overwrites an entry leaves a connection without one. -/
lemma Safe.vacant (h : s.Safe) (hwf : s.Wf) {e : PoolEvent} (hs : s.step e = some s')
    (h' : s'.Safe) : s.Vacant e := by
  cases e with
  | getConnect sfd =>
      rw [Pool.step, Option.ite_none_right_eq_some] at hs
      obtain ⟨c, m, hget, hc, hfd, -, -, -⟩ := hwf.getConnect sfd
      rw [hget] at hs
      obtain ⟨-, rfl⟩ := hs.imp_right Option.some.inj
      show s.mgr.conn_mgr[sfd]? = none
      rw [Option.eq_none_iff_forall_ne_some]
      intro d hd
      obtain ⟨hmem, hfdd⟩ := (h.entry sfd d).mp hd
      have hne : d ≠ c := fun heq => hc (heq ▸ hmem)
      have hlost : (m.conn_mgr.insert sfd c)[sfd]? = some d := by
        refine (h'.entry sfd d).mpr ⟨List.mem_cons_of_mem c hmem, ?_⟩
        show Function.update m.fd c sfd d = sfd
        rw [Function.update_of_ne hne, hfd, hfdd]
      rw [Std.ExtTreeMap.getElem?_insert_self] at hlost
      exact hne (Option.some.inj hlost).symm
  | accept sfd => trivial
  | destruct c => trivial
  | retConnect c => trivial

/-- **The table is right throughout a run if and only if every `GetConnect` finds its descriptor
vacant.** -/
theorem pool_safe_iff (opened : List ℤ) (es : List PoolEvent) (s : Pool)
    (hrun : Transition.run step (start opened) es = some s) :
    Transition.Along step (fun s _ => s.Safe) (start opened) es ∧ s.Safe ↔
      Transition.Along step Vacant (start opened) es := by
  have hwf : (start opened).Wf := ⟨List.nodup_nil, nofun, nofun, List.nodup_nil⟩
  have hsafe : (start opened).Safe := ⟨by simp [start, GentAppMgr.empty], rfl⟩
  refine Transition.along_inv_iff (fun _ _ _ h hs => h.step hs) (fun s e s' hwf hsafe hs => ?_) es
    hwf hsafe hrun
  exact ⟨hsafe.vacant hwf hs, fun hvac => hsafe.step hwf hvac hs⟩

/-- A connection whose descriptor is used again, with its entry still there. -/
def reuse : List PoolEvent :=
  [.accept 5, .getConnect 5, .destruct 0, .accept 5, .getConnect 5, .retConnect 0]

/-- Connections one after the other. -/
def inTurn : List PoolEvent :=
  [.accept 5, .getConnect 5, .destruct 0, .retConnect 0, .accept 5, .getConnect 5]

/-- The second connection has the descriptor of the first. -/
theorem pool_safe_iff_inTurn : ∃ s, Transition.run step (start [3]) inTurn = some s ∧ s.Safe ∧
    s.mgr.conn_mgr[(5 : ℤ)]? = some 1 := by
  obtain ⟨s, hs⟩ : ∃ s, Transition.run step (start [3]) inTurn = some s := ⟨_, rfl⟩
  refine ⟨s, hs, ((pool_safe_iff [3] inTurn s hs).mpr ?_).2, ?_⟩
  · exact .cons rfl trivial <| .cons rfl rfl <| .cons rfl trivial <| .cons rfl trivial <|
      .cons rfl trivial <| .cons rfl rfl trivial
  · obtain rfl := Option.some.inj hs
    decide

/-- **A descriptor is reused too early**: the entry of the second connection is erased, and the server
ends when it is returned. -/
theorem descriptor_reused : ∃ s s',
    Transition.run step (start [3]) reuse = some s ∧ s.used = [1] ∧ s.mgr.fd 1 = 5 ∧
      s.mgr.conn_mgr[(5 : ℤ)]? = none ∧ ¬ s.Safe ∧
      Transition.run step s [.destruct 1, .retConnect 1] = some s' ∧ s'.exited = true := by
  refine ⟨_, _, rfl, rfl, by decide, by decide, fun h => ?_, rfl, rfl⟩
  exact absurd ((h.entry 5 1).mpr ⟨by decide, by decide⟩) (by decide)

end Pool

end Riser
