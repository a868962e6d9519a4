import Riser.Connect.Pool

/-!
# The numbers of the pool

`total_conn` counts the connections there are, and `GetConnCount` is what it leaves without the free
ones.  `RetConnect` puts the connection in front of the free ones and then deletes from the front,
**the one just returned first**, until the free ones are no more than twenty times those in use.  With
the last connection in use all of them go.

For calls one after the other, on descriptors that are not in use and of connections that are,
`pool_accounts` says that the numbers are right in every state: the total is the sum of the two
tables, the difference does not wrap and is the number of connections in use, and after `RetConnect`
the bound holds and nothing in use has been deleted.
-/

namespace Riser

namespace GentAppMgr

/-- A call. -/
inductive Call where
  | getConnect (sfd : ℤ)
  | retConnect (c : ℕ)

/-- The connection is in use: it is in the table, under its descriptor. -/
def Live (m : GentAppMgr) (c : ℕ) : Prop := m.conn_mgr[m.fd c]? = some c

instance (m : GentAppMgr) (c : ℕ) : Decidable (m.Live c) :=
  inferInstanceAs (Decidable (_ = _))

/-- One call, with a descriptor (an `int`) that no connection in use has, or of a connection in use.
`none` for `exit(1)` as well. -/
def call (m : GentAppMgr) : Call → Option GentAppMgr
  | .getConnect sfd =>
      if (0 ≤ sfd ∧ sfd < 2 ^ 31) ∧ m.conn_mgr[sfd]? = none then some (m.getConnect sfd).2 else none
  | .retConnect c => if m.Live c then m.retConnect c else none

/-- **The numbers are right.** -/
structure Accounts (m : GentAppMgr) : Prop where
  disjoint : ∀ (f : ℤ) (c : ℕ), m.conn_mgr[f]? = some c → c ∉ m.free_conn_mgr
  nodup : m.free_conn_mgr.Nodup
  total : m.total_conn = m.conn_mgr.size + m.free_conn_mgr.length
  count : m.getConnCount = m.conn_mgr.size

/-- What the trimming loop of `RetConnect` has deleted. -/
def deleted (m m' : GentAppMgr) (c : ℕ) : List ℕ :=
  (c :: m.free_conn_mgr).filter fun d => decide (d ∉ m'.free_conn_mgr)

/-- The invariant.  There are never more connections than descriptors. -/
structure Inv (m : GentAppMgr) : Prop where
  entry : ∀ (f : ℤ) (c : ℕ), m.conn_mgr[f]? = some c → m.fd c = f ∧ 0 ≤ f ∧ f < 2 ^ 31
  disjoint : ∀ (f : ℤ) (c : ℕ), m.conn_mgr[f]? = some c → c ∉ m.free_conn_mgr
  nodup : m.free_conn_mgr.Nodup
  used : ∀ (f : ℤ) (c : ℕ), m.conn_mgr[f]? = some c → c < m.next
  free : ∀ c ∈ m.free_conn_mgr, c < m.next
  total : m.total_conn = m.conn_mgr.size + m.free_conn_mgr.length
  bound : m.total_conn ≤ 2 ^ 31

variable {m m' : GentAppMgr}

/-! ## Differences that do not wrap -/

lemma sizeSub_of_le {a b : ℕ} (hle : b ≤ a) (ha : a < 2 ^ 64) : sizeSub a b = a - b := by
  unfold sizeSub
  omega

lemma Inv.count (h : m.Inv) : m.getConnCount = m.conn_mgr.size := by
  have htotal := h.total
  have hbound := h.bound
  rw [getConnCount, sizeSub_of_le (by omega) (by omega)]
  omega

lemma Inv.accounts (h : m.Inv) : m.Accounts := ⟨h.disjoint, h.nodup, h.total, h.count⟩

/-- The table has at most one entry for every descriptor. -/
lemma size_le (h : ∀ (f : ℤ) (c : ℕ), m.conn_mgr[f]? = some c → 0 ≤ f ∧ f < 2 ^ 31) :
    m.conn_mgr.size ≤ 2 ^ 31 := by
  have hsub : m.conn_mgr.keys.toFinset ⊆ Finset.Ico (0 : ℤ) (2 ^ 31) := by
    intro f hf
    rw [List.mem_toFinset, Std.ExtTreeMap.mem_keys, Std.ExtTreeMap.mem_iff_isSome_getElem?,
      Option.isSome_iff_exists] at hf
    obtain ⟨c, hc⟩ := hf
    exact Finset.mem_Ico.mpr (h f c hc)
  have hcard := Finset.card_le_card hsub
  rw [List.toFinset_card_of_nodup Std.ExtTreeMap.nodup_keys, Std.ExtTreeMap.length_keys,
    Int.card_Ico] at hcard
  exact hcard

/-! ## `GetConnect` -/

/-- What is in the table when `c` has been entered. -/
lemma getElem?_enter {sfd f : ℤ} {c d : ℕ} (h : (m.enter sfd c).conn_mgr[f]? = some d) :
    (f = sfd ∧ d = c) ∨ (f ≠ sfd ∧ m.conn_mgr[f]? = some d) := by
  simp only [GentAppMgr.enter, Std.ExtTreeMap.getElem?_insert,
    Std.LawfulEqCmp.compare_eq_iff_eq] at h
  split_ifs at h with hf
  · exact Or.inl ⟨hf.symm, (Option.some.inj h).symm⟩
  · exact Or.inr ⟨fun heq => hf heq.symm, h⟩

lemma size_enter {sfd : ℤ} (hvac : m.conn_mgr[sfd]? = none) (c : ℕ) :
    (m.enter sfd c).conn_mgr.size = m.conn_mgr.size + 1 := by
  have hnot : m.conn_mgr.contains sfd = false := by
    rw [← Bool.not_eq_true, Std.ExtTreeMap.contains_iff_mem,
      Std.ExtTreeMap.mem_iff_isSome_getElem?, hvac]
    exact nofun
  simp [GentAppMgr.enter, Std.ExtTreeMap.size_insert, hnot]

/-- **Entering a connection** that is neither free nor in use.  `m₁` is the pool from which it has been
taken. -/
lemma Inv.enter {m₁ : GentAppMgr} {c : ℕ} {sfd : ℤ} (h : m.Inv) (hsfd : 0 ≤ sfd ∧ sfd < 2 ^ 31)
    (hvac : m.conn_mgr[sfd]? = none) (hconn : m₁.conn_mgr = m.conn_mgr) (hfd : m₁.fd = m.fd)
    (hfree : m₁.free_conn_mgr.Sublist m.free_conn_mgr) (hc : c ∉ m₁.free_conn_mgr)
    (hunused : ∀ (f : ℤ) (d : ℕ), m.conn_mgr[f]? = some d → d ≠ c) (hnext : m.next ≤ m₁.next)
    (hlt : c < m₁.next) (htotal : m₁.total_conn = m.conn_mgr.size + 1 + m₁.free_conn_mgr.length)
    (hbound : m₁.free_conn_mgr = [] ∨ m₁.total_conn ≤ 2 ^ 31) : (m₁.enter sfd c).Inv := by
  have hentry : ∀ (f : ℤ) (d : ℕ), (m₁.enter sfd c).conn_mgr[f]? = some d →
      (m₁.enter sfd c).fd d = f ∧ 0 ≤ f ∧ f < 2 ^ 31 := by
    intro f d hd
    rcases getElem?_enter hd with ⟨rfl, rfl⟩ | ⟨-, hd⟩
    · exact ⟨Function.update_self .., hsfd⟩
    · rw [hconn] at hd
      obtain ⟨hown, hrange⟩ := h.entry f d hd
      refine ⟨?_, hrange⟩
      show Function.update m₁.fd c sfd d = f
      rw [Function.update_of_ne (hunused f d hd), hfd, hown]
  have hsize : (m₁.enter sfd c).conn_mgr.size = m.conn_mgr.size + 1 := by
    rw [size_enter (by rw [hconn]; exact hvac), hconn]
  refine ⟨hentry, fun f d hd => ?_, h.nodup.sublist hfree, fun f d hd => ?_, fun d hd => ?_, ?_, ?_⟩
  · rcases getElem?_enter hd with ⟨-, rfl⟩ | ⟨-, hd⟩
    · exact hc
    · rw [hconn] at hd
      exact fun hmem => h.disjoint f d hd (hfree.subset hmem)
  · rcases getElem?_enter hd with ⟨-, rfl⟩ | ⟨-, hd⟩
    · exact hlt
    · rw [hconn] at hd
      exact (h.used f d hd).trans_le hnext
  · exact (h.free d (hfree.subset hd)).trans_le hnext
  · rw [hsize]
    exact htotal
  · show m₁.total_conn ≤ 2 ^ 31
    rcases hbound with hnil | hbound
    · have hle := size_le fun f d hd => (hentry f d hd).2
      rw [hnil, List.length_nil] at htotal
      omega
    · exact hbound

/-- **`GetConnect` keeps the numbers right.** -/
lemma Inv.getConnect (h : m.Inv) {sfd : ℤ} (hsfd : 0 ≤ sfd ∧ sfd < 2 ^ 31)
    (hvac : m.conn_mgr[sfd]? = none) : (m.getConnect sfd).2.Inv := by
  have htotal := h.total
  have hbound := h.bound
  unfold GentAppMgr.getConnect
  rcases hlast : m.free_conn_mgr.getLast? with _ | c
  · rw [List.getLast?_eq_none_iff] at hlast
    rw [hlast, List.length_nil] at htotal
    refine h.enter hsfd hvac rfl rfl (List.Sublist.refl _) (by rw [hlast]; exact nofun)
      (fun f d hd => (h.used f d hd).ne) (Nat.le_succ _) (Nat.lt_succ_self _) ?_ (Or.inl hlast)
    show (m.total_conn + 1) % 2 ^ 64 = m.conn_mgr.size + 1 + m.free_conn_mgr.length
    rw [Nat.mod_eq_of_lt (by omega), hlast, List.length_nil]
    omega
  · obtain ⟨free, hfree⟩ := List.getLast?_eq_some_iff.mp hlast
    have hdrop : m.free_conn_mgr.dropLast = free := by rw [hfree, List.dropLast_concat]
    have hmem : c ∈ m.free_conn_mgr := by rw [hfree]; exact List.mem_append_right _ (by simp)
    have hnodup := h.nodup
    rw [hfree, List.nodup_append] at hnodup
    refine h.enter hsfd hvac rfl rfl (List.dropLast_sublist _) ?_
      (fun f d hd heq => h.disjoint f d hd (heq ▸ hmem)) le_rfl (h.free c hmem) ?_ (Or.inr hbound)
    · show c ∉ m.free_conn_mgr.dropLast
      rw [hdrop]
      exact fun hc => hnodup.2.2 c hc c (List.mem_singleton_self c) rfl
    · show m.total_conn = m.conn_mgr.size + 1 + m.free_conn_mgr.dropLast.length
      rw [htotal, hdrop, hfree, List.length_append, List.length_singleton]
      omega

/-! ## `RetConnect` -/

/-- The loop takes off the total what it takes off the free connections. -/
lemma trimLoop_total : ∀ (num : ℕ) (m : GentAppMgr), num ≤ m.total_conn → m.total_conn < 2 ^ 64 →
    trimLoop num m = { m with
      free_conn_mgr := m.free_conn_mgr.drop num, total_conn := m.total_conn - num }
  | 0, m, _, _ => by simp [trimLoop]
  | num + 1, m, hle, hlt => by
      have hone : sizeSub m.total_conn 1 = m.total_conn - 1 := sizeSub_of_le (by omega) hlt
      rw [trimLoop, hone, trimLoop_total num _ (show num ≤ m.total_conn - 1 by omega)
        (show m.total_conn - 1 < 2 ^ 64 by omega)]
      simp only [List.drop_tail, Nat.sub_sub, Nat.add_comm 1 num]

/-- **What trimming leaves**: no more free connections than twenty times those in use, the last ones of
the list, and the total as much smaller. -/
lemma trim_spec (used : ℕ) (htotal : m.total_conn = used + m.free_conn_mgr.length)
    (hbound : m.total_conn ≤ 2 ^ 31) :
    ∃ num ≤ m.free_conn_mgr.length,
      m.trim = { m with
        free_conn_mgr := m.free_conn_mgr.drop num, total_conn := m.total_conn - num } ∧
      (m.free_conn_mgr.drop num).length ≤ 20 * used := by
  have hcount : m.getConnCount = used := by
    rw [getConnCount, sizeSub_of_le (by omega) (by omega)]
    omega
  have hlink : m.getConnCount * 20 % 2 ^ 64 = used * 20 := by
    rw [hcount, Nat.mod_eq_of_lt (by omega)]
  unfold trim
  rw [hlink]
  dsimp only
  split_ifs with hmany
  · refine ⟨m.free_conn_mgr.length - used * 20, by omega, trimLoop_total _ _ (by omega) (by omega), ?_⟩
    rw [List.length_drop]
    omega
  · refine ⟨0, Nat.zero_le _, rfl, ?_⟩
    rw [List.drop_zero]
    omega

/-- **`RetConnect` keeps the numbers right**, and its bound holds. -/
lemma Inv.retConnect (h : m.Inv) {c : ℕ} (hlive : m.Live c) (hret : m.retConnect c = some m') :
    m'.Inv ∧ m'.free_conn_mgr.length ≤ 20 * m'.getConnCount ∧
      ∀ (f : ℤ) (d : ℕ), m'.conn_mgr[f]? = some d → d ∉ c :: m.free_conn_mgr := by
  have htotal := h.total
  have hbound := h.bound
  have hcontains : m.conn_mgr.contains (m.fd c) = true := by
    rw [Std.ExtTreeMap.contains_iff_mem, Std.ExtTreeMap.mem_iff_isSome_getElem?, hlive]
    rfl
  have hpos : 0 < m.conn_mgr.size := by
    rw [← Std.ExtTreeMap.length_keys]
    exact List.length_pos_of_mem
      (Std.ExtTreeMap.mem_keys.mpr (Std.ExtTreeMap.contains_iff_mem.mp hcontains))
  -- the pool before it is trimmed
  rw [GentAppMgr.retConnect, hlive] at hret
  have hret := (Option.some.inj hret).symm
  have hother : ∀ {f : ℤ} {d : ℕ}, (m.conn_mgr.erase (m.fd c))[f]? = some d →
      f ≠ m.fd c ∧ m.conn_mgr[f]? = some d := by
    intro f d hd
    simp only [Std.ExtTreeMap.getElem?_erase, Std.LawfulEqCmp.compare_eq_iff_eq] at hd
    split_ifs at hd with hf
    exact ⟨fun heq => hf heq.symm, hd⟩
  have hapart : ∀ (f : ℤ) (d : ℕ), (m.conn_mgr.erase (m.fd c))[f]? = some d →
      d ∉ c :: m.free_conn_mgr := by
    intro f d hd hmem
    obtain ⟨hf, hentry⟩ := hother hd
    rcases List.mem_cons.mp hmem with rfl | hmem
    · exact hf (h.entry f d hentry).1.symm
    · exact h.disjoint f d hentry hmem
  have hsize : (m.conn_mgr.erase (m.fd c)).size = m.conn_mgr.size - 1 := by
    rw [Std.ExtTreeMap.size_erase, if_pos hcontains]
  have hsum : m.total_conn = m.conn_mgr.size - 1 + (c :: m.free_conn_mgr).length := by
    rw [List.length_cons]
    omega
  obtain ⟨num, hnum, htrim, hfew⟩ := trim_spec (m := { m with
      fd := Function.update m.fd c (-1)
      free_conn_mgr := c :: m.free_conn_mgr
      conn_mgr := m.conn_mgr.erase (m.fd c) }) (m.conn_mgr.size - 1) hsum hbound
  rw [htrim] at hret
  have hnodup : (c :: m.free_conn_mgr).Nodup := List.nodup_cons.mpr ⟨h.disjoint _ c hlive, h.nodup⟩
  have hinv : m'.Inv := by
    subst hret
    refine ⟨fun f d hd => ?_, fun f d hd hmem => hapart f d hd (List.mem_of_mem_drop hmem),
      hnodup.sublist (List.drop_sublist ..), fun f d hd => h.used f d (hother hd).2,
      fun d hd => ?_, ?_, (Nat.sub_le ..).trans hbound⟩
    · obtain ⟨hown, hrange⟩ := h.entry f d (hother hd).2
      refine ⟨?_, hrange⟩
      show Function.update m.fd c (-1) d = f
      rw [Function.update_of_ne (fun heq => hapart f d hd (by simp [heq])), hown]
    · rcases List.mem_cons.mp (List.mem_of_mem_drop hd) with rfl | hd
      · exact h.used _ _ hlive
      · exact h.free d hd
    · show m.total_conn - num
        = (m.conn_mgr.erase (m.fd c)).size + ((c :: m.free_conn_mgr).drop num).length
      have hnum' : num ≤ (c :: m.free_conn_mgr).length := hnum
      rw [hsize, List.length_drop]
      omega
  refine ⟨hinv, ?_, ?_⟩
  · rw [hinv.count]
    subst hret
    show ((c :: m.free_conn_mgr).drop num).length ≤ 20 * (m.conn_mgr.erase (m.fd c)).size
    rw [hsize]
    exact hfew
  · subst hret
    exact hapart

/-! ## Every sequence of calls -/

lemma Inv.empty : GentAppMgr.empty.Inv :=
  ⟨fun f c h => by simp [GentAppMgr.empty] at h, fun f c h => by simp [GentAppMgr.empty] at h,
    List.nodup_nil, fun f c h => by simp [GentAppMgr.empty] at h, nofun, rfl, Nat.zero_le _⟩

lemma Inv.call (h : m.Inv) {e : Call} (hs : m.call e = some m') : m'.Inv := by
  cases e with
  | getConnect sfd =>
      rw [GentAppMgr.call, Option.ite_none_right_eq_some] at hs
      obtain ⟨⟨hsfd, hvac⟩, hs⟩ := hs
      obtain rfl := Option.some.inj hs
      exact h.getConnect hsfd hvac
  | retConnect c =>
      rw [GentAppMgr.call, Option.ite_none_right_eq_some] at hs
      exact (h.retConnect hs.1 hs.2).1

/-- **The numbers are right after every sequence of calls**, and `RetConnect` finds the connection in
use that it is given, keeps the bound and deletes nothing that is in use. -/
theorem pool_accounts (calls : List Call) (m : GentAppMgr)
    (hrun : Transition.run call empty calls = some m) :
    m.Accounts ∧ ∀ c, m.Live c → ∃ m', m.call (.retConnect c) = some m' ∧ m'.Accounts ∧
      m'.free_conn_mgr.length ≤ 20 * m'.getConnCount ∧
      ∀ d ∈ deleted m m' c, ∀ f : ℤ, m'.conn_mgr[f]? ≠ some d := by
  have hinv : m.Inv :=
    Transition.inv_run_of_step (fun _ _ _ h hs => Inv.call h hs) Inv.empty hrun
  refine ⟨hinv.accounts, fun c hlive => ?_⟩
  obtain ⟨m', hret⟩ : ∃ m', m.retConnect c = some m' := by
    rw [GentAppMgr.retConnect, hlive]
    exact ⟨_, rfl⟩
  obtain ⟨hinv', hfew, hapart⟩ := hinv.retConnect hlive hret
  refine ⟨m', by rw [call, if_pos hlive, hret], hinv'.accounts, hfew, fun d hd f hf => ?_⟩
  exact hapart f d hf (List.mem_of_mem_filter hd)

/-- Two connections, of which one is returned. -/
def twoCalls : List Call := [.getConnect 5, .getConnect 6, .retConnect 0]

theorem pool_accounts_twoCalls : ∃ m, Transition.run call empty twoCalls = some m ∧
    m.Accounts ∧ m.getConnCount = 1 := by
  obtain ⟨m, hm⟩ : ∃ m, Transition.run call empty twoCalls = some m :=
    Option.isSome_iff_exists.mp (by decide +kernel)
  have hcount : (Transition.run call empty twoCalls).map getConnCount = some 1 := by decide +kernel
  rw [hm] at hcount
  exact ⟨m, hm, (pool_accounts twoCalls m hm).1, Option.some.inj hcount⟩

end GentAppMgr

end Riser
