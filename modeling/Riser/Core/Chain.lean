import Mathlib.Tactic

/-!
# Chains of nodes in a heap

A heap maps addresses to nodes, and an address that is not allocated to nothing.  A node has a pointer
to the next one, which may be null, and data.  `Linked h p l` says that the pointers lead from the node
at `p` through the addresses and data of `l`, and that the last pointer is null.  The node at `p` itself
is a head without an element.

There is one lemma for each way to change a chain: at its end (`Linked.snoc`) and behind its head
(`Linked.unlink`).  Both rest on `Linked.congr`: a chain does not depend on what is elsewhere in the heap.
For that its addresses must be distinct, which is why they go with it as a list (`addrs`).  `follow` is
the walk along the pointers.
-/

namespace Chain

/-- A node. -/
structure Node (α : Type) where
  next : Option ℕ
  data : Option α

/-- What is allocated. -/
abbrev Heap (α : Type) := ℕ → Option (Node α)

variable {α : Type} {h h' : Heap α} {p a : ℕ} {x : α} {l : List (ℕ × α)}

/-- The pointers lead from `p` through `l`, and end there. -/
def Linked (h : Heap α) : ℕ → List (ℕ × α) → Prop
  | p, [] => ∃ d, h p = some ⟨none, d⟩
  | p, (a, x) :: l => (∃ d, h p = some ⟨some a, d⟩) ∧ (∃ n, h a = some ⟨n, some x⟩) ∧ Linked h a l

/-- All addresses of a chain. -/
def addrs (p : ℕ) (l : List (ℕ × α)) : List ℕ := p :: l.map Prod.fst

/-- The address of its last node. -/
def last : ℕ → List (ℕ × α) → ℕ
  | p, [] => p
  | _, (a, _) :: l => last a l

@[simp] lemma addrs_cons : addrs p ((a, x) :: l) = p :: addrs a l := rfl

@[simp] lemma last_cons : last p ((a, x) :: l) = last a l := rfl

lemma last_mem_addrs : ∀ {p : ℕ} {l : List (ℕ × α)}, last p l ∈ addrs p l
  | _, [] => List.mem_cons_self
  | _, (a, _) :: l => List.mem_cons_of_mem _ (last_mem_addrs (p := a) (l := l))

@[simp] lemma last_snoc : ∀ {p : ℕ} {l : List (ℕ × α)}, last p (l ++ [(a, x)]) = a
  | _, [] => rfl
  | _, (b, _) :: l => last_snoc (p := b) (l := l)

/-- A chain only depends on its own nodes. -/
lemma Linked.congr (hl : Linked h p l) (hsame : ∀ b ∈ addrs p l, h' b = h b) : Linked h' p l := by
  induction l generalizing p with
  | nil =>
      obtain ⟨d, hd⟩ := hl
      exact ⟨d, by rw [hsame p List.mem_cons_self, hd]⟩
  | cons ax l ih =>
      obtain ⟨a, x⟩ := ax
      obtain ⟨⟨d, hd⟩, ⟨n, hn⟩, hl⟩ := hl
      have hrest : ∀ b ∈ addrs a l, h' b = h b := fun b hb => hsame b (List.mem_cons_of_mem _ hb)
      refine ⟨⟨d, ?_⟩, ⟨n, ?_⟩, ih hl hrest⟩
      · rw [hsame p List.mem_cons_self, hd]
      · rw [hrest a List.mem_cons_self, hn]

/-- Every node of a chain is allocated, and the last pointer is null. -/
lemma Linked.last (hl : Linked h p l) : ∃ d, h (last p l) = some ⟨none, d⟩ := by
  induction l generalizing p with
  | nil => exact hl
  | cons ax l ih => exact ih hl.2.2

lemma Linked.allocated (hl : Linked h p l) {b : ℕ} (hb : b ∈ addrs p l) : h b ≠ none := by
  induction l generalizing p with
  | nil =>
      obtain ⟨d, hd⟩ := hl
      obtain rfl : b = p := List.mem_singleton.mp hb
      simp [hd]
  | cons ax l ih =>
      obtain ⟨⟨d, hd⟩, -, hl⟩ := hl
      rcases List.mem_cons.mp hb with rfl | hb
      · simp [hd]
      · exact ih hl hb

/-- **A new node at the end.** -/
lemma Linked.snoc (hl : Linked h p l) (hnodup : (addrs p l).Nodup) (hfree : h a = none)
    {nd : Node α} (hlast : h (Chain.last p l) = some nd) :
    Linked (Function.update (Function.update h a (some ⟨none, some x⟩)) (Chain.last p l)
      (some { nd with next := some a })) p (l ++ [(a, x)]) := by
  have hnew : ∀ b ∈ addrs p l, b ≠ a := by
    rintro b hb rfl
    exact hl.allocated hb hfree
  induction l generalizing p with
  | nil =>
      have hpa : a ≠ p := (hnew p List.mem_cons_self).symm
      refine ⟨⟨nd.data, ?_⟩, ⟨none, ?_⟩, some x, ?_⟩
      · simp [Chain.last]
      · simp [Chain.last, Function.update_of_ne hpa]
      · simp [Chain.last, Function.update_of_ne hpa]
  | cons bx l ih =>
      obtain ⟨b, y⟩ := bx
      obtain ⟨⟨d, hd⟩, ⟨n, hn⟩, hl⟩ := hl
      obtain ⟨hp, hnodup⟩ := List.nodup_cons.mp hnodup
      have hrest := ih hl hnodup hlast fun c hc => hnew c (List.mem_cons_of_mem _ hc)
      have hplast : p ≠ Chain.last b l := fun heq => hp (heq ▸ last_mem_addrs)
      refine ⟨⟨d, ?_⟩, ?_, hrest⟩
      · rw [last_cons, Function.update_of_ne hplast,
          Function.update_of_ne (hnew p List.mem_cons_self), hd]
      · -- the node itself may be the one whose pointer is set
        by_cases hb : b = Chain.last b l
        · have hnd : nd = ⟨n, some y⟩ := by
            have hlast' : h (Chain.last b l) = some nd := hlast
            rw [← hb, hn] at hlast'
            exact (Option.some.inj hlast').symm
          refine ⟨some a, ?_⟩
          rw [last_cons, ← hb, Function.update_self, hnd]
        · refine ⟨n, ?_⟩
          rw [last_cons, Function.update_of_ne hb,
            Function.update_of_ne (hnew b (List.mem_cons_of_mem _ List.mem_cons_self)), hn]

/-- **The first node is taken out**, and freed. -/
lemma Linked.unlink (hl : Linked h p ((a, x) :: l)) (hnodup : (addrs p ((a, x) :: l)).Nodup)
    {d' : Option α} {n : Option ℕ} (ha : h a = some ⟨n, d'⟩) (d : Option α) :
    Linked (Function.update (Function.update h p (some ⟨n, d⟩)) a none) p l := by
  obtain ⟨hpl, hnodup⟩ := List.nodup_cons.mp hnodup
  obtain ⟨hal, -⟩ := List.nodup_cons.mp hnodup
  have hpa : p ≠ a := fun heq => hpl (heq ▸ List.mem_cons_self)
  obtain ⟨-, -, hl⟩ := hl
  cases l with
  | nil =>
      obtain ⟨d₀, hd₀⟩ := hl
      rw [ha, Option.some.injEq, Node.mk.injEq] at hd₀
      refine ⟨d, ?_⟩
      rw [Function.update_of_ne hpa, Function.update_self, hd₀.1]
  | cons bx l =>
      obtain ⟨b, y⟩ := bx
      obtain ⟨⟨d₀, hd₀⟩, ⟨m, hm⟩, hl⟩ := hl
      rw [ha, Option.some.injEq, Node.mk.injEq] at hd₀
      -- what is behind the node that goes is neither that node nor the head
      have hsame : ∀ c ∈ addrs b l,
          Function.update (Function.update h p (some ⟨n, d⟩)) a none c = h c := by
        intro c hc
        have hca : c ≠ a := fun heq => hal (by simpa [addrs, heq] using hc)
        have hcp : c ≠ p := fun heq => hpl (List.mem_cons_of_mem _ (by simpa [addrs, heq] using hc))
        rw [Function.update_of_ne hca, Function.update_of_ne hcp]
      refine ⟨⟨d, ?_⟩, ⟨m, ?_⟩, hl.congr hsame⟩
      · rw [Function.update_of_ne hpa, Function.update_self, hd₀.1]
      · rw [hsame b List.mem_cons_self, hm]

/-! ## Walking -/

/-- `n` times the pointer to the next node. -/
def follow (h : Heap α) : ℕ → ℕ → Option ℕ
  | 0, p => some p
  | n + 1, p => (h p).bind fun nd => nd.next.bind (follow h n)

/-- The walk goes through the addresses of the chain. -/
lemma Linked.follow (hl : Linked h p l) {i : ℕ} (hi : i < (addrs p l).length) :
    follow h i p = (addrs p l)[i]? := by
  induction i generalizing p l with
  | zero => rfl
  | succ i ih =>
      cases l with
      | nil => simp [addrs] at hi
      | cons ax l =>
          obtain ⟨a, x⟩ := ax
          obtain ⟨⟨d, hd⟩, -, hl⟩ := hl
          simp only [Chain.follow, hd, Option.bind_some]
          exact ih hl (Nat.lt_of_succ_lt_succ hi)

lemma last_eq : ∀ {p : ℕ} {l : List (ℕ × α)}, (addrs p l)[l.length]? = some (last p l)
  | _, [] => rfl
  | _, (a, _) :: l => last_eq (p := a) (l := l)

/-- **The last node is reached after exactly as many steps as there are elements.** -/
lemma Linked.follow_iff (hl : Linked h p l) (hnodup : (addrs p l).Nodup) {i : ℕ}
    (hi : i ≤ l.length) : Chain.follow h i p = some (Chain.last p l) ↔ i = l.length := by
  have hlen : (addrs p l).length = l.length + 1 := by simp [addrs]
  rw [hl.follow (by omega), ← last_eq (p := p)]
  exact List.getElem?_inj (by omega) hnodup

end Chain
