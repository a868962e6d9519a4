import Riser.Core.Transition
import Riser.Repl.GentRepMgr

/-!
# Which slave owns which slot?

Every registered slave should have a slot of `REPLICATION_INFO` to itself: no two names share one, the
slot is marked as in use and carries the name, and the replication runs (`Owned`).  A refused `Logout`
should change nothing, and `Get` should refuse a slave only when every slot belongs to one (`Honest`).

Three things break this.

* **`Logout` cannot start its thread.**  `SetLogout` has then stopped the replication and freed the
  slot already, but the replication stays registered (`half_logout`).
* **A slave comes back after a `Logout`.**  `rep_map_` and `rep_map_list_` still know its slot, and
  hand it out without looking whether it is free, or by now another slave's (`slot_shared`).  A second
  `Init` does the same for every slave of the file.
* **A `Get` before `Init`**, while the file is full: none of its slaves is registered.

`Sane` excludes exactly these, and `slots_owned` says that nothing else goes wrong.
-/

namespace Riser

open Cpp

/-- The operations, with what else they depend on.  `setConn` is the connection of a slave coming and
going. -/
inductive MgrCall where
  | init (cr : Creation)
  | get (cr : Creation) (junk name : Str) (is_sync_all : Bool)
  | logout (name : Str) (created : Bool)
  | push (now id : ℕ) (type : OptType) (key : Str)
  | setConn (name : Str) (conn : Bool)

namespace GentRepMgr

def step (m : GentRepMgr) : MgrCall → Option GentRepMgr
  | .init cr => some (m.init cr)
  | .get cr junk name is_sync_all => some (m.get cr junk name is_sync_all).2
  | .logout name created => some (m.logout name created).2
  | .push now id type key => some (m.push now id type key).1
  | .setConn name conn => some (m.setConn name conn)

/-- The slot carries the name, as a C string. -/
def Carries (i : RepInfo) (name : Str) : Prop := name ++ [0] <+: i.name

/-- **Each registered slave owns its own live slot.** -/
structure Owned (m : GentRepMgr) : Prop where
  distinct : ∀ {n n' e e'}, m.Registers n e → m.Registers n' e' → e.slot = e'.slot → n = n'
  running : ∀ {n e}, m.Registers n e → e.rep.is_run = true
  available : ∀ {n e}, m.Registers n e → (m.repfile.slot e.slot).available = 1
  name : ∀ {n e}, m.Registers n e → Carries (m.repfile.slot e.slot) n

/-- The slot belongs to a registered slave. -/
def Taken (m : GentRepMgr) (i : ℕ) : Prop := ∃ n e, m.Registers n e ∧ e.slot = i

/-- **What the results mean**: a refused `Logout` has changed nothing, and a `Get` that returns `NULL`
has found every slot taken. -/
def Honest (m : GentRepMgr) : MgrCall → Prop
  | .get cr junk name is_sync_all =>
      (m.get cr junk name is_sync_all).1 = none → ∀ i < m.repfile.head_list.length, m.Taken i
  | .logout name created => (m.logout name created).1 = false → (m.logout name created).2 = m
  | _ => True

/-! ## The condition -/

/-- The slot is the name's: in use, with this name, and no other slave's. -/
structure Holds (m : GentRepMgr) (i : ℕ) (name : Str) : Prop where
  available : (m.repfile.slot i).available = 1
  carries : Carries (m.repfile.slot i) name
  own : ∀ {n e}, m.Registers n e → e.slot = i → n = name

/-- The slots of the file's slaves are taken, as far as they are in use. -/
def Settled (m : GentRepMgr) : Prop :=
  ∀ (n : Str) (i : ℕ), m.rep_map[n]? = some i → (m.repfile.slot i).available ≠ 0 → m.Taken i

/-- What the operation must not do. -/
def Sane (m : GentRepMgr) : MgrCall → Prop
  | .init _ => ∀ (n : Str) (i : ℕ), m.rep_map[n]? = some i → m.Holds i n
  | .get _ _ name _ => name.length < slaveNameSize ∧ (m.rep_list[name]? = none →
      (∀ i, m.known name = some i → m.Holds i name) ∧
      (m.known name = none → (∀ info ∈ m.repfile.head_list, info.available ≠ 0) → m.Settled))
  | .logout name created => ∀ e, m.Registers name e → e.rep.conn = false → created = true
  | _ => True

/-! ## The slots -/

section Slots

variable {f f' : GentFile} {i j : ℕ} {info : RepInfo}

lemma slot_setSlot_self (h : i < f.head_list.length) : (f.setSlot i info).slot i = info := by
  simp [GentFile.slot, GentFile.setSlot, h]

lemma slot_setSlot_ne (h : i ≠ j) : (f.setSlot i info).slot j = f.slot j := by
  simp [GentFile.slot, GentFile.setSlot, h]

/-- A slot that is in use is one of the file. -/
lemma lt_of_available (h : (f.slot i).available ≠ 0) : i < f.head_list.length := by
  by_contra hle
  rw [GentFile.slot, List.getElem?_eq_none (not_lt.mp hle)] at h
  exact h (by decide)

/-- The two files agree on who has which slot. -/
structure SameSlots (f f' : GentFile) : Prop where
  available : ∀ i, (f'.slot i).available = (f.slot i).available
  name : ∀ i, (f'.slot i).name = (f.slot i).name

lemma SameSlots.refl (f : GentFile) : SameSlots f f := ⟨fun _ => rfl, fun _ => rfl⟩

lemma SameSlots.trans {f'' : GentFile} (h : SameSlots f f') (h' : SameSlots f' f'') :
    SameSlots f f'' :=
  ⟨fun i => (h'.available i).trans (h.available i), fun i => (h'.name i).trans (h.name i)⟩

/-- Changing something else in a slot. -/
lemma sameSlots_setSlot (ha : info.available = (f.slot i).available)
    (hn : info.name = (f.slot i).name) : SameSlots f (f.setSlot i info) := by
  have hslot : ∀ j, (f.setSlot i info).slot j = f.slot j ∨
      j = i ∧ (f.setSlot i info).slot j = info := by
    intro j
    by_cases hij : i = j
    · subst hij
      by_cases hlt : i < f.head_list.length
      · exact Or.inr ⟨rfl, slot_setSlot_self hlt⟩
      · refine Or.inl ?_
        simp only [GentFile.slot, GentFile.setSlot]
        rw [List.set_eq_of_length_le (not_lt.mp hlt)]
    · exact Or.inl (slot_setSlot_ne hij)
  refine ⟨fun j => ?_, fun j => ?_⟩
  · rcases hslot j with h | ⟨rfl, h⟩
    · rw [h]
    · rw [h, ha]
  · rcases hslot j with h | ⟨rfl, h⟩
    · rw [h]
    · rw [h, hn]

end Slots

/-! ## The invariant -/

variable {m m' : GentRepMgr}

/-- The slot is taken, or the file's. -/
def Covered (m : GentRepMgr) (i : ℕ) : Prop := m.Taken i ∨ ∃ n : Str, m.rep_map[n]? = some i

/-- What is kept: ownership; the file's slaves have slots of their own, and are registered for these;
and a slot in use is covered. -/
structure Inv (m : GentRepMgr) : Prop where
  owned : m.Owned
  mapped : ∀ {n n' : Str} {i : ℕ}, m.rep_map[n]? = some i → m.rep_map[n']? = some i → n = n'
  fixed : ∀ {n e} {i : ℕ}, m.Registers n e → m.rep_map[n]? = some i → e.slot = i
  covered : ∀ i, (m.repfile.slot i).available ≠ 0 → m.Covered i

/-- The same names are registered, for the same slots, and run as before. -/
structure SameList (m m' : GentRepMgr) : Prop where
  bwd : ∀ {n e'}, m'.Registers n e' → ∃ e, m.Registers n e ∧ e'.slot = e.slot ∧
    e'.rep.is_run = e.rep.is_run
  fwd : ∀ {n e}, m.Registers n e → ∃ e', m'.Registers n e' ∧ e'.slot = e.slot
  rep_map : m'.rep_map = m.rep_map

/-- Neither is touched by what goes on in the queues. -/
lemma Inv.of_same (h : m.Inv) (hlist : SameList m m') (hslots : SameSlots m.repfile m'.repfile) :
    m'.Inv where
  owned :=
    { distinct := fun {n n' e e'} he he' heq => by
        obtain ⟨e₁, h₁, hs₁, -⟩ := hlist.bwd he
        obtain ⟨e₂, h₂, hs₂, -⟩ := hlist.bwd he'
        exact h.owned.distinct h₁ h₂ (hs₁.symm.trans (heq.trans hs₂))
      running := fun {n e} he => by
        obtain ⟨e₁, h₁, -, hr⟩ := hlist.bwd he
        rw [hr, h.owned.running h₁]
      available := fun {n e} he => by
        obtain ⟨e₁, h₁, hs, -⟩ := hlist.bwd he
        rw [hslots.available, hs, h.owned.available h₁]
      name := fun {n e} he => by
        obtain ⟨e₁, h₁, hs, -⟩ := hlist.bwd he
        unfold Carries
        rw [hslots.name, hs]
        exact h.owned.name h₁ }
  mapped := by
    rw [hlist.rep_map]
    exact h.mapped
  fixed {n e i} he hi := by
    obtain ⟨e₁, h₁, hs, -⟩ := hlist.bwd he
    rw [hlist.rep_map] at hi
    rw [hs, h.fixed h₁ hi]
  covered i hi := by
    unfold Covered
    rw [hslots.available] at hi
    rw [hlist.rep_map]
    refine (h.covered i hi).imp_left fun ⟨n, e, he, hs⟩ => ?_
    obtain ⟨e', he', hs'⟩ := hlist.fwd he
    exact ⟨n, e', he', hs'.trans hs⟩

/-! ## Push, and connections -/

lemma sameSlots_stamp (f : GentFile) (now : ℕ) (e : Registered) :
    SameSlots f (stamp f now e) := by
  unfold stamp
  split_ifs
  · exact sameSlots_setSlot rfl rfl
  · exact SameSlots.refl f

/-- The slots after a push only differ in a time. -/
lemma sameSlots_push {now id : ℕ} {type : OptType} {key : Str} :
    SameSlots m.repfile (m.push now id type key).1.repfile := by
  have hloop : ∀ (l : List (Str × Registered)) (f : GentFile),
      SameSlots f (l.foldl (fun f it => stamp f now it.2) f) := by
    intro l
    induction l with
    | nil => exact SameSlots.refl
    | cons it l ih => exact fun f => (sameSlots_stamp f now it.2).trans (ih _)
  exact hloop m.rep_list.toList m.repfile

lemma Inv.push (h : m.Inv) (now id : ℕ) (type : OptType) (key : Str) :
    (m.push now id type key).1.Inv := by
  refine h.of_same ⟨fun {n e'} he' => ?_, fun {n e} he => ?_, rfl⟩ sameSlots_push
  · obtain ⟨e, he, rfl⟩ := registers_push.mp he'
    exact ⟨e, he, rfl, is_run_push _ now id type key⟩
  · exact ⟨_, registers_push.mpr ⟨e, he, rfl⟩, rfl⟩

lemma registers_setConn {name n : Str} {conn : Bool} {e' : Registered} :
    (m.setConn name conn).Registers n e' ↔
      ∃ e, m.Registers n e ∧
        e' = if name = n then ⟨e.slot, { e.rep with conn }⟩ else e := by
  unfold Registers setConn
  rw [Std.ExtTreeMap.getElem?_modify]
  simp only [Std.LawfulEqCmp.compare_eq_iff_eq]
  split_ifs with heq
  · subst heq
    rw [Option.map_eq_some_iff]
    exact exists_congr fun e => and_congr_right fun _ => eq_comm
  · simp

lemma Inv.setConn (h : m.Inv) (name : Str) (conn : Bool) : (m.setConn name conn).Inv := by
  refine h.of_same ⟨fun {n e'} he' => ?_, fun {n e} he => ?_, rfl⟩ (SameSlots.refl _)
  · obtain ⟨e, he, rfl⟩ := registers_setConn.mp he'
    refine ⟨e, he, ?_⟩
    split_ifs
    · exact ⟨rfl, rfl⟩
    · exact ⟨rfl, rfl⟩
  · refine ⟨_, registers_setConn.mpr ⟨e, he, rfl⟩, ?_⟩
    split_ifs
    · rfl
    · rfl

/-! ## New replications -/

section Create

variable {cr : Creation} {name : Str} {i : ℕ} {is_sync_all : Bool}

lemma sameSlots_create : SameSlots m.repfile (m.create cr name i is_sync_all).repfile := by
  obtain ⟨-, ha, hn⟩ := new_spec (m.repfile.slot i) cr is_sync_all
  exact sameSlots_setSlot ha hn

/-- **A replication for a slot that is its own.**  The slot need not have been covered before. -/
lemma Inv.create (howned : m.Owned)
    (hmapped : ∀ {n n' : Str} {i : ℕ}, m.rep_map[n]? = some i → m.rep_map[n']? = some i → n = n')
    (hfixed : ∀ {n e} {i : ℕ}, m.Registers n e → m.rep_map[n]? = some i → e.slot = i)
    (hcovered : ∀ j, j ≠ i → (m.repfile.slot j).available ≠ 0 → m.Covered j)
    (hold : m.Holds i name) (hname : ∀ j, m.rep_map[name]? = some j → j = i)
    (hsame : ∀ e, m.Registers name e → e.slot = i) : (m.create cr name i is_sync_all).Inv := by
  have hslots : SameSlots m.repfile (m.create cr name i is_sync_all).repfile := sameSlots_create
  have hreg : ∀ {n e}, (m.create cr name i is_sync_all).Registers n e →
      (n = name ∧ e.slot = i ∧ e.rep.is_run = true) ∨ n ≠ name ∧ m.Registers n e := by
    intro n e he
    refine (registers_store.mp he).imp_left ?_
    rintro ⟨hn, rfl⟩
    exact ⟨hn, rfl, (new_spec (m.repfile.slot i) cr is_sync_all).1⟩
  have hnew : (m.create cr name i is_sync_all).Taken i :=
    ⟨name, _, registers_store.mpr (Or.inl ⟨rfl, rfl⟩), rfl⟩
  refine ⟨⟨?_, ?_, ?_, ?_⟩, hmapped, ?_, ?_⟩
  · intro n n' e e' he he' heq
    rcases hreg he with ⟨hn, hs, -⟩ | ⟨hn, hm⟩
    · rcases hreg he' with ⟨hn', -⟩ | ⟨hn', hm'⟩
      · rw [hn, hn']
      · exact absurd (hold.own hm' (heq.symm.trans hs)) hn'
    · rcases hreg he' with ⟨-, hs', -⟩ | ⟨-, hm'⟩
      · exact absurd (hold.own hm (heq.trans hs')) hn
      · exact howned.distinct hm hm' heq
  · intro n e he
    rcases hreg he with ⟨-, -, hr⟩ | ⟨-, he⟩
    · exact hr
    · exact howned.running he
  · intro n e he
    rw [hslots.available]
    rcases hreg he with ⟨-, hs, -⟩ | ⟨-, he⟩
    · rw [hs, hold.available]
    · exact howned.available he
  · intro n e he
    unfold Carries
    rw [hslots.name]
    rcases hreg he with ⟨rfl, hs, -⟩ | ⟨-, he⟩
    · rw [hs]
      exact hold.carries
    · exact howned.name he
  · intro n e j he hj
    rcases hreg he with ⟨rfl, hs, -⟩ | ⟨-, he⟩
    · rw [hs, hname j hj]
    · exact hfixed he hj
  · intro j hj
    by_cases hji : j = i
    · exact Or.inl (hji ▸ hnew)
    · rw [hslots.available] at hj
      refine (hcovered j hji hj).imp_left fun ⟨n, e, he, hs⟩ => ?_
      have hne : n ≠ name := fun heq => hji (hs.symm.trans (hsame e (heq ▸ he)))
      exact ⟨n, e, registers_store.mpr (Or.inr ⟨hne, he⟩), hs⟩

/-- What the others hold is still theirs. -/
lemma Holds.create {n : Str} {j : ℕ} (h : m.Holds j n) (hne : j = i → n = name) :
    (m.create cr name i is_sync_all).Holds j n := by
  have hslots : SameSlots m.repfile (m.create cr name i is_sync_all).repfile := sameSlots_create
  refine ⟨by rw [hslots.available, h.available], ?_, ?_⟩
  · unfold Carries
    rw [hslots.name]
    exact h.carries
  · intro n' e he hs
    rcases registers_store.mp he with ⟨rfl, rfl⟩ | ⟨-, he⟩
    · exact (hne hs.symm).symm
    · exact h.own he hs

end Create

/-- **`Init`.** -/
lemma Inv.init (h : m.Inv) (cr : Creation)
    (hold : ∀ (n : Str) (i : ℕ), m.rep_map[n]? = some i → m.Holds i n) : (m.init cr).Inv := by
  have hloop : ∀ (l : List (Str × ℕ)) (m' : GentRepMgr), m'.rep_map = m.rep_map → m'.Inv →
      (∀ it ∈ l, m.rep_map[it.1]? = some it.2 ∧ m'.Holds it.2 it.1) →
      (l.foldl (fun m it => m.create cr it.1 it.2 true) m').Inv := by
    intro l
    induction l with
    | nil => exact fun m' _ hm' _ => hm'
    | cons it l ih =>
        intro m' hmap hm' hl
        obtain ⟨hit, hhold⟩ := hl it List.mem_cons_self
        have hit' : m'.rep_map[it.1]? = some it.2 := by rw [hmap, hit]
        rw [List.foldl_cons]
        refine ih _ hmap ?_ fun it' hit'' => ?_
        · exact Inv.create hm'.owned hm'.mapped hm'.fixed (fun j _ hj => hm'.covered j hj) hhold
            (fun j hj => Option.some.inj (hj.symm.trans hit')) (fun e he => hm'.fixed he hit')
        · obtain ⟨hmem, hhold'⟩ := hl it' (List.mem_cons_of_mem it hit'')
          exact ⟨hmem, hhold'.create fun heq => h.mapped hmem (heq ▸ hit)⟩
  refine hloop _ m rfl h fun it hit => ?_
  have hmem := Std.ExtTreeMap.mem_toList_iff_getElem?_eq_some.mp hit
  exact ⟨hmem, hold it.1 it.2 hmem⟩

/-! ## `Get` -/

section Get

variable {cr : Creation} {junk name : Str} {is_sync_all : Bool}

/-- A name that gets a free slot. -/
lemma Inv.adopt (h : m.Inv) {i : ℕ} (hi : i < m.repfile.head_list.length)
    (hfree : (m.repfile.slot i).available = 0) (hnone : m.rep_list[name]? = none)
    (hmap : m.rep_map[name]? = none) (hlen : name.length < slaveNameSize) :
    ({ m with repfile := m.repfile.assign junk name i }.create cr name i is_sync_all).Inv := by
  set f := m.repfile.assign junk name i with hf
  have hself : f.slot i = (m.repfile.slot i).setName junk name := slot_setSlot_self hi
  have hother : ∀ j, j ≠ i → f.slot j = m.repfile.slot j := fun j hj => slot_setSlot_ne (Ne.symm hj)
  -- the slots of registered slaves are in use, so that none of them is this one
  have hne : ∀ {n e}, m.Registers n e → e.slot ≠ i := fun {n e} he heq => by
    have := h.owned.available he
    rw [heq, hfree] at this
    exact absurd this (by decide)
  refine Inv.create ⟨h.owned.distinct, h.owned.running, ?_, ?_⟩ h.mapped h.fixed ?_ ⟨?_, ?_, ?_⟩ ?_ ?_
  · intro n e he
    show (f.slot e.slot).available = 1
    rw [hother _ (hne he), h.owned.available he]
  · intro n e he
    show Carries (f.slot e.slot) n
    rw [hother _ (hne he)]
    exact h.owned.name he
  · intro j hj hja
    refine h.covered j ?_
    rwa [← hother j hj]
  · show (f.slot i).available = 1
    rw [hself]
    rfl
  · show Carries (f.slot i) name
    rw [hself]
    show name ++ [0] <+: (name ++ 0 :: junk).take slaveNameSize
    refine List.prefix_take_iff.mpr ⟨?_, ?_⟩
    · exact ⟨junk, by simp⟩
    · simp only [List.length_append, List.length_singleton]
      omega
  · intro n e he hs
    exact absurd hs (hne he)
  · intro j hj
    exact absurd (hmap.symm.trans hj) (by simp)
  · intro e he
    exact absurd (hnone.symm.trans he) (by simp)

lemma Inv.get_known (h : m.Inv) {i : ℕ} (hold : m.Holds i name) (hnone : m.rep_list[name]? = none)
    (hname : ∀ j, m.rep_map[name]? = some j → j = i) : (m.create cr name i is_sync_all).Inv :=
  Inv.create h.owned h.mapped h.fixed (fun j _ hj => h.covered j hj) hold hname
    fun e he => absurd (hnone.symm.trans he) (by simp)

/-- **`Get`**: the invariant, and that `NULL` means what it should. -/
lemma Inv.get (h : m.Inv) (hsane : m.Sane (.get cr junk name is_sync_all)) :
    (m.get cr junk name is_sync_all).2.Inv ∧ m.Honest (.get cr junk name is_sync_all) := by
  obtain ⟨hlen, hsane⟩ := hsane
  show _ ∧ ((m.get cr junk name is_sync_all).1 = none →
    ∀ i < m.repfile.head_list.length, m.Taken i)
  rcases m.get_cases cr junk name is_sync_all with ⟨e, -, hget⟩ | ⟨hreg, hcases⟩
  · rw [hget]
    exact ⟨h, fun hnull => by cases hnull⟩
  obtain ⟨hknown, hfull⟩ := hsane hreg
  rcases hcases with ⟨i, hi, hget⟩ | ⟨hunknown, ⟨i, hfree, hget⟩ | ⟨hfree, hget⟩⟩
  · rw [hget]
    refine ⟨h.get_known (hknown i hi) hreg fun j hj => ?_,
      fun hnull => (created_ne_none _ _ _ _ _ hnull).elim⟩
    rw [known, hj] at hi
    exact Option.some.inj hi
  · obtain ⟨hlt, havail, -⟩ := List.findIdx?_eq_some_iff_getElem.mp hfree
    have hmap : m.rep_map[name]? = none := (Option.or_eq_none_iff.mp hunknown).1
    rw [hget]
    refine ⟨h.adopt hlt ?_ hreg hmap hlen, fun hnull => (created_ne_none _ _ _ _ _ hnull).elim⟩
    simpa [GentFile.slot, List.getElem?_eq_getElem hlt] using havail
  · rw [hget]
    refine ⟨h, fun _ i hi => ?_⟩
    have hall : ∀ info ∈ m.repfile.head_list, info.available ≠ 0 := by
      simpa using List.findIdx?_eq_none_iff.mp hfree
    have hused : (m.repfile.slot i).available ≠ 0 := by
      rw [GentFile.slot, List.getElem?_eq_getElem hi]
      exact hall _ (List.getElem_mem hi)
    rcases h.covered i hused with htaken | ⟨n, hn⟩
    · exact htaken
    · exact hfull hunknown hall n i hn hused

end Get

/-! ## `Logout` -/

lemma erase_insert (t : NameMap Registered) (n : Str) (e : Registered) :
    (t.insert n e).erase n = t.erase n := by
  refine Std.ExtTreeMap.ext_getElem? fun k => ?_
  rw [Std.ExtTreeMap.getElem?_erase, Std.ExtTreeMap.getElem?_erase, Std.ExtTreeMap.getElem?_insert]
  simp only [Std.LawfulEqCmp.compare_eq_iff_eq]
  split_ifs
  · rfl
  · rfl

/-- A replication that has left: its slot is free. -/
lemma Inv.leave (h : m.Inv) {name : Str} {e : Registered} (hreg : m.Registers name e)
    {info : RepInfo} (hinfo : info.available = 0) :
    ({ m with
      rep_list := m.rep_list.erase name
      repfile := m.repfile.setSlot e.slot info } : GentRepMgr).Inv := by
  set m' : GentRepMgr := { m with
    rep_list := m.rep_list.erase name
    repfile := m.repfile.setSlot e.slot info } with hm'
  have hiff : ∀ {n e'}, m'.Registers n e' ↔ n ≠ name ∧ m.Registers n e' := by
    intro n e'
    show (m.rep_list.erase name)[n]? = some e' ↔ _
    rw [Std.ExtTreeMap.getElem?_erase]
    simp only [Std.LawfulEqCmp.compare_eq_iff_eq]
    by_cases heq : name = n
    · simp [heq]
    · simp [heq, Ne.symm heq, Registers]
  have hslot : ∀ {n e'}, m'.Registers n e' → m'.repfile.slot e'.slot = m.repfile.slot e'.slot := by
    intro n e' he'
    obtain ⟨hne, he'⟩ := hiff.mp he'
    exact slot_setSlot_ne fun heq => hne (h.owned.distinct he' hreg heq.symm)
  refine ⟨⟨?_, ?_, ?_, ?_⟩, h.mapped, ?_, ?_⟩
  · exact fun he he' => h.owned.distinct (hiff.mp he).2 (hiff.mp he').2
  · exact fun he => h.owned.running (hiff.mp he).2
  · intro n e' he'
    rw [hslot he']
    exact h.owned.available (hiff.mp he').2
  · intro n e' he'
    rw [hslot he']
    exact h.owned.name (hiff.mp he').2
  · exact fun he hi => h.fixed (hiff.mp he).2 hi
  · intro i hi
    have hlt : e.slot < m.repfile.head_list.length :=
      lt_of_available (by rw [h.owned.available hreg]; decide)
    have hne : e.slot ≠ i := by
      rintro rfl
      exact hi (by rw [← hinfo]; exact congrArg _ (slot_setSlot_self hlt))
    have hsame : m'.repfile.slot i = m.repfile.slot i := slot_setSlot_ne hne
    rw [hsame] at hi
    refine (h.covered i hi).imp_left fun ⟨n, e', he', hs⟩ => ⟨n, e', hiff.mpr ⟨?_, he'⟩, hs⟩
    rintro rfl
    exact hne (by rw [← hs, Option.some.inj (hreg.symm.trans he')])

/-- **`Logout`**, if its thread starts. -/
lemma Inv.logout (h : m.Inv) {name : Str} {created : Bool} (hsane : m.Sane (.logout name created)) :
    (m.logout name created).2.Inv ∧ m.Honest (.logout name created) := by
  show _ ∧ ((m.logout name created).1 = false → (m.logout name created).2 = m)
  cases hreg : m.rep_list[name]? with
  | none =>
      have hres : m.logout name created = (true, m) := by rw [GentRepMgr.logout, hreg]
      rw [hres]
      exact ⟨h, fun hfalse => by cases hfalse⟩
  | some e =>
      cases hconn : e.rep.conn with
      | true =>
          have hres : m.logout name created = (false, m) := by
            rw [GentRepMgr.logout, hreg]
            simp [GentReplication.setLogout, load, hconn]
          rw [hres]
          exact ⟨h, fun _ => rfl⟩
      | false =>
          have hres : m.logout name created = (true, { m with
              rep_list := m.rep_list.erase name
              repfile := m.repfile.setSlot e.slot ((m.repfile.slot e.slot).set .available 0) }) := by
            rw [GentRepMgr.logout, hreg, hsane e hreg hconn]
            simp [GentReplication.setLogout, load, hconn, store, erase_insert]
          rw [hres]
          exact ⟨h.leave hreg rfl, fun hfalse => by cases hfalse⟩

/-! ## Whole runs -/

/-- **One operation.** -/
lemma Inv.step (h : m.Inv) {c : MgrCall} (hsane : m.Sane c) (hstep : m.step c = some m') :
    m'.Inv := by
  cases c with
  | init cr =>
      obtain rfl : m.init cr = m' := Option.some.inj hstep
      exact h.init cr hsane
  | get cr junk name is_sync_all =>
      obtain rfl : _ = m' := Option.some.inj hstep
      exact (h.get hsane).1
  | logout name created =>
      obtain rfl : _ = m' := Option.some.inj hstep
      exact (h.logout hsane).1
  | push now id type key =>
      obtain rfl : _ = m' := Option.some.inj hstep
      exact h.push now id type key
  | setConn name conn =>
      obtain rfl : _ = m' := Option.some.inj hstep
      exact h.setConn name conn

lemma Inv.honest (h : m.Inv) {c : MgrCall} (hsane : m.Sane c) : m.Honest c := by
  cases c with
  | init cr => trivial
  | get cr junk name is_sync_all => exact (h.get hsane).2
  | logout name created => exact (h.logout hsane).2
  | push now id type key => trivial
  | setConn name conn => trivial

/-! ## The start -/

/-- No two slots in use carry the same name. -/
def DistinctNames (l : List RepInfo) : Prop :=
  ∀ {i j : ℕ} {c c' : RepInfo}, l[i]? = some c → l[j]? = some c' → c.available ≠ 0 → c'.available ≠ 0 →
    cstr c.name = cstr c'.name → i = j

/-- The names that are loaded are those of slots in use. -/
lemma of_loadNames : ∀ (l : List RepInfo) (k : ℕ) (names : NameMap ℕ) (n : Str) (i : ℕ),
    (GentFile.loadNames l k names)[n]? = some i →
    names[n]? = some i ∨ k ≤ i ∧ ∃ c, l[i - k]? = some c ∧ cstr c.name = n
  | [], _, _, _, _, h => Or.inl h
  | c :: l, k, names, n, i, h => by
      rw [GentFile.loadNames] at h
      rcases of_loadNames l (k + 1) _ n i h with hnames | ⟨hle, c', hc', hn⟩
      · split_ifs at hnames with havail
        · rw [Std.ExtTreeMap.getElem?_insert] at hnames
          simp only [Std.LawfulEqCmp.compare_eq_iff_eq] at hnames
          split_ifs at hnames with hn
          · obtain rfl := Option.some.inj hnames
            exact Or.inr ⟨le_rfl, c, by simp, hn⟩
          · exact Or.inl hnames
        · exact Or.inl hnames
      · refine Or.inr ⟨by omega, c', ?_, hn⟩
        rw [show i - k = (i - (k + 1)) + 1 by omega, List.getElem?_cons_succ]
        exact hc'

lemma loadNames_of_notMem : ∀ (l : List RepInfo) (k : ℕ) (names : NameMap ℕ) (n : Str),
    (∀ c ∈ l, c.available ≠ 0 → cstr c.name ≠ n) →
    (GentFile.loadNames l k names)[n]? = names[n]?
  | [], _, _, _, _ => rfl
  | c :: l, k, names, n, h => by
      rw [GentFile.loadNames, loadNames_of_notMem l (k + 1) _ n fun c' hc' =>
        h c' (List.mem_cons_of_mem c hc')]
      split_ifs with havail
      · rw [Std.ExtTreeMap.getElem?_insert]
        simp [h c List.mem_cons_self havail]
      · rfl

/-- Every slot in use is found under its name. -/
lemma loadNames_of_getElem : ∀ (l : List RepInfo) (k : ℕ) (names : NameMap ℕ) (i : ℕ) (c : RepInfo),
    DistinctNames l → l[i]? = some c → c.available ≠ 0 →
    (GentFile.loadNames l k names)[cstr c.name]? = some (k + i)
  | [], _, _, _, _, _, h, _ => by simp at h
  | c₀ :: l, k, names, 0, c, hl, h, havail => by
      obtain rfl : c₀ = c := by simpa using h
      rw [GentFile.loadNames, if_pos havail, loadNames_of_notMem l (k + 1)]
      · simp
      · intro c' hc' havail' hname
        obtain ⟨j, hj⟩ := List.getElem?_of_mem hc'
        exact absurd (hl (i := j + 1) (j := 0) (by simpa using hj) h havail' havail hname) (by simp)
  | c₀ :: l, k, names, i + 1, c, hl, h, havail => by
      have hl' : DistinctNames l := fun {i j c c'} hc hc' h₁ h₂ heq =>
        Nat.succ.inj (hl (i := i + 1) (j := j + 1) (by simpa using hc) (by simpa using hc') h₁ h₂ heq)
      rw [GentFile.loadNames,
        loadNames_of_getElem l (k + 1) _ i c hl' (by simpa using h) havail,
        Nat.add_right_comm, Nat.add_assoc]

lemma inv_new (junk : Str) (slots : List Str)
    (hfile : DistinctNames (slots.map (RepInfo.init junk))) : (new junk slots).Inv := by
  have hnone : ∀ {n e}, ¬ (new junk slots).Registers n e := fun {n e} he => by
    simp [Registers, new] at he
  refine ⟨⟨fun he => absurd he hnone, fun he => absurd he hnone, fun he => absurd he hnone,
    fun he => absurd he hnone⟩, ?_, fun he => absurd he hnone, ?_⟩
  · intro n n' i hi hi'
    have hslot : ∀ {n : Str}, (new junk slots).rep_map[n]? = some i →
        ∃ c, (slots.map (RepInfo.init junk))[i]? = some c ∧ cstr c.name = n := fun {n} h => by
      rcases of_loadNames _ 0 ∅ n i h with h | ⟨-, c, hc, hn⟩
      · simp at h
      · exact ⟨c, hc, hn⟩
    obtain ⟨c, hc, rfl⟩ := hslot hi
    obtain ⟨c', hc', rfl⟩ := hslot hi'
    rw [Option.some.inj (hc.symm.trans hc')]
  · intro i hi
    have hlt := lt_of_available hi
    refine Or.inr ⟨_, (loadNames_of_getElem _ 0 ∅ i _ hfile (List.getElem?_eq_getElem hlt) ?_).trans
      (by rw [Nat.zero_add])⟩
    rwa [GentFile.slot, List.getElem?_eq_getElem hlt] at hi

/-- **Each slave owns its own live slot**, after any sequence of operations that are `Sane`, on a file
whose slots in use carry different names. -/
theorem slots_owned (junk : Str) (slots : List Str)
    (hfile : DistinctNames (slots.map (RepInfo.init junk))) (cs : List MgrCall) (m : GentRepMgr)
    (hrun : Transition.run step (new junk slots) cs = some m)
    (hsane : Transition.Along step Sane (new junk slots) cs) :
    m.Owned ∧ ∀ c, m.Sane c → m.Honest c := by
  have hinv : m.Inv := Transition.inv_run (fun _ _ _ h hc hs => h.step hc hs) cs
    (inv_new junk slots hfile) hsane hrun
  exact ⟨hinv.owned, fun _ => hinv.honest⟩

/-! ## Slaves that come and go -/

lemma distinctNames_emptyFile : DistinctNames (emptyFile.map (RepInfo.init [])) := by
  intro i j c c' hc _ havail
  rw [emptyFile, List.map_replicate] at hc
  rw [List.eq_of_mem_replicate (List.mem_of_getElem? hc)] at havail
  exact absurd (by decide) havail

/-- A slave that joins and leaves, and another one after it. -/
def comeAndGo : List MgrCall :=
  [.get quiet [] (lit "a") true, .logout (lit "a") true, .get quiet [] (lit "b") true]

/-- The second slave has the slot of the first. -/
theorem slots_owned_comeAndGo : ∃ m,
    Transition.run step (new [] emptyFile) comeAndGo = some m ∧ m.Owned ∧
      m.rep_list[lit "b"]?.map Registered.slot = some 0 := by
  have hnew : ∀ {m : GentRepMgr} {name : Str}, m.rep_map = ∅ → name.length < slaveNameSize →
      m.repfile.rep_map_list[name]? = none → m.Sane (.get quiet [] name true) := by
    intro m name hmap hlen hlist
    have hknown : m.known name = none := by simp [known, hmap, hlist]
    refine ⟨hlen, fun _ => ⟨fun i hi => ?_, fun _ _ n i hn => ?_⟩⟩
    · simp [hknown] at hi
    · simp [hmap] at hn
  obtain ⟨m, hm⟩ : ∃ m, Transition.run step (new [] emptyFile) comeAndGo = some m := by
    rw [new_emptyFile]
    exact ⟨_, rfl⟩
  refine ⟨m, hm, (slots_owned [] emptyFile distinctNames_emptyFile comeAndGo m hm ?_).1, ?_⟩
  · rw [new_emptyFile]
    refine ⟨hnew rfl (by decide) (by decide), fun m₁ h₁ => ?_⟩
    obtain rfl := Option.some.inj h₁
    refine ⟨fun _ _ _ => rfl, fun m₂ h₂ => ?_⟩
    obtain rfl := Option.some.inj h₂
    exact ⟨hnew rfl (by decide) (by decide), fun _ _ => trivial⟩
  · rw [new_emptyFile] at hm
    obtain rfl := Option.some.inj hm
    decide

/-- **Two slaves share a slot**, when the first one comes back. -/
theorem slot_shared : ∃ m,
    Transition.run step (new [] emptyFile) (comeAndGo ++ [.get quiet [] (lit "a") true]) = some m ∧
      m.rep_list[lit "a"]?.map Registered.slot = some 0 ∧
      m.rep_list[lit "b"]?.map Registered.slot = some 0 ∧ ¬ m.Owned := by
  rw [new_emptyFile]
  refine ⟨_, rfl, by decide, by decide, fun h => ?_⟩
  exact absurd (@Owned.distinct _ h (lit "a") (lit "b") _ _ rfl rfl rfl) (by decide)

/-- **A `Logout` without its thread** is refused, and leaves a slave that does not run. -/
theorem half_logout {name : Str} {e : Registered} (he : m.Registers name e)
    (hconn : e.rep.conn = false) :
    (m.logout name false).1 = false ∧ ¬ (m.logout name false).2.Owned := by
  have heq : m.logout name false = (false, m.store name e.slot (m.load e).setLogout.2) := by
    unfold logout GentReplication.setLogout load
    rw [he]
    simp [hconn]
  rw [heq]
  refine ⟨rfl, fun h => ?_⟩
  have hreg : (m.store name e.slot (m.load e).setLogout.2).Registers name
      ⟨e.slot, (m.load e).setLogout.2⟩ := Std.ExtTreeMap.getElem?_insert_self
  have hrun := h.running hreg
  simp [GentReplication.setLogout, load, hconn] at hrun

end GentRepMgr

end Riser
