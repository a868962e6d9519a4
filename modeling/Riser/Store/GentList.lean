import Mathlib.Data.Nat.Bitwise
import Riser.Core.CountingFilter
import Riser.Core.CppString
import Riser.Core.Transition

/-!
# `GentList`: the counting bloom filter

Three hash tables in a chain (SDBM, RS, JS), each of `2 ^ 16` entries.  An entry has a byte, and for each
of its eight bits a counter of eight bits.  `Save` sets the bit of the key in every table and counts it,
`Clear` counts it down and takes the bit away at zero, and `Load` asks whether the bit is there in every
table.

What is wanted (`Sound`): a key that was saved more often than cleared is found, and in every table a bit is
set exactly while its counter is positive.  **It does not hold**, for two reasons.

* The masks that take a bit away are written by hand, and those for the bits 2, 3, 6 and 7 are wrong
  (`posvalrev_testBit`): they leave their own bit, and take others away.
* A counter wraps when the 256th key comes to its slot.

`filter_iff` says that there are no other reasons: a history is sound throughout exactly when every `Save`
finds its counters below 255, and every `Clear` that counts down to zero has a right mask.  The invariant
behind it (`Exact`) has the counters equal to the occupancy of the slots, for the keys that are held.
-/

namespace Riser

open Cpp CountingFilter

/-! ## The tables -/

/-- `struct hashTable`. -/
structure HashTable where
  table : UInt8
  rel_count : Fin 8 → UInt8

/-- `class HashInter`, with its virtual `Hash`. -/
structure HashInter where
  hash : Str → UInt64
  tables : ℕ → HashTable

namespace HashInter

/-- `posval`. -/
def posval : Fin 8 → UInt8 := ![0x01, 0x02, 0x04, 0x08, 0x10, 0x20, 0x40, 0x80]

/-- `posvalrev`. -/
def posvalrev : Fin 8 → UInt8 := ![0xFE, 0xFD, 0xFC, 0xFB, 0xEF, 0xDF, 0xCF, 0xBF]

/-- The entry of the key, and its bit. -/
def slot (h : HashInter) (key : Str) : ℕ × Fin 8 :=
  ((h.hash (cstr key)).toNat / 8, Fin.ofNat 8 (h.hash (cstr key)).toNat)

/-- The entry at `pos` replaced. -/
def setEntry (h : HashInter) (pos : ℕ) (t : HashTable) : HashInter :=
  { h with tables := Function.update h.tables pos t }

/-- `HashInter::Position`: the tables behind it, and what it returns. -/
def position (h : HashInter) (key : Str) (isget : ℤ) : HashInter × UInt8 :=
  let (pos, off) := h.slot key
  let t := h.tables pos
  if isget = 1 then (h, t.table &&& posval off)
  else if isget = -1 then
    let t := { t with
      table := t.table ||| posval off
      rel_count := Function.update t.rel_count off (t.rel_count off + 1) }
    (h.setEntry pos t, t.rel_count off)
  else if 0 < t.rel_count off then
    let t := { t with rel_count := Function.update t.rel_count off (t.rel_count off - 1) }
    if 0 < t.rel_count off then (h.setEntry pos t, 1)
    else
      let t := { t with table := t.table &&& posvalrev off }
      (h.setEntry pos t, t.table)
  else (h, 1)

/-- A table when its file is created. -/
def init (hash : Str → UInt64) : HashInter := ⟨hash, fun _ => ⟨0, fun _ => 0⟩⟩

end HashInter

/-- A `char` where an `uint64_t` is wanted: it has a sign. -/
def charValue (c : UInt8) : UInt64 := c.toInt8.toInt64.toUInt64

/-- `(hash & 0x7FFFFFFF) & hashmask(posnum)`. -/
def masked (hash : UInt64) : UInt64 := (hash &&& 0x7FFFFFFF) &&& (((1 : UInt64) <<< (16 + 3 : UInt64)) - 1)

/-- `SDBMHash::Hash`. -/
def sdbmHash (str : Str) : UInt64 :=
  masked (str.foldl (fun hash c => charValue c + (hash <<< 6) + (hash <<< 16) - hash) 0)

/-- `RSHash::Hash`. -/
def rsHash (str : Str) : UInt64 :=
  masked (str.foldl (fun (hash, a) c => (hash * a + charValue c, a * 378551))
    ((0 : UInt64), (63689 : UInt64))).1

/-- `JSHash::Hash`. -/
def jsHash (str : Str) : UInt64 :=
  masked (str.foldl (fun hash c => hash ^^^ ((hash <<< 5) + charValue c + (hash >>> 2))) 1315423911)

/-- `class GentList`: the chain of the tables, from `mainHash` along `successor`. -/
structure GentList where
  chain : List HashInter

namespace GentList

/-- `GentList::Init`. -/
def init : GentList := ⟨[.init sdbmHash, .init rsHash, .init jsHash]⟩

/-- `HashInter::Get` along the chain. -/
def get (key : Str) : List HashInter → ℤ → ℤ
  | [], parent => parent
  | h :: successor, parent =>
      let a : ℤ := (h.position key 1).2.toNat
      get key successor (if parent = -1 then a else if parent ≠ 0 ∧ a ≠ 0 then 1 else 0)

/-- `GentList::Save`: `HashInter::Set` along the chain. -/
def save (g : GentList) (key : Str) : GentList := ⟨g.chain.map fun h => (h.position key (-1)).1⟩

/-- `GentList::Clear`: `HashInter::Del` along the chain. -/
def clear (g : GentList) (key : Str) : GentList := ⟨g.chain.map fun h => (h.position key (-2)).1⟩

/-- `GentList::Load`. -/
def load (g : GentList) (key : Str) : ℤ := get key g.chain (-1)

end GentList

/-- **Every key has its entry in the table**, which has `2 ^ 16` of them. -/
lemma slot_lt {h : HashInter} (hh : h ∈ GentList.init.chain) (key : Str) : (h.slot key).1 < 2 ^ 16 := by
  have hmask : ∀ hash, (masked hash).toNat < 2 ^ 19 := by
    intro hash
    rw [masked, UInt64.toNat_and]
    exact lt_of_le_of_lt Nat.and_le_right (by decide)
  have hlt : (h.hash (cstr key)).toNat < 2 ^ 19 := by
    simp only [GentList.init, List.mem_cons, List.not_mem_nil, or_false] at hh
    rcases hh with rfl | rfl | rfl
    · exact hmask _
    · exact hmask _
    · exact hmask _
  rw [HashInter.slot]
  omega

/-! ## Bits -/

namespace HashInter

lemma posval_testBit : ∀ o i : Fin 8, (posval o).toNat.testBit i = decide (i = o) := by
  decide

/-- Where the mask is right, it takes its own bit away, and no other. -/
def MaskRight (o : Fin 8) : Prop := o = 0 ∨ o = 1 ∨ o = 4 ∨ o = 5

instance (o : Fin 8) : Decidable (MaskRight o) := inferInstanceAs (Decidable (_ ∨ _))

/-- **The masks.** -/
lemma posvalrev_testBit : ∀ o : Fin 8, MaskRight o →
    ∀ i : Fin 8, (posvalrev o).toNat.testBit i = decide (i ≠ o) := by
  decide

/-- A wrong one leaves its own bit. -/
lemma posvalrev_testBit_self : ∀ o : Fin 8, ¬ MaskRight o → (posvalrev o).toNat.testBit o = true := by
  decide

lemma posval_toNat : ∀ o : Fin 8, (posval o).toNat = 2 ^ (o : ℕ) := by
  decide

/-- The test for a bit. -/
lemma and_posval_ne_zero (x : UInt8) (o : Fin 8) : x &&& posval o ≠ 0 ↔ x.toNat.testBit o = true := by
  rw [ne_eq, ← UInt8.toNat_inj, UInt8.toNat_and, posval_toNat, Nat.and_two_pow]
  cases x.toNat.testBit o <;> simp

/-! ## One table -/

section Position

variable {h : HashInter} {key : Str}

/-- The counter of the key. -/
def count (h : HashInter) (key : Str) : UInt8 := (h.tables (h.slot key).1).rel_count (h.slot key).2

/-- The bit `i` of the entry at `pos`. -/
def bit (h : HashInter) (pos : ℕ) (i : Fin 8) : Bool := (h.tables pos).table.toNat.testBit i

lemma slot_setEntry (pos : ℕ) (t : HashTable) : (h.setEntry pos t).slot = h.slot := rfl

/-- The hash of a table stays. -/
lemma slot_position (h : HashInter) (key : Str) (isget : ℤ) : (h.position key isget).1.slot = h.slot := by
  unfold position
  simp only
  split_ifs <;> rfl

/-- `Position` for `Get`. -/
lemma position_get (h : HashInter) (key : Str) :
    (h.position key 1).2 ≠ 0 ↔ h.bit (h.slot key).1 (h.slot key).2 = true :=
  and_posval_ne_zero _ _

/-- `Position` for `Set` counts the key, -/
lemma set_rel_count (h : HashInter) (key : Str) (pos : ℕ) (i : Fin 8) :
    ((h.position key (-1)).1.tables pos).rel_count i =
      if (pos, i) = h.slot key then h.count key + 1 else (h.tables pos).rel_count i := by
  rcases hslot : h.slot key with ⟨p, o⟩
  by_cases hp : pos = p
  · subst hp
    by_cases hi : i = o
    · subst hi
      simp [position, hslot, setEntry, count]
    · simp [position, hslot, setEntry, hi]
  · simp [position, hslot, setEntry, hp]

/-- and sets its bit. -/
lemma set_bit (h : HashInter) (key : Str) (pos : ℕ) (i : Fin 8) :
    (h.position key (-1)).1.bit pos i = (h.bit pos i || decide ((pos, i) = h.slot key)) := by
  rcases hslot : h.slot key with ⟨p, o⟩
  by_cases hp : pos = p
  · subst hp
    simp [position, hslot, setEntry, bit, Nat.testBit_or, posval_testBit]
  · simp [position, hslot, setEntry, bit, hp]

lemma sub_one_pos_iff {c : UInt8} (hc : 0 < c) : 0 < c - 1 ↔ c ≠ 1 := by
  have hle : (1 : UInt8) ≤ c := by
    rw [UInt8.le_iff_toNat_le]
    exact UInt8.lt_iff_toNat_lt.mp hc
  rw [UInt8.lt_iff_toNat_lt, UInt8.toNat_sub_of_le _ _ hle, ne_eq, ← UInt8.toNat_inj]
  rw [UInt8.le_iff_toNat_le] at hle
  simp only [UInt8.toNat_zero, UInt8.toNat_one] at hle ⊢
  omega

/-- `Position` for `Del`, on a counter that is not zero. -/
lemma position_del (hpos : 0 < h.count key) : (h.position key (-2)).1 = h.setEntry (h.slot key).1
    { table := if h.count key = 1 then
          (h.tables (h.slot key).1).table &&& posvalrev (h.slot key).2
        else (h.tables (h.slot key).1).table
      rel_count := Function.update (h.tables (h.slot key).1).rel_count (h.slot key).2
        (h.count key - 1) } := by
  have hleft := sub_one_pos_iff hpos
  rw [count] at hpos hleft
  simp only [position, count, if_neg (show ¬ ((-2 : ℤ) = 1) by decide),
    if_neg (show ¬ ((-2 : ℤ) = -1) by decide), if_pos hpos, Function.update_self, hleft]
  by_cases hone : (h.tables (h.slot key).1).rel_count (h.slot key).2 = 1
  · simp only [hone, ne_eq, not_true_eq_false, if_false, if_true]
  · simp only [hone, ne_eq, not_false_eq_true, if_false, if_true]

/-- It counts the key down, -/
lemma del_rel_count (hpos : 0 < h.count key) (pos : ℕ) (i : Fin 8) :
    ((h.position key (-2)).1.tables pos).rel_count i =
      if (pos, i) = h.slot key then h.count key - 1 else (h.tables pos).rel_count i := by
  rw [position_del hpos]
  rcases hslot : h.slot key with ⟨p, o⟩
  by_cases hp : pos = p
  · subst hp
    by_cases hi : i = o
    · subst hi
      simp [setEntry]
    · simp [setEntry, hi]
  · simp [setEntry, hp]

/-- and takes away what the mask says, if that was the last one. -/
lemma del_bit (hpos : 0 < h.count key) (pos : ℕ) (i : Fin 8) : (h.position key (-2)).1.bit pos i =
    (h.bit pos i && (decide (pos ≠ (h.slot key).1 ∨ h.count key ≠ 1)
      || (posvalrev (h.slot key).2).toNat.testBit i)) := by
  rw [position_del hpos]
  by_cases hp : pos = (h.slot key).1
  · subst hp
    by_cases hone : h.count key = 1
    · simp [setEntry, bit, hone, Nat.testBit_and]
    · simp [setEntry, bit, hone]
  · simp [setEntry, bit, hp]

end Position

/-- **The table is exact** for the keys `live`: its counters are the occupancy of the slots, and its bits say
which of them are not zero. -/
structure Exact (live : Multiset Str) (h : HashInter) : Prop where
  count : ∀ pos i, ((h.tables pos).rel_count i).toNat = occupancy h.slot live (pos, i)
  bits : ∀ pos i, h.bit pos i = true ↔ 0 < (h.tables pos).rel_count i

namespace Exact

variable {live : Multiset Str} {h : HashInter} {k : Str}

lemma init (hash : Str → UInt64) : Exact 0 (.init hash) where
  count pos i := (occupancy_zero ..).symm
  bits pos i := by simp [bit, HashInter.init]

/-- The counter of a key that is held is not zero. -/
lemma count_pos (he : Exact live h) (hk : k ∈ live) : 0 < h.count k := by
  rw [UInt8.lt_iff_toNat_lt, HashInter.count, he.count]
  exact occupancy_pos h.slot live hk

/-- **A key that is held is found.** -/
lemma held (he : Exact live h) (hk : k ∈ live) : (h.position k 1).2 ≠ 0 :=
  (h.position_get k).mpr ((he.bits _ _).mpr (he.count_pos hk))

lemma count_slot (he : Exact live h) (k : Str) : (h.count k).toNat = occupancy h.slot live (h.slot k) :=
  he.count _ _

/-- **Saving** keeps the table exact if the counter does not wrap. -/
lemma save (he : Exact live h) (hne : h.count k ≠ 255) : Exact (k ::ₘ live) (h.position k (-1)).1 := by
  have hnext : (h.count k + 1).toNat = (h.count k).toNat + 1 := by
    have hlt := (h.count k).toNat_lt
    have hne' : (h.count k).toNat ≠ 255 := fun heq => hne (UInt8.toNat_inj.mp heq)
    rw [UInt8.toNat_add, UInt8.toNat_one]
    omega
  constructor
  · intro pos i
    rw [set_rel_count, slot_position, occupancy_cons]
    split_ifs with hslot
    · rw [hnext, he.count_slot, hslot]
    · rw [he.count, Nat.add_zero]
  · intro pos i
    rw [set_bit, set_rel_count]
    split_ifs with hslot
    · simp only [hslot, decide_true, Bool.or_true, true_iff, UInt8.lt_iff_toNat_lt, hnext]
      exact Nat.succ_pos _
    · simp only [hslot, decide_false, Bool.or_false]
      exact he.bits pos i

/-- If it does, the bit is set and the counter is zero. -/
lemma count_ne_of_save (hbits : ∀ pos i, (h.position k (-1)).1.bit pos i = true ↔
    0 < ((h.position k (-1)).1.tables pos).rel_count i) : h.count k ≠ 255 := by
  intro hwrap
  have hslot := hbits (h.slot k).1 (h.slot k).2
  rw [set_bit, set_rel_count, if_pos rfl, hwrap] at hslot
  exact absurd (hslot.mp (by simp)) (by decide)

/-- **Clearing** keeps it exact if the mask is right, when it is used. -/
lemma clear (he : Exact live h) (hk : k ∈ live) (hmask : h.count k = 1 → MaskRight (h.slot k).2) :
    Exact (live.erase k) (h.position k (-2)).1 := by
  have hpos := he.count_pos hk
  have hprev : (h.count k - 1).toNat = (h.count k).toNat - 1 := by
    refine UInt8.toNat_sub_of_le _ _ ?_
    rw [UInt8.le_iff_toNat_le]
    exact UInt8.lt_iff_toNat_lt.mp hpos
  constructor
  · intro pos i
    have hocc := occupancy_erase h.slot live hk (pos, i)
    rw [del_rel_count hpos, slot_position]
    split_ifs with hslot
    · rw [if_pos hslot] at hocc
      rw [hprev, he.count_slot, ← hslot, hocc, Nat.add_sub_cancel]
    · rw [if_neg hslot, Nat.add_zero] at hocc
      rw [he.count, hocc]
  · intro pos i
    rw [del_bit hpos, del_rel_count hpos]
    by_cases hone : h.count k = 1
    · rw [posvalrev_testBit _ (hmask hone)]
      split_ifs with hslot
      · simp [← hslot, hone]
      · have hkept : pos ≠ (h.slot k).1 ∨ i ≠ (h.slot k).2 := by
          rw [← not_and_or]
          exact fun heq => hslot (Prod.ext heq.1 heq.2)
        simpa [hone, hkept] using he.bits pos i
    · split_ifs with hslot
      · have hbit : h.bit pos i = true := by
          rw [he.bits, UInt8.lt_iff_toNat_lt, he.count, hslot]
          exact occupancy_pos h.slot live hk
        simpa [hone, hbit] using (sub_one_pos_iff hpos).mpr hone
      · simpa [hone] using he.bits pos i

/-- If it is not, the bit stays and the counter is zero. -/
lemma maskRight_of_clear (he : Exact live h) (hk : k ∈ live)
    (hbits : ∀ pos i, (h.position k (-2)).1.bit pos i = true ↔
      0 < ((h.position k (-2)).1.tables pos).rel_count i)
    (hone : h.count k = 1) : MaskRight (h.slot k).2 := by
  by_contra hwrong
  have hpos := he.count_pos hk
  have hbit : h.bit (h.slot k).1 (h.slot k).2 = true := (he.bits _ _).mpr hpos
  have hslot := hbits (h.slot k).1 (h.slot k).2
  rw [del_bit hpos, del_rel_count hpos, if_pos rfl, hbit, posvalrev_testBit_self _ hwrong, hone] at hslot
  exact absurd (hslot.mp (by simp)) (by decide)

end Exact

end HashInter

/-! ## The chain -/

namespace GentList

lemma get_ne_zero (key : Str) : ∀ (chain : List HashInter) {parent : ℤ}, parent ≠ -1 →
    (get key chain parent ≠ 0 ↔ parent ≠ 0 ∧ ∀ h ∈ chain, (h.position key 1).2 ≠ 0)
  | [], _, _ => by simp [get]
  | h :: chain, parent, hparent => by
      have hzero : (((h.position key 1).2.toNat : ℤ) ≠ 0) ↔ (h.position key 1).2 ≠ 0 := by
        rw [ne_eq, ne_eq, Nat.cast_eq_zero, ← UInt8.toNat_inj]
        rfl
      rw [get, if_neg hparent, get_ne_zero key chain (by split_ifs <;> decide)]
      simp only [hzero, List.forall_mem_cons]
      split_ifs with hboth
      · simp [hboth.1, hboth.2]
      · simp only [ne_eq, not_true_eq_false, false_and, false_iff]
        exact fun hall => hboth ⟨hall.1, hall.2.1⟩

/-- **A key is found if it is in every table.** -/
lemma load_ne_zero {g : GentList} {key : Str} (h : ∀ t ∈ g.chain, (t.position key 1).2 ≠ 0) :
    g.load key ≠ 0 := by
  unfold load
  cases hchain : g.chain with
  | nil => simp [get]
  | cons t chain =>
      rw [hchain] at h
      have ht := h t List.mem_cons_self
      have hvalue : ((t.position key 1).2.toNat : ℤ) ≠ 0 := by
        rw [ne_eq, Nat.cast_eq_zero]
        exact fun h0 => ht (UInt8.toNat_inj.mp h0)
      rw [get, if_pos rfl, get_ne_zero key chain (by omega)]
      exact ⟨hvalue, fun u hu => h u (List.mem_cons_of_mem t hu)⟩

/-! ## Histories -/

/-- The filter, and what was done to it. -/
structure History where
  filter : GentList
  past : List (Event Str)

namespace History

/-- Empty tables. -/
def init : History := ⟨.init, []⟩

/-- One call.  A key is not cleared more often than it was saved. -/
def step (s : History) : Event Str → Option History
  | .save k => some ⟨s.filter.save k, s.past ++ [.save k]⟩
  | .clear k =>
      if clears k s.past < saves k s.past then some ⟨s.filter.clear k, s.past ++ [.clear k]⟩ else none

/-- **What is wanted.**  There are no false negatives, and the bits say which counters are positive. -/
structure Sound (s : History) : Prop where
  found : ∀ k, clears k s.past < saves k s.past → s.filter.load k ≠ 0
  bits : ∀ h ∈ s.filter.chain, ∀ pos i,
    (h.tables pos).table.toNat.testBit (i : Fin 8) = true ↔ 0 < (h.tables pos).rel_count i

/-- The condition: a counter does not wrap, and a mask that is used is right. -/
def Safe (s : History) : Event Str → Prop
  | .save k => ∀ h ∈ s.filter.chain, h.count k ≠ 255
  | .clear k => ∀ h ∈ s.filter.chain, h.count k = 1 → HashInter.MaskRight (h.slot k).2

instance (s : History) : ∀ e, Decidable (Safe s e)
  | .save k => inferInstanceAs (Decidable (∀ h ∈ s.filter.chain, h.count k ≠ 255))
  | .clear k => inferInstanceAs (Decidable (∀ h ∈ s.filter.chain, h.count k = 1 → _))

/-- **The invariant**: every table is exact for the keys that are held. -/
def Exact (s : History) : Prop :=
  ∃ live, Balanced s.past live ∧ ∀ h ∈ s.filter.chain, h.Exact live

variable {s s' : History} {e : Event Str}

lemma Exact.init : Exact .init := by
  refine ⟨0, Balanced.nil, fun h hh => ?_⟩
  simp only [History.init, GentList.init, List.mem_cons, List.not_mem_nil, or_false] at hh
  rcases hh with rfl | rfl | rfl
  · exact .init sdbmHash
  · exact .init rsHash
  · exact .init jsHash

lemma Exact.sound (hs : Exact s) : Sound s := by
  obtain ⟨live, hbal, hexact⟩ := hs
  refine ⟨fun k hk => load_ne_zero fun h hh => ?_, fun h hh => (hexact h hh).bits⟩
  exact (hexact h hh).held (hbal.mem_iff.mpr hk)

/-- **The step lemma**: a safe call keeps the tables exact, -/
lemma Exact.step (hs : Exact s) (hsafe : Safe s e) (hstep : s.step e = some s') : Exact s' := by
  obtain ⟨live, hbal, hexact⟩ := hs
  cases e with
  | save k =>
      obtain rfl := Option.some.inj hstep
      refine ⟨k ::ₘ live, hbal.save k, fun t ht => ?_⟩
      obtain ⟨h, hh, rfl⟩ := List.mem_map.mp ht
      exact (hexact h hh).save (hsafe h hh)
  | clear k =>
      obtain ⟨hk, hs'⟩ := Option.ite_none_right_eq_some.mp hstep
      obtain rfl := Option.some.inj hs'
      have hmem := hbal.mem_iff.mpr hk
      refine ⟨live.erase k, hbal.clear hmem, fun t ht => ?_⟩
      obtain ⟨h, hh, rfl⟩ := List.mem_map.mp ht
      exact (hexact h hh).clear hmem (hsafe h hh)

/-- and a call that is not safe leaves a bit that its counter does not account for. -/
lemma Exact.safe (hs : Exact s) (hstep : s.step e = some s') (hsound : Sound s') : Safe s e := by
  obtain ⟨live, hbal, hexact⟩ := hs
  cases e with
  | save k =>
      obtain rfl := Option.some.inj hstep
      intro h hh
      exact HashInter.Exact.count_ne_of_save (hsound.bits _ (List.mem_map_of_mem hh))
  | clear k =>
      obtain ⟨hk, hs'⟩ := Option.ite_none_right_eq_some.mp hstep
      obtain rfl := Option.some.inj hs'
      intro h hh
      exact (hexact h hh).maskRight_of_clear (hbal.mem_iff.mpr hk) (hsound.bits _ (List.mem_map_of_mem hh))

/-- **The filter is sound throughout a history exactly when** every call is safe. -/
theorem filter_iff (es : List (Event Str)) {s : History} (hrun : Transition.run step .init es = some s) :
    Transition.Along step (fun s _ => Sound s) .init es ∧ Sound s ↔ Transition.Along step Safe .init es :=
  Transition.along_strong_iff (fun _ h => h.sound) (fun _ _ _ h hsafe hstep => h.step hsafe hstep)
    (fun _ _ _ h hstep hsound => h.safe hstep hsound) es Exact.init hrun

/-- The bits of `a` have right masks in all three tables. -/
theorem filter_saved_cleared : ∃ s,
    Transition.run step .init [.save (lit "a"), .save (lit "i"), .clear (lit "a")] = some s ∧ Sound s := by
  refine ⟨_, rfl, ?_⟩
  refine ((filter_iff [.save (lit "a"), .save (lit "i"), .clear (lit "a")] rfl).mpr ?_).2
  decide +kernel

/-- **A false negative.**  With SDBM and RS the keys `a` and `b` are the bits 1 and 2 of one byte, and
clearing `b` takes `a` away. -/
theorem false_negative : ∃ s,
    Transition.run step .init [.save (lit "a"), .save (lit "b"), .clear (lit "b")] = some s ∧
      clears (lit "a") s.past < saves (lit "a") s.past ∧ s.filter.load (lit "a") = 0 ∧ ¬ Sound s := by
  have hload : ∀ s, Transition.run step .init [.save (lit "a"), .save (lit "b"), .clear (lit "b")] = some s →
      clears (lit "a") s.past < saves (lit "a") s.past ∧ s.filter.load (lit "a") = 0 := by
    rintro s ⟨⟩
    decide +kernel
  refine ⟨_, rfl, ?_⟩
  obtain ⟨hheld, hzero⟩ := hload _ rfl
  exact ⟨hheld, hzero, fun hsound => hsound.found _ hheld hzero⟩

end History

end GentList

end Riser
