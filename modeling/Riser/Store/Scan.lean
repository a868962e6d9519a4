import Riser.Core.Scan
import Riser.Store.GentDb

/-!
# Scans of the key space

`Keys`, `Count` and `Random` walk over `meta_db` in the order of its iterator.  The first two stop
at the first key without the prefix behind one that has it, with their flags the other way round.
**Both are exact** (`prefix_scans_exact`): in bytewise order the keys with a common prefix stand
next to each other.

`Random` draws a number below the window and takes the first position, counted from 1, that is not
below it.  The draws 0 and 1 are the same position, so **the last key of the window is never
returned** unless it is the only one (`covers_iff`).
-/

namespace Riser

open Cpp

namespace GentDb

/-! ## `Keys` and `Count` -/

/-- The loop of `GentDb::Keys` as it is written, with the vector it appends to and its counter. -/
def keysFrom (pre : Str) : List Str → Bool → List Str → ℕ → List Str × ℕ
  | [], _, outvec, num => (outvec, num)
  | curkey :: rest, first, outvec, num =>
      if pre ≠ lit "*" then
        if curkey.take pre.length ≠ pre then
          if first = false then (outvec, num) else keysFrom pre rest first outvec num
        else keysFrom pre rest false (outvec ++ [curkey]) (num + 1)
      else keysFrom pre rest first (outvec ++ [curkey]) (num + 1)

/-- `GentDb::Keys`: the vector when it returns, and the number it returns. -/
def keysCall (s : GentDb) (outvec : List Str) (pre : Str) : List Str × ℕ :=
  keysFrom pre s.meta_db.keys true outvec 0

/-- The stored keys that start with `pre`, in the order of the iterator. -/
def withPre (s : GentDb) (pre : Str) : List Str :=
  s.meta_db.keys.filter fun key => decide (pre <+: key)

/-- The test that both loops make. -/
lemma take_ne_iff (pre key : Str) : key.take pre.length ≠ pre ↔ decide (pre <+: key) = false := by
  rw [decide_eq_false_iff_not, List.prefix_iff_eq_take, ne_comm]

lemma keysFrom_eq (pre : Str) (l : List Str) (first : Bool) (outvec : List Str) (num : ℕ) :
    keysFrom pre l first outvec num =
      (outvec ++ (if pre ≠ lit "*" then keysLoop pre l first else l),
        num + (if pre ≠ lit "*" then keysLoop pre l first else l).length) := by
  induction l generalizing first outvec num with
  | nil => simp [keysFrom, keysLoop]
  | cons key l ih =>
      by_cases hstar : pre = lit "*"
      · simp only [keysFrom, hstar, ne_eq, not_true_eq_false, if_false, List.length_cons] at ih ⊢
        rw [ih, List.append_assoc, List.singleton_append, Nat.add_right_comm, Nat.add_assoc]
      · simp only [keysFrom, keysLoop, hstar, ne_eq, not_false_eq_true, if_true] at ih ⊢
        by_cases hpre : key.take pre.length = pre
        · simp only [hpre, not_true_eq_false, if_false, ih, List.append_assoc,
            List.singleton_append, List.length_cons, Prod.mk.injEq, true_and]
          omega
        · cases first with
          | true => simp [hpre, ih]
          | false => simp [hpre]

/-- What `Keys` appends and counts. -/
lemma keysCall_eq (s : GentDb) (outvec : List Str) (pre : Str) :
    s.keysCall outvec pre = (outvec ++ s.keys pre, (s.keys pre).length) := by
  rw [keysCall, keysFrom_eq, Nat.zero_add, keys]

/-- Once a key has matched, `Keys` takes what matches up to the next one that does not. -/
lemma keysLoop_false (pre : Str) (l : List Str) :
    keysLoop pre l false = l.takeWhile fun key => decide (pre <+: key) := by
  induction l with
  | nil => rfl
  | cons key l ih =>
      simp only [keysLoop, take_ne_iff, List.takeWhile_cons]
      cases decide (pre <+: key) with
      | true => simp [ih]
      | false => simp

lemma keysLoop_true (pre : Str) (l : List Str) :
    keysLoop pre l true = Scan.firstRun (fun key => decide (pre <+: key)) l := by
  induction l with
  | nil => rfl
  | cons key l ih =>
      simp only [keysLoop, take_ne_iff]
      cases hpre : decide (pre <+: key) with
      | true =>
          rw [Scan.firstRun_cons_of_pos (by exact hpre), ← keysLoop_false]
          rfl
      | false =>
          rw [Scan.firstRun_cons_of_neg (by exact hpre), ← ih]
          rfl

/-- The two loops count the same keys: the flag of `Count` is the negation of that of `Keys`. -/
lemma countLoop_eq (pre : Str) (l : List Str) (first : Bool) :
    countLoop pre l first = (keysLoop pre l !first).length := by
  induction l generalizing first with
  | nil => rfl
  | cons key l ih =>
      simp only [countLoop, keysLoop]
      by_cases hpre : key.take pre.length = pre
      · simp [hpre, ih]
      · cases first with
        | true => simp [hpre]
        | false => simp [hpre, ih]

/-- The first block of keys that start with `pre` is all of them. -/
lemma firstRun_keys (s : GentDb) (pre : Str) :
    Scan.firstRun (fun key => decide (pre <+: key)) s.meta_db.keys = s.withPre pre :=
  Scan.firstRun_eq_filter (Scan.prefix_convex pre) Std.ExtTreeMap.ordered_keys

/-- **The early-exit scans agree with a full filter.** -/
theorem prefix_scans_exact (s : GentDb) (pre : Str) (outvec : List Str) :
    (s.withPre pre).Nodup ∧
      (pre ≠ lit "*" →
        s.keysCall outvec pre = (outvec ++ s.withPre pre, (s.withPre pre).length)) ∧
      (pre ≠ [] → (s.count pre).1 = (s.withPre pre).length) := by
  refine ⟨Std.ExtTreeMap.nodup_keys.filter _, fun hstar => ?_, fun hpre => ?_⟩
  · rw [keysCall_eq, keys, if_pos hstar, keysLoop_true, firstRun_keys]
  · simp only [count, hpre, false_and, if_false, ne_eq, not_false_eq_true, if_true]
    rw [countLoop_eq, Bool.not_false, keysLoop_true, firstRun_keys]

/-- The store with the keys `a`, `ab` and `b`. -/
def threeKeys : GentDb where
  db := ∅
  meta_db := ((Std.ExtTreeMap.empty.insert (lit "b") []).insert (lit "ab") []).insert (lit "a") []
  key_num := 3
  write_num := 0
  is_clear := false

theorem prefix_scans_exact_a :
    threeKeys.keysCall [] (lit "a") = ([] ++ threeKeys.withPre (lit "a"),
        (threeKeys.withPre (lit "a")).length) ∧
      (threeKeys.count (lit "a")).1 = (threeKeys.withPre (lit "a")).length :=
  ⟨(prefix_scans_exact threeKeys (lit "a") []).2.1 (by decide),
    (prefix_scans_exact threeKeys (lit "a") []).2.2 (by decide)⟩

example : threeKeys.withPre (lit "a") = [lit "a", lit "ab"] := by decide +kernel

/-! ## `Random` -/

/-- The loop takes the key at position `ni`, counted from the `i` of the first key, or the first
key if `ni` is smaller. -/
lemma randomLoop_eq (ni : ℕ) (l : List Str) (i : ℕ) : randomLoop ni l i = l.getD (ni - i) [] := by
  induction l generalizing i with
  | nil => simp [randomLoop]
  | cons key l ih =>
      by_cases hni : ni ≤ i
      · simp [randomLoop, hni, Nat.sub_eq_zero_of_le hni]
      · have hsub : ni - i = (ni - (i + 1)) + 1 := by omega
        rw [randomLoop, if_neg hni, ih, hsub, List.getD_cons_succ]

/-- The largest number that `rand()` returns. -/
def randMax : ℕ := 2147483647

/-- The keys that `Random` may draw from. -/
def window (s : GentDb) : List Str := s.meta_db.keys.take (min s.meta_db.keys.length 1000)

/-- Every draw is a key of the window, and every key of the window is some draw. -/
def Covers (s : GentDb) : Prop :=
  (∀ rand ≤ randMax, ∃ key ∈ s.window, s.random rand = (true, key)) ∧
    ∀ key ∈ s.window, ∃ rand ≤ randMax, s.random rand = (true, key)

section Random

variable {s : GentDb} (hnum : s.key_num = s.meta_db.keys.length) (hpos : 0 < s.meta_db.keys.length)
include hnum hpos

/-- The draw `rand` is the key at index `rand % w - 1`, so 0 and 1 are the same draw. -/
lemma random_eq (rand : ℕ) :
    s.random rand =
      (true, s.meta_db.keys.getD (rand % min s.meta_db.keys.length 1000 - 1) []) := by
  rw [random, if_neg (by omega), randomLoop_eq, hnum]

/-- Every draw is a key of the window, and not the last one if there are two. -/
lemma random_index (rand : ℕ) :
    ∃ i, ∃ hi : i < s.meta_db.keys.length, s.random rand = (true, s.meta_db.keys.get ⟨i, hi⟩) ∧
      i < min s.meta_db.keys.length 1000 ∧
      (1 < s.meta_db.keys.length → i < min s.meta_db.keys.length 1000 - 1) := by
  have hmod : rand % min s.meta_db.keys.length 1000 < min s.meta_db.keys.length 1000 :=
    Nat.mod_lt _ (by omega)
  have hi : rand % min s.meta_db.keys.length 1000 - 1 < s.meta_db.keys.length := by omega
  refine ⟨_, hi, ?_, by omega, fun _ => by omega⟩
  rw [random_eq hnum hpos, List.getD_eq_getElem?_getD, List.getElem?_eq_getElem hi]
  rfl

/-- **`Random` covers its window only if that is a single key.** -/
theorem covers_iff : s.Covers ↔ s.meta_db.keys.length = 1 := by
  constructor
  · intro hcovers
    by_contra hne
    -- the key at the end of the window would have to be drawn
    have hlast : min s.meta_db.keys.length 1000 - 1 < s.meta_db.keys.length := by omega
    have hmem : s.meta_db.keys.get ⟨_, hlast⟩ ∈ s.window := by
      rw [window, List.mem_take_iff_getElem]
      exact ⟨min s.meta_db.keys.length 1000 - 1, by omega, rfl⟩
    obtain ⟨rand, -, hrand⟩ := hcovers.2 _ hmem
    obtain ⟨i, hi, hdraw, -, hbelow⟩ := random_index hnum hpos rand
    have hsame : s.meta_db.keys.get ⟨i, hi⟩ = s.meta_db.keys.get ⟨_, hlast⟩ :=
      (Prod.mk.inj (hdraw.symm.trans hrand)).2
    have hindex : i = min s.meta_db.keys.length 1000 - 1 :=
      congrArg Fin.val ((List.nodup_iff_injective_get.mp Std.ExtTreeMap.nodup_keys) hsame)
    exact absurd (hbelow (by omega)) (by omega)
  · intro hone
    obtain ⟨key, hkeys⟩ := List.length_eq_one_iff.mp hone
    have hdraw : ∀ rand, s.random rand = (true, key) := by
      intro rand
      rw [random_eq hnum hpos, hkeys, List.length_singleton, Nat.min_eq_left (by decide),
        Nat.mod_one]
      rfl
    have hwindow : s.window = [key] := by rw [window, hkeys]; rfl
    refine ⟨fun rand _ => ⟨key, by rw [hwindow]; exact List.mem_singleton_self _, hdraw rand⟩, ?_⟩
    intro key' hkey'
    rw [hwindow, List.mem_singleton] at hkey'
    exact ⟨0, Nat.zero_le _, by rw [hkey']; exact hdraw 0⟩

end Random

/-- The store with the keys `a` and `b`. -/
def twoKeys : GentDb where
  db := ∅
  meta_db := (Std.ExtTreeMap.empty.insert (lit "b") []).insert (lit "a") []
  key_num := 2
  write_num := 0
  is_clear := false

/-- The store with the key `a`. -/
def oneKey : GentDb where
  db := ∅
  meta_db := Std.ExtTreeMap.empty.insert (lit "a") []
  key_num := 1
  write_num := 0
  is_clear := false

theorem covers_oneKey : oneKey.Covers :=
  (covers_iff (by decide +kernel) (by decide +kernel)).mpr (by decide +kernel)

/-- Of two keys, `Random` returns the first one whatever `rand()` is. -/
theorem covers_twoKeys : ¬ twoKeys.Covers := by
  intro hcovers
  obtain ⟨rand, -, hrand⟩ := hcovers.2 (lit "b") (by decide +kernel)
  have hkeys : twoKeys.meta_db.keys = [lit "a", lit "b"] := by decide +kernel
  rw [random_eq (by decide +kernel) (by decide +kernel), hkeys] at hrand
  have hdraw : rand % 2 - 1 = 0 := by omega
  have hab : ([lit "a", lit "b"] : List Str).getD (rand % 2 - 1) [] = lit "b" :=
    (Prod.mk.inj hrand).2
  rw [hdraw] at hab
  exact absurd hab (by decide)

end GentDb

end Riser
