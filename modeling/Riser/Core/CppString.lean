import Mathlib.Tactic
import Mathlib.Data.List.TakeWhile

/-!
# Byte strings with the C and C++ string functions

A `std::string` is a list of bytes, and NUL is a byte like any other.  This file gives the
library functions a C++ program applies to one, with the part that usually goes wrong kept:
`substr` **throws** when the position lies past the end, indexing a vector past its end is a
fault, `find_first_of` may start anywhere, and the C functions (`atoi`, `strtoull`, `%s`) stop
at the first NUL.  `snprintf` cuts its text to the buffer.

* `substr`, `elemAt` — the two partial operations, in `Except Fault`.
* `findFirstOf` — the first position at or after `pos` that holds a byte of a set.
* `atoi`, `strtoull`, `decimal` — reading and printing numbers, with `atoi_decimal` and
  `strtoull_decimal` saying that the readers undo the printer.
* `snprintf` — the text, cut to the buffer.

Nothing here depends on the program under study.
-/

namespace Cpp

/-- The contents of a `std::string`. -/
abbrev Str := List UInt8

/-- A statement about the bytes of a string is decided byte by byte.  The priority is above that of
the instance that goes through all values of a finite type. -/
instance (priority := 2000) decidableForallMem (s : Str) (p : UInt8 → Prop) [DecidablePred p] :
    Decidable (∀ b ∈ s, p b) :=
  List.decidableBAll p s

/-- So is one about the first or the last byte, if there is one. -/
instance (priority := 2000) decidableForallMemOption (o : Option UInt8) (p : UInt8 → Prop)
    [DecidablePred p] : Decidable (∀ b ∈ o, p b) :=
  Option.decidableForallMem o

instance lawfulBEqStr : LawfulBEq Str := inferInstanceAs (LawfulBEq (List UInt8))

/-- A string literal of the source, byte for byte.  Only used on ASCII text. -/
def lit (s : String) : Str := s.toList.map fun c => UInt8.ofNat c.toNat

/-- What ends a C++ program that nobody wrote a handler for. -/
inductive Fault where
  /-- `std::out_of_range`, thrown by `substr`. -/
  | outOfRange
  /-- A vector indexed past its end. -/
  | badIndex
  deriving DecidableEq, Repr

/-! ## Partial operations -/

/-- `s.substr(pos, n)`. -/
def substr (s : Str) (pos n : ℕ) : Except Fault Str :=
  if pos ≤ s.length then .ok ((s.drop pos).take n) else .error .outOfRange

/-- `s.substr(pos)`. -/
def substrFrom (s : Str) (pos : ℕ) : Except Fault Str :=
  if pos ≤ s.length then .ok (s.drop pos) else .error .outOfRange

/-- `v[i]` on a `std::vector`. -/
def elemAt {α : Type} (v : List α) (i : ℕ) : Except Fault α :=
  match v[i]? with
  | some x => .ok x
  | none => .error .badIndex

lemma substr_of_le {s : Str} {pos : ℕ} (h : pos ≤ s.length) (n : ℕ) :
    substr s pos n = .ok ((s.drop pos).take n) := if_pos h

lemma substrFrom_of_le {s : Str} {pos : ℕ} (h : pos ≤ s.length) :
    substrFrom s pos = .ok (s.drop pos) := if_pos h

lemma substrFrom_of_lt {s : Str} {pos : ℕ} (h : s.length < pos) :
    substrFrom s pos = .error .outOfRange := if_neg (by omega)

lemma elemAt_of_eq_some {α : Type} {v : List α} {i : ℕ} {x : α} (h : v[i]? = some x) :
    elemAt v i = .ok x := by
  simp only [elemAt, h]

lemma elemAt_of_le {α : Type} {v : List α} {i : ℕ} (h : v.length ≤ i) :
    elemAt v i = .error .badIndex := by
  simp only [elemAt, List.getElem?_eq_none h]

lemma elemAt_of_lt {α : Type} {v : List α} {i : ℕ} (h : i < v.length) :
    elemAt v i = .ok (v.get ⟨i, h⟩) := by
  simp [elemAt, h]

/-- The computation ends without a fault. -/
def Runs {α : Type} (e : Except Fault α) : Prop := ∃ a, e = .ok a

section Runs

variable {α β : Type}

@[simp] lemma runs_ok (a : α) : Runs (.ok a : Except Fault α) := ⟨a, rfl⟩

@[simp] lemma runs_pure (a : α) : Runs (pure a : Except Fault α) := ⟨a, rfl⟩

@[simp] lemma not_runs_error (f : Fault) : ¬ Runs (.error f : Except Fault α) := nofun

lemma runs_bind {e : Except Fault α} {f : α → Except Fault β} :
    Runs (e >>= f) ↔ ∃ a, e = .ok a ∧ Runs (f a) := by
  cases e with
  | error f => simp [bind, Except.bind]
  | ok a => simp [bind, Except.bind]

lemma ok_bind (a : α) (f : α → Except Fault β) : ((.ok a : Except Fault α) >>= f) = f a := rfl

@[simp] lemma runs_ok_bind (a : α) (f : α → Except Fault β) :
    Runs ((.ok a : Except Fault α) >>= f) ↔ Runs (f a) := Iff.rfl

lemma bind_eq_ok {e : Except Fault α} {f : α → Except Fault β} {b : β} :
    e >>= f = .ok b ↔ ∃ a, e = .ok a ∧ f a = .ok b := by
  cases e with
  | error f => simp [bind, Except.bind]
  | ok a => simp [bind, Except.bind]

lemma runs_substr {s : Str} {pos n : ℕ} : Runs (substr s pos n) ↔ pos ≤ s.length := by
  unfold substr
  split_ifs with h <;> simp [h]

lemma runs_substrFrom {s : Str} {pos : ℕ} : Runs (substrFrom s pos) ↔ pos ≤ s.length := by
  unfold substrFrom
  split_ifs with h <;> simp [h]

end Runs

/-! ## Searching -/

/-- `s.find_first_of(set, pos)`, `none` for `npos`.  A start past the end finds nothing. -/
def findFirstOf (s set : Str) (pos : ℕ) : Option ℕ :=
  ((s.drop pos).findIdx? fun b => decide (b ∈ set)).map (pos + ·)

/-- **What a hit says**: the position is at or after the start, inside the string, holds a byte
of the set, and no byte between the start and it does. -/
lemma findFirstOf_eq_some {s set : Str} {pos p : ℕ} (h : findFirstOf s set pos = some p) :
    ∃ a b c, s.drop pos = a ++ b :: c ∧ p = pos + a.length ∧ b ∈ set ∧ ∀ x ∈ a, x ∉ set := by
  simp only [findFirstOf, Option.map_eq_some_iff] at h
  obtain ⟨i, hi, rfl⟩ := h
  rw [List.findIdx?_eq_some_iff_getElem] at hi
  obtain ⟨hlt, hmem, hbefore⟩ := hi
  refine ⟨(s.drop pos).take i, (s.drop pos)[i], (s.drop pos).drop (i + 1), ?_, ?_, ?_, ?_⟩
  · rw [List.getElem_cons_drop, List.take_append_drop]
  · simp only [List.length_take]; omega
  · simpa using hmem
  · intro x hx
    obtain ⟨j, hj, rfl⟩ := List.mem_iff_getElem.mp hx
    simp only [List.length_take] at hj
    have := hbefore j (by omega)
    simpa using this

/-- A hit lies inside the string. -/
lemma findFirstOf_lt {s set : Str} {pos p : ℕ} (h : findFirstOf s set pos = some p) :
    pos ≤ p ∧ p < s.length := by
  obtain ⟨a, b, c, hd, rfl, -, -⟩ := findFirstOf_eq_some h
  have := congrArg List.length hd
  simp only [List.length_drop, List.length_append, List.length_cons] at this
  omega

/-- Where the search stops, given how the string splits at the start position. -/
lemma findFirstOf_append {a c set : Str} {b : UInt8} (ha : ∀ x ∈ a, x ∉ set) (hb : b ∈ set)
    (pre : Str) :
    findFirstOf (pre ++ (a ++ b :: c)) set pre.length = some (pre.length + a.length) := by
  simp only [findFirstOf, List.drop_left, Option.map_eq_some_iff]
  refine ⟨a.length, ?_, rfl⟩
  rw [List.findIdx?_eq_some_iff_getElem]
  refine ⟨by simp, by simpa using hb, ?_⟩
  intro j hj
  rw [List.getElem_append_left hj]
  simpa using ha _ (List.getElem_mem hj)

lemma findFirstOf_zero {a c set : Str} {b : UInt8} (ha : ∀ x ∈ a, x ∉ set) (hb : b ∈ set) :
    findFirstOf (a ++ b :: c) set 0 = some a.length := by
  have h := findFirstOf_append (c := c) ha hb ([] : Str)
  simpa using h

/-- Searching a suffix, from a position inside it. -/
lemma findFirstOf_shift (pre s set : Str) (pos : ℕ) :
    findFirstOf (pre ++ s) set (pre.length + pos) = (findFirstOf s set pos).map (pre.length + ·) := by
  simp only [findFirstOf, Option.map_map]
  rw [List.drop_append, List.drop_of_length_le (by omega), List.nil_append, Nat.add_sub_cancel_left]
  congr 1
  funext i
  simp [Nat.add_assoc]

/-- A search from past the end finds nothing. -/
lemma findFirstOf_of_le {s set : Str} {pos : ℕ} (h : s.length ≤ pos) :
    findFirstOf s set pos = none := by
  simp [findFirstOf, List.drop_of_length_le h]

/-- A search in the first `k` bytes finds what a search in all of them does, if it lies there. -/
lemma findFirstOf_take (s set : Str) (pos k : ℕ) :
    findFirstOf (s.take k) set pos = (findFirstOf s set pos).filter fun p => decide (p < k) := by
  rw [findFirstOf, findFirstOf, List.drop_take, List.findIdx?_take]
  cases (s.drop pos).findIdx? fun b => decide (b ∈ set) with
  | none => rfl
  | some i =>
      have hiff : i < k - pos ↔ pos + i < k := by omega
      simp [Option.guard, Option.filter, hiff]

/-- A search over bytes that avoid the set finds nothing. -/
lemma findFirstOf_eq_none {s set : Str} {pos : ℕ} (h : ∀ x ∈ s.drop pos, x ∉ set) :
    findFirstOf s set pos = none := by
  simp only [findFirstOf, Option.map_eq_none_iff, List.findIdx?_eq_none_iff]
  intro x hx
  simpa using h x hx

/-! ## C strings and numbers -/

/-- `s.c_str()`, as the C functions see it: the bytes before the first NUL. -/
def cstr (s : Str) : Str := s.takeWhile fun b => decide (b ≠ 0)

/-- `isspace` in the C locale. -/
def isSpace (b : UInt8) : Bool := b = 32 || (9 ≤ b && b ≤ 13)

/-- `isdigit`. -/
def isDigit (b : UInt8) : Bool := 48 ≤ b && b ≤ 57

/-- The number that a run of ASCII digits spells. -/
def digitsVal (ds : Str) : ℕ := Nat.ofDigitChars 10 (ds.map fun b => Char.ofNat b.toNat) 0

/-- Sign and leading digits of a C number, after its white space. -/
def signedDigits (s : Str) : Bool × ℕ :=
  match (cstr s).dropWhile isSpace with
  | [] => (false, 0)
  | b :: rest =>
      if b = 45 then (true, digitsVal (rest.takeWhile isDigit))
      else if b = 43 then (false, digitsVal (rest.takeWhile isDigit))
      else (false, digitsVal ((b :: rest).takeWhile isDigit))

/-- The value of a 64-bit `long` result, which saturates. -/
def strtol (s : Str) : ℤ :=
  let (neg, n) := signedDigits s
  if neg then max (-2 ^ 63) (-(n : ℤ)) else min (2 ^ 63 - 1) n

/-- A conversion to `int`: the low 32 bits, read as two's complement. -/
def toInt32 (x : ℤ) : ℤ := Int.bmod x (2 ^ 32)

/-- A conversion to `uint64_t` or `size_t`. -/
def toUInt64 (x : ℤ) : ℕ := (x % 2 ^ 64).toNat

/-- `atoi`: `strtol` converted to `int`. -/
def atoi (s : Str) : ℤ := toInt32 (strtol s)

/-- `strtoull(s, NULL, 10)`: saturating, and a minus sign negates modulo `2 ^ 64`. -/
def strtoull (s : Str) : ℕ :=
  let (neg, n) := signedDigits s
  if 2 ^ 64 ≤ n then 2 ^ 64 - 1 else if neg then toUInt64 (-(n : ℤ)) else n

/-- `%lu`, `%llu`, `%u`, and `%d` of a non-negative number. -/
def decimal (n : ℕ) : Str := (Nat.toDigits 10 n).map fun c => UInt8.ofNat c.toNat

/-- `%d` of any `int`. -/
def decimalInt (x : ℤ) : Str := if x < 0 then 45 :: decimal x.natAbs else decimal x.natAbs

/-- What `snprintf(buf, size, ...)` leaves in `buf`: the text, cut to leave room for the
terminating NUL. -/
def snprintf (size : ℕ) (text : Str) : Str := text.take (size - 1)

/-! ## The readers undo the printer -/

lemma decimal_ne_nil (n : ℕ) : decimal n ≠ [] := by
  simp [decimal]

/-- Every byte that `%lu` prints is a digit. -/
lemma isDigit_of_mem_decimal {n : ℕ} {b : UInt8} (h : b ∈ decimal n) : isDigit b = true := by
  simp only [decimal, List.mem_map] at h
  obtain ⟨c, hc, rfl⟩ := h
  have hd := Nat.isDigit_of_mem_toDigits (by decide) (by decide) hc
  simp only [Char.isDigit, Bool.and_eq_true, decide_eq_true_eq, ge_iff_le, UInt32.le_iff_toNat_le]
    at hd
  have hlo : 48 ≤ c.toNat := hd.1
  have hhi : c.toNat ≤ 57 := hd.2
  simp only [isDigit, Bool.and_eq_true, decide_eq_true_eq, UInt8.le_iff_toNat_le,
    UInt8.toNat_ofNat']
  have h48 : (48 : UInt8).toNat = 48 := rfl
  have h57 : (57 : UInt8).toNat = 57 := rfl
  omega

/-- A digit is none of the bytes that delimit, sign or pad a number. -/
lemma isDigit_iff {b : UInt8} : isDigit b = true ↔ 48 ≤ b.toNat ∧ b.toNat ≤ 57 := by
  simp only [isDigit, Bool.and_eq_true, decide_eq_true_eq, UInt8.le_iff_toNat_le]
  rfl

/-- The number of digits of `n`. -/
lemma decimal_length_le_iff {n k : ℕ} (hk : 0 < k) : (decimal n).length ≤ k ↔ n < 10 ^ k := by
  simp only [decimal, List.length_map]
  exact Nat.length_toDigits_le_iff (by decide) hk

lemma decimal_length_pos (n : ℕ) : 0 < (decimal n).length :=
  List.length_pos_of_ne_nil (decimal_ne_nil n)

/-- All digits of a number but its last one. -/
lemma take_decimal {n k : ℕ} (hk : 10 ^ k ≤ n) (hlt : n < 10 ^ (k + 1)) (hpos : 0 < k) :
    (decimal n).take k = decimal (n / 10) := by
  have hten : 10 ≤ n := (Nat.pow_le_pow_right (by decide) hpos).trans hk
  have hlen : ((Nat.toDigits 10 (n / 10)).map fun c => UInt8.ofNat c.toNat).length = k := by
    have hle : (decimal (n / 10)).length ≤ k :=
      (decimal_length_le_iff hpos).mpr (by rw [pow_succ] at hlt; omega)
    have hlow : ¬ (decimal n).length ≤ k := fun h =>
      absurd ((decimal_length_le_iff hpos).mp h) (by omega)
    have hsplit : (decimal n).length = (decimal (n / 10)).length + 1 := by
      simp only [decimal, List.length_map, Nat.toDigits_of_base_le (by decide : 1 < 10) hten,
        List.length_append, List.length_singleton]
    have hself : (decimal (n / 10)).length = k := by omega
    exact hself
  rw [decimal, Nat.toDigits_of_base_le (by decide) hten, List.map_append, List.take_left' hlen]
  rfl

lemma digitsVal_decimal (n : ℕ) : digitsVal (decimal n) = n := by
  have hback : (decimal n).map (fun b => Char.ofNat b.toNat) = Nat.toDigits 10 n := by
    simp only [decimal, List.map_map]
    conv => rhs; rw [← List.map_id (Nat.toDigits 10 n)]
    refine List.map_congr_left fun c hc => ?_
    have hd := Nat.isDigit_of_mem_toDigits (by decide) (by decide) hc
    simp only [Char.isDigit, Bool.and_eq_true, decide_eq_true_eq, ge_iff_le,
      UInt32.le_iff_toNat_le] at hd
    have hhi : c.toNat ≤ 57 := hd.2
    have hmod : c.toNat % 256 = c.toNat := by omega
    simp [UInt8.toNat_ofNat', hmod]
  rw [digitsVal, hback, Nat.ofDigitChars_ten_toDigits]

/-- Digits spell a number with at most that many digits. -/
lemma digitsVal_lt {ds : Str} (hds : ∀ b ∈ ds, isDigit b = true) :
    digitsVal ds < 10 ^ ds.length := by
  induction ds using List.reverseRecOn with
  | nil => simp [digitsVal]
  | append_singleton ds b ih =>
      have hb := isDigit_iff.mp (hds b (by simp))
      have hlt := ih fun x hx => hds x (by simp [hx])
      have hval : digitsVal (ds ++ [b]) = 10 * digitsVal ds + (b.toNat - 48) := by
        have hchar : (Char.ofNat b.toNat).toNat = b.toNat := by
          have hv : b.toNat.isValidChar := Or.inl (by omega)
          rw [Char.ofNat, dif_pos hv]
          rfl
        rw [digitsVal, List.map_append, Nat.ofDigitChars_append, List.map_singleton,
          Nat.ofDigitChars_cons, hchar]
        rfl
      rw [hval, List.length_append, List.length_singleton, pow_succ]
      omega

lemma cstr_append {s : Str} (h : 0 ∉ s) (r : Str) : cstr (s ++ r) = s ++ cstr r := by
  refine List.takeWhile_append_of_pos fun b hb => ?_
  simp only [ne_eq, decide_eq_true_eq]
  rintro rfl
  exact h hb

/-- A string without NUL survives `c_str()`. -/
lemma cstr_eq_self {s : Str} (h : 0 ∉ s) : cstr s = s := by
  simpa [cstr] using cstr_append h []

lemma length_cstr_le (s : Str) : (cstr s).length ≤ s.length :=
  (List.takeWhile_sublist _).length_le

lemma zero_notMem_cstr (s : Str) : 0 ∉ cstr s := by
  intro h
  simpa using List.mem_takeWhile_imp h

/-- A text with a NUL goes on behind its first one. -/
lemma cstr_split : ∀ {s : Str}, 0 ∈ s → ∃ t, s = cstr s ++ 0 :: t
  | b :: s, h => by
      by_cases hb : b = 0
      · subst hb
        exact ⟨s, rfl⟩
      · obtain ⟨t, ht⟩ := cstr_split ((List.mem_cons.mp h).resolve_left (Ne.symm hb))
        exact ⟨t, by rw [cstr, List.takeWhile_cons_of_pos (by simpa using hb), List.cons_append,
          ← cstr, ← ht]⟩

lemma zero_notMem_decimal (n : ℕ) : 0 ∉ decimal n := by
  intro h
  have := isDigit_iff.mp (isDigit_of_mem_decimal h)
  simp at this

/-- What the number readers skip or interpret before a number is no digit. -/
lemma isDigit_sign {d : UInt8} (hd : isDigit d = true) : isSpace d = false ∧ d ≠ 45 ∧ d ≠ 43 := by
  have hd := isDigit_iff.mp hd
  refine ⟨?_, by rintro rfl; simp at hd, by rintro rfl; simp at hd⟩
  simp only [isSpace, Bool.or_eq_false_iff, decide_eq_false_iff_not, Bool.and_eq_false_iff,
    UInt8.le_iff_toNat_le]
  refine ⟨by rintro rfl; simp at hd, Or.inr ?_⟩
  have h13 : (13 : UInt8).toNat = 13 := rfl
  omega

/-- **Reading digits.**  Whatever follows them, as long as it is no digit. -/
lemma signedDigits_append {ds r : Str} (hds : ∀ b ∈ ds, isDigit b = true) (hne : ds ≠ [])
    (hr : ∀ b ∈ r.head?, isDigit b = false) :
    signedDigits (ds ++ r) = (false, digitsVal ds) := by
  have hz : 0 ∉ ds := fun h => absurd (hds 0 h) (by decide)
  have htake : (ds ++ cstr r).takeWhile isDigit = ds := by
    rw [List.takeWhile_append_of_pos hds]
    cases r with
    | nil => simp [cstr]
    | cons x r =>
        by_cases hx : x = 0
        · simp [cstr, hx]
        · simp [cstr, hx, hr x (by simp)]
  obtain ⟨d, ds', rfl⟩ := List.exists_cons_of_ne_nil hne
  obtain ⟨hsp, h45, h43⟩ := isDigit_sign (hds d (by simp))
  rw [signedDigits, cstr_append hz]
  simp only [List.cons_append, List.dropWhile_cons, hsp, Bool.false_eq_true, if_false, h45, h43]
  rw [← List.cons_append, htake]

/-- Reading a printed number. -/
lemma signedDigits_decimal_append {n : ℕ} {r : Str} (hr : ∀ b ∈ r.head?, isDigit b = false) :
    signedDigits (decimal n ++ r) = (false, n) := by
  rw [signedDigits_append (fun b hb => isDigit_of_mem_decimal hb) (decimal_ne_nil n) hr,
    digitsVal_decimal]

lemma toInt32_of_bounds {x : ℤ} (hlo : -2 ^ 31 ≤ x) (hhi : x < 2 ^ 31) : toInt32 x = x := by
  unfold toInt32
  refine Int.bmod_eq_of_le ?_ ?_ <;> norm_num <;> omega

/-- `atoi` on the digits of a number that fits an `int`. -/
lemma atoi_of_signedDigits {s : Str} {n : ℕ} (hn : n < 2 ^ 31) (h : signedDigits s = (false, n)) :
    atoi s = n := by
  rw [atoi, strtol, h]
  have hmin : min (2 ^ 63 - 1) (n : ℤ) = n := by omega
  simp only [Bool.false_eq_true, if_false, hmin]
  exact toInt32_of_bounds (by omega) (by omega)

lemma atoi_decimal_append {n : ℕ} (hn : n < 2 ^ 31) {r : Str}
    (hr : ∀ b ∈ r.head?, isDigit b = false) : atoi (decimal n ++ r) = n :=
  atoi_of_signedDigits hn (signedDigits_decimal_append hr)

/-- `atoi` undoes `%lu` on everything that fits an `int`. -/
lemma atoi_decimal {n : ℕ} (hn : n < 2 ^ 31) : atoi (decimal n) = n := by
  simpa using atoi_decimal_append hn (r := []) (by simp)

/-- An `int` is what `atoi` returns. -/
lemma atoi_lt (s : Str) : atoi s < 2 ^ 31 := by
  have := Int.bmod_lt (x := strtol s) (show 0 < 2 ^ 32 by decide)
  unfold atoi toInt32
  omega

lemma neg_le_atoi (s : Str) : -2 ^ 31 ≤ atoi s := by
  have := Int.le_bmod (x := strtol s) (show 0 < 2 ^ 32 by decide)
  unfold atoi toInt32
  omega

/-- Beyond a `long`, `atoi` gives the low bits of the largest one. -/
lemma atoi_decimal_large {n : ℕ} (hn : 2 ^ 63 ≤ n) : atoi (decimal n) = -1 := by
  have hdigits : signedDigits (decimal n) = (false, n) := by
    simpa using signedDigits_decimal_append (n := n) (r := []) (by simp)
  have hmin : min (2 ^ 63 - 1) (n : ℤ) = 2 ^ 63 - 1 := by omega
  rw [atoi, strtol, hdigits]
  simp only [Bool.false_eq_true, if_false, hmin]
  decide

/-- The last digits of a number spell less. -/
lemma digitsVal_drop_lt {n p : ℕ} (hn : 0 < n) (hp : 0 < p) : digitsVal ((decimal n).drop p) < n := by
  have hdigits : ∀ b ∈ (decimal n).drop p, isDigit b = true := fun b hb =>
    isDigit_of_mem_decimal (List.mem_of_mem_drop hb)
  have hlt := digitsVal_lt hdigits
  rw [List.length_drop] at hlt
  rcases Nat.eq_zero_or_pos ((decimal n).length - p) with hzero | hpos
  · rw [hzero, pow_zero] at hlt
    omega
  · have hle : 10 ^ ((decimal n).length - p) ≤ n := by
      by_contra hcon
      have hlen : (decimal n).length ≤ (decimal n).length - p :=
        (decimal_length_le_iff hpos).mpr (by omega)
      omega
    omega

lemma atoi_drop_decimal {n : ℕ} (hn : n < 2 ^ 31) (p : ℕ) :
    atoi ((decimal n).drop p) = digitsVal ((decimal n).drop p) := by
  have hdigits : ∀ b ∈ (decimal n).drop p, isDigit b = true := fun b hb =>
    isDigit_of_mem_decimal (List.mem_of_mem_drop hb)
  by_cases hnil : (decimal n).drop p = []
  · rw [hnil]
    rfl
  · have hsmall : digitsVal ((decimal n).drop p) < 2 ^ 31 := by
      rcases Nat.eq_zero_or_pos p with rfl | hp
      · rwa [List.drop_zero, digitsVal_decimal]
      · rcases Nat.eq_zero_or_pos n with rfl | hpos
        · exact absurd (List.drop_of_length_le (by exact hp)) hnil
        · exact (digitsVal_drop_lt hpos hp).trans hn
    have hread := signedDigits_append (r := []) hdigits hnil (by simp)
    rw [List.append_nil] at hread
    exact atoi_of_signedDigits hsmall hread

/-- `atoi` undoes `%d`. -/
lemma atoi_decimalInt {x : ℤ} (hlo : -2 ^ 31 ≤ x) (hhi : x < 2 ^ 31) :
    atoi (decimalInt x) = x := by
  by_cases hx : x < 0
  · rw [decimalInt, if_pos hx, atoi, strtol, signedDigits]
    have hc : cstr (45 :: decimal x.natAbs) = 45 :: decimal x.natAbs :=
      cstr_eq_self (by simp [zero_notMem_decimal])
    have htake : (decimal x.natAbs).takeWhile isDigit = decimal x.natAbs :=
      List.takeWhile_eq_self_iff.mpr fun b hb => isDigit_of_mem_decimal hb
    rw [hc, List.dropWhile_cons_of_neg (by decide)]
    simp only [if_true, htake, digitsVal_decimal]
    have hmax : max (-2 ^ 63) (-(x.natAbs : ℤ)) = x := by omega
    rw [hmax]
    exact toInt32_of_bounds hlo hhi
  · rw [decimalInt, if_neg hx, atoi_decimal (by omega)]
    omega

/-- `strtoull` undoes `%llu`. -/
lemma strtoull_decimal_append {n : ℕ} (hn : n < 2 ^ 64) {r : Str}
    (hr : ∀ b ∈ r.head?, isDigit b = false) : strtoull (decimal n ++ r) = n := by
  rw [strtoull, signedDigits_decimal_append hr]
  simp only [Bool.false_eq_true, if_false]
  exact if_neg (by omega)

/-- A text of digits reads as less than a one followed by as many zeros. -/
lemma strtoull_lt {ds : Str} (hds : ∀ b ∈ ds, isDigit b = true) : strtoull ds < 10 ^ ds.length := by
  cases ds with
  | nil => decide
  | cons d ds =>
      have hsd := signedDigits_append (r := []) hds (List.cons_ne_nil _ _) (by simp)
      have hlt := digitsVal_lt hds
      rw [List.append_nil] at hsd
      rw [strtoull, hsd]
      simp only [Bool.false_eq_true, if_false]
      split_ifs <;> omega

lemma toUInt64_natCast {n : ℕ} (hn : n < 2 ^ 64) : toUInt64 n = n := by
  unfold toUInt64
  omega

/-! ## Buffers -/

/-- `memcpy(dst + offset, src, n)`, with `src` the `n` bytes. -/
def memcpy (dst : Str) (offset : ℕ) (src : Str) : Str :=
  dst.take offset ++ src ++ dst.drop (offset + src.length)

lemma memcpy_length {dst src : Str} {offset : ℕ} (h : offset + src.length ≤ dst.length) :
    (memcpy dst offset src).length = dst.length := by
  simp only [memcpy, List.length_append, List.length_take, List.length_drop]
  omega

/-- The copied bytes. -/
lemma memcpy_self (dst src : Str) {offset : ℕ} (h : offset ≤ dst.length) :
    ((memcpy dst offset src).drop offset).take src.length = src := by
  rw [memcpy, List.append_assoc, List.drop_append, List.drop_of_length_le (by simp)]
  simp [h]

/-- A window below them. -/
lemma memcpy_below (dst src : Str) {offset pos n : ℕ} (h : offset ≤ dst.length)
    (hpos : pos + n ≤ offset) :
    ((memcpy dst offset src).drop pos).take n = (dst.drop pos).take n := by
  have hlen : n ≤ ((dst.take offset).drop pos).length := by
    simp only [List.length_drop, List.length_take]
    omega
  rw [memcpy, List.append_assoc, List.drop_append_of_le_length (by simp; omega),
    List.take_append_of_le_length hlen, List.drop_take, List.take_take]
  congr 1
  omega

/-- Everything above them. -/
lemma memcpy_above (dst src : Str) {offset pos : ℕ} (h : offset + src.length ≤ dst.length)
    (hpos : offset + src.length ≤ pos) : (memcpy dst offset src).drop pos = dst.drop pos := by
  rw [memcpy, List.drop_append, List.drop_of_length_le, List.nil_append, List.drop_drop]
  · congr 1
    simp only [List.length_append, List.length_take]
    omega
  · simp only [List.length_append, List.length_take]
    omega

end Cpp
