import Riser.Core.CppString

/-!
# RESP values

The values of the Redis serialisation protocol, as bytes, and a reader for them: simple strings,
errors, integers, bulk strings, the null bulk string, and arrays of these.  (Arrays inside arrays,
which the protocol allows as well, are left out.)

The reader takes one value from the front and returns what follows it.  It insists on canonical
numbers, without leading zeros, so that it accepts **exactly** the encodings: `decode_eq_some_iff`.  A
text is then one well-formed value if and only if it is the encoding of one.

A simple string or error is a `Line`, a text without CR and LF: nothing else can be sent as one.
-/

namespace Resp

open Cpp

/-- The end of a line. -/
def eol : Str := [13, 10]

/-- The byte may stand inside a line. -/
def inLine (b : UInt8) : Bool := b ≠ 13 && b ≠ 10

/-- A text without CR and LF. -/
def Line := { s : Str // ∀ b ∈ s, inLine b = true }

/-- A value that is not an array. -/
inductive Scalar where
  | simple (s : Line)
  | error (s : Line)
  | int (x : ℤ)
  | bulk (s : Str)
  | null

inductive Value where
  | scalar (v : Scalar)
  | array (vs : List Scalar)

def Scalar.encode : Scalar → Str
  | .simple s => 43 :: (s.1 ++ eol)
  | .error s => 45 :: (s.1 ++ eol)
  | .int x => 58 :: (decimalInt x ++ eol)
  | .bulk s => 36 :: (decimal s.length ++ eol ++ (s ++ eol))
  | .null => 36 :: (lit "-1" ++ eol)

def Value.encode : Value → Str
  | .scalar v => v.encode
  | .array vs => 42 :: (decimal vs.length ++ eol ++ vs.flatMap Scalar.encode)

/-! ## Lines -/

lemma inLine_of_takeWhile {s : Str} : ∀ b ∈ s.takeWhile inLine, inLine b = true :=
  fun _ => List.mem_takeWhile_imp

/-- The text up to the next line end. -/
def takeLine (s : Str) : Option (Line × Str) :=
  if eol <+: s.dropWhile inLine then
    some (⟨s.takeWhile inLine, inLine_of_takeWhile⟩, (s.dropWhile inLine).drop 2)
  else none

lemma takeWhile_line (l : Line) (s : Str) :
    (l.1 ++ (eol ++ s)).takeWhile inLine = l.1 ∧ (l.1 ++ (eol ++ s)).dropWhile inLine = eol ++ s := by
  rw [List.takeWhile_append_of_pos l.2, List.dropWhile_append_of_pos l.2]
  exact ⟨by simp [eol, inLine], by simp [eol, inLine]⟩

lemma takeLine_eq_some_iff {s rest : Str} {l : Line} :
    takeLine s = some (l, rest) ↔ s = l.1 ++ (eol ++ rest) := by
  unfold takeLine
  constructor
  · intro h
    rw [Option.ite_none_right_eq_some] at h
    obtain ⟨⟨t, ht⟩, h⟩ := h
    obtain ⟨rfl, rfl⟩ := Prod.mk.inj (Option.some.inj h)
    rw [← ht]
    show s = s.takeWhile inLine ++ (eol ++ t)
    rw [ht, List.takeWhile_append_dropWhile]
  · rintro rfl
    obtain ⟨htake, hdrop⟩ := takeWhile_line l rest
    have hpre : eol <+: (l.1 ++ (eol ++ rest)).dropWhile inLine := by
      rw [hdrop]
      exact List.prefix_append eol rest
    rw [if_pos hpre]
    refine congrArg some (Prod.ext (Subtype.ext htake) ?_)
    show ((l.1 ++ (eol ++ rest)).dropWhile inLine).drop 2 = rest
    rw [hdrop]
    rfl

/-! ## Numbers -/

/-- A canonical number. -/
def number (s : Str) : Option ℕ := if decimal (digitsVal s) = s then some (digitsVal s) else none

lemma number_eq_some_iff {s : Str} {n : ℕ} : number s = some n ↔ s = decimal n := by
  unfold number
  rw [Option.ite_none_right_eq_some]
  constructor
  · rintro ⟨h, hn⟩
    rw [← Option.some.inj hn, h]
  · rintro rfl
    rw [digitsVal_decimal]
    exact ⟨rfl, rfl⟩

lemma decimal_inj {m n : ℕ} (h : decimal m = decimal n) : m = n := by
  rw [← digitsVal_decimal m, h, digitsVal_decimal]

/-- A canonical integer. -/
def integer (s : Str) : Option ℤ :=
  let x := if s.head? = some 45 then -(digitsVal s.tail : ℤ) else digitsVal s
  if decimalInt x = s then some x else none

lemma head_decimal_ne (n : ℕ) : (decimal n).head? ≠ some 45 := fun h =>
  absurd (isDigit_of_mem_decimal (List.mem_of_mem_head? (Option.mem_def.mpr h))) (by decide)

lemma integer_eq_some_iff {s : Str} {x : ℤ} : integer s = some x ↔ s = decimalInt x := by
  unfold integer
  rw [Option.ite_none_right_eq_some]
  constructor
  · rintro ⟨h, hx⟩
    rw [← Option.some.inj hx, h]
  · rintro rfl
    have hval : (if (decimalInt x).head? = some 45 then -(digitsVal (decimalInt x).tail : ℤ)
        else digitsVal (decimalInt x)) = x := by
      unfold decimalInt
      by_cases hx : x < 0
      · simp only [if_pos hx, List.head?_cons, if_true, List.tail_cons, digitsVal_decimal]
        omega
      · simp only [if_neg hx, if_neg (head_decimal_ne _), digitsVal_decimal]
        omega
    rw [hval]
    exact ⟨rfl, rfl⟩

lemma inLine_of_isDigit {b : UInt8} (h : isDigit b = true) : inLine b = true := by
  have hb := isDigit_iff.mp h
  have h13 : b ≠ 13 := by rintro rfl; simp at hb
  have h10 : b ≠ 10 := by rintro rfl; simp at hb
  simp [inLine, h13, h10]

/-- A number on a line. -/
def decimalLine (n : ℕ) : Line :=
  ⟨decimal n, fun _ hb => inLine_of_isDigit (isDigit_of_mem_decimal hb)⟩

/-- A number ends where its line does. -/
lemma decimal_eol_inj {m n : ℕ} {s t : Str} (h : decimal m ++ (eol ++ s) = decimal n ++ (eol ++ t)) :
    m = n ∧ s = t := by
  have hm : takeLine (decimal m ++ (eol ++ s)) = some (decimalLine m, s) :=
    takeLine_eq_some_iff.mpr rfl
  have hn : takeLine (decimal m ++ (eol ++ s)) = some (decimalLine n, t) :=
    takeLine_eq_some_iff.mpr h
  obtain ⟨hline, hst⟩ := Prod.mk.inj (Option.some.inj (hm.symm.trans hn))
  exact ⟨decimal_inj (congrArg Subtype.val hline), hst⟩

def decimalIntLine (x : ℤ) : Line := ⟨decimalInt x, by
  unfold decimalInt
  split_ifs
  · rintro b (_ | ⟨_, hb⟩)
    · decide
    · exact inLine_of_isDigit (isDigit_of_mem_decimal hb)
  · exact fun _ hb => inLine_of_isDigit (isDigit_of_mem_decimal hb)⟩

def minusOne : Line := ⟨lit "-1", by decide⟩

/-! ## Reading -/

/-- `n` bytes and a line end. -/
def takeBulk (n : ℕ) (s : Str) : Option (Str × Str) :=
  if n ≤ s.length ∧ eol <+: s.drop n then some (s.take n, (s.drop n).drop 2) else none

lemma takeBulk_eq_some_iff {n : ℕ} {s b rest : Str} :
    takeBulk n s = some (b, rest) ↔ b.length = n ∧ s = b ++ (eol ++ rest) := by
  unfold takeBulk
  constructor
  · intro h
    rw [Option.ite_none_right_eq_some] at h
    obtain ⟨⟨hn, t, ht⟩, h⟩ := h
    obtain ⟨rfl, rfl⟩ := Prod.mk.inj (Option.some.inj h)
    refine ⟨List.length_take_of_le hn, ?_⟩
    rw [← ht]
    show s = s.take n ++ (eol ++ t)
    rw [ht, List.take_append_drop]
  · rintro ⟨rfl, rfl⟩
    simp [eol]

def decodeScalar : Str → Option (Scalar × Str)
  | 43 :: s => (takeLine s).map fun p => (.simple p.1, p.2)
  | 45 :: s => (takeLine s).map fun p => (.error p.1, p.2)
  | 58 :: s => (takeLine s).bind fun p => (integer p.1.1).map fun x => (.int x, p.2)
  | 36 :: s => (takeLine s).bind fun p =>
      if p.1.1 = lit "-1" then some (.null, p.2)
      else (number p.1.1).bind fun n => (takeBulk n p.2).map fun q => (.bulk q.1, q.2)
  | _ => none

/-- **The reader accepts exactly the encodings** of scalars. -/
theorem decodeScalar_eq_some_iff {s rest : Str} {v : Scalar} :
    decodeScalar s = some (v, rest) ↔ s = v.encode ++ rest := by
  constructor
  · intro h
    unfold decodeScalar at h
    split at h
    · rename_i s
      obtain ⟨p, hp, h⟩ := Option.map_eq_some_iff.mp h
      obtain ⟨rfl, rfl⟩ := Prod.mk.inj h
      simp [Scalar.encode, takeLine_eq_some_iff.mp hp]
    · rename_i s
      obtain ⟨p, hp, h⟩ := Option.map_eq_some_iff.mp h
      obtain ⟨rfl, rfl⟩ := Prod.mk.inj h
      simp [Scalar.encode, takeLine_eq_some_iff.mp hp]
    · rename_i s
      obtain ⟨p, hp, h⟩ := Option.bind_eq_some_iff.mp h
      obtain ⟨x, hx, h⟩ := Option.map_eq_some_iff.mp h
      obtain ⟨rfl, rfl⟩ := Prod.mk.inj h
      simp [Scalar.encode, takeLine_eq_some_iff.mp hp, integer_eq_some_iff.mp hx]
    · rename_i s
      obtain ⟨p, hp, h⟩ := Option.bind_eq_some_iff.mp h
      rw [takeLine_eq_some_iff.mp hp]
      split_ifs at h with hnull
      · obtain ⟨rfl, rfl⟩ := Prod.mk.inj (Option.some.inj h)
        simp [Scalar.encode, hnull]
      · obtain ⟨n, hn, h⟩ := Option.bind_eq_some_iff.mp h
        obtain ⟨q, hq, h⟩ := Option.map_eq_some_iff.mp h
        obtain ⟨rfl, rfl⟩ := Prod.mk.inj h
        obtain ⟨hlen, hrest⟩ := takeBulk_eq_some_iff.mp hq
        simp [Scalar.encode, number_eq_some_iff.mp hn, hlen, hrest]
    · cases h
  · rintro rfl
    cases v with
    | simple l =>
        have hl : takeLine (l.1 ++ eol ++ rest) = some (l, rest) := by
          rw [takeLine_eq_some_iff, List.append_assoc]
        simp only [Scalar.encode, List.cons_append, decodeScalar, hl, Option.map_some]
    | error l =>
        have hl : takeLine (l.1 ++ eol ++ rest) = some (l, rest) := by
          rw [takeLine_eq_some_iff, List.append_assoc]
        simp only [Scalar.encode, List.cons_append, decodeScalar, hl, Option.map_some]
    | int x =>
        have hl : takeLine (decimalInt x ++ eol ++ rest) = some (decimalIntLine x, rest) := by
          rw [takeLine_eq_some_iff, List.append_assoc]
          rfl
        have hx : integer (decimalIntLine x).1 = some x := integer_eq_some_iff.mpr rfl
        simp only [Scalar.encode, List.cons_append, decodeScalar, hl, Option.bind_some, hx,
          Option.map_some]
    | bulk b =>
        have hl : takeLine (decimal b.length ++ eol ++ (b ++ eol) ++ rest)
            = some (decimalLine b.length, b ++ (eol ++ rest)) := by
          rw [takeLine_eq_some_iff]
          simp [decimalLine]
        have hnull : (decimalLine b.length).1 ≠ lit "-1" := fun h =>
          head_decimal_ne b.length (congrArg List.head? h)
        have hn : number (decimalLine b.length).1 = some b.length := number_eq_some_iff.mpr rfl
        have hb : takeBulk b.length (b ++ (eol ++ rest)) = some (b, rest) :=
          takeBulk_eq_some_iff.mpr ⟨rfl, rfl⟩
        simp only [Scalar.encode, List.cons_append, decodeScalar, hl, Option.bind_some, if_neg hnull,
          hn, hb, Option.map_some]
    | null =>
        have hl : takeLine (lit "-1" ++ eol ++ rest) = some (minusOne, rest) := by
          rw [takeLine_eq_some_iff, List.append_assoc]
          rfl
        simp only [Scalar.encode, List.cons_append, decodeScalar, hl, Option.bind_some, minusOne,
          if_true]

/-- Some scalars, one after the other. -/
def decodeMany : ℕ → Str → Option (List Scalar × Str)
  | 0, s => some ([], s)
  | n + 1, s => (decodeScalar s).bind fun p => (decodeMany n p.2).map fun q => (p.1 :: q.1, q.2)

lemma decodeMany_eq_some_iff {n : ℕ} {s rest : Str} {vs : List Scalar} :
    decodeMany n s = some (vs, rest) ↔ vs.length = n ∧ s = vs.flatMap Scalar.encode ++ rest := by
  induction n generalizing s vs with
  | zero =>
      rw [decodeMany, Option.some_inj, Prod.mk.injEq, List.length_eq_zero_iff, eq_comm]
      refine and_congr_right ?_
      rintro rfl
      rfl
  | succ n ih =>
      rw [decodeMany, Option.bind_eq_some_iff]
      constructor
      · rintro ⟨⟨v, s'⟩, hv, h⟩
        obtain ⟨⟨vs', rest'⟩, hvs, h⟩ := Option.map_eq_some_iff.mp h
        obtain ⟨rfl, rfl⟩ := Prod.mk.inj h
        obtain ⟨hlen, rfl⟩ : vs'.length = n ∧ s' = vs'.flatMap Scalar.encode ++ rest' := ih.mp hvs
        refine ⟨by simp [hlen], ?_⟩
        rw [decodeScalar_eq_some_iff.mp hv, List.flatMap_cons, List.append_assoc]
      · rintro ⟨hlen, rfl⟩
        obtain ⟨v, vs, rfl⟩ := List.exists_cons_of_length_eq_add_one hlen
        refine ⟨(v, vs.flatMap Scalar.encode ++ rest), ?_, ?_⟩
        · rw [decodeScalar_eq_some_iff, List.flatMap_cons, List.append_assoc]
        · rw [ih.mpr ⟨by simpa using hlen, rfl⟩]
          rfl

def decode : Str → Option (Value × Str)
  | 42 :: s => (takeLine s).bind fun p =>
      (number p.1.1).bind fun n => (decodeMany n p.2).map fun q => (.array q.1, q.2)
  | s => (decodeScalar s).map fun p => (.scalar p.1, p.2)

/-- No scalar starts like an array. -/
lemma head_encode_ne (v : Scalar) : v.encode.head? ≠ some 42 := by
  cases v <;> simp [Scalar.encode]

/-- **The reader accepts exactly the encodings.** -/
theorem decode_eq_some_iff {s rest : Str} {v : Value} :
    decode s = some (v, rest) ↔ s = v.encode ++ rest := by
  constructor
  · intro h
    unfold decode at h
    split at h
    · rename_i s
      obtain ⟨p, hp, h⟩ := Option.bind_eq_some_iff.mp h
      obtain ⟨n, hn, h⟩ := Option.bind_eq_some_iff.mp h
      obtain ⟨q, hq, h⟩ := Option.map_eq_some_iff.mp h
      obtain ⟨rfl, rfl⟩ := Prod.mk.inj h
      obtain ⟨rfl, hrest⟩ := decodeMany_eq_some_iff.mp hq
      simp [Value.encode, takeLine_eq_some_iff.mp hp, number_eq_some_iff.mp hn, hrest]
    · obtain ⟨p, hp, h⟩ := Option.map_eq_some_iff.mp h
      obtain ⟨rfl, rfl⟩ := Prod.mk.inj h
      exact decodeScalar_eq_some_iff.mp hp
  · rintro rfl
    cases v with
    | scalar v =>
        have hv : decodeScalar (v.encode ++ rest) = some (v, rest) :=
          decodeScalar_eq_some_iff.mpr rfl
        simp only [Value.encode]
        unfold decode
        split
        · rename_i s heq
          have hne : v.encode ≠ [] := by cases v <;> simp [Scalar.encode]
          have hhead : (v.encode ++ rest).head? = some 42 := by rw [heq, List.head?_cons]
          rw [List.head?_append_of_ne_nil _ hne] at hhead
          exact absurd hhead (head_encode_ne v)
        · rw [hv]
          rfl
    | array vs =>
        have hl : takeLine (decimal vs.length ++ eol ++ vs.flatMap Scalar.encode ++ rest)
            = some (decimalLine vs.length, vs.flatMap Scalar.encode ++ rest) := by
          rw [takeLine_eq_some_iff]
          simp [decimalLine]
        have hn : number (decimalLine vs.length).1 = some vs.length := number_eq_some_iff.mpr rfl
        have hvs : decodeMany vs.length (vs.flatMap Scalar.encode ++ rest) = some (vs, rest) :=
          decodeMany_eq_some_iff.mpr ⟨rfl, rfl⟩
        simp only [Value.encode, List.cons_append, decode, hl, Option.bind_some, hn, hvs,
          Option.map_some]

end Resp
