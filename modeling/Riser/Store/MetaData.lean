import Riser.Core.CppString

/-!
# The meta record of a key

`GentDb` keeps the values of the keys in one leveldb and, under the same key, a short text with
the data type, the expiry and the store time in a second one.  The text is **positional**: one
digit for the type, a mark (`*` without expiry, `+` with one), ten bytes of expiry, and the store
time from byte twelve on.  Nothing pads or checks the two numbers, so the positions hold exactly
when both have ten digits, which is what `time(NULL)` has from 2001 to 2286.

`metaUnserialize_metaSerialize` is the round trip under that condition.  The readers only use the
expiry, and that comes back whatever the store time looks like (`metaExpire_metaSerialize`).
-/

namespace Riser

open Cpp

/-- `struct metaData`. -/
structure MetaData where
  datatype : ℤ
  expire : ℕ
  store_time : ℕ
  deriving DecidableEq, Repr

/-- `REDIS_EXPIRE_TIME`, which is `LONG_MAX`. -/
def redisExpireTime : ℕ := 2 ^ 63 - 1

/-- `GentDb::MetaSerialize`, with `time(NULL)` as an argument. -/
def metaSerialize (datatype : ℤ) (expire now : ℕ) : Str :=
  if expire = 0 ∨ redisExpireTime < expire then
    snprintf 100 (decimalInt datatype ++ lit "*0000000000" ++ decimal now)
  else
    snprintf 100 (decimalInt datatype ++ lit "+" ++ decimal expire ++ decimal now)

/-- `GentDb::MetaUnserialize`.  A record shorter than twelve bytes throws. -/
def metaUnserialize (str : Str) : Except Fault MetaData := do
  let datatype := atoi (← substr str 0 1)
  let mark ← substr str 1 1
  let expire ←
    if mark = lit "*" then pure 0 else do pure (strtoull (← substr str 2 10))
  let store_time := strtoull (← substr str 12 10)
  return { datatype, expire, store_time }

/-- A clock value or expiry with ten decimal digits. -/
def TenDigit (t : ℕ) : Prop := 10 ^ 9 ≤ t ∧ t < 10 ^ 10

instance (t : ℕ) : Decidable (TenDigit t) := inferInstanceAs (Decidable (_ ∧ _))

lemma TenDigit.decimal_length {t : ℕ} (h : TenDigit t) : (decimal t).length = 10 := by
  have hle : (decimal t).length ≤ 10 := (decimal_length_le_iff (by decide)).mpr h.2
  have hgt : ¬ (decimal t).length ≤ 9 := fun h9 =>
    absurd ((decimal_length_le_iff (by decide)).mp h9) (by have := h.1; omega)
  omega

lemma TenDigit.strtoull_decimal {t : ℕ} (h : TenDigit t) : strtoull (decimal t) = t := by
  have hlt := h.2
  simpa using strtoull_decimal_append (n := t) (by omega) (r := []) (by simp)

lemma decimalInt_of_lt_ten {d : ℕ} (h : d < 10) : decimalInt d = [UInt8.ofNat (48 + d)] := by
  interval_cases d <;> rfl

lemma atoi_digit {d : ℕ} (h : d < 10) : atoi [UInt8.ofNat (48 + d)] = d := by
  rw [← decimalInt_of_lt_ten h]
  exact atoi_decimalInt (by omega) (by omega)

/-- A positional record with ten bytes of expiry text reads back field by field. -/
lemma metaUnserialize_fields {d : ℕ} (hd : d < 10) {mark : UInt8} {e : Str} (he : e.length = 10)
    (t : Str) :
    metaUnserialize (UInt8.ofNat (48 + d) :: mark :: (e ++ t))
      = .ok ⟨d, if mark = 42 then 0 else strtoull e, strtoull (t.take 10)⟩ := by
  have hlen : 12 ≤ (UInt8.ofNat (48 + d) :: mark :: (e ++ t)).length := by
    simp [he]
  have hmark : ([mark] = lit "*") ↔ mark = 42 := by
    simp [lit]
  have htake : (e ++ t).take 10 = e := by rw [← he, List.take_left]
  have hdrop : (e ++ t).drop 10 = t := by rw [← he, List.drop_left]
  simp only [metaUnserialize, substr, hlen, Nat.zero_le, if_true, List.drop_zero,
    (show 1 ≤ 12 by decide).trans hlen, (show 2 ≤ 12 by decide).trans hlen,
    List.take_succ_cons, List.take_zero, List.drop_succ_cons, bind, Except.bind, pure,
    Except.pure, atoi_digit hd, htake, hdrop, hmark]
  split_ifs <;> rfl

/-- The record of a key without expiry. -/
lemma metaSerialize_zero {d : ℕ} (hd : d < 10) (now : ℕ) :
    metaSerialize d 0 now
      = UInt8.ofNat (48 + d) :: 42 :: (lit "0000000000" ++ (decimal now).take 87) := by
  have hlit : lit "*0000000000" = 42 :: lit "0000000000" := by decide
  have hlen : (lit "0000000000").length = 10 := by decide
  rw [metaSerialize, if_pos (Or.inl rfl), snprintf, decimalInt_of_lt_ten hd, hlit]
  simp [List.take_append, hlen]

/-- The record of a key with an expiry. -/
lemma metaSerialize_tenDigit {d e : ℕ} (hd : d < 10) (he : TenDigit e) (now : ℕ) :
    metaSerialize d e now
      = UInt8.ofNat (48 + d) :: 43 :: (decimal e ++ (decimal now).take 87) := by
  have hne : ¬ (e = 0 ∨ redisExpireTime < e) := by
    have := he.1
    have := he.2
    simp only [redisExpireTime]
    omega
  have hplus : lit "+" = [43] := by decide
  rw [metaSerialize, if_neg hne, snprintf, decimalInt_of_lt_ten hd, hplus]
  simp [List.take_append, he.decimal_length]

/-- **Decoding undoes encoding** for a one-digit type, a ten-digit clock, and an expiry that is
absent or has ten digits. -/
theorem metaUnserialize_metaSerialize {d e now : ℕ} (hd : d < 10) (he : e = 0 ∨ TenDigit e)
    (hnow : TenDigit now) :
    metaUnserialize (metaSerialize d e now) = .ok ⟨d, e, now⟩ := by
  have htime : strtoull (((decimal now).take 87).take 10) = now := by
    rw [List.take_take, List.take_of_length_le (by simp [hnow.decimal_length]),
      hnow.strtoull_decimal]
  rcases he with rfl | he
  · rw [metaSerialize_zero hd, metaUnserialize_fields hd (by decide), htime]
    simp
  · rw [metaSerialize_tenDigit hd he, metaUnserialize_fields hd he.decimal_length, htime,
      he.strtoull_decimal]
    simp

/-- The expiry that a meta record decodes to. -/
def metaExpire (m : Str) : Except Fault ℕ := (metaUnserialize m).map (·.expire)

/-- The expiry comes back whatever the clock printed behind it. -/
lemma metaExpire_metaSerialize {d e : ℕ} (hd : d < 10) (he : e = 0 ∨ TenDigit e) (now : ℕ) :
    metaExpire (metaSerialize d e now) = .ok e := by
  rcases he with rfl | he
  · rw [metaExpire, metaSerialize_zero hd, metaUnserialize_fields hd (by decide)]
    simp [Except.map]
  · rw [metaExpire, metaSerialize_tenDigit hd he, metaUnserialize_fields hd he.decimal_length,
      he.strtoull_decimal]
    simp [Except.map]

/-- A record whose expiry decodes has decoded as a whole. -/
lemma exists_of_metaExpire {m : Str} {e : ℕ} (h : metaExpire m = .ok e) :
    ∃ dat, metaUnserialize m = .ok dat ∧ dat.expire = e := by
  unfold metaExpire at h
  cases hm : metaUnserialize m with
  | error f => simp [hm, Except.map] at h
  | ok dat => exact ⟨dat, rfl, by simpa [hm, Except.map] using h⟩

end Riser
