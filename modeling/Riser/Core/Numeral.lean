import Riser.Core.CppString

/-!
# Decimal numerals and `strtol`

What `strtol` reports besides its value: how far it has read (`endptr`), and whether the number is out of
the range of a `long` (`ERANGE`).

A `Numeral` is a non-empty run of digits with an optional sign.  `strtol` reads all of it
(`Numeral.strtolEnd_text`), complains exactly if its value is no `long` (`Numeral.strtolErange_text`),
and otherwise returns it (`Numeral.strtol_text`).
-/

namespace Cpp

/-- What is left of a C number behind its white space and its sign. -/
def unsignedPart (s : Str) : Str :=
  match (cstr s).dropWhile isSpace with
  | [] => []
  | b :: rest => if b = 45 ∨ b = 43 then rest else b :: rest

/-- `endptr` of `strtol`: the text behind the number, or `none` where there is no digit and `endptr` is the
start of the text. -/
def strtolEnd (s : Str) : Option Str :=
  if (unsignedPart s).takeWhile isDigit = [] then none
  else some ((unsignedPart s).dropWhile isDigit)

/-- `strtol` sets `errno` to `ERANGE`. -/
def strtolErange (s : Str) : Prop :=
  if (signedDigits s).1 then 2 ^ 63 < (signedDigits s).2 else 2 ^ 63 ≤ (signedDigits s).2

instance (s : Str) : Decidable (strtolErange s) := inferInstanceAs (Decidable (ite _ _ _))

/-- The sign of a numeral, as it is written. -/
inductive Sign where
  | none
  | plus
  | minus
  deriving DecidableEq, Repr

def Sign.text : Sign → Str
  | .none => []
  | .plus => lit "+"
  | .minus => lit "-"

/-- A decimal numeral. -/
structure Numeral where
  sign : Sign
  digits : Str
  ne : digits ≠ []
  isDigit : ∀ b ∈ digits, isDigit b = true

namespace Numeral

def text (n : Numeral) : Str := n.sign.text ++ n.digits

/-- The number that it stands for. -/
def value (n : Numeral) : ℤ := if n.sign = .minus then -(digitsVal n.digits : ℤ) else digitsVal n.digits

variable (n : Numeral)

lemma zero_notMem_text : 0 ∉ n.text := by
  intro h
  rcases List.mem_append.mp h with h | h
  · cases hs : n.sign <;> simp [hs, Sign.text, lit] at h
  · exact absurd (n.isDigit 0 h) (by decide)

lemma text_ne_nil : n.text ≠ [] := by
  simp [text, n.ne]

/-- The white space before a numeral: there is none. -/
lemma dropWhile_cstr_text : (cstr n.text).dropWhile isSpace = n.text := by
  rw [cstr_eq_self n.zero_notMem_text, text]
  cases n.sign with
  | plus => rfl
  | minus => rfl
  | none =>
      obtain ⟨d, ds, hds⟩ := List.exists_cons_of_ne_nil n.ne
      have hd := isDigit_sign (n.isDigit d (by simp [hds]))
      rw [hds]
      exact List.dropWhile_cons_of_neg (by simp [hd.1])

lemma unsignedPart_text : unsignedPart n.text = n.digits := by
  rw [unsignedPart, n.dropWhile_cstr_text, text]
  cases n.sign with
  | plus => rfl
  | minus => rfl
  | none =>
      obtain ⟨d, ds, hds⟩ := List.exists_cons_of_ne_nil n.ne
      obtain ⟨-, h45, h43⟩ := isDigit_sign (n.isDigit d (by simp [hds]))
      simp [Sign.text, hds, h45, h43]

lemma takeWhile_digits : n.digits.takeWhile Cpp.isDigit = n.digits :=
  List.takeWhile_eq_self_iff.mpr n.isDigit

lemma signedDigits_text :
    signedDigits n.text = (decide (n.sign = .minus), digitsVal n.digits) := by
  have htake := n.takeWhile_digits
  rw [signedDigits, n.dropWhile_cstr_text, text]
  cases n.sign with
  | plus =>
      show (false, digitsVal (n.digits.takeWhile Cpp.isDigit)) = _
      rw [htake]
      rfl
  | minus =>
      show (true, digitsVal (n.digits.takeWhile Cpp.isDigit)) = _
      rw [htake]
      rfl
  | none =>
      obtain ⟨d, ds, hds⟩ := List.exists_cons_of_ne_nil n.ne
      obtain ⟨-, h45, h43⟩ := isDigit_sign (n.isDigit d (by simp [hds]))
      rw [hds] at htake ⊢
      simp only [Sign.text, List.nil_append, h45, h43, if_false, htake, reduceCtorEq, decide_false]

/-- **`strtol` reads a numeral to its end.** -/
lemma strtolEnd_text : strtolEnd n.text = some [] := by
  have hdrop : n.digits.dropWhile Cpp.isDigit = [] := List.dropWhile_eq_nil_iff.mpr n.isDigit
  rw [strtolEnd, n.unsignedPart_text, n.takeWhile_digits, if_neg n.ne, hdrop]

/-- **It complains about what is no `long`**, and about nothing else. -/
lemma strtolErange_text : strtolErange n.text ↔ n.value < -2 ^ 63 ∨ 2 ^ 63 ≤ n.value := by
  rw [strtolErange, n.signedDigits_text, value]
  by_cases hs : n.sign = .minus
  · simp only [hs, decide_true, if_true]
    omega
  · simp only [hs, decide_false, Bool.false_eq_true, if_false]
    omega

lemma strtol_text (h : ¬ strtolErange n.text) : strtol n.text = n.value := by
  rw [strtolErange_text] at h
  rw [strtol, n.signedDigits_text]
  rw [value] at h ⊢
  by_cases hs : n.sign = .minus
  · simp only [hs, decide_true, if_true] at h ⊢
    omega
  · simp only [hs, decide_false, Bool.false_eq_true, if_false] at h ⊢
    omega

end Numeral

end Cpp
