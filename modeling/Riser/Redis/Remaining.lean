import Riser.Redis.Resp

/-!
# How many bytes of a value are missing

The parsers of `SET` and `SETEX` return the number of bytes of the value that have not arrived yet.
The declared length goes through four types on the way: `atoi` makes an `int` of it, `rlbytes` is a
`uint64_t`, the difference is narrowed to the `int` that the parser returns, and `remainsize` is a
`uint64_t` again.

`exact_iff` says when that is exact, for all bytes and all declared lengths: **if and only if the
declared length is not negative**.  A negative one is taken for a huge `rlbytes`.  The difference is
then some other number, negative or not, and unless it happens to be an error code, the connection
asks for memory of a wrapped size and `Put` is given `rlbytes` bytes that are not there.
-/

namespace Riser

open Cpp

/-- The token with the declared length of the value. -/
def valueToken : Command → ℕ
  | .setex => 7
  | _ => 5

/-- The declared length, as `atoi` reads it. -/
def declared (c : Command) (data : Str) : ℤ :=
  atoi (((tokens data)[valueToken c]?.getD []).drop 1)

/-- **The arithmetic is exact**: what is there and what is missing make up the declared length.  So the
memory that `CONN_NREAD` asks for is what is missing, and `Put` finds all its bytes in `content`. -/
structure Exact (status : ℤ) (r : GentRedis) : Prop where
  nonneg : 0 ≤ status
  sum : status.toNat + r.content.length = r.rlbytes
  memory : toUInt64 status = status.toNat
  inside : ∀ recont : Str, recont.length = toUInt64 status →
    r.rlbytes ≤ (r.content ++ recont).length

section Arithmetic

variable {x : ℤ} {n : ℕ}

/-- The numbers for a declared length that is not negative. -/
lemma remaining_of_nonneg (hlt : x < 2 ^ 31) (hx : 0 ≤ x) (n : ℕ) :
    toInt32 (toUInt64 x - n : ℕ) = (x.toNat - n : ℕ) ∧ toUInt64 x = x.toNat := by
  have hwide : toUInt64 x = x.toNat := by
    unfold toUInt64
    omega
  refine ⟨?_, hwide⟩
  rw [hwide, toInt32_of_bounds (by omega) (by omega)]

/-- A negative length is huge. -/
lemma toUInt64_of_neg (hlo : -2 ^ 31 ≤ x) (hx : x < 0) : 2 ^ 64 - 2 ^ 31 ≤ toUInt64 x := by
  unfold toUInt64
  omega

end Arithmetic

section Parsers

variable {cfg : Config} {now : ℕ} {v : List Str} {data : Str} {r r' : GentRedis} {status : ℤ}

/-- A status that is no error comes from behind the header. -/
lemma valueParser_body {n lines : ℕ} {marks : Str} {body : ℕ → GentRedis → Parsed}
    (hv : ∀ t ∈ v, Clean t) (hn : 5 ≤ n)
    (h : valueParser n marks lines body cfg v data r = .ok (status, r'))
    (herr : errorText status = none) : ∃ pos r₁, body pos r₁ = .ok (status, r') := by
  have hcode : ∀ {code : ℤ} {r₁ : GentRedis}, errorText code ≠ none →
      (Except.ok (code, r₁) : Parsed) ≠ .ok (status, r') := by
    intro code r₁ hne heq
    exact hne ((Prod.mk.inj (Except.ok.inj heq)).1 ▸ herr)
  by_cases hauth : Authed cfg r
  · rcases valueParser_cases marks lines body data hauth hv hn with
      ⟨-, code, r₁, hrefused, heq⟩ | ⟨pos, -, -, -, heq⟩
    · refine absurd (heq.symm.trans h) (hcode ?_)
      rcases hrefused with rfl | rfl <;> decide
    · exact ⟨pos, _, heq.symm.trans h⟩
  · rw [valueParser, withAuth, if_neg fun hr => hauth (Or.inl hr),
      if_neg fun hnil => hauth (Or.inr hnil)] at h
    exact absurd h (hcode (by decide))

/-- The same, for the two commands. -/
lemma parser_returns {c : Command} (hc : c = .set ∨ c = .setex)
    (h : c.parser cfg now (tokens data) data r = .ok (status, r')) (herr : errorText status = none) :
    ∃ pos, status = toInt32 (toUInt64 (declared c data) - (data.drop pos).length : ℕ) ∧
      r'.content = (data.drop pos).take (toUInt64 (declared c data)) ∧
      r'.rlbytes = toUInt64 (declared c data) := by
  have hv : ∀ t ∈ tokens data, Clean t := fun t ht => clean_of_mem_tokens ht
  have hline : ∀ {line : Str}, (tokens data)[valueToken c]? = some line →
      lengthOf line = toUInt64 (declared c data) := by
    intro line hget
    rw [declared, hget]
    rfl
  rcases hc with rfl | rfl
  · obtain ⟨pos, r₁, hbody⟩ := valueParser_body hv le_rfl h herr
    obtain ⟨line, hget, hst, rfl⟩ := takeContent_spec hv hbody
    rw [← hline hget]
    exact ⟨pos, hst, rfl, rfl⟩
  · obtain ⟨pos, r₁, hbody⟩ := valueParser_body hv (show 5 ≤ 7 by decide) h herr
    obtain ⟨seconds, -, hbody⟩ := bind_eq_ok.mp hbody
    obtain ⟨line, hget, hst, rfl⟩ := takeContent_spec hv hbody
    rw [← hline hget]
    exact ⟨pos, hst, rfl, rfl⟩

/-- **When the arithmetic is exact.**  The bytes fit a `std::string`, and what the parser returns is
not an error code. -/
theorem exact_iff (cfg : Config) (now : ℕ) (r r' : GentRedis) (data : Str) (c : Command) (status : ℤ)
    (hc : c = .set ∨ c = .setex) (hlen : data.length < 2 ^ 63)
    (h : c.parser cfg now (tokens data) data r = .ok (status, r'))
    (herr : errorText status = none) : Exact status r' ↔ 0 ≤ declared c data := by
  obtain ⟨pos, hst, hcont, hrl⟩ := parser_returns hc h herr
  have hlt : declared c data < 2 ^ 31 := atoi_lt _
  have hlo : -2 ^ 31 ≤ declared c data := neg_le_atoi _
  have hrest : (data.drop pos).length ≤ data.length := by
    rw [List.length_drop]
    exact Nat.sub_le ..
  constructor
  · -- what is there and an `int` do not make up the huge number
    intro hexact
    by_contra hneg
    have hhuge := toUInt64_of_neg hlo (by omega)
    have hsmall : status < 2 ^ 31 := hst ▸ toInt32_lt _
    have hsum := hexact.sum
    have hle : r'.content.length ≤ (data.drop pos).length := by
      rw [hcont, List.length_take]
      exact Nat.min_le_right ..
    omega
  · intro hnonneg
    obtain ⟨hnum, hwide⟩ := remaining_of_nonneg hlt hnonneg (data.drop pos).length
    rw [hnum] at hst
    have hlength : r'.content.length = min (declared c data).toNat (data.drop pos).length := by
      rw [hcont, List.length_take, hwide]
    have hmem : toUInt64 status = status.toNat := by
      rw [hst, toUInt64_natCast (by omega), Int.toNat_natCast]
    have hsum : status.toNat + r'.content.length = r'.rlbytes := by
      rw [hrl, hwide, hlength, hst, Int.toNat_natCast]
      omega
    refine ⟨by rw [hst]; exact Int.natCast_nonneg _, hsum, hmem, fun recont hrecont => ?_⟩
    rw [List.length_append, hrecont, hmem]
    omega

end Parsers

/-- A value of five bytes of which three have arrived. -/
def shortSet : Str := lit "*3\r\n$3\r\nset\r\n$1\r\nk\r\n$5\r\nhel"

theorem exact_iff_shortSet :
    ∃ r', Command.set.parser openConfig 0 (tokens shortSet) shortSet newRedis = .ok (2, r') ∧
      Exact 2 r' :=
  ⟨_, rfl, (exact_iff openConfig 0 newRedis _ shortSet .set 2 (Or.inl rfl) (by decide) rfl
    (by decide)).mpr (by decide)⟩

/-- A value of minus ten bytes. -/
def negativeSet : Str := lit "*3\r\n$3\r\nset\r\n$1\r\nk\r\n$-10\r\nhello"

/-- **The parser returns -15**, which is no error code, and asks for `2 ^ 64 - 15` bytes. -/
theorem exact_negativeSet :
    ∃ r', Command.set.parser openConfig 0 (tokens negativeSet) negativeSet newRedis = .ok (-15, r') ∧
      errorText (-15) = none ∧ toUInt64 (-15) = 2 ^ 64 - 15 ∧ ¬ Exact (-15) r' :=
  ⟨_, rfl, by decide, by decide, fun h => absurd h.nonneg (by decide)⟩

end Riser
