import Riser.Core.CppString

/-!
# `repinfo`: what the master remembers of a slave across a restart

One slot of the mapped file `REPLICATION_INFO` is 71 bytes: a digit for `available`, ten bytes of
`ser_time` (the last push), ten of `rep_time` (the last acknowledged pop), and the slave's name.
An object keeps the numbers in memory and writes each change through to the mapped bytes `head`.

**The numbers do not survive as they are.**  `set` prints into a buffer of `ln` bytes, one of which
is the terminating NUL: of a ten-digit time the file gets the first nine digits and a NUL.
`stamp` is that prefix as a number and `init_set_ser_time`, `init_set_rep_time` say that it is what
a restart reads back.  The reader copies ten bytes into an array of eleven and leaves the last one
as it was, so a field of ten digits runs on into whatever the stack holds there; `init` takes those
bytes as an argument.
-/

namespace Riser

open Cpp

/-- `SLAVE_NAME_SIZE`. -/
def slaveNameSize : ℕ := 50

/-- `class repinfo`: the fields, and the mapped bytes that `head` points to. -/
structure RepInfo where
  available : ℕ
  ser_time : ℕ
  rep_time : ℕ
  name : Str
  head : Str
  deriving DecidableEq

namespace RepInfo

/-- The field names that `set` knows. -/
inductive Field where
  | ser_time
  | rep_time
  | available
  deriving DecidableEq

/-- Where the field lies in the slot. -/
def Field.offset : Field → ℕ
  | .ser_time => 1
  | .rep_time => 11
  | .available => 0

/-- Its length, which is also the size `set` gives to `snprintf`. -/
def Field.ln : Field → ℕ
  | .ser_time => 10
  | .rep_time => 10
  | .available => 1

/-- The first `ln` bytes of the zeroed `buf[12]` after `snprintf(buf, ln, "%llu", val)`. -/
def setBuf (ln val : ℕ) : Str := (snprintf ln (decimal val) ++ List.replicate 12 0).take ln

/-- `repinfo::set(fieldname, val)`. -/
def set (i : RepInfo) (f : Field) (val : ℕ) : RepInfo :=
  let i := match f with
    | .ser_time => { i with ser_time := val % 2 ^ 32 }
    | .rep_time => { i with rep_time := val % 2 ^ 32 }
    | .available => { i with available := val % 2 ^ 32 }
  { i with head := memcpy i.head f.offset (setBuf f.ln val) }

/-- The text of a time in `repinfo::tostring`. -/
def timeText (t : ℕ) : Str := if t = 0 then lit "0000000000" else snprintf 12 (decimal t)

/-- `repinfo::tostring`. -/
def tostring (i : RepInfo) : Str :=
  snprintf 100
    (decimal i.available ++ timeText i.ser_time ++ timeText i.rep_time ++ cstr i.name)

/-- `repinfo::set(nstr)`, which takes a slot into use.  The loop that should pad the name appends
empty C strings, so the copy into `name` reads on behind the string: `junk` is what it finds. -/
def setName (i : RepInfo) (junk nstr : Str) : RepInfo :=
  let i := { i with
    name := (nstr ++ 0 :: junk).take slaveNameSize
    available := 1
    rep_time := 0
    ser_time := 0 }
  { i with head := memcpy i.head 0 i.tostring }

/-- `repinfo::init(str)`.  `junk` are the bytes from `tt[10]` on, which nothing initialises. -/
def init (junk str : Str) : RepInfo where
  available := (atoi (str.take 1) % 2 ^ 32).toNat
  ser_time := (atoi ((str.drop 1).take 10 ++ junk) % 2 ^ 32).toNat
  rep_time := (atoi ((str.drop 11).take 10 ++ junk) % 2 ^ 32).toNat
  name := (str.drop 21).take slaveNameSize
  head := str

/-- An unused slot, taken into use. -/
def fresh (nstr : Str) : RepInfo := (init [] (List.replicate (slaveNameSize + 21) 0)).setName [] nstr

/-- What `GentFile::Init` makes of one slot: nothing unless it is in use. -/
def load (junk str : Str) : Option (Str × RepInfo) :=
  let c := init junk str
  if c.available ≠ 0 then some (cstr c.name, c) else none

/-! ## What a restart reads back -/

/-- The number that nine bytes of text leave of a time. -/
def stamp (t : ℕ) : ℕ := digitsVal ((decimal t).take 9)

lemma setBuf_length {ln : ℕ} (val : ℕ) (h : ln ≤ 12) : (setBuf ln val).length = ln := by
  simp only [setBuf, List.length_take, List.length_append, List.length_replicate]
  omega

/-- What `set` leaves of a time: at most nine digits, then NULs. -/
lemma setBuf_ten (val : ℕ) : ∃ pad, setBuf 10 val = (decimal val).take 9 ++ 0 :: pad := by
  have hlen : ((decimal val).take 9).length ≤ 9 := List.length_take_le ..
  obtain ⟨n, hn⟩ : ∃ n, 10 - ((decimal val).take 9).length = n + 1 :=
    ⟨9 - ((decimal val).take 9).length, by omega⟩
  refine ⟨(List.replicate 11 0).take n, ?_⟩
  simp only [setBuf, snprintf, Nat.reduceSub]
  rw [List.take_append, List.take_of_length_le (by omega), hn]
  rfl

/-- The persisted nine digits of a time, read back. -/
lemma atoi_setBuf (val : ℕ) (junk : Str) :
    (atoi (setBuf 10 val ++ junk) % 2 ^ 32).toNat = stamp val := by
  obtain ⟨pad, hpad⟩ := setBuf_ten val
  have hds : ∀ b ∈ (decimal val).take 9, isDigit b = true :=
    fun b hb => isDigit_of_mem_decimal (List.mem_of_mem_take hb)
  have hne : (decimal val).take 9 ≠ [] := by
    simp [decimal_ne_nil]
  have hlt : stamp val < 10 ^ 9 :=
    (digitsVal_lt hds).trans_le (Nat.pow_le_pow_right (by decide) (List.length_take_le ..))
  have hsd : signedDigits (setBuf 10 val ++ junk) = (false, stamp val) := by
    rw [hpad, List.append_assoc]
    exact signedDigits_append hds hne (by simp [isDigit])
  rw [atoi_of_signedDigits (by omega) hsd]
  omega

variable {i : RepInfo} (junk : Str) (val : ℕ)

lemma set_head (f : Field) : (i.set f val).head = memcpy i.head f.offset (setBuf f.ln val) := by
  cases f <;> rfl

/-- **After a push** a restart reads the stamp of its time, and the rest of the slot as before. -/
theorem init_set_ser_time (h : 21 ≤ i.head.length) :
    init junk (i.set .ser_time val).head
      = { init junk i.head with
          ser_time := stamp val
          head := (i.set .ser_time val).head } := by
  have hlen : (setBuf 10 val).length = 10 := setBuf_length val (by decide)
  have hself := memcpy_self i.head (setBuf 10 val) (show 1 ≤ i.head.length by omega)
  have hbelow := memcpy_below i.head (setBuf 10 val) (show 1 ≤ i.head.length by omega)
    (show 0 + 1 ≤ 1 by omega)
  have habove : ∀ pos, 11 ≤ pos →
      (memcpy i.head 1 (setBuf 10 val)).drop pos = i.head.drop pos :=
    fun pos hpos => memcpy_above _ _ (by omega) (by omega)
  rw [hlen] at hself
  simp only [List.drop_zero] at hbelow
  simp only [init, set, Field.offset, Field.ln, hself, hbelow, habove 11 (by omega),
    habove 21 (by omega), atoi_setBuf]

/-- **After an acknowledged pop**, likewise. -/
theorem init_set_rep_time (h : 21 ≤ i.head.length) :
    init junk (i.set .rep_time val).head
      = { init junk i.head with
          rep_time := stamp val
          head := (i.set .rep_time val).head } := by
  have hlen : (setBuf 10 val).length = 10 := setBuf_length val (by decide)
  have hself := memcpy_self i.head (setBuf 10 val) (show 11 ≤ i.head.length by omega)
  have hbelow : ∀ pos n, pos + n ≤ 11 →
      ((memcpy i.head 11 (setBuf 10 val)).drop pos).take n = (i.head.drop pos).take n :=
    fun pos n hpos => memcpy_below _ _ (by omega) hpos
  have habove := memcpy_above i.head (setBuf 10 val) (show 11 + _ ≤ _ by omega)
    (show 11 + _ ≤ 21 by omega)
  have hzero := hbelow 0 1 (by omega)
  rw [hlen] at hself
  simp only [List.drop_zero] at hzero
  simp only [init, set, Field.offset, Field.ln, hself, hbelow 1 10 (by omega), hzero, habove,
    atoi_setBuf]

/-- Writing a time keeps the size of the slot. -/
lemma set_head_length {f : Field} (h : 21 ≤ i.head.length) :
    (i.set f val).head.length = i.head.length := by
  have hlen := setBuf_length val (show f.ln ≤ 12 by cases f <;> decide)
  have hfit : f.offset + f.ln ≤ 21 := by cases f <;> decide
  rw [set_head, memcpy_length (by omega)]

/-- A time of ten digits loses its last one. -/
example : stamp 1700000005 = 170000000 := by decide

end RepInfo

end Riser
