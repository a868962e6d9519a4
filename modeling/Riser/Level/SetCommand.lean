import Riser.Level.MultiGet

/-!
# `set`: the announced bytes, or an error

The line of a `set` announces the length of the data block behind it.  `SetExact` says what a client may
expect: if the numeral is a non-negative `int` and the block is so many bytes and a CRLF, `Process` returns
how many bytes are missing and `Complete` stores the block; otherwise there is an error line, the store is
as before, and nothing is thrown.

On its way the length is cut to an `int` (`SafeStrtol`), two are added, the bytes in the buffer are
subtracted, and the result is cut to an `int` again; `Complete` looks for the CRLF at the position
`rlbytes - 2`, a `uint64_t`.  **So the expectation fails** for

* a negative length, if the number of missing bytes comes out as non-negative all the same: -1 and -2 if the
  buffer is empty, and the smallest `int`s if it is not.  The position wraps, and `substr` throws;
* the two largest `int`s, where the addition of two wraps;
* a length that is no `int`: its low 32 bits are taken for it, and `4294967301` stores five bytes.

`setExact_iff` has the exact condition, for every numeral and every way to cut the block.
-/

namespace Riser

open Cpp

namespace GentLevel

/-- A word of a line. -/
structure Word where
  text : Str
  isWord : IsWord text

/-- The line `set key flags exptime bytes`. -/
structure SetLine where
  key : Word
  flags : Word
  exptime : Word
  bytes : Numeral

namespace SetLine

def args (c : SetLine) : List Str := [c.key.text, c.flags.text, c.exptime.text, c.bytes.text]

def text (c : SetLine) : Str := commandLine (lit "set") c.args

end SetLine

/-! ## What is expected -/

/-- What a client is told, and the store behind it. -/
def outcome (w : World) (db : GentDb) (l : GentLevel) (first recont : Str) : Except Fault (Str × GentDb) :=
  (serve w db l first recont).map fun r => (r.1, r.2.2)

/-- The announced bytes have arrived, and are `v`. -/
def Arrives (z : ℤ) (block v : Str) : Prop :=
  0 ≤ z ∧ z < 2 ^ 31 ∧ (v.length : ℤ) = z ∧ block = v ++ crlf

def errorLines : List Str :=
  [lit "ERROR\r\n", lit "CLIENT ERROR\r\n", lit "CLIENT_ERROR bad data chunk\r\n"]

/-- **Exactly the announced bytes are stored, or an error is reported.**  `buffered` is the part of the block
that is in the first read, `rest` the part that `Complete` gets. -/
def SetExact (w : World) (db : GentDb) (l : GentLevel) (c : SetLine) (buffered rest : Str) : Prop :=
  (∀ v, Arrives c.bytes.value (buffered ++ rest) v →
    (∃ l', l.process (c.text ++ buffered) [] = .ok (c.bytes.value + 2 - buffered.length, [], l')) ∧
      outcome w db l (c.text ++ buffered) rest = .ok (lit "STORED\r\n",
        (db.putString true (w.okMeta c.key.text) w.now c.key.text v 0 0).1)) ∧
  ((∀ v, ¬ Arrives c.bytes.value (buffered ++ rest) v) →
    ∃ err ∈ errorLines, outcome w db l (c.text ++ buffered) rest = .ok (err, db))

/-- The condition, on the announced number, on the number of bytes in the buffer and on the block: the number
is no `long`; or the bytes in the buffer are too many, and are not the announced block; or the length is the
announced one in its low 32 bits, leaves room for an addition, is covered by the block, and what looks like
the end of the block is its end. -/
def Served (z : ℤ) (buffered : ℕ) (block : Str) : Prop :=
  (z < -2 ^ 63 ∨ 2 ^ 63 ≤ z) ∨
  (toInt32 (toInt32 z + 2 - buffered) < 0 ∧ ∀ v, ¬ Arrives z block v) ∨
  (0 ≤ toInt32 (toInt32 z + 2 - buffered) ∧ 0 ≤ toInt32 z ∧ toInt32 z + 2 < 2 ^ 31 ∧
    toInt32 z ≤ block.length ∧
    ((block.drop (toInt32 z).toNat).take 2 = crlf → z = toInt32 z ∧ (block.length : ℤ) = z + 2))

/-! ## The numbers -/

section Numbers

variable {vlen : ℤ}

lemma neg_le_toInt32 (x : ℤ) : -2 ^ 31 ≤ toInt32 x := by
  simp only [toInt32, Int.bmod_def]
  split_ifs <;> omega

/-- Two cuts to an `int` with a `uint64_t` between them are one. -/
lemma toInt32_needed (x : ℤ) (n : ℕ) : toInt32 ((toUInt64 (toInt32 x) : ℤ) - n) = toInt32 (x - n) := by
  have hwrap : ∀ y : ℤ, toInt32 ((toUInt64 y : ℤ) - n) = toInt32 (y - n) := by
    intro y
    simp only [toInt32, toUInt64, Int.bmod_def]
    omega
  rw [hwrap]
  exact Int.bmod_sub_bmod

/-- The position where `Complete` looks for the end of the block. -/
lemma position_eq (h0 : 0 ≤ vlen) (h2 : vlen + 2 < 2 ^ 31) :
    toUInt64 ((toUInt64 (toInt32 (vlen + 2)) : ℤ) - 2) = vlen.toNat := by
  rw [toInt32_of_bounds (by omega) h2]
  unfold toUInt64
  omega

/-- It is out of reach if something has wrapped. -/
lemma le_position (hlo : -2 ^ 31 ≤ vlen) (hhi : vlen < 2 ^ 31) (h : ¬ (0 ≤ vlen ∧ vlen + 2 < 2 ^ 31)) :
    2 ^ 63 ≤ toUInt64 ((toUInt64 (toInt32 (vlen + 2)) : ℤ) - 2) := by
  simp only [toInt32, toUInt64, Int.bmod_def]
  omega

lemma safeStrtol_of_erange {n : Numeral} (h : n.value < -2 ^ 63 ∨ 2 ^ 63 ≤ n.value) :
    safeStrtol n.text = none := by
  simp only [safeStrtol, n.strtolEnd_text, n.strtolErange_text.mpr h, if_true]

lemma safeStrtol_numeral {n : Numeral} (h : ¬ (n.value < -2 ^ 63 ∨ 2 ^ 63 ≤ n.value)) :
    safeStrtol n.text = some (toInt32 n.value) := by
  have hrange : ¬ strtolErange n.text := fun he => h (n.strtolErange_text.mp he)
  simp only [safeStrtol, n.strtolEnd_text, hrange, if_false, n.strtol_text hrange, true_or, if_true]

end Numbers

/-! ## `Process` -/

lemma isWord_numeral (n : Numeral) : IsWord n.text := by
  refine ⟨n.text_ne_nil, fun b hb => ?_⟩
  rcases List.mem_append.mp hb with hb | hb
  · cases hs : n.sign with
    | none => simp [hs, Sign.text] at hb
    | plus =>
        rw [hs] at hb
        exact (show ∀ b ∈ Sign.plus.text, b ∉ lit " \r\n" by decide) b hb
    | minus =>
        rw [hs] at hb
        exact (show ∀ b ∈ Sign.minus.text, b ∉ lit " \r\n" by decide) b hb
  · intro hblank
    have hdigit := n.isDigit b hb
    exact absurd hdigit ((show ∀ b ∈ lit " \r\n", ¬ isDigit b = true by decide) b hblank)

lemma SetLine.isWord_args (c : SetLine) : ∀ a ∈ c.args, IsWord a := by
  intro a ha
  simp only [args, List.mem_cons, List.not_mem_nil, or_false] at ha
  rcases ha with rfl | rfl | rfl | rfl
  · exact c.key.isWord
  · exact c.flags.isWord
  · exact c.exptime.isWord
  · exact isWord_numeral c.bytes

lemma branches_set {l : GentLevel} {args : List Str} (h : l.tokenList = lit "set" :: args) :
    l.branches 5 = l.setWord := by
  have hget : lit "set" ≠ lit "get" := by decide
  have hnamed : ∀ b name, named b l.tokenList name = .ok (b && decide (lit "set" = lit name)) := by
    intro b name
    rw [h, named_cons]
  simp only [branches, hnamed, ok_bind, hget, decide_false, Bool.and_false, Bool.false_eq_true, if_false,
    decide_true, Bool.and_self, if_true]

section SetWord

variable {l : GentLevel} {c : SetLine}

/-- A number that is no `long` is refused. -/
lemma setWord_of_erange (h : l.tokenList = lit "set" :: c.args)
    (hrange : c.bytes.value < -2 ^ 63 ∨ 2 ^ 63 ≤ c.bytes.value) : ∃ l', l.setWord = .ok (-1, l') := by
  have hkey : elemAt l.tokenList 1 = .ok c.key.text := elemAt_of_eq_some (by rw [h]; rfl)
  have hbytes : elemAt l.tokenList 4 = .ok c.bytes.text := elemAt_of_eq_some (by rw [h]; rfl)
  refine ⟨{ l with keystr := c.key.text, commandtype := .COMM_SET, curstatus := .CONN_NREAD }, ?_⟩
  simp only [setWord, hkey, hbytes, ok_bind, safeStrtol_of_erange hrange, pure, Except.pure]

/-- Otherwise the branch returns how many bytes are missing, cut to an `int`. -/
lemma setWord_eq (h : l.tokenList = lit "set" :: c.args)
    (hrange : ¬ (c.bytes.value < -2 ^ 63 ∨ 2 ^ 63 ≤ c.bytes.value)) :
    l.setWord = .ok (toInt32 (toInt32 c.bytes.value + 2 - l.remains), { l with
      keystr := c.key.text, commandtype := .COMM_SET, curstatus := .CONN_NREAD,
      rlbytes := toUInt64 (toInt32 (toInt32 c.bytes.value + 2)) }) := by
  have hkey : elemAt l.tokenList 1 = .ok c.key.text := elemAt_of_eq_some (by rw [h]; rfl)
  have hbytes : elemAt l.tokenList 4 = .ok c.bytes.text := elemAt_of_eq_some (by rw [h]; rfl)
  simp only [setWord, hkey, hbytes, ok_bind, safeStrtol_numeral hrange, toInt32_needed, pure, Except.pure]

end SetWord

/-- The handler after the line of a `set`. -/
structure Waits (l : GentLevel) (c : SetLine) (buffered : Str) : Prop where
  commandtype : l.commandtype = .COMM_SET
  curstatus : l.curstatus = .CONN_NREAD
  keystr : l.keystr = c.key.text
  content : l.content = buffered
  rlbytes : l.rlbytes = toUInt64 (toInt32 (toInt32 c.bytes.value + 2))

section Process

variable {l : GentLevel} {c : SetLine} {buffered : Str}

/-- What `Process` leaves, from what the branch of the `set` returns. -/
lemma process_setLine (hlen : buffered.length < 2 ^ 32) {cword : ℤ} {l' : GentLevel}
    (h : ({ l with
            commandstr := joined (lit "set") c.args ++ [13], remains := buffered.length,
            content := buffered, tokenList := lit "set" :: c.args } : GentLevel).setWord
      = .ok (cword, l')) :
    l.process (c.text ++ buffered) []
      = if cword < 0 then .ok (0, lit "CLIENT ERROR\r\n", l') else .ok (cword, [], l') := by
  have hcount : (c.args.length + 1) % 2 ^ 8 = 5 := rfl
  rw [SetLine.text, process_line (by decide) c.isWord_args hlen, hcount, branches_set rfl, h, ok_bind]

lemma process_erange (hlen : buffered.length < 2 ^ 32)
    (h : c.bytes.value < -2 ^ 63 ∨ 2 ^ 63 ≤ c.bytes.value) :
    ∃ l', l.process (c.text ++ buffered) [] = .ok (0, lit "CLIENT ERROR\r\n", l') := by
  obtain ⟨l', hword⟩ := setWord_of_erange (c := c) (l := { l with
    commandstr := joined (lit "set") c.args ++ [13], remains := buffered.length,
    content := buffered, tokenList := lit "set" :: c.args }) rfl h
  exact ⟨l', process_setLine hlen hword⟩

/-- **What `Process` returns** for a number that is a `long`. -/
lemma process_set (hlen : buffered.length < 2 ^ 32)
    (h : ¬ (c.bytes.value < -2 ^ 63 ∨ 2 ^ 63 ≤ c.bytes.value)) :
    ∃ l', Waits l' c buffered ∧ l.process (c.text ++ buffered) []
      = if toInt32 (toInt32 c.bytes.value + 2 - buffered.length) < 0
        then .ok (0, lit "CLIENT ERROR\r\n", l')
        else .ok (toInt32 (toInt32 c.bytes.value + 2 - buffered.length), [], l') := by
  have hword := setWord_eq (c := c) (l := { l with
    commandstr := joined (lit "set") c.args ++ [13], remains := buffered.length,
    content := buffered, tokenList := lit "set" :: c.args }) rfl h
  exact ⟨_, ⟨rfl, rfl, rfl, rfl, rfl⟩, process_setLine hlen hword⟩

end Process

/-! ## `Complete` -/

section Outcome

variable {w : World} {db : GentDb} {l l' : GentLevel} {c : SetLine} {first buffered rest : Str}

/-- The answer of `Process`, if there is one. -/
lemma outcome_refused (h : l.process first [] = .ok (0, lit "CLIENT ERROR\r\n", l')) :
    outcome w db l first rest = .ok (lit "CLIENT ERROR\r\n", db) := by
  have hne : lit "CLIENT ERROR\r\n" ≠ [] := by decide
  simp only [outcome, serve, h, ok_bind, hne, ne_eq, not_false_eq_true, and_self, if_true]
  rfl

/-- The position of the end of the block. -/
def endPos (c : SetLine) : ℕ := toUInt64 ((toUInt64 (toInt32 (toInt32 c.bytes.value + 2)) : ℤ) - 2)

lemma outcome_complete {need : ℤ} (h : l.process first [] = .ok (need, [], l')) (hw : Waits l' c buffered)
    (w : World) (db : GentDb) (rest : Str) :
    outcome w db l first rest = (substr (buffered ++ rest) (endPos c) 2).map fun mark =>
      if mark ≠ crlf then (lit "CLIENT_ERROR bad data chunk\r\n", db)
      else (if w.okDb then lit "STORED\r\n" else lit "NOT_STORED\r\n",
        (db.putString w.okDb (w.okMeta c.key.text) w.now c.key.text
          ((buffered ++ rest).take (endPos c)) 0 0).1) := by
  have hcomplete : serve w db l first rest = completeSet w db l' rest := by
    simp only [serve, h, ok_bind, ne_eq, not_true, and_false, if_false, hw.curstatus, complete, hw.commandtype]
  rw [outcome, hcomplete, completeSet]
  simp only [hw.content, hw.rlbytes, hw.keystr]
  rw [← endPos]
  cases substr (buffered ++ rest) (endPos c) 2 with
  | error f => rfl
  | ok mark =>
      by_cases hmark : mark = crlf
      · simp only [ok_bind, hmark, ne_eq, not_true, if_false]
        rfl
      · simp only [ok_bind, ne_eq, hmark, not_false_eq_true, if_true, Except.map, pure, Except.pure]

lemma endPos_eq (h0 : 0 ≤ toInt32 c.bytes.value) (h2 : toInt32 c.bytes.value + 2 < 2 ^ 31) :
    endPos c = (toInt32 c.bytes.value).toNat := position_eq h0 h2

end Outcome

/-! ## The announced block -/

section Arrives

variable {z : ℤ} {block v : Str}

lemma Arrives.toInt32_eq (h : Arrives z block v) : toInt32 z = z :=
  toInt32_of_bounds (by have := h.1; omega) h.2.1

lemma Arrives.toNat_eq (h : Arrives z block v) : z.toNat = v.length := by
  have := h.2.2.1
  omega

lemma Arrives.length_eq (h : Arrives z block v) : (block.length : ℤ) = z + 2 := by
  obtain ⟨-, -, hv, rfl⟩ := h
  have hend : crlf.length = 2 := rfl
  rw [List.length_append, hend]
  omega

lemma Arrives.drop_eq (h : Arrives z block v) : (block.drop z.toNat).take 2 = crlf := by
  rw [h.toNat_eq, h.2.2.2, List.drop_left]
  rfl

lemma Arrives.take_eq (h : Arrives z block v) : block.take z.toNat = v := by
  rw [h.toNat_eq, h.2.2.2, List.take_left]

/-- A block of the right length that ends where it should has arrived. -/
lemma arrives_of_length (hlo : 0 ≤ z) (hhi : z < 2 ^ 31) (hlen : (block.length : ℤ) = z + 2)
    (hend : (block.drop z.toNat).take 2 = crlf) : Arrives z block (block.take z.toNat) := by
  refine ⟨hlo, hhi, ?_, ?_⟩
  · rw [List.length_take]
    omega
  · have htwo : (block.drop z.toNat).length ≤ 2 := by
      rw [List.length_drop]
      omega
    rw [List.take_of_length_le htwo] at hend
    rw [← hend, List.take_append_drop]

end Arrives

/-! ## When the expectation is met -/

section Exact

variable {w : World} {db : GentDb} {l l' : GentLevel} {c : SetLine} {buffered rest : Str}

/-- A refusal is right for everything but the announced block. -/
lemma setExact_refused (h : l.process (c.text ++ buffered) [] = .ok (0, lit "CLIENT ERROR\r\n", l')) :
    SetExact w db l c buffered rest ↔ ∀ v, ¬ Arrives c.bytes.value (buffered ++ rest) v := by
  have hout : outcome w db l (c.text ++ buffered) rest = .ok (lit "CLIENT ERROR\r\n", db) :=
    outcome_refused h
  constructor
  · rintro ⟨hstored, -⟩ v hv
    have heq := (hstored v hv).2
    rw [hout, Except.ok.injEq, Prod.mk.injEq] at heq
    exact absurd heq.1 (by decide)
  · intro hnone
    refine ⟨fun v hv => absurd hv (hnone v), fun _ => ⟨_, ?_, hout⟩⟩
    decide

/-- An exception is never right. -/
lemma not_setExact_of_fault {f : Fault} (h : outcome w db l (c.text ++ buffered) rest = .error f) :
    ¬ SetExact w db l c buffered rest := by
  rintro ⟨hstored, herror⟩
  rw [h] at hstored herror
  by_cases harr : ∃ v, Arrives c.bytes.value (buffered ++ rest) v
  · obtain ⟨v, hv⟩ := harr
    exact absurd (hstored v hv).2 (by simp)
  · obtain ⟨err, -, heq⟩ := herror fun v hv => harr ⟨v, hv⟩
    cases heq

/-- A block that does not end where it should is reported, and it is not the announced one. -/
lemma setExact_of_bad (hpos : endPos c = (toInt32 c.bytes.value).toNat)
    (h : outcome w db l (c.text ++ buffered) rest = .ok (lit "CLIENT_ERROR bad data chunk\r\n", db))
    (hend : ((buffered ++ rest).drop (endPos c)).take 2 ≠ crlf) : SetExact w db l c buffered rest := by
  refine ⟨fun v hv => absurd hv.drop_eq ?_, fun _ => ⟨_, ?_, h⟩⟩
  · rwa [← hv.toInt32_eq, ← hpos]
  · decide

/-- Storing is right for the announced block. -/
lemma setExact_stored (h0 : 0 ≤ toInt32 c.bytes.value) (h2 : toInt32 c.bytes.value + 2 < 2 ^ 31)
    (hproc : l.process (c.text ++ buffered) []
      = .ok (toInt32 (toInt32 c.bytes.value + 2 - buffered.length), [], l'))
    (h : outcome w db l (c.text ++ buffered) rest = .ok (lit "STORED\r\n",
      (db.putString true (w.okMeta c.key.text) w.now c.key.text
        ((buffered ++ rest).take (endPos c)) 0 0).1)) :
    SetExact w db l c buffered rest ↔ ∃ v, Arrives c.bytes.value (buffered ++ rest) v := by
  constructor
  · rintro ⟨-, herror⟩
    by_contra hnone
    obtain ⟨err, herr, heq⟩ := herror fun v hv => hnone ⟨v, hv⟩
    rw [h, Except.ok.injEq, Prod.mk.injEq] at heq
    rw [← heq.1] at herr
    exact absurd herr (by decide)
  · rintro ⟨v, hv⟩
    refine ⟨fun v' hv' => ⟨⟨l', ?_⟩, ?_⟩, fun hnone => absurd hv (hnone v)⟩
    · -- the bytes in the buffer are bytes of the block, so that nothing wraps
      have hlen := hv.length_eq
      rw [List.length_append] at hlen
      rw [hv.toInt32_eq] at h2
      rw [hproc, hv.toInt32_eq, toInt32_of_bounds (by omega) (by omega)]
    · rw [h, endPos_eq h0 h2, hv'.toInt32_eq, hv'.take_eq]

/-- A `set` that comes to `Complete`. -/
lemma setExact_complete_iff (hdb : w.okDb = true) (hblock : (buffered ++ rest).length < 2 ^ 63)
    (hwaits : Waits l' c buffered)
    (hproc : l.process (c.text ++ buffered) []
      = .ok (toInt32 (toInt32 c.bytes.value + 2 - buffered.length), [], l')) :
    SetExact w db l c buffered rest ↔
      0 ≤ toInt32 c.bytes.value ∧ toInt32 c.bytes.value + 2 < 2 ^ 31 ∧
        toInt32 c.bytes.value ≤ (buffered ++ rest).length ∧
        (((buffered ++ rest).drop (toInt32 c.bytes.value).toNat).take 2 = crlf →
          c.bytes.value = toInt32 c.bytes.value ∧ ((buffered ++ rest).length : ℤ) = c.bytes.value + 2) := by
  have hout := outcome_complete hproc hwaits w db rest
  by_cases hle : endPos c ≤ (buffered ++ rest).length
  · -- a position inside the block has not wrapped
    obtain ⟨h0, h2⟩ : 0 ≤ toInt32 c.bytes.value ∧ toInt32 c.bytes.value + 2 < 2 ^ 31 := by
      by_contra hfit
      have hfar : 2 ^ 63 ≤ endPos c := le_position (neg_le_toInt32 _) (toInt32_lt _) hfit
      omega
    have hpos := endPos_eq h0 h2
    have hcover : toInt32 c.bytes.value ≤ (buffered ++ rest).length := by omega
    rw [substr_of_le hle] at hout
    rw [← hpos]
    simp only [h0, h2, hcover, true_and]
    by_cases hend : ((buffered ++ rest).drop (endPos c)).take 2 = crlf
    · simp only [Except.map, hend, ne_eq, not_true, if_false, hdb, if_true] at hout
      rw [setExact_stored h0 h2 hproc hout]
      simp only [hend, forall_const]
      constructor
      · rintro ⟨v, hv⟩
        exact ⟨hv.toInt32_eq.symm, hv.length_eq⟩
      · rintro ⟨hz, hsize⟩
        rw [hpos, ← hz] at hend
        rw [← hz] at h0 h2
        exact ⟨_, arrives_of_length h0 (by omega) hsize hend⟩
    · simp only [Except.map, hend, ne_eq, not_false_eq_true, if_true] at hout
      exact iff_of_true (setExact_of_bad hpos hout hend) fun hcrlf => absurd hcrlf hend
  · -- behind the end of the block `substr` throws
    rw [substr, if_neg hle] at hout
    refine iff_of_false (not_setExact_of_fault hout) ?_
    rintro ⟨h0, h2, hcover, -⟩
    have hpos := endPos_eq h0 h2
    omega

end Exact

/-- **Exactly when the announced bytes are stored, or an error is reported.**  The first read has to fit
`remains`, and the block a `std::string`. -/
theorem setExact_iff (w : World) (db : GentDb) (l : GentLevel) (c : SetLine) (buffered rest : Str)
    (hdb : w.okDb = true) (hfirst : (c.text ++ buffered).length < 2 ^ 32)
    (hblock : (buffered ++ rest).length < 2 ^ 63) :
    SetExact w db l c buffered rest ↔ Served c.bytes.value buffered.length (buffered ++ rest) := by
  have hlen : buffered.length < 2 ^ 32 := by
    rw [List.length_append] at hfirst
    omega
  by_cases hrange : c.bytes.value < -2 ^ 63 ∨ 2 ^ 63 ≤ c.bytes.value
  · -- no `long`: refused, and nothing has been announced
    obtain ⟨l', hproc⟩ := process_erange (l := l) hlen hrange
    refine iff_of_true ((setExact_refused hproc).mpr fun v hv => ?_) (Or.inl hrange)
    have hlo := hv.1
    have hhi := hv.2.1
    omega
  · obtain ⟨l', hwaits, hproc⟩ := process_set (l := l) hlen hrange
    rw [Served, or_iff_right hrange]
    by_cases hneed : toInt32 (toInt32 c.bytes.value + 2 - buffered.length) < 0
    · rw [if_pos hneed] at hproc
      simp only [setExact_refused hproc, hneed, not_le.mpr hneed, true_and, false_and, or_false]
    · rw [if_neg hneed] at hproc
      rw [setExact_complete_iff hdb hblock hwaits hproc]
      simp only [hneed, not_lt.mp hneed, true_and, false_and, false_or]

/-- The line `set k 0 0 …`. -/
def setK (bytes : Numeral) : SetLine := ⟨⟨lit "k", by decide⟩, ⟨lit "0", by decide⟩, ⟨lit "0", by decide⟩, bytes⟩

/-- Five bytes, of which two are in the first read. -/
theorem setExact_hello :
    SetExact quietWorld .empty newLevel (setK ⟨.none, lit "5", by decide, by decide⟩) (lit "he")
      (lit "llo\r\n") :=
  (setExact_iff quietWorld .empty newLevel (setK ⟨.none, lit "5", by decide, by decide⟩) (lit "he")
    (lit "llo\r\n") rfl (by decide) (by decide)).mpr
    (Or.inr (Or.inr ⟨by decide, by decide, by decide, by decide, fun _ => by decide⟩))

/-- **A length of -1**: one more byte is read, and `substr` throws. -/
theorem setExact_minus_one :
    ¬ SetExact quietWorld .empty newLevel (setK ⟨.minus, lit "1", by decide, by decide⟩) [] (lit "x") :=
  not_setExact_of_fault (f := .outOfRange) (by rfl)

end GentLevel

end Riser
