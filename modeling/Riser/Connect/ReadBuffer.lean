import Riser.Core.Loop
import Riser.Connect.GentConnect

/-!
# `InitRead` and `ContinueRead`: the growing read buffers

The two functions are copies of one loop, for `rbuf` and for `cbuf`.  A turn doubles the buffer if it is
full, four times at most, and reads into the room behind the bytes that are there.  A read that fills the
room goes on with another turn; anything else ends the loop.

In `GentConnect` a buffer is the bytes that count, and its size a number (`readBuffer`).  Here it is the
memory: `rsize` bytes, of which the first `rbytes` count, and what `realloc` adds is arbitrary.  The
counters are `int`s.  **A read that is offered a range outside the buffer** ends the loop with `none`.

* `Fits` is the invariant: the buffer has the size that the program believes, `rbytes ≤ rsize`, and the
  size is the first one doubled `num_allocs` times.
* `run_recv` is the run lemma: the loop ends, and what it leaves is what `fill` computes.  So the memory
  refines the model of the connection (`readBuffer_refines`).
* `fill_got` says what `fill` computes: the bytes that were there, and those that the socket has given.
-/

namespace Riser

open Cpp

/-- What `read` returns: some of the bytes to come, and not more than it was asked for. -/
lemma Socket.read_data {s s' : Socket} {n : ℕ} {bytes : Str} (h : s.read n = (.data bytes, s')) :
    bytes ≠ [] ∧ bytes.length ≤ n ∧ s.inbox = bytes ++ s'.inbox := by
  unfold Socket.read at h
  cases hev : s.recvs 0 with
  | bytes k =>
      simp only [hev] at h
      split_ifs at h with hnone hzero
      · cases h
      · cases h
      · obtain ⟨hbytes, rfl⟩ := Prod.mk.inj h
        obtain rfl := Socket.Read.data.inj hbytes
        have hpos : 0 < s.inbox.length := List.length_pos_of_ne_nil hnone
        refine ⟨List.ne_nil_of_length_pos ?_, ?_, (List.take_append_drop _ _).symm⟩
        · rw [List.length_take]
          omega
        · rw [List.length_take]
          omega
  | eagain => simp [hev] at h
  | eof => simp [hev] at h
  | error => simp [hev] at h

lemma Socket.read_kept {s s' : Socket} {n : ℕ} {res : Socket.Read} (h : s.read n = (res, s'))
    (hres : ∀ bytes, res ≠ .data bytes) : s.inbox = s'.inbox := by
  unfold Socket.read at h
  cases hev : s.recvs 0 with
  | bytes k =>
      simp only [hev] at h
      split_ifs at h with hnone hzero
      · rw [← (Prod.mk.inj h).2]
      · rw [← (Prod.mk.inj h).2]
      · exact absurd (Prod.mk.inj h).1.symm (hres _)
  | eagain =>
      simp only [hev] at h
      rw [← (Prod.mk.inj h).2]
  | eof =>
      simp only [hev] at h
      rw [← (Prod.mk.inj h).2]
  | error =>
      simp only [hev] at h
      rw [← (Prod.mk.inj h).2]

namespace ReadBuffer

/-! ## The code -/

/-- The two copies. -/
inductive Copy where
  | initRead
  | continueRead

/-- `rbytes = 0` where `realloc` fails.  In `ContinueRead` it stays `rbytes`, and `cbytes` is kept. -/
def Copy.onFailure : Copy → ℤ → ℤ
  | .initRead, _ => 0
  | .continueRead, bytes => bytes

/-- Only `ContinueRead` changes the event when there is nothing to read. -/
def Copy.updatesEvent : Copy → Bool
  | .initRead => false
  | .continueRead => true

/-- The memory, the variables of the loop, and the socket. -/
structure State where
  buf : Str
  size : ℤ
  bytes : ℤ
  gotdata : ℤ
  num_allocs : ℕ
  updated : Bool
  sock : Socket

/-- `realloc(buf, n)`, with the new bytes from `fresh`. -/
def realloc (buf : Str) (n : ℕ) (fresh : ℕ → UInt8) : Str :=
  (List.range n).map fun i => buf[i]?.getD (fresh i)

/-- The memory with `bytes` at `pos`. -/
def write (buf : Str) (pos : ℕ) (bytes : Str) : Str :=
  buf.take pos ++ bytes ++ buf.drop (pos + bytes.length)

/-- From `int avail` on: the read, and what is done with its result. -/
def recv (copy : Copy) (s : State) : Loop.Outcome State (Option (ℤ × State)) :=
  let avail := toInt32 (s.size - s.bytes)
  if 0 ≤ s.bytes ∧ 0 ≤ avail ∧ s.bytes + avail ≤ s.buf.length then
    match s.sock.read avail.toNat with
    | (.data bytes, sock) =>
        let s := { s with
          buf := write s.buf s.bytes.toNat bytes
          bytes := toInt32 (s.bytes + bytes.length)
          gotdata := 1
          sock := sock }
        if bytes.length = avail then .next s else .leave (some (s.gotdata, s))
    | (.eof, sock) => .leave (some (-3, { s with sock := sock }))
    | (.eagain, sock) =>
        .leave (some (s.gotdata, { s with sock := sock, updated := copy.updatesEvent }))
    | (.error, sock) => .leave (some (-1, { s with sock := sock }))
  else .leave none

/-- The buffer doubled. -/
def grow (s : State) (fresh : ℕ → UInt8) : State :=
  { s with
    num_allocs := s.num_allocs + 1
    buf := realloc s.buf (toUInt64 (toInt32 (s.size * 2))) fresh
    size := toInt32 (s.size * 2) }

/-- A turn of the loop.  `alloc` says of every `realloc` what it returns. -/
def turn (copy : Copy) (alloc : ℕ → Option (ℕ → UInt8)) (s : State) :
    Loop.Outcome State (Option (ℤ × State)) :=
  if s.size ≤ s.bytes then
    if s.num_allocs = 4 then .leave (some (s.gotdata, s))
    else
      match alloc s.num_allocs with
      | none => .leave (some (-2,
          { s with num_allocs := s.num_allocs + 1, bytes := copy.onFailure s.bytes }))
      | some fresh => recv copy (grow s fresh)
  else recv copy s

/-- A call with `bytes` bytes in the buffer. -/
def start (buf : Str) (size bytes : ℤ) (sock : Socket) : State where
  buf := buf
  size := size
  bytes := bytes
  gotdata := 0
  num_allocs := 0
  updated := false
  sock := sock

/-! ## The memory -/

lemma length_realloc (buf : Str) (n : ℕ) (fresh : ℕ → UInt8) : (realloc buf n fresh).length = n := by
  simp [realloc]

/-- The old bytes are kept. -/
lemma take_realloc {buf : Str} {n : ℕ} (hn : buf.length ≤ n) (fresh : ℕ → UInt8) {k : ℕ}
    (hk : k ≤ buf.length) : (realloc buf n fresh).take k = buf.take k := by
  refine List.ext_getElem? fun i => ?_
  rcases Nat.lt_or_ge i k with hi | hi
  · rw [List.getElem?_take_of_lt hi, List.getElem?_take_of_lt hi, realloc, List.getElem?_map,
      List.getElem?_range (by omega)]
    simp [List.getElem?_eq_getElem (show i < buf.length by omega)]
  · rw [List.getElem?_take, List.getElem?_take, if_neg (by omega), if_neg (by omega)]

lemma length_write {buf : Str} {pos : ℕ} {bytes : Str} (h : pos + bytes.length ≤ buf.length) :
    (write buf pos bytes).length = buf.length := by
  simp only [write, List.length_append, List.length_take, List.length_drop]
  omega

/-- The bytes before, and the bytes written. -/
lemma take_write {buf : Str} {pos : ℕ} (bytes : Str) (h : pos ≤ buf.length) :
    (write buf pos bytes).take (pos + bytes.length) = buf.take pos ++ bytes := by
  have hlen : (buf.take pos ++ bytes).length = pos + bytes.length := by
    rw [List.length_append, List.length_take_of_le h]
  rw [write, ← hlen, List.take_left]

/-! ## The invariant -/

/-- The program is right about its buffer, which had `size` bytes at first. -/
structure Fits (size : ℤ) (s : State) : Prop where
  length : (s.buf.length : ℤ) = s.size
  nonneg : 0 ≤ s.bytes
  le : s.bytes ≤ s.size
  allocs : s.num_allocs ≤ 4
  doubled : s.size = size * 2 ^ s.num_allocs

section Steps

variable {size : ℤ} {s : State} {copy : Copy} {bytes : Str} {sock : Socket}

/-- The sizes stay inside an `int`. -/
lemma Fits.bounds (h : Fits size s) (hlo : 1 ≤ size) (hhi : size < 2 ^ 27) :
    1 ≤ s.size ∧ s.size < 2 ^ 31 := by
  obtain ⟨-, -, -, hallocs, hsize⟩ := h
  have hpow : (1 : ℤ) ≤ 2 ^ s.num_allocs ∧ (2 : ℤ) ^ s.num_allocs ≤ 2 ^ 4 :=
    ⟨one_le_pow₀ (by norm_num), pow_le_pow_right₀ (by norm_num) hallocs⟩
  rw [hsize]
  constructor <;> nlinarith

/-- **Doubling** keeps the bytes and makes room. -/
lemma Fits.of_grow (h : Fits size s) (hlo : 1 ≤ size) (hhi : size < 2 ^ 27) (hallocs : s.num_allocs < 4)
    (fresh : ℕ → UInt8) : Fits size (grow s fresh) ∧ (grow s fresh).size = s.size * 2 ∧
      (grow s fresh).buf.take s.bytes.toNat = s.buf.take s.bytes.toNat := by
  obtain ⟨hlen, hnonneg, hle, -, hsize⟩ := h
  have hdouble : s.size * 2 = size * 2 ^ (s.num_allocs + 1) := by
    rw [hsize, pow_succ, mul_assoc]
  have hpow : (1 : ℤ) ≤ 2 ^ (s.num_allocs + 1) ∧ (2 : ℤ) ^ (s.num_allocs + 1) ≤ 2 ^ 4 :=
    ⟨one_le_pow₀ (by norm_num), pow_le_pow_right₀ (by norm_num) (by omega)⟩
  have hlt : s.size * 2 < 2 ^ 31 := by
    rw [hdouble]
    nlinarith
  have hnew : toInt32 (s.size * 2) = s.size * 2 := toInt32_of_bounds (by omega) hlt
  have hcells : toUInt64 (s.size * 2) = 2 * s.buf.length := by
    rw [← hlen, mul_comm]
    exact_mod_cast toUInt64_natCast (n := 2 * s.buf.length) (by omega)
  refine ⟨⟨?_, hnonneg, ?_, hallocs, ?_⟩, hnew, ?_⟩
  · simp only [grow, hnew, hcells, length_realloc]
    omega
  · simp only [grow, hnew]
    omega
  · simp only [grow, hnew]
    exact hdouble
  · simp only [grow, hnew, hcells]
    exact take_realloc (by omega) fresh (by omega)

/-- The state behind a read of `bytes`. -/
def received (s : State) (bytes : Str) (sock : Socket) : State :=
  { s with
    buf := write s.buf s.bytes.toNat bytes
    bytes := s.bytes + bytes.length
    gotdata := 1
    sock := sock }

/-- **Bytes that fit in the room** go behind those that are there. -/
lemma Fits.of_received (h : Fits size s) (hbytes : bytes.length ≤ s.size - s.bytes) (sock : Socket) :
    Fits size (received s bytes sock) ∧
      (received s bytes sock).buf.take (received s bytes sock).bytes.toNat
        = s.buf.take s.bytes.toNat ++ bytes := by
  obtain ⟨hlen, hnonneg, hle, hallocs, hsize⟩ := h
  refine ⟨⟨?_, ?_, ?_, hallocs, hsize⟩, ?_⟩
  · simp only [received]
    rw [length_write (by omega), hlen]
  · simp only [received]
    omega
  · simp only [received]
    omega
  · have hto : (s.bytes + bytes.length).toNat = s.bytes.toNat + bytes.length := by omega
    simp only [received, hto]
    exact take_write bytes (by omega)

/-- **The range that a read is offered is in the buffer**, and so are the bytes that it writes. -/
lemma Fits.recv_eq (h : Fits size s) (hlo : 1 ≤ size) (hhi : size < 2 ^ 27) : recv copy s =
    match s.sock.read (s.size - s.bytes).toNat with
    | (.data bytes, sock) =>
        if bytes.length = s.size - s.bytes then .next (received s bytes sock)
        else .leave (some (1, received s bytes sock))
    | (.eof, sock) => .leave (some (-3, { s with sock := sock }))
    | (.eagain, sock) =>
        .leave (some (s.gotdata, { s with sock := sock, updated := copy.updatesEvent }))
    | (.error, sock) => .leave (some (-1, { s with sock := sock })) := by
  obtain ⟨-, hbound⟩ := h.bounds hlo hhi
  obtain ⟨hlen, hnonneg, hle, -, -⟩ := h
  have havail : toInt32 (s.size - s.bytes) = s.size - s.bytes :=
    toInt32_of_bounds (by omega) (by omega)
  have hrange : 0 ≤ s.bytes ∧ 0 ≤ s.size - s.bytes ∧ s.bytes + (s.size - s.bytes) ≤ s.buf.length := by
    omega
  simp only [recv, havail, if_pos hrange]
  rcases hread : s.sock.read (s.size - s.bytes).toNat with ⟨res, sock⟩
  cases res with
  | data bytes =>
      have hbytes := (Socket.read_data hread).2.1
      have hcount : toInt32 (s.bytes + bytes.length) = s.bytes + bytes.length :=
        toInt32_of_bounds (by omega) (by omega)
      simp only [hcount]
      rfl
  | eagain => rfl
  | eof => rfl
  | error => rfl

end Steps

/-! ## The run -/

section Run

variable {size : ℤ} {s s' : State} {copy : Copy} {fresh : ℕ → ℕ → UInt8}

/-- What the connection sees of a result. -/
def view (r : ℤ × State) : ℤ × Str × ℕ × Socket :=
  (r.1, r.2.buf.take r.2.bytes.toNat, r.2.size.toNat, r.2.sock)

/-- **What a read does.**  It ends the loop as `fill` ends, or it fills the buffer. -/
lemma Fits.recv_spec (h : Fits size s) (hlo : 1 ≤ size) (hhi : size < 2 ^ 27) (copy : Copy) :
    (∃ r, recv copy s = .leave (some r) ∧ Fits size r.2 ∧ ∀ allocs,
      view r = GentConnect.fill allocs s.sock (s.buf.take s.bytes.toNat) s.size.toNat s.gotdata) ∨
    ∃ s', recv copy s = .next s' ∧ Fits size s' ∧ s'.size ≤ s'.bytes ∧ s'.num_allocs = s.num_allocs ∧
      ∀ allocs, GentConnect.fill allocs s.sock (s.buf.take s.bytes.toNat) s.size.toNat s.gotdata =
        match allocs with
        | 0 => view (s'.gotdata, s')
        | allocs + 1 => GentConnect.fill allocs s'.sock (s'.buf.take s'.bytes.toNat) (s'.size * 2).toNat
            s'.gotdata := by
  have hlen := h.length
  have hnonneg := h.nonneg
  have hle := h.le
  have havail : s.size.toNat - (s.buf.take s.bytes.toNat).length = (s.size - s.bytes).toNat := by
    rw [List.length_take]
    omega
  rw [h.recv_eq hlo hhi]
  rcases hread : s.sock.read (s.size - s.bytes).toNat with ⟨res, sock⟩
  cases res with
  | data bytes =>
      have hbytes := (Socket.read_data hread).2.1
      have hroom : (bytes.length : ℤ) ≤ s.size - s.bytes := by omega
      obtain ⟨hfits, htake⟩ := h.of_received hroom sock
      by_cases hfull : (bytes.length : ℤ) = s.size - s.bytes
      · refine Or.inr ⟨received s bytes sock, if_pos hfull, hfits, ?_, rfl, fun allocs => ?_⟩
        · simp only [received]
          omega
        · have hcount : bytes.length = (s.size - s.bytes).toNat := by omega
          have hdouble : s.size.toNat * 2 = (s.size * 2).toNat := by omega
          rw [GentConnect.fill, havail, hread]
          simp only [if_pos hcount]
          rw [view, htake, hdouble]
          rfl
      · refine Or.inl ⟨(1, received s bytes sock), if_neg hfull, hfits, fun allocs => ?_⟩
        have hcount : ¬ bytes.length = (s.size - s.bytes).toNat := by omega
        rw [GentConnect.fill, havail, hread]
        simp only [if_neg hcount]
        rw [view, htake]
        rfl
  | eagain =>
      refine Or.inl ⟨_, rfl, ⟨hlen, hnonneg, hle, h.allocs, h.doubled⟩, fun allocs => ?_⟩
      rw [GentConnect.fill, havail, hread]
      rfl
  | eof =>
      refine Or.inl ⟨_, rfl, ⟨hlen, hnonneg, hle, h.allocs, h.doubled⟩, fun allocs => ?_⟩
      rw [GentConnect.fill, havail, hread]
      rfl
  | error =>
      refine Or.inl ⟨_, rfl, ⟨hlen, hnonneg, hle, h.allocs, h.doubled⟩, fun allocs => ?_⟩
      rw [GentConnect.fill, havail, hread]
      rfl

lemma Fits.next (h : Fits size s) (hlo : 1 ≤ size) (hhi : size < 2 ^ 27)
    (hnext : recv copy s = .next s') : Fits size s' := by
  rcases h.recv_spec hlo hhi copy with ⟨r, hleave, -⟩ | ⟨s₁, hs₁, hfits, -⟩
  · rw [hnext] at hleave
    cases hleave
  · rw [hnext] at hs₁
    exact Loop.Outcome.next.inj hs₁ ▸ hfits

/-- **The step lemma.** -/
lemma Fits.turn (h : Fits size s) (hlo : 1 ≤ size) (hhi : size < 2 ^ 27)
    (hnext : turn copy (fun i => some (fresh i)) s = .next s') : Fits size s' := by
  unfold ReadBuffer.turn at hnext
  split_ifs at hnext with hfull hfour
  · have hallocs := h.allocs
    exact (h.of_grow hlo hhi (by omega) _).1.next hlo hhi hnext
  · exact h.next hlo hhi hnext

lemma turn_grow (copy : Copy) (fresh : ℕ → ℕ → UInt8) (hfull : s.size ≤ s.bytes)
    (hallocs : s.num_allocs < 4) :
    turn copy (fun i => some (fresh i)) s = recv copy (grow s (fresh s.num_allocs)) := by
  rw [turn, if_pos hfull, if_neg hallocs.ne]

/-- **The run lemma.**  With `allocs` more doublings, the loop ends as `fill` does. -/
lemma run_recv (copy : Copy) (fresh : ℕ → ℕ → UInt8) (hlo : 1 ≤ size) (hhi : size < 2 ^ 27) {allocs : ℕ}
    {s₀ : State} (h : Fits size s) (hallocs : s.num_allocs + allocs = 4)
    (hturn : turn copy (fun i => some (fresh i)) s₀ = recv copy s) :
    ∃ r, Loop.run (turn copy fun i => some (fresh i)) (allocs + 2) s₀ = some (some r) ∧ Fits size r.2 ∧
      view r = GentConnect.fill allocs s.sock (s.buf.take s.bytes.toNat) s.size.toNat s.gotdata := by
  induction allocs generalizing s s₀ with
  | zero =>
      rcases h.recv_spec hlo hhi copy with ⟨r, hleave, hfits, hview⟩ | ⟨s', hnext, hfits, hfull, hn, hfill⟩
      · exact ⟨r, Loop.run_leave (hturn.trans hleave) 1, hfits, hview 0⟩
      · have hfour : s'.num_allocs = 4 := hn.trans hallocs
        have hlast : turn copy (fun i => some (fresh i)) s' = .leave (some (s'.gotdata, s')) := by
          rw [turn, if_pos hfull, if_pos hfour]
        refine ⟨_, ?_, hfits, (hfill 0).symm⟩
        rw [Loop.run_next (hturn.trans hnext), Loop.run_leave hlast]
  | succ allocs ih =>
      rcases h.recv_spec hlo hhi copy with ⟨r, hleave, hfits, hview⟩ | ⟨s', hnext, hfits, hfull, hn, hfill⟩
      · exact ⟨r, Loop.run_leave (hturn.trans hleave) _, hfits, hview _⟩
      · have hagain := turn_grow copy fresh hfull (by omega)
        obtain ⟨hgrown, hsize, htake⟩ := hfits.of_grow hlo hhi (by omega) (fresh s'.num_allocs)
        have hleft : (grow s' (fresh s'.num_allocs)).num_allocs + allocs = 4 := by
          simp only [grow]
          omega
        obtain ⟨r, hrun, hfits', hview⟩ := ih hgrown hleft hagain
        refine ⟨r, (Loop.run_next (hturn.trans hnext) _).trans hrun, hfits', hview.trans ?_⟩
        rw [hfill, ← htake, ← hsize]
        rfl

/-- **The memory refines the model of the connection.** -/
theorem readBuffer_refines (copy : Copy) (fresh : ℕ → ℕ → UInt8) {buf : Str} {bytes : ℤ} (sock : Socket)
    (hlen : (buf.length : ℤ) = size) (hlo : 1 ≤ size) (hhi : size < 2 ^ 27) (hnonneg : 0 ≤ bytes)
    (hle : bytes ≤ size) : ∃ n r,
      Loop.run (turn copy fun i => some (fresh i)) n (start buf size bytes sock) = some (some r) ∧
      Fits size r.2 ∧ view r = GentConnect.readBuffer sock (buf.take bytes.toNat) size.toNat := by
  have hfits : Fits size (start buf size bytes sock) :=
    ⟨hlen, hnonneg, hle, Nat.zero_le 4, (mul_one size).symm⟩
  have htake : (buf.take bytes.toNat).length = bytes.toNat := List.length_take_of_le (by omega)
  have hnone : (start buf size bytes sock).num_allocs < 4 := Nat.zero_lt_succ 3
  rw [GentConnect.readBuffer, htake]
  by_cases hfull : size ≤ bytes
  · have hturn := turn_grow copy fresh (s := start buf size bytes sock) hfull hnone
    obtain ⟨hgrown, hsize, hkept⟩ := hfits.of_grow hlo hhi hnone (fresh 0)
    have hthree : (grow (start buf size bytes sock) (fresh 0)).num_allocs + 3 = 4 := rfl
    obtain ⟨r, hrun, hr, hview⟩ := run_recv copy fresh hlo hhi hgrown hthree hturn
    have hdouble : size.toNat * 2 = (size * 2).toNat := by omega
    refine ⟨_, r, hrun, hr, hview.trans ?_⟩
    rw [if_pos (by omega), hdouble, hsize]
    exact congrArg (fun b => GentConnect.fill 3 sock b (size * 2).toNat 0) hkept
  · have hturn : turn copy (fun i => some (fresh i)) (start buf size bytes sock)
        = recv copy (start buf size bytes sock) := if_neg hfull
    have hfour : (start buf size bytes sock).num_allocs + 4 = 4 := rfl
    obtain ⟨r, hrun, hr, hview⟩ := run_recv copy fresh hlo hhi hfits hfour hturn
    exact ⟨_, r, hrun, hr, hview.trans (if_neg (by omega)).symm⟩

end Run

/-! ## The bytes -/

/-- **What `fill` returns**: the bytes that the socket has given are behind those that were there, and the
result says whether there are any. -/
lemma fill_got (allocs : ℕ) (s : Socket) (buf : Str) (size : ℕ) (gotdata : ℤ) :
    ∃ got, s.inbox = got ++ (GentConnect.fill allocs s buf size gotdata).2.2.2.inbox ∧
      (GentConnect.fill allocs s buf size gotdata).2.1 = buf ++ got ∧
      (0 ≤ (GentConnect.fill allocs s buf size gotdata).1 →
        (GentConnect.fill allocs s buf size gotdata).1 = if got = [] then gotdata else 1) := by
  fun_induction GentConnect.fill allocs s buf size gotdata with
  | case1 s buf size gotdata bytes s' hread hfull =>
      obtain ⟨hne, -, hinbox⟩ := Socket.read_data hread
      exact ⟨bytes, hinbox, rfl, fun _ => (if_neg hne).symm⟩
  | case2 s buf size gotdata bytes s' hread hfull allocs ih =>
      obtain ⟨hne, -, hinbox⟩ := Socket.read_data hread
      obtain ⟨got, hrest, hbuf, hres⟩ := ih
      refine ⟨bytes ++ got, ?_, ?_, fun h => ?_⟩
      · rw [hinbox, List.append_assoc, ← hrest]
      · rw [hbuf, List.append_assoc]
      · rw [hres h, if_neg fun hnil => hne (List.append_eq_nil_iff.mp hnil).1, ite_self]
  | case3 allocs s buf size gotdata bytes s' hread hfull =>
      obtain ⟨hne, -, hinbox⟩ := Socket.read_data hread
      exact ⟨bytes, hinbox, rfl, fun _ => (if_neg hne).symm⟩
  | case4 allocs s buf size gotdata s' hread =>
      exact ⟨[], Socket.read_kept hread (by simp), (List.append_nil buf).symm, fun h => by simp at h⟩
  | case5 allocs s buf size gotdata s' hread =>
      exact ⟨[], Socket.read_kept hread (by simp), (List.append_nil buf).symm, fun _ => rfl⟩
  | case6 allocs s buf size gotdata s' hread =>
      exact ⟨[], Socket.read_kept hread (by simp), (List.append_nil buf).symm, fun h => by simp at h⟩

lemma readBuffer_got (s : Socket) (buf : Str) (size : ℕ) :
    ∃ got, s.inbox = got ++ (GentConnect.readBuffer s buf size).2.2.2.inbox ∧
      (GentConnect.readBuffer s buf size).2.1 = buf ++ got ∧
      (0 ≤ (GentConnect.readBuffer s buf size).1 →
        (GentConnect.readBuffer s buf size).1 = if got = [] then 0 else 1) := by
  unfold GentConnect.readBuffer
  split_ifs
  · exact fill_got 3 s buf (size * 2) 0
  · exact fill_got 4 s buf size 0

/-! ## The result -/

/-- **The growing buffers lose nothing.**  No read is offered a range outside the buffer: the loop would
end with `none`. -/
theorem buffers_spec (copy : Copy) (fresh : ℕ → ℕ → UInt8) (buf : Str) (size bytes : ℤ) (sock : Socket)
    (hlen : (buf.length : ℤ) = size) (hlo : 1 ≤ size) (hhi : size ≤ 2 ^ 27 - 1) (hnonneg : 0 ≤ bytes)
    (hle : bytes ≤ size) :
    (∃ n r, Loop.run (turn copy fun i => some (fresh i)) n (start buf size bytes sock) = some (some r) ∧
      Fits size r.2 ∧
      (0 ≤ r.1 → ∃ got, sock.inbox = got ++ r.2.sock.inbox ∧
        r.2.buf.take r.2.bytes.toNat = buf.take bytes.toNat ++ got ∧ r.1 = if got = [] then 0 else 1)) ∧
    ∀ s, Loop.Visits (turn copy fun i => some (fresh i)) (start buf size bytes sock) s → Fits size s := by
  have hlt : size < 2 ^ 27 := by omega
  constructor
  · obtain ⟨n, r, hrun, hfits, hview⟩ := readBuffer_refines copy fresh sock hlen hlo hlt hnonneg hle
    refine ⟨n, r, hrun, hfits, fun hres => ?_⟩
    obtain ⟨got, hinbox, hbuf, hcount⟩ := readBuffer_got sock (buf.take bytes.toNat) size.toNat
    rw [← hview] at hinbox hbuf hcount
    exact ⟨got, hinbox, hbuf, hcount hres⟩
  · intro s hvisits
    have hfits : Fits size (start buf size bytes sock) :=
      ⟨hlen, hnonneg, hle, Nat.zero_le 4, (mul_one size).symm⟩
    exact hvisits.inv (fun _ _ h hnext => h.turn hlo hlt hnext) hfits

/-- A peer that has sent these bytes, all to be read at once. -/
def sender (inbox : Str) : Socket where
  inbox := inbox
  recvs := fun _ => .bytes inbox.length
  sends := fun _ => .eagain
  outbox := []

/-- Five bytes, of which one was there, in a buffer of one byte. -/
theorem read_five : ∃ n r,
    Loop.run (turn .continueRead fun i => some fun j => UInt8.ofNat (i + j)) n
      (start [104] 1 1 (sender (lit "ello"))) = some (some r) ∧ Fits 1 r.2 ∧
    r.1 = 1 ∧ r.2.num_allocs = 3 ∧ r.2.buf.take r.2.bytes.toNat = lit "hello" := by
  obtain ⟨⟨n, r, hrun, hfits, -⟩, -⟩ := buffers_spec .continueRead (fun i j => UInt8.ofNat (i + j)) [104] 1 1
    (sender (lit "ello")) rfl (by decide) (by decide) (by decide) (by decide)
  obtain ⟨r', hrun', hres⟩ : ∃ r',
      Loop.run (turn .continueRead fun i => some fun j => UInt8.ofNat (i + j)) 3
        (start [104] 1 1 (sender (lit "ello"))) = some (some r') ∧
      r'.1 = 1 ∧ r'.2.num_allocs = 3 ∧ r'.2.buf.take r'.2.bytes.toNat = lit "hello" :=
    ⟨_, rfl, rfl, rfl, by decide⟩
  obtain rfl := Option.some.inj (Loop.run_unique hrun hrun')
  exact ⟨n, r, hrun, hfits, hres⟩

end ReadBuffer

end Riser
