import Riser.Core.Loop
import Riser.Redis.Parser

/-!
# `GentConnect`: a connection and its state machine

A worker thread calls `TryRunning` when the socket of a connection is ready.  It is a loop over
`curstatus`: **read** a request, hand it to the handler, read the rest of a value (`CONN_NREAD`) or
of an `mset` (`CONN_CONREAD`), **act** on the request (`CONN_DATA`), **write** the answer, **wait**
for the next one.  `turn` is one turn of this loop.

The socket is non-blocking.  What it will do is part of the state (`Socket`): the bytes that the peer
has sent, and for every later `read` and `send` how it will turn out.  A `read` hands over some of
the bytes that are left, and a `send` takes at least one byte if it takes any.  What `send` is given
goes to `outbox`, where `none` stands for a byte from behind the end of the string.

* `curstatus` is kept with the handler, which sets it (`Riser.Redis.Parser`).
* `rbytes` is local to a call of `TryRunning`; the other counters are members.
* What a command does (`Complete`) is a parameter here, and so is whether libevent accepts a change
  of the event (`GentEvent::UpdateEvent`).
* Memory is not bounded: `malloc` and `realloc` succeed.
-/

namespace Riser

open Cpp

/-! ## The socket -/

/-- How a `read` turns out.  `bytes n` is up to `n + 1` of them, if there are any. -/
inductive ReadEv where
  | bytes (n : ℕ)
  | eagain
  | eof
  | error

/-- How a `send` turns out.  `count n` is room for `n + 1` bytes. -/
inductive SendEv where
  | count (n : ℕ)
  | eagain
  | error

structure Socket where
  inbox : Str
  recvs : ℕ → ReadEv
  sends : ℕ → SendEv
  outbox : List (Option UInt8)

namespace Socket

/-- What `read` returns, with the bytes it has read. -/
inductive Read where
  | data (bytes : Str)
  | eagain
  | eof
  | error

/-- `read(fd, buf, n)`. -/
def read (s : Socket) (n : ℕ) : Read × Socket :=
  let s' := { s with recvs := fun i => s.recvs (i + 1) }
  match s.recvs 0 with
  | .bytes k =>
      if s.inbox = [] then (.eagain, s')
      else if n = 0 then (.eof, s')
      else
        let len := min (k + 1) n
        (.data (s.inbox.take len), { s' with inbox := s.inbox.drop len })
  | .eagain => (.eagain, s')
  | .eof => (.eof, s')
  | .error => (.error, s')

/-- What `send` returns. -/
inductive Send where
  | count (slen : ℕ)
  | eagain
  | error

/-- `send(fd, str.c_str() + pos, n, 0)`. -/
def send (s : Socket) (str : Str) (pos n : ℕ) : Send × Socket :=
  let s' := { s with sends := fun i => s.sends (i + 1) }
  match s.sends 0 with
  | .count k =>
      let slen := min (k + 1) n
      (.count slen, { s' with outbox := s.outbox ++ (List.range slen).map fun i => str[pos + i]? })
  | .eagain => (.eagain, s')
  | .error => (.error, s')

end Socket

/-! ## The connection -/

/-- `class GentConnect`.  `content` and `cbuf` are what has been read into these buffers, `none` when
they are not allocated; `actualsize` and `cbytes` are their lengths. -/
structure GentConnect where
  comm : GentRedis
  outstr : Str
  sendsize : ℕ
  cursendsize : ℕ
  remainsize : ℕ
  content : Option Str
  rsize : ℕ
  cbuf : Option Str
  csize : ℕ

/-- `READ_BUFFER_SIZE`. -/
def readBufferSize : ℕ := 4096

namespace GentConnect

/-- `GentConnect::Init`, with a handler of its own. -/
def init (comm : GentRedis) : GentConnect where
  comm := { comm with curstatus := .CONN_READ }
  outstr := []
  sendsize := 0
  cursendsize := 0
  remainsize := 0
  content := none
  rsize := readBufferSize
  cbuf := none
  csize := 0

/-- `GentConnect::SetStatus`. -/
def setStatus (c : GentConnect) (s : Status) : GentConnect :=
  { c with comm := { c.comm with curstatus := s } }

/-- `GentConnect::Reset`. -/
def reset (c : GentConnect) : GentConnect := { c with content := none, cbuf := none }

/-- The loop of `OutString`.  Each send takes a byte or ends it, so that `sendsize` turns are
enough. -/
def sendLoop (str : Str) : ℕ → GentConnect → Socket → ℤ × GentConnect × Socket
  | 0, c, s => (c.cursendsize, c.setStatus .CONN_WAIT, s)
  | fuel + 1, c, s =>
      if c.sendsize = 0 then (c.cursendsize, c.setStatus .CONN_WAIT, s)
      else
        match s.send str c.cursendsize c.sendsize with
        | (.count slen, s) =>
            sendLoop str fuel
              { c with sendsize := c.sendsize - slen, cursendsize := c.cursendsize + slen } s
        | (.eagain, s) => (0, c, s)
        | (.error, s) => (-1, c, s)

/-- What `OutString` does before its loop: it starts the string if nothing is left to be sent. -/
def begin (c : GentConnect) (str : Str) : GentConnect :=
  if c.sendsize = 0 then { c with sendsize := str.length, cursendsize := 0 } else c

/-- `GentConnect::OutString`. -/
def outString (c : GentConnect) (s : Socket) (str : Str) : ℤ × GentConnect × Socket :=
  let c := c.begin str
  sendLoop str c.sendsize c s

/-- Reading into a buffer of `size` bytes that is doubled when it is full, `allocs` times at most:
the result, the bytes, the size, and the socket. -/
def fill : ℕ → Socket → Str → ℕ → ℤ → ℤ × Str × ℕ × Socket
  | allocs, s, buf, size, gotdata =>
      match s.read (size - buf.length) with
      | (.data bytes, s) =>
          if bytes.length = size - buf.length then
            match allocs with
            | 0 => (1, buf ++ bytes, size, s)
            | allocs + 1 => fill allocs s (buf ++ bytes) (size * 2) 1
          else (1, buf ++ bytes, size, s)
      | (.eof, s) => (-3, buf, size, s)
      | (.eagain, s) => (gotdata, buf, size, s)
      | (.error, s) => (-1, buf, size, s)

/-- `GentConnect::InitRead` and `GentConnect::ContinueRead`, which differ in the buffer. -/
def readBuffer (s : Socket) (buf : Str) (size : ℕ) : ℤ × Str × ℕ × Socket :=
  if size ≤ buf.length then fill 3 s buf (size * 2) 0 else fill 4 s buf size 0

end GentConnect

/-! ## The loop -/

/-- What `TryRunning` depends on besides the connection and the socket. -/
structure Env where
  cfg : Config
  now : ℕ
  complete : GentRedis → Option Str → Str × GentRedis
  updateEvent : Bool

/-- `TryRunning` at work: `rbytes` are the bytes of `rbuf` that count. -/
structure Running where
  conn : GentConnect
  rbytes : Str
  sock : Socket

namespace Running

/-- `curstatus`. -/
def status (x : Running) : Status := x.conn.comm.curstatus

/-- How a call of `TryRunning` ends: with a result, or with a fault that nothing catches. -/
abbrev Left := Except Fault (ℤ × Running)

/-- What is returned where the event is changed. -/
def updated (env : Env) : ℤ := if env.updateEvent then 0 else -1

open Loop (Outcome)

/-- `case Status::CONN_READ`. -/
def read (env : Env) (x : Running) : Outcome Running Left :=
  let (readNum, rbytes, rsize, sock) := GentConnect.readBuffer x.sock x.rbytes x.conn.rsize
  let c := { x.conn with outstr := [], rsize := rsize }
  if readNum < 0 then .leave (.ok (readNum, ⟨c.reset, rbytes, sock⟩))
  else if readNum = 0 then .next ⟨c.setStatus .CONN_WAIT, rbytes, sock⟩
  else
    match process env.cfg env.now c.comm rbytes with
    | .error f => .leave (.error f)
    | .ok (status, outstr, r) =>
        let c := { c with comm := r, remainsize := toUInt64 status, outstr := outstr }
        if c.remainsize = 0 ∧ c.outstr ≠ [] then
          .leave (.ok (updated env, ⟨(c.setStatus .CONN_WRITE).reset, rbytes, sock⟩))
        else .next ⟨c, rbytes, sock⟩

/-- `case Status::CONN_NREAD`, with `NextRead`. -/
def nextRead (x : Running) : Outcome Running Left :=
  let c := { x.conn with content := some (x.conn.content.getD []) }
  if c.remainsize = 0 then .next ⟨c.setStatus .CONN_DATA, x.rbytes, x.sock⟩
  else
    match x.sock.read c.remainsize with
    | (.data bytes, sock) =>
        .next ⟨{ c with
          content := c.content.map (· ++ bytes)
          remainsize := c.remainsize - bytes.length }, x.rbytes, sock⟩
    | (.eof, sock) => .next ⟨c.setStatus .CONN_CLOSE, x.rbytes, sock⟩
    | (.eagain, sock) => .leave (.ok (1, ⟨c, x.rbytes, sock⟩))
    | (.error, sock) => .next ⟨c.setStatus .CONN_CLOSE, x.rbytes, sock⟩

/-- `case Status::CONN_DATA`. -/
def data (env : Env) (x : Running) : Outcome Running Left :=
  let (outstr, r) := env.complete x.conn.comm x.conn.content
  let c := { x.conn with comm := r, outstr := outstr }
  if outstr ≠ [] then .leave (.ok (updated env, ⟨c.setStatus .CONN_WRITE, x.rbytes, x.sock⟩))
  else .leave (.ok (0, ⟨c, x.rbytes, x.sock⟩))

/-- `case Status::CONN_WRITE`: whatever `OutString` returns, the loop goes on. -/
def write (x : Running) : Outcome Running Left :=
  let (_, c, sock) := x.conn.reset.outString x.sock x.conn.outstr
  .next ⟨c, x.rbytes, sock⟩

/-- `case Status::CONN_WAIT`. -/
def wait (env : Env) (x : Running) : Outcome Running Left :=
  .leave (.ok (updated env,
    ⟨({ x.conn with remainsize := 0 }.reset).setStatus .CONN_READ, x.rbytes, x.sock⟩))

/-- `case Status::CONN_CONREAD`. -/
def conRead (env : Env) (x : Running) : Outcome Running Left :=
  let csize := if x.conn.cbuf.isSome then x.conn.csize else readBufferSize
  let (readNum, cbytes, csize, sock) :=
    GentConnect.readBuffer x.sock (x.conn.cbuf.getD []) csize
  let c := { x.conn with cbuf := some cbytes, csize := csize }
  if readNum < 0 then .leave (.ok (readNum, ⟨c.reset, x.rbytes, sock⟩))
  else if readNum = 0 then .leave (.ok (updated env, ⟨c, x.rbytes, sock⟩))
  else
    match continueProcess c.comm cbytes with
    | .error f => .leave (.error f)
    | .ok (ret, r) =>
        if ret = 0 then .next ⟨{ c with comm := r, cbuf := none, csize := 0 }, x.rbytes, sock⟩
        else .leave (.ok (0, ⟨{ c with comm := r, cbuf := some [] }, x.rbytes, sock⟩))

/-- One turn of the loop of `GentConnect::TryRunning`. -/
def turn (env : Env) (x : Running) : Outcome Running Left :=
  match x.status with
  | .CONN_READ => x.read env
  | .CONN_NREAD => x.nextRead
  | .CONN_WRITE => x.write
  | .CONN_WAIT => x.wait env
  | .CONN_CLOSE => .leave (.ok (-1, x))
  | .CONN_DATA => x.data env
  | .CONN_CONREAD => x.conRead env

end Running

/-! ## What a `read` takes -/

namespace Socket

variable {s s' : Socket} {n : ℕ}

/-- Between the two there have only been reads. -/
structure Drains (s s' : Socket) : Prop where
  outbox : s'.outbox = s.outbox
  sends : s'.sends = s.sends
  inbox : s'.inbox.length ≤ s.inbox.length

lemma Drains.trans {s₁ s₂ s₃ : Socket} (h : Drains s₁ s₂) (h' : Drains s₂ s₃) : Drains s₁ s₃ :=
  ⟨h'.outbox.trans h.outbox, h'.sends.trans h.sends, h'.inbox.trans h.inbox⟩

/-- What is read is gone, and nothing else is. -/
lemma read_spec (s : Socket) (n : ℕ) :
    Drains s (s.read n).2 ∧
      ∀ bytes, (s.read n).1 = .data bytes → (s.read n).2.inbox.length < s.inbox.length := by
  unfold read
  cases s.recvs 0 with
  | bytes k =>
      simp only
      split_ifs with hnone hzero
      · exact ⟨⟨rfl, rfl, le_rfl⟩, nofun⟩
      · exact ⟨⟨rfl, rfl, le_rfl⟩, nofun⟩
      · have hpos : 0 < s.inbox.length := List.length_pos_of_ne_nil hnone
        have hless : (s.inbox.drop (min (k + 1) n)).length < s.inbox.length := by
          rw [List.length_drop]
          omega
        exact ⟨⟨rfl, rfl, hless.le⟩, fun _ _ => hless⟩
  | eagain => exact ⟨⟨rfl, rfl, le_rfl⟩, nofun⟩
  | eof => exact ⟨⟨rfl, rfl, le_rfl⟩, nofun⟩
  | error => exact ⟨⟨rfl, rfl, le_rfl⟩, nofun⟩

lemma read_drains {res : Read} (h : s.read n = (res, s')) : Drains s s' := by
  simpa [h] using (s.read_spec n).1

lemma read_less {bytes : Str} (h : s.read n = (.data bytes, s')) :
    s'.inbox.length < s.inbox.length := by
  simpa [h] using (s.read_spec n).2 bytes

end Socket

namespace GentConnect

/-- **Filling a buffer.**  If it reports data, at least one byte has been read, unless there was data
before. -/
lemma fill_spec (allocs : ℕ) (s : Socket) (buf : Str) (size : ℕ) (gotdata : ℤ) :
    s.Drains (fill allocs s buf size gotdata).2.2.2 ∧
      (0 < (fill allocs s buf size gotdata).1 →
        0 < gotdata ∨ (fill allocs s buf size gotdata).2.2.2.inbox.length < s.inbox.length) := by
  fun_induction fill allocs s buf size gotdata with
  | case1 s buf size gotdata bytes s' hread hfull =>
      exact ⟨Socket.read_drains hread, fun _ => Or.inr (Socket.read_less hread)⟩
  | case2 s buf size gotdata bytes s' hread hfull allocs ih =>
      exact ⟨(Socket.read_drains hread).trans ih.1,
        fun _ => Or.inr (ih.1.inbox.trans_lt (Socket.read_less hread))⟩
  | case3 allocs s buf size gotdata bytes s' hread hfull =>
      exact ⟨Socket.read_drains hread, fun _ => Or.inr (Socket.read_less hread)⟩
  | case4 allocs s buf size gotdata s' hread =>
      exact ⟨Socket.read_drains hread, fun h => by simp at h⟩
  | case5 allocs s buf size gotdata s' hread => exact ⟨Socket.read_drains hread, Or.inl⟩
  | case6 allocs s buf size gotdata s' hread =>
      exact ⟨Socket.read_drains hread, fun h => by simp at h⟩

lemma readBuffer_spec (s : Socket) (buf : Str) (size : ℕ) :
    s.Drains (readBuffer s buf size).2.2.2 ∧
      (0 < (readBuffer s buf size).1 →
        (readBuffer s buf size).2.2.2.inbox.length < s.inbox.length) := by
  unfold readBuffer
  split_ifs
  · obtain ⟨hdrains, hless⟩ := fill_spec 3 s buf (size * 2) 0
    exact ⟨hdrains, fun h => (hless h).resolve_left (lt_irrefl 0)⟩
  · obtain ⟨hdrains, hless⟩ := fill_spec 4 s buf size 0
    exact ⟨hdrains, fun h => (hless h).resolve_left (lt_irrefl 0)⟩

end GentConnect

/-! ## What a `send` takes -/

/-- The bytes there is room for. -/
def SendEv.room : SendEv → ℕ
  | .count n => n + 1
  | .eagain => 0
  | .error => 0

/-- The bytes that the next `k` sends have room for. -/
def room (sends : ℕ → SendEv) : ℕ → ℕ
  | 0 => 0
  | k + 1 => (sends 0).room + room (fun i => sends (i + 1)) k

lemma shift_shift (sends : ℕ → SendEv) (j : ℕ) :
    (fun i => sends (j + i + 1)) = fun i => sends (j + 1 + i) := by
  funext i
  rw [Nat.add_right_comm]

lemma room_add (sends : ℕ → SendEv) : ∀ j k,
    room sends (j + k) = room sends j + room (fun i => sends (j + i)) k
  | 0, k => by simp [room]
  | j + 1, k => by
      rw [Nat.add_right_comm, room, room, room_add (fun i => sends (i + 1)) j k,
        shift_shift, Nat.add_assoc]

lemma room_pos_of_lt {sends : ℕ → SendEv} {d j : ℕ} (hlt : d < j) (hd : 0 < (sends d).room) :
    0 < room sends j := by
  obtain ⟨k, rfl⟩ : ∃ k, j = d + (k + 1) := ⟨j - d - 1, by omega⟩
  rw [room_add, room, Nat.add_zero]
  omega

namespace Socket

variable {s s' : Socket} {str : Str} {pos n : ℕ}

lemma send_count {slen : ℕ} (h : s.send str pos n = (.count slen, s')) :
    slen = min (s.sends 0).room n ∧ 0 < (s.sends 0).room ∧
      s' = { s with
        sends := fun i => s.sends (i + 1)
        outbox := s.outbox ++ (List.range slen).map fun i => str[pos + i]? } := by
  unfold send at h
  cases hev : s.sends 0 with
  | count k =>
      rw [hev] at h
      obtain ⟨hlen, rfl⟩ := Prod.mk.inj h
      obtain rfl := Send.count.inj hlen
      exact ⟨rfl, Nat.succ_pos k, rfl⟩
  | eagain => rw [hev] at h; cases h
  | error => rw [hev] at h; cases h

lemma send_stall {res : Send} (hres : res = .eagain ∨ res = .error)
    (h : s.send str pos n = (res, s')) :
    (s.sends 0).room = 0 ∧ s' = { s with sends := fun i => s.sends (i + 1) } := by
  unfold send at h
  cases hev : s.sends 0 with
  | count k =>
      rw [hev] at h
      obtain rfl := (Prod.mk.inj h).1
      rcases hres with hres | hres <;> cases hres
  | eagain =>
      rw [hev] at h
      exact ⟨rfl, (Prod.mk.inj h).2.symm⟩
  | error =>
      rw [hev] at h
      exact ⟨rfl, (Prod.mk.inj h).2.symm⟩

end Socket

namespace GentConnect

/-- **What the loop of `OutString` does** on the next `j` sends: it hands over as many bytes as there
is room for, and the connection waits for a request if these are all. -/
structure SendSpec (str : Str) (c : GentConnect) (s : Socket) (c' : GentConnect) (s' : Socket)
    (j n : ℕ) : Prop where
  count : n = min c.sendsize (room s.sends j)
  sends : s'.sends = fun i => s.sends (j + i)
  inbox : s'.inbox = s.inbox
  outbox : s'.outbox = s.outbox ++ (List.range n).map fun i => str[c.cursendsize + i]?
  all : n = c.sendsize →
    c' = { c with sendsize := 0, cursendsize := c.cursendsize + n }.setStatus .CONN_WAIT
  part : n ≠ c.sendsize → 0 < j ∧
    c' = { c with sendsize := c.sendsize - n, cursendsize := c.cursendsize + n }

section SendSpec

variable {str : Str} {c c' : GentConnect} {s s' : Socket}

lemma SendSpec.done (h : c.sendsize = 0) : SendSpec str c s (c.setStatus .CONN_WAIT) s 0 0 where
  count := by simp [h]
  sends := by simp
  inbox := rfl
  outbox := by simp
  all _ := by simp only [setStatus, h, Nat.add_zero]
  part hne := absurd h.symm hne

lemma SendSpec.stall (h : c.sendsize ≠ 0) (hroom : (s.sends 0).room = 0) :
    SendSpec str c s c { s with sends := fun i => s.sends (i + 1) } 1 0 where
  count := by simp [room, hroom]
  sends := by
    funext i
    rw [Nat.add_comm 1 i]
  inbox := rfl
  outbox := by simp
  all hall := absurd hall.symm h
  part _ := ⟨Nat.one_pos, rfl⟩

/-- A send in front of the others. -/
lemma SendSpec.cons {slen j n : ℕ} (hslen : slen = min (s.sends 0).room c.sendsize)
    (hrest : SendSpec str
      { c with sendsize := c.sendsize - slen, cursendsize := c.cursendsize + slen }
      { s with
        sends := fun i => s.sends (i + 1)
        outbox := s.outbox ++ (List.range slen).map fun i => str[c.cursendsize + i]? }
      c' s' j n) :
    SendSpec str c s c' s' (j + 1) (slen + n) where
  count := by
    have hcount := hrest.count
    simp only [room] at hcount ⊢
    omega
  sends := by rw [hrest.sends, shift_shift]
  inbox := hrest.inbox
  outbox := by
    rw [hrest.outbox, List.append_assoc, List.range_add, List.map_append, List.map_map]
    congr 2
    refine List.map_congr_left fun i _ => ?_
    simp [Nat.add_assoc]
  all hall := by
    rw [hrest.all (by simp only; omega)]
    simp only [Nat.add_assoc]
  part hne := by
    have hrest := (hrest.part (by simp only; omega)).2
    refine ⟨Nat.succ_pos j, hrest.trans ?_⟩
    simp only [Nat.add_assoc, Nat.sub_sub]

lemma sendLoop_spec (str : Str) (fuel : ℕ) (c : GentConnect) (s : Socket)
    (hfuel : c.sendsize ≤ fuel) :
    ∃ j n, SendSpec str c s (sendLoop str fuel c s).2.1 (sendLoop str fuel c s).2.2 j n := by
  fun_induction sendLoop str fuel c s with
  | case1 c s => exact ⟨0, 0, .done (by omega)⟩
  | case2 fuel c s hzero => exact ⟨0, 0, .done hzero⟩
  | case3 fuel c s hne slen s' hsend ih =>
      obtain ⟨hslen, hpos, rfl⟩ := Socket.send_count hsend
      obtain ⟨j, n, hrest⟩ := ih (by simp only; omega)
      exact ⟨j + 1, slen + n, .cons hslen hrest⟩
  | case4 fuel c s hne s' hsend =>
      obtain ⟨hroom, rfl⟩ := Socket.send_stall (Or.inl rfl) hsend
      exact ⟨1, 0, .stall hne hroom⟩
  | case5 fuel c s hne s' hsend =>
      obtain ⟨hroom, rfl⟩ := Socket.send_stall (Or.inr rfl) hsend
      exact ⟨1, 0, .stall hne hroom⟩

/-- Sending reads nothing. -/
lemma sendLoop_recvs (str : Str) (fuel : ℕ) (c : GentConnect) (s : Socket) :
    (sendLoop str fuel c s).2.2.recvs = s.recvs := by
  fun_induction sendLoop str fuel c s with
  | case1 c s => rfl
  | case2 fuel c s hzero => rfl
  | case3 fuel c s hne slen s' hsend ih =>
      obtain ⟨-, -, rfl⟩ := Socket.send_count hsend
      exact ih
  | case4 fuel c s hne s' hsend =>
      obtain ⟨-, rfl⟩ := Socket.send_stall (Or.inl rfl) hsend
      rfl
  | case5 fuel c s hne s' hsend =>
      obtain ⟨-, rfl⟩ := Socket.send_stall (Or.inr rfl) hsend
      rfl

end SendSpec

/-- **`OutString`.** -/
lemma outString_spec (c : GentConnect) (s : Socket) (str : Str) :
    ∃ j n, SendSpec str (c.begin str) s (c.outString s str).2.1 (c.outString s str).2.2 j n :=
  sendLoop_spec str _ (c.begin str) s le_rfl

end GentConnect

end Riser
