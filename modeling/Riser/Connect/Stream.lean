import Riser.Core.Transition
import Riser.Connect.GentConnect
import Riser.Redis.Faults

/-!
# What a connection sends

A string may go out in pieces.  `OutString` then keeps in the connection **how many** bytes are left
(`sendsize`) and **where** they start (`cursendsize`), but not the string: the next call is expected
to pass it again.  Three parties call it:

* `TryRunning`, in `CONN_WRITE`, with the member `outstr`;
* `MasterHandle`, on a thread of its own, with a batch that it has just built;
* `Slave` and `SlaveAuth`, on the slave's side.

`Stream` is a connection with the strings it was told to send.  A call that comes while bytes of the
last string are unsent, and passes this string, is a retry; any other call asks for a new string.
The peer should receive the strings one after the other (`Delivers`).

It does as long as every call made in the middle of a string is a retry (`stream_delivers`), and
`TryRunning` on its own only makes such calls (`turns_resume`).  `MasterHandle` never does, so that
two of its batches run into each other (`batches_spliced`).
-/

namespace Riser

open Cpp

/-! ## The calls -/

/-- A connection, and the strings it was told to send. -/
structure Stream where
  running : Running
  requested : List Str

/-- What happens on a connection: one turn of the loop of `TryRunning`, whatever the command does in
it; `MasterHandle` with a batch, where `idle` says that `Start` had nothing to send; a message of
the slave. -/
inductive StreamEvent where
  | turn (env : Env)
  | masterHandle (idle : Bool) (outstr : Str)
  | slave (sendstr : Str)

namespace StreamEvent

/-- The string that `OutString` is called with, if it is. -/
def asks (x : Running) : StreamEvent → Option Str
  | .turn _ => if x.status = .CONN_WRITE then some x.conn.outstr else none
  | .masterHandle _ outstr => some outstr
  | .slave sendstr => some sendstr

/-- The event takes place.  The bytes of `rbuf` are forgotten when `TryRunning` returns, and a fault
ends the server. -/
def take (x : Running) : StreamEvent → Option Running
  | .turn env =>
      match x.turn env with
      | .next y => some y
      | .leave (.ok (_, y)) => some { y with rbytes := [] }
      | .leave (.error _) => none
  | .masterHandle idle outstr =>
      let c := if idle then x.conn.setStatus .CONN_WAIT else x.conn
      let (_, c, sock) := c.outString x.sock outstr
      some { x with conn := c.reset, sock := sock }
  | .slave sendstr =>
      let (_, c, sock) := x.conn.outString x.sock sendstr
      some { x with conn := c, sock := sock }

end StreamEvent

namespace Stream

/-- The strings, once `str` is asked for: a retry, with bytes of the last one unsent, adds none. -/
def request (outbox : List (Option UInt8)) (requested : List Str) (str : Str) : List Str :=
  if outbox.length < requested.flatten.length ∧ requested.getLast? = some str then requested
  else requested ++ [str]

def step (x : Stream) (e : StreamEvent) : Option Stream :=
  (e.take x.running).map fun y =>
    ⟨y, ((e.asks x.running).map (request x.running.sock.outbox x.requested)).getD x.requested⟩

/-- A connection after `Init`, nothing sent yet. -/
def start (comm : GentRedis) (sock : Socket) : Stream :=
  ⟨⟨GentConnect.init comm, [], { sock with outbox := [] }⟩, []⟩

/-- **The stream is the strings**, as far as it goes.  A byte from behind the end of a string is
`none` in `outbox`, so that there is none of these either. -/
def Delivers (x : Stream) : Prop := x.running.sock.outbox <+: x.requested.flatten.map some

instance (x : Stream) : Decidable x.Delivers := inferInstanceAs (Decidable (_ <+: _))

/-- A call in the middle of a string passes this string. -/
def Resumes (x : Stream) (e : StreamEvent) : Prop :=
  ∀ str ∈ e.asks x.running, x.running.conn.sendsize ≠ 0 → x.requested.getLast? = some str

instance (x : Stream) (e : StreamEvent) : Decidable (x.Resumes e) :=
  inferInstanceAs (Decidable (∀ str ∈ e.asks x.running, _ → _))

end Stream

/-! ## A turn that does not write -/

/-- The counters and the bytes sent are the same. -/
structure Running.SameOut (x y : Running) : Prop where
  sendsize : y.conn.sendsize = x.conn.sendsize
  cursendsize : y.conn.cursendsize = x.conn.cursendsize
  outbox : y.sock.outbox = x.sock.outbox

namespace Running

variable {env : Env} {x : Running}

/-- Said of however a turn ends. -/
def KeepsOut (x : Running) : Loop.Outcome Running Left → Prop
  | .next y => x.SameOut y
  | .leave (.ok (_, y)) => x.SameOut y
  | .leave (.error _) => True

lemma keepsOut_read : x.KeepsOut (x.read env) := by
  have hdrains := (GentConnect.readBuffer_spec x.sock x.rbytes x.conn.rsize).1
  unfold read
  rcases hbuf : GentConnect.readBuffer x.sock x.rbytes x.conn.rsize
    with ⟨readNum, rbytes, rsize, sock⟩
  rw [hbuf] at hdrains
  dsimp only at hdrains ⊢
  split_ifs with hneg hzero
  · exact ⟨rfl, rfl, hdrains.outbox⟩
  · exact ⟨rfl, rfl, hdrains.outbox⟩
  · cases process env.cfg env.now x.conn.comm rbytes with
    | error f => trivial
    | ok res =>
        obtain ⟨status, outstr, r⟩ := res
        dsimp only
        split_ifs
        · exact ⟨rfl, rfl, hdrains.outbox⟩
        · exact ⟨rfl, rfl, hdrains.outbox⟩

lemma keepsOut_nextRead : x.KeepsOut x.nextRead := by
  unfold nextRead
  dsimp only
  split_ifs with hzero
  · exact ⟨rfl, rfl, rfl⟩
  · cases hread : x.sock.read x.conn.remainsize with
    | mk res sock =>
        have hdrains := Socket.read_drains hread
        cases res with
        | data bytes => exact ⟨rfl, rfl, hdrains.outbox⟩
        | eagain => exact ⟨rfl, rfl, hdrains.outbox⟩
        | eof => exact ⟨rfl, rfl, hdrains.outbox⟩
        | error => exact ⟨rfl, rfl, hdrains.outbox⟩

lemma keepsOut_data : x.KeepsOut (x.data env) := by
  unfold data
  dsimp only
  split_ifs
  · exact ⟨rfl, rfl, rfl⟩
  · exact ⟨rfl, rfl, rfl⟩

lemma keepsOut_conRead : x.KeepsOut (x.conRead env) := by
  unfold conRead
  dsimp only
  generalize (if x.conn.cbuf.isSome then x.conn.csize else readBufferSize) = csize
  have hdrains := (GentConnect.readBuffer_spec x.sock (x.conn.cbuf.getD []) csize).1
  rcases hbuf : GentConnect.readBuffer x.sock (x.conn.cbuf.getD []) csize
    with ⟨readNum, cbytes, csize', sock⟩
  rw [hbuf] at hdrains
  dsimp only at hdrains ⊢
  split_ifs with hneg hzero
  · exact ⟨rfl, rfl, hdrains.outbox⟩
  · exact ⟨rfl, rfl, hdrains.outbox⟩
  · cases continueProcess x.conn.comm cbytes with
    | error f => trivial
    | ok res =>
        obtain ⟨ret, r⟩ := res
        dsimp only
        split_ifs
        · exact ⟨rfl, rfl, hdrains.outbox⟩
        · exact ⟨rfl, rfl, hdrains.outbox⟩

/-- **Only a write sends.** -/
lemma keepsOut_turn (env : Env) (hx : x.status ≠ .CONN_WRITE) : x.KeepsOut (x.turn env) := by
  unfold turn
  cases hstatus : x.status with
  | CONN_READ => exact keepsOut_read
  | CONN_NREAD => exact keepsOut_nextRead
  | CONN_WRITE => exact absurd hstatus hx
  | CONN_WAIT => exact ⟨rfl, rfl, rfl⟩
  | CONN_CLOSE => exact ⟨rfl, rfl, rfl⟩
  | CONN_DATA => exact keepsOut_data
  | CONN_CONREAD => exact keepsOut_conRead

end Running

/-! ## The invariant -/

namespace Stream

variable {x x' : Stream} {e : StreamEvent}

/-- The counters are about the last string. -/
structure Within (sendsize cursendsize : ℕ) (outbox : List (Option UInt8)) (done : List Str)
    (cur : Str) : Prop where
  size : cursendsize + sendsize = cur.length
  sent : outbox = (done.flatten ++ cur.take cursendsize).map some

/-- All strings have been sent, or the connection is in the middle of the last. -/
def Sound (sendsize cursendsize : ℕ) (outbox : List (Option UInt8)) (requested : List Str) : Prop :=
  sendsize = 0 ∧ outbox = requested.flatten.map some ∨
    0 < sendsize ∧ ∃ done cur, requested = done ++ [cur] ∧
      Within sendsize cursendsize outbox done cur

/-- The same of a connection. -/
def Aligned (c : GentConnect) (s : Socket) (requested : List Str) : Prop :=
  Sound c.sendsize c.cursendsize s.outbox requested

section Sound

variable {sendsize cursendsize : ℕ} {outbox : List (Option UInt8)} {requested done : List Str}
  {str : Str}

lemma Within.sound (h : Within sendsize cursendsize outbox done str) :
    Sound sendsize cursendsize outbox (done ++ [str]) := by
  by_cases hzero : sendsize = 0
  · refine Or.inl ⟨hzero, ?_⟩
    have hsize := h.size
    rw [h.sent, List.take_of_length_le (by omega)]
    simp
  · exact Or.inr ⟨Nat.pos_of_ne_zero hzero, done, str, rfl, h⟩

/-- What has been sent is a beginning of what was asked for. -/
lemma Sound.isPrefix (h : Sound sendsize cursendsize outbox requested) :
    outbox <+: requested.flatten.map some := by
  rcases h with ⟨-, hsent⟩ | ⟨-, done, cur, rfl, hin⟩
  · rw [hsent]
  · rw [hin.sent, List.flatten_append, List.flatten_singleton]
    exact List.IsPrefix.map some ((List.prefix_append_right_inj _).mpr (List.take_prefix _ cur))

lemma Within.length_lt (h : Within sendsize cursendsize outbox done str) (hpos : 0 < sendsize) :
    outbox.length < (done ++ [str]).flatten.length := by
  have hsize := h.size
  rw [h.sent, List.length_map, List.flatten_append, List.flatten_singleton, List.length_append,
    List.length_append, List.length_take]
  omega

end Sound

/-- **Before the loop of `OutString`**: if the call is a retry, or all has been sent, the counters are
about the string it is given. -/
lemma within_begin {c : GentConnect} {s : Socket} {requested : List Str} {str : Str}
    (h : Aligned c s requested) (hres : c.sendsize ≠ 0 → requested.getLast? = some str) :
    ∃ done, request s.outbox requested str = done ++ [str] ∧
      Within (c.begin str).sendsize (c.begin str).cursendsize s.outbox done str := by
  unfold GentConnect.begin request
  rcases h with ⟨hzero, hsent⟩ | ⟨hpos, done, cur, rfl, hin⟩
  · refine ⟨requested, if_neg fun h => ?_, ?_⟩
    · rw [hsent, List.length_map] at h
      exact lt_irrefl _ h.1
    · rw [if_pos hzero]
      exact ⟨Nat.zero_add _, by rw [hsent, List.take_zero, List.append_nil]⟩
  · have hlast := hres hpos.ne'
    obtain rfl : cur = str := by simpa using hlast
    refine ⟨done, if_pos ⟨hin.length_lt hpos, hlast⟩, ?_⟩
    rw [if_neg hpos.ne']
    exact hin

/-- The bytes a send is given are the next ones of the string. -/
lemma map_getElem_eq {str : Str} {pos n : ℕ} (h : pos + n ≤ str.length) :
    (List.range n).map (fun i => str[pos + i]?) = ((str.drop pos).take n).map some := by
  refine List.ext_getElem? fun i => ?_
  by_cases hi : i < n
  · have hlt : pos + i < str.length := by omega
    simp [hi, List.getElem?_take_of_lt, List.getElem?_eq_getElem hlt]
  · simp [hi]

/-- **The loop of `OutString`** stays within the string. -/
lemma Within.send {c c' : GentConnect} {s s' : Socket} {done : List Str} {str : Str} {j n : ℕ}
    (h : Within c.sendsize c.cursendsize s.outbox done str)
    (hspec : GentConnect.SendSpec str c s c' s' j n) :
    Within c'.sendsize c'.cursendsize s'.outbox done str := by
  have hsize := h.size
  have hcount := hspec.count
  have hnext : c'.cursendsize = c.cursendsize + n ∧ c'.sendsize = c.sendsize - n := by
    by_cases hall : n = c.sendsize
    · rw [hspec.all hall]
      exact ⟨rfl, by rw [hall, Nat.sub_self]; rfl⟩
    · rw [(hspec.part hall).2]
      exact ⟨rfl, rfl⟩
  refine ⟨by omega, ?_⟩
  rw [hspec.outbox, h.sent, map_getElem_eq (by omega), ← List.map_append, hnext.1,
    List.take_add, List.append_assoc]

/-- **A call of `OutString`** that resumes. -/
lemma Aligned.outString {c : GentConnect} {s : Socket} {requested : List Str} {str : Str}
    (h : Aligned c s requested) (hres : c.sendsize ≠ 0 → requested.getLast? = some str) :
    Aligned (c.outString s str).2.1 (c.outString s str).2.2 (request s.outbox requested str) := by
  obtain ⟨done, hreq, hin⟩ := within_begin h hres
  obtain ⟨j, n, hspec⟩ := c.outString_spec s str
  rw [hreq]
  exact (hin.send hspec).sound

lemma Aligned.of_sameOut {x y : Running} {requested : List Str}
    (h : Aligned x.conn x.sock requested) (hy : x.SameOut y) :
    Aligned y.conn y.sock requested := by
  unfold Aligned
  rw [hy.sendsize, hy.cursendsize, hy.outbox]
  exact h

/-! ## Whole runs -/

lemma step_eq_some (h : x.step e = some x') :
    ∃ y, e.take x.running = some y ∧
      x' = ⟨y, ((e.asks x.running).map (request x.running.sock.outbox x.requested)).getD
        x.requested⟩ := by
  obtain ⟨y, hy, rfl⟩ := Option.map_eq_some_iff.mp h
  exact ⟨y, hy, rfl⟩

lemma sameOut_of_turn {env : Env} {y : Running} (hwrite : x.running.status ≠ .CONN_WRITE)
    (hy : (StreamEvent.turn env).take x.running = some y) : x.running.SameOut y := by
  have hkeep := Running.keepsOut_turn env hwrite
  unfold StreamEvent.take at hy
  cases hturn : x.running.turn env with
  | next z =>
      simp only [hturn, Option.some.injEq] at hy
      rw [hturn] at hkeep
      exact hy ▸ hkeep
  | leave res =>
      cases res with
      | error f => simp [hturn] at hy
      | ok res =>
          simp only [hturn, Option.some.injEq] at hy
          rw [hturn] at hkeep
          rw [← hy]
          exact ⟨hkeep.sendsize, hkeep.cursendsize, hkeep.outbox⟩

/-- **One step.** -/
lemma Aligned.step (h : Aligned x.running.conn x.running.sock x.requested) (hres : x.Resumes e)
    (hstep : x.step e = some x') : Aligned x'.running.conn x'.running.sock x'.requested := by
  obtain ⟨y, hy, rfl⟩ := step_eq_some hstep
  cases e with
  | turn env =>
      by_cases hwrite : x.running.status = .CONN_WRITE
      · have hasks : (StreamEvent.turn env).asks x.running = some x.running.conn.outstr :=
          if_pos hwrite
        have hturn : x.running.turn env = x.running.write := by
          unfold Running.turn
          rw [hwrite]
        simp only [StreamEvent.take, hturn, Running.write, Option.some.injEq] at hy
        rw [← hy, hasks]
        exact Aligned.outString (c := x.running.conn.reset) h (hres _ hasks)
      · have hasks : (StreamEvent.turn env).asks x.running = none := if_neg hwrite
        rw [hasks]
        exact h.of_sameOut (sameOut_of_turn hwrite hy)
  | masterHandle idle outstr =>
      simp only [StreamEvent.take, Option.some.injEq] at hy
      rw [← hy]
      have hout := hres outstr rfl
      cases idle with
      | false => exact h.outString hout
      | true => exact Aligned.outString (c := x.running.conn.setStatus .CONN_WAIT) h hout
  | slave sendstr =>
      simp only [StreamEvent.take, Option.some.injEq] at hy
      rw [← hy]
      exact h.outString (hres sendstr rfl)

lemma aligned_start (comm : GentRedis) (sock : Socket) :
    Aligned (start comm sock).running.conn (start comm sock).running.sock
      (start comm sock).requested :=
  Or.inl ⟨rfl, rfl⟩

/-- **The strings, one after the other**, whatever the calls and however the socket takes the bytes,
if every call in the middle of a string is a retry. -/
theorem stream_delivers (comm : GentRedis) (sock : Socket) (es : List StreamEvent) (x : Stream)
    (hrun : Transition.run step (start comm sock) es = some x)
    (hres : Transition.Along step Resumes (start comm sock) es) : x.Delivers := by
  have hgood : Aligned x.running.conn x.running.sock x.requested :=
    Transition.inv_run (I := fun x : Stream => Aligned x.running.conn x.running.sock x.requested)
      (fun _ _ _ hs he hstep => hs.step he hstep) es (aligned_start comm sock) hres hrun
  exact hgood.isPrefix

/-- A socket with room for ten bytes now, and for more later. -/
def slowSocket : Socket :=
  ⟨[], fun _ => .eagain, fun i => if i = 0 then .count 9 else if i = 1 then .eagain else .count 99,
    []⟩

/-- The batch that deletes a key of one byte. -/
def delBatch (key : UInt8) : Str := lit "*2\r\n$3\r\ndel\r\n$1\r\n" ++ key :: crlf

/-- Two batches, one call of `MasterHandle` each. -/
def twoBatches (first second : UInt8) : List StreamEvent :=
  [.masterHandle false (delBatch first), .masterHandle false (delBatch second)]

/-- A batch that goes out in two pieces. -/
theorem stream_delivers_retry : ∃ x,
    Transition.run step (start newRedis slowSocket) (twoBatches 97 97) = some x ∧
    x.Delivers ∧ x.requested = [delBatch 97] ∧ x.running.conn.sendsize = 0 :=
  ⟨_, rfl, stream_delivers newRedis slowSocket (twoBatches 97 97) _ rfl (by decide), by decide,
    by decide⟩

/-- **Two batches run into each other.**  The slave should delete `a` and then `b`.  It receives ten
bytes of the first batch and, from the eleventh on, the second: one batch in all, that deletes
`b`. -/
theorem batches_spliced : ∃ x,
    Transition.run step (start newRedis slowSocket) (twoBatches 97 98) = some x ∧
    x.requested = [delBatch 97, delBatch 98] ∧ ¬ x.Delivers ∧
    x.running.sock.outbox = (delBatch 98).map some ∧ x.running.conn.sendsize = 0 :=
  ⟨_, rfl, by decide, by decide, by decide, by decide⟩

/-! ## `TryRunning` on its own -/

/-- An unfinished string is the answer that the connection is writing. -/
def Retrying (x : Stream) : Prop :=
  x.running.conn.sendsize ≠ 0 →
    x.running.status = .CONN_WRITE ∧ x.requested.getLast? = some x.running.conn.outstr

lemma getLast_request (outbox : List (Option UInt8)) (requested : List Str) (str : Str) :
    (request outbox requested str).getLast? = some str := by
  unfold request
  split_ifs with h
  · exact h.2
  · simp

lemma Retrying.turn {env : Env} (h : x.Retrying) (hstep : x.step (.turn env) = some x') :
    x'.Retrying := by
  obtain ⟨y, hy, rfl⟩ := step_eq_some hstep
  by_cases hwrite : x.running.status = .CONN_WRITE
  · have hasks : (StreamEvent.turn env).asks x.running = some x.running.conn.outstr :=
      if_pos hwrite
    simp only [StreamEvent.take, Running.turn, hwrite, Running.write, Option.some.injEq] at hy
    obtain ⟨j, n, hspec⟩ := x.running.conn.reset.outString_spec x.running.sock
      x.running.conn.outstr
    rw [← hy, hasks]
    intro hleft
    by_cases hall : n = (x.running.conn.reset.begin x.running.conn.outstr).sendsize
    · exact absurd (congrArg GentConnect.sendsize (hspec.all hall)) hleft
    · have hconn := (hspec.part hall).2
      have hsame : (x.running.conn.reset.begin x.running.conn.outstr).comm = x.running.conn.comm ∧
          (x.running.conn.reset.begin x.running.conn.outstr).outstr = x.running.conn.outstr := by
        unfold GentConnect.begin
        split_ifs <;> exact ⟨rfl, rfl⟩
      refine ⟨?_, ?_⟩
      · show (x.running.conn.reset.outString _ _).2.1.comm.curstatus = _
        rw [hconn]
        exact (congrArg GentRedis.curstatus hsame.1).trans hwrite
      · show (request _ _ _).getLast? = some (x.running.conn.reset.outString _ _).2.1.outstr
        rw [getLast_request, hconn]
        exact congrArg some hsame.2.symm
  · have hzero : x.running.conn.sendsize = 0 := by
      by_contra hne
      exact hwrite (h hne).1
    intro hleft
    have hsame := sameOut_of_turn hwrite hy
    exact absurd (hsame.sendsize.trans hzero) hleft

/-- **`TryRunning` resumes.**  While nothing but its turns happens on a connection, every call it
makes in the middle of a string is a retry. -/
theorem turns_resume (comm : GentRedis) (sock : Socket) (envs : List Env) :
    Transition.Along step Resumes (start comm sock) (envs.map .turn) := by
  refine Transition.along_of_inv (Q := fun e => ∃ env, e = .turn env) (I := Retrying)
    (fun x e x' hx he hstep => ?_) ?_ _ (fun hne => absurd rfl hne) ?_
  · obtain ⟨env, rfl⟩ := he
    exact hx.turn hstep
  · intro x e hx he str hstr hne
    obtain ⟨env, rfl⟩ := he
    simp [StreamEvent.asks, (hx hne).1] at hstr
    rw [← hstr]
    exact (hx hne).2
  · intro e he
    obtain ⟨env, -, rfl⟩ := List.mem_map.mp he
    exact ⟨env, rfl⟩

end Stream

end Riser
