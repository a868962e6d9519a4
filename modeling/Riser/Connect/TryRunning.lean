import Riser.Connect.GentConnect
import Riser.Redis.Faults
import Riser.Redis.Resp

/-!
# Does `TryRunning` give the thread back?

A worker serves many connections, one call of `TryRunning` after the other, and a call that goes on
forever takes them all with it.

* **Not for reading.**  A turn that goes on has read a byte, or it goes on to a status whose turn
  leaves the loop.  Of the bytes that the peer has sent there are only finitely many.
* **For writing it can** (`write_spins`).  The turn of `CONN_WRITE` ignores what `OutString` returns
  (its `return` is commented out), so that a socket that takes no more bytes is asked again at once.

A call can only find the connection in `CONN_WRITE`, it does not get there: where it sets this status
it returns, and no command sets it (`process_noWrite`).  So `tryRunning_ends_iff` has the exact
condition: a connection that is found writing needs a socket with room for what it has left to send.
-/

namespace Riser

open Cpp

/-! ## No command asks for a write -/

/-- The parser does not leave the connection writing. -/
def NoWrite (p : Parsed) : Prop := ∀ status r, p = .ok (status, r) → r.curstatus ≠ .CONN_WRITE

section NoWrite

variable {r : GentRedis}

lemma noWrite_ok {status : ℤ} (h : r.curstatus ≠ .CONN_WRITE) :
    NoWrite (.ok (status, r)) := by
  intro status' r' heq
  rw [← (Prod.mk.inj (Except.ok.inj heq)).2]
  exact h

lemma noWrite_bind {α : Type} {e : Except Fault α} {f : α → Parsed} (h : ∀ a, NoWrite (f a)) :
    NoWrite (e >>= f) := by
  cases e with
  | error fault =>
      intro status r heq
      cases heq
  | ok a => exact h a

lemma noWrite_ite {p : Prop} [Decidable p] {a b : Parsed} (ha : NoWrite a) (hb : NoWrite b) :
    NoWrite (if p then a else b) := by
  split_ifs
  · exact ha
  · exact hb

lemma noWrite_withAuth {cfg : Config} {body : GentRedis → Parsed}
    (h : r.curstatus ≠ .CONN_WRITE)
    (hbody : ∀ r' : GentRedis, r'.curstatus ≠ .CONN_WRITE → NoWrite (body r')) :
    NoWrite (withAuth cfg r body) :=
  noWrite_ite (hbody r h) (noWrite_ite (hbody _ h) (noWrite_ok h))

lemma noWrite_keyParser {wrong : ℤ} {cfg : Config} {v : List Str} (h : r.curstatus ≠ .CONN_WRITE) :
    NoWrite (keyParser wrong cfg v r) :=
  noWrite_withAuth h fun _ hr =>
    noWrite_ite (noWrite_ok hr) (noWrite_bind fun _ => noWrite_ok (by simp))

lemma noWrite_takeContent {v : List Str} {i pos : ℕ} {data : Str}
    (h : r.curstatus ≠ .CONN_WRITE) : NoWrite (takeContent v i data pos r) :=
  noWrite_bind fun _ => noWrite_bind fun _ => noWrite_bind fun _ =>
    noWrite_ite (noWrite_bind fun _ => noWrite_ok h) (noWrite_ok h)

lemma noWrite_valueParser {n lines : ℕ} {marks : Str} {body : ℕ → GentRedis → Parsed}
    {cfg : Config} {v : List Str} {data : Str} (h : r.curstatus ≠ .CONN_WRITE)
    (hbody : ∀ pos (r' : GentRedis), r'.curstatus ≠ .CONN_WRITE → NoWrite (body pos r')) :
    NoWrite (valueParser n marks lines body cfg v data r) := by
  refine noWrite_withAuth h fun r' hr' => noWrite_ite (noWrite_ok (by simp)) ?_
  refine noWrite_bind fun key => noWrite_ite (noWrite_ok (by simp)) ?_
  cases headerEnd data marks lines with
  | none => exact noWrite_ok (by simp)
  | some pos => exact hbody pos _ (by simp)

lemma noWrite_msetPairs {data first : Str} {num : ℤ} (h : r.curstatus ≠ .CONN_WRITE) :
    NoWrite (msetPairs data first num r) := by
  unfold msetPairs
  cases headerEnd data first 3 with
  | none => exact noWrite_ok h
  | some pos =>
      refine noWrite_bind fun _ => noWrite_bind fun ⟨ret, m⟩ => noWrite_ok ?_
      split_ifs
      · simp
      · exact h

lemma noWrite_mgetKeys {v : List Str} {num : ℤ} (h : r.curstatus ≠ .CONN_WRITE) :
    NoWrite (mgetKeys v num r) :=
  noWrite_ite (noWrite_ok h) (noWrite_bind fun _ => noWrite_ok (by simp))

lemma noWrite_plain {cfg : Config} (h : r.curstatus ≠ .CONN_WRITE) : NoWrite (plainParser cfg r) :=
  noWrite_withAuth h fun _ _ => noWrite_ok (by simp)

/-- **No command.** -/
lemma noWrite_command {cfg : Config} {now : ℕ} {v : List Str} {data : Str}
    (h : r.curstatus ≠ .CONN_WRITE) (c : Command) : NoWrite (c.parser cfg now v data r) := by
  cases c with
  | get => exact noWrite_keyParser h
  | ttl => exact noWrite_keyParser h
  | del => exact noWrite_keyParser h
  | keyExists => exact noWrite_keyParser h
  | keys => exact noWrite_keyParser h
  | set => exact noWrite_valueParser h fun _ _ => noWrite_takeContent
  | setex => exact noWrite_valueParser h fun _ _ hr => noWrite_bind fun _ => noWrite_takeContent hr
  | mset =>
      show NoWrite (GentProcessMset.parser cfg v data r)
      unfold GentProcessMset.parser
      refine noWrite_withAuth h fun r' _ => noWrite_ite (noWrite_ok (by simp)) ?_
      refine noWrite_bind fun _ => noWrite_bind fun _ => noWrite_ite (noWrite_ok (by simp)) ?_
      exact noWrite_msetPairs (by simp)
  | mget =>
      show NoWrite (GentProcessMget.parser cfg v r)
      unfold GentProcessMget.parser
      refine noWrite_withAuth h fun r' hr => ?_
      exact noWrite_bind fun _ => noWrite_bind fun _ => noWrite_mgetKeys hr
  | randomkey => exact noWrite_plain h
  | ping => exact noWrite_plain h
  | quit => exact noWrite_ok (by simp)
  | info =>
      show NoWrite (GentProcessInfo.parser cfg v r)
      unfold GentProcessInfo.parser
      refine noWrite_withAuth h fun r' _ => noWrite_ite ?_ ?_
      · exact noWrite_bind fun _ => noWrite_ok (by simp)
      · exact noWrite_bind fun _ => noWrite_ok (by simp)
  | slave =>
      show NoWrite (GentProcessSlave.parser cfg v r)
      unfold GentProcessSlave.parser
      refine noWrite_withAuth h fun _ hr => noWrite_ite (noWrite_ok hr) ?_
      refine noWrite_bind fun _ => noWrite_ite (noWrite_ok hr) ?_
      exact noWrite_bind fun _ => noWrite_ok (by simp)
  | rep =>
      show NoWrite (GentProcessRep.parser cfg v r)
      unfold GentProcessRep.parser
      refine noWrite_ite (noWrite_ok h) (noWrite_bind fun _ => noWrite_bind fun _ => ?_)
      exact noWrite_bind fun _ => noWrite_ok (by simp)
  | reply =>
      show NoWrite (GentProcessReply.parser cfg v r)
      unfold GentProcessReply.parser
      refine noWrite_withAuth h fun r' hr => noWrite_ite (noWrite_ok hr) ?_
      refine noWrite_bind fun msg => noWrite_ok ?_
      split_ifs
      · simp
      · simp
      · simp
      · exact hr
  | auth =>
      show NoWrite (GentProcessAuth.parser cfg v r)
      unfold GentProcessAuth.parser
      refine noWrite_ite (noWrite_ok h) (noWrite_bind fun str => noWrite_ite (noWrite_ok h) ?_)
      exact noWrite_ite (noWrite_ok h) (noWrite_ok (by simp))

/-- **No request.** -/
lemma process_noWrite {cfg : Config} {now : ℕ} {data outstr : Str} {status : ℤ} {r' : GentRedis}
    (h : r.curstatus ≠ .CONN_WRITE) (hr : process cfg now r data = .ok (status, outstr, r')) :
    r'.curstatus ≠ .CONN_WRITE := by
  rcases process_cases hr with ⟨rfl, -⟩ | ⟨c, st, -, hparse, -⟩
  · exact h
  · exact noWrite_command (r := { r with subc := some c }) h c st r' hparse

lemma noWrite_continueProcess {data : Str} (h : r.curstatus ≠ .CONN_WRITE) :
    NoWrite (continueProcess r data) := by
  refine noWrite_ite (noWrite_bind fun ⟨ret, m⟩ => noWrite_ok ?_) (noWrite_ok h)
  dsimp only
  split_ifs
  · simp
  · simp
  · simp
  · exact h

end NoWrite

/-! ## Reading -/

namespace Running

open Loop (Outcome)

variable {env : Env} {x : Running}

/-- Turns that go on without reading lead from these two statuses to another one. -/
def rank : Status → ℕ
  | .CONN_READ => 1
  | .CONN_NREAD => 1
  | _ => 0

/-- What gets smaller. -/
def fuel (x : Running) : ℕ := 2 * x.sock.inbox.length + rank x.status

/-- The turn leaves the loop, or it goes on with less to do and not in `CONN_WRITE`. -/
def Progress (x : Running) (o : Outcome Running Left) : Prop :=
  (∃ res, o = .leave res) ∨ ∃ y, o = .next y ∧ y.status ≠ .CONN_WRITE ∧ y.fuel < x.fuel

lemma Progress.leave {res : Left} : Progress x (.leave res) := Or.inl ⟨res, rfl⟩

/-- Reading a byte is progress whatever the status is then. -/
lemma Progress.of_less {y : Running} (hw : y.status ≠ .CONN_WRITE)
    (h : y.sock.inbox.length < x.sock.inbox.length) : Progress x (.next y) := by
  refine Or.inr ⟨y, rfl, hw, ?_⟩
  have hrank : rank y.status ≤ 1 := by cases y.status <;> decide
  unfold fuel
  omega

/-- So is leaving one of the two statuses. -/
lemma Progress.of_rank {y : Running} (hw : y.status ≠ .CONN_WRITE)
    (h : y.sock.inbox.length ≤ x.sock.inbox.length) (hrank : rank y.status < rank x.status) :
    Progress x (.next y) := by
  refine Or.inr ⟨y, rfl, hw, ?_⟩
  unfold fuel
  omega

lemma progress_read (hx : x.status = .CONN_READ) : Progress x (x.read env) := by
  have hstatus : x.conn.comm.curstatus ≠ .CONN_WRITE := by
    rw [show x.conn.comm.curstatus = _ from hx]
    simp
  obtain ⟨hdrains, hless⟩ := GentConnect.readBuffer_spec x.sock x.rbytes x.conn.rsize
  unfold read
  rcases hbuf : GentConnect.readBuffer x.sock x.rbytes x.conn.rsize
    with ⟨readNum, rbytes, rsize, sock⟩
  rw [hbuf] at hdrains hless
  dsimp only at hdrains hless ⊢
  split_ifs with hneg hzero
  · exact .leave
  · refine .of_rank (fun h => ?_) hdrains.inbox ?_
    · cases h
    · rw [hx]
      exact Nat.one_pos
  · cases hproc : process env.cfg env.now x.conn.comm rbytes with
    | error f => exact .leave
    | ok res =>
        obtain ⟨status, outstr, r⟩ := res
        dsimp only
        split_ifs
        · exact .leave
        · exact .of_less (process_noWrite hstatus hproc) (hless (by omega))

lemma progress_nextRead (hx : x.status = .CONN_NREAD) : Progress x x.nextRead := by
  have hrank : ∀ y : Running, rank y.status = 0 → rank y.status < rank x.status := fun y hy => by
    rw [hx, hy]
    decide
  unfold nextRead
  dsimp only
  split_ifs with hzero
  · exact .of_rank (fun h => by cases h) le_rfl (hrank _ rfl)
  · cases hread : x.sock.read x.conn.remainsize with
    | mk res sock =>
        have hdrains := Socket.read_drains hread
        cases res with
        | data bytes =>
            refine .of_less (fun h => ?_) (Socket.read_less hread)
            exact absurd (hx.symm.trans h) (by decide)
        | eagain => exact .leave
        | eof => exact .of_rank (fun h => by cases h) hdrains.inbox (hrank _ rfl)
        | error => exact .of_rank (fun h => by cases h) hdrains.inbox (hrank _ rfl)

lemma progress_conRead (hx : x.status = .CONN_CONREAD) : Progress x (x.conRead env) := by
  have hstatus : x.conn.comm.curstatus ≠ .CONN_WRITE := by
    rw [show x.conn.comm.curstatus = _ from hx]
    simp
  unfold conRead
  dsimp only
  generalize (if x.conn.cbuf.isSome then x.conn.csize else readBufferSize) = csize
  obtain ⟨-, hless⟩ := GentConnect.readBuffer_spec x.sock (x.conn.cbuf.getD []) csize
  rcases hbuf : GentConnect.readBuffer x.sock (x.conn.cbuf.getD []) csize
    with ⟨readNum, cbytes, csize', sock⟩
  rw [hbuf] at hless
  dsimp only at hless ⊢
  split_ifs with hneg hzero
  · exact .leave
  · exact .leave
  · cases hproc : continueProcess x.conn.comm cbytes with
    | error f => exact .leave
    | ok res =>
        obtain ⟨ret, r⟩ := res
        dsimp only
        split_ifs
        · exact .of_less (noWrite_continueProcess hstatus ret r hproc) (hless (by omega))
        · exact .leave

/-- **Every turn but a write makes progress.** -/
lemma progress (hx : x.status ≠ .CONN_WRITE) : Progress x (x.turn env) := by
  unfold turn
  cases hstatus : x.status with
  | CONN_READ => exact progress_read hstatus
  | CONN_NREAD => exact progress_nextRead hstatus
  | CONN_WRITE => exact absurd hstatus hx
  | CONN_WAIT => exact .leave
  | CONN_CLOSE => exact .leave
  | CONN_DATA =>
      show Progress x (data env x)
      unfold data
      dsimp only
      split_ifs
      · exact .leave
      · exact .leave
  | CONN_CONREAD => exact progress_conRead hstatus

/-- **Reading ends.** -/
lemma ends_of_not_write (hx : x.status ≠ .CONN_WRITE) : Loop.Ends (turn env) x :=
  Loop.ends_of_measure fuel (fun y => y.status ≠ .CONN_WRITE)
    (fun _ hy => (progress hy).imp id fun ⟨y, hnext, hw, hless⟩ => ⟨y, hnext, hw, hless⟩) x hx

/-! ## Writing -/

/-- The bytes that `OutString` still has to hand over. -/
def owed (c : GentConnect) : ℕ := if c.sendsize = 0 then c.outstr.length else c.sendsize

/-- **A turn in `CONN_WRITE`**: everything goes out, or the rest waits for the sends after some. -/
lemma turn_write (env : Env) (hx : x.status = .CONN_WRITE) :
    ∃ y j, x.turn env = .next y ∧
      (y.status = .CONN_WAIT ∧ owed x.conn ≤ room x.sock.sends j ∨
        0 < j ∧ y.status = .CONN_WRITE ∧ y.sock.sends = (fun i => x.sock.sends (j + i)) ∧
          room x.sock.sends j < owed x.conn ∧
          owed y.conn + room x.sock.sends j = owed x.conn) := by
  have hturn : x.turn env = x.write := by
    unfold turn
    rw [hx]
  obtain ⟨j, n, hspec⟩ := x.conn.reset.outString_spec x.sock x.conn.outstr
  have howed : (x.conn.reset.begin x.conn.outstr).sendsize = owed x.conn := by
    unfold GentConnect.begin owed GentConnect.reset
    split_ifs <;> rfl
  have hstatus : (x.conn.reset.begin x.conn.outstr).comm.curstatus = .CONN_WRITE := by
    unfold GentConnect.begin GentConnect.reset
    split_ifs <;> exact hx
  have hcount := hspec.count
  rw [howed] at hcount
  refine ⟨_, j, hturn, ?_⟩
  by_cases hall : n = owed x.conn
  · refine Or.inl ⟨?_, by omega⟩
    show (x.conn.reset.outString x.sock x.conn.outstr).2.1.comm.curstatus = _
    rw [hspec.all (hall.trans howed.symm)]
    rfl
  · obtain ⟨hj, hpart⟩ := hspec.part fun h => hall (h.trans howed)
    refine Or.inr ⟨hj, ?_, hspec.sends, by omega, ?_⟩
    · show (x.conn.reset.outString x.sock x.conn.outstr).2.1.comm.curstatus = _
      rw [hpart]
      exact hstatus
    · show owed (x.conn.reset.outString x.sock x.conn.outstr).2.1 + _ = _
      have hsize := congrArg GentConnect.sendsize hpart
      dsimp only at hsize
      rw [howed] at hsize
      rw [owed, if_neg (by omega), hsize]
      omega

/-- With room for everything, writing ends. -/
lemma ends_of_room : ∀ (k : ℕ) {x : Running}, x.status = .CONN_WRITE →
    owed x.conn ≤ room x.sock.sends k → Loop.Ends (turn env) x := by
  intro k
  induction k using Nat.strong_induction_on with
  | _ k ih =>
      intro x hx hroom
      obtain ⟨y, j, hnext, hdone | ⟨hj, hy, hsends, hless, howed⟩⟩ := turn_write env hx
      · refine Loop.ends_of_next hnext (ends_of_not_write ?_)
        rw [hdone.1]
        decide
      · have hlate : j < k := by
          by_contra hle
          obtain ⟨d, rfl⟩ := Nat.exists_eq_add_of_le (not_lt.mp hle)
          rw [room_add] at hless
          omega
        obtain ⟨d, rfl⟩ := Nat.exists_eq_add_of_lt hlate
        refine Loop.ends_of_next hnext (ih (d + 1) (by omega) hy ?_)
        rw [Nat.add_assoc, room_add] at hroom
        rw [hsends]
        omega

/-- Without room, it goes on. -/
lemma not_ends_of_no_room (hx : x.status = .CONN_WRITE)
    (hroom : ∀ k, room x.sock.sends k < owed x.conn) : ¬ Loop.Ends (turn env) x := by
  refine Loop.not_ends_of_inv
    (fun x => x.status = .CONN_WRITE ∧ ∀ k, room x.sock.sends k < owed x.conn) ?_ x ⟨hx, hroom⟩
  rintro x ⟨hx, hroom⟩
  obtain ⟨y, j, hnext, hdone | ⟨-, hy, hsends, -, howed⟩⟩ := turn_write env hx
  · exact absurd hdone.2 (not_le.mpr (hroom j))
  · refine ⟨y, hnext, hy, fun k => ?_⟩
    have hmore := hroom (j + k)
    rw [room_add] at hmore
    rw [hsends]
    omega

/-- **When a call gives the thread back.** -/
theorem tryRunning_ends_iff (env : Env) (c : GentConnect) (s : Socket) :
    Loop.Ends (turn env) ⟨c, [], s⟩ ↔
      (c.comm.curstatus = .CONN_WRITE → ∃ k, owed c ≤ room s.sends k) := by
  constructor
  · intro hends hwrite
    by_contra hnone
    refine not_ends_of_no_room (x := ⟨c, [], s⟩) hwrite (fun k => ?_) hends
    exact not_le.mp fun h => hnone ⟨k, h⟩
  · intro hroom
    by_cases hwrite : c.comm.curstatus = .CONN_WRITE
    · obtain ⟨k, hk⟩ := hroom hwrite
      exact ends_of_room k hwrite hk
    · exact ends_of_not_write hwrite

/-- A connection with an answer to write. -/
def writing (outstr : Str) : GentConnect :=
  { GentConnect.init newRedis with outstr := outstr }.setStatus .CONN_WRITE

/-- A server without passwords, whose commands have nothing to say. -/
def quietEnv : Env := ⟨openConfig, 0, fun r _ => ([], r), true⟩

/-- A peer that sends nothing, and does not read either. -/
def stuckSocket : Socket := ⟨[], fun _ => .eagain, fun _ => .eagain, []⟩

lemma room_eagain : ∀ k, room (fun _ => .eagain) k = 0
  | 0 => rfl
  | k + 1 => by rw [room, room_eagain k]; rfl

/-- **The thread is gone.** -/
theorem write_spins :
    ¬ Loop.Ends (turn quietEnv) ⟨writing (lit "+OK\r\n"), [], stuckSocket⟩ := by
  refine not_ends_of_no_room rfl fun k => ?_
  show room (fun _ => .eagain) k < owed (writing (lit "+OK\r\n"))
  rw [room_eagain]
  decide

end Running

end Riser
