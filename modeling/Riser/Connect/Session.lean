import Riser.Connect.Stream
import Riser.Redis.Complete
import Riser.Redis.Resp

/-!
# A connection of a server

`GentConnect` on its own leaves open what a command does.  A `Session` is a connection together with the
server it belongs to: when the loop of `TryRunning` is in `CONN_DATA`, the command of the request acts
on the server, and what it answers is what the connection sends.

The master thread writes to connections as well.  A `rep` message that is accepted makes its connection
the one of a replication (`GentReplication::SetConn`), and from then on `MasterHandle` may be called for
it at any time: because of the message, or because a write was queued.  The names of these replications
are `attached`.

`given` is what a turn of the loop hands to `Process`.  As long as no command is under way
(`Status.Idle`), a turn does no more than that: `take_idle`.
-/

namespace Riser

open Cpp
open Loop (Outcome)

/-! ## What `Process` is given -/

namespace Running

/-- The bytes that this turn of the loop hands to `Process`. -/
def given (x : Running) : Option Str :=
  if x.status = .CONN_READ then
    let (readNum, rbytes, _, _) := GentConnect.readBuffer x.sock x.rbytes x.conn.rsize
    if 0 < readNum then some rbytes else none
  else none

/-- Only a turn in `CONN_READ` does. -/
lemma status_of_given {x : Running} {data : Str} (h : x.given = some data) :
    x.status = .CONN_READ := by
  by_contra hne
  rw [given, if_neg hne] at h
  cases h

/-- How a turn in `CONN_READ` leaves the handler and the answer. -/
inductive Reads (env : Env) (x : Running) : Outcome Running Left → Prop where
  | broken {readNum : ℤ} {y : Running} (hnone : x.given = none) (hcomm : y.conn.comm = x.conn.comm) :
      Reads env x (.leave (.ok (readNum, y)))
  | nothing {y : Running} (hnone : x.given = none)
      (hcomm : y.conn.comm = { x.conn.comm with curstatus := .CONN_WAIT }) : Reads env x (.next y)
  | fault {data : Str} {f : Fault} (hdata : x.given = some data)
      (hproc : process env.cfg env.now x.conn.comm data = .error f) :
      Reads env x (.leave (.error f))
  | answer {data outstr : Str} {status : ℤ} {r : GentRedis} {y : Running}
      (hdata : x.given = some data)
      (hproc : process env.cfg env.now x.conn.comm data = .ok (status, outstr, r))
      (hout : toUInt64 status = 0 ∧ outstr ≠ [])
      (hcomm : y.conn.comm = { r with curstatus := .CONN_WRITE }) (hstr : y.conn.outstr = outstr) :
      Reads env x (.leave (.ok (updated env, y)))
  | parsed {data outstr : Str} {status : ℤ} {r : GentRedis} {y : Running}
      (hdata : x.given = some data)
      (hproc : process env.cfg env.now x.conn.comm data = .ok (status, outstr, r))
      (hout : ¬ (toUInt64 status = 0 ∧ outstr ≠ [])) (hcomm : y.conn.comm = r)
      (hremain : y.conn.remainsize = toUInt64 status) : Reads env x (.next y)

lemma read_given (env : Env) {x : Running} (hx : x.status = .CONN_READ) : Reads env x (x.read env) := by
  have hgiven : x.given = if 0 < (GentConnect.readBuffer x.sock x.rbytes x.conn.rsize).1 then
      some (GentConnect.readBuffer x.sock x.rbytes x.conn.rsize).2.1 else none := by
    rw [given, if_pos hx]
  unfold read
  rcases hbuf : GentConnect.readBuffer x.sock x.rbytes x.conn.rsize
    with ⟨readNum, rbytes, rsize, sock⟩
  rw [hbuf] at hgiven
  dsimp only at hgiven ⊢
  split_ifs with hneg hzero
  · exact .broken (by rw [hgiven, if_neg (by omega)]) rfl
  · exact .nothing (by rw [hgiven, if_neg (by omega)]) rfl
  · rw [if_pos (by omega)] at hgiven
    cases hproc : process env.cfg env.now x.conn.comm rbytes with
    | error f => exact .fault hgiven hproc
    | ok res =>
        obtain ⟨status, outstr, r⟩ := res
        dsimp only
        split_ifs with hout
        · exact .answer hgiven hproc hout rfl rfl
        · exact .parsed hgiven hproc hout rfl rfl

end Running

/-- No command is under way: the connection reads a request, or answers one. -/
def Status.Idle (st : Status) : Prop := st = .CONN_READ ∨ st = .CONN_WRITE ∨ st = .CONN_WAIT

instance (st : Status) : Decidable st.Idle := inferInstanceAs (Decidable (_ ∨ _))

lemma Status.Idle.ne_data {st : Status} (h : st.Idle) : st ≠ .CONN_DATA := by
  rcases h with rfl | rfl | rfl <;> exact nofun

/-- Sending changes nothing of the handler but the status. -/
lemma outString_comm (c : GentConnect) (s : Socket) (str : Str) :
    (c.outString s str).2.1.comm = c.comm ∨
      (c.outString s str).2.1.comm = { c.comm with curstatus := .CONN_WAIT } := by
  obtain ⟨j, n, hspec⟩ := c.outString_spec s str
  have hbegin : (c.begin str).comm = c.comm := by
    unfold GentConnect.begin
    split_ifs <;> rfl
  by_cases hall : n = (c.begin str).sendsize
  · right
    rw [hspec.all hall]
    simp only [GentConnect.setStatus, hbegin]
  · left
    rw [(hspec.part hall).2]
    exact hbegin

/-- An answer to a request that failed to parse comes with nothing left to be read. -/
lemma outstr_eq_nil {cfg : Config} {now : ℕ} {r r' : GentRedis} {data outstr : Str} {status : ℤ}
    (h : process cfg now r data = .ok (status, outstr, r'))
    (hout : ¬ (toUInt64 status = 0 ∧ outstr ≠ [])) : outstr = [] := by
  by_contra hne
  refine hout ⟨?_, hne⟩
  rcases process_cases h with ⟨-, rfl, -⟩ | ⟨c, st, -, -, ⟨rfl, -⟩ | ⟨-, -, hnil⟩⟩
  · rfl
  · rfl
  · exact absurd hnil hne

/-- **A turn while no command is under way** moves on between reading and answering, or hands a request
to `Process`.  In the second case an error is answered, and otherwise the handler goes on as the parser
has left it. -/
lemma take_idle {env : Env} {x y : Running} (hx : x.status.Idle)
    (h : (StreamEvent.turn env).take x = some y) :
    (x.given = none ∧ ∃ st : Status, st.Idle ∧ y.conn.comm = { x.conn.comm with curstatus := st }) ∨
      ∃ data status outstr r, x.given = some data ∧
        process env.cfg env.now x.conn.comm data = .ok (status, outstr, r) ∧
        (outstr ≠ [] ∧ y.conn.comm = { r with curstatus := .CONN_WRITE } ∨
          outstr = [] ∧ y.conn.comm = r) := by
  have hgiven : x.status ≠ .CONN_READ → x.given = none := fun hne => by rw [Running.given, if_neg hne]
  simp only [StreamEvent.take, Running.turn] at h
  rcases hx with hst | hst | hst
  · simp only [hst] at h
    have hread := Running.read_given env hst
    generalize x.read env = o at h hread
    cases hread with
    | broken hnone hcomm =>
        obtain rfl := Option.some.inj h
        exact Or.inl ⟨hnone, .CONN_READ, Or.inl rfl, by rw [← hst]; exact hcomm⟩
    | nothing hnone hcomm =>
        obtain rfl := Option.some.inj h
        exact Or.inl ⟨hnone, .CONN_WAIT, by decide, hcomm⟩
    | fault hdata hproc => cases h
    | answer hdata hproc hout hcomm hstr =>
        obtain rfl := Option.some.inj h
        exact Or.inr ⟨_, _, _, _, hdata, hproc, Or.inl ⟨hout.2, hcomm⟩⟩
    | parsed hdata hproc hout hcomm hremain =>
        obtain rfl := Option.some.inj h
        exact Or.inr ⟨_, _, _, _, hdata, hproc, Or.inr ⟨outstr_eq_nil hproc hout, hcomm⟩⟩
  · simp only [hst, Running.write] at h
    obtain rfl := Option.some.inj h
    left
    refine ⟨hgiven (by rw [hst]; rintro ⟨⟩), ?_⟩
    rcases outString_comm x.conn.reset x.sock x.conn.outstr with hcomm | hcomm
    · exact ⟨.CONN_WRITE, by decide, by rw [← hst]; exact hcomm⟩
    · exact ⟨.CONN_WAIT, by decide, hcomm⟩
  · simp only [hst, Running.wait] at h
    obtain rfl := Option.some.inj h
    exact Or.inl ⟨hgiven (by rw [hst]; rintro ⟨⟩), .CONN_READ, by decide, rfl⟩

/-! ## The session -/

/-- A connection and its server. -/
structure Session where
  server : Server
  running : Running
  attached : List Str

/-- What happens on it: a turn of the loop of `TryRunning`, or `MasterHandle` for one of its
replications. -/
inductive SessionEvent where
  | turn (w : World) (updateEvent : Bool)
  | masterHandle (w : World) (name : Str)

/-- The constructor of `GentRedis` leaves `master_auth` as the memory had it. -/
def GentRedis.new (uninit : Bool) : GentRedis := { newRedis with master_auth := uninit }

/-- The name of the replication that a message attaches to its connection. -/
def GentProcessRep.attaches (w : World) (sv : Server) (r : GentRedis) : Option Str :=
  if r.subc = some .rep ∧ r.master_auth = true ∧
      (sv.master.get ⟨sv.db, w.now, w.uninit, w.id⟩ w.junk r.keystr r.is_sync_all).1.isSome then
    some r.keystr
  else none

/-- `GentRepMgr::MasterHandle`, for a replication with the connection that `r` handles: what it sends,
and whether there was nothing to send. -/
def Server.masterHandle (sv : Server) (w : World) (r : GentRedis) :
    Except Fault (Str × Bool × Server) :=
  match sv.master.get ⟨sv.db, w.now, w.uninit, w.id⟩ w.junk r.keystr r.is_sync_all with
  | (none, master) => .ok (lit "-ERR slave full,manual clear\r\n", false, { sv with master })
  | (some e, master) => do
      let (rep, batch, ret) ← (master.load e).start sv.db w.now r.repmsg
      return (batch.outstr, !ret, { sv with master := master.store r.keystr e.slot rep })

namespace Session

/-- A connection after `Init`. -/
def start (sv : Server) (uninit : Bool) (sock : Socket) : Session :=
  ⟨sv, (Stream.start (.new uninit) sock).running, []⟩

/-- What the command does, if it is its turn. -/
def act (is_slave : Bool) (w : World) (x : Session) :
    Except Fault (Str × GentRedis × Server × List Str) :=
  let r := x.running.conn.comm
  if r.curstatus = .CONN_DATA then do
    let (outstr, r', server) ← complete is_slave w x.server r (x.running.conn.content.getD [])
    return (outstr, r', server, (GentProcessRep.attaches w x.server r).toList ++ x.attached)
  else return ([], r, x.server, x.attached)

/-- A fault ends the server. -/
def step (cfg : Config) (is_slave : Bool) (x : Session) : SessionEvent → Option Session
  | .turn w updateEvent =>
      match x.act is_slave w with
      | .error _ => none
      | .ok (outstr, r, server, attached) =>
          let env : Env := ⟨cfg, w.now, fun _ _ => (outstr, r), updateEvent⟩
          ((StreamEvent.turn env).take x.running).map (⟨server, ·, attached⟩)
  | .masterHandle w name =>
      if name ∈ x.attached then
        match x.server.masterHandle w x.running.conn.comm with
        | .error _ => none
        | .ok (outstr, idle, server) =>
            ((StreamEvent.masterHandle idle outstr).take x.running).map (⟨server, ·, x.attached⟩)
      else none

/-- Without a command there is nothing to do. -/
lemma act_of_ne {x : Session} (hne : x.running.status ≠ .CONN_DATA) (is_slave : Bool) (w : World) :
    x.act is_slave w = .ok ([], x.running.conn.comm, x.server, x.attached) := by
  have hne' : x.running.conn.comm.curstatus ≠ .CONN_DATA := hne
  simp only [act, hne', if_false]
  rfl

end Session

/-- A peer that has sent some bytes, and takes what it is sent. -/
def eagerSocket (inbox : Str) : Socket := ⟨inbox, fun _ => .bytes 4095, fun _ => .count 4095, []⟩

end Riser
