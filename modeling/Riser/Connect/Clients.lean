import Riser.Connect.Serve
import Riser.Core.SharedObject
import Riser.Core.Transition
import Riser.Redis.Operations

/-!
# Many clients at once

A worker thread serves many connections.  Each has its own `TryRunning`, whose turns come in any order
with those of the others, and all of them work on one store.  A client sends a request and waits for the
answer; meanwhile the request may have been read, or carried out, or answered in part, and so may those
of the others.

A request takes effect in the one turn that finds its connection in `CONN_DATA`.  All other turns are
between the connection, its handler and its peer.  So **the requests take effect one after the other, in
the order of these turns** (`clients_explained`): there is a log of them, from which the store and every
answer of every client can be computed as if there had never been more than one request at a time.  And
**nobody waits for anybody** (`clients_answered`): five turns of its own bring a client its answer,
whatever the others do.

The log, what the clients have asked so far, and when a request was read are kept in the state for the
sake of these statements; no step looks at them.  The time matters for `setex`, whose expiry counts from
the turn that reads it and not from the one that stores it.
-/

namespace Riser

open Cpp SharedObject

/-! ## The system -/

/-- The map with expiry, as an object that is shared: the sweeper changes it on its own. -/
def dataSpec : Spec (ExpMap Str Str) DataOp Times Resp.Value where
  call a t o := o.spec a t
  own a t := a.sweep t.now

instance (x : Session) : Decidable x.Waiting := inferInstanceAs (Decidable (_ ∧ _ ∧ _))

namespace Running

/-- Bytes arrive. -/
def receive (x : Running) (data : Str) : Running :=
  { x with sock := { x.sock with inbox := x.sock.inbox ++ data } }

/-- The peer has all of its answer, and has not asked again. -/
def Free (x : Running) : Prop :=
  (x.status = .CONN_READ ∧ x.rbytes = [] ∨ x.status = .CONN_WAIT) ∧ x.sock.inbox = []

instance (x : Running) : Decidable x.Free := inferInstanceAs (Decidable (_ ∧ _))

end Running

/-- A server and its connections. -/
structure Clients where
  server : Server
  conns : ℕ → Running
  /-- What each client has asked. -/
  asked : ℕ → List DataOp
  /-- The clock at the last read of each connection. -/
  read : ℕ → ℕ
  /-- The operations in the order in which they took effect. -/
  log : List (Entry ℕ DataOp Times)

namespace Clients

/-- What can happen: a client that is not waiting sends a request, the loop of `TryRunning` turns for a
connection, and the sweeper runs. -/
inductive Ev where
  | ask (i : ℕ) (name : Str) (o : DataOp)
  | turn (i : ℕ) (w : World)
  | sweep (now : ℕ)

/-- A connection and the server. -/
def session (y : Clients) (i : ℕ) : Session := ⟨y.server, y.conns i, []⟩

/-- What takes effect in a turn of a connection. -/
def effect (y : Clients) (i : ℕ) (now : ℕ) : List (Entry ℕ DataOp Times) :=
  if (y.conns i).status = .CONN_DATA then
    ((y.asked i).getLast?.map fun o => .call i o ⟨y.read i, now⟩).toList
  else []

/-- The system after a turn of a connection that has led to `z`. -/
def moved (y : Clients) (i : ℕ) (now : ℕ) (z : Session) : Clients :=
  { y with
    server := z.server
    conns := Function.update y.conns i z.running
    read := if (y.conns i).status = .CONN_READ then Function.update y.read i now else y.read
    log := y.log ++ y.effect i now }

/-- One step.  A connection that has nothing to read and nothing to do is not called. -/
def step (cfg : Config) (y : Clients) : Ev → Option Clients
  | .ask i name o =>
      if (y.conns i).Free then
        some { y with
          conns := Function.update y.conns i ((y.conns i).receive (o.bytes name))
          asked := Function.update y.asked i (y.asked i ++ [o]) }
      else none
  | .turn i w =>
      if (y.session i).Waiting then none
      else ((y.session i).step cfg false (.turn w true)).map (y.moved i w.now)
  | .sweep now =>
      match y.server.db.clearExpireKey now with
      | .error _ => none
      | .ok (db, _) =>
          some { y with server := { y.server with db }, log := y.log ++ [.own ⟨now, now⟩] }

/-- What the events may be: the requests are well-formed and fit the buffers, and the machine works. -/
def Ev.Fair (size latest : ℕ) : Ev → Prop
  | .ask _ name o => o.WellFormed latest name ∧ (o.bytes name).length ≤ size
  | .turn _ w => w.Fair latest
  | .sweep _ => True

end Clients

/-! ## How far a connection is -/

section Stage

variable {cfg : Config} {size latest read : ℕ} {x : Running} {o : DataOp} {name : Str} {w : World}
  {sv : Server}

/-- A connection whose peer does not block, with nothing left to be sent. -/
structure Running.Flows (size : ℕ) (x : Running) : Prop where
  eager : x.sock.Eager size
  sendsize : x.conn.sendsize = 0
  rsize : Session.Roomy size x.conn.rsize

/-- A connection between two requests. -/
structure Running.Rests (cfg : Config) (size : ℕ) (x : Running) : Prop extends x.Flows size where
  comm : x.conn.comm.Rested cfg
  free : x.Free
  content : x.status = .CONN_READ → x.conn.content = none

/-- A connection whose handler holds an operation.  The bytes of a value have all been there. -/
structure Running.Holds (cfg : Config) (size read : ℕ) (o : DataOp) (x : Running) : Prop
    extends x.Flows size where
  held : o.Held cfg read x.conn.comm
  inbox : x.sock.inbox = []
  status : x.status = .CONN_DATA ∧ x.conn.content.getD [] = [] ∨
    x.status = .CONN_NREAD ∧ x.conn.remainsize = 0 ∧ x.conn.content = none

/-- A connection that is about to send an answer. -/
structure Running.Sends (cfg : Config) (size : ℕ) (v : Resp.Value) (x : Running) : Prop
    extends x.Flows size where
  comm : x.conn.comm.Rested cfg
  inbox : x.sock.inbox = []
  status : x.status = .CONN_WRITE
  outstr : x.conn.outstr = v.encode

/-- **How far a connection is**: its request is still in the socket, or in the handler, or its answer is
still to be sent. -/
inductive Stage (cfg : Config) (size latest read : ℕ) : Running → Phase DataOp Resp.Value → Prop where
  | rests {x : Running} (h : x.Rests cfg size) : Stage cfg size latest read x .idle
  | asked {x : Running} {o : DataOp} {name : Str} (h : x.Rests cfg size) (ho : o.WellFormed latest name)
      (hlen : (o.bytes name).length ≤ size) :
      Stage cfg size latest read (x.receive (o.bytes name)) (.pending o)
  | holds {x : Running} {o : DataOp} {name : Str} (h : x.Holds cfg size read o)
      (ho : o.WellFormed latest name) (hread : TenDigit read ∧ read ≤ latest) :
      Stage cfg size latest read x (.pending o)
  | sends {x : Running} {v : Resp.Value} (h : x.Sends cfg size v) :
      Stage cfg size latest read x (.answered v)

/-- The turns that are left until the answer is there. -/
def Running.turnsLeft (x : Running) : ℕ :=
  if x.sock.inbox = [] then
    match x.status with
    | .CONN_NREAD => 3
    | .CONN_DATA => 2
    | .CONN_WRITE => 1
    | _ => 0
  else if x.status = .CONN_READ then 4 else 5

lemma Running.Rests.turnsLeft (h : x.Rests cfg size) : x.turnsLeft = 0 := by
  obtain ⟨hst, hinbox⟩ := h.free
  rcases hst with ⟨hst, -⟩ | hst
  · simp [Running.turnsLeft, hinbox, hst]
  · simp [Running.turnsLeft, hinbox, hst]

lemma Running.turnsLeft_receive (x : Running) {data : Str} (hdata : data ≠ []) :
    (x.receive data).turnsLeft = if x.status = .CONN_READ then 4 else 5 := by
  have hinbox : (x.receive data).sock.inbox ≠ [] := List.append_ne_nil_of_right_ne_nil _ hdata
  rw [Running.turnsLeft, if_neg hinbox]
  rfl

/-! ## One turn -/

/-- **What a turn can do** in a connection that is at some stage: nothing that matters, carry out the
operation, or send the answer. -/
inductive Turned (cfg : Config) (size latest read : ℕ) (w : World) (sv : Server) (a : ExpMap Str Str)
    (x : Running) : Phase DataOp Resp.Value → Session → Phase DataOp Resp.Value → Prop where
  | quiet {φ : Phase DataOp Resp.Value} {z : Session} (hst : x.status ≠ .CONN_DATA)
      (hserver : z.server = sv)
      (hstage : Stage cfg size latest (if x.status = .CONN_READ then w.now else read) z.running φ)
      (houtbox : z.running.sock.outbox = x.sock.outbox) : Turned cfg size latest read w sv a x φ z φ
  | acts {o : DataOp} {z : Session} (hst : x.status = .CONN_DATA)
      (hstore : Refines z.server.db (o.spec a ⟨read, w.now⟩).2)
      (hall : (o.spec a ⟨read, w.now⟩).2.All Printable)
      (hstage : Stage cfg size latest read z.running (.answered (o.spec a ⟨read, w.now⟩).1))
      (houtbox : z.running.sock.outbox = x.sock.outbox) :
      Turned cfg size latest read w sv a x (.pending o) z (.answered (o.spec a ⟨read, w.now⟩).1)
  | tells {v : Resp.Value} {z : Session} (hst : x.status = .CONN_WRITE) (hserver : z.server = sv)
      (hstage : Stage cfg size latest read z.running .idle)
      (houtbox : z.running.sock.outbox = x.sock.outbox ++ v.encode.map some) :
      Turned cfg size latest read w sv a x (.answered v) z .idle

/-- The turn of a session that leads there, and brings the answer nearer. -/
def Turns (cfg : Config) (size latest read : ℕ) (w : World) (sv : Server) (a : ExpMap Str Str)
    (x : Running) (φ : Phase DataOp Resp.Value) : Prop :=
  ∃ z φ', (Session.mk sv x []).step cfg false (.turn w true) = some z ∧
    Turned cfg size latest read w sv a x φ z φ' ∧ z.running.turnsLeft ≤ x.turnsLeft - 1

variable {a : ExpMap Str Str}

/-- The turn of `CONN_WAIT`. -/
lemma step_wait (hst : x.status = .CONN_WAIT) :
    (Session.mk sv x []).step cfg false (.turn w true) = some ⟨sv,
      ⟨({ x.conn with remainsize := 0 }.reset).setStatus .CONN_READ, [], x.sock⟩, []⟩ := by
  rw [Session.step_idle (Or.inr (Or.inr hst))]
  simp only [StreamEvent.take, Running.turn, hst, Running.wait, Option.map_some]

/-- A connection that has sent its answer goes back to reading. -/
lemma Running.Rests.wait (h : x.Rests cfg size) :
    Running.Rests cfg size ⟨({ x.conn with remainsize := 0 }.reset).setStatus .CONN_READ, [], x.sock⟩ where
  eager := h.eager
  sendsize := h.sendsize
  rsize := h.rsize
  comm := ⟨h.comm.auth, h.comm.idle, h.comm.none⟩
  free := ⟨Or.inl ⟨rfl, rfl⟩, h.free.2⟩
  content := fun _ => rfl

lemma turns_rests (h : x.Rests cfg size) (hnot : ¬ (Session.mk sv x []).Waiting) :
    Turns cfg size latest read w sv a x .idle := by
  obtain ⟨⟨hst, hbytes⟩ | hst, hinbox⟩ := h.free
  · exact absurd ⟨hst, hbytes, hinbox⟩ hnot
  · refine ⟨_, _, step_wait hst, .quiet (by rw [hst]; simp) rfl (.rests h.wait) rfl, ?_⟩
    exact h.wait.turnsLeft.trans_le (Nat.zero_le _)

/-- The turn that reads a request. -/
lemma turns_read (h : x.Rests cfg size) (hst : x.status = .CONN_READ) (hw : w.Fair latest)
    (ho : o.WellFormed latest name) (hlen : (o.bytes name).length ≤ size) :
    Turns cfg size latest read w sv a (x.receive (o.bytes name)) (.pending o) := by
  have hbytes : x.rbytes = [] := by
    rcases h.free.1 with hread | hwait
    · exact hread.2
    · rw [hst] at hwait
      cases hwait
  have hready : (Session.mk sv x []).Ready size :=
    ⟨⟨hst, hbytes, h.free.2⟩, h.eager, h.sendsize, h.rsize, h.content hst⟩
  obtain ⟨r, hproc, hheld, hstatus⟩ := DataOp.process_bytes h.comm ho hw.early
  obtain ⟨rsize, hrsize, hstep⟩ : ∃ rsize, _ ∧
      ((Session.mk sv x []).arrive (o.bytes name)).step cfg false (.turn w true) = _ :=
    Session.step_arrive hready (o.bytes_ne_nil name) hlen
  rw [show process cfg w.now (Session.mk sv x []).running.conn.comm (o.bytes name) = _ from hproc] at hstep
  dsimp only at hstep
  rw [if_neg (fun hc => hc.2 rfl)] at hstep
  have hread : (x.receive (o.bytes name)).status = .CONN_READ := hst
  refine ⟨_, _, hstep, .quiet (by rw [hread]; simp) rfl ?_ rfl, ?_⟩
  · rw [if_pos hread]
    refine .holds ⟨⟨h.eager, h.sendsize, hrsize⟩, hheld, h.free.2, ?_⟩ ho ⟨hw.clock, hw.early⟩
    rcases hstatus with hdata | hnread
    · refine Or.inl ⟨hdata, ?_⟩
      simp only [Session.afterRead, h.content hst, Option.getD_none]
    · exact Or.inr ⟨hnread, rfl, h.content hst⟩
  · rw [Running.turnsLeft_receive x (o.bytes_ne_nil name), if_pos hst]
    rcases hstatus with hdata | hnread
    · simp [Running.turnsLeft, Running.status, Session.afterRead, h.free.2, hdata]
    · simp [Running.turnsLeft, Running.status, Session.afterRead, h.free.2, hnread]

lemma turns_asked (h : x.Rests cfg size) (hw : w.Fair latest) (ho : o.WellFormed latest name)
    (hlen : (o.bytes name).length ≤ size) :
    Turns cfg size latest read w sv a (x.receive (o.bytes name)) (.pending o) := by
  by_cases hread : x.status = .CONN_READ
  · exact turns_read h hread hw ho hlen
  · -- the loop has yet to come back from the last answer
    have hst : x.status = .CONN_WAIT := h.free.1.resolve_left fun hc => hread hc.1
    have hst' : (x.receive (o.bytes name)).status = .CONN_WAIT := hst
    refine ⟨_, _, step_wait hst', .quiet (by rw [hst']; simp) rfl (.asked h.wait ho hlen) rfl, ?_⟩
    rw [Running.turnsLeft_receive x (o.bytes_ne_nil name), if_neg hread]
    exact (Running.turnsLeft_receive
      ⟨({ x.conn with remainsize := 0 }.reset).setStatus .CONN_READ, [], x.sock⟩
      (o.bytes_ne_nil name)).le

/-- The turn that carries the operation out. -/
lemma turns_data (h : x.Holds cfg size read o) (hst : x.status = .CONN_DATA) (hw : w.Fair latest)
    (ho : o.WellFormed latest name) (hread : TenDigit read ∧ read ≤ latest) (hs : Refines sv.db a)
    (hall : a.All Printable) : Turns cfg size latest read w sv a x (.pending o) := by
  obtain ⟨r, sv', hcomplete, hstore, hall', hrest⟩ := DataOp.complete_spec hs hall hw ho hread h.held
  have hcontent : x.conn.content.getD [] = [] := by
    rcases h.status with ⟨-, hcontent⟩ | ⟨hnread, -⟩
    · exact hcontent
    · rw [hst] at hnread
      cases hnread
  have hne := DataOp.encode_ne_nil (o.spec a ⟨read, w.now⟩).1
  rw [← hcontent] at hcomplete
  refine ⟨_, _, Session.step_data (x := ⟨sv, x, []⟩) hst hcomplete hne, .acts hst hstore hall'
    (.sends ⟨⟨h.eager, h.sendsize, h.rsize⟩, ⟨hrest.auth, hrest.idle, hrest.none⟩, h.inbox, rfl, rfl⟩)
    rfl, ?_⟩
  simp [Running.turnsLeft, Running.status, GentConnect.setStatus, h.inbox,
    show x.conn.comm.curstatus = _ from hst]

lemma turns_holds (h : x.Holds cfg size read o) (hw : w.Fair latest) (ho : o.WellFormed latest name)
    (hread : TenDigit read ∧ read ≤ latest) (hs : Refines sv.db a) (hall : a.All Printable) :
    Turns cfg size latest read w sv a x (.pending o) := by
  rcases h.status with ⟨hst, -⟩ | ⟨hst, hremain, hcontent⟩
  · exact turns_data h hst hw ho hread hs hall
  · refine ⟨_, _, Session.step_nextRead (x := ⟨sv, x, []⟩) hst hremain hcontent,
      .quiet (by rw [hst]; simp) rfl ?_ rfl, ?_⟩
    · rw [if_neg (by rw [hst]; simp)]
      exact .holds ⟨⟨h.eager, h.sendsize, h.rsize⟩, h.held.setStatus _, h.inbox, Or.inl ⟨rfl, rfl⟩⟩
        ho hread
    · simp [Running.turnsLeft, Running.status, GentConnect.setStatus, h.inbox,
        show x.conn.comm.curstatus = _ from hst]

lemma turns_sends {v : Resp.Value} (h : x.Sends cfg size v) :
    Turns cfg size latest read w sv a x (.answered v) := by
  have hne : x.conn.reset.comm.curstatus ≠ .CONN_WAIT := by
    rw [show x.conn.reset.comm.curstatus = _ from h.status]
    simp
  have hout := GentConnect.outString_eager (c := x.conn.reset) h.eager h.sendsize hne x.conn.outstr
  have hwrite : x.write = .next ⟨(x.conn.reset.outString x.sock x.conn.outstr).2.1, x.rbytes,
      (x.conn.reset.outString x.sock x.conn.outstr).2.2⟩ := rfl
  have hstep : (Session.mk sv x []).step cfg false (.turn w true) = some ⟨sv,
      ⟨{ x.conn.reset with sendsize := 0, cursendsize := x.conn.outstr.length }.setStatus .CONN_WAIT,
        x.rbytes, { x.sock with outbox := x.sock.outbox ++ x.conn.outstr.map some }⟩, []⟩ := by
    rw [Session.step_idle (Or.inr (Or.inl h.status))]
    simp only [StreamEvent.take, Running.turn, h.status, hwrite, hout, Option.map_some]
  have hrests : Running.Rests cfg size
      ⟨{ x.conn.reset with sendsize := 0, cursendsize := x.conn.outstr.length }.setStatus .CONN_WAIT,
        x.rbytes, { x.sock with outbox := x.sock.outbox ++ x.conn.outstr.map some }⟩ :=
    ⟨⟨⟨h.eager.recvs, h.eager.sends⟩, rfl, h.rsize⟩, ⟨h.comm.auth, h.comm.idle, h.comm.none⟩,
      ⟨Or.inr rfl, h.inbox⟩, fun hst => by cases hst⟩
  refine ⟨_, _, hstep, .tells h.status rfl (.rests hrests) ?_, ?_⟩
  · show x.sock.outbox ++ x.conn.outstr.map some = _
    rw [h.outstr]
  · exact hrests.turnsLeft.trans_le (Nat.zero_le _)

/-- A client that has all of its answer is not waiting for anything. -/
lemma Stage.idle_of_free {φ : Phase DataOp Resp.Value}
    (h : Stage cfg size latest read x φ) (hfree : x.Free) : φ = .idle ∧ x.Rests cfg size := by
  cases h with
  | rests h => exact ⟨rfl, h⟩
  | asked h ho hlen =>
      exact absurd hfree.2 (List.append_ne_nil_of_right_ne_nil _ (DataOp.bytes_ne_nil _ _))
  | holds h ho hread =>
      rcases h.status with ⟨hst, -⟩ | ⟨hst, -⟩ <;> simp [Running.Free, hst] at hfree
  | sends h => simp [Running.Free, h.status] at hfree

/-- **A turn never fails**, and does one of the three things. -/
lemma Stage.turns {φ : Phase DataOp Resp.Value} (h : Stage cfg size latest read x φ)
    (hnot : ¬ (Session.mk sv x []).Waiting) (hw : w.Fair latest) (hs : Refines sv.db a)
    (hall : a.All Printable) : Turns cfg size latest read w sv a x φ := by
  cases h with
  | rests h => exact turns_rests h hnot
  | asked h ho hlen => exact turns_asked h hw ho hlen
  | holds h ho hread => exact turns_holds h hw ho hread hs hall
  | sends h => exact turns_sends h

end Stage

/-! ## Whole runs -/

namespace Clients

variable {cfg : Config} {size latest : ℕ} {a₀ a : ExpMap Str Str} {y y' : Clients} {i : ℕ}
  {told : ℕ → List Resp.Value} {phase : ℕ → Phase DataOp Resp.Value}

/-- The server before the first request. -/
structure Fresh (cfg : Config) (size : ℕ) (a₀ : ExpMap Str Str) (y : Clients) : Prop where
  store : Refines y.server.db a₀
  printable : a₀.All Printable
  rests : ∀ i, (y.conns i).Rests cfg size
  outbox : ∀ i, (y.conns i).sock.outbox = []
  asked : y.asked = fun _ => []
  log : y.log = []

/-- **The invariant**: the log explains the store and what the clients have been sent, and every
connection is at the stage that goes with it. -/
structure Inv (cfg : Config) (size latest : ℕ) (a₀ : ExpMap Str Str) (y : Clients) (a : ExpMap Str Str)
    (told : ℕ → List Resp.Value) (phase : ℕ → Phase DataOp Resp.Value) : Prop where
  explains : Explains dataSpec a₀ a y.log y.asked told phase
  store : Refines y.server.db a
  printable : a.All Printable
  stage : ∀ i, Stage cfg size latest (y.read i) (y.conns i) (phase i)
  outbox : ∀ i, (y.conns i).sock.outbox = ((told i).flatMap Resp.Value.encode).map some

lemma Fresh.inv (h : y.Fresh cfg size a₀) :
    y.Inv cfg size latest a₀ a₀ (fun _ => []) (fun _ => .idle) where
  explains := by
    rw [h.log, h.asked]
    exact .start dataSpec a₀
  store := h.store
  printable := h.printable
  stage := fun i => .rests (h.rests i)
  outbox := h.outbox

/-- A step that is about one connection. -/
lemma Inv.of_one (h : y.Inv cfg size latest a₀ a told phase) {a' : ExpMap Str Str}
    {told' : ℕ → List Resp.Value} {phase' : ℕ → Phase DataOp Resp.Value}
    (hexplains : Explains dataSpec a₀ a' y'.log y'.asked told' phase') (hstore : Refines y'.server.db a')
    (hall : a'.All Printable) (i : ℕ)
    (hothers : ∀ j, j ≠ i → y'.conns j = y.conns j ∧ y'.read j = y.read j ∧ phase' j = phase j ∧
      told' j = told j)
    (hstage : Stage cfg size latest (y'.read i) (y'.conns i) (phase' i))
    (houtbox : (y'.conns i).sock.outbox = ((told' i).flatMap Resp.Value.encode).map some) :
    y'.Inv cfg size latest a₀ a' told' phase' := by
  refine ⟨hexplains, hstore, hall, fun j => ?_, fun j => ?_⟩
  · by_cases hj : j = i
    · exact hj ▸ hstage
    · obtain ⟨hconns, hread, hphase, -⟩ := hothers j hj
      rw [hconns, hread, hphase]
      exact h.stage j
  · by_cases hj : j = i
    · exact hj ▸ houtbox
    · obtain ⟨hconns, -, -, htold⟩ := hothers j hj
      rw [hconns, htold]
      exact h.outbox j

lemma Inv.ask (h : y.Inv cfg size latest a₀ a told phase) {name : Str} {o : DataOp}
    (hfair : (Ev.ask i name o).Fair size latest) (hs : y.step cfg (.ask i name o) = some y') :
    ∃ phase', y'.Inv cfg size latest a₀ a told phase' := by
  simp only [step, Option.ite_none_right_eq_some, Option.some.injEq] at hs
  obtain ⟨hfree, rfl⟩ := hs
  obtain ⟨hidle, hrests⟩ := (h.stage i).idle_of_free hfree
  refine ⟨_, h.of_one (h.explains.ask hidle o) h.store h.printable i (fun j hj => ?_) ?_ ?_⟩
  · simp [Function.update_of_ne hj]
  · simp only [Function.update_self]
    exact .asked hrests hfair.1 hfair.2
  · simp only [Function.update_self]
    exact h.outbox i

lemma Inv.sweep (h : y.Inv cfg size latest a₀ a told phase) (now : ℕ) :
    ∃ y', y.step cfg (.sweep now) = some y' ∧ y'.conns = y.conns ∧
      y'.Inv cfg size latest a₀ (a.sweep now) told phase := by
  obtain ⟨db, num, hclear, hstore⟩ := h.store.clearExpireKey now
  refine ⟨{ y with server := { y.server with db }, log := y.log ++ [.own ⟨now, now⟩] },
    by simp only [step, hclear], rfl, ?_⟩
  exact ⟨h.explains.change ⟨now, now⟩, hstore, h.printable.sweep now, h.stage, h.outbox⟩

/-- An operation that is pending is the last one that was asked for. -/
lemma Inv.effect_eq (h : y.Inv cfg size latest a₀ a told phase) {o : DataOp}
    (hphase : phase i = .pending o) (hst : (y.conns i).status = .CONN_DATA) (now : ℕ) :
    y.effect i now = [.call i o ⟨y.read i, now⟩] := by
  have hlast : (y.asked i).getLast? = some o := by
    rw [h.explains.asked i, hphase]
    exact List.getLast?_concat
  rw [effect, if_pos hst, hlast]
  rfl

lemma effect_eq_nil (hst : (y.conns i).status ≠ .CONN_DATA) (now : ℕ) : y.effect i now = [] := if_neg hst

section Moved

variable {now : ℕ} {z : Session}

@[simp] lemma moved_conns_self : (y.moved i now z).conns i = z.running := Function.update_self ..

lemma moved_conns_of_ne {j : ℕ} (hj : j ≠ i) : (y.moved i now z).conns j = y.conns j :=
  Function.update_of_ne hj ..

lemma moved_read_self :
    (y.moved i now z).read i = if (y.conns i).status = .CONN_READ then now else y.read i := by
  simp only [moved]
  split_ifs
  · exact Function.update_self ..
  · rfl

lemma moved_read_of_ne {j : ℕ} (hj : j ≠ i) : (y.moved i now z).read j = y.read j := by
  simp only [moved]
  split_ifs
  · exact Function.update_of_ne hj ..
  · rfl

/-- A turn that does nothing that matters. -/
lemma Inv.quiet (h : y.Inv cfg size latest a₀ a told phase) (hst : (y.conns i).status ≠ .CONN_DATA)
    (hserver : z.server = y.server)
    (hstage : Stage cfg size latest (if (y.conns i).status = .CONN_READ then now else y.read i) z.running
      (phase i))
    (houtbox : z.running.sock.outbox = (y.conns i).sock.outbox) :
    (y.moved i now z).Inv cfg size latest a₀ a told phase := by
  refine h.of_one ?_ (by rw [moved, hserver]; exact h.store) h.printable i
    (fun j hj => ⟨moved_conns_of_ne hj, moved_read_of_ne hj, rfl, rfl⟩) ?_ ?_
  · simp only [moved, effect_eq_nil hst, List.append_nil]
    exact h.explains
  · rw [moved_conns_self, moved_read_self]
    exact hstage
  · rw [moved_conns_self, houtbox]
    exact h.outbox i

/-- A turn that carries an operation out. -/
lemma Inv.acts (h : y.Inv cfg size latest a₀ a told phase) {o : DataOp} (hphase : phase i = .pending o)
    (hst : (y.conns i).status = .CONN_DATA)
    (hstore : Refines z.server.db (o.spec a ⟨y.read i, now⟩).2)
    (hall : (o.spec a ⟨y.read i, now⟩).2.All Printable)
    (hstage : Stage cfg size latest (y.read i) z.running (.answered (o.spec a ⟨y.read i, now⟩).1))
    (houtbox : z.running.sock.outbox = (y.conns i).sock.outbox) :
    (y.moved i now z).Inv cfg size latest a₀ (o.spec a ⟨y.read i, now⟩).2 told
      (Function.update phase i (.answered (o.spec a ⟨y.read i, now⟩).1)) := by
  refine h.of_one ?_ hstore hall i
    (fun j hj => ⟨moved_conns_of_ne hj, moved_read_of_ne hj, Function.update_of_ne hj .., rfl⟩) ?_ ?_
  · simp only [moved, h.effect_eq hphase hst]
    exact h.explains.take_effect hphase _
  · rw [moved_conns_self, moved_read_self, if_neg (by rw [hst]; simp), Function.update_self]
    exact hstage
  · rw [moved_conns_self, houtbox]
    exact h.outbox i

/-- A turn that sends an answer. -/
lemma Inv.tells (h : y.Inv cfg size latest a₀ a told phase) {v : Resp.Value}
    (hphase : phase i = .answered v) (hst : (y.conns i).status = .CONN_WRITE)
    (hserver : z.server = y.server) (hstage : Stage cfg size latest (y.read i) z.running .idle)
    (houtbox : z.running.sock.outbox = (y.conns i).sock.outbox ++ v.encode.map some) :
    (y.moved i now z).Inv cfg size latest a₀ a (Function.update told i (told i ++ [v]))
      (Function.update phase i .idle) := by
  refine h.of_one ?_ (by rw [moved, hserver]; exact h.store) h.printable i (fun j hj =>
    ⟨moved_conns_of_ne hj, moved_read_of_ne hj, Function.update_of_ne hj .., Function.update_of_ne hj ..⟩)
    ?_ ?_
  · simp only [moved, effect_eq_nil (show (y.conns i).status ≠ .CONN_DATA by rw [hst]; simp),
      List.append_nil]
    exact h.explains.tell hphase
  · rw [moved_conns_self, moved_read_self, if_neg (by rw [hst]; simp), Function.update_self]
    exact hstage
  · rw [moved_conns_self, houtbox, h.outbox i, Function.update_self, List.flatMap_append,
      List.flatMap_singleton, List.map_append]

end Moved

/-- **A turn**: it never fails, and brings the client nearer to its answer. -/
lemma Inv.turn (h : y.Inv cfg size latest a₀ a told phase) {w : World} (hw : w.Fair latest)
    (hnot : ¬ (y.session i).Waiting) :
    ∃ y' a' told' phase', y.step cfg (.turn i w) = some y' ∧ y'.Inv cfg size latest a₀ a' told' phase' ∧
      (y'.conns i).turnsLeft ≤ (y.conns i).turnsLeft - 1 ∧ ∀ j, j ≠ i → y'.conns j = y.conns j := by
  obtain ⟨z, φ, hstep, hturned, hleft⟩ := (h.stage i).turns hnot hw h.store h.printable
  have hy : y.step cfg (.turn i w) = some (y.moved i w.now z) := by
    simp only [step, if_neg hnot]
    rw [show (y.session i).step cfg false (.turn w true) = some z from hstep, Option.map_some]
  have hrest : ((y.moved i w.now z).conns i).turnsLeft ≤ (y.conns i).turnsLeft - 1 ∧
      ∀ j, j ≠ i → (y.moved i w.now z).conns j = y.conns j :=
    ⟨by rwa [moved_conns_self], fun j hj => moved_conns_of_ne hj⟩
  generalize hphase : phase i = φ₀ at hturned
  cases hturned with
  | quiet hst hserver hstage houtbox =>
      exact ⟨_, _, _, _, hy, h.quiet hst hserver (hphase ▸ hstage) houtbox, hrest⟩
  | acts hst hstore hall hstage houtbox =>
      exact ⟨_, _, _, _, hy, h.acts hphase hst hstore hall hstage houtbox, hrest⟩
  | tells hst hserver hstage houtbox =>
      exact ⟨_, _, _, _, hy, h.tells hphase hst hserver hstage houtbox, hrest⟩

/-- The client asks something. -/
def Ev.Asks (i : ℕ) : Ev → Prop
  | .ask j _ _ => j = i
  | _ => False

/-- The turns of a connection. -/
def Ev.turns (i : ℕ) : Ev → ℕ
  | .turn j _ => if j = i then 1 else 0
  | _ => 0

/-- **A step keeps the invariant**, and takes no client farther from its answer. -/
lemma Inv.step (h : y.Inv cfg size latest a₀ a told phase) {e : Ev} (hfair : e.Fair size latest)
    (hs : y.step cfg e = some y') :
    (∃ a' told' phase', y'.Inv cfg size latest a₀ a' told' phase') ∧
      ∀ i, ¬ e.Asks i → (y'.conns i).turnsLeft ≤ (y.conns i).turnsLeft - e.turns i := by
  cases e with
  | ask j name o =>
      obtain ⟨phase', hinv⟩ := h.ask hfair hs
      refine ⟨⟨a, told, phase', hinv⟩, fun i hi => ?_⟩
      simp only [Clients.step, Option.ite_none_right_eq_some, Option.some.injEq] at hs
      obtain ⟨-, rfl⟩ := hs
      simp only [Function.update_of_ne (Ne.symm hi), Ev.turns, Nat.sub_zero, le_refl]
  | turn j w =>
      have hnot : ¬ (y.session j).Waiting := by
        intro hwait
        simp only [Clients.step, if_pos hwait] at hs
        cases hs
      obtain ⟨y₁, a', told', phase', hy₁, hinv, hleft, hothers⟩ := h.turn hfair hnot
      obtain rfl : y₁ = y' := Option.some.inj (hy₁.symm.trans hs)
      refine ⟨⟨a', told', phase', hinv⟩, fun i _ => ?_⟩
      by_cases hi : j = i
      · subst hi
        rw [Ev.turns, if_pos rfl]
        exact hleft
      · rw [hothers i (Ne.symm hi), Ev.turns, if_neg hi, Nat.sub_zero]
  | sweep now =>
      obtain ⟨y₁, hy₁, hconns, hinv⟩ := h.sweep now
      obtain rfl : y₁ = y' := Option.some.inj (hy₁.symm.trans hs)
      refine ⟨⟨_, told, phase, hinv⟩, fun i _ => ?_⟩
      simp [hconns, Ev.turns]

lemma Inv.run (h : y.Inv cfg size latest a₀ a told phase) {evs : List Ev}
    (hfair : ∀ e ∈ evs, e.Fair size latest) (hrun : Transition.run (Clients.step cfg) y evs = some y') :
    (∃ a' told' phase', y'.Inv cfg size latest a₀ a' told' phase') ∧
      ∀ i, (∀ e ∈ evs, ¬ e.Asks i) →
        (y'.conns i).turnsLeft ≤ (y.conns i).turnsLeft - (evs.map (Ev.turns i)).sum := by
  induction evs generalizing y a told phase with
  | nil =>
      obtain rfl : y = y' := by simpa [Transition.run] using hrun
      exact ⟨⟨a, told, phase, h⟩, fun i _ => by simp⟩
  | cons e evs ih =>
      obtain ⟨y₁, hstep, hrun⟩ := Transition.run_cons hrun
      obtain ⟨⟨a₁, told₁, phase₁, h₁⟩, hleft₁⟩ := h.step (hfair e List.mem_cons_self) hstep
      obtain ⟨hinv, hleft⟩ := ih h₁ (fun e' he' => hfair e' (List.mem_cons_of_mem e he')) hrun
      refine ⟨hinv, fun i hi => ?_⟩
      have hone := hleft₁ i (hi e List.mem_cons_self)
      have hrest := hleft i fun e' he' => hi e' (List.mem_cons_of_mem e he')
      rw [List.map_cons, List.sum_cons]
      omega

/-- The log is only ever added to. -/
lemma log_prefix_step {e : Ev} (hs : y.step cfg e = some y') : y.log <+: y'.log := by
  cases e with
  | ask i name o =>
      simp only [step, Option.ite_none_right_eq_some, Option.some.injEq] at hs
      obtain ⟨-, rfl⟩ := hs
      exact List.prefix_rfl
  | turn i w =>
      simp only [step] at hs
      split_ifs at hs
      obtain ⟨z, -, rfl⟩ := Option.map_eq_some_iff.mp hs
      exact List.prefix_append ..
  | sweep now =>
      simp only [step] at hs
      split at hs
      · cases hs
      · obtain rfl := Option.some.inj hs
        exact List.prefix_append ..

/-! ## What the clients see -/

/-- The part of an answer that is still to be sent. -/
def unsent (y : Clients) (i : ℕ) : Str :=
  if (y.conns i).status = .CONN_WRITE then (y.conns i).conn.outstr else []

/-- **The log explains everything**: the store is what comes of it; every client has been sent, or is
about to be, the answers that belong to its requests; and all its requests are in the log, in order,
except that one may still be pending while it waits. -/
structure Explained (a₀ : ExpMap Str Str) (y : Clients) : Prop where
  store : Refines y.server.db (dataSpec.after a₀ y.log)
  answers : ∀ i, (y.conns i).sock.outbox ++ (y.unsent i).map some
    = ((dataSpec.answers i a₀ y.log).flatMap Resp.Value.encode).map some
  asked : ∀ i, y.asked i = ops i y.log ∨
    ¬ (y.conns i).Free ∧ ∃ o, y.asked i = ops i y.log ++ [o]

/-- The answer that is owed is the one that is about to be sent. -/
lemma Stage.unsent_eq {read : ℕ} {φ : Phase DataOp Resp.Value}
    (h : Stage cfg size latest read (y.conns i) φ) : y.unsent i = φ.owed.flatMap Resp.Value.encode := by
  rw [unsent]
  generalize y.conns i = x at h
  cases h with
  | rests h =>
      rw [if_neg (by rcases h.free.1 with ⟨hst, -⟩ | hst <;> rw [hst] <;> simp)]
      rfl
  | @asked x o name h ho hlen =>
      rw [if_neg (by rcases h.free.1 with ⟨hst, -⟩ | hst <;>
        rw [show (x.receive (o.bytes name)).status = _ from hst] <;> simp)]
      rfl
  | holds h ho hread =>
      rw [if_neg (by rcases h.status with ⟨hst, -⟩ | ⟨hst, -⟩ <;> rw [hst] <;> simp)]
      rfl
  | sends h =>
      rw [if_pos h.status, h.outstr]
      simp [Phase.owed]

lemma Inv.explained (h : y.Inv cfg size latest a₀ a told phase) : y.Explained a₀ where
  store := h.explains.object ▸ h.store
  answers := by
    intro i
    rw [h.outbox i, h.explains.told i, Stage.unsent_eq (h.stage i), List.flatMap_append, List.map_append]
  asked := by
    intro i
    by_cases hfree : (y.conns i).Free
    · left
      rw [h.explains.asked i, ((h.stage i).idle_of_free hfree).1]
      exact List.append_nil _
    · rw [h.explains.asked i]
      cases phase i with
      | idle => exact Or.inl (List.append_nil _)
      | pending o => exact Or.inr ⟨hfree, o, rfl⟩
      | answered v => exact Or.inl (List.append_nil _)

/-- Nothing is left to be done for a client that has no turns left. -/
lemma Stage.free_of_turnsLeft {read : ℕ} {x : Running} {φ : Phase DataOp Resp.Value}
    (h : Stage cfg size latest read x φ) (hleft : x.turnsLeft = 0) : x.Free := by
  cases h with
  | rests h => exact h.free
  | @asked x o name h ho hlen =>
      rw [Running.turnsLeft_receive x (o.bytes_ne_nil name)] at hleft
      split_ifs at hleft
  | holds h ho hread =>
      rcases h.status with ⟨hst, -⟩ | ⟨hst, -⟩ <;> simp [Running.turnsLeft, h.inbox, hst] at hleft
  | sends h => simp [Running.turnsLeft, h.inbox, h.status] at hleft

/-- **The requests take effect one after the other.**  In every state that the server can get into, the
log explains the store and all the answers, and whatever happens next only adds to it: what has been
answered before a request is sent comes before it in the log. -/
theorem clients_explained {y₀ : Clients} (hfresh : y₀.Fresh cfg size a₀) {evs evs' : List Ev}
    (hfair : ∀ e ∈ evs ++ evs', e.Fair size latest)
    (hrun : Transition.run (step cfg) y₀ evs = some y) (hrun' : Transition.run (step cfg) y evs' = some y') :
    y.Explained a₀ ∧ y'.Explained a₀ ∧ y.log <+: y'.log := by
  obtain ⟨⟨a, told, phase, hinv⟩, -⟩ :=
    hfresh.inv.run (fun e he => hfair e (List.mem_append_left _ he)) hrun
  obtain ⟨⟨a', told', phase', hinv'⟩, -⟩ :=
    hinv.run (fun e he => hfair e (List.mem_append_right _ he)) hrun'
  refine ⟨hinv.explained, hinv'.explained, ?_⟩
  exact Transition.inv_run_of_step (I := fun z => y.log <+: z.log)
    (fun _ _ _ hlog hs => hlog.trans (log_prefix_step hs)) List.prefix_rfl hrun'

/-- Two clients that have not asked anything yet. -/
def twoClients : Clients where
  server := emptyServer
  conns := fun _ => (Session.start emptyServer false
    ⟨[], fun _ => .bytes 4096, fun _ => .count 65535, []⟩).running
  asked := fun _ => []
  read := fun _ => 0
  log := []

lemma twoClients_fresh : twoClients.Fresh openConfig 4096 .empty where
  store := Refines.empty
  printable := ExpMap.All.empty
  rests := fun _ => ⟨⟨⟨rfl, rfl⟩, rfl, show Session.Roomy 4096 4096 from ⟨le_rfl, by decide⟩⟩,
    ⟨Or.inr rfl, ⟨rfl, rfl⟩, rfl⟩, ⟨Or.inl ⟨rfl, rfl⟩, rfl⟩, fun _ => rfl⟩
  outbox := fun _ => rfl
  asked := rfl
  log := rfl

/-- One client stores a value while the other asks for it, and is a turn too late. -/
def setAndGet : List Ev :=
  [.ask 0 (lit "set") (.set (lit "k") (lit "v")), .ask 1 (lit "get") (.get (lit "k")),
    .turn 0 quietWorld, .turn 1 quietWorld, .turn 0 quietWorld, .turn 1 quietWorld, .turn 0 quietWorld]

/-- Both are answered, and the second one asks again. -/
def getAgain : List Ev :=
  [.turn 1 quietWorld, .sweep 1000000000, .ask 1 (lit "get") (.get (lit "k")), .turn 0 quietWorld,
    .turn 1 quietWorld, .turn 1 quietWorld, .turn 1 quietWorld, .turn 1 quietWorld]

lemma fair_setAndGet : ∀ e ∈ setAndGet ++ getAgain, e.Fair 4096 1000000000 := by
  have hset : (Ev.ask 0 (lit "set") (.set (lit "k") (lit "v"))).Fair 4096 1000000000 :=
    ⟨⟨rfl, ⟨by decide, by decide, by decide⟩, trivial⟩, by decide⟩
  have hget : (Ev.ask 1 (lit "get") (.get (lit "k"))).Fair 4096 1000000000 :=
    ⟨⟨rfl, ⟨by decide, show Clean (lit "k") by decide⟩, trivial⟩, by decide⟩
  have hworld : quietWorld.Fair 1000000000 := ⟨rfl, rfl, by decide, le_rfl⟩
  intro e he
  simp only [setAndGet, getAgain, List.cons_append, List.nil_append, List.mem_cons, List.not_mem_nil,
    or_false] at he
  rcases he with rfl | rfl | rfl | rfl | rfl | rfl | rfl | rfl | rfl | rfl | rfl | rfl | rfl | rfl | rfl
  all_goals first | exact hset | exact hget | exact hworld | trivial

theorem clients_explained_setAndGet : ∃ y y',
    Transition.run (step openConfig) twoClients setAndGet = some y ∧
      Transition.run (step openConfig) y getAgain = some y' ∧
      y.Explained .empty ∧ y'.Explained .empty ∧ y.log <+: y'.log := by
  have hrun : (Transition.run (step openConfig) twoClients (setAndGet ++ getAgain)).isSome := by
    decide +kernel
  rw [Transition.run_append] at hrun
  obtain ⟨y', hy'⟩ := Option.isSome_iff_exists.mp hrun
  obtain ⟨y, hy, hy'⟩ := Option.bind_eq_some_iff.mp hy'
  exact ⟨y, y', hy, hy', clients_explained twoClients_fresh fair_setAndGet hy hy'⟩

/-- **Nobody waits for anybody.**  The loop can turn for every connection that has something to do.  A
client is at most five turns of its own connection away from its answer, and after that many turns it
has it, whatever the others have done in between. -/
theorem clients_answered {y₀ : Clients} (hfresh : y₀.Fresh cfg size a₀) {evs evs' : List Ev}
    (hfair : ∀ e ∈ evs ++ evs', e.Fair size latest)
    (hrun : Transition.run (step cfg) y₀ evs = some y) (hrun' : Transition.run (step cfg) y evs' = some y')
    (i : ℕ) :
    (∀ w : World, w.Fair latest → ¬ (y.session i).Waiting → (y.step cfg (.turn i w)).isSome) ∧
      (y.conns i).turnsLeft ≤ 5 ∧
      ((∀ e ∈ evs', ¬ e.Asks i) → (y.conns i).turnsLeft ≤ (evs'.map (Ev.turns i)).sum →
        ops i y'.log = y'.asked i ∧ (y'.conns i).sock.outbox
          = ((dataSpec.answers i a₀ y'.log).flatMap Resp.Value.encode).map some) := by
  obtain ⟨⟨a, told, phase, hinv⟩, -⟩ :=
    hfresh.inv.run (fun e he => hfair e (List.mem_append_left _ he)) hrun
  obtain ⟨⟨a', told', phase', hinv'⟩, hleft⟩ :=
    hinv.run (fun e he => hfair e (List.mem_append_right _ he)) hrun'
  refine ⟨fun w hw hnot => ?_, ?_, fun hask hturns => ?_⟩
  · obtain ⟨z, -, -, -, hz, -⟩ := hinv.turn hw hnot
    rw [hz]
    rfl
  · rw [Running.turnsLeft]
    split_ifs
    · split <;> decide
    · decide
    · decide
  · have hzero : (y'.conns i).turnsLeft = 0 := by
      have := hleft i hask
      omega
    have hfree := Stage.free_of_turnsLeft (hinv'.stage i) hzero
    obtain ⟨hidle, -⟩ := (hinv'.stage i).idle_of_free hfree
    refine ⟨?_, ?_⟩
    · rw [hinv'.explains.asked i, hidle]
      exact (List.append_nil _).symm
    · rw [hinv'.outbox i, hinv'.explains.told i, hidle]
      simp [Phase.owed]

theorem clients_answered_setAndGet : ∃ y y',
    Transition.run (step openConfig) twoClients setAndGet = some y ∧
      Transition.run (step openConfig) y getAgain = some y' ∧
      (y'.conns 0).sock.outbox
        = ((dataSpec.answers 0 .empty y'.log).flatMap Resp.Value.encode).map some := by
  have hrun : ((Transition.run (step openConfig) twoClients setAndGet).bind fun y =>
      (Transition.run (step openConfig) y getAgain).map fun _ => (y.conns 0).turnsLeft) = some 1 := by
    decide +kernel
  obtain ⟨y, hy, hrest⟩ := Option.bind_eq_some_iff.mp hrun
  obtain ⟨y', hy', hleft⟩ := Option.map_eq_some_iff.mp hrest
  obtain ⟨-, -, hanswered⟩ := clients_answered twoClients_fresh fair_setAndGet hy hy' 0
  refine ⟨y, y', hy, hy', (hanswered ?_ ?_).2⟩
  · simp [getAgain, Ev.Asks]
  · rw [hleft]
    decide

end Clients

end Riser
