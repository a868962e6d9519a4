import Riser.Connect.Session
import Riser.Connect.TryRunning
import Riser.Core.Transition

/-!
# What a connection is registered for

libevent calls `GentEvent::Handle` for a connection only when the event has come that the connection is
registered for, reading or writing.  A connection that is kept although it is not registered, or that is
registered for reading while it has an answer to send, is never served again, and its peer waits forever.

`UpdateEvent` changes the event.  It takes the connection out and puts it in again, and either can fail;
in between the connection is not registered.  `TryRunning` changes the event in eight places.  In four it
returns `-1` if that has failed, and `Handle` then gives the connection up.  **In the other four the
result is ignored**: at the end of `CONN_CONREAD`, and where `NextRead`, `ContinueRead` and `OutString` find
that the socket is not ready.

That does no harm (`ignored_unchanged`): in these places the connection is registered for this very event
already, and `UpdateEvent` returns at once.  So **a connection that waits is registered for what it waits
for** (`polled_registered`), however the calls of libevent turn out.

These are connections that `MasterHandle` does not write to.  It calls `OutString` from another thread and
whatever the status is.
-/

namespace Riser

open Cpp
open Loop (Outcome)

/-! ## The event of a connection -/

/-- `eventRead` and `eventWrite`. -/
inductive EvKind where
  | eventRead
  | eventWrite
  deriving DecidableEq

/-- `ev` and `ev_flags`, and how the next calls of `event_del` and `event_add` turn out. -/
structure Watch where
  ev_flags : EvKind
  registered : Option EvKind
  dels : ℕ → Bool
  adds : ℕ → Bool

namespace Watch

/-- `event_del`. -/
def eventDel (v : Watch) : Bool × Watch :=
  (v.dels 0,
    { v with
      registered := if v.dels 0 then none else v.registered
      dels := fun i => v.dels (i + 1) })

/-- `event_add`, for the event that was set. -/
def eventAdd (v : Watch) (state : EvKind) : Bool × Watch :=
  (v.adds 0,
    { v with
      registered := if v.adds 0 then some state else v.registered
      adds := fun i => v.adds (i + 1) })

/-- `GentEvent::UpdateEvent`: whether it returns 0. -/
def updateEvent (v : Watch) (state : EvKind) : Bool × Watch :=
  if v.ev_flags = state then (true, v)
  else
    let (deleted, v) := v.eventDel
    if deleted then { v with ev_flags := state }.eventAdd state else (false, v)

/-- Calls whose result is not looked at. -/
def updates (v : Watch) (states : List EvKind) : Watch :=
  states.foldl (fun v state => (v.updateEvent state).2) v

end Watch

/-! ## The calls of a turn -/

/-- The calls of `UpdateEvent` in a turn: those whose result is ignored, and one whose result is
returned, which comes last. -/
structure Calls where
  ignored : List EvKind
  checked : Option EvKind

/-- The result of the last call, and what the calls leave. -/
def Watch.after (v : Watch) (calls : Calls) : Bool × Watch :=
  match calls.checked with
  | none => (true, v.updates calls.ignored)
  | some state => (v.updates calls.ignored).updateEvent state

/-- Whether the loop of `ContinueRead` ends because the socket has nothing to read. -/
def GentConnect.blocks : ℕ → Socket → Str → ℕ → Bool
  | allocs, s, buf, size =>
      match s.read (size - buf.length) with
      | (.data bytes, s) =>
          if bytes.length = size - buf.length then
            match allocs with
            | 0 => false
            | allocs + 1 => blocks allocs s (buf ++ bytes) (size * 2)
          else false
      | (.eof, _) => false
      | (.eagain, _) => true
      | (.error, _) => false

namespace Running

/-- `CONN_READ`: an error is answered. -/
def readCalls (env : Env) (x : Running) : Calls :=
  let (readNum, rbytes, _, _) := GentConnect.readBuffer x.sock x.rbytes x.conn.rsize
  if readNum ≤ 0 then ⟨[], none⟩
  else
    match process env.cfg env.now x.conn.comm rbytes with
    | .error _ => ⟨[], none⟩
    | .ok (status, outstr, _) =>
        ⟨[], if toUInt64 status = 0 ∧ outstr ≠ [] then some .eventWrite else none⟩

/-- `CONN_NREAD`: `NextRead` finds nothing to read. -/
def nextReadCalls (x : Running) : Calls :=
  if x.conn.remainsize = 0 then ⟨[], none⟩
  else
    match x.sock.read x.conn.remainsize with
    | (.eagain, _) => ⟨[.eventRead], none⟩
    | _ => ⟨[], none⟩

/-- `CONN_WRITE`: `OutString` returns 0 with bytes left. -/
def writeCalls (x : Running) : Calls :=
  let (res, c, _) := x.conn.reset.outString x.sock x.conn.outstr
  ⟨if res = 0 ∧ c.sendsize ≠ 0 then [.eventWrite] else [], none⟩

/-- `CONN_CONREAD`: `ContinueRead` may have called before. -/
def conReadCalls (x : Running) : Calls :=
  let csize := if x.conn.cbuf.isSome then x.conn.csize else readBufferSize
  let cbuf := x.conn.cbuf.getD []
  let (readNum, cbytes, _, _) := GentConnect.readBuffer x.sock cbuf csize
  let blocked :=
    if csize ≤ cbuf.length then GentConnect.blocks 3 x.sock cbuf (csize * 2)
    else GentConnect.blocks 4 x.sock cbuf csize
  let calls := if blocked then [.eventRead] else []
  if readNum < 0 then ⟨calls, none⟩
  else if readNum = 0 then ⟨calls, some .eventRead⟩
  else
    match continueProcess x.conn.comm cbytes with
    | .error _ => ⟨calls, none⟩
    | .ok (ret, _) => ⟨if ret = 0 then calls else calls ++ [.eventRead], none⟩

/-- What a turn of the loop of `TryRunning` calls. -/
def calls (env : Env) (x : Running) : Calls :=
  match x.status with
  | .CONN_READ => x.readCalls env
  | .CONN_NREAD => x.nextReadCalls
  | .CONN_WRITE => x.writeCalls
  | .CONN_WAIT => ⟨[], some .eventRead⟩
  | .CONN_CLOSE => ⟨[], none⟩
  | .CONN_DATA =>
      ⟨[], if (env.complete x.conn.comm x.conn.content).1 ≠ [] then some .eventWrite else none⟩
  | .CONN_CONREAD => x.conReadCalls

/-- What a connection waits for between two calls of `TryRunning`. -/
def awaits (x : Running) : EvKind := if x.status = .CONN_WRITE then .eventWrite else .eventRead

end Running

/-! ## A worker and one of its connections -/

/-- The connection waits for libevent, or is served, or has been given up. -/
inductive Polling.Phase where
  | polled
  | serving
  | closed
  deriving DecidableEq

/-- A connection of a server, and its event. -/
structure Polling where
  session : Session
  watch : Watch
  phase : Polling.Phase

namespace Polling

/-- What can happen: libevent finds that the event has come, the loop of `TryRunning` makes a turn, and at
any time the peer and the network change the socket, and other connections the server. -/
inductive Ev where
  | ready
  | turn (w : World)
  | socket (sock : Socket)
  | server (sv : Server)

/-- `GentThread::Handle`: a new connection is registered for reading, or given up. -/
def start (sv : Server) (uninit : Bool) (sock : Socket) (dels adds : ℕ → Bool) : Polling :=
  let (added, watch) := (⟨.eventRead, none, dels, adds⟩ : Watch).eventAdd .eventRead
  ⟨.start sv uninit sock, watch, if added then .polled else .closed⟩

/-- What `GentEvent::Handle` does after a turn. -/
def handled (server : Server) (attached : List Str) (watch : Watch) :
    Outcome Running Running.Left → Option Polling
  | .next y => some ⟨⟨server, y, attached⟩, watch, .serving⟩
  | .leave (.ok (readNum, y)) =>
      let session : Session := ⟨server, { y with rbytes := [] }, attached⟩
      if readNum < 0 then some ⟨session, watch.eventDel.2, .closed⟩
      else some ⟨session, watch, .polled⟩
  | .leave (.error _) => none

/-- One step.  A fault ends the server. -/
def step (cfg : Config) (is_slave : Bool) (p : Polling) : Ev → Option Polling
  | .ready =>
      if p.phase = .polled ∧ p.watch.registered.isSome then some { p with phase := .serving } else none
  | .turn w =>
      if p.phase = .serving then
        match p.session.act is_slave w with
        | .error _ => none
        | .ok (outstr, r, server, attached) =>
            let env : Env := ⟨cfg, w.now, fun _ _ => (outstr, r), true⟩
            let (updated, watch) := p.watch.after (p.session.running.calls env)
            handled server attached watch
              (p.session.running.turn { env with updateEvent := updated })
      else none
  | .socket sock =>
      some { p with session := { p.session with running := { p.session.running with sock := sock } } }
  | .server sv => some { p with session := { p.session with server := sv } }

end Polling

/-! ## Changing the event -/

namespace Watch

variable {v : Watch} {state : EvKind}

lemma updateEvent_same (h : v.ev_flags = state) : v.updateEvent state = (true, v) := by
  rw [updateEvent, if_pos h]

/-- A connection that is registered, and whose event could be changed, is registered for it. -/
lemma updateEvent_ok (hreg : v.registered = some v.ev_flags) (hok : (v.updateEvent state).1 = true) :
    (v.updateEvent state).2.ev_flags = state ∧ (v.updateEvent state).2.registered = some state := by
  by_cases hsame : v.ev_flags = state
  · rw [updateEvent_same hsame]
    exact ⟨hsame, hsame ▸ hreg⟩
  · simp only [updateEvent, hsame, if_false, eventDel, eventAdd] at hok ⊢
    by_cases hdel : v.dels 0 = true
    · simp only [hdel, if_true] at hok ⊢
      simp only [hok, if_true, and_self]
    · simp only [hdel] at hok
      cases hok

/-- Calls for the event it has are without effect. -/
lemma updates_same {states : List EvKind} (h : ∀ state ∈ states, state = v.ev_flags) :
    v.updates states = v := by
  induction states with
  | nil => rfl
  | cons state states ih =>
      have hhead : v.ev_flags = state := (h state List.mem_cons_self).symm
      show (v.updateEvent state).2.updates states = v
      rw [updateEvent_same hhead]
      exact ih fun other hother => h other (List.mem_cons_of_mem state hother)

/-- What a turn leaves, if the calls it ignores are for the event the connection has. -/
lemma after_of_ignored {calls : Calls} (h : ∀ state ∈ calls.ignored, state = v.ev_flags) :
    v.after calls = match calls.checked with
      | none => (true, v)
      | some state => v.updateEvent state := by
  rw [after, updates_same h]

end Watch

/-! ## What a turn keeps -/

/-- A connection that waits for libevent: it is registered for what it waits for. -/
structure Running.Polled (x : Running) (v : Watch) : Prop where
  registered : v.registered = some x.awaits
  flags : v.ev_flags = x.awaits

/-- A connection that is being served.  Between an answer that has gone out and the next request, in
`CONN_WAIT`, it is still registered for writing; the turn there changes that. -/
structure Running.Served (x : Running) (v : Watch) : Prop where
  registered : v.registered = some v.ev_flags
  flags : x.status ≠ .CONN_WAIT → v.ev_flags = x.awaits

lemma Running.Polled.served {x : Running} {v : Watch} (h : x.Polled v) : x.Served v :=
  ⟨h.flags ▸ h.registered, fun _ => h.flags⟩

namespace Running

variable {env : Env} {x : Running} {v : Watch}

/-- How a turn ends well: it goes on, or returns with the connection registered, or gives it up. -/
def Keeps (v : Watch) : Outcome Running Left → Prop
  | .next y => y.Served v
  | .leave (.ok (readNum, y)) => 0 ≤ readNum → y.Polled v
  | .leave (.error _) => True

/-- The turn ignores only calls for the event that the connection has. -/
def Harmless (v : Watch) (calls : Calls) : Prop := ∀ state ∈ calls.ignored, state = v.ev_flags

lemma awaits_write (h : x.status = .CONN_WRITE) : x.awaits = .eventWrite := if_pos h

lemma awaits_read (h : x.status ≠ .CONN_WRITE) : x.awaits = .eventRead := if_neg h

/-- A status in which nothing is sent. -/
lemma Served.read (h : x.Served v) (hwrite : x.status ≠ .CONN_WRITE) (hwait : x.status ≠ .CONN_WAIT) :
    v.ev_flags = .eventRead := (h.flags hwait).trans (awaits_read hwrite)

/-- A turn that changes nothing of the event, and does not come to `CONN_WRITE`. -/
lemma Served.next {y : Running} (h : x.Served v) (hread : v.ev_flags = .eventRead)
    (hy : y.status ≠ .CONN_WRITE) : y.Served v :=
  ⟨h.registered, fun _ => hread.trans (awaits_read hy).symm⟩

lemma Served.polled {y : Running} (h : x.Served v) (hread : v.ev_flags = .eventRead)
    (hy : y.status ≠ .CONN_WRITE) : y.Polled v :=
  have hflags : v.ev_flags = y.awaits := hread.trans (awaits_read hy).symm
  ⟨hflags ▸ h.registered, hflags⟩

/-- A turn that asks for the event its new status waits for, and returns the result. -/
lemma Served.updated {y : Running} (h : x.Served v) {state : EvKind} (hy : y.awaits = state)
    {env : Env} (henv : env.updateEvent = (v.updateEvent state).1) :
    Keeps (v.updateEvent state).2 (.leave (.ok (Running.updated env, y))) := by
  intro hret
  have hok : (v.updateEvent state).1 = true := by
    rw [← henv]
    by_contra hfail
    rw [Running.updated, if_neg hfail] at hret
    exact absurd hret (by decide)
  obtain ⟨hflags, hreg⟩ := Watch.updateEvent_ok h.registered hok
  exact ⟨hy ▸ hreg, hy ▸ hflags⟩

/-- The calls are harmless, and the turn ends well when it is told the result of the last. -/
structure Fine (v : Watch) (calls : Calls) (turn : Bool → Outcome Running Left) : Prop where
  harmless : Harmless v calls
  keeps : Keeps (v.after calls).2 (turn (v.after calls).1)

section Fine

variable {ignored : List EvKind} {turn : Bool → Outcome Running Left}

lemma Fine.unchecked (hignored : ∀ state ∈ ignored, state = v.ev_flags) (h : ∀ b, Keeps v (turn b)) :
    Fine v ⟨ignored, none⟩ turn := by
  refine ⟨hignored, ?_⟩
  rw [Watch.after_of_ignored hignored]
  exact h true

lemma Fine.checked {state : EvKind} (hignored : ∀ state ∈ ignored, state = v.ev_flags)
    (h : Keeps (v.updateEvent state).2 (turn (v.updateEvent state).1)) :
    Fine v ⟨ignored, some state⟩ turn := by
  refine ⟨hignored, ?_⟩
  rw [Watch.after_of_ignored hignored]
  exact h

/-- Nothing is called. -/
lemma Fine.none (h : ∀ b, Keeps v (turn b)) : Fine v ⟨[], .none⟩ turn :=
  .unchecked (fun _ hstate => absurd hstate List.not_mem_nil) h

/-- Only the last. -/
lemma Fine.last {state : EvKind} (h : Keeps (v.updateEvent state).2 (turn (v.updateEvent state).1)) :
    Fine v ⟨[], some state⟩ turn :=
  .checked (fun _ hstate => absurd hstate List.not_mem_nil) h

end Fine

/-- A result below 0 gives the connection up. -/
lemma keeps_of_neg {readNum : ℤ} {y : Running} (h : readNum < 0) : Keeps v (.leave (.ok (readNum, y))) :=
  fun hret => absurd hret (by omega)

lemma fine_read (h : x.Served v) (hx : x.status = .CONN_READ) :
    Fine v (x.readCalls env) fun b => x.read { env with updateEvent := b } := by
  have hwrite : x.conn.comm.curstatus ≠ .CONN_WRITE := by
    rw [show x.conn.comm.curstatus = _ from hx]
    decide
  have hread : v.ev_flags = .eventRead := h.read hwrite (by rw [hx]; decide)
  simp only [readCalls, read]
  rcases GentConnect.readBuffer x.sock x.rbytes x.conn.rsize with ⟨readNum, rbytes, rsize, sock⟩
  dsimp only
  rcases lt_trichotomy readNum 0 with hneg | rfl | hpos
  · simp only [if_pos hneg.le, if_pos hneg]
    exact .none fun _ => keeps_of_neg hneg
  · simp only [le_refl, lt_irrefl, if_true, if_false]
    refine .none fun _ => h.next hread ?_
    simp [status, GentConnect.setStatus]
  · simp only [if_neg hpos.not_ge, if_neg hpos.not_gt, if_neg hpos.ne']
    cases hproc : process env.cfg env.now x.conn.comm rbytes with
    | error f => exact .none fun _ => trivial
    | ok res =>
        obtain ⟨status, outstr, r⟩ := res
        dsimp only
        split_ifs with hout
        · exact .last (h.updated rfl rfl)
        · exact .none fun _ => h.next hread (process_noWrite hwrite hproc)

lemma fine_nextRead (h : x.Served v) (hx : x.status = .CONN_NREAD) :
    Fine v x.nextReadCalls fun _ => x.nextRead := by
  have hwrite : x.status ≠ .CONN_WRITE := by rw [hx]; decide
  have hread : v.ev_flags = .eventRead := h.read hwrite (by rw [hx]; decide)
  simp only [nextReadCalls, nextRead]
  split_ifs with hzero
  · refine .none fun _ => h.next hread ?_
    simp [status, GentConnect.setStatus]
  · cases hres : x.sock.read x.conn.remainsize with
    | mk res sock =>
        cases res with
        | data bytes => exact .none fun _ => h.next hread hwrite
        | eagain =>
            refine .unchecked (fun state hstate => ?_) fun _ _ => h.polled hread hwrite
            rw [List.mem_singleton.mp hstate, hread]
        | eof =>
            refine .none fun _ => h.next hread ?_
            simp [status, GentConnect.setStatus]
        | error =>
            refine .none fun _ => h.next hread ?_
            simp [status, GentConnect.setStatus]

/-- `OutString` leaves the connection as it is, or waiting for a request. -/
lemma fine_write (h : x.Served v) (hx : x.status = .CONN_WRITE) :
    Fine v x.writeCalls fun _ => x.write := by
  have hflags : v.ev_flags = .eventWrite := (h.flags (by rw [hx]; decide)).trans (awaits_write hx)
  have hcomm := outString_comm x.conn.reset x.sock x.conn.outstr
  simp only [writeCalls, write]
  generalize x.conn.reset.outString x.sock x.conn.outstr = sent at hcomm ⊢
  obtain ⟨res, c, sock⟩ := sent
  have hnext : (⟨c, x.rbytes, sock⟩ : Running).Served v := by
    refine ⟨h.registered, fun hwait => ?_⟩
    rcases hcomm with hcomm | hcomm
    · have hy : (⟨c, x.rbytes, sock⟩ : Running).status = .CONN_WRITE := by
        rw [status, hcomm]
        exact hx
      rw [hflags, awaits_write hy]
    · rw [status, hcomm] at hwait
      exact absurd rfl hwait
  refine .unchecked (fun state hstate => ?_) fun _ => hnext
  split_ifs at hstate
  · rw [List.mem_singleton.mp hstate, hflags]
  · cases hstate

lemma fine_conRead (h : x.Served v) (hx : x.status = .CONN_CONREAD) :
    Fine v x.conReadCalls fun b => x.conRead { env with updateEvent := b } := by
  have hwrite : x.conn.comm.curstatus ≠ .CONN_WRITE := by
    rw [show x.conn.comm.curstatus = _ from hx]
    decide
  have hread : v.ev_flags = .eventRead := h.read hwrite (by rw [hx]; decide)
  simp only [conReadCalls, conRead]
  -- all calls here are for reading, whether the socket was empty or not
  generalize (if (if x.conn.cbuf.isSome then x.conn.csize else readBufferSize)
      ≤ (x.conn.cbuf.getD []).length then _ else _ : Bool) = blocked
  have hcalls : ∀ state ∈ (if blocked = true then [EvKind.eventRead] else []),
      state = v.ev_flags := by
    intro state hstate
    split_ifs at hstate
    · rw [List.mem_singleton.mp hstate, hread]
    · cases hstate
  generalize (if blocked = true then [EvKind.eventRead] else []) = calls at hcalls
  rcases GentConnect.readBuffer x.sock (x.conn.cbuf.getD [])
    (if x.conn.cbuf.isSome then x.conn.csize else readBufferSize) with ⟨readNum, cbytes, csize, sock⟩
  dsimp only
  split_ifs with hneg hzero
  · exact .unchecked hcalls fun _ => keeps_of_neg hneg
  · refine .checked hcalls (h.updated ?_ rfl)
    exact awaits_read hwrite
  · cases hproc : continueProcess x.conn.comm cbytes with
    | error f => exact .unchecked hcalls fun _ => trivial
    | ok res =>
        obtain ⟨ret, r⟩ := res
        have hr : r.curstatus ≠ .CONN_WRITE := noWrite_continueProcess hwrite ret r hproc
        dsimp only
        split_ifs with hret
        · exact .unchecked hcalls fun _ => h.next hread hr
        · refine .unchecked (fun state hstate => ?_) fun _ _ => h.polled hread hr
          rcases List.mem_append.mp hstate with hstate | hstate
          · exact hcalls state hstate
          · rw [List.mem_singleton.mp hstate, hread]

/-- **Every turn.** -/
lemma fine_turn (env : Env) (h : x.Served v)
    (hcomplete : x.status = .CONN_DATA →
      (env.complete x.conn.comm x.conn.content).2.curstatus ≠ .CONN_WRITE) :
    Fine v (x.calls env) fun b => x.turn { env with updateEvent := b } := by
  unfold calls turn
  cases hx : x.status with
  | CONN_READ => exact fine_read h hx
  | CONN_NREAD => exact fine_nextRead h hx
  | CONN_WRITE => exact fine_write h hx
  | CONN_WAIT => exact .last (h.updated rfl rfl)
  | CONN_CLOSE => exact .none fun _ => keeps_of_neg (by decide)
  | CONN_DATA =>
      have hread : v.ev_flags = .eventRead := h.read (by rw [hx]; decide) (by rw [hx]; decide)
      simp only [data]
      split_ifs with hout
      · exact .last (h.updated rfl rfl)
      · exact .none fun _ _ => h.polled hread (hcomplete hx)
  | CONN_CONREAD => exact fine_conRead h hx

/-- What a command does is not needed for the calls that are ignored. -/
lemma harmless_calls (h : x.Served v) (env : Env) : Harmless v (x.calls env) := by
  have hignored : (x.calls env).ignored
      = (x.calls { env with complete := fun r _ => ([], r) }).ignored := by
    unfold calls
    cases x.status <;> rfl
  have hfine := fine_turn { env with complete := fun r _ => ([], r) } h fun hdata => by
    rw [show x.conn.comm.curstatus = _ from hdata]
    decide
  rw [Harmless, hignored]
  exact hfine.harmless

end Running

/-! ## No command asks for a write -/

/-- What a command does leaves the status alone, but for `rep`, which waits for the master thread. -/
lemma Command.complete_status {is_slave : Bool} {w : World} {sv sv' : Server} {r r' : GentRedis}
    {recont out : Str} (c : Command) (h : c.complete is_slave w sv r recont = .ok (out, r', sv')) :
    r'.curstatus = r.curstatus ∨ r'.curstatus = .CONN_WAIT := by
  have hsame : ∀ {out' : Str} {r₁ : GentRedis} {sv₁ : Server},
      (.ok (out', r₁, sv₁) : Completed) = .ok (out, r', sv') → r₁.curstatus = r.curstatus →
      r'.curstatus = r.curstatus ∨ r'.curstatus = .CONN_WAIT := by
    intro out' r₁ sv₁ heq hst
    obtain rfl := (Prod.mk.inj (Prod.mk.inj (Except.ok.inj heq)).2).1
    exact Or.inl hst
  have hvalue : ∀ {expire : ℕ}, valueComplete is_slave w sv expire r recont = .ok (out, r', sv') →
      r'.curstatus = r.curstatus ∨ r'.curstatus = .CONN_WAIT := by
    intro expire h
    simp only [valueComplete] at h
    split_ifs at h
    · exact hsame h rfl
    · exact hsame h rfl
  cases c with
  | get =>
      obtain ⟨found, -, h⟩ := bind_eq_ok.mp h
      cases found with
      | none => exact hsame h rfl
      | some nr => exact hsame h rfl
  | set => exact hvalue h
  | setex => exact hvalue h
  | mset =>
      simp only [complete, GentProcessMset.complete] at h
      split_ifs at h
      · exact hsame h rfl
      · exact hsame h rfl
  | auth => exact hsame h rfl
  | ttl =>
      obtain ⟨found, -, h⟩ := bind_eq_ok.mp h
      exact hsame h rfl
  | mget =>
      obtain ⟨items, -, h⟩ := bind_eq_ok.mp h
      exact hsame h rfl
  | randomkey => exact hsame h rfl
  | del =>
      obtain ⟨found, -, h⟩ := bind_eq_ok.mp h
      cases found with
      | none => exact hsame h rfl
      | some nr =>
          dsimp only at h
          split_ifs at h
          · exact hsame h rfl
          · exact hsame h rfl
          · exact hsame h rfl
          · exact hsame h rfl
  | quit => exact hsame h rfl
  | keys => exact hsame h rfl
  | keyExists =>
      obtain ⟨found, -, h⟩ := bind_eq_ok.mp h
      cases found with
      | none => exact hsame h rfl
      | some nr => exact hsame h rfl
  | ping => exact hsame h rfl
  | info =>
      simp only [complete, GentProcessInfo.complete] at h
      split_ifs at h
      · exact hsame h rfl
      · exact hsame h rfl
  | rep =>
      simp only [complete, GentProcessRep.complete] at h
      split at h
      · split_ifs at h
        · exact hsame h rfl
        · exact hsame h rfl
      · split at h
        · exact hsame h rfl
        · obtain rfl := (Prod.mk.inj (Prod.mk.inj (Except.ok.inj h)).2).1
          exact Or.inr rfl
  | reply => exact hsame h rfl
  | slave => exact hsame h rfl

/-- **What a turn in `CONN_DATA` does to the status.** -/
lemma Session.act_noWrite {x : Session} {is_slave : Bool} {w : World} {out : Str} {r : GentRedis}
    {sv : Server} {attached : List Str} (hx : x.running.status = .CONN_DATA)
    (h : x.act is_slave w = .ok (out, r, sv, attached)) : r.curstatus ≠ .CONN_WRITE := by
  have hdata : x.running.conn.comm.curstatus = .CONN_DATA := hx
  have hstatus : r.curstatus = .CONN_DATA ∨ r.curstatus = .CONN_WAIT := by
    simp only [act, hdata, if_true] at h
    obtain ⟨⟨outstr, r', server⟩, hcomplete, h⟩ := bind_eq_ok.mp h
    obtain rfl : r' = r := (Prod.mk.inj (Prod.mk.inj (Except.ok.inj h)).2).1
    rw [complete] at hcomplete
    split at hcomplete
    · obtain rfl := (Prod.mk.inj (Prod.mk.inj (Except.ok.inj hcomplete)).2).1
      exact Or.inl hdata
    · exact hdata ▸ Command.complete_status _ hcomplete
  rcases hstatus with hst | hst
  · rw [hst]
    decide
  · rw [hst]
    decide

/-! ## Whole runs -/

namespace Polling

/-- What holds of a connection while it is kept. -/
def Inv (p : Polling) : Prop :=
  match p.phase with
  | .polled => p.session.running.Polled p.watch
  | .serving => p.session.running.Served p.watch
  | .closed => True

section Runs

variable {cfg : Config} {is_slave : Bool} {p p' : Polling} {e : Ev}

lemma inv_start (sv : Server) (uninit : Bool) (sock : Socket) (dels adds : ℕ → Bool) :
    (start sv uninit sock dels adds).Inv := by
  cases hadd : adds 0 with
  | false =>
      simp only [start, Watch.eventAdd, hadd]
      trivial
  | true =>
      simp only [start, Watch.eventAdd, hadd]
      exact ⟨rfl, rfl⟩

/-- What `Handle` makes of a turn that ends well. -/
lemma inv_handled {server : Server} {attached : List Str} {watch : Watch}
    {o : Outcome Running Running.Left} (hkeeps : Running.Keeps watch o)
    (h : handled server attached watch o = some p) : p.Inv := by
  cases o with
  | next y =>
      obtain rfl := Option.some.inj h
      exact hkeeps
  | leave left =>
      cases left with
      | error f => cases h
      | ok res =>
          obtain ⟨readNum, y⟩ := res
          simp only [handled] at h
          split_ifs at h with hneg
          · obtain rfl := Option.some.inj h
            trivial
          · obtain rfl := Option.some.inj h
            have hpolled : y.Polled watch := hkeeps (by omega)
            exact ⟨hpolled.registered, hpolled.flags⟩

lemma Inv.step (h : p.Inv) (hstep : p.step cfg is_slave e = some p') : p'.Inv := by
  cases e with
  | ready =>
      simp only [Polling.step, Option.ite_none_right_eq_some] at hstep
      obtain ⟨⟨hphase, -⟩, hp'⟩ := hstep
      obtain rfl := Option.some.inj hp'
      simp only [Inv, hphase] at h
      exact h.served
  | turn w =>
      simp only [Polling.step, Option.ite_none_right_eq_some] at hstep
      obtain ⟨hphase, hstep⟩ := hstep
      simp only [Inv, hphase] at h
      cases hact : p.session.act is_slave w with
      | error f =>
          rw [hact] at hstep
          cases hstep
      | ok res =>
          obtain ⟨outstr, r, server, attached⟩ := res
          rw [hact] at hstep
          have hfine := Running.fine_turn ⟨cfg, w.now, fun _ _ => (outstr, r), true⟩ h
            fun hdata => Session.act_noWrite hdata hact
          exact inv_handled hfine.keeps hstep
  | socket sock =>
      obtain rfl := Option.some.inj hstep
      -- the status is not the socket's
      unfold Inv at h ⊢
      cases hphase : p.phase with
      | polled =>
          simp only [hphase] at h ⊢
          exact ⟨h.registered, h.flags⟩
      | serving =>
          simp only [hphase] at h ⊢
          exact ⟨h.registered, h.flags⟩
      | closed => trivial
  | server sv =>
      obtain rfl := Option.some.inj hstep
      exact h

/-- **A connection that waits is registered for what it waits for**: for writing if it has an answer to
send, and for reading otherwise.  This is so after any calls and changes, and whichever of the calls of
libevent have failed on the way. -/
theorem polled_registered {sv : Server} {uninit : Bool} {sock : Socket} {dels adds : ℕ → Bool}
    {es : List Ev} (hrun : Transition.run (step cfg is_slave) (start sv uninit sock dels adds) es = some p)
    (hpolled : p.phase = .polled) : p.watch.registered = some p.session.running.awaits := by
  have hinv : p.Inv :=
    Transition.inv_run_of_step (fun _ _ _ => Inv.step) (inv_start sv uninit sock dels adds) hrun
  simp only [Inv, hpolled] at hinv
  exact hinv.registered

/-- A connection whose peer has sent a `ping`. -/
def pinged : Polling :=
  start emptyServer false (eagerSocket (lit "*1\r\n$4\r\nping\r\n")) (fun _ => true) fun _ => true

/-- The request is read and carried out. -/
def pingTurns : List Ev := [.ready, .turn quietWorld, .turn quietWorld]

theorem polled_registered_ping :
    ∃ p, Transition.run (step openConfig false) pinged pingTurns = some p ∧ p.phase = .polled ∧
      p.watch.registered = some p.session.running.awaits ∧ p.session.running.awaits = .eventWrite := by
  have hend : (Transition.run (step openConfig false) pinged pingTurns).map
      (fun p => (p.phase, p.session.running.awaits)) = some (.polled, .eventWrite) := by
    decide +kernel
  obtain ⟨p, hrun, hp⟩ := Option.map_eq_some_iff.mp hend
  obtain ⟨hphase, hawaits⟩ := Prod.mk.inj hp
  exact ⟨p, hrun, hphase, polled_registered hrun hphase, hawaits⟩

/-- **The results that `TryRunning` ignores are 0**, and the calls leave everything as it is. -/
theorem ignored_unchanged {sv : Server} {uninit : Bool} {sock : Socket} {dels adds : ℕ → Bool}
    {es : List Ev} (hrun : Transition.run (step cfg is_slave) (start sv uninit sock dels adds) es = some p)
    (hserving : p.phase = .serving) (env : Env) :
    ∀ state ∈ (p.session.running.calls env).ignored, p.watch.updateEvent state = (true, p.watch) := by
  have hinv : p.Inv :=
    Transition.inv_run_of_step (fun _ _ _ => Inv.step) (inv_start sv uninit sock dels adds) hrun
  simp only [Inv, hserving] at hinv
  intro state hstate
  exact Watch.updateEvent_same (Running.harmless_calls hinv env state hstate).symm

/-- The peer does not take the answer. -/
theorem ignored_unchanged_ping :
    ∃ p, Transition.run (step openConfig false) pinged
        (pingTurns ++ [.socket ⟨[], fun _ => .eagain, fun _ => .eagain, []⟩, .ready]) = some p ∧
      p.phase = .serving ∧
      let env : Env := ⟨openConfig, 0, fun r _ => ([], r), true⟩
      (p.session.running.calls env).ignored = [.eventWrite] ∧
      p.watch.updateEvent .eventWrite = (true, p.watch) := by
  have hend : (Transition.run (step openConfig false) pinged
      (pingTurns ++ [.socket ⟨[], fun _ => .eagain, fun _ => .eagain, []⟩, .ready])).map
        (fun p => (p.phase, (p.session.running.calls ⟨openConfig, 0, fun r _ => ([], r), true⟩).ignored))
      = some (.serving, [.eventWrite]) := by
    decide +kernel
  obtain ⟨p, hrun, hp⟩ := Option.map_eq_some_iff.mp hend
  obtain ⟨hphase, hcalls⟩ := Prod.mk.inj hp
  refine ⟨p, hrun, hphase, hcalls, ?_⟩
  exact ignored_unchanged hrun hphase ⟨openConfig, 0, fun r _ => ([], r), true⟩ .eventWrite
    (hcalls ▸ List.mem_singleton_self _)

end Runs

end Polling

end Riser
