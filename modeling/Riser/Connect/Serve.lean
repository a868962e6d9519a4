import Riser.Connect.Session

/-!
# What a read leads to

A connection that waits for a request (`Ready`) is handed some bytes.  The loop of `TryRunning` turns
until it waits again (`Serves`).  If the bytes are not too many for one read, and the peer takes the
answer, what comes of it is a function of the server, of the handler and of the bytes: `answer`.

`serves_of_answer` connects the two.  A request in several reads is then a matter of `answer` alone.
-/

namespace Riser

open Cpp

/-! ## A peer that does not block -/

namespace Socket

/-- A `read` returns all that has arrived, up to `size` bytes, and everything can be sent. -/
structure Eager (size : ℕ) (s : Socket) : Prop where
  recvs : s.recvs = fun _ => .bytes size
  sends : s.sends = fun _ => .count 65535

variable {s : Socket} {size : ℕ}

lemma Eager.shift_recvs (h : s.Eager size) : { s with recvs := fun i => s.recvs (i + 1) } = s := by
  obtain ⟨inbox, recvs, sends, outbox⟩ := s
  obtain rfl := h.recvs
  rfl

lemma Eager.read (h : s.Eager size) (hne : s.inbox ≠ []) (hlen : s.inbox.length ≤ size) {n : ℕ}
    (hn : 0 < n) : s.read n = (.data (s.inbox.take n), { s with inbox := s.inbox.drop n }) := by
  have hmin : s.inbox.take (min (size + 1) n) = s.inbox.take n ∧
      s.inbox.drop (min (size + 1) n) = s.inbox.drop n := by
    rcases le_total n (size + 1) with hle | hle
    · rw [min_eq_right hle]
      exact ⟨rfl, rfl⟩
    · rw [min_eq_left hle, List.take_of_length_le (by omega), List.take_of_length_le (by omega),
        List.drop_of_length_le (by omega), List.drop_of_length_le (by omega)]
      exact ⟨rfl, rfl⟩
  simp only [Socket.read, h.recvs, hne, if_false, show n ≠ 0 by omega, hmin.1, hmin.2]

lemma Eager.read_none (h : s.Eager size) (hnil : s.inbox = []) (n : ℕ) : s.read n = (.eagain, s) := by
  have hshift := h.shift_recvs
  simp only [Socket.read, h.recvs, hnil, if_true] at hshift ⊢
  rw [hshift]

end Socket

namespace GentConnect

variable {s : Socket} {cap : ℕ}

/-- Nothing is there. -/
lemma fill_none (h : s.Eager cap) (hnil : s.inbox = []) (allocs : ℕ) (buf : Str) (size : ℕ) (gotdata : ℤ) :
    fill allocs s buf size gotdata = (gotdata, buf, size, s) := by
  rw [fill, h.read_none hnil]

/-- **Everything is read**, if the buffer can grow to hold it. -/
lemma fill_all : ∀ (allocs : ℕ) (s : Socket) (buf : Str) (size : ℕ) (gotdata : ℤ),
    s.Eager cap → s.inbox ≠ [] → s.inbox.length ≤ cap → buf.length < size →
    buf.length + s.inbox.length ≤ size * 2 ^ allocs →
    ∃ size', size ≤ size' ∧
      fill allocs s buf size gotdata = (1, buf ++ s.inbox, size', { s with inbox := [] })
  | allocs, s, buf, size, gotdata, h, hne, hlen, hroom, hsize => by
      rw [fill, h.read hne hlen (by omega)]
      dsimp only
      by_cases hless : s.inbox.length < size - buf.length
      · -- a short read ends it
        rw [if_neg (by rw [List.length_take]; omega), List.take_of_length_le (by omega),
          List.drop_of_length_le (by omega)]
        exact ⟨size, le_rfl, rfl⟩
      · rw [if_pos (by rw [List.length_take]; omega)]
        have htake : (s.inbox.take (size - buf.length)).length = size - buf.length := by
          rw [List.length_take]
          omega
        cases allocs with
        | zero =>
            have hall : s.inbox.length ≤ size - buf.length := by omega
            rw [List.take_of_length_le hall, List.drop_of_length_le hall]
            exact ⟨size, le_rfl, rfl⟩
        | succ allocs =>
            dsimp only
            have h' : Socket.Eager cap { s with inbox := s.inbox.drop (size - buf.length) } :=
              ⟨h.recvs, h.sends⟩
            have hsplit := List.take_append_drop (size - buf.length) s.inbox
            by_cases hnil : s.inbox.drop (size - buf.length) = []
            · rw [fill_none h' hnil]
              rw [hnil, List.append_nil] at hsplit
              refine ⟨size * 2, by omega, ?_⟩
              rw [hsplit, hnil]
            · obtain ⟨size', hle, hfill⟩ := fill_all allocs _
                (buf ++ s.inbox.take (size - buf.length)) (size * 2) 1 h' hnil
                (by simp only [List.length_drop]; omega) (by rw [List.length_append, htake]; omega)
                (by
                  have hpow : size * 2 * 2 ^ allocs = size * 2 ^ (allocs + 1) := by ring
                  simp only [List.length_append, htake, List.length_drop]
                  omega)
              refine ⟨size', by omega, ?_⟩
              rw [hfill, List.append_assoc, hsplit]

/-- Sending does not stop before the end. -/
lemma sendLoop_eager (str : Str) (fuel : ℕ) (c : GentConnect) (s : Socket) (h : s.Eager cap) :
    (sendLoop str fuel c s).2.1.comm.curstatus = .CONN_WAIT := by
  have hev : s.sends 0 = .count 65535 := by rw [h.sends]
  fun_induction sendLoop str fuel c s with
  | case1 c s => rfl
  | case2 fuel c s hzero => rfl
  | case3 fuel c s hne slen s' hsend ih =>
      obtain ⟨-, -, rfl⟩ := Socket.send_count hsend
      have h' : Socket.Eager cap { s with
          sends := fun i => s.sends (i + 1)
          outbox := s.outbox ++ (List.range slen).map fun i => str[c.cursendsize + i]? } :=
        ⟨h.recvs, by rw [h.sends]⟩
      exact ih h' (by rw [h.sends])
  | case4 fuel c s hne s' hsend => simp [Socket.send, hev] at hsend
  | case5 fuel c s hne s' hsend => simp [Socket.send, hev] at hsend

/-- **Everything is sent.** -/
lemma outString_eager {c : GentConnect} (h : s.Eager cap) (hc : c.sendsize = 0)
    (hst : c.comm.curstatus ≠ .CONN_WAIT) (str : Str) :
    (c.outString s str).2
      = ({ c with sendsize := 0, cursendsize := str.length }.setStatus .CONN_WAIT,
          { s with outbox := s.outbox ++ str.map some }) := by
  have hbegin : c.begin str = { c with sendsize := str.length, cursendsize := 0 } := by
    rw [begin, if_pos hc]
  obtain ⟨j, n, hspec⟩ := c.outString_spec s str
  have hwait : (c.outString s str).2.1.comm.curstatus = .CONN_WAIT :=
    sendLoop_eager str (c.begin str).sendsize (c.begin str) s h
  have hrecvs : (c.outString s str).2.2.recvs = s.recvs :=
    sendLoop_recvs str (c.begin str).sendsize (c.begin str) s
  rw [hbegin] at hspec
  have hall : n = str.length := by
    by_contra hne
    rw [(hspec.part hne).2] at hwait
    exact hst hwait
  subst hall
  have hbytes : (List.range str.length).map (fun i => str[0 + i]?) = str.map some := by
    rw [Stream.map_getElem_eq (by omega), List.drop_zero, List.take_length]
  have hsends : (c.outString s str).2.2.sends = s.sends := by rw [hspec.sends, h.sends]
  have hout : (c.outString s str).2.2.outbox = s.outbox ++ str.map some := hbytes ▸ hspec.outbox
  refine Prod.ext ?_ ?_
  · rw [hspec.all rfl]
    simp only [Nat.zero_add]
  · rw [← hspec.inbox, ← hrecvs, ← hsends, ← hout]

end GentConnect

/-! ## Turning until there is nothing to read -/

namespace Session

/-- Bytes arrive. -/
def arrive (x : Session) (data : Str) : Session :=
  { x with
    running := { x.running with
      sock := { x.running.sock with inbox := x.running.sock.inbox ++ data } } }

/-- `TryRunning` has returned, and there is nothing to read. -/
def Waiting (x : Session) : Prop :=
  x.running.status = .CONN_READ ∧ x.running.rbytes = [] ∧ x.running.sock.inbox = []

/-- The loop turns until the connection waits. -/
inductive Serves (cfg : Config) (is_slave : Bool) (w : World) : Session → Session → Prop where
  | done {x : Session} (h : x.Waiting) : Serves cfg is_slave w x x
  | turn {x y z : Session} (h : ¬ x.Waiting) (hstep : x.step cfg is_slave (.turn w true) = some y)
      (hrest : Serves cfg is_slave w y z) : Serves cfg is_slave w x z

/-- `InitRead`, which doubles its buffer up to four times, takes `size` bytes in one call. -/
def Roomy (size rsize : ℕ) : Prop := readBufferSize ≤ rsize ∧ size ≤ rsize * 16

lemma Roomy.mono {size rsize rsize' : ℕ} (h : Roomy size rsize) (hle : rsize ≤ rsize') :
    Roomy size rsize' := by
  obtain ⟨hmin, hsize⟩ := h
  exact ⟨by omega, by omega⟩

/-- A connection between two requests that takes up to `size` bytes in one read, and whose peer does
not block. -/
structure Ready (size : ℕ) (x : Session) : Prop where
  waiting : x.Waiting
  eager : x.running.sock.Eager size
  sendsize : x.running.conn.sendsize = 0
  rsize : Roomy size x.running.conn.rsize
  content : x.running.conn.content = none

/-- What a read leads to: what is sent, and the handler, the server and the names of the replications
that are attached. -/
structure Reaction where
  out : Str
  comm : GentRedis
  server : Server
  attached : List Str

/-- The connection waits again, and this is what has been done since `x`. -/
structure After (size : ℕ) (x : Session) (a : Reaction) (z : Session) : Prop where
  ready : z.Ready size
  server : z.server = a.server
  outbox : z.running.sock.outbox = x.running.sock.outbox ++ a.out.map some
  comm : z.running.conn.comm = a.comm
  attached : z.attached = a.attached ++ x.attached

variable {cfg : Config} {is_slave : Bool} {w : World} {x y z z' : Session} {size : ℕ}

/-- The loop is deterministic. -/
lemma Serves.unique (h : Serves cfg is_slave w x z) : Serves cfg is_slave w x z' → z = z' := by
  induction h with
  | done hwait =>
      intro h'
      cases h' with
      | done => rfl
      | turn hnot => exact absurd hwait hnot
  | turn hnot hstep _ ih =>
      intro h'
      cases h' with
      | done hwait => exact absurd hwait hnot
      | turn _ hstep' hrest' =>
          obtain rfl := Option.some.inj (hstep.symm.trans hstep')
          exact ih hrest'

lemma not_waiting (h : x.running.status ≠ .CONN_READ) : ¬ x.Waiting := fun hwait => h hwait.1

/-- What comes after one turn. -/
lemma serves_turn {x₀ : Session} {a b : Reaction} (hnot : ¬ x.Waiting)
    (hstep : x.step cfg is_slave (.turn w true) = some y)
    (hrest : ∃ z, Serves cfg is_slave w y z ∧ After size y a z)
    (hafter : ∀ z, After size y a z → After size x₀ b z) :
    ∃ z, Serves cfg is_slave w x z ∧ After size x₀ b z := by
  obtain ⟨z, hz, h⟩ := hrest
  exact ⟨z, .turn hnot hstep hz, hafter z h⟩

/-- One turn with a status in which no command acts. -/
lemma step_of_ne (hne : x.running.status ≠ .CONN_DATA) :
    x.step cfg is_slave (.turn w true)
      = ((StreamEvent.turn ⟨cfg, w.now, fun _ _ => ([], x.running.conn.comm), true⟩).take
          x.running).map (⟨x.server, ·, x.attached⟩) := by
  simp only [step, act_of_ne hne]

lemma step_idle (hidle : x.running.status.Idle) :
    x.step cfg is_slave (.turn w true)
      = ((StreamEvent.turn ⟨cfg, w.now, fun _ _ => ([], x.running.conn.comm), true⟩).take
          x.running).map (⟨x.server, ·, x.attached⟩) :=
  step_of_ne hidle.ne_data

/-- The end of an answer. -/
lemma serves_wait (x : Session) (hst : x.running.status = .CONN_WAIT)
    (heager : x.running.sock.Eager size) (hinbox : x.running.sock.inbox = [])
    (hsend : x.running.conn.sendsize = 0) (hrsize : Roomy size x.running.conn.rsize) :
    ∃ z, Serves cfg is_slave w x z ∧
      After size x ⟨[], { x.running.conn.comm with curstatus := .CONN_READ }, x.server, []⟩ z := by
  have hstep : x.step cfg is_slave (.turn w true) = some ⟨x.server,
      ⟨({ x.running.conn with remainsize := 0 }.reset).setStatus .CONN_READ, [], x.running.sock⟩,
      x.attached⟩ := by
    rw [step_idle (Or.inr (Or.inr hst))]
    simp only [StreamEvent.take, Running.turn, hst, Running.wait, Option.map_some]
  refine ⟨_, .turn (not_waiting (by rw [hst]; rintro ⟨⟩)) hstep (.done ⟨rfl, rfl, hinbox⟩),
    ⟨⟨rfl, rfl, hinbox⟩, heager, hsend, hrsize, rfl⟩, rfl, ?_, rfl, rfl⟩
  rw [List.map_nil, List.append_nil]

/-- **An answer is sent**, and the connection waits again. -/
lemma serves_write (x : Session) (hst : x.running.status = .CONN_WRITE)
    (heager : x.running.sock.Eager size) (hinbox : x.running.sock.inbox = [])
    (hsend : x.running.conn.sendsize = 0) (hrsize : Roomy size x.running.conn.rsize) :
    ∃ z, Serves cfg is_slave w x z ∧ After size x ⟨x.running.conn.outstr,
      { x.running.conn.comm with curstatus := .CONN_READ }, x.server, []⟩ z := by
  have hout := GentConnect.outString_eager (c := x.running.conn.reset) heager hsend
    (by rw [show x.running.conn.reset.comm.curstatus = _ from hst]; rintro ⟨⟩) x.running.conn.outstr
  have hstep : x.step cfg is_slave (.turn w true) = some ⟨x.server,
      ⟨{ x.running.conn.reset with
          sendsize := 0, cursendsize := x.running.conn.outstr.length }.setStatus .CONN_WAIT,
        x.running.rbytes,
        { x.running.sock with
          outbox := x.running.sock.outbox ++ x.running.conn.outstr.map some }⟩, x.attached⟩ := by
    rw [step_idle (Or.inr (Or.inl hst))]
    have hwrite : x.running.write = .next
        ⟨(x.running.conn.reset.outString x.running.sock x.running.conn.outstr).2.1, x.running.rbytes,
          (x.running.conn.reset.outString x.running.sock x.running.conn.outstr).2.2⟩ := rfl
    simp only [StreamEvent.take, Running.turn, hst, hwrite, hout, Option.map_some]
  refine serves_turn (not_waiting (by rw [hst]; rintro ⟨⟩)) hstep
    (serves_wait _ rfl ⟨heager.recvs, heager.sends⟩ hinbox rfl hrsize) fun z h => ?_
  exact ⟨h.ready, h.server, by rw [h.outbox]; simp, h.comm, h.attached⟩

/-! ## Reading -/

/-- The bytes are read at once. -/
lemma readBuffer_arrive (hx : x.Ready size) {data : Str} (hne : data ≠ []) (hlen : data.length ≤ size) :
    ∃ rsize', Roomy size rsize' ∧
      GentConnect.readBuffer (x.arrive data).running.sock (x.arrive data).running.rbytes
          (x.arrive data).running.conn.rsize
        = (1, data, rsize', x.running.sock) := by
  have hinbox : (x.arrive data).running.sock.inbox = data := by
    show x.running.sock.inbox ++ data = data
    rw [hx.waiting.2.2, List.nil_append]
  have hsock : { (x.arrive data).running.sock with inbox := [] } = x.running.sock := by
    rw [← hx.waiting.2.2]
    rfl
  obtain ⟨hpos, hsize⟩ : 4096 ≤ (x.arrive data).running.conn.rsize ∧
      size ≤ (x.arrive data).running.conn.rsize * 16 := hx.rsize
  obtain ⟨rsize', hle, hfill⟩ := GentConnect.fill_all 4 (x.arrive data).running.sock []
    (x.arrive data).running.conn.rsize 0 ⟨hx.eager.recvs, hx.eager.sends⟩ (by rwa [hinbox])
    (by rwa [hinbox]) (by simp only [List.length_nil]; omega)
    (by rw [hinbox]; simp only [List.length_nil]; omega)
  refine ⟨rsize', hx.rsize.mono hle, ?_⟩
  rw [show (x.arrive data).running.rbytes = [] from hx.waiting.2.1, GentConnect.readBuffer,
    if_neg (by simp only [List.length_nil]; omega), hfill, hinbox, hsock]
  rfl

/-- The connection after a read. -/
def afterRead (x : Session) (rsize : ℕ) (status : ℤ) (outstr : Str) (r : GentRedis) : GentConnect :=
  { x.running.conn with
    comm := r
    outstr := outstr
    remainsize := toUInt64 status
    rsize := rsize }

/-- **The first turn** hands the bytes to `Process`. -/
lemma step_arrive (hx : x.Ready size) {data : Str} (hne : data ≠ []) (hlen : data.length ≤ size) :
    ∃ rsize, Roomy size rsize ∧ (x.arrive data).step cfg is_slave (.turn w true)
      = match process cfg w.now x.running.conn.comm data with
        | .error _ => none
        | .ok (status, outstr, r) =>
            if toUInt64 status = 0 ∧ outstr ≠ [] then
              some ⟨x.server, ⟨((afterRead x rsize status outstr r).setStatus .CONN_WRITE).reset, [],
                x.running.sock⟩, x.attached⟩
            else
              some ⟨x.server, ⟨afterRead x rsize status outstr r, data, x.running.sock⟩, x.attached⟩ := by
  obtain ⟨rsize, hle, hbuf⟩ := readBuffer_arrive hx hne hlen
  have hst : (x.arrive data).running.status = .CONN_READ := hx.waiting.1
  refine ⟨rsize, hle, ?_⟩
  rw [step_idle (Or.inl hst)]
  simp only [StreamEvent.take, Running.turn, hst, Running.read, hbuf]
  rw [if_neg (by decide), if_neg (by decide)]
  simp only [show (x.arrive data).running.conn = x.running.conn from rfl]
  cases process cfg w.now x.running.conn.comm data with
  | error f => rfl
  | ok res =>
      obtain ⟨status, outstr, r⟩ := res
      dsimp only
      split_ifs
      · rfl
      · rfl

lemma not_waiting_arrive {data : Str} (hne : data ≠ []) : ¬ (x.arrive data).Waiting :=
  fun hwait => hne (List.append_eq_nil_iff.mp hwait.2.2).2

/-- A fault leaves nothing. -/
lemma not_serves_of_fault (hx : x.Ready size) {data : Str} (hne : data ≠ []) (hlen : data.length ≤ size)
    {f : Fault} (h : process cfg w.now x.running.conn.comm data = .error f) :
    ¬ Serves cfg is_slave w (x.arrive data) z := by
  obtain ⟨rsize, -, hstep⟩ : ∃ rsize, _ ∧ (x.arrive data).step cfg is_slave (.turn w true) = _ :=
    step_arrive hx hne hlen
  rw [h] at hstep
  rintro (hwait | ⟨-, hstep', -⟩)
  · exact not_waiting_arrive hne hwait
  · rw [hstep] at hstep'
    cases hstep'

/-- What has been read is dropped if it is no request. -/
lemma serves_drop (x : Session) (hst : x.running.status = .CONN_READ)
    (heager : x.running.sock.Eager size) (hinbox : x.running.sock.inbox = [])
    (hsend : x.running.conn.sendsize = 0) (hrsize : Roomy size x.running.conn.rsize)
    (hbytes : x.running.rbytes ≠ []) :
    ∃ z, Serves cfg is_slave w x z ∧
      After size x ⟨[], { x.running.conn.comm with curstatus := .CONN_READ }, x.server, []⟩ z := by
  obtain ⟨rsize, hle, hbuf⟩ : ∃ rsize, Roomy size rsize ∧
      GentConnect.readBuffer x.running.sock x.running.rbytes x.running.conn.rsize
        = (0, x.running.rbytes, rsize, x.running.sock) := by
    unfold GentConnect.readBuffer
    split_ifs
    · exact ⟨_, hrsize.mono (by omega), GentConnect.fill_none heager hinbox _ _ _ _⟩
    · exact ⟨_, hrsize, GentConnect.fill_none heager hinbox _ _ _ _⟩
  have hstep : x.step cfg is_slave (.turn w true) = some ⟨x.server,
      ⟨{ x.running.conn with outstr := [], rsize := rsize }.setStatus .CONN_WAIT, x.running.rbytes,
        x.running.sock⟩, x.attached⟩ := by
    rw [step_idle (Or.inl hst)]
    simp only [StreamEvent.take, Running.turn, hst, Running.read, hbuf]
    rfl
  exact serves_turn (fun hwait => hbytes hwait.2.1) hstep
    (serves_wait _ rfl heager hinbox hsend hle)
    fun z h => ⟨h.ready, h.server, h.outbox, h.comm, h.attached⟩

/-- What a command does is what `act` does. -/
lemma act_of_complete {out : Str} {r : GentRedis} {sv : Server} (hst : x.running.status = .CONN_DATA)
    (hcomplete : complete is_slave w x.server x.running.conn.comm (x.running.conn.content.getD [])
      = .ok (out, r, sv)) :
    x.act is_slave w = .ok (out, r, sv,
      (GentProcessRep.attaches w x.server x.running.conn.comm).toList ++ x.attached) := by
  simp only [act, show x.running.conn.comm.curstatus = .CONN_DATA from hst, if_true, hcomplete]
  rfl

/-- **A command acts**, and has an answer. -/
lemma step_data {out : Str} {r : GentRedis} {sv : Server} (hst : x.running.status = .CONN_DATA)
    (hcomplete : complete is_slave w x.server x.running.conn.comm (x.running.conn.content.getD [])
      = .ok (out, r, sv)) (hout : out ≠ []) :
    x.step cfg is_slave (.turn w true) = some ⟨sv,
      ⟨{ x.running.conn with comm := r, outstr := out }.setStatus .CONN_WRITE, [], x.running.sock⟩,
      (GentProcessRep.attaches w x.server x.running.conn.comm).toList ++ x.attached⟩ := by
  simp only [step, act_of_complete hst hcomplete, StreamEvent.take, Running.turn, hst, Running.data, ne_eq,
    hout, not_false_eq_true, if_true, Option.map_some]

/-- A command acts, and its answer is sent if it has one. -/
lemma serves_data (x : Session) {out : Str} {r : GentRedis} {sv : Server}
    (hst : x.running.status = .CONN_DATA) (heager : x.running.sock.Eager size)
    (hinbox : x.running.sock.inbox = []) (hsend : x.running.conn.sendsize = 0)
    (hrsize : Roomy size x.running.conn.rsize)
    (hcomplete : complete is_slave w x.server x.running.conn.comm (x.running.conn.content.getD [])
      = .ok (out, r, sv)) (hout : out ≠ [] ∨ r.curstatus = .CONN_WAIT) :
    ∃ z, Serves cfg is_slave w x z ∧ After size x ⟨out, { r with curstatus := .CONN_READ }, sv,
      (GentProcessRep.attaches w x.server x.running.conn.comm).toList⟩ z := by
  have hnot : ¬ x.Waiting := not_waiting (by rw [hst]; exact nofun)
  by_cases hnil : out = []
  · subst hnil
    have hstep : x.step cfg is_slave (.turn w true) = some ⟨sv,
        ⟨{ x.running.conn with comm := r, outstr := [] }, [], x.running.sock⟩,
        (GentProcessRep.attaches w x.server x.running.conn.comm).toList ++ x.attached⟩ := by
      simp only [step, act_of_complete hst hcomplete, StreamEvent.take, Running.turn, hst, Running.data,
        ne_eq, not_true, if_false, Option.map_some]
    exact serves_turn hnot hstep
      (serves_wait _ (hout.resolve_left (not_not.mpr rfl)) heager hinbox hsend hrsize)
      fun z h => ⟨h.ready, h.server, h.outbox, h.comm, h.attached⟩
  · exact serves_turn hnot (step_data hst hcomplete hnil) (serves_write _ rfl heager hinbox hsend hrsize)
      fun z h => ⟨h.ready, h.server, h.outbox, h.comm, h.attached⟩

/-- A value of which nothing is missing: the command is next. -/
lemma step_nextRead (hst : x.running.status = .CONN_NREAD) (hremain : x.running.conn.remainsize = 0)
    (hcontent : x.running.conn.content = none) :
    x.step cfg is_slave (.turn w true) = some ⟨x.server,
      ⟨{ x.running.conn with content := some [] }.setStatus .CONN_DATA, x.running.rbytes,
        x.running.sock⟩, x.attached⟩ := by
  rw [step_of_ne (by rw [hst]; exact nofun)]
  simp only [StreamEvent.take, Running.turn, hst, Running.nextRead, hremain, hcontent, if_true,
    Option.map_some]
  rfl

lemma serves_nextRead (x : Session) {out : Str} {r : GentRedis} {sv : Server}
    (hst : x.running.status = .CONN_NREAD) (heager : x.running.sock.Eager size)
    (hinbox : x.running.sock.inbox = []) (hsend : x.running.conn.sendsize = 0)
    (hrsize : Roomy size x.running.conn.rsize) (hremain : x.running.conn.remainsize = 0)
    (hcontent : x.running.conn.content = none)
    (hcomplete : complete is_slave w x.server { x.running.conn.comm with curstatus := .CONN_DATA } []
      = .ok (out, r, sv)) (hout : out ≠ [] ∨ r.curstatus = .CONN_WAIT) :
    ∃ z, Serves cfg is_slave w x z ∧ After size x ⟨out, { r with curstatus := .CONN_READ }, sv,
      (GentProcessRep.attaches w x.server
        { x.running.conn.comm with curstatus := .CONN_DATA }).toList⟩ z :=
  serves_turn (not_waiting (by rw [hst]; exact nofun)) (step_nextRead hst hremain hcontent)
    (serves_data _ rfl heager hinbox hsend hrsize hcomplete hout)
    fun z h => ⟨h.ready, h.server, h.outbox, h.comm, h.attached⟩

/-! ## The answer -/

/-- **What a read leads to**: an error is answered; what is no request is dropped; a message of the
master is taken note of; a command that needs no more bytes acts.  `none` if there is a fault, if bytes
are missing, or if the connection does not wait for the next request. -/
def react (cfg : Config) (is_slave : Bool) (w : World) (sv : Server) (r : GentRedis) (data : Str) :
    Option Reaction :=
  match process cfg w.now r data with
  | .error _ => none
  | .ok (status, outstr, r) =>
      if outstr ≠ [] then some ⟨outstr, { r with curstatus := .CONN_READ }, sv, []⟩
      else if r.curstatus = .CONN_READ ∨ r.curstatus = .CONN_WAIT then
        some ⟨[], { r with curstatus := .CONN_READ }, sv, []⟩
      else if r.curstatus = .CONN_DATA ∨ r.curstatus = .CONN_NREAD ∧ status = 0 then
        match complete is_slave w sv { r with curstatus := .CONN_DATA } [] with
        | .error _ => none
        | .ok (out, r', sv') =>
            if out ≠ [] ∨ r'.curstatus = .CONN_WAIT then
              some ⟨out, { r' with curstatus := .CONN_READ }, sv',
                (GentProcessRep.attaches w sv { r with curstatus := .CONN_DATA }).toList⟩
            else none
      else none

/-- What a client is told, and the server behind it. -/
def answer (cfg : Config) (w : World) (sv : Server) (r : GentRedis) (data : Str) :
    Option (Str × Server) :=
  (react cfg false w sv r data).map fun a => (a.out, a.server)

/-- **The loop does that.** -/
theorem serves_of_react (hx : x.Ready size) {data : Str} (hne : data ≠ []) (hlen : data.length ≤ size)
    {a : Reaction} (h : react cfg is_slave w x.server x.running.conn.comm data = some a) :
    ∃ z, Serves cfg is_slave w (x.arrive data) z ∧ After size x a z := by
  obtain ⟨rsize, hle, hstep⟩ : ∃ rsize, _ ∧ (x.arrive data).step cfg is_slave (.turn w true) = _ :=
    step_arrive hx hne hlen
  have hnot : ¬ (x.arrive data).Waiting := not_waiting_arrive hne
  unfold react at h
  cases hproc : process cfg w.now x.running.conn.comm data with
  | error f => simp only [hproc] at h; cases h
  | ok res =>
      obtain ⟨status, outstr, r⟩ := res
      simp only [hproc] at h hstep
      by_cases hstr : outstr = []
      · subst hstr
        rw [if_neg (not_not.mpr rfl)] at h
        rw [if_neg (fun hc => hc.2 rfl)] at hstep
        split_ifs at h with hidle hdata
        · obtain rfl := Option.some.inj h
          refine serves_turn hnot hstep ?_ fun z h =>
            ⟨h.ready, h.server, h.outbox, h.comm, h.attached⟩
          rcases hidle with hst | hst
          · exact serves_drop _ hst hx.eager hx.waiting.2.2 hx.sendsize hle hne
          · exact serves_wait _ hst hx.eager hx.waiting.2.2 hx.sendsize hle
        · cases hcomplete : complete is_slave w x.server { r with curstatus := .CONN_DATA } [] with
          | error f => simp only [hcomplete] at h; cases h
          | ok res =>
              obtain ⟨out, r', sv'⟩ := res
              simp only [hcomplete] at h
              rw [Option.ite_none_right_eq_some] at h
              obtain ⟨hout, h⟩ := h
              obtain rfl := Option.some.inj h
              refine serves_turn hnot hstep ?_ fun z h =>
                ⟨h.ready, h.server, h.outbox, h.comm, h.attached⟩
              rcases hdata with hst | ⟨hst, rfl⟩
              · rw [← hst] at hcomplete ⊢
                refine serves_data _ hst hx.eager hx.waiting.2.2 hx.sendsize hle ?_ hout
                simp only [afterRead, hx.content]
                exact hcomplete
              · exact serves_nextRead _ hst hx.eager hx.waiting.2.2 hx.sendsize hle rfl hx.content
                  hcomplete hout
      · have hzero : toUInt64 status = 0 := by
          by_contra hz
          exact hstr (outstr_eq_nil hproc fun hc => hz hc.1)
        rw [if_pos hstr] at h
        rw [if_pos ⟨hzero, hstr⟩] at hstep
        obtain rfl := Option.some.inj h
        exact serves_turn hnot hstep (serves_write _ rfl hx.eager hx.waiting.2.2 hx.sendsize hle)
          fun z h => ⟨h.ready, h.server, h.outbox, h.comm, h.attached⟩

/-- For a client. -/
lemma serves_of_answer (hx : x.Ready size) {data : Str} (hne : data ≠ []) (hlen : data.length ≤ size)
    {out : Str} {sv : Server} (h : answer cfg w x.server x.running.conn.comm data = some (out, sv)) :
    ∃ z, Serves cfg false w (x.arrive data) z ∧ z.Ready size ∧ z.server = sv ∧
      z.running.sock.outbox = x.running.sock.outbox ++ out.map some := by
  obtain ⟨a, ha, heq⟩ := Option.map_eq_some_iff.mp h
  obtain ⟨rfl, rfl⟩ := Prod.mk.inj heq
  obtain ⟨z, hz, hafter⟩ := serves_of_react hx hne hlen ha
  exact ⟨z, hz, hafter.ready, hafter.server, hafter.outbox⟩

/-- A command that faults leaves nothing. -/
lemma not_serves_of_complete (hst : x.running.status = .CONN_DATA) {f : Fault}
    (h : complete is_slave w x.server x.running.conn.comm (x.running.conn.content.getD []) = .error f) :
    ¬ Serves cfg is_slave w x z := by
  have hstep : x.step cfg is_slave (.turn w true) = none := by
    simp only [step, act, show x.running.conn.comm.curstatus = .CONN_DATA from hst, if_true, h]
    rfl
  rintro (hwait | ⟨-, hstep', -⟩)
  · exact not_waiting (by rw [hst]; rintro ⟨⟩) hwait
  · rw [hstep] at hstep'
    cases hstep'

/-- What `Process` makes of the bytes can be told from `answer`: an error, nothing, or a command that
needs no more bytes and has an answer. -/
def Told (cfg : Config) (w : World) (sv : Server) (r : GentRedis) (data : Str) : Prop :=
  ∀ {status : ℤ} {outstr : Str} {r' : GentRedis}, process cfg w.now r data = .ok (status, outstr, r') →
    outstr ≠ [] ∨ r'.curstatus = .CONN_READ ∨
      (r'.curstatus = .CONN_DATA ∨ r'.curstatus = .CONN_NREAD ∧ status = 0) ∧
        ∀ {out : Str} {r'' : GentRedis} {sv' : Server},
          complete false w sv { r' with curstatus := .CONN_DATA } [] = .ok (out, r'', sv') → out ≠ []

/-- **The loop does nothing else.** -/
theorem answer_of_serves (hx : x.Ready size) {data : Str} (hne : data ≠ []) (hlen : data.length ≤ size)
    (htold : Told cfg w x.server x.running.conn.comm data)
    (h : Serves cfg false w (x.arrive data) z) :
    ∃ out sv, answer cfg w x.server x.running.conn.comm data = some (out, sv) := by
  suffices hreact : ∃ a, react cfg false w x.server x.running.conn.comm data = some a by
    obtain ⟨a, ha⟩ := hreact
    exact ⟨a.out, a.server, by rw [answer, ha, Option.map_some]⟩
  obtain ⟨rsize, -, hstep⟩ : ∃ rsize, _ ∧ (x.arrive data).step cfg false (.turn w true) = _ :=
    step_arrive hx hne hlen
  unfold react
  cases hproc : process cfg w.now x.running.conn.comm data with
  | error f => exact absurd h (not_serves_of_fault hx hne hlen hproc)
  | ok res =>
      obtain ⟨status, outstr, r⟩ := res
      simp only [hproc] at hstep ⊢
      by_cases hstr : outstr = []
      · subst hstr
        rw [if_neg (not_not.mpr rfl)]
        by_cases hread : r.curstatus = .CONN_READ ∨ r.curstatus = .CONN_WAIT
        · exact ⟨_, if_pos hread⟩
        obtain ⟨hdata, hanswer⟩ := ((htold hproc).resolve_left (not_not.mpr rfl)).resolve_left
          fun hst => hread (Or.inl hst)
        rw [if_neg hread, if_pos hdata]
        cases hcomplete : complete false w x.server { r with curstatus := .CONN_DATA } [] with
        | ok res => exact ⟨_, if_pos (Or.inl (hanswer hcomplete))⟩
        | error f =>
            -- the command is reached, and the turn it would act in does not come about
            exfalso
            rw [if_neg (fun hc => hc.2 rfl)] at hstep
            cases h with
            | done hwait => exact not_waiting_arrive hne hwait
            | turn _ hstep' hrest =>
                obtain rfl := Option.some.inj (hstep.symm.trans hstep')
                rcases hdata with hst | ⟨hst, rfl⟩
                · refine not_serves_of_complete (x := ⟨x.server,
                    ⟨afterRead x rsize status [] r, data, x.running.sock⟩, x.attached⟩) (f := f) hst ?_
                    hrest
                  simp only [afterRead, hx.content]
                  rw [← hst] at hcomplete
                  exact hcomplete
                · cases hrest with
                  | done hwait => exact hread (Or.inl hwait.1)
                  | turn _ hnext hrest =>
                      rw [step_nextRead (x := ⟨x.server,
                        ⟨afterRead x rsize 0 [] r, data, x.running.sock⟩, x.attached⟩) hst rfl
                        hx.content] at hnext
                      obtain rfl := Option.some.inj hnext
                      exact not_serves_of_complete rfl hcomplete hrest
      · exact ⟨_, if_pos hstr⟩

/-- **Bytes without a token are dropped**, and the handler is as it was. -/
lemma serves_silent (hx : x.Ready size) {data : Str} (hne : data ≠ []) (hlen : data.length ≤ size)
    (hnil : tokens data = []) :
    ∃ z, Serves cfg is_slave w (x.arrive data) z ∧ z.Ready size ∧ z.server = x.server ∧
      z.running.sock.outbox = x.running.sock.outbox ∧ z.running.conn.comm = x.running.conn.comm := by
  have hread : x.running.conn.comm.curstatus = .CONN_READ := hx.waiting.1
  have hreact : react cfg is_slave w x.server x.running.conn.comm data
      = some ⟨[], x.running.conn.comm, x.server, []⟩ := by
    simp only [react, process_none (by rw [hnil]; rfl), if_pos hnil, ne_eq, not_true, if_false]
    rw [if_pos (Or.inl hread), ← hread]
  obtain ⟨z, hz, hafter⟩ := serves_of_react hx hne hlen hreact
  exact ⟨z, hz, hafter.ready, hafter.server, by rw [hafter.outbox]; simp, hafter.comm⟩

/-- What has been sent stays sent. -/
lemma step_outbox {updateEvent : Bool} (h : x.step cfg is_slave (.turn w updateEvent) = some y) :
    x.running.sock.outbox <+: y.running.sock.outbox := by
  have htake : ∀ {env : Env} {c : Running}, (StreamEvent.turn env).take x.running = some c →
      x.running.sock.outbox <+: c.sock.outbox := by
    intro env c hc
    by_cases hwrite : x.running.status = .CONN_WRITE
    · simp only [StreamEvent.take, Running.turn, hwrite, Running.write] at hc
      obtain rfl := Option.some.inj hc
      obtain ⟨j, n, hspec⟩ :=
        x.running.conn.reset.outString_spec x.running.sock x.running.conn.outstr
      rw [show Socket.outbox _ = _ from hspec.outbox]
      exact List.prefix_append _ _
    · rw [(Stream.sameOut_of_turn (x := ⟨x.running, []⟩) hwrite hc).outbox]
  unfold step at h
  cases hact : x.act is_slave w with
  | error f => simp [hact] at h
  | ok res =>
      obtain ⟨outstr, r, server, attached⟩ := res
      simp only [hact] at h
      obtain ⟨c, hc, rfl⟩ := Option.map_eq_some_iff.mp h
      exact htake hc

lemma Serves.outbox (h : Serves cfg is_slave w x z) : x.running.sock.outbox <+: z.running.sock.outbox := by
  induction h with
  | done => exact List.prefix_rfl
  | turn _ hstep _ ih => exact (step_outbox hstep).trans ih

/-! ## Several reads -/

/-- The bytes arrive in pieces, and each is served before the next one comes. -/
def Delivers (cfg : Config) (w : World) : List Str → Session → Session → Prop
  | [], x, z => z = x
  | data :: pieces, x, z => ∃ y, Serves cfg false w (x.arrive data) y ∧ Delivers cfg w pieces y z

lemma Delivers.outbox : ∀ {pieces : List Str} {x : Session}, Delivers cfg w pieces x z →
    x.running.sock.outbox <+: z.running.sock.outbox
  | [], _, h => by
      rw [show z = _ from h]
  | data :: pieces, x, ⟨y, hy, hrest⟩ => (hy.outbox).trans (Delivers.outbox hrest)

end Session

end Riser
