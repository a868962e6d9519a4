import Riser.Connect.Serve
import Riser.Redis.Expiry

/-!
# A value that arrives in pieces

The value of a `SET` or a `SETEX` may be much larger than what one read brings.  What follows the header
in the first read is kept by the handler (`content`); the rest is read into a buffer of the connection
by `NextRead`, as it comes, over as many events as it takes; and `Complete` puts the two together.  The
CRLF behind the value is not counted.  It may come with the value or later, when the connection waits
for the next request already.

A connection that works on such a request gathers the value (`Gathers`), answers (`Answers`), and rests
(`Rests`), where all that may still come is the end of the CRLF.  Each turn of the loop of `TryRunning`
leads from one such state to the next, **whatever the reads and sends bring**; and if they bring
something again and again, it makes progress (`Stage.step`).

`storesOnce_iff` puts this together.  The value is always stored as it was sent, and once.  The expiry
of a `SETEX` is right exactly when its seconds are an `int`.
-/

namespace Riser

open Cpp

/-! ## The requests -/

/-- A `SET`, or a `SETEX` with its seconds. -/
inductive ValueRequest where
  | set (key value : Str)
  | setex (key : Str) (ttl : ℕ) (value : Str)

namespace ValueRequest

def command : ValueRequest → Command
  | set _ _ => .set
  | setex _ _ _ => .setex

def key : ValueRequest → Str
  | set key _ => key
  | setex key _ _ => key

def value : ValueRequest → Str
  | set _ value => value
  | setex _ _ value => value

/-- The name of the command, and the arguments in front of the value. -/
def lead (name : Str) : ValueRequest → List Str
  | set key _ => [name, key]
  | setex key ttl _ => [name, key, decimal ttl]

/-- The bytes of the request. -/
def bytes (name : Str) (q : ValueRequest) : Str := encode (q.lead name ++ [q.value])

/-- The header, with the line in front of the value. -/
def header (name : Str) (q : ValueRequest) : Str :=
  (headLines (q.lead name) q.value).flatMap (· ++ crlf)

lemma bytes_eq (name : Str) (q : ValueRequest) :
    q.bytes name = q.header name ++ (q.value ++ crlf) := encode_headLines _ _

/-- The expiry that is meant. -/
def due (now : ℕ) : ValueRequest → ℕ
  | set _ _ => 0
  | setex _ ttl _ => ttl + now

/-- The expiry that the parser computes. -/
def expire (now : ℕ) : ValueRequest → ℕ
  | set _ _ => 0
  | setex _ ttl _ => setexExpire (atoi (decimal ttl)) now

/-- What may be sent: a key that is a token and not too long, and a value whose length is an `int`. -/
structure Admissible (q : ValueRequest) : Prop where
  key : Clean q.key
  short : q.key.length < 250
  value : q.value.length < 2 ^ 31

/-- The seconds are an `int`. -/
def Fits : ValueRequest → Prop
  | set _ _ => True
  | setex _ ttl _ => ttl < 2 ^ 31

/-- The handler after a first read with `s` behind the header. -/
def parsed (q : ValueRequest) (now : ℕ) (r : GentRedis) (s : Str) : GentRedis :=
  { r with
    subc := some q.command
    auth := true
    curstatus := .CONN_NREAD
    keystr := q.key
    content := s.take q.value.length
    rlbytes := q.value.length
    expire := match q with
      | set _ _ => r.expire
      | setex _ _ _ => q.expire now }

section First

variable {cfg : Config} {now : ℕ} {r : GentRedis} {name : Str} {q : ValueRequest}

/-- The lines of the header. -/
lemma clean_headLines (hname : commands name = some q.command) (hq : q.Admissible) :
    ∀ l ∈ headLines (q.lead name) q.value, Clean l := by
  have hargs : ∀ a ∈ q.lead name, Clean a := by
    cases q with
    | set key value => simpa [lead] using ⟨clean_of_commands hname, hq.key⟩
    | setex key ttl value =>
        simpa [lead] using ⟨clean_of_commands hname, hq.key, decimal_ne_nil ttl, noDelim_decimal ttl⟩
  intro l hl
  simp only [headLines, List.cons_append, List.mem_cons, List.mem_append, List.mem_flatMap,
    List.not_mem_nil, or_false] at hl
  rcases hl with rfl | ⟨a, ha, rfl | rfl⟩ | rfl
  · exact clean_countLine _
  · exact clean_lengthLine _
  · exact hargs _ ha
  · exact clean_lengthLine _

/-- The tokens of a first read. -/
lemma tokens_header (hname : commands name = some q.command) (hq : q.Admissible) (s : Str) :
    tokens (q.header name ++ s) = headLines (q.lead name) q.value ++ fields s := by
  have hfields : fields (q.header name ++ s) = headLines (q.lead name) q.value ++ fields s :=
    fields_lines s (clean_headLines hname hq)
  have hmset : q.command ≠ .mset := by cases q <;> exact nofun
  have hthird : (headLines (q.lead name) q.value ++ fields s)[2]? = some name := by cases q <;> rfl
  rw [tokens_eq_fields, hfields]
  rw [hfields]
  exact not_msetStop_of_third hthird (name_ne_mset hname hmset)

/-- Where the header ends. -/
lemma headerEnd_header (hname : commands name = some q.command) (hq : q.Admissible) (s : Str)
    {marks : Str} (hmarks : 42 ∈ marks) :
    ∃ pos, headerEnd (q.header name ++ s) marks (headLines (q.lead name) q.value).length = some pos ∧
      pos ≤ (q.header name ++ s).length ∧ (q.header name ++ s).drop pos = s :=
  headerEnd_of_lines _ s rfl (fun l hl => (clean_headLines hname hq l hl).2) ⟨42, _, rfl, hmarks⟩

/-- The key of a first read. -/
lemma argOf_header (hname : commands name = some q.command) (hq : q.Admissible) (s : Str) :
    argOf (tokens (q.header name ++ s)) 3 = q.key := by
  have hlen : q.key.length < 2 ^ 31 := hq.short.trans (by decide)
  rw [tokens_header hname hq]
  cases q <;> exact argOf_eq hlen rfl (.inr rfl)

/-- The bytes that are missing after a first read with `s` behind the header. -/
lemma takeContent_header {v : List Str} {i pos : ℕ} {data s : Str} {r : GentRedis} (hq : q.Admissible)
    (hline : v[i]? = some (lengthLine q.value)) (hpos : pos ≤ data.length) (hdata : data.drop pos = s) :
    takeContent v i data pos r
      = .ok (((q.value.length - s.length : ℕ) : ℤ),
          { r with content := s.take q.value.length, rlbytes := q.value.length }) := by
  have hmissing : toInt32 ((q.value.length - s.length : ℕ) : ℤ)
      = ((q.value.length - s.length : ℕ) : ℤ) := by
    have := hq.value
    exact toInt32_of_bounds (by omega) (by omega)
  rw [takeContent_take hline (clean_lengthLine _).1 hpos hdata, lengthOf_lengthLine hq.value, hmissing]

/-- **What the parser makes of a first read** that has the header: the bytes that are missing, and the
ones that it keeps. -/
lemma parser_first (hauth : Authed cfg r) (hname : commands name = some q.command) (hq : q.Admissible)
    (s : Str) :
    q.command.parser cfg now (tokens (q.header name ++ s)) (q.header name ++ s)
        { r with subc := some q.command }
      = .ok (((q.value.length - s.length : ℕ) : ℤ), q.parsed now r s) := by
  have hauth' : Authed cfg { r with subc := some q.command } := hauth
  have htok := tokens_header hname hq s
  have hkey := argOf_header hname hq s
  have hshort : (argOf (tokens (q.header name ++ s)) 3).length < 250 := by
    rw [hkey]
    exact hq.short
  have hv : ∀ t ∈ tokens (q.header name ++ s), Clean t := fun t ht => clean_of_mem_tokens ht
  cases q with
  | set key value =>
      have hmarks : 42 ∈ lit "*3" := by decide
      obtain ⟨pos, hend, hpos, hdrop⟩ := headerEnd_header hname hq s hmarks
      replace hend : headerEnd _ (lit "*3") 6 = some pos := hend
      have hnum : 5 ≤ (tokens ((set key value).header name ++ s)).length := by
        simp [htok, headLines, lead]
      show GentProcessSet.parser cfg _ _ _ = _
      rw [GentProcessSet.parser, valueParser_eq _ hauth' hv le_rfl hnum hshort hend, hkey,
        takeContent_header hq (by rw [htok]; rfl) hpos hdrop]
      rfl
  | setex key ttl value =>
      have hmarks : 42 ∈ lit "*4" := by decide
      obtain ⟨pos, hend, hpos, hdrop⟩ := headerEnd_header hname hq s hmarks
      replace hend : headerEnd _ (lit "*4") 8 = some pos := hend
      have hnum : 7 ≤ (tokens ((setex key ttl value).header name ++ s)).length := by
        simp [htok, headLines, lead]
      have hseconds : (tokens ((setex key ttl value).header name ++ s))[6]? = some (decimal ttl) := by
        rw [htok]
        rfl
      show GentProcessSetex.parser cfg now _ _ _ = _
      rw [GentProcessSetex.parser, valueParser_eq _ hauth' hv (by omega) hnum hshort hend, hkey,
        takeExpire, elemAt_of_eq_some hseconds, ok_bind, takeContent_header hq (by rw [htok]; rfl) hpos hdrop]
      rfl

/-- The same of the whole handler. -/
lemma process_first (hauth : Authed cfg r) (hname : commands name = some q.command) (hq : q.Admissible)
    (s : Str) :
    process cfg now r (q.header name ++ s)
      = .ok (((q.value.length - s.length : ℕ) : ℤ), [], q.parsed now r s) := by
  have hthird : (tokens (q.header name ++ s))[2]? = some name := by
    rw [tokens_header hname hq]
    cases q <;> rfl
  rw [process_eq hthird hname, parser_first hauth hname hq, ok_bind, errorText_natCast]
  rfl

end First

end ValueRequest

/-! ## A peer that is slow, but goes on -/

namespace Socket

/-- The connection is not lost, and again and again there is something to read and room to send. -/
structure Lively (s : Socket) : Prop where
  calm : ∀ i, (∃ k, s.recvs i = .bytes k) ∨ s.recvs i = .eagain
  recvs : ∀ i, ∃ d k, s.recvs (i + d) = .bytes k
  sends : ∀ i, ∃ d, 0 < (s.sends (i + d)).room

variable {s s' s'' : Socket} {n : ℕ}

lemma Lively.shift (h : s.Lively) {a b : ℕ} (hrecvs : s'.recvs = fun i => s.recvs (a + i))
    (hsends : s'.sends = fun i => s.sends (b + i)) : s'.Lively where
  calm i := by
    rw [hrecvs]
    exact h.calm (a + i)
  recvs i := by
    obtain ⟨d, k, hd⟩ := h.recvs (a + i)
    refine ⟨d, k, ?_⟩
    rw [hrecvs, ← hd, Nat.add_assoc]
  sends i := by
    obtain ⟨d, hd⟩ := h.sends (b + i)
    refine ⟨d, ?_⟩
    rw [hsends]
    rwa [Nat.add_assoc] at hd

/-- The socket after a read that leaves `inbox`. -/
def tail (s : Socket) (inbox : Str) : Socket :=
  { s with inbox := inbox, recvs := fun i => s.recvs (i + 1) }

lemma Lively.tail (h : s.Lively) (inbox : Str) : (s.tail inbox).Lively := by
  have hrecvs : (s.tail inbox).recvs = fun i => s.recvs (1 + i) := by
    funext i
    rw [Nat.add_comm]
    rfl
  have hsends : (s.tail inbox).sends = fun i => s.sends (0 + i) := by simp only [Nat.zero_add]; rfl
  exact h.shift hrecvs hsends

/-- Between the two there have only been reads, of these bytes. -/
structure Takes (s : Socket) (bytes : Str) (s' : Socket) : Prop where
  inbox : s.inbox = bytes ++ s'.inbox
  outbox : s'.outbox = s.outbox
  lively : s'.Lively

lemma Takes.trans {a b : Str} (h : s.Takes a s') (h' : s'.Takes b s'') : s.Takes (a ++ b) s'' where
  inbox := by rw [h.inbox, h'.inbox, List.append_assoc]
  outbox := h'.outbox.trans h.outbox
  lively := h'.lively

/-- **A `read` of at least one byte.** -/
lemma Lively.read_cases (h : s.Lively) (hn : 0 < n) :
    (∃ k bytes s', s.recvs 0 = .bytes k ∧ s.read n = (.data bytes, s') ∧ bytes ≠ [] ∧
      bytes.length ≤ n ∧ s.Takes bytes s') ∨
    s.read n = (.eagain, s.tail s.inbox) ∧ s.Takes [] (s.tail s.inbox) ∧
      (s.inbox = [] ∨ s.recvs 0 = .eagain) := by
  rcases h.calm 0 with ⟨k, hk⟩ | hk
  · by_cases hnil : s.inbox = []
    · right
      refine ⟨?_, ⟨rfl, rfl, h.tail s.inbox⟩, Or.inl hnil⟩
      simp only [Socket.read, hk, hnil, if_true, Socket.tail]
    · left
      obtain ⟨b, t, hbt⟩ := List.exists_cons_of_ne_nil hnil
      obtain ⟨len, hlen⟩ : ∃ len, min (k + 1) n = len + 1 := ⟨min (k + 1) n - 1, by omega⟩
      refine ⟨k, s.inbox.take (min (k + 1) n), s.tail (s.inbox.drop (min (k + 1) n)), hk, ?_, ?_, ?_,
        ⟨(List.take_append_drop (min (k + 1) n) s.inbox).symm, rfl, h.tail _⟩⟩
      · simp only [Socket.read, hk, hnil, if_false, show n ≠ 0 by omega, Socket.tail]
      · rw [hbt, hlen]
        exact List.cons_ne_nil _ _
      · rw [List.length_take]
        omega
  · right
    refine ⟨?_, ⟨rfl, rfl, h.tail s.inbox⟩, Or.inr hk⟩
    simp only [Socket.read, hk, Socket.tail]

end Socket

namespace GentConnect

/-- **Filling a buffer** from such a peer: some bytes are read, and there is no error. -/
lemma fill_lively : ∀ (allocs : ℕ) (s : Socket) (buf : Str) (size : ℕ) (gotdata : ℤ),
    s.Lively → buf.length < size → 0 ≤ gotdata →
    ∃ n bytes size' s', fill allocs s buf size gotdata = (n, buf ++ bytes, size', s') ∧ 0 ≤ n ∧
      size ≤ size' ∧ s.Takes bytes s'
  | allocs, s, buf, size, gotdata, h, hroom, hgot => by
      have hn : 0 < size - buf.length := by omega
      rw [fill]
      rcases h.read_cases hn with ⟨k, bytes, s₁, -, hread, -, hlen, htakes⟩ | ⟨hread, htakes, -⟩
      · rw [hread]
        dsimp only
        split_ifs with hfull
        · cases allocs with
          | zero => exact ⟨1, bytes, size, s₁, rfl, by decide, le_rfl, htakes⟩
          | succ allocs =>
              obtain ⟨n, more, size', s', hfill, hpos, hsize, hmore⟩ := fill_lively allocs s₁ (buf ++ bytes)
                (size * 2) 1 htakes.lively (by rw [List.length_append]; omega) (by decide)
              refine ⟨n, bytes ++ more, size', s', ?_, hpos, by omega, htakes.trans hmore⟩
              dsimp only
              rw [hfill, List.append_assoc]
        · exact ⟨1, bytes, size, s₁, rfl, by decide, le_rfl, htakes⟩
      · rw [hread]
        exact ⟨gotdata, [], size, _, by rw [List.append_nil], hgot, le_rfl, htakes⟩

lemma readBuffer_lively {s : Socket} (buf : Str) {size : ℕ} (h : s.Lively) (hroom : buf.length < size) :
    ∃ n bytes size' s', readBuffer s buf size = (n, buf ++ bytes, size', s') ∧ 0 ≤ n ∧
      size ≤ size' ∧ s.Takes bytes s' := by
  rw [readBuffer, if_neg (by omega)]
  exact fill_lively 4 s buf size 0 h hroom le_rfl

end GentConnect

/-! ## The calls of `Put` -/

/-- A call of `Put`, and what the world was like. -/
structure PutCall where
  world : World
  key : Str
  value : Str
  expire : ℕ

namespace PutCall

/-- What it does. -/
def put (c : PutCall) (db : GentDb) : GentDb × Bool :=
  db.put c.world.okDb (c.world.okMeta c.key) c.world.now c.key c.value c.expire 1

/-- What the client is told. -/
def reply (c : PutCall) (db : GentDb) : Str :=
  if (c.put db).2 then lit "+OK\r\n" else lit "-ERR NOT_STORED\r\n"

lemma reply_ne_nil (c : PutCall) (db : GentDb) : c.reply db ≠ [] := by
  unfold reply
  split_ifs <;> exact List.cons_ne_nil _ _

end PutCall

namespace Session

variable {cfg : Config} {w : World} {x y : Session}

/-- The call of `Put` that a turn makes. -/
def putCall (x : Session) (w : World) : Option PutCall :=
  let r := x.running.conn.comm
  let value := (r.content ++ x.running.conn.content.getD []).take r.rlbytes
  if x.running.status = .CONN_DATA then
    match r.subc with
    | some .set => some ⟨w, r.keystr, value, 0⟩
    | some .setex => some ⟨w, r.keystr, value, r.expire⟩
    | _ => none
  else none

/-- A turn, with the calls of `Put` so far. -/
def turnStep (cfg : Config) (x : Session × List PutCall) (w : World) : Option (Session × List PutCall) :=
  (x.1.step cfg false (.turn w true)).map fun y => (y, x.2 ++ (x.1.putCall w).toList)

/-- What `SET` and `SETEX` do, as a call of `Put`. -/
lemma valueComplete_eq (w : World) (sv : Server) (expire : ℕ) (r : GentRedis) (recont : Str) :
    ∃ r' sv', valueComplete false w sv expire r recont
      = .ok (PutCall.reply ⟨w, r.keystr, (r.content ++ recont).take r.rlbytes, expire⟩ sv.db, r', sv') ∧
      sv'.db = (PutCall.put ⟨w, r.keystr, (r.content ++ recont).take r.rlbytes, expire⟩ sv.db).1 := by
  set c : PutCall := ⟨w, r.keystr, (r.content ++ recont).take r.rlbytes, expire⟩ with hc
  have hcomplete : valueComplete false w sv expire r recont
      = .ok (c.reply sv.db, { r with content := r.content ++ recont },
          if (c.put sv.db).2 then Server.push { sv with db := (c.put sv.db).1 } w .ADD [r.keystr]
          else { sv with db := (c.put sv.db).1 }) := by
    simp only [valueComplete, PutCall.reply, PutCall.put, hc]
    split_ifs
    · rfl
    · rfl
  refine ⟨_, _, hcomplete, ?_⟩
  split_ifs
  · rfl
  · rfl

/-- **The call is what the command does.** -/
lemma complete_of_putCall {c : PutCall} (h : x.putCall w = some c) :
    ∃ r sv, complete false w x.server x.running.conn.comm (x.running.conn.content.getD [])
      = .ok (c.reply x.server.db, r, sv) ∧ sv.db = (c.put x.server.db).1 := by
  simp only [putCall] at h
  split_ifs at h
  split at h
  · next hsubc =>
      obtain rfl := Option.some.inj h
      rw [complete_eq hsubc]
      exact valueComplete_eq w x.server 0 _ _
  · next hsubc =>
      obtain rfl := Option.some.inj h
      rw [complete_eq hsubc]
      exact valueComplete_eq w x.server _ _ _
  · cases h

/-- **From some turn on**, `Put` has been called once, with this, and that is what has been done and
answered. -/
def StoresOnce (cfg : Config) (ws : ℕ → World) (x : Session) (key value : Str) (expire : ℕ) : Prop :=
  ∃ n, ∀ m, n ≤ m → ∃ y w, Transition.run (turnStep cfg) (x, []) (Transition.first ws m)
      = some (y, [⟨w, key, value, expire⟩]) ∧
    y.server.db = (PutCall.put ⟨w, key, value, expire⟩ x.server.db).1 ∧
    y.running.sock.outbox = x.running.sock.outbox
      ++ (PutCall.reply ⟨w, key, value, expire⟩ x.server.db).map some

/-- There is one such call at most. -/
lemma StoresOnce.expire_eq {ws : ℕ → World} {key value : Str} {e e' : ℕ}
    (h : StoresOnce cfg ws x key value e) (h' : StoresOnce cfg ws x key value e') : e = e' := by
  obtain ⟨n, hn⟩ := h
  obtain ⟨n', hn'⟩ := h'
  obtain ⟨y, w, hrun, -⟩ := hn (max n n') (le_max_left n n')
  obtain ⟨y', w', hrun', -⟩ := hn' (max n n') (le_max_right n n')
  have hcalls := (Prod.mk.inj (Option.some.inj (hrun.symm.trans hrun'))).2
  exact congrArg PutCall.expire (List.cons.inj hcalls).1

end Session

/-! ## From the header to the call -/

namespace ValueRequest

/-- The header has been parsed. -/
structure Parsed (q : ValueRequest) (e : ℕ) (r : GentRedis) : Prop where
  subc : r.subc = some q.command
  keystr : r.keystr = q.key
  rlbytes : r.rlbytes = q.value.length
  expire : q.command = .setex → r.expire = e

/-- Some of the value is there, and `pending` is on its way. -/
structure Gathers (q : ValueRequest) (e : ℕ) (x₀ : Session) (pending : Str) (x : Session) : Prop where
  parsed : q.Parsed e x.running.conn.comm
  value : x.running.conn.comm.content ++ x.running.conn.content.getD [] ++ pending = q.value
  inbox : ∃ t, t <:+ crlf ∧ x.running.sock.inbox = pending ++ t
  lively : x.running.sock.Lively
  sendsize : x.running.conn.sendsize = 0
  rsize : readBufferSize ≤ x.running.conn.rsize
  outbox : x.running.sock.outbox = x₀.running.sock.outbox
  server : x.server = x₀.server

/-- The answer is being sent; `unsent` is left of it. -/
structure Answers (out unsent : Str) (x₀ : Session) (db : GentDb) (x : Session) : Prop where
  status : x.running.status = .CONN_WRITE
  outstr : x.running.conn.outstr = out
  sent : ∃ sent, sent ++ unsent = out ∧
    x.running.sock.outbox = x₀.running.sock.outbox ++ sent.map some ∧
    (x.running.conn.sendsize = 0 ∧ sent = [] ∨
      x.running.conn.cursendsize = sent.length ∧ x.running.conn.sendsize = unsent.length)
  pos : unsent ≠ []
  rbytes : x.running.rbytes = []
  inbox : x.running.sock.inbox <:+ crlf
  lively : x.running.sock.Lively
  rsize : readBufferSize ≤ x.running.conn.rsize
  db : x.server.db = db

/-- The answer has been sent.  What may still come is the end of the request. -/
structure Rests (out : Str) (x₀ : Session) (db : GentDb) (x : Session) : Prop where
  status : x.running.status = .CONN_WAIT ∨ x.running.status = .CONN_READ
  bytes : x.running.rbytes ++ x.running.sock.inbox <:+ crlf
  lively : x.running.sock.Lively
  sendsize : x.running.conn.sendsize = 0
  rsize : readBufferSize ≤ x.running.conn.rsize
  outbox : x.running.sock.outbox = x₀.running.sock.outbox ++ out.map some
  db : x.server.db = db

section Steps

variable {cfg : Config} {q : ValueRequest} {e : ℕ} {x₀ x : Session} {w : World}

/-- **A turn that reads.**  It gets some bytes of the value, or it has to wait, or the value is there. -/
lemma Gathers.step {pending : Str} {d : ℕ} (h : q.Gathers e x₀ pending x)
    (hst : x.running.status = .CONN_NREAD) (hremain : x.running.conn.remainsize = pending.length)
    (hd : ∃ k, x.running.sock.recvs d = .bytes k) :
    ∃ y, x.step cfg false (.turn w true) = some y ∧
      (pending = [] ∧ y.running.status = .CONN_DATA ∧ q.Gathers e x₀ [] y ∨
        ∃ pending' d', y.running.status = .CONN_NREAD ∧ y.running.conn.remainsize = pending'.length ∧
          q.Gathers e x₀ pending' y ∧ (∃ k, y.running.sock.recvs d' = .bytes k) ∧
          (pending'.length < pending.length ∨ pending' = pending ∧ d' < d)) := by
  obtain ⟨t, ht, hinbox⟩ := h.inbox
  rw [Session.step_of_ne (by rw [hst]; exact nofun)]
  by_cases hnil : pending = []
  · subst hnil
    simp only [StreamEvent.take, Running.turn, hst, Running.nextRead, hremain, List.length_nil, if_true,
      Option.map_some]
    exact ⟨_, rfl, Or.inl ⟨trivial, rfl, ⟨⟨h.parsed.subc, h.parsed.keystr, h.parsed.rlbytes, h.parsed.expire⟩,
      h.value, h.inbox, h.lively, h.sendsize, h.rsize, h.outbox, h.server⟩⟩⟩
  · have hlen : 0 < pending.length := List.length_pos_of_ne_nil hnil
    have hne : x.running.conn.remainsize ≠ 0 := by omega
    simp only [StreamEvent.take, Running.turn, hst, Running.nextRead, hne, if_false]
    rcases h.lively.read_cases (show 0 < x.running.conn.remainsize by omega)
      with ⟨k, bytes, s', -, hread, hbytes, hle, htakes⟩ | ⟨hread, htakes, hwait⟩
    · rw [hread]
      -- the bytes are the next ones of the value, since no more are asked for
      obtain ⟨rest, rfl⟩ : bytes <+: pending :=
        List.prefix_of_prefix_length_le ⟨s'.inbox, htakes.inbox.symm⟩ ⟨t, hinbox.symm⟩ (by omega)
      have hrest : s'.inbox = rest ++ t :=
        List.append_cancel_left (htakes.inbox.symm.trans (hinbox.trans (List.append_assoc bytes rest t)))
      obtain ⟨d', k', hd'⟩ := htakes.lively.recvs 0
      rw [Nat.zero_add] at hd'
      have hpos : 0 < bytes.length := List.length_pos_of_ne_nil hbytes
      refine ⟨_, rfl, Or.inr ⟨rest, d', hst, ?_, ⟨h.parsed, ?_, ⟨t, ht, hrest⟩, htakes.lively, h.sendsize,
        h.rsize, htakes.outbox.trans h.outbox, h.server⟩, ⟨k', hd'⟩, Or.inl ?_⟩⟩
      · simp only [hremain, List.length_append, Nat.add_sub_cancel_left]
      · simpa using h.value
      · rw [List.length_append]
        omega
    · rw [hread]
      obtain ⟨k, hk⟩ := hd
      have hnot : x.running.sock.recvs 0 = .eagain := by
        refine hwait.resolve_left fun hempty => hnil ?_
        rw [hinbox] at hempty
        exact (List.append_eq_nil_iff.mp hempty).1
      obtain ⟨d', rfl⟩ : ∃ d', d = d' + 1 := by
        cases d with
        | zero => rw [hnot] at hk; cases hk
        | succ d' => exact ⟨d', rfl⟩
      exact ⟨_, rfl, Or.inr ⟨pending, d', hst, hremain, ⟨h.parsed, h.value, h.inbox, htakes.lively,
        h.sendsize, h.rsize, h.outbox, h.server⟩, ⟨k, hk⟩, Or.inr ⟨rfl, Nat.lt_succ_self d'⟩⟩⟩

/-- **The turn that acts** calls `Put` with the key and the value. -/
lemma Gathers.act (h : q.Gathers e x₀ [] x) (hst : x.running.status = .CONN_DATA)
    (he : q.command ≠ .setex → e = 0) :
    x.putCall w = some ⟨w, q.key, q.value, e⟩ ∧ ∃ y, x.step cfg false (.turn w true) = some y ∧
      Answers (PutCall.reply ⟨w, q.key, q.value, e⟩ x₀.server.db)
        (PutCall.reply ⟨w, q.key, q.value, e⟩ x₀.server.db) x₀
        (PutCall.put ⟨w, q.key, q.value, e⟩ x₀.server.db).1 y := by
  have hvalue : (x.running.conn.comm.content ++ x.running.conn.content.getD []).take
      x.running.conn.comm.rlbytes = q.value := by
    have hall := h.value
    rw [List.append_nil] at hall
    rw [hall, h.parsed.rlbytes, List.take_length]
  have hcall : x.putCall w = some ⟨w, q.key, q.value, e⟩ := by
    simp only [Session.putCall, hst, if_true, hvalue, h.parsed.keystr, h.parsed.subc]
    cases q with
    | set key value => rw [he nofun]; rfl
    | setex key ttl value => rw [h.parsed.expire rfl]; rfl
  obtain ⟨r, sv, hcomplete, hdb⟩ := Session.complete_of_putCall hcall
  rw [h.server] at hcomplete hdb
  obtain ⟨t, ht, hinbox⟩ := h.inbox
  have hcomplete' : complete false w x.server x.running.conn.comm (x.running.conn.content.getD [])
      = .ok (PutCall.reply ⟨w, q.key, q.value, e⟩ x₀.server.db, r, sv) := by rw [h.server, hcomplete]
  refine ⟨hcall, _, Session.step_data hst hcomplete' (PutCall.reply_ne_nil _ _), ?_⟩
  exact ⟨rfl, rfl, ⟨[], rfl, by simpa using h.outbox, Or.inl ⟨h.sendsize, rfl⟩⟩, PutCall.reply_ne_nil _ _,
    rfl, hinbox ▸ ht, h.lively, h.rsize, hdb⟩

/-- The loop of `OutString` starts where the last call has left it. -/
lemma begin_eq {c : GentConnect} {sent unsent out : Str} (hsplit : sent ++ unsent = out)
    (hpos : 0 < unsent.length) (hsizes : c.sendsize = 0 ∧ sent = [] ∨
      c.cursendsize = sent.length ∧ c.sendsize = unsent.length) :
    c.begin out = { c with sendsize := unsent.length, cursendsize := sent.length } := by
  rcases hsizes with ⟨hzero, rfl⟩ | ⟨hcur, hsize⟩
  · rw [GentConnect.begin, if_pos hzero, ← hsplit]
    rfl
  · rw [GentConnect.begin, if_neg (by omega), ← hsize, ← hcur]

/-- A turn in `CONN_WRITE` is a call of `OutString`. -/
lemma step_write (hst : x.running.status = .CONN_WRITE) :
    x.step cfg false (.turn w true) = some ⟨x.server,
      ⟨(x.running.conn.reset.outString x.running.sock x.running.conn.outstr).2.1, x.running.rbytes,
        (x.running.conn.reset.outString x.running.sock x.running.conn.outstr).2.2⟩, x.attached⟩ := by
  rw [Session.step_of_ne (by rw [hst]; exact nofun)]
  have hwrite : x.running.write = .next
      ⟨(x.running.conn.reset.outString x.running.sock x.running.conn.outstr).2.1, x.running.rbytes,
        (x.running.conn.reset.outString x.running.sock x.running.conn.outstr).2.2⟩ := rfl
  simp only [StreamEvent.take, Running.turn, hst, hwrite, Option.map_some]

/-- **A turn that sends.**  Something goes out, or nothing does, or that was all. -/
lemma Answers.step {out unsent : Str} {db : GentDb} {d : ℕ} (h : Answers out unsent x₀ db x)
    (hd : 0 < (x.running.sock.sends d).room) :
    ∃ y, x.step cfg false (.turn w true) = some y ∧
      (Rests out x₀ db y ∨ ∃ unsent' d', Answers out unsent' x₀ db y ∧
        0 < (y.running.sock.sends d').room ∧
        (unsent'.length < unsent.length ∨ unsent' = unsent ∧ d' < d)) := by
  obtain ⟨sent, hsplit, hbox, hsizes⟩ := h.sent
  have hpos : 0 < unsent.length := List.length_pos_of_ne_nil h.pos
  have hbegin : x.running.conn.reset.begin out = _ := begin_eq hsplit hpos hsizes
  obtain ⟨j, n, hspec⟩ := x.running.conn.reset.outString_spec x.running.sock out
  have hrecvs : (x.running.conn.reset.outString x.running.sock out).2.2.recvs = x.running.sock.recvs :=
    GentConnect.sendLoop_recvs out _ _ x.running.sock
  have hstep : x.step cfg false (.turn w true) = _ := step_write h.status
  rw [h.outstr] at hstep
  rw [hbegin] at hspec
  generalize (x.running.conn.reset.outString x.running.sock out).2.1 = c' at hspec hstep
  generalize (x.running.conn.reset.outString x.running.sock out).2.2 = s' at hspec hstep hrecvs
  have hn : n = min unsent.length (room x.running.sock.sends j) := hspec.count
  have hlively : s'.Lively := by
    refine h.lively.shift (a := 0) ?_ hspec.sends
    simp only [hrecvs, Nat.zero_add]
  have hdrop : out.drop sent.length = unsent := by rw [← hsplit, List.drop_left]
  have hout : s'.outbox = x₀.running.sock.outbox ++ (sent ++ unsent.take n).map some := by
    have hlen := congrArg List.length hsplit
    rw [List.length_append] at hlen
    have hbytes : (List.range n).map (fun i => out[sent.length + i]?)
        = ((out.drop sent.length).take n).map some := Stream.map_getElem_eq (by omega)
    rw [hdrop] at hbytes
    rw [hspec.outbox, hbox]
    simp only [hbytes, List.append_assoc, List.map_append]
  refine ⟨_, hstep, ?_⟩
  by_cases hall : n = unsent.length
  · left
    have hc' : c' = _ := hspec.all hall
    rw [hall, List.take_length, hsplit] at hout
    exact ⟨Or.inl (by rw [hc']; rfl), by rw [h.rbytes, hspec.inbox]; exact h.inbox, hlively, by rw [hc']; rfl,
      by rw [hc']; exact h.rsize, hout, h.db⟩
  · right
    obtain ⟨hj, hc'⟩ : 0 < j ∧ c' = _ := hspec.part hall
    have hanswers : Answers out (unsent.drop n) x₀ db ⟨x.server, ⟨c', x.running.rbytes, s'⟩, x.attached⟩ := by
      have hst : c'.comm.curstatus = .CONN_WRITE := by rw [hc']; exact h.status
      have hstr : c'.outstr = out := by rw [hc']; exact h.outstr
      refine ⟨hst, hstr, ⟨sent ++ unsent.take n, ?_, hout, Or.inr ⟨?_, ?_⟩⟩, ?_, h.rbytes,
        hspec.inbox ▸ h.inbox, hlively, by rw [hc']; exact h.rsize, h.db⟩
      · rw [List.append_assoc, List.take_append_drop, hsplit]
      · simp only [hc', List.length_append, List.length_take]
        omega
      · simp only [hc', List.length_drop]
      · rw [ne_eq, List.drop_eq_nil_iff]
        omega
    by_cases hzero : n = 0
    · -- there was no room, so that there is later
      have hroom : room x.running.sock.sends j = 0 := by omega
      obtain ⟨d', rfl⟩ : ∃ d', d = j + d' := by
        refine ⟨d - j, ?_⟩
        by_contra hlt
        have := room_pos_of_lt (show d < j by omega) hd
        omega
      rw [hzero, List.drop_zero] at hanswers
      exact ⟨unsent, d', hanswers, by rw [hspec.sends]; exact hd, Or.inr ⟨rfl, by omega⟩⟩
    · obtain ⟨d', hd'⟩ := hlively.sends 0
      rw [Nat.zero_add] at hd'
      exact ⟨unsent.drop n, d', hanswers, hd', Or.inl (by rw [List.length_drop]; omega)⟩

/-- What is left of the end of a request is no request. -/
lemma tokens_of_infix_crlf {s : Str} (h : s <:+: crlf) : tokens s = [] := by
  have hall : ∀ s ∈ crlf.sublists, tokens s = [] := by decide
  exact hall s (List.mem_sublists.mpr h.sublist)

/-- **A turn after that** leaves everything as it is. -/
lemma Rests.step {out : Str} {db : GentDb} (h : Rests out x₀ db x) :
    ∃ y, x.step cfg false (.turn w true) = some y ∧ Rests out x₀ db y := by
  rcases h.status with hst | hst
  · rw [Session.step_of_ne (by rw [hst]; rintro ⟨⟩)]
    simp only [StreamEvent.take, Running.turn, hst, Running.wait, Option.map_some]
    exact ⟨_, rfl, Or.inr rfl, (List.suffix_append _ _).trans h.bytes, h.lively, h.sendsize, h.rsize, h.outbox,
      h.db⟩
  · have hroom : x.running.rbytes.length < x.running.conn.rsize := by
      have hle := h.bytes.length_le
      have hsize : 4096 ≤ x.running.conn.rsize := h.rsize
      rw [List.length_append] at hle
      have htwo : crlf.length = 2 := rfl
      omega
    obtain ⟨n, bytes, size, s', hbuf, hn, hsize, htakes⟩ :=
      GentConnect.readBuffer_lively x.running.rbytes h.lively hroom
    have hbytes : x.running.rbytes ++ bytes ++ s'.inbox <:+ crlf := by
      rw [List.append_assoc, ← htakes.inbox]
      exact h.bytes
    have htokens : tokens (x.running.rbytes ++ bytes) = [] :=
      tokens_of_infix_crlf ((List.prefix_append _ s'.inbox).isInfix.trans hbytes.isInfix)
    have hproc : process cfg w.now x.running.conn.comm (x.running.rbytes ++ bytes)
        = .ok (0, [], x.running.conn.comm) := by
      rw [process_none (by rw [htokens]; rfl), if_pos htokens]
    have hkept : ∀ c : GentConnect, c.sendsize = x.running.conn.sendsize → c.rsize = size →
        (c.comm.curstatus = .CONN_WAIT ∨ c.comm.curstatus = .CONN_READ) →
        Rests out x₀ db ⟨x.server, ⟨c, x.running.rbytes ++ bytes, s'⟩, x.attached⟩ := by
      intro c hsend hc hcst
      exact ⟨hcst, hbytes, htakes.lively, hsend.trans h.sendsize, hc ▸ h.rsize.trans hsize,
        htakes.outbox.trans h.outbox, h.db⟩
    rw [Session.step_of_ne (by rw [hst]; rintro ⟨⟩)]
    simp only [StreamEvent.take, Running.turn, hst, Running.read, hbuf, if_neg (show ¬ n < 0 by omega)]
    split_ifs with hzero
    · exact ⟨_, rfl, hkept _ rfl rfl (Or.inl rfl)⟩
    · simp only [hproc]
      exact ⟨_, rfl, hkept _ rfl rfl (Or.inr hst)⟩

end Steps

/-! ## The whole way -/

/-- How far a request has got, before its answer is out.  The rank says what is left to do: which part
of the work, how many bytes of it, and how long until one of them can be read or sent. -/
inductive Stage (q : ValueRequest) (e : ℕ) (x₀ : Session) :
    ℕ ×ₗ ℕ ×ₗ ℕ → Session × List PutCall → Prop where
  | reading {x : Session} {pending : Str} {d : ℕ} (h : q.Gathers e x₀ pending x)
      (hst : x.running.status = .CONN_NREAD) (hremain : x.running.conn.remainsize = pending.length)
      (hd : ∃ k, x.running.sock.recvs d = .bytes k) :
      Stage q e x₀ (toLex (2, toLex (pending.length, d))) (x, [])
  | acting {x : Session} (h : q.Gathers e x₀ [] x) (hst : x.running.status = .CONN_DATA) :
      Stage q e x₀ (toLex (1, toLex (0, 0))) (x, [])
  | answering {x : Session} {w : World} {unsent : Str} {d : ℕ}
      (h : Answers (PutCall.reply ⟨w, q.key, q.value, e⟩ x₀.server.db) unsent x₀
        (PutCall.put ⟨w, q.key, q.value, e⟩ x₀.server.db).1 x)
      (hd : 0 < (x.running.sock.sends d).room) :
      Stage q e x₀ (toLex (0, toLex (unsent.length, d))) (x, [⟨w, q.key, q.value, e⟩])

/-- The answer is out. -/
def Settled (q : ValueRequest) (e : ℕ) (x₀ : Session) (x : Session × List PutCall) : Prop :=
  ∃ w, x.2 = [⟨w, q.key, q.value, e⟩] ∧
    Rests (PutCall.reply ⟨w, q.key, q.value, e⟩ x₀.server.db) x₀
      (PutCall.put ⟨w, q.key, q.value, e⟩ x₀.server.db).1 x.1

section Run

variable {cfg : Config} {q : ValueRequest} {e : ℕ} {x₀ : Session}

/-- Fewer bytes are left, or there is less to wait for the next one. -/
lemma rank_lt {k d d' : ℕ} {s s' : Str} (h : s'.length < s.length ∨ s' = s ∧ d' < d) :
    toLex (k, toLex (s'.length, d')) < toLex (k, toLex (s.length, d)) := by
  refine Prod.Lex.toLex_lt_toLex.mpr (Or.inr ⟨rfl, Prod.Lex.toLex_lt_toLex.mpr ?_⟩)
  rcases h with hless | ⟨rfl, hless⟩
  · exact Or.inl hless
  · exact Or.inr ⟨rfl, hless⟩

/-- Only a turn in `CONN_DATA` calls `Put`. -/
lemma putCall_of_ne {x : Session} (h : x.running.status ≠ .CONN_DATA) (w : World) : x.putCall w = none := by
  rw [Session.putCall, if_neg h]

lemma Settled.keep (x : Session × List PutCall) (w : World) (h : q.Settled e x₀ x) :
    ∃ y, Session.turnStep cfg x w = some y ∧ q.Settled e x₀ y := by
  obtain ⟨x, calls⟩ := x
  obtain ⟨w₁, rfl, hrests⟩ := h
  have hne : x.running.status ≠ .CONN_DATA := by
    rcases hrests.status with hst | hst <;> rw [hst] <;> exact nofun
  obtain ⟨y, hstep, hy⟩ : ∃ y, x.step cfg false (.turn w true) = some y ∧ _ := hrests.step
  refine ⟨(y, [⟨w₁, q.key, q.value, e⟩]), ?_, w₁, rfl, hy⟩
  simp only [Session.turnStep, hstep, putCall_of_ne hne, Option.map_some, Option.toList_none,
    List.append_nil]

/-- **A turn makes progress.** -/
lemma Stage.step (he : q.command ≠ .setex → e = 0) (a : ℕ ×ₗ ℕ ×ₗ ℕ) (x : Session × List PutCall)
    (w : World) (h : q.Stage e x₀ a x) :
    ∃ y, Session.turnStep cfg x w = some y ∧ (q.Settled e x₀ y ∨ ∃ b < a, q.Stage e x₀ b y) := by
  cases h with
  | @reading x pending d h hst hremain hd =>
      have hnone := putCall_of_ne (show x.running.status ≠ .CONN_DATA by rw [hst]; exact nofun) w
      obtain ⟨y, hstep, hy⟩ : ∃ y, x.step cfg false (.turn w true) = some y ∧ _ :=
        h.step hst hremain hd
      refine ⟨(y, []), ?_, Or.inr ?_⟩
      · simp only [Session.turnStep, hstep, hnone, Option.map_some, Option.toList_none, List.append_nil]
      · rcases hy with ⟨-, hst', h'⟩ | ⟨pending', d', hst', hremain', h', hd', hless⟩
        · exact ⟨_, Prod.Lex.toLex_lt_toLex.mpr (Or.inl Nat.one_lt_two), .acting h' hst'⟩
        · exact ⟨_, rank_lt hless, .reading h' hst' hremain' hd'⟩
  | @acting x h hst =>
      obtain ⟨hcall, y, hstep, hy⟩ : x.putCall w = _ ∧ ∃ y, x.step cfg false (.turn w true) = some y ∧ _ :=
        h.act hst he
      obtain ⟨d, hd⟩ := hy.lively.sends 0
      rw [Nat.zero_add] at hd
      refine ⟨(y, [⟨w, q.key, q.value, e⟩]), ?_, Or.inr ⟨_, ?_, .answering hy hd⟩⟩
      · simp only [Session.turnStep, hstep, hcall, Option.map_some, Option.toList_some, List.nil_append]
      · exact Prod.Lex.toLex_lt_toLex.mpr (Or.inl Nat.zero_lt_one)
  | @answering x w₁ unsent d h hd =>
      have hnone := putCall_of_ne (show x.running.status ≠ .CONN_DATA by rw [h.status]; exact nofun) w
      obtain ⟨y, hstep, hy⟩ : ∃ y, x.step cfg false (.turn w true) = some y ∧ _ := h.step hd
      refine ⟨(y, [⟨w₁, q.key, q.value, e⟩]), ?_, ?_⟩
      · simp only [Session.turnStep, hstep, hnone, Option.map_some, Option.toList_none, List.append_nil]
      · rcases hy with hrests | ⟨unsent', d', h', hd', hless⟩
        · exact Or.inl ⟨w₁, rfl, hrests⟩
        · exact Or.inr ⟨_, rank_lt hless, .answering h' hd'⟩

/-- **A connection that waits for the request**, and whose first read has the header of it. -/
structure Expects (cfg : Config) (name : Str) (q : ValueRequest) (x : Session) : Prop where
  status : x.running.status = .CONN_READ
  rbytes : x.running.rbytes = []
  content : x.running.conn.content = none
  sendsize : x.running.conn.sendsize = 0
  rsize : readBufferSize ≤ x.running.conn.rsize
  authed : Authed cfg x.running.conn.comm
  lively : x.running.sock.Lively
  inbox : x.running.sock.inbox = q.bytes name
  first : ∃ s, x.running.given = some (q.header name ++ s)

/-- The bytes of the value that the first read has, and the ones that it does not have. -/
lemma split_first {value s rest : Str} (h : s ++ rest = value ++ crlf) :
    s.take value.length ++ value.drop s.length = value ∧
      ∃ t, t <:+ crlf ∧ rest = value.drop s.length ++ t := by
  rcases List.append_eq_append_iff.mp h with ⟨a, rfl, rfl⟩ | ⟨c, rfl, hc⟩
  · refine ⟨?_, crlf, List.suffix_rfl, by rw [List.drop_left]⟩
    rw [List.drop_left, List.take_of_length_le (by simp)]
  · have hdrop : value.drop (value ++ c).length = [] := List.drop_of_length_le (by simp)
    refine ⟨by rw [hdrop, List.take_left, List.append_nil], rest, ⟨c, hc.symm⟩, by rw [hdrop, List.nil_append]⟩

/-- **The first turn.** -/
lemma Expects.step {name : Str} {x : Session} {w : World} (h : q.Expects cfg name x)
    (hname : commands name = some q.command) (hq : q.Admissible) :
    ∃ y a, x.step cfg false (.turn w true) = some y ∧ q.Stage (q.expire w.now) x a (y, []) := by
  obtain ⟨s, hgiven⟩ := h.first
  have hroom : x.running.rbytes.length < x.running.conn.rsize := by
    rw [h.rbytes]
    exact Nat.lt_of_lt_of_le (by decide) h.rsize
  obtain ⟨n, bytes, size, sock, hbuf, hn, hle, htakes⟩ :=
    GentConnect.readBuffer_lively x.running.rbytes h.lively hroom
  simp only [h.rbytes, List.nil_append] at hbuf
  -- what is read is what `Process` is given
  obtain ⟨hpos, rfl⟩ : 0 < n ∧ bytes = q.header name ++ s := by
    simp only [Running.given, h.status, h.rbytes, hbuf, if_true] at hgiven
    split_ifs at hgiven with hpos
    exact ⟨hpos, Option.some.inj hgiven⟩
  have hrest : s ++ sock.inbox = q.value ++ crlf := by
    have hall := htakes.inbox
    rw [h.inbox, bytes_eq, List.append_assoc] at hall
    exact (List.append_cancel_left hall).symm
  obtain ⟨hvalue, t, ht, hinbox⟩ := split_first hrest
  obtain ⟨d, k, hd⟩ := htakes.lively.recvs 0
  rw [Nat.zero_add] at hd
  have hmissing : toUInt64 ((q.value.length - s.length : ℕ) : ℤ) = (q.value.drop s.length).length := by
    have := hq.value
    rw [List.length_drop, toUInt64_natCast]
    omega
  have hproc : process cfg w.now x.running.conn.comm (q.header name ++ s) = _ :=
    process_first h.authed hname hq s
  have hstep : x.step cfg false (.turn w true) = some ⟨x.server, ⟨{ x.running.conn with
      comm := q.parsed w.now x.running.conn.comm s
      outstr := []
      rsize := size
      remainsize := (q.value.drop s.length).length }, q.header name ++ s, sock⟩, x.attached⟩ := by
    rw [Session.step_of_ne (by rw [h.status]; rintro ⟨⟩)]
    simp only [StreamEvent.take, Running.turn, h.status, Running.read, h.rbytes, hbuf,
      if_neg (show ¬ n < 0 by omega), if_neg (show ¬ n = 0 by omega), hproc, hmissing, ne_eq,
      not_true, and_false, if_false, Option.map_some]
  refine ⟨_, _, hstep, .reading ⟨⟨rfl, rfl, rfl, ?_⟩, ?_, ⟨t, ht, hinbox⟩, htakes.lively, h.sendsize,
    h.rsize.trans hle, htakes.outbox, rfl⟩ rfl rfl ⟨k, hd⟩⟩
  · intro hsetex
    cases q with
    | set key value => cases hsetex
    | setex key ttl value => rfl
  · simp only [parsed, h.content, Option.getD_none, List.append_nil]
    exact hvalue

/-- **What comes of it.** -/
lemma Expects.storesOnce {name : Str} {x : Session} {ws : ℕ → World} (h : q.Expects cfg name x)
    (hname : commands name = some q.command) (hq : q.Admissible) :
    Session.StoresOnce cfg ws x q.key q.value (q.expire (ws 0).now) := by
  have he : q.command ≠ .setex → q.expire (ws 0).now = 0 := by
    intro hne
    cases q with
    | set key value => rfl
    | setex key ttl value => exact absurd rfl hne
  obtain ⟨y, a, hstep, hstage⟩ : ∃ y a, x.step cfg false (.turn (ws 0) true) = some y ∧ _ :=
    h.step hname hq
  obtain ⟨n, hn⟩ : ∃ n, ∀ m, n ≤ m → ∃ s', Transition.run (Session.turnStep cfg) (y, [])
      (Transition.first (fun i => ws (i + 1)) m) = some s' ∧ q.Settled (q.expire (ws 0).now) x s' :=
    Transition.settles_of_rank Settled.keep (Stage.step he) _ hstage
  refine ⟨n + 1, fun m hm => ?_⟩
  obtain ⟨k, rfl⟩ : ∃ k, m = k + 1 := ⟨m - 1, by omega⟩
  obtain ⟨⟨z, calls⟩, hrun, w, rfl, hrests⟩ := hn k (by omega)
  have hfirst : Session.turnStep cfg (x, []) (ws 0) = some (y, []) := by
    simp only [Session.turnStep, hstep, putCall_of_ne (show x.running.status ≠ .CONN_DATA by
      rw [h.status]; exact nofun), Option.map_some, Option.toList_none, List.append_nil]
  refine ⟨z, w, ?_, hrests.db, hrests.outbox⟩
  rw [Transition.first_succ, Transition.run, hfirst]
  exact hrun

/-- When the parser's expiry is the one that is meant. -/
lemma expire_eq_due_iff {now : ℕ} (hpos : 0 < now) (hnow : now < 2 ^ 63) :
    q.expire now = q.due now ↔ q.Fits := by
  cases q with
  | set key value => exact ⟨fun _ => trivial, fun _ => rfl⟩
  | setex key ttl value =>
      show (toUInt64 (atoi (decimal ttl)) + now) % 2 ^ 64 = ttl + now ↔ ttl < 2 ^ 31
      constructor
      · intro heq
        have hhi := atoi_lt (decimal ttl)
        have hlo := neg_le_atoi (decimal ttl)
        by_contra hge
        -- as a 64-bit number a negative `int` is near the end of the range, where `atoi` gives -1
        have hlarge : 2 ^ 63 ≤ ttl := by
          unfold toUInt64 at heq
          omega
        rw [atoi_decimal_large hlarge] at heq
        have hminus : toUInt64 (-1) = 2 ^ 64 - 1 := by decide
        omega
      · intro hfits
        rw [atoi_decimal hfits, toUInt64_natCast (by omega)]
        omega

end Run

end ValueRequest

open ValueRequest in
/-- **`SET` and `SETEX` in pieces.**  Whatever the reads after the first one bring, `Put` is called once,
with the key and the value; and with the expiry that is meant exactly if the seconds are an `int`. -/
theorem storesOnce_iff {cfg : Config} {ws : ℕ → World} {name : Str} {q : ValueRequest} {x : Session}
    (hname : commands name = some q.command) (hq : q.Admissible) (hx : q.Expects cfg name x)
    (hpos : 0 < (ws 0).now) (hnow : (ws 0).now < 2 ^ 63) :
    Session.StoresOnce cfg ws x q.key q.value (q.due (ws 0).now) ↔ q.Fits := by
  have hstores : Session.StoresOnce cfg ws x q.key q.value _ := hx.storesOnce hname hq
  rw [← expire_eq_due_iff hpos hnow]
  constructor
  · intro h
    exact hstores.expire_eq h
  · intro heq
    rwa [heq] at hstores

/-- A peer whose first `n + 1` bytes come at once, and the others one by one, after a while. -/
def slowSocket (inbox : Str) (n : ℕ) : Socket where
  inbox := inbox
  recvs i := if i = 0 then .bytes n else if i = 1 then .eagain else .bytes 0
  sends _ := .count 0
  outbox := []

lemma slowSocket_lively (inbox : Str) (n : ℕ) : (slowSocket inbox n).Lively where
  calm i := by
    simp only [slowSocket]
    split_ifs
    · exact Or.inl ⟨n, rfl⟩
    · exact Or.inr rfl
    · exact Or.inl ⟨0, rfl⟩
  recvs i := ⟨2, 0, rfl⟩
  sends _ := ⟨0, Nat.one_pos⟩

/-- A new connection on which the header of a `setex` comes first, with two bytes of the value. -/
def setexSlowly (ttl : ℕ) : Session :=
  let q : ValueRequest := .setex (lit "k") ttl (lit "hello")
  .start emptyServer false (slowSocket (q.bytes (lit "setex")) ((q.header (lit "setex")).length + 1))

/-- The clock does not matter for what comes of it, but for the expiry. -/
def setexWorlds : ℕ → World := fun i => { quietWorld with now := 1700000000 + i }

lemma setex_admissible (ttl : ℕ) : (ValueRequest.setex (lit "k") ttl (lit "hello")).Admissible :=
  ⟨show Clean (lit "k") by decide, show (lit "k").length < 250 by decide,
    show (lit "hello").length < 2 ^ 31 by decide⟩

lemma setexSlowly_expects (ttl : ℕ)
    (h : (setexSlowly ttl).running.given
      = some ((ValueRequest.setex (lit "k") ttl (lit "hello")).header (lit "setex") ++ lit "he")) :
    (ValueRequest.setex (lit "k") ttl (lit "hello")).Expects openConfig (lit "setex") (setexSlowly ttl) where
  status := rfl
  rbytes := rfl
  content := rfl
  sendsize := rfl
  rsize := le_rfl
  authed := Or.inr rfl
  lively := slowSocket_lively _ _
  inbox := rfl
  first := ⟨lit "he", h⟩

/-- An hour. -/
theorem storesOnce_hour :
    Session.StoresOnce openConfig setexWorlds (setexSlowly 3600) (lit "k") (lit "hello")
      (3600 + 1700000000) :=
  (storesOnce_iff (q := .setex (lit "k") 3600 (lit "hello")) (by decide) (setex_admissible 3600)
    (setexSlowly_expects 3600 (by decide +kernel)) (by decide) (by decide)).mpr
    (show 3600 < 2 ^ 31 by decide)

/-- **Seconds that are no `int`**: 2147483648 of them become as many before the clock, and that as an
unsigned number is far ahead. -/
theorem storesOnce_overflow :
    ¬ Session.StoresOnce openConfig setexWorlds (setexSlowly 2147483648) (lit "k") (lit "hello")
      (2147483648 + 1700000000) := by
  intro h
  have hstores : Session.StoresOnce openConfig setexWorlds (setexSlowly 2147483648) (lit "k") (lit "hello")
      (setexExpire (atoi (decimal 2147483648)) 1700000000) :=
    (setexSlowly_expects 2147483648 (by decide +kernel)).storesOnce (by decide)
      (setex_admissible 2147483648)
  exact absurd (h.expire_eq hstores) (by decide +kernel)

end Riser
