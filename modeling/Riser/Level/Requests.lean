import Riser.Level.SetCommand

/-!
# A memcache client and its answers

`GentConnect` keeps one handler for all requests of a connection, and never resets it: `keys`, `content`,
`keystr` and `rlbytes` are those of the request before.  **That makes no difference.**  For any requests, each
of them cut anywhere behind its line, the client is told what a map of keys, values and expiries would tell
it, and the store goes on to stand for that map (`requests_refine`).

The map also tells where the protocol is not kept: a `get` of one key that is missing is answered as if its
value were empty.
-/

namespace Riser

open Cpp

namespace GentLevel

/-! ## Requests -/

/-- A request. -/
inductive Request where
  | get (key : Key)
  | multiGet (keys : List Key)
  | set (line : SetLine) (value : Str)
  | del (key : Key)

namespace Request

/-- Its line. -/
def line : Request → Str
  | .get key => getLine [key]
  | .multiGet keys => getLine keys
  | .set line _ => line.text
  | .del key => commandLine (lit "del") [key.text]

/-- The data behind the line. -/
def data : Request → Str
  | .set _ value => value ++ crlf
  | _ => []

/-- The count of the words does not wrap to something small, and the announced length is that of the value. -/
def WellFormed : Request → Prop
  | .get _ => True
  | .multiGet keys => 2 < (keys.length + 1) % 2 ^ 8
  | .set line value => line.bytes.value = value.length ∧ value.length + 2 < 2 ^ 31
  | .del _ => True

/-- **What the client is told, and what becomes of the map.** -/
def spec (a : ExpMap Str Str) (now : ℕ) : Request → Str × ExpMap Str Str
  | .get key => (valueBlock key.text ((a.visible now key.text).getD []) ++ lit "END\r\n", a)
  | .multiGet keys =>
      (keys.flatMap (fun key => (a.visible now key.text).elim [] (valueBlock key.text)) ++ lit "END\r\n", a)
  | .set line value => (lit "STORED\r\n", a.bind line.key.text value 0)
  | .del key =>
      if (a.visible now key.text).isSome then (lit "DELETED\r\n", a.unbind key.text)
      else (lit "NOT_FOUND\r\n", a)

end Request

/-- A request with the moment it is served in, and where its data are cut: `cut` bytes are in the first
read. -/
structure Arrival where
  world : World
  request : Request
  cut : ℕ

/-- It is well-formed, and the disk works. -/
def Arrival.Ok (r : Arrival) : Prop :=
  r.request.WellFormed ∧ r.world.okDb = true ∧ (∀ key, r.world.okMeta key = true)

/-- The handler, the store, and what the client has been told. -/
structure Client where
  level : GentLevel
  db : GentDb
  told : List Str

/-- A request is served. -/
def Client.step (c : Client) (r : Arrival) : Option Client :=
  match serve r.world c.db c.level (r.request.line ++ r.request.data.take r.cut)
      (r.request.data.drop r.cut) with
  | .ok (out, level, db) => some ⟨level, db, c.told ++ [out]⟩
  | .error _ => none

/-- The map, and its answers. -/
def specRun (a : ExpMap Str Str) : List Arrival → List Str × ExpMap Str Str
  | [] => ([], a)
  | r :: rs =>
      let (out, a') := r.request.spec a r.world.now
      let (outs, a'') := specRun a' rs
      (out :: outs, a'')

/-! ## One request -/

section Serve

variable {w : World} {db : GentDb} {l : GentLevel} {a : ExpMap Str Str}

/-- A handler that has its data at once. -/
lemma outcome_of_data {first : Str} {l' : GentLevel} (h : l.process first [] = .ok (0, [], l'))
    (hst : l'.curstatus = .CONN_DATA) (recont : Str) :
    outcome w db l first recont = (complete w db l' [] recont).map fun r => (r.1, r.2.2) := by
  simp only [outcome, serve, h, ok_bind, ne_eq, not_true, and_false, if_false, hst]

/-- What is asked for one key. -/
lemma outcome_get (h : Refines db a) (key : Key) :
    outcome w db l (getLine [key]) []
      = .ok (valueBlock key.text ((a.visible w.now key.text).getD []) ++ lit "END\r\n", db) := by
  have hbranch := process_getLine (l := l) [key] (branches_get rfl)
  rw [if_neg (by decide)] at hbranch
  have hend : lit "\r\nEND\r\n" = crlf ++ lit "END\r\n" := by decide
  rw [outcome_of_data hbranch rfl, complete]
  simp only [processGet, key.word.1, if_false, h.get, ok_bind, pure, Except.pure, Except.map,
    valueLine_eq key.short, valueBlock, hend, List.append_assoc]

lemma block_eq (h : Refines db a) (key : Str) :
    block w db key = (a.visible w.now key).elim [] (valueBlock key) := by
  rw [block, h.get]
  cases a.visible w.now key with
  | none => rfl
  | some nr => rfl

/-- What is asked for several. -/
lemma outcome_multiGet (h : Refines db a) {keys : List Key} (hcount : 2 < (keys.length + 1) % 2 ^ 8) :
    outcome w db l (getLine keys) []
      = .ok (keys.flatMap (fun key => (a.visible w.now key.text).elim [] (valueBlock key.text))
        ++ lit "END\r\n", db) := by
  have hmax : (keys.length + 1) % 2 ^ 8 ≤ maxTokens := by
    have := Nat.mod_lt (keys.length + 1) (show 0 < 2 ^ 8 by decide)
    rw [maxTokens]
    omega
  have hbranch := process_getLine (l := l) keys (branches_multiGet rfl hcount hmax)
  rw [if_neg (by decide)] at hbranch
  have hfound : ∀ key ∈ keys, ∃ found, db.get w.now key.text = .ok found :=
    fun key _ => ⟨_, h.get w.now key.text⟩
  rw [outcome_of_data hbranch rfl, complete]
  simp only [processGet, if_true, processMultiGet, foldlM_appendValue hfound, List.nil_append, ok_bind,
    pure, Except.pure, Except.map, block_eq h]

/-- The branch of a `del`. -/
lemma branches_del {key : Str} (h : l.tokenList = [lit "del", key]) :
    l.branches 2 = .ok (0, { l with commandtype := .COMM_DEL, keystr := key, curstatus := .CONN_DATA }) := by
  have hkey : elemAt l.tokenList 1 = .ok key := elemAt_of_eq_some (by rw [h]; rfl)
  have hget : lit "del" ≠ lit "get" := by decide
  have hset : lit "del" ≠ lit "set" := by decide
  have hnamed : ∀ b name, named b l.tokenList name = .ok (b && decide (lit "del" = lit name)) := by
    intro b name
    rw [h, named_cons]
  simp only [branches, hnamed, ok_bind, hget, hset, decide_false, Bool.and_false, Bool.false_eq_true,
    if_false, decide_true, Bool.and_self, if_true, keyWord, hkey, pure, Except.pure]

lemma outcome_del (h : Refines db a) (hdb : w.okDb = true) (hmeta : ∀ key, w.okMeta key = true) (key : Key) :
    ∃ db', outcome w db l (commandLine (lit "del") [key.text]) []
        = .ok (((Request.del key).spec a w.now).1, db') ∧ Refines db' ((Request.del key).spec a w.now).2 := by
  have hargs : ∀ x ∈ [key.text], IsWord x := fun x hx => List.mem_singleton.mp hx ▸ key.word
  have hempty : ([] : Str).length < 2 ^ 32 := by decide
  have hline := process_line (t := lit "del") (by decide) hargs hempty l []
  have hcount : ([key.text].length + 1) % 2 ^ 8 = 2 := rfl
  rw [List.append_nil, hcount, branches_del rfl, ok_bind, if_neg (lt_irrefl (0 : ℤ))] at hline
  rw [outcome_of_data hline rfl, complete]
  simp only [processDel, h.get, ok_bind]
  rw [Request.spec]
  cases hv : a.visible w.now key.text with
  | none => exact ⟨db, by simp [Except.map, pure, Except.pure, bind, Except.bind], by simpa using h⟩
  | some v =>
      refine ⟨(db.del true true key.text).1, ?_, by simpa using h.del key.text⟩
      simp [hdb, hmeta, GentDb.del, Except.map, pure, Except.pure, bind, Except.bind]

/-- What is stored, wherever it is cut. -/
lemma outcome_set (hdb : w.okDb = true) (hmeta : ∀ key, w.okMeta key = true) {line : SetLine} {value : Str}
    (hvalue : line.bytes.value = value.length) (hlen : value.length + 2 < 2 ^ 31) (cut : ℕ) :
    outcome w db l (line.text ++ (value ++ crlf).take cut) ((value ++ crlf).drop cut)
      = .ok (lit "STORED\r\n", (db.putString true true w.now line.key.text value 0 0).1) := by
  have hend : crlf.length = 2 := rfl
  have hcut : ((value ++ crlf).take cut).length ≤ value.length + 2 := by
    rw [List.length_take, List.length_append, hend]
    omega
  have hsmall : ((value ++ crlf).take cut).length < 2 ^ 32 := by omega
  have hint : toInt32 line.bytes.value = value.length := by
    rw [hvalue, toInt32_of_bounds (by omega) (by omega)]
  obtain ⟨l', hwaits, hproc⟩ := process_set (l := l) (c := line) hsmall (by omega)
  rw [hint, toInt32_of_bounds (by omega) (by omega), if_neg (by omega)] at hproc
  have hpos : endPos line = value.length := by
    rw [endPos_eq (by omega) (by omega), hint]
    rfl
  rw [outcome_complete hproc hwaits, List.take_append_drop, hpos, substr_of_le (by simp), List.drop_left,
    List.take_of_length_le hend.le, List.take_left]
  simp [Except.map, hdb, hmeta]

end Serve

/-! ## The session -/

lemma serve_of_outcome {w : World} {db db' : GentDb} {l : GentLevel} {first rest out : Str}
    (h : outcome w db l first rest = .ok (out, db')) :
    ∃ l', serve w db l first rest = .ok (out, l', db') := by
  rw [outcome] at h
  cases hs : serve w db l first rest with
  | error f => simp [hs, Except.map] at h
  | ok res =>
      obtain ⟨out', l', db''⟩ := res
      simp only [hs, Except.map, Except.ok.injEq, Prod.mk.injEq] at h
      obtain ⟨rfl, rfl⟩ := h
      exact ⟨l', rfl⟩

/-- **One request**, whatever the handler has been used for. -/
lemma Client.step_refines {c : Client} {a : ExpMap Str Str} (h : Refines c.db a) {r : Arrival} (hr : r.Ok) :
    ∃ c', c.step r = some c' ∧ c'.told = c.told ++ [(r.request.spec a r.world.now).1] ∧
      Refines c'.db (r.request.spec a r.world.now).2 := by
  obtain ⟨hwf, hdb, hmeta⟩ := hr
  obtain ⟨db', hout, hrefines⟩ : ∃ db', outcome r.world c.db c.level
      (r.request.line ++ r.request.data.take r.cut) (r.request.data.drop r.cut)
        = .ok ((r.request.spec a r.world.now).1, db') ∧ Refines db' (r.request.spec a r.world.now).2 := by
    cases hreq : r.request with
    | get key =>
        simp only [Request.line, Request.data, List.take_nil, List.drop_nil, List.append_nil]
        exact ⟨c.db, outcome_get h key, h⟩
    | multiGet keys =>
        rw [hreq] at hwf
        simp only [Request.line, Request.data, List.take_nil, List.drop_nil, List.append_nil]
        exact ⟨c.db, outcome_multiGet h hwf, h⟩
    | set line value =>
        rw [hreq] at hwf
        exact ⟨_, outcome_set hdb hmeta hwf.1 hwf.2 r.cut,
          h.putString (by decide) (Or.inl rfl) r.world.now line.key.text value⟩
    | del key =>
        simp only [Request.line, Request.data, List.take_nil, List.drop_nil, List.append_nil]
        exact outcome_del h hdb hmeta key
  obtain ⟨l', hserve⟩ := serve_of_outcome hout
  exact ⟨⟨l', db', _⟩, by rw [Client.step, hserve], rfl, hrefines⟩

/-- **A whole session.**  Whatever the handler has been used for before, and wherever the data of the
requests are cut, the client is told what the map says, and the store stands for the map at the end. -/
theorem requests_refine {c : Client} {a : ExpMap Str Str} (h : Refines c.db a) {rs : List Arrival}
    (hrs : ∀ r ∈ rs, r.Ok) :
    ∃ c', Transition.run Client.step c rs = some c' ∧ c'.told = c.told ++ (specRun a rs).1 ∧
      Refines c'.db (specRun a rs).2 := by
  induction rs generalizing c a with
  | nil => exact ⟨c, rfl, by simp [specRun], h⟩
  | cons r rs ih =>
      obtain ⟨c₁, hstep, htold, h₁⟩ := Client.step_refines h (hrs r List.mem_cons_self)
      obtain ⟨c', hrun, htold', h'⟩ := ih h₁ fun r' hr' => hrs r' (List.mem_cons_of_mem r hr')
      refine ⟨c', by rw [Transition.run, hstep, Option.bind_some, hrun], ?_, h'⟩
      rw [htold', htold, List.append_assoc]
      rfl

lemma isWord_k : IsWord (lit "k") := by decide

lemma length_k_le : (lit "k").length ≤ 150 := by decide

/-- The key `k`. -/
def keyK : Key := ⟨lit "k", isWord_k, length_k_le⟩

/-- A value is stored in two parts, asked for and deleted, and the key is asked for again. -/
def fourRequests : List Arrival :=
  [⟨quietWorld, .set (setK ⟨.none, lit "2", by decide, by decide⟩) (lit "vw"), 1⟩,
    ⟨quietWorld, .get keyK, 0⟩, ⟨quietWorld, .del keyK, 0⟩, ⟨quietWorld, .multiGet [keyK, keyK], 0⟩]

theorem requests_refine_four : ∃ c',
    Transition.run Client.step ⟨newLevel, .empty, []⟩ fourRequests = some c' ∧
      c'.told = [lit "STORED\r\n", lit "VALUE k 0 2\r\nvw\r\nEND\r\n", lit "DELETED\r\n", lit "END\r\n"] := by
  have hok : ∀ r ∈ fourRequests, r.Ok := by
    intro r hr
    simp only [fourRequests, List.mem_cons, List.not_mem_nil, or_false] at hr
    rcases hr with rfl | rfl | rfl | rfl
    · exact ⟨⟨by decide, by decide⟩, rfl, fun _ => rfl⟩
    · exact ⟨trivial, rfl, fun _ => rfl⟩
    · exact ⟨trivial, rfl, fun _ => rfl⟩
    · exact ⟨by simp [Request.WellFormed], rfl, fun _ => rfl⟩
  obtain ⟨c', hrun, htold, -⟩ := requests_refine (c := ⟨newLevel, .empty, []⟩) Refines.empty hok
  refine ⟨c', hrun, htold.trans ?_⟩
  rfl

end GentLevel

end Riser
