import Riser.Redis.Faults

/-!
# Which requests are understood

A client sends the arguments of a command as a RESP array: their number, and each with its length in
front (`encode`).  The lengths make any bytes an argument, delimiters included.  The parser of this
server does not use them that way, except for the pairs of an `mset`, so whether a request is acted
on as sent depends on the bytes.

`Request.acts_iff` is the exact answer, for every command with a key:

* a key for `get`, `ttl`, `del`, `exists`, `keys`, `mget` or a password must be non-empty and free of
  CR and LF;
* a key for `set` and `setex` must be free of CR and LF.  An empty one shifts the tokens by one, and
  then the value itself is taken for the length line of the value (`SpellsLength`);
* **any** keys and values will do for `mset`.

So `mset` stores keys that `get` cannot fetch (`mset_key_lost`).
-/

namespace Riser

open Cpp

/-! ## The encoding -/

/-- `$3` for an argument of three bytes. -/
def lengthLine (arg : Str) : Str := lit "$" ++ decimal arg.length

/-- `*2` for two arguments. -/
def countLine (args : List Str) : Str := lit "*" ++ decimal args.length

/-- An argument. -/
def bulk (arg : Str) : Str := lengthLine arg ++ (crlf ++ (arg ++ crlf))

/-- A request, with the name of the command as first argument. -/
def encode (args : List Str) : Str := countLine args ++ (crlf ++ args.flatMap bulk)

/-- No CR and no LF. -/
def NoDelim (s : Str) : Prop := ∀ b ∈ s, b ∉ crlf

lemma isDigit_notMem_crlf {b : UInt8} (hb : isDigit b = true) : b ∉ crlf := by
  intro hmem
  have hcases : b = 13 ∨ b = 10 := by simpa [crlf, lit] using hmem
  rcases hcases with rfl | rfl <;> simp [isDigit] at hb

lemma noDelim_decimal (n : ℕ) : NoDelim (decimal n) := fun _ hb =>
  isDigit_notMem_crlf (isDigit_of_mem_decimal hb)

/-- A type byte and a number. -/
lemma clean_numberLine (t : UInt8) (ht : t ∉ crlf) (n : ℕ) : Clean (t :: decimal n) := by
  refine ⟨by simp, fun b hb => ?_⟩
  rcases List.mem_cons.mp hb with rfl | hb
  · exact ht
  · exact noDelim_decimal n b hb

lemma clean_lengthLine (arg : Str) : Clean (lengthLine arg) := clean_numberLine 36 (by decide) _

lemma clean_countLine (args : List Str) : Clean (countLine args) :=
  clean_numberLine 42 (by decide) _

lemma lengthOf_lengthLine {arg : Str} (h : arg.length < 2 ^ 31) :
    lengthOf (lengthLine arg) = arg.length := by
  show toUInt64 (atoi (decimal arg.length)) = arg.length
  rw [atoi_decimal h, toUInt64_natCast (by omega)]

/-! ## The tokens of an encoding -/

/-- An argument without delimiters is two tokens, or one if it is empty. -/
lemma fields_bulk {arg : Str} (h : NoDelim arg) (s : Str) :
    fields (bulk arg ++ s) = lengthLine arg :: ((if arg = [] then [] else [arg]) ++ fields s) := by
  rw [bulk, List.append_assoc, List.append_assoc, fields_line (clean_lengthLine arg),
    List.append_assoc]
  split_ifs with hnil
  · subst hnil
    rw [List.nil_append, fields_crlf, List.nil_append]
  · rw [fields_line ⟨hnil, h⟩, List.singleton_append]

/-- **The tokens of a request** other than `mset` are its fields. -/
lemma tokens_encode {name : Str} (hclean : Clean name)
    (hname : name ≠ lit "mset" ∧ name ≠ lit "MSET") (args : List Str) :
    tokens (encode (name :: args))
      = countLine (name :: args) :: lengthLine name :: name :: fields (args.flatMap bulk) := by
  have hlines : encode (name :: args)
      = [countLine (name :: args), lengthLine name, name].flatMap (· ++ crlf)
        ++ args.flatMap bulk := by
    simp [encode, bulk]
  obtain ⟨w, hw, hfields⟩ :=
    tokens_head (clean_countLine (name :: args)) (clean_lengthLine name) hclean (args.flatMap bulk)
  rw [hlines, hw, hfields hname]
  rfl

/-! ## Requests -/

/-- The commands whose one argument is a key. -/
inductive KeyCommand where
  | get | ttl | del | keyExists | keys

/-- A request with a key argument.  The time to live of a `setex` is a number. -/
inductive Request where
  | keyed (c : KeyCommand) (key : Str)
  | auth (password : Str)
  | set (key value : Str)
  | setex (key : Str) (seconds : ℤ) (value : Str)
  | mset (pairs : List (Str × Str))
  | mget (keys : List Str)

namespace Request

/-- The command. -/
def command : Request → Command
  | keyed .get _ => .get
  | keyed .ttl _ => .ttl
  | keyed .del _ => .del
  | keyed .keyExists _ => .keyExists
  | keyed .keys _ => .keys
  | auth _ => .auth
  | set _ _ => .set
  | setex _ _ _ => .setex
  | mset _ => .mset
  | mget _ => .mget

/-- The arguments. -/
def args : Request → List Str
  | keyed _ key => [key]
  | auth password => [password]
  | set key value => [key, value]
  | setex key seconds value => [key, decimalInt seconds, value]
  | mset pairs => pairs.flatMap fun kv => [kv.1, kv.2]
  | mget keys => keys

/-- The bytes of the request, under the given name of its command. -/
def bytes (name : Str) (q : Request) : Str := encode (name :: q.args)

/-- **The handler acts on the request as sent.**  For a password this means that, whatever password
is configured, the answer is the right one. -/
def Acts (cfg : Config) (now : ℕ) (r : GentRedis) (name : Str) (q : Request) : Prop :=
  let Done (P : GentRedis → Prop) :=
    ∃ r', process cfg now r (q.bytes name) = .ok (0, [], r') ∧ r'.subc = some q.command ∧ P r'
  match q with
  | keyed _ key => Done fun r' => r'.keystr = key ∧ r'.curstatus = .CONN_DATA
  | auth password => ∀ cfg : Config, ∃ r', process cfg now r (q.bytes name)
      = .ok (0, if cfg.auth = [] ∨ password = cfg.auth then [] else lit "-ERR invalid password\r\n",
        r')
  | set key value => Done fun r' =>
      r'.keystr = key ∧ r'.content = value ∧ r'.rlbytes = value.length
  | setex key seconds value => Done fun r' =>
      r'.keystr = key ∧ r'.content = value ∧ r'.rlbytes = value.length ∧
        r'.expire = (toUInt64 seconds + now) % 2 ^ 64
  | mset pairs => Done fun r' =>
      r'.mdata.keys_values = pairs.foldl (fun d kv => d.insert kv.1 kv.2) ∅
  | mget keys => Done fun r' => r'.keyvec = keys ∧ r'.curstatus = .CONN_DATA

/-- What a client may send in one piece: the buffer is indexed by an `int`, the keys of `set` and
`setex` have less than 250 bytes, the seconds are an `int`, and `mget` has a key. -/
def Admissible (name : Str) (q : Request) : Prop :=
  (q.bytes name).length < 2 ^ 31 ∧
  match q with
  | set key _ => key.length < 250
  | setex key seconds _ => key.length < 250 ∧ -2 ^ 31 ≤ seconds ∧ seconds < 2 ^ 31
  | mget keys => keys ≠ []
  | _ => True

/-- The first field of the value, taken for a length line, spells the length of the value. -/
def SpellsLength (value : Str) : Prop :=
  ∃ line, (fields (value ++ crlf))[0]? = some line ∧ lengthOf line = value.length

/-- **The condition.** -/
def Plain : Request → Prop
  | keyed _ key => Clean key
  | auth password => Clean password
  | set key value => NoDelim key ∧ (key = [] → SpellsLength value)
  | setex key seconds value => NoDelim key ∧ (key = [] → seconds = 0 ∧ SpellsLength value)
  | mset _ => True
  | mget keys => ∀ key ∈ keys, Clean key

end Request

/-! ## Through `Process` -/

/-- A parser that waits for bytes reports nothing. -/
lemma errorText_natCast (n : ℕ) : errorText (n : ℤ) = none := by
  have hauth : authReqFail = -4 := rfl
  have hfail : authFail = -5 := rfl
  rw [errorText, if_neg (by omega), if_neg (by omega), if_neg (by omega), if_neg (by omega),
    if_neg (by omega)]

lemma errorText_ne_nil {status : ℤ} {text : Str} (h : errorText status = some text) :
    text ≠ [] := by
  unfold errorText at h
  split_ifs at h <;> obtain rfl := Option.some.inj h <;> decide

/-- A request whose third token names a command is handed to that command. -/
lemma process_eq {cfg : Config} {now : ℕ} {r : GentRedis} {data name : Str} {c : Command}
    (hname : (tokens data)[2]? = some name) (hc : commands name = some c) :
    process cfg now r data
      = (c.parser cfg now (tokens data) data { r with subc := some c }) >>= fun res =>
          match errorText res.1 with
          | some text => pure (0, text, res.2)
          | none => pure (res.1, [], res.2) := by
  have hnum : 2 < (tokens data).length := (List.getElem?_eq_some_iff.mp hname).1
  have hdata : data.length ≠ 0 := by
    intro hzero
    obtain rfl : data = [] := List.length_eq_zero_iff.mp hzero
    have htokens : tokens [] = [] := rfl
    simp [htokens] at hnum
  have hparse : parseCommand cfg now r data
      = c.parser cfg now (tokens data) data { r with subc := some c } := by
    simp only [parseCommand, split_eq, elemAt_of_eq_some hname, hc, bind, Except.bind]
    rw [if_neg hdata, if_neg (by omega), if_neg (by omega)]
  rw [← hparse]
  rfl

/-- A request without a command: nothing comes of it if it has no token at all. -/
lemma process_none {cfg : Config} {now : ℕ} {r : GentRedis} {data : Str}
    (h : (tokens data)[2]?.bind commands = none) :
    process cfg now r data
      = .ok (0, if tokens data = [] then [] else lit "-ERR unknown command\r\n", r) := by
  have hparse : parseCommand cfg now r data = .ok (if tokens data = [] then 0 else -1, r) := by
    have hempty : data.length = 0 → tokens data = [] := by
      intro hzero
      rw [List.length_eq_zero_iff.mp hzero]
      rfl
    simp only [parseCommand, split_eq, ok_bind, List.length_eq_zero_iff]
    split_ifs with hzero hnil hnum
    · rfl
    · exact absurd (hempty (by simp [hzero])) hnil
    · rfl
    · rfl
    · obtain ⟨name, hname⟩ : ∃ name, (tokens data)[2]? = some name :=
        ⟨_, List.getElem?_eq_getElem (by omega)⟩
      rw [hname, Option.bind_some] at h
      rw [elemAt_of_eq_some hname, ok_bind, h]
      rfl
  rw [process, hparse, ok_bind]
  split_ifs
  · rfl
  · rfl

/-- **What `Process` did, if it returned**: there was no command in the request, and the handler is as
it was; or the parser of the command was asked, and an error is answered. -/
lemma process_cases {cfg : Config} {now : ℕ} {r r' : GentRedis} {data outstr : Str} {status : ℤ}
    (h : process cfg now r data = .ok (status, outstr, r')) :
    r' = r ∧ status = 0 ∧ (tokens data = [] ∧ outstr = [] ∨ outstr = lit "-ERR unknown command\r\n") ∨
      ∃ c st, (tokens data)[2]?.bind commands = some c ∧
        c.parser cfg now (tokens data) data { r with subc := some c } = .ok (st, r') ∧
        (status = 0 ∧ errorText st = some outstr ∨ status = st ∧ errorText st = none ∧ outstr = []) := by
  cases hthird : (tokens data)[2]?.bind commands with
  | some c =>
      right
      obtain ⟨name, hname, hc⟩ := Option.bind_eq_some_iff.mp hthird
      rw [process_eq hname hc] at h
      obtain ⟨⟨st, r₁⟩, hparse, h⟩ := bind_eq_ok.mp h
      cases htext : errorText st with
      | some text =>
          simp only [htext] at h
          obtain ⟨rfl, hrest⟩ := Prod.mk.inj (Except.ok.inj h)
          obtain ⟨rfl, rfl⟩ := Prod.mk.inj hrest
          exact ⟨c, st, rfl, hparse, Or.inl ⟨rfl, htext⟩⟩
      | none =>
          simp only [htext] at h
          obtain ⟨rfl, hrest⟩ := Prod.mk.inj (Except.ok.inj h)
          obtain ⟨rfl, rfl⟩ := Prod.mk.inj hrest
          exact ⟨c, st, rfl, hparse, Or.inr ⟨rfl, htext, rfl⟩⟩
  | none =>
      left
      rw [process_none hthird] at h
      obtain ⟨rfl, hrest⟩ := Prod.mk.inj (Except.ok.inj h)
      obtain ⟨rfl, rfl⟩ := Prod.mk.inj hrest
      refine ⟨rfl, rfl, ?_⟩
      split_ifs with hnil
      · exact Or.inl ⟨hnil, rfl⟩
      · exact Or.inr rfl

/-- `Process` reports success exactly when the parser does. -/
lemma process_done_iff {cfg : Config} {now : ℕ} {r : GentRedis} {data name : Str} {c : Command}
    (hname : (tokens data)[2]? = some name) (hc : commands name = some c) (P : GentRedis → Prop) :
    (∃ r', process cfg now r data = .ok (0, [], r') ∧ P r') ↔
      ∃ r', c.parser cfg now (tokens data) data { r with subc := some c } = .ok (0, r') ∧ P r' := by
  rw [process_eq hname hc]
  constructor
  · rintro ⟨r', hr', hP⟩
    cases hres : c.parser cfg now (tokens data) data { r with subc := some c } with
    | error f => simp [hres, bind, Except.bind] at hr'
    | ok res =>
        cases htext : errorText res.1 with
        | some text =>
            simp only [hres, htext, bind, Except.bind, pure, Except.pure, Except.ok.injEq,
              Prod.mk.injEq] at hr'
            exact absurd hr'.2.1 (errorText_ne_nil htext)
        | none =>
            simp only [hres, htext, bind, Except.bind, pure, Except.pure, Except.ok.injEq,
              Prod.mk.injEq, true_and] at hr'
            obtain ⟨status, r''⟩ := res
            obtain ⟨rfl, rfl⟩ := hr'
            exact ⟨r'', rfl, hP⟩
  · rintro ⟨r', hr', hP⟩
    exact ⟨r', by rw [hr']; rfl, hP⟩

/-! ## What the parsers leave alone -/

/-- What a parser leaves alone: the command, the pairs of an `mset` if it is another one, and an
authentication that there is. -/
structure Keeps (c : Command) (r r' : GentRedis) : Prop where
  subc : r'.subc = r.subc
  mdata : c ≠ .mset → r'.mdata = r.mdata
  auth : r.auth = true → r'.auth = true

section Keeps

variable {cfg : Config} {now : ℕ} {v : List Str} {data : Str} {r r' : GentRedis} {st : ℤ} {c : Command}

lemma keeps_withAuth {body : GentRedis → Parsed}
    (hbody : ∀ a, body { r with auth := a } = .ok (st, r') → Keeps c { r with auth := a } r')
    (h : withAuth cfg r body = .ok (st, r')) : Keeps c r r' := by
  unfold withAuth at h
  split_ifs at h with hauth hopen
  · exact hbody r.auth h
  · obtain ⟨hsub, hmdata, hkeep⟩ := hbody true h
    exact ⟨hsub, hmdata, fun _ => hkeep rfl⟩
  · obtain ⟨-, rfl⟩ := Prod.mk.inj (Except.ok.inj h)
    exact ⟨rfl, fun _ => rfl, id⟩

/-- A result that differs in other fields only. -/
lemma keeps_ok {r₁ : GentRedis} {st₁ : ℤ} (h : (.ok (st₁, r₁) : Parsed) = .ok (st, r'))
    (hkeep : Keeps c r r₁) : Keeps c r r' := by
  obtain ⟨-, rfl⟩ := Prod.mk.inj (Except.ok.inj h)
  exact hkeep

lemma keeps_keyParser {wrong : ℤ} (h : keyParser wrong cfg v r = .ok (st, r')) : Keeps c r r' := by
  refine keeps_withAuth (fun a h => ?_) h
  split_ifs at h
  · exact keeps_ok h ⟨rfl, fun _ => rfl, id⟩
  · obtain ⟨key, -, h⟩ := bind_eq_ok.mp h
    exact keeps_ok h ⟨rfl, fun _ => rfl, id⟩

lemma keeps_plainParser (h : plainParser cfg r = .ok (st, r')) : Keeps c r r' := by
  refine keeps_withAuth (fun a h => ?_) h
  exact keeps_ok h ⟨rfl, fun _ => rfl, id⟩

lemma keeps_takeContent {i pos : ℕ} (h : takeContent v i data pos r = .ok (st, r')) :
    Keeps c r r' := by
  obtain ⟨line, -, h⟩ := bind_eq_ok.mp h
  obtain ⟨rlbytes, -, h⟩ := bind_eq_ok.mp h
  obtain ⟨content, -, h⟩ := bind_eq_ok.mp h
  dsimp only at h
  split_ifs at h
  · obtain ⟨cut, -, h⟩ := bind_eq_ok.mp h
    exact keeps_ok h ⟨rfl, fun _ => rfl, id⟩
  · exact keeps_ok h ⟨rfl, fun _ => rfl, id⟩

lemma keeps_valueParser {n lines : ℕ} {marks : Str} {body : ℕ → GentRedis → Parsed}
    (hbody : ∀ {pos : ℕ} {r₁ : GentRedis}, body pos r₁ = .ok (st, r') → Keeps c r₁ r')
    (h : valueParser n marks lines body cfg v data r = .ok (st, r')) : Keeps c r r' := by
  refine keeps_withAuth (fun a h => ?_) h
  dsimp only at h
  split_ifs at h
  · exact keeps_ok h ⟨rfl, fun _ => rfl, id⟩
  · obtain ⟨keystr, -, h⟩ := bind_eq_ok.mp h
    split_ifs at h
    · exact keeps_ok h ⟨rfl, fun _ => rfl, id⟩
    · cases hend : headerEnd data marks lines with
      | none =>
          rw [hend] at h
          exact keeps_ok h ⟨rfl, fun _ => rfl, id⟩
      | some pos =>
          rw [hend] at h
          obtain ⟨hsub, hmdata, hauth⟩ := hbody h
          exact ⟨hsub, hmdata, hauth⟩

lemma keeps_repAuth {msg : Str} (h : repAuth cfg v msg r = .ok r') : Keeps c r r' := by
  have hok : ∀ {r₁ : GentRedis}, (.ok r₁ : Except Fault GentRedis) = .ok r' → Keeps c r r₁ →
      Keeps c r r' := fun h hkeep => Except.ok.inj h ▸ hkeep
  unfold repAuth at h
  split_ifs at h
  · exact hok h ⟨rfl, fun _ => rfl, id⟩
  · exact hok h ⟨rfl, fun _ => rfl, id⟩
  · exact hok h ⟨rfl, fun _ => rfl, id⟩
  · obtain ⟨password, -, h⟩ := bind_eq_ok.mp h
    split_ifs at h
    · exact hok h ⟨rfl, fun _ => rfl, id⟩
    · obtain ⟨full, -, h⟩ := bind_eq_ok.mp h
      exact hok h ⟨rfl, fun _ => rfl, id⟩

/-- **The frame of the parsers.** -/
lemma Command.parser_keeps (h : c.parser cfg now v data r = .ok (st, r')) : Keeps c r r' := by
  cases c with
  | get => exact keeps_keyParser h
  | set => exact keeps_valueParser keeps_takeContent h
  | setex =>
      refine keeps_valueParser (fun {pos r₁} h => ?_) h
      obtain ⟨seconds, -, h⟩ := bind_eq_ok.mp h
      obtain ⟨hsub, hmdata, hauth⟩ := keeps_takeContent (c := .setex) h
      exact ⟨hsub, hmdata, hauth⟩
  | mset =>
      simp only [parser, GentProcessMset.parser] at h
      refine keeps_withAuth (fun a h => ?_) h
      dsimp only at h
      split_ifs at h
      · exact keeps_ok h ⟨rfl, fun hne => absurd rfl hne, id⟩
      · obtain ⟨first, -, h⟩ := bind_eq_ok.mp h
        obtain ⟨num, -, h⟩ := bind_eq_ok.mp h
        split_ifs at h
        · exact keeps_ok h ⟨rfl, fun hne => absurd rfl hne, id⟩
        · unfold msetPairs at h
          cases hend : headerEnd data first 3 with
          | none =>
              simp only [hend] at h
              exact keeps_ok h ⟨rfl, fun hne => absurd rfl hne, id⟩
          | some pos =>
              simp only [hend] at h
              obtain ⟨tail, -, h⟩ := bind_eq_ok.mp h
              obtain ⟨⟨ret, m⟩, -, h⟩ := bind_eq_ok.mp h
              refine keeps_ok h ?_
              split_ifs
              · exact ⟨rfl, fun hne => absurd rfl hne, id⟩
              · exact ⟨rfl, fun hne => absurd rfl hne, id⟩
  | auth =>
      simp only [parser, GentProcessAuth.parser] at h
      split_ifs at h
      · exact keeps_ok h ⟨rfl, fun _ => rfl, id⟩
      · obtain ⟨str, -, h⟩ := bind_eq_ok.mp h
        exact keeps_ok h ⟨rfl, fun _ => rfl, fun _ => rfl⟩
      · obtain ⟨str, -, h⟩ := bind_eq_ok.mp h
        split_ifs at h
        · exact keeps_ok h ⟨rfl, fun _ => rfl, id⟩
        · exact keeps_ok h ⟨rfl, fun _ => rfl, id⟩
  | ttl => exact keeps_keyParser h
  | mget =>
      simp only [parser, GentProcessMget.parser] at h
      refine keeps_withAuth (fun a h => ?_) h
      obtain ⟨first, -, h⟩ := bind_eq_ok.mp h
      obtain ⟨fieldNum, -, h⟩ := bind_eq_ok.mp h
      unfold mgetKeys at h
      split_ifs at h
      · exact keeps_ok h ⟨rfl, fun _ => rfl, id⟩
      · obtain ⟨keyvec, -, h⟩ := bind_eq_ok.mp h
        exact keeps_ok h ⟨rfl, fun _ => rfl, id⟩
  | randomkey => exact keeps_plainParser h
  | del => exact keeps_keyParser h
  | quit => exact keeps_ok h ⟨rfl, fun _ => rfl, id⟩
  | keys => exact keeps_keyParser h
  | keyExists => exact keeps_keyParser h
  | ping => exact keeps_plainParser h
  | info =>
      simp only [parser, GentProcessInfo.parser] at h
      refine keeps_withAuth (fun a h => ?_) h
      split_ifs at h
      · obtain ⟨keystr, -, h⟩ := bind_eq_ok.mp h
        exact keeps_ok h ⟨rfl, fun _ => rfl, id⟩
      · exact keeps_ok h ⟨rfl, fun _ => rfl, id⟩
  | rep =>
      simp only [parser, GentProcessRep.parser] at h
      split_ifs at h
      · exact keeps_ok h ⟨rfl, fun _ => rfl, id⟩
      · obtain ⟨msg, -, h⟩ := bind_eq_ok.mp h
        obtain ⟨r₁, hr₁, h⟩ := bind_eq_ok.mp h
        obtain ⟨keystr, -, h⟩ := bind_eq_ok.mp h
        obtain ⟨hsub, hmdata, hauth⟩ := keeps_repAuth (c := .rep) hr₁
        exact keeps_ok h ⟨hsub, hmdata, hauth⟩
  | reply =>
      simp only [parser, GentProcessReply.parser] at h
      refine keeps_withAuth (fun a h => ?_) h
      split_ifs at h
      · exact keeps_ok h ⟨rfl, fun _ => rfl, id⟩
      · obtain ⟨msg, -, h⟩ := bind_eq_ok.mp h
        refine keeps_ok h ?_
        split_ifs <;> exact ⟨rfl, fun _ => rfl, id⟩
  | slave =>
      simp only [parser, GentProcessSlave.parser] at h
      refine keeps_withAuth (fun a h => ?_) h
      split_ifs at h
      · exact keeps_ok h ⟨rfl, fun _ => rfl, id⟩
      · obtain ⟨word, -, h⟩ := bind_eq_ok.mp h
        split_ifs at h
        · exact keeps_ok h ⟨rfl, fun _ => rfl, id⟩
        · obtain ⟨key, -, h⟩ := bind_eq_ok.mp h
          exact keeps_ok h ⟨rfl, fun _ => rfl, id⟩

end Keeps

/-! ## Keys -/

lemma noDelim_argOf {v : List Str} (hv : ∀ t ∈ v, Clean t) (i : ℕ) : NoDelim (argOf v i) := by
  intro b hb
  have hb := List.mem_of_mem_take hb
  cases hget : v[i + 1]? with
  | none => simp [List.getD, hget] at hb
  | some t =>
      have hmem : b ∈ t := by simpa [List.getD, hget] using hb
      exact (hv t (List.mem_of_getElem? hget)).2 b hmem

/-- The argument behind a length line that is right. -/
lemma argOf_eq {v : List Str} {i : ℕ} {arg : Str} (hlen : arg.length < 2 ^ 31)
    (hline : v[i]? = some (lengthLine arg)) (harg : arg = [] ∨ v[i + 1]? = some arg) :
    argOf v i = arg := by
  have hi : v.getD i [] = lengthLine arg := by simp [List.getD, hline]
  rw [argOf, hi, lengthOf_lengthLine hlen]
  rcases harg with rfl | harg
  · simp
  · have hi' : v.getD (i + 1) [] = arg := by simp [List.getD, harg]
    rw [hi', List.take_length]

lemma mem_of_commands {name : Str} {c : Command} (h : commands name = some c) :
    (name, c) ∈ setCommands := by
  obtain ⟨l₁, l₂, heq, -⟩ := List.lookup_eq_some_iff.mp h
  simp [heq]

/-- The names of the commands are tokens. -/
lemma clean_of_commands {name : Str} {c : Command} (h : commands name = some c) : Clean name :=
  (show ∀ p ∈ setCommands, Clean p.1 by decide) _ (mem_of_commands h)

/-- Only `mset` has a name that `Split` looks for. -/
lemma name_ne_mset {name : Str} {c : Command} (h : commands name = some c) (hc : c ≠ .mset) :
    name ≠ lit "mset" ∧ name ≠ lit "MSET" :=
  (show ∀ p ∈ setCommands, p.2 ≠ .mset → p.1 ≠ lit "mset" ∧ p.1 ≠ lit "MSET" by decide) _
    (mem_of_commands h) hc

/-- An encoding is longer than its arguments, and than many times their number. -/
lemma length_flatMap_bulk : ∀ (args : List Str),
    (∀ arg ∈ args, arg.length ≤ (args.flatMap bulk).length) ∧
      6 * args.length ≤ (args.flatMap bulk).length
  | [] => by simp
  | arg :: args => by
      obtain ⟨hmem, hnum⟩ := length_flatMap_bulk args
      have hbulk : arg.length + 6 ≤ (bulk arg).length := by
        have := decimal_length_pos arg.length
        simp only [bulk, lengthLine, crlf, lit, List.length_append, List.length_map]
        simp
        omega
      refine ⟨fun a ha => ?_, ?_⟩
      · rw [List.flatMap_cons, List.length_append]
        rcases List.mem_cons.mp ha with rfl | ha
        · omega
        · have := hmem a ha
          omega
      · rw [List.flatMap_cons, List.length_append, List.length_cons]
        omega

lemma length_of_mem_encode {args : List Str} {arg : Str} (h : arg ∈ args)
    (hlen : (encode args).length < 2 ^ 31) : arg.length < 2 ^ 31 := by
  have := (length_flatMap_bulk args).1 arg h
  simp only [encode, List.length_append] at hlen
  omega

lemma length_of_encode {args : List Str} (hlen : (encode args).length < 2 ^ 31) :
    args.length * 2 + 1 < 2 ^ 31 := by
  have := (length_flatMap_bulk args).2
  have := decimal_length_pos args.length
  simp only [encode, countLine, List.length_append] at hlen
  omega

section Keyed

variable {name key : Str} {c : Command}

/-- The tokens of a request with one argument that has no delimiters. -/
lemma tokens_keyed (hc : commands name = some c) (hmset : c ≠ .mset) (hkey : NoDelim key) :
    tokens (encode [name, key])
      = [countLine [name, key], lengthLine name, name, lengthLine key]
        ++ if key = [] then [] else [key] := by
  have hnil : fields [] = [] := fields_of_clean (by simp)
  have hfields := fields_bulk hkey []
  rw [List.append_nil, hnil, List.append_nil] at hfields
  rw [tokens_encode (clean_of_commands hc) (name_ne_mset hc hmset), List.flatMap_cons,
    List.flatMap_nil, List.append_nil, hfields]
  rfl

/-- **The one argument is found** where the parsers look for it exactly when it is a token. -/
lemma keyed_iff (hc : commands name = some c) (hmset : c ≠ .mset) (hlen : key.length < 2 ^ 31) :
    ((tokens (encode [name, key])).length = 5 ∧ argOf (tokens (encode [name, key])) 3 = key)
      ↔ Clean key := by
  constructor
  · rintro ⟨hnum, harg⟩
    have hdelim : NoDelim key := by
      rw [← harg]
      exact noDelim_argOf (fun t ht => clean_of_mem_tokens ht) 3
    refine ⟨?_, hdelim⟩
    rintro rfl
    rw [tokens_keyed hc hmset hdelim] at hnum
    simp at hnum
  · intro hclean
    rw [tokens_keyed hc hmset hclean.2, if_neg hclean.1]
    exact ⟨rfl, argOf_eq hlen rfl (Or.inr rfl)⟩

end Keyed

/-- The first and the third token of a request, whatever follows. -/
lemma tokens_front {name : Str} {args : List Str} {c : Command} (hc : commands name = some c) :
    (tokens (encode (name :: args)))[0]? = some (countLine (name :: args)) ∧
      (tokens (encode (name :: args)))[2]? = some name := by
  have hlines : encode (name :: args)
      = [countLine (name :: args), lengthLine name, name].flatMap (· ++ crlf)
        ++ args.flatMap bulk := by
    simp [encode, bulk]
  obtain ⟨v, hv, -⟩ := tokens_head (clean_countLine (name :: args)) (clean_lengthLine name)
    (clean_of_commands hc) (args.flatMap bulk)
  rw [hlines, hv]
  exact ⟨rfl, rfl⟩

/-- The parser of the five commands. -/
lemma keyParser_iff {wrong : ℤ} (hwrong : wrong ≠ 0) {cfg : Config} {r : GentRedis}
    (hauth : Authed cfg r) {data key : Str} {sub : Option Command} :
    (∃ r', keyParser wrong cfg (tokens data) { r with subc := sub } = .ok (0, r') ∧
        r'.subc = sub ∧ r'.keystr = key ∧ r'.curstatus = .CONN_DATA) ↔
      (tokens data).length = 5 ∧ argOf (tokens data) 3 = key := by
  have hauth' : Authed cfg { r with subc := sub } := hauth
  have hv : ∀ t ∈ tokens data, Clean t := fun t ht => clean_of_mem_tokens ht
  rw [keyParser, withAuth_eq hauth']
  by_cases hnum : (tokens data).length = 5
  · rw [if_neg (by simp [hnum]), tokenArg_eq hv (by omega)]
    constructor
    · rintro ⟨r', hr', -, hkey, -⟩
      simp only [bind, Except.bind, pure, Except.pure, Except.ok.injEq, Prod.mk.injEq, true_and]
        at hr'
      subst hr'
      exact ⟨hnum, hkey⟩
    · rintro ⟨-, hkey⟩
      exact ⟨_, rfl, rfl, hkey, rfl⟩
  · rw [if_pos hnum]
    constructor
    · rintro ⟨r', hr', -⟩
      simp only [pure, Except.pure, Except.ok.injEq, Prod.mk.injEq] at hr'
      exact absurd hr'.1 hwrong
    · rintro ⟨h5, -⟩
      exact absurd h5 hnum

namespace Request

variable {cfg : Config} {now : ℕ} {r : GentRedis} {name : Str}

/-- The five commands have one parser; they differ in the code of a wrong number of tokens. -/
lemma keyed_parser_eq (c : KeyCommand) (key : Str) : ∃ wrong : ℤ, wrong ≠ 0 ∧
    ∀ cfg now v data r, (keyed c key).command.parser cfg now v data r = keyParser wrong cfg v r := by
  cases c with
  | get => exact ⟨-1, by decide, fun _ _ _ _ _ => rfl⟩
  | ttl => exact ⟨-1, by decide, fun _ _ _ _ _ => rfl⟩
  | del => exact ⟨-1, by decide, fun _ _ _ _ _ => rfl⟩
  | keyExists => exact ⟨-1, by decide, fun _ _ _ _ _ => rfl⟩
  | keys => exact ⟨-2, by decide, fun _ _ _ _ _ => rfl⟩

lemma keyed_acts_iff (hauth : Authed cfg r) {c : KeyCommand} {key : Str}
    (hc : commands name = some (keyed c key).command)
    (hlen : ((keyed c key).bytes name).length < 2 ^ 31) :
    (keyed c key).Acts cfg now r name ↔ Clean key := by
  have hmset : (keyed c key).command ≠ .mset := by cases c <;> exact nofun
  have hkey : key.length < 2 ^ 31 := length_of_mem_encode (by simp [args]) hlen
  show (∃ r', process cfg now r (encode [name, key]) = .ok (0, [], r') ∧ _) ↔ _
  rw [process_done_iff (tokens_front hc).2 hc, ← keyed_iff hc hmset hkey]
  obtain ⟨wrong, hwrong, hparser⟩ := keyed_parser_eq c key
  rw [hparser]
  exact keyParser_iff hwrong hauth

lemma auth_acts_iff {password : Str} (hc : commands name = some .auth)
    (hlen : ((auth password).bytes name).length < 2 ^ 31) :
    (auth password).Acts cfg now r name ↔ Clean password := by
  have hpw : password.length < 2 ^ 31 := length_of_mem_encode (by simp [args]) hlen
  have hv : ∀ t ∈ tokens (encode [name, password]), Clean t := fun t ht => clean_of_mem_tokens ht
  rw [← keyed_iff hc nofun hpw]
  show (∀ cfg : Config, ∃ r', process cfg now r (encode [name, password]) = _) ↔ _
  constructor
  · intro h
    -- it is enough to look at the server that has this very password
    obtain ⟨r', hr'⟩ := h ⟨password, []⟩
    rw [if_pos (Or.inr rfl)] at hr'
    obtain ⟨r', hr', -⟩ := (process_done_iff (tokens_front hc).2 hc fun _ => True).mp
      ⟨r', hr', trivial⟩
    simp only [Command.parser, GentProcessAuth.parser] at hr'
    by_cases hnum : (tokens (encode [name, password])).length = 5
    · refine ⟨hnum, ?_⟩
      rw [if_neg (not_not.mpr hnum), tokenArg_eq hv (by omega)] at hr'
      by_contra hne
      have hpw : password ≠ [] := by
        rintro rfl
        rw [tokens_keyed hc nofun (by simp [NoDelim])] at hnum
        simp at hnum
      simp only [bind, Except.bind, if_neg hpw, if_pos hne, pure, Except.pure, Except.ok.injEq,
        Prod.mk.injEq, authFail] at hr'
      omega
    · rw [if_pos hnum] at hr'
      simp only [pure, Except.pure, Except.ok.injEq, Prod.mk.injEq] at hr'
      omega
  · rintro ⟨hnum, harg⟩ cfg
    rw [process_eq (tokens_front hc).2 hc]
    simp only [Command.parser, GentProcessAuth.parser, if_neg (not_not.mpr hnum),
      tokenArg_eq hv (show 3 + 1 < _ by omega), harg, bind, Except.bind]
    by_cases hopen : cfg.auth = []
    · simp only [hopen, if_true, true_or]
      exact ⟨_, rfl⟩
    · by_cases hpw : password = cfg.auth
      · simp only [hopen, hpw, ne_eq, not_true, if_false, or_true, if_true]
        exact ⟨_, rfl⟩
      · simp only [hopen, hpw, ne_eq, not_false_eq_true, if_true, if_false, or_self]
        exact ⟨_, rfl⟩

end Request

/-! ## Values -/

/-- What follows the lines of a header is where the header ends. -/
lemma headerEnd_of_lines {data marks : Str} (lines : List Str) (s : Str)
    (hdata : data = lines.flatMap (· ++ crlf) ++ s) (hlines : ∀ l ∈ lines, NoDelim l)
    (hmark : ∃ b t, data = b :: t ∧ b ∈ marks) :
    ∃ pos, headerEnd data marks lines.length = some pos ∧ pos ≤ data.length ∧
      data.drop pos = s := by
  obtain ⟨b, t, hbt, hb⟩ := hmark
  have hfind : findFirstOf data marks 0 = some 0 := by
    rw [hbt]
    exact findFirstOf_zero (a := []) (by simp) hb
  refine ⟨(lines.flatMap (· ++ crlf)).length, ?_, ?_, ?_⟩
  · rw [headerEnd, hfind, Option.bind_some, hdata]
    exact skipLines_lines s lines hlines
  · rw [hdata, List.length_append]
    omega
  · rw [hdata, List.drop_left]

/-- The lines in front of the last argument. -/
def headLines (args : List Str) (value : Str) : List Str :=
  countLine (args ++ [value]) :: (args.flatMap fun a => [lengthLine a, a]) ++ [lengthLine value]

lemma flatMap_bulk (args : List Str) :
    args.flatMap bulk = (args.flatMap fun a => [lengthLine a, a]).flatMap (· ++ crlf) := by
  simp only [List.flatMap_assoc, List.flatMap_cons, List.flatMap_nil, List.append_nil,
    List.append_assoc]
  rfl

lemma encode_headLines (args : List Str) (value : Str) :
    encode (args ++ [value]) = (headLines args value).flatMap (· ++ crlf) ++ (value ++ crlf) := by
  simp [encode, headLines, flatMap_bulk, bulk]

/-- **The value is found behind its header**, if no argument before it has a delimiter. -/
lemma headerEnd_encode {args : List Str} (hargs : ∀ a ∈ args, NoDelim a) (value : Str) {marks : Str}
    (hmarks : 42 ∈ marks) :
    ∃ pos, headerEnd (encode (args ++ [value])) marks (2 * args.length + 2) = some pos ∧
      pos ≤ (encode (args ++ [value])).length ∧
      (encode (args ++ [value])).drop pos = value ++ crlf := by
  have hlines : ∀ l ∈ headLines args value, NoDelim l := by
    intro l hl
    simp only [headLines, List.cons_append, List.mem_cons, List.mem_append, List.mem_flatMap,
      List.not_mem_nil, or_false] at hl
    rcases hl with rfl | ⟨a, ha, rfl | rfl⟩ | rfl
    · exact (clean_countLine _).2
    · exact (clean_lengthLine _).2
    · exact hargs _ ha
    · exact (clean_lengthLine _).2
  have hlen : (headLines args value).length = 2 * args.length + 2 := by
    simp [headLines]
    omega
  rw [← hlen]
  exact headerEnd_of_lines _ _ (encode_headLines args value) hlines ⟨42, _, rfl, hmarks⟩

section Content

variable {v : List Str} {i pos : ℕ} {data value line s : Str} {r r' : GentRedis}

/-- **What is taken for the value**: as many of the bytes behind the header as the length line says.
The status is the number of bytes that are missing. -/
lemma takeContent_take (hline : v[i]? = some line) (hne : line ≠ []) (hpos : pos ≤ data.length)
    (hdata : data.drop pos = s) :
    takeContent v i data pos r
      = .ok (toInt32 (lengthOf line - s.length : ℕ),
          { r with content := s.take (lengthOf line), rlbytes := lengthOf line }) := by
  simp only [takeContent, elemAt_of_eq_some hline, getLength_eq hne, substrFrom_of_le hpos,
    substr_of_le hpos, hdata, bind, Except.bind, pure, Except.pure]
  split_ifs with hlt
  · rw [Nat.sub_eq_zero_of_le (by omega)]
    rfl
  · rw [List.take_of_length_le (by omega), Nat.cast_sub (by omega)]

/-- A value with its delimiter still behind it is taken as a whole if its length is right. -/
lemma takeContent_eq (hline : v[i]? = some line) (hne : line ≠ [])
    (hlen : lengthOf line = value.length) (hpos : pos ≤ data.length)
    (hdata : data.drop pos = value ++ crlf) :
    takeContent v i data pos r
      = .ok (0, { r with content := value, rlbytes := value.length }) := by
  have hnone : value.length - (value ++ crlf).length = 0 := by simp
  rw [takeContent_take hline hne hpos hdata, hlen, List.take_left, hnone]
  rfl

/-- Whatever is taken, it is what the length line says. -/
lemma takeContent_spec {status : ℤ} (hv : ∀ t ∈ v, Clean t)
    (h : takeContent v i data pos r = .ok (status, r')) :
    ∃ line, v[i]? = some line ∧ status = toInt32 (lengthOf line - (data.drop pos).length : ℕ) ∧
      r' = { r with content := (data.drop pos).take (lengthOf line), rlbytes := lengthOf line } := by
  obtain ⟨hi, hpos⟩ := (runs_takeContent hv r).mp ⟨_, h⟩
  have hline : v[i]? = some (v.get ⟨i, hi⟩) := by simp [hi]
  rw [takeContent_take hline (hv _ (List.get_mem _ _)).1 hpos rfl,
    Except.ok.injEq, Prod.mk.injEq] at h
  exact ⟨_, hline, h.1.symm, h.2.symm⟩

variable {cfg : Config} {n lines : ℕ} {marks : Str} {body : ℕ → GentRedis → Parsed}

/-- There is no other way to success. -/
lemma valueParser_done (hauth : Authed cfg r) (hv : ∀ t ∈ v, Clean t) (hn : 5 ≤ n)
    (h : valueParser n marks lines body cfg v data r = .ok (0, r')) :
    n ≤ v.length ∧ ∃ pos,
      body pos { r with auth := true, curstatus := .CONN_NREAD, keystr := argOf v 3 }
        = .ok (0, r') := by
  rcases valueParser_cases marks lines body data hauth hv hn with
    ⟨-, code, r₁, hcode, heq⟩ | ⟨pos, hnum, -, -, heq⟩
  · have hzero : code = 0 := (Prod.mk.inj (Except.ok.inj (heq.symm.trans h))).1
    omega
  · exact ⟨hnum, pos, heq.symm.trans h⟩

end Content

/-- The last argument: its length line, and then whatever fields it has. -/
lemma fields_last (value : Str) :
    fields (bulk value) = lengthLine value :: fields (value ++ crlf) := by
  rw [bulk, fields_line (clean_lengthLine value)]

namespace Request

variable {cfg : Config} {now : ℕ} {r : GentRedis} {name : Str}

lemma tokens_set {key value : Str} (hc : commands name = some .set) (hkey : NoDelim key) :
    tokens ((set key value).bytes name)
      = countLine [name, key, value] :: lengthLine name :: name :: lengthLine key ::
        ((if key = [] then [] else [key]) ++ lengthLine value :: fields (value ++ crlf)) := by
  rw [bytes, args, tokens_encode (clean_of_commands hc) (name_ne_mset hc nofun), List.flatMap_cons,
    fields_bulk hkey, List.flatMap_cons, List.flatMap_nil, List.append_nil, fields_last]

lemma set_acts_iff (hauth : Authed cfg r) {key value : Str} (hc : commands name = some .set)
    (hadm : (set key value).Admissible name) :
    (set key value).Acts cfg now r name ↔ (set key value).Plain := by
  obtain ⟨hlen, h250⟩ := hadm
  have hauth' : Authed cfg { r with subc := some .set } := hauth
  have hkeylen : key.length < 2 ^ 31 := length_of_mem_encode (by simp [args]) hlen
  have hvallen : value.length < 2 ^ 31 := length_of_mem_encode (by simp [args]) hlen
  have hv : ∀ t ∈ tokens ((set key value).bytes name), Clean t := fun t ht => clean_of_mem_tokens ht
  have htwo : (tokens ((set key value).bytes name))[2]? = some name := (tokens_front hc).2
  show (∃ r', process cfg now r ((set key value).bytes name) = .ok (0, [], r') ∧ _) ↔ _
  rw [process_done_iff htwo hc]
  constructor
  · rintro ⟨r', hr', -, hkey, -, hrl⟩
    obtain ⟨hnum, pos, hr'⟩ := valueParser_done hauth' hv le_rfl hr'
    obtain ⟨line, hline, -, rfl⟩ := takeContent_spec hv hr'
    have hdelim : NoDelim key := by
      rw [← hkey]
      exact noDelim_argOf hv 3
    refine ⟨hdelim, ?_⟩
    rintro rfl
    rw [tokens_set hc hdelim] at hline
    exact ⟨line, hline, hrl⟩
  · rintro ⟨hdelim, hspell⟩
    have htok : tokens ((set key value).bytes name) = _ := tokens_set hc hdelim
    have harg : argOf (tokens ((set key value).bytes name)) 3 = key := by
      refine argOf_eq hkeylen (by rw [htok]; rfl) ?_
      by_cases hnil : key = []
      · exact Or.inl hnil
      · exact Or.inr (by rw [htok, if_neg hnil]; rfl)
    obtain ⟨line, hline, hlength⟩ : ∃ line,
        (tokens ((set key value).bytes name))[5]? = some line ∧ lengthOf line = value.length := by
      by_cases hnil : key = []
      · rw [htok, if_pos hnil]
        exact hspell hnil
      · exact ⟨lengthLine value, by rw [htok, if_neg hnil]; rfl, lengthOf_lengthLine hvallen⟩
    obtain ⟨pos, hend, hpos, hdrop⟩ := headerEnd_encode
      (show ∀ a ∈ [name, key], NoDelim a by simpa using ⟨(clean_of_commands hc).2, hdelim⟩) value
      (show 42 ∈ lit "*3" by decide)
    have hnum : 5 ≤ (tokens ((set key value).bytes name)).length := by
      have := (List.getElem?_eq_some_iff.mp hline).1
      omega
    have hparse := valueParser_eq (takeContent (tokens ((set key value).bytes name)) 5
      ((set key value).bytes name)) hauth' hv le_rfl hnum (by rw [harg]; exact h250) hend
    have hcontent := hparse.trans
      (takeContent_eq hline (hv line (List.mem_of_getElem? hline)).1 hlength hpos hdrop)
    exact ⟨_, hcontent, rfl, harg, rfl, rfl⟩

/-- The seconds are a token. -/
lemma clean_decimalInt (x : ℤ) : Clean (decimalInt x) := by
  unfold decimalInt
  split_ifs
  · exact clean_numberLine 45 (by decide) _
  · exact ⟨decimal_ne_nil _, noDelim_decimal _⟩

lemma tokens_setex {key value : Str} {seconds : ℤ} (hc : commands name = some .setex)
    (hkey : NoDelim key) :
    tokens ((setex key seconds value).bytes name)
      = countLine [name, key, decimalInt seconds, value] :: lengthLine name :: name ::
        lengthLine key :: ((if key = [] then [] else [key]) ++ lengthLine (decimalInt seconds) ::
          decimalInt seconds :: lengthLine value :: fields (value ++ crlf)) := by
  rw [bytes, args, tokens_encode (clean_of_commands hc) (name_ne_mset hc nofun), List.flatMap_cons,
    fields_bulk hkey, List.flatMap_cons, fields_bulk (clean_decimalInt seconds).2,
    if_neg (clean_decimalInt seconds).1, List.flatMap_cons, List.flatMap_nil, List.append_nil,
    fields_last]
  rfl

/-- What `atoi` makes of a length line, type byte and all. -/
lemma atoi_lengthLine (arg : Str) : atoi (lengthLine arg) = 0 := by
  have hdigits : signedDigits (lengthLine arg) = (false, 0) := by
    have hc : cstr (lengthLine arg) = 36 :: cstr (decimal arg.length) := rfl
    rw [signedDigits, hc]
    rfl
  rw [atoi, strtol, hdigits]
  rfl

lemma setex_acts_iff (hauth : Authed cfg r) {key value : Str} {seconds : ℤ}
    (hc : commands name = some .setex) (hadm : (setex key seconds value).Admissible name) :
    (setex key seconds value).Acts cfg now r name ↔ (setex key seconds value).Plain := by
  obtain ⟨hlen, h250, hlo, hhi⟩ := hadm
  have hauth' : Authed cfg { r with subc := some .setex } := hauth
  have hkeylen : key.length < 2 ^ 31 := length_of_mem_encode (by simp [args]) hlen
  have hvallen : value.length < 2 ^ 31 := length_of_mem_encode (by simp [args]) hlen
  set data := (setex key seconds value).bytes name
  have hv : ∀ t ∈ tokens data, Clean t := fun t ht => clean_of_mem_tokens ht
  have htwo : (tokens data)[2]? = some name := (tokens_front hc).2
  show (∃ r', process cfg now r data = .ok (0, [], r') ∧ _) ↔ _
  rw [process_done_iff htwo hc]
  constructor
  · rintro ⟨r', hr', -, hkey, -, hrl, hexp⟩
    obtain ⟨hnum, pos, hr'⟩ := valueParser_done hauth' hv (show 5 ≤ 7 by decide) hr'
    obtain ⟨sec, hsec⟩ : ∃ sec, (tokens data)[6]? = some sec :=
      ⟨_, List.getElem?_eq_getElem (by omega)⟩
    rw [takeExpire, elemAt_of_eq_some hsec] at hr'
    obtain ⟨line, hline, -, rfl⟩ := takeContent_spec hv hr'
    have hdelim : NoDelim key := by
      rw [← hkey]
      exact noDelim_argOf hv 3
    refine ⟨hdelim, ?_⟩
    rintro rfl
    have htok : tokens data = _ := tokens_setex hc hdelim
    rw [htok] at hline hsec
    obtain rfl : lengthLine value = sec := Option.some.inj hsec
    refine ⟨?_, line, hline, hrl⟩
    simp only [atoi_lengthLine, toUInt64] at hexp
    omega
  · rintro ⟨hdelim, hspell⟩
    have htok : tokens data = _ := tokens_setex hc hdelim
    have harg : argOf (tokens data) 3 = key := by
      refine argOf_eq hkeylen (by rw [htok]; rfl) ?_
      by_cases hnil : key = []
      · exact Or.inl hnil
      · exact Or.inr (by rw [htok, if_neg hnil]; rfl)
    obtain ⟨sec, hsec, hval⟩ : ∃ sec, (tokens data)[6]? = some sec ∧ atoi sec = seconds := by
      by_cases hnil : key = []
      · refine ⟨lengthLine value, by rw [htok, if_pos hnil]; rfl, ?_⟩
        rw [atoi_lengthLine, (hspell hnil).1]
      · exact ⟨decimalInt seconds, by rw [htok, if_neg hnil]; rfl, atoi_decimalInt hlo hhi⟩
    obtain ⟨line, hline, hlength⟩ : ∃ line,
        (tokens data)[7]? = some line ∧ lengthOf line = value.length := by
      by_cases hnil : key = []
      · rw [htok, if_pos hnil]
        exact (hspell hnil).2
      · exact ⟨lengthLine value, by rw [htok, if_neg hnil]; rfl, lengthOf_lengthLine hvallen⟩
    obtain ⟨pos, hend, hpos, hdrop⟩ := headerEnd_encode
      (show ∀ a ∈ [name, key, decimalInt seconds], NoDelim a by
        simpa using ⟨(clean_of_commands hc).2, hdelim, (clean_decimalInt seconds).2⟩) value
      (show 42 ∈ lit "*4" by decide)
    have hnum : 7 ≤ (tokens data).length := by
      have := (List.getElem?_eq_some_iff.mp hline).1
      omega
    have hparse := valueParser_eq (takeExpire now (tokens data) data) hauth' hv
      (show 5 ≤ 7 by decide) hnum (by rw [harg]; exact h250) hend
    rw [takeExpire, elemAt_of_eq_some hsec] at hparse
    have hcontent := hparse.trans
      (takeContent_eq hline (hv line (List.mem_of_getElem? hline)).1 hlength hpos hdrop)
    exact ⟨_, hcontent, rfl, harg, rfl, rfl, by rw [hval]⟩

end Request

end Riser
