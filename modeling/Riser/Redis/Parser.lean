import Riser.Store.GentDb

/-!
# The request parser

A request is a RESP array, `*2\r\n$3\r\nget\r\n$1\r\nk\r\n`, and this file is how `GentRedis` takes
it apart.  Two strategies live side by side:

* `split` cuts the bytes at every CR **or** LF, steps over **two** bytes per delimiter whatever the
  second is, and drops empty fields.  Every command finds its arguments at fixed positions of the
  resulting list.
* The pairs of an `mset` are read by their length prefixes (`itemParser`), and the value of a `set`
  or `setex` is what follows a number of delimiters counted on the raw bytes (`skipLines`).

Everything that can throw or index past the end of a vector is in `Except Fault`, because nothing
in the server catches it.  `size_t` and `int` arithmetic wraps where the source lets it: a length
prefix goes through `atoi` and then to `uint64_t`, so `$-1` is a length of `2 ^ 64 - 1`.

The handler of a connection and the part of the connection it writes, its `curstatus`, are one
record here.
-/

namespace Riser

open Cpp

/-- The delimiters. -/
def crlf : Str := lit "\r\n"

/-- `Status::connst`. -/
inductive Status where
  | CONN_READ
  | CONN_NREAD
  | CONN_WRITE
  | CONN_WAIT
  | CONN_CLOSE
  | CONN_DATA
  | CONN_CONREAD
  deriving DecidableEq, Repr

/-- `mset_data`: an `mset` that may still wait for bytes.  The `cur_` fields are what is known of
the pair being read. -/
structure MsetData where
  keys_values : LevelDb
  content : Str
  cur_key : Str
  cur_key_end : ℕ
  cur_content_len : ℕ
  cur_content_start : ℕ
  totalSetNum : ℤ
  setNum : ℤ

/-- `mset_data::set`: a pair is complete. -/
def MsetData.set (m : MsetData) : MsetData :=
  { m with
    setNum := m.setNum - 1
    cur_key := []
    cur_key_end := 0
    cur_content_start := 0
    cur_content_len := 0
    content := [] }

/-- The registered commands. -/
inductive Command where
  | get | set | setex | mset | auth | ttl | mget | randomkey | del | quit | keys | keyExists | ping
  | info | rep | reply | slave
  deriving DecidableEq, Repr

/-- What the parsers read of the configuration. -/
structure Config where
  auth : Str
  master_auth : Str

/-- `class GentRedis`, with `curstatus` of its connection, and `slave_continue` for the call
`SlaveSetStatus(CONTINUE)` on the slave side's manager. -/
structure GentRedis where
  auth : Bool
  master_auth : Bool
  keystr : Str
  mdata : MsetData
  keyvec : List Str
  content : Str
  repmsg : Str
  subc : Option Command
  rlbytes : ℕ
  expire : ℕ
  is_sync_all : Bool
  curstatus : Status
  slave_continue : Bool

/-- `AUTH_REQ_FAIL`, `AUTH_FAIL` and `MGET_REQ`. -/
def authReqFail : ℤ := -4
def authFail : ℤ := -5
def mgetReq : ℤ := -6

/-! ## Cutting a request -/

/-- The test that ends `Split` early. -/
def isMset (v : List Str) : Except Fault Bool := do
  if v.length = 10 then
    let name ← elemAt v 2
    return decide (name = lit "mset" ∨ name = lit "MSET")
  else return false

/-- The loop of `GentRedis::Split`.  The fuel only has to outlast the bytes, since every turn moves
`last_pos` on. -/
def splitLoop (str : Str) : ℕ → ℕ → List Str → Except Fault (List Str)
  | 0, _, v => .ok v
  | fuel + 1, last_pos, v =>
      match findFirstOf str crlf last_pos with
      | none => .ok v
      | some pos => do
          let (v, last_pos) ← if pos = last_pos then pure (v, last_pos + 2)
            else do pure (v ++ [← substr str last_pos (pos - last_pos)], pos + 2)
          if ← isMset v then return v
          splitLoop str fuel last_pos v

/-- `GentRedis::Split` with delimiters `"\r\n"`. -/
def split (str : Str) : Except Fault (List Str) := splitLoop str (str.length + 1) 0 []

/-- `GetLength`: the number after the type byte. -/
def getLength (str : Str) : Except Fault ℕ := do
  return toUInt64 (atoi (← substrFrom str 1))

/-- `tokenList[i + 1].substr(0, GetLength(tokenList[i]))`. -/
def tokenArg (tokenList : List Str) (i : ℕ) : Except Fault Str := do
  let len ← getLength (← elemAt tokenList i)
  substr (← elemAt tokenList (i + 1)) 0 len

/-- The position after `n` delimiters, two bytes taken for each. -/
def skipLines (data : Str) : ℕ → ℕ → Option ℕ
  | 0, pos => some pos
  | n + 1, pos => (findFirstOf data crlf pos).bind fun p => skipLines data n (p + 2)

/-- Where the last argument of a `set`, `setex` or `mset` is looked for: `n` delimiters after the
first byte that is one of `marks`. -/
def headerEnd (data marks : Str) (n : ℕ) : Option ℕ :=
  (findFirstOf data marks 0).bind (skipLines data n)

/-! ## The commands -/

/-- A parser returns the status and leaves the handler changed. -/
abbrev Parsed := Except Fault (ℤ × GentRedis)

/-- `GentSubCommand::IsAuth` in front of a parser. -/
def withAuth (cfg : Config) (r : GentRedis) (body : GentRedis → Parsed) : Parsed :=
  if r.auth then body r
  else if cfg.auth = [] then body { r with auth := true }
  else .ok (authReqFail, r)

/-- The parser of a command whose one argument is a key. -/
def keyParser (wrong : ℤ) (cfg : Config) (tokenList : List Str) (r : GentRedis) : Parsed :=
  withAuth cfg r fun r => do
    if tokenList.length ≠ 5 then return (wrong, r)
    return (0, { r with curstatus := .CONN_DATA, keystr := ← tokenArg tokenList 3 })

def GentProcessGet.parser := keyParser (-1)
def GentProcessTtl.parser := keyParser (-1)
def GentProcessDel.parser := keyParser (-1)
def GentProcessExists.parser := keyParser (-1)
def GentProcessKeys.parser := keyParser (-2)

/-- The end of the parsers of `set` and `setex`: the value starts at `pos`, and its length is token
`i`.  The result is the number of bytes still to come. -/
def takeContent (tokenList : List Str) (i : ℕ) (data : Str) (pos : ℕ) (r : GentRedis) : Parsed := do
  let rlbytes ← getLength (← elemAt tokenList i)
  let content ← substrFrom data pos
  let r := { r with content := content, rlbytes := rlbytes }
  if rlbytes < content.length then
    return (0, { r with content := ← substr data pos rlbytes })
  return (toInt32 (rlbytes - content.length), r)

/-- The parser of a command that stores a value under a key: at least `n` tokens, a key of less than
250 bytes, and `lines` delimiters in front of the value, at which `body` goes on. -/
def valueParser (n : ℕ) (marks : Str) (lines : ℕ) (body : ℕ → GentRedis → Parsed) (cfg : Config)
    (tokenList : List Str) (data : Str) (r : GentRedis) : Parsed :=
  withAuth cfg r fun r => do
    let r := { r with curstatus := .CONN_NREAD }
    if tokenList.length < n then return (-1, r)
    let keystr ← tokenArg tokenList 3
    let r := { r with keystr := keystr }
    if 250 ≤ keystr.length then return (-3, r)
    match headerEnd data marks lines with
    | none => return (-1, r)
    | some pos => body pos r

def GentProcessSet.parser (cfg : Config) (tokenList : List Str) (data : Str) (r : GentRedis) :
    Parsed :=
  valueParser 5 (lit "*3") 6 (takeContent tokenList 5 data) cfg tokenList data r

/-- The end of the parser of `setex`: the time to live is token 6, read as a whole. -/
def takeExpire (now : ℕ) (tokenList : List Str) (data : Str) (pos : ℕ) (r : GentRedis) :
    Parsed := do
  let seconds ← elemAt tokenList 6
  takeContent tokenList 7 data pos { r with expire := (toUInt64 (atoi seconds) + now) % 2 ^ 64 }

def GentProcessSetex.parser (cfg : Config) (now : ℕ) (tokenList : List Str) (data : Str)
    (r : GentRedis) : Parsed :=
  valueParser 7 (lit "*4") 8 (takeExpire now tokenList data) cfg tokenList data r

/-! ## `mset` -/

/-- The first half of a turn of `ItemParser`: the key of the pair, unless it is known from an earlier
read.  `none` when bytes are missing. -/
def itemKey (data : Str) (m : MsetData) : Except Fault (Option MsetData) :=
  if m.cur_key = [] then
    match findFirstOf data crlf 0 with
    | none => return none
    | some p => do
        let keyLen ← getLength (← substr data 0 p)
        if data.length < (p + 2 + keyLen) % 2 ^ 64 then return none
        let key ← substr data (p + 2) keyLen
        return some { m with cur_key := key, cur_key_end := (p + 2 + keyLen + 2) % 2 ^ 64 }
  else return some m

/-- The second half: the length of the value, likewise. -/
def itemLen (data : Str) (m : MsetData) : Except Fault (Option MsetData) :=
  if m.cur_content_len = 0 then
    match findFirstOf data crlf m.cur_key_end with
    | none => return none
    | some cpos => do
        let cLen ← getLength (← substr data m.cur_key_end (cpos - m.cur_key_end))
        return some { m with cur_content_len := cLen, cur_content_start := cpos + 2 }
  else return some m

/-- Bytes are missing: they are appended to these when they come. -/
def MsetData.wait (m : MsetData) (data : Str) : ℤ × MsetData := (mgetReq, { m with content := data })

/-- Where the next pair starts, once key and length of this one are known. -/
def MsetData.pairEnd (m : MsetData) : ℕ := (m.cur_content_start + m.cur_content_len + 2) % 2 ^ 64

/-- The loop of `GentProcessMset::ItemParser`, for `n` pairs.  The source's `pos` is zero at the
start of every turn, since the turn before cut `data` there. -/
def itemLoop : ℕ → Str → MsetData → Except Fault (ℤ × MsetData)
  | 0, data, m => .ok (if m.setNum ≠ 0 then m.wait data else (0, m))
  | n + 1, data, m => do
      let some m ← itemKey data m | return m.wait data
      let some m ← itemLen data m | return m.wait data
      if data.length < m.pairEnd then return m.wait data
      let value ← substr data m.cur_content_start m.cur_content_len
      let rest ← substrFrom data m.pairEnd
      itemLoop n rest { m with keys_values := m.keys_values.insert m.cur_key value }.set

/-- `GentProcessMset::ItemParser`. -/
def itemParser (data : Str) (m : MsetData) : Except Fault (ℤ × MsetData) :=
  itemLoop m.setNum.toNat data m

/-- The pairs of an `mset` that says it has `num` of them; `first` is its first token. -/
def msetPairs (data first : Str) (num : ℤ) (r : GentRedis) : Parsed := do
  let r := { r with mdata := { r.mdata with totalSetNum := num, setNum := num } }
  match headerEnd data first 3 with
  | none => return (-1, r)
  | some pos =>
      let (ret, m) ← itemParser (← substrFrom data pos) r.mdata
      let r := { r with mdata := m }
      return (ret, if ret = mgetReq then { r with curstatus := .CONN_CONREAD } else r)

def GentProcessMset.parser (cfg : Config) (tokenList : List Str) (data : Str) (r : GentRedis) :
    Parsed :=
  withAuth cfg r fun r => do
    let r := { r with curstatus := .CONN_NREAD }
    if tokenList.length < 3 then return (-1, r)
    let first ← elemAt tokenList 0
    let fieldNum := atoi (← substrFrom first 1)
    if (toInt32 (fieldNum - 1)).tmod 2 ≠ 0 then return (-1, r)
    msetPairs data first ((toInt32 (fieldNum - 1)).tdiv 2) r

def GentProcessMset.continueParser (data : Str) (r : GentRedis) : Parsed := do
  let (ret, m) ← itemParser (r.mdata.content ++ data) r.mdata
  let r := { r with mdata := m }
  let r := if ret = mgetReq then { r with curstatus := .CONN_CONREAD } else r
  return (ret, if ret = 0 then { r with curstatus := .CONN_DATA } else r)

/-! ## The other commands -/

/-- The keys of an `mget` that says it has `fieldNum` fields. -/
def mgetKeys (tokenList : List Str) (fieldNum : ℤ) (r : GentRedis) : Parsed := do
  if tokenList.length < 5 ∨ (tokenList.length : ℤ) ≠ toInt32 (fieldNum * 2 + 1) then
    return (-1, r)
  let keyvec ← (List.range' 1 (fieldNum.toNat - 1)).mapM fun i => tokenArg tokenList (i * 2 + 1)
  return (0, { r with keyvec := keyvec, curstatus := .CONN_DATA })

def GentProcessMget.parser (cfg : Config) (tokenList : List Str) (r : GentRedis) : Parsed :=
  withAuth cfg r fun r => do
    let fieldNum ← getLength (← elemAt tokenList 0)
    mgetKeys tokenList (toInt32 fieldNum) r

def GentProcessSlave.parser (cfg : Config) (tokenList : List Str) (r : GentRedis) : Parsed :=
  withAuth cfg r fun r => do
    if tokenList.length ≠ 7 then return (-1, r)
    if (← tokenArg tokenList 5) ≠ lit "clear" then return (-1, r)
    return (0, { r with curstatus := .CONN_DATA, keystr := ← tokenArg tokenList 3 })

def GentProcessInfo.parser (cfg : Config) (tokenList : List Str) (r : GentRedis) : Parsed :=
  withAuth cfg r fun r => do
    let keystr ← if 5 ≤ tokenList.length then tokenArg tokenList 3 else pure []
    return (0, { r with keystr := keystr, curstatus := .CONN_DATA })

def GentProcessQuit.parser (r : GentRedis) : Parsed := .ok (0, { r with curstatus := .CONN_CLOSE })

/-- `ping` and `randomkey` take no argument. -/
def plainParser (cfg : Config) (r : GentRedis) : Parsed :=
  withAuth cfg r fun r => .ok (0, { r with curstatus := .CONN_DATA })

def GentProcessPing.parser := plainParser
def GentProcessRandomkey.parser := plainParser

/-- The authentication of a slave, which is apart from that of clients.  Only an `auth` message of
eleven tokens has its password looked at. -/
def repAuth (cfg : Config) (tokenList : List Str) (msg : Str) (r : GentRedis) :
    Except Fault GentRedis :=
  if r.master_auth then .ok r
  else if cfg.master_auth = [] then .ok { r with master_auth := true }
  else if tokenList.length ≠ 11 ∨ msg ≠ lit "auth" then .ok { r with repmsg := lit "autherror" }
  else do
    let password ← elemAt tokenList 8
    if password ≠ cfg.master_auth then return { r with repmsg := lit "autherror" }
    let full ← elemAt tokenList 10
    return { r with master_auth := true, is_sync_all := decide (full = lit "true") }

/-- A slave's messages. -/
def GentProcessRep.parser (cfg : Config) (tokenList : List Str) (r : GentRedis) : Parsed := do
  if tokenList.length < 7 then return (-1, r)
  let msg ← elemAt tokenList 6
  let r ← repAuth cfg tokenList msg { r with repmsg := msg }
  return (0, { r with keystr := ← tokenArg tokenList 3, curstatus := .CONN_DATA })

/-- A master's messages to this slave. -/
def GentProcessReply.parser (cfg : Config) (tokenList : List Str) (r : GentRedis) : Parsed :=
  withAuth cfg r fun r => do
    if tokenList.length ≠ 5 then return (0, r)
    let msg ← elemAt tokenList 4
    return (0,
      if msg = lit "close" then { r with curstatus := .CONN_CLOSE }
      else if msg = lit "complete" ∨ msg = lit "authok" then
        { r with curstatus := .CONN_WAIT, slave_continue := true }
      else if msg = lit "autherror" then { r with curstatus := .CONN_WAIT }
      else r)

/-- Without a configured password the status of the connection stays as it is. -/
def GentProcessAuth.parser (cfg : Config) (tokenList : List Str) (r : GentRedis) : Parsed := do
  if tokenList.length ≠ 5 then return (-1, r)
  let str ← tokenArg tokenList 3
  if cfg.auth = [] then return (0, { r with auth := true })
  if str ≠ cfg.auth then return (authFail, r)
  return (0, { r with curstatus := .CONN_DATA })

/-! ## A request -/

/-- `GentRedis::SetCommands`: every name in lower and in upper case. -/
def setCommands : List (Str × Command) :=
  [(lit "get", .get), (lit "GET", .get), (lit "set", .set), (lit "SET", .set),
   (lit "setex", .setex), (lit "SETEX", .setex), (lit "mset", .mset), (lit "MSET", .mset),
   (lit "auth", .auth), (lit "AUTH", .auth), (lit "ttl", .ttl), (lit "TTL", .ttl),
   (lit "mget", .mget), (lit "MGET", .mget), (lit "randomkey", .randomkey),
   (lit "RANDOMKEY", .randomkey), (lit "del", .del), (lit "DEL", .del), (lit "quit", .quit),
   (lit "QUIT", .quit), (lit "exit", .quit), (lit "EXIT", .quit), (lit "keys", .keys),
   (lit "KEYS", .keys), (lit "exists", .keyExists), (lit "EXISTS", .keyExists),
   (lit "ping", .ping), (lit "PING", .ping), (lit "info", .info), (lit "INFO", .info),
   (lit "rep", .rep), (lit "REP", .rep), (lit "reply", .reply), (lit "REPLY", .reply),
   (lit "slave", .slave), (lit "SLAVE", .slave)]

/-- `GentRedis::commands`. -/
def commands (name : Str) : Option Command := setCommands.lookup name

/-- `subc->Parser`. -/
def Command.parser (cfg : Config) (now : ℕ) (tokenList : List Str) (data : Str) (r : GentRedis) :
    Command → Parsed
  | .get => GentProcessGet.parser cfg tokenList r
  | .set => GentProcessSet.parser cfg tokenList data r
  | .setex => GentProcessSetex.parser cfg now tokenList data r
  | .mset => GentProcessMset.parser cfg tokenList data r
  | .auth => GentProcessAuth.parser cfg tokenList r
  | .ttl => GentProcessTtl.parser cfg tokenList r
  | .mget => GentProcessMget.parser cfg tokenList r
  | .randomkey => GentProcessRandomkey.parser cfg r
  | .del => GentProcessDel.parser cfg tokenList r
  | .quit => GentProcessQuit.parser r
  | .keys => GentProcessKeys.parser cfg tokenList r
  | .keyExists => GentProcessExists.parser cfg tokenList r
  | .ping => GentProcessPing.parser cfg r
  | .info => GentProcessInfo.parser cfg tokenList r
  | .rep => GentProcessRep.parser cfg tokenList r
  | .reply => GentProcessReply.parser cfg tokenList r
  | .slave => GentProcessSlave.parser cfg tokenList r

/-- `GentRedis::ParseCommand`. -/
def parseCommand (cfg : Config) (now : ℕ) (r : GentRedis) (data : Str) : Parsed := do
  if data.length = 0 then return (0, r)
  let tokenList ← split data
  if tokenList.length = 0 then return (0, r)
  if tokenList.length < 3 then return (-1, r)
  match commands (← elemAt tokenList 2) with
  | none => return (-1, r)
  | some c => c.parser cfg now tokenList data { r with subc := some c }

/-- The answer to a request that failed to parse. -/
def errorText (status : ℤ) : Option Str :=
  if status = -1 then some (lit "-ERR unknown command\r\n")
  else if status = -2 then
    some (lit "-ERR wrong number of arguments for 'keys' command\r\n")
  else if status = -3 then some (lit "-ERR key is very very long\r\n")
  else if status = authReqFail then some (lit "- NOAUTH Authentication required.\r\n")
  else if status = authFail then some (lit "-ERR invalid password\r\n")
  else none

/-- `GentRedis::Process`: the result, what goes to `outstr`, and the handler. -/
def process (cfg : Config) (now : ℕ) (r : GentRedis) (data : Str) :
    Except Fault (ℤ × Str × GentRedis) := do
  let (status, r) ← parseCommand cfg now r data
  match errorText status with
  | some text => return (0, text, r)
  | none => return (status, [], r)

/-- `GentRedis::ContinueProcess`.  Only `mset` overrides the virtual method. -/
def continueProcess (r : GentRedis) (data : Str) : Parsed :=
  if r.subc = some .mset then GentProcessMset.continueParser data r else .ok (0, r)

end Riser
