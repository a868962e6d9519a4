import Riser.Core.Numeral
import Riser.Redis.Complete

/-!
# `GentLevel`: the memcache front end

A second command handler, for the text protocol of memcache: a line of words, and for `set` a data block
behind it.  `Process` gets the first read of a request, splits the line, and says how many bytes of the
block are still to be read; `Complete` gets those bytes and acts.

The numbers on the way are of every width, and all of them are kept: `Split` counts the words in a
`uint8_t`, the length of the block is a `long` cut to an `int`, `rlbytes` is a `uint64_t`, `remains` a
`uint32_t`, and what `Process` returns is an `int` again.  The same holds for the partial operations:
`Complete` of a `set` calls `substr` at the announced length.

`serve` is what `TryRunning` does with the two calls: a text that `Process` leaves is the answer, and
otherwise `Complete` is called where the status asks for it.  `process_line` is what `Process` makes of a
line with single blanks between its words, whatever follows the line.
-/

namespace Riser

open Cpp

/-- `GentUtil::SafeStrtol`: `none` for `false`. -/
def safeStrtol (str : Str) : Option ℤ :=
  match strtolEnd str with
  | none => none
  | some endptr =>
      if strtolErange str then none
      else if endptr = [] ∨ endptr.head?.any isSpace then some (toInt32 (strtol str))
      else none

/-- `CommandType::ct`. -/
inductive CommandType where
  | COMM_GET
  | COMM_SET
  | COMM_DEL
  | COMM_QUIT
  | COMM_STATS
  | COMM_REP
  | COMM_KEYS
  | COMM_MGET
  | COMM_EXISTS
  | COMM_PING
  deriving DecidableEq, Repr

/-- `class GentLevel`, with the status of its connection. -/
structure GentLevel where
  rlbytes : ℕ
  remains : ℕ
  commandtype : CommandType
  keystr : Str
  content : Str
  commandstr : Str
  keys : List Str
  tokenList : List Str
  curstatus : Status

namespace GentLevel

/-- `max_tokens`. -/
def maxTokens : ℕ := 1000

/-! ## The line -/

/-- The loop of `Split`: the position, the counter and the tokens behind it.  Every turn moves `last_pos` on,
so that the bytes of the string outlast it. -/
def splitLoop (str delimit : Str) : ℕ → ℕ → ℕ → List Str → Except Fault (ℕ × ℕ × List Str)
  | 0, last_pos, num, v => .ok (last_pos, num, v)
  | fuel + 1, last_pos, num, v =>
      match findFirstOf str delimit last_pos with
      | none => .ok (last_pos, num, v)
      | some pos =>
          if pos = last_pos then splitLoop str delimit fuel (last_pos + 1) num v
          else do
            let t ← substr str last_pos (pos - last_pos)
            splitLoop str delimit fuel (pos + 1) ((num + 1) % 2 ^ 8) (v ++ [t])

/-- What `Split` does behind its loop.  The string has to go on to a CR or LF, or nothing has been counted. -/
def splitEnd (str : Str) (last_pos num : ℕ) (v : List Str) : Except Fault (ℕ × List Str) := do
  match findFirstOf str crlf last_pos with
  | none => return (0, v)
  | some ter_pos =>
      if last_pos < ter_pos then
        let curstr ← substr str last_pos (ter_pos - last_pos)
        return ((num + 1) % 2 ^ 8, v ++ [curstr])
      else return (num, v)

/-- `GentLevel::Split`: what it returns, and the tokens. -/
def split (str delimit : Str) (v : List Str) : Except Fault (ℕ × List Str) := do
  let (last_pos, num, v) ← splitLoop str delimit (str.length + 1) 0 0 v
  splitEnd str last_pos num v

/-- The test `length && tokenList[0] == name`. -/
def named (length : Bool) (tokenList : List Str) (name : String) : Except Fault Bool :=
  if length then do return decide ((← elemAt tokenList 0) = lit name) else return false

/-- The branch of `CommandWord` for a `set`. -/
def setWord (l : GentLevel) : Except Fault (ℤ × GentLevel) := do
  let keystr ← elemAt l.tokenList 1
  let l := { l with keystr, commandtype := .COMM_SET, curstatus := .CONN_NREAD }
  match safeStrtol (← elemAt l.tokenList 4) with
  | none => return (-1, l)
  | some vlen =>
      let rlbytes := toUInt64 (toInt32 (vlen + 2))
      return (toInt32 (rlbytes - l.remains), { l with rlbytes })

/-- The branches of `CommandWord` for a command with one key. -/
def keyWord (l : GentLevel) (commandtype : CommandType) : Except Fault (ℤ × GentLevel) := do
  return (0, { l with commandtype, keystr := ← elemAt l.tokenList 1, curstatus := .CONN_DATA })

/-- The branches of `CommandWord`, once the line is split. -/
def branches (l : GentLevel) (clength : ℕ) : Except Fault (ℤ × GentLevel) := do
  if ← named (clength = 2) l.tokenList "get" then l.keyWord .COMM_GET
  else if ← named (2 < clength) l.tokenList "get" then
    if maxTokens < clength then return (-1, l)
    else
      return (0, { l with
        keystr := [], keys := l.tokenList.drop 1, commandtype := .COMM_GET, curstatus := .CONN_DATA })
  else if ← named (clength = 5) l.tokenList "set" then l.setWord
  else if ← named (clength = 2) l.tokenList "del" then l.keyWord .COMM_DEL
  else if ← named (clength = 1) l.tokenList "quit" then
    return (0, { l with commandtype := .COMM_QUIT, curstatus := .CONN_CLOSE })
  else if ← named (clength = 2) l.tokenList "stats" then l.keyWord .COMM_STATS
  else if ← named (clength = 1) l.tokenList "stats" then
    return (0, { l with commandtype := .COMM_STATS, keystr := [], curstatus := .CONN_DATA })
  else return (-1, l)

/-- `GentLevel::CommandWord`. -/
def commandWord (l : GentLevel) : Except Fault (ℤ × GentLevel) := do
  let (clength, tokenList) ← split l.commandstr (lit " ") []
  { l with tokenList }.branches clength

/-- `GentLevel::ParseCommand`. -/
def parseCommand (l : GentLevel) (str : Str) : Except Fault (Bool × GentLevel) := do
  if str = [] then return (false, l)
  else
    match findFirstOf str (lit "\n") 0 with
    | none => return (false, l)
    | some pos =>
        if pos = 0 then return (false, l)
        else
          let commandstr ← substr str 0 pos
          let remains := (str.length - pos - 1) % 2 ^ 32
          let content ← substr str (pos + 1) remains
          return (true, { l with commandstr, remains, content })

/-- `GentLevel::Process`: what it returns, `outstr` and the handler. -/
def process (l : GentLevel) (data outstr : Str) : Except Fault (ℤ × Str × GentLevel) := do
  if data = [] then return (0, lit "ERROR\r\n", l)
  else
    let (parsed, l) ← l.parseCommand data
    if parsed = false then return (0, lit "ERROR\r\n", l)
    else
      let (cword, l) ← l.commandWord
      if cword < 0 then return (0, lit "CLIENT ERROR\r\n", l) else return (cword, outstr, l)

/-! ## The commands -/

/-- What `snprintf` leaves in `retbuf` for a key and its value. -/
def valueLine (key nr : Str) : Str :=
  snprintf 200 (lit "VALUE " ++ cstr key ++ lit " 0 " ++ unsigned nr.length ++ crlf)

/-- The body of the loop of `ProcessMultiGet`. -/
def appendValue (w : World) (db : GentDb) (outstr key : Str) : Except Fault Str := do
  match ← db.get w.now key with
  | none => return outstr
  | some nr => return outstr ++ valueLine key nr ++ nr ++ crlf

/-- `GentLevel::ProcessMultiGet`. -/
def processMultiGet (w : World) (db : GentDb) (l : GentLevel) (outstr : Str) : Except Fault Str := do
  let outstr ← l.keys.foldlM (appendValue w db) outstr
  return outstr ++ lit "END\r\n"

/-- `GentLevel::ProcessGet`.  For a key that is missing it assigns an `END` line to `outstr`, and goes on:
`nr` is still empty, and `outstr` is assigned again. -/
def processGet (w : World) (db : GentDb) (l : GentLevel) (outstr : Str) : Except Fault Str := do
  if l.keystr = [] then processMultiGet w db l outstr
  else
    let nr := (← db.get w.now l.keystr).getD []
    return valueLine l.keystr nr ++ nr ++ lit "\r\nEND\r\n"

/-- `GentLevel::ProcessDel`. -/
def processDel (w : World) (db : GentDb) (l : GentLevel) : Except Fault (Str × GentDb) := do
  match ← db.get w.now l.keystr with
  | none => return (lit "NOT_FOUND\r\n", db)
  | some _ =>
      let (db, ok) := db.del w.okDb (w.okMeta l.keystr) l.keystr
      return (if ok then lit "DELETED\r\n" else lit "NOT_FOUND\r\n", db)

/-- `GentLevel::ProcessStats`. -/
def processStats (w : World) (db : GentDb) (l : GentLevel) : Str × GentDb :=
  let (num, db) := db.count l.keystr
  (snprintf 200 (lit "total_connect: " ++ unsigned w.info.total_connect
    ++ lit "\r\ncurrent_connect: " ++ unsigned w.info.current_connect
    ++ lit "\r\nitem_nums: " ++ decimal num ++ lit "\r\ntotal_size: " ++ decimal w.info.totals ++ crlf), db)

/-- The answer, the handler and the store. -/
abbrev Completed := Except Fault (Str × GentLevel × GentDb)

/-- The branch of `Complete` for a `set`. -/
def completeSet (w : World) (db : GentDb) (l : GentLevel) (recont : Str) : Completed := do
  let content := l.content ++ recont
  let l := { l with content }
  let pos := toUInt64 (l.rlbytes - 2)
  if (← substr content pos 2) ≠ crlf then return (lit "CLIENT_ERROR bad data chunk\r\n", l, db)
  else
    let nr := content.take pos
    let (db, ok) := db.putString w.okDb (w.okMeta l.keystr) w.now l.keystr nr 0 0
    return (if ok then lit "STORED\r\n" else lit "NOT_STORED\r\n", l, db)

/-- `GentLevel::Complete`. -/
def complete (w : World) (db : GentDb) (l : GentLevel) (outstr recont : Str) : Completed :=
  match l.commandtype with
  | .COMM_GET => do return (← processGet w db l outstr, l, db)
  | .COMM_SET => completeSet w db l recont
  | .COMM_QUIT => .ok (outstr, l, db)
  | .COMM_DEL => do
      let (outstr, db) ← processDel w db l
      return (outstr, l, db)
  | .COMM_STATS =>
      let (outstr, db) := processStats w db l
      .ok (outstr, l, db)
  | _ => .ok (lit "ERROR\r\n", l, db)

/-- A request, as the connection runs it: `first` is the first read, `recont` what is read after it. -/
def serve (w : World) (db : GentDb) (l : GentLevel) (first recont : Str) : Completed := do
  let (remainsize, outstr, l) ← l.process first []
  if remainsize = 0 ∧ outstr ≠ [] then return (outstr, l, db)
  else
    match l.curstatus with
    | .CONN_NREAD => complete w db l [] recont
    | .CONN_DATA => complete w db l [] recont
    | _ => return ([], l, db)

/-! ## Lines of words -/

/-- A word: no blank and no line end is in it. -/
def IsWord (t : Str) : Prop := t ≠ [] ∧ ∀ b ∈ t, b ∉ lit " \r\n"

instance (t : Str) : Decidable (IsWord t) := inferInstanceAs (Decidable (_ ∧ _))

/-- The words of a line, with a blank before each but the first. -/
def joined (t : Str) (args : List Str) : Str := t ++ args.flatMap (32 :: ·)

/-- A command line. -/
def commandLine (name : Str) (args : List Str) : Str := joined name args ++ crlf

section Line

variable {t : Str} {args : List Str}

lemma named_cons (length : Bool) (name : String) :
    named length (t :: args) name = .ok (length && decide (t = lit name)) := by
  cases length with
  | false => rfl
  | true => rfl

lemma IsWord.notMem (ht : IsWord t) {b : UInt8} (hb : b ∈ t) : b ∉ lit " " ∧ b ∉ crlf := by
  have h := ht.2 b hb
  have hsplit : lit " \r\n" = lit " " ++ crlf := by decide
  rwa [hsplit, List.mem_append, not_or] at h

/-- No line end is in the words. -/
lemma joined_notMem (ht : IsWord t) (hargs : ∀ a ∈ args, IsWord a) {b : UInt8}
    (hb : b ∈ joined t args) : b ∉ crlf := by
  rcases List.mem_append.mp hb with hb | hb
  · exact (ht.notMem hb).2
  · obtain ⟨a, ha, hb⟩ := List.mem_flatMap.mp hb
    rcases List.mem_cons.mp hb with rfl | hb
    · decide
    · exact ((hargs a ha).notMem hb).2

lemma splitLoop_of_none {str delimit : Str} {last_pos : ℕ} (h : findFirstOf str delimit last_pos = none)
    (fuel num : ℕ) (v : List Str) :
    splitLoop str delimit fuel last_pos num v = .ok (last_pos, num, v) := by
  cases fuel with
  | zero => rfl
  | succ fuel => simp only [splitLoop, h]

/-- **The loop and what is behind it**, from the start of a word on. -/
lemma splitLoop_words (ht : IsWord t) (hargs : ∀ a ∈ args, IsWord a) (pre : Str) {fuel : ℕ}
    (hfuel : args.length ≤ fuel) (num : ℕ) (v : List Str) :
    (splitLoop (pre ++ (joined t args ++ [13])) (lit " ") fuel pre.length (num % 2 ^ 8) v >>= fun s =>
      splitEnd (pre ++ (joined t args ++ [13])) s.1 s.2.1 s.2.2)
      = .ok ((num + args.length + 1) % 2 ^ 8, v ++ t :: args) := by
  induction args generalizing t pre fuel num v with
  | nil =>
      have hblank : findFirstOf (pre ++ (joined t [] ++ [13])) (lit " ") pre.length = none := by
        refine findFirstOf_eq_none fun b hb => ?_
        rw [List.drop_left, joined, List.flatMap_nil, List.append_nil] at hb
        rcases List.mem_append.mp hb with hb | hb
        · exact (ht.notMem hb).1
        · rw [List.mem_singleton.mp hb]
          decide
      have hend : findFirstOf (pre ++ (joined t [] ++ [13])) crlf pre.length
          = some (pre.length + t.length) := by
        rw [joined, List.flatMap_nil, List.append_nil]
        exact findFirstOf_append (fun b hb => (ht.notMem hb).2) (by decide) pre
      have hpos : pre.length < pre.length + t.length := by
        have := List.length_pos_of_ne_nil ht.1
        omega
      have hword : substr (pre ++ (joined t [] ++ [13])) pre.length (pre.length + t.length - pre.length)
          = .ok t := by
        rw [substr_of_le (by simp), List.drop_left, joined, List.flatMap_nil, List.append_nil,
          Nat.add_sub_cancel_left, List.take_left]
      rw [splitLoop_of_none hblank, ok_bind]
      simp only [splitEnd, hend, hpos, if_true, hword, bind, Except.bind, pure, Except.pure,
        Nat.mod_add_mod, List.length_nil, Nat.add_zero]
  | cons a args ih =>
      obtain ⟨fuel, rfl⟩ : ∃ f, fuel = f + 1 := ⟨fuel - 1, by rw [List.length_cons] at hfuel; omega⟩
      have hstr : joined t (a :: args) ++ [13] = t ++ 32 :: (joined a args ++ [13]) := by
        simp [joined]
      have hblank : findFirstOf (pre ++ (joined t (a :: args) ++ [13])) (lit " ") pre.length
          = some (pre.length + t.length) := by
        rw [hstr]
        exact findFirstOf_append (fun b hb => (ht.notMem hb).1) (by decide) pre
      have hpos : pre.length + t.length ≠ pre.length := by
        have := List.length_pos_of_ne_nil ht.1
        omega
      have hword : substr (pre ++ (joined t (a :: args) ++ [13])) pre.length
          (pre.length + t.length - pre.length) = .ok t := by
        rw [substr_of_le (by simp), List.drop_left, hstr, Nat.add_sub_cancel_left, List.take_left]
      -- the next word starts behind the blank
      have hpre : pre ++ (joined t (a :: args) ++ [13])
          = (pre ++ t ++ [32]) ++ (joined a args ++ [13]) := by
        rw [hstr]
        simp
      have hlen : pre.length + t.length + 1 = (pre ++ t ++ [32]).length := by
        simp only [List.length_append, List.length_singleton]
      have hless : args.length ≤ fuel := by
        simp only [List.length_cons] at hfuel
        omega
      have hrec := ih (hargs a List.mem_cons_self) (fun b hb => hargs b (List.mem_cons_of_mem a hb))
        (pre ++ t ++ [32]) hless (num + 1) (v ++ [t])
      simp only [splitLoop, hblank, hpos, if_false, hword, ok_bind, Nat.mod_add_mod]
      rw [hpre, hlen, hrec, List.length_cons, List.append_assoc, List.singleton_append]
      congr 3
      omega

/-- **What `Split` makes of a line.**  The number of its words only survives modulo 256. -/
lemma split_joined (ht : IsWord t) (hargs : ∀ a ∈ args, IsWord a) :
    split (joined t args ++ [13]) (lit " ") [] = .ok ((args.length + 1) % 2 ^ 8, t :: args) := by
  have hfuel : args.length ≤ (joined t args ++ [13]).length + 1 := by
    have hle : args.length ≤ (args.flatMap ((32 : UInt8) :: ·)).length := by
      rw [List.length_flatMap]
      simp
    simp only [joined, List.length_append]
    omega
  have h := splitLoop_words ht hargs [] hfuel 0 []
  simp only [List.nil_append, List.length_nil, Nat.zero_mod, Nat.zero_add] at h
  exact h

/-- **What `Process` makes of a line**, whatever follows it. -/
lemma process_line (ht : IsWord t) (hargs : ∀ a ∈ args, IsWord a) {block : Str}
    (hblock : block.length < 2 ^ 32) (l : GentLevel) (outstr : Str) :
    l.process (commandLine t args ++ block) outstr
      = ({ l with
            commandstr := joined t args ++ [13], remains := block.length, content := block,
            tokenList := t :: args } : GentLevel).branches ((args.length + 1) % 2 ^ 8) >>= fun r =>
          if r.1 < 0 then .ok (0, lit "CLIENT ERROR\r\n", r.2) else .ok (r.1, outstr, r.2) := by
  have hdata : commandLine t args ++ block = (joined t args ++ [13]) ++ 10 :: block := by
    simp [commandLine, crlf, lit]
  have hne : commandLine t args ++ block ≠ [] := by
    rw [hdata]
    simp
  have hfind : findFirstOf (commandLine t args ++ block) (lit "\n") 0
      = some (joined t args ++ [13]).length := by
    rw [hdata]
    refine findFirstOf_zero (fun b hb => ?_) (by decide)
    have hlf : lit "\n" ⊆ crlf := by decide
    rcases List.mem_append.mp hb with hb | hb
    · exact fun h => joined_notMem ht hargs hb (hlf h)
    · rw [List.mem_singleton.mp hb]
      decide
  have hpos : (joined t args ++ [13]).length ≠ 0 := by simp
  have hcommand : substr (commandLine t args ++ block) 0 (joined t args ++ [13]).length
      = .ok (joined t args ++ [13]) := by
    rw [substr_of_le (Nat.zero_le _), List.drop_zero, hdata, List.take_left]
  have hremains : ((commandLine t args ++ block).length - (joined t args ++ [13]).length - 1) % 2 ^ 32
      = block.length := by
    rw [hdata, List.length_append, Nat.add_sub_cancel_left, List.length_cons, Nat.add_sub_cancel,
      Nat.mod_eq_of_lt hblock]
  have hcontent : substr (commandLine t args ++ block) ((joined t args ++ [13]).length + 1) block.length
      = .ok block := by
    rw [hdata, substr_of_le (by simp), ← List.drop_drop, List.drop_left, List.drop_one, List.tail_cons,
      List.take_length]
  simp only [process, hne, if_false, parseCommand, hfind, hpos, hcommand, hremains, hcontent, commandWord,
    split_joined ht hargs, bind, Except.bind, pure, Except.pure, Bool.true_eq_false]

end Line

end GentLevel

end Riser
