import Riser.Core.Inserts
import Riser.Store.MetaData

/-!
# `GentDb`: two leveldbs and a counter

The database of the server.  `db` holds the values, `meta_db` the meta records, both under the
client's key; `key_num` counts keys and `write_num` the writes since the last sweep.  Each leveldb
is a map with its keys in bytewise order, which is what its iterators walk.

Every write of a leveldb may fail, so the operations take the reported status of each such call:
`true` for a call that took effect, `false` for one that did nothing.  The clock is an argument
as well.  A `Put` that finds `write_num` over its bound starts a sweeper thread, which is a later
call of `clearExpireKey`; what `Put` itself does about it is to reset `write_num`.

The file that remembers `key_num` across restarts (`SetNum`, `LoadNum`) is in `Store.Number`.
-/

namespace Riser

open Cpp

/-- A leveldb: keys in bytewise order. -/
abbrev LevelDb := Std.ExtTreeMap Str Str compare

namespace LevelDb

/-- `leveldb::DB::Put`; `ok` is the status it reports. -/
def put (d : LevelDb) (ok : Bool) (key value : Str) : LevelDb :=
  if ok then d.insert key value else d

/-- `leveldb::DB::Delete`. -/
def delete (d : LevelDb) (ok : Bool) (key : Str) : LevelDb :=
  if ok then d.erase key else d

end LevelDb

/-- `MAX_WRITE_CLEAR`. -/
def maxWriteClear : ℕ := 50000

/-- `class GentDb`.  `is_clear` is raised while a sweep runs. -/
structure GentDb where
  db : LevelDb
  meta_db : LevelDb
  key_num : ℕ
  write_num : ℕ
  is_clear : Bool

namespace GentDb

/-- A freshly opened, empty store. -/
def empty : GentDb := ⟨∅, ∅, 0, 0, false⟩

/-! ## Reading -/

/-- `GentDb::Get(key, value)`: `none` for `false`. -/
def get (s : GentDb) (now : ℕ) (key : Str) : Except Fault (Option Str) := do
  let expired ← match s.meta_db[key]? with
    | some m => do
        let dat ← metaUnserialize m
        pure (decide (dat.expire ≠ 0 ∧ dat.expire < now))
    | none => pure false
  return if expired then none else s.db[key]?

/-- `GentDb::Get(key, value, expire)`.  No clock is consulted: an expired key is still found. -/
def getExpire (s : GentDb) (key : Str) : Except Fault (Option Str × ℕ) := do
  let expire ← match s.meta_db[key]? with
    | some m => do pure (← metaUnserialize m).expire
    | none => pure 0
  return (s.db[key]?, expire)

/-- `GentDb::Ttl`. -/
def ttl (s : GentDb) (key : Str) : Except Fault (Bool × ℕ) := do
  match s.meta_db[key]? with
  | some m => do pure (true, (← metaUnserialize m).expire)
  | none => pure (s.db.contains key, 0)

/-- The loop of `GentDb::Keys` for a prefix other than `*`: it stops at the first key without
the prefix after one that has it. -/
def keysLoop (pre : Str) : List Str → Bool → List Str
  | [], _ => []
  | curkey :: rest, first =>
      if curkey.take pre.length ≠ pre then
        if first then keysLoop pre rest first else []
      else curkey :: keysLoop pre rest false

/-- `GentDb::Keys`: what it appends to its vector. -/
def keys (s : GentDb) (pre : Str) : List Str :=
  if pre ≠ lit "*" then keysLoop pre s.meta_db.keys true else s.meta_db.keys

/-- The loop of `GentDb::Count` for a non-empty prefix. -/
def countLoop (pre : Str) : List Str → Bool → ℕ
  | [], _ => 0
  | curkey :: rest, first =>
      if curkey.take pre.length ≠ pre then
        if first then 0 else countLoop pre rest first
      else countLoop pre rest true + 1

/-- `GentDb::Count`.  A counter of zero is not trusted, and set to what has been counted. -/
def count (s : GentDb) (pre : Str) : ℕ × GentDb :=
  if pre = [] ∧ 0 < s.key_num then (s.key_num, s)
  else
    let num := if pre ≠ [] then countLoop pre s.meta_db.keys false else s.meta_db.keys.length
    (num, if pre = [] ∧ s.key_num = 0 then { s with key_num := num } else s)

/-- The loop of `GentDb::Random`, from the `i`-th key on. -/
def randomLoop (ni : ℕ) : List Str → ℕ → Str
  | [], _ => []
  | key :: rest, i => if ni ≤ i then key else randomLoop ni rest (i + 1)

/-- `GentDb::Random`, with what `rand()` returns.  The window is as large as `key_num` says. -/
def random (s : GentDb) (rand : ℕ) : Bool × Str :=
  if s.key_num = 0 then (false, [])
  else (true, randomLoop (rand % min s.key_num 1000) s.meta_db.keys 1)

/-! ## Writing -/

/-- What both overloads of `GentDb::Put` do once the lock is taken: look the key up in
`meta_db`, write the value, count a new key, and write the meta record if the value went in.  A key that
the lookup does not find counts as new, also if the lookup has failed. -/
def putBody (s : GentDb) (okGet okDb okMeta : Bool) (now : ℕ) (key value : Str) (expire : ℕ)
    (datatype : ℤ) : GentDb × Bool :=
  let keyStatus := okGet && s.meta_db.contains key
  ({ s with
      db := s.db.put okDb key value
      meta_db :=
        if okDb then s.meta_db.put okMeta key (metaSerialize datatype expire now)
        else s.meta_db
      key_num := if keyStatus then s.key_num else s.key_num + 1
      write_num := s.write_num + 1 }, okDb)

/-- `GentDb::Put(key, value, expire, datatype)`. -/
def putString (s : GentDb) (okDb okMeta : Bool) (now : ℕ) (key value : Str) (expire : ℕ)
    (datatype : ℤ) : GentDb × Bool :=
  s.putBody true okDb okMeta now key value expire datatype

/-- `GentDb::Put(key, val, len, expire, datatype)`, which also starts the sweeper when enough
writes have gone by. -/
def put (s : GentDb) (okDb okMeta : Bool) (now : ℕ) (key value : Str) (expire : ℕ)
    (datatype : ℤ) : GentDb × Bool :=
  let s := if maxWriteClear < s.write_num ∧ s.is_clear = false then { s with write_num := 0 }
    else s
  s.putBody true okDb okMeta now key value expire datatype

/-- `GentDb::BatchPut`.  The values go in as one leveldb batch, the meta records one by one;
`okMeta` says which of those succeed. -/
def batchPut (s : GentDb) (okDb : Bool) (okMeta : Str → Bool) (now : ℕ) (data : LevelDb) :
    GentDb × Bool :=
  if okDb then
    ({ s with
        db := data.toList.foldl (fun d kv => d.insert kv.1 kv.2) s.db
        meta_db := data.toList.foldl
          (fun d kv => d.put (okMeta kv.1) kv.1 (metaSerialize 0 0 now)) s.meta_db
        key_num := s.key_num + data.size
        write_num := s.write_num + data.size }, true)
  else (s, false)

/-- `GentDb::Del`. -/
def del (s : GentDb) (okDb okMeta : Bool) (key : Str) : GentDb × Bool :=
  ({ s with
      db := s.db.delete okDb key
      key_num := if 0 < s.key_num ∧ okDb = true then s.key_num - 1 else s.key_num
      meta_db := if okDb then s.meta_db.delete okMeta key else s.meta_db }, okDb)

/-- One turn of the sweeper's loop, over an entry of the snapshot of `meta_db`. -/
def clearEntry (now : ℕ) (acc : GentDb × ℕ) (kv : Str × Str) : Except Fault (GentDb × ℕ) := do
  let dat ← metaUnserialize kv.2
  if dat.expire = 0 then pure acc
  else if now < dat.expire then pure acc
  else pure ((acc.1.del true true kv.1).1, acc.2 + 1)

/-- `GentDb::ClearExpireKey`: sweep a snapshot of `meta_db`, deleting from both leveldbs, and
return the number of deleted keys. -/
def clearExpireKey (s : GentDb) (now : ℕ) : Except Fault (GentDb × ℕ) := do
  let (s, num) ← s.meta_db.toList.foldlM (clearEntry now) ({ s with is_clear := true }, 0)
  return ({ s with is_clear := false }, num)

end GentDb

end Riser
