import Riser.Repl.GentReplication

/-!
# `GentRepMgr`: the slaves of a master

The master keeps one `GentReplication` per slave name in `rep_list_`, and for each of them a slot of
the mapped file `REPLICATION_INFO` (`GentFile`).  Which slot is whose is recorded in several places:

* `rep_list_`, where a replication points to its slot;
* `rep_map_`, the names that the file held when the server started, with their slots;
* `rep_map_list_` of the file, the same names and all that were added since;
* `available` in the slot itself, and the name next to it.

A slot is a pointer in the source and its number in `head_list_` here.  A `GentReplication` carries
the slot's contents in `rinfo`; for one in `rep_list_` the truth is what `head_list_` holds at its
number, so `load` fetches it before a call and `store` puts it back.

`DelItem` of the file is never called, and `rep_map_`, `rep_map_list_` never lose a name.
-/

namespace Riser

open Cpp

/-- `std::map<string, _>`: the names in bytewise order. -/
abbrev NameMap (α : Type) := Std.ExtTreeMap Str α compare

/-- `SLAVE_NUM`. -/
def slaveNum : ℕ := 1024

/-! ## The file -/

/-- `GentFile<repinfo>`. -/
structure GentFile where
  head_list : List RepInfo
  rep_map_list : NameMap ℕ

namespace GentFile

/-- The names that the loop of `GentFile::Init` collects, from slot `i` on. -/
def loadNames : List RepInfo → ℕ → NameMap ℕ → NameMap ℕ
  | [], _, names => names
  | c :: rest, i, names =>
      loadNames rest (i + 1) (if c.available ≠ 0 then names.insert (cstr c.name) i else names)

/-- `GentFile::Init` on the bytes of the slots.  `junk` is as in `RepInfo.init`. -/
def init (junk : Str) (slots : List Str) : GentFile :=
  let head_list := slots.map (RepInfo.init junk)
  ⟨head_list, loadNames head_list 0 ∅⟩

/-- `*head_list_[i]`. -/
def slot (f : GentFile) (i : ℕ) : RepInfo := f.head_list[i]?.getD (RepInfo.init [] [])

/-- A write through the pointer. -/
def setSlot (f : GentFile) (i : ℕ) (info : RepInfo) : GentFile :=
  { f with head_list := f.head_list.set i info }

/-- A slot is given to a name.  `junk` is as in `RepInfo.setName`. -/
def assign (f : GentFile) (junk str : Str) (i : ℕ) : GentFile :=
  { f.setSlot i ((f.slot i).setName junk str) with rep_map_list := f.rep_map_list.insert str i }

/-- The first free slot. -/
def freeSlot (f : GentFile) : Option ℕ := f.head_list.findIdx? (·.available = 0)

/-- `GentFile::AddItem`: the slot the name has, whatever has become of it, or the first free one. -/
def addItem (f : GentFile) (junk str : Str) : Option ℕ × GentFile :=
  match f.rep_map_list[str]? with
  | some i => (some i, f)
  | none =>
      match f.freeSlot with
      | none => (none, f)
      | some i => (some i, f.assign junk str i)

end GentFile

/-! ## The replications -/

/-- `GentReplication::SetLogout`. -/
def GentReplication.setLogout (r : GentReplication) : Bool × GentReplication :=
  if r.conn then (false, r)
  else (true, { r with is_run := false, rinfo := r.rinfo.set .available 0 })

/-- An entry of `rep_list_`, with the number of the slot that `rinfo_` points to. -/
structure Registered where
  slot : ℕ
  rep : GentReplication

/-- The master's `GentRepMgr`. -/
structure GentRepMgr where
  rep_list : NameMap Registered
  rep_map : NameMap ℕ
  repfile : GentFile

/-- What the constructor of a `GentReplication` meets: the database, the clock, the memory it does not
initialise, and the number of the first entry it allocates. -/
structure Creation where
  db : GentDb
  now : ℕ
  uninit : Bool
  next : ℕ

namespace GentRepMgr

/-- The constructor. -/
def new (junk : Str) (slots : List Str) : GentRepMgr :=
  let repfile := GentFile.init junk slots
  ⟨∅, repfile.rep_map_list, repfile⟩

/-- The replication, with its slot as it is now. -/
def load (m : GentRepMgr) (e : Registered) : GentReplication :=
  { e.rep with rinfo := m.repfile.slot e.slot }

/-- The replication of a name, with its slot. -/
def store (m : GentRepMgr) (name : Str) (i : ℕ) (rep : GentReplication) : GentRepMgr :=
  { m with
    rep_list := m.rep_list.insert name ⟨i, rep⟩
    repfile := m.repfile.setSlot i rep.rinfo }

/-- The name is registered. -/
def Registers (m : GentRepMgr) (n : Str) (e : Registered) : Prop := m.rep_list[n]? = some e

lemma registers_store {m : GentRepMgr} {name : Str} {i : ℕ} {rep : GentReplication}
    {n : Str} {e : Registered} :
    (m.store name i rep).Registers n e ↔ n = name ∧ e = ⟨i, rep⟩ ∨ n ≠ name ∧ m.Registers n e := by
  unfold Registers store
  rw [Std.ExtTreeMap.getElem?_insert]
  simp only [Std.LawfulEqCmp.compare_eq_iff_eq]
  by_cases heq : name = n
  · subst heq
    simp [eq_comm]
  · simp [heq, Ne.symm heq]

/-- `rep_list_[name] = new GentReplication(name, info, is_sync_all)`. -/
def create (m : GentRepMgr) (cr : Creation) (name : Str) (info : ℕ) (is_sync_all : Bool) :
    GentRepMgr :=
  m.store name info
    (GentReplication.new (m.repfile.slot info) cr.db cr.now is_sync_all cr.uninit cr.next)

lemma new_spec (info : RepInfo) (cr : Creation) (is_sync_all : Bool) :
    let r := GentReplication.new info cr.db cr.now is_sync_all cr.uninit cr.next
    r.is_run = true ∧ r.rinfo.available = info.available ∧ r.rinfo.name = info.name := by
  unfold GentReplication.new
  dsimp only
  split_ifs
  · exact ⟨rfl, rfl, rfl⟩
  · exact ⟨rfl, rfl, rfl⟩
  · exact ⟨rfl, rfl, rfl⟩
  · exact ⟨rfl, rfl, rfl⟩

/-- `GentRepMgr::Init`. -/
def init (m : GentRepMgr) (cr : Creation) : GentRepMgr :=
  m.rep_map.toList.foldl (fun m it => m.create cr it.1 it.2 true) m

/-- The slot of a name that has no replication: `rep_map_` is asked first, then the file. -/
def info (m : GentRepMgr) (junk name : Str) : Option ℕ × GentRepMgr :=
  match m.rep_map[name]? with
  | some i => (some i, m)
  | none =>
      let (i, repfile) := m.repfile.addItem junk name
      (i, { m with repfile })

/-- `GentRepMgr::Get`: `none` for `NULL`. -/
def get (m : GentRepMgr) (cr : Creation) (junk name : Str) (is_sync_all : Bool) :
    Option Registered × GentRepMgr :=
  match m.rep_list[name]? with
  | some e => (some e, m)
  | none =>
      match m.info junk name with
      | (none, m) => (none, m)
      | (some i, m) =>
          let m := m.create cr name i is_sync_all
          (m.rep_list[name]?, m)

/-- The slot that the tables have for a name. -/
def known (m : GentRepMgr) (name : Str) : Option ℕ :=
  m.rep_map[name]?.or m.repfile.rep_map_list[name]?

/-- A `Get` that makes a replication. -/
def created (m : GentRepMgr) (cr : Creation) (name : Str) (info : ℕ) (is_sync_all : Bool) :
    Option Registered × GentRepMgr :=
  ((m.create cr name info is_sync_all).rep_list[name]?, m.create cr name info is_sync_all)

/-- **What `Get` can do**: it finds the replication, makes one for the slot that the tables know, or
for the first free slot, or finds none. -/
lemma get_cases (m : GentRepMgr) (cr : Creation) (junk name : Str) (is_sync_all : Bool) :
    (∃ e, m.rep_list[name]? = some e ∧ m.get cr junk name is_sync_all = (some e, m)) ∨
    m.rep_list[name]? = none ∧
      ((∃ i, m.known name = some i ∧
          m.get cr junk name is_sync_all = m.created cr name i is_sync_all) ∨
        m.known name = none ∧
          ((∃ i, m.repfile.freeSlot = some i ∧ m.get cr junk name is_sync_all
              = { m with repfile := m.repfile.assign junk name i }.created cr name i is_sync_all) ∨
            m.repfile.freeSlot = none ∧ m.get cr junk name is_sync_all = (none, m))) := by
  unfold get info known
  cases hreg : m.rep_list[name]? with
  | some e => exact Or.inl ⟨e, rfl, rfl⟩
  | none =>
      refine Or.inr ⟨rfl, ?_⟩
      cases hmap : m.rep_map[name]? with
      | some i => exact Or.inl ⟨i, rfl, rfl⟩
      | none =>
          unfold GentFile.addItem
          cases hlist : m.repfile.rep_map_list[name]? with
          | some i => exact Or.inl ⟨i, rfl, rfl⟩
          | none =>
              refine Or.inr ⟨rfl, ?_⟩
              cases hfree : m.repfile.freeSlot with
              | some i => exact Or.inl ⟨i, rfl, rfl⟩
              | none => exact Or.inr ⟨rfl, rfl⟩

lemma created_ne_none (m : GentRepMgr) (cr : Creation) (name : Str) (info : ℕ)
    (is_sync_all : Bool) : (m.created cr name info is_sync_all).1 ≠ none := by
  show (m.rep_list.insert name _)[name]? ≠ none
  rw [Std.ExtTreeMap.getElem?_insert_self]
  simp

/-- `GentRepMgr::Logout`.  `created` says whether the thread that clears the queue could be started:
it comes **after** `SetLogout` has done its work. -/
def logout (m : GentRepMgr) (name : Str) (created : Bool) : Bool × GentRepMgr :=
  match m.rep_list[name]? with
  | none => (true, m)
  | some e =>
      match (m.load e).setLogout with
      | (false, _) => (false, m)
      | (true, rep) =>
          let m := m.store name e.slot rep
          if created then (true, { m with rep_list := m.rep_list.erase name }) else (false, m)

/-- What a push does in the slot of a replication: one that runs sets the time. -/
def stamp (f : GentFile) (now : ℕ) (e : Registered) : GentFile :=
  if e.rep.is_run then f.setSlot e.slot ((f.slot e.slot).set .ser_time now) else f

/-- `GentRepMgr::Push`, and the names of the replications that the master thread is told about. -/
def push (m : GentRepMgr) (now id : ℕ) (type : OptType) (key : Str) : GentRepMgr × List Str :=
  ({ m with
      rep_list := m.rep_list.map fun _ e => ⟨e.slot, ((m.load e).push now id type key).1⟩
      repfile := m.rep_list.toList.foldl (fun f it => stamp f now it.2) m.repfile },
    (m.rep_list.toList.filter fun it => ((m.load it.2).push now id type key).2).map Prod.fst)

lemma registers_push {m : GentRepMgr} {now id : ℕ} {type : OptType} {key n : Str} {e' : Registered} :
    (m.push now id type key).1.Registers n e' ↔
      ∃ e, m.Registers n e ∧ e' = ⟨e.slot, ((m.load e).push now id type key).1⟩ := by
  unfold Registers push
  rw [Std.ExtTreeMap.getElem?_map, Option.map_eq_some_iff]
  exact exists_congr fun e => and_congr_right fun _ => eq_comm

lemma is_run_push (r : GentReplication) (now id : ℕ) (type : OptType) (key : Str) :
    (r.push now id type key).1.is_run = r.is_run := by
  unfold GentReplication.push
  split_ifs
  · rfl
  · rfl

/-- `SetConn` and `Destroy` on the replication of a name. -/
def setConn (m : GentRepMgr) (name : Str) (conn : Bool) : GentRepMgr :=
  { m with rep_list := m.rep_list.modify name fun e => ⟨e.slot, { e.rep with conn }⟩ }

/-! ## A new file -/

/-- A file as it is created. -/
def emptyFile : List Str := List.replicate slaveNum (List.replicate (slaveNameSize + 21) 0)

/-- The manager of a new file. -/
def emptyMgr : GentRepMgr :=
  ⟨∅, ∅, ⟨List.replicate slaveNum (RepInfo.init [] (List.replicate (slaveNameSize + 21) 0)), ∅⟩⟩

lemma new_emptyFile : new [] emptyFile = emptyMgr := by
  have hload : ∀ (n k : ℕ) (names : NameMap ℕ), GentFile.loadNames
      (List.replicate n (RepInfo.init [] (List.replicate (slaveNameSize + 21) 0))) k names
        = names := by
    intro n
    induction n with
    | zero => exact fun _ _ => rfl
    | succ n ih => exact fun k names => ih (k + 1) names
  unfold new GentFile.init emptyFile emptyMgr
  simp only [List.map_replicate, hload]

/-- A moment with an empty database. -/
def quiet : Creation := ⟨.empty, 1700000000, false, 0⟩

end GentRepMgr

end Riser
