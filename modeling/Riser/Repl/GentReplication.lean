import Riser.Repl.RepInfo
import Riser.Store.Refinement

/-!
# `GentReplication`: the master's queues for one slave

Every write of the master leaves an entry in `main_que`; a full synchronisation first fills `que`
with one entry per stored key.  An entry names a **key and a kind of change, not a value**: `start`
reads the value when it builds a batch.  A batch covers at most two entries from the front of the
active queue; the entries it covers are flagged `is_sync`, and an acknowledgement (`ok` while
`status` is 1) removes flagged entries from the front.

`outstr` is kept as the operation it is printed from (`Batch`), with the printing in
`Batch.outstr`.  The clock is read once per call.  Left out are `slave_ip`, the logging and the
report of `GetInfo`; a connection is only present or absent here.

What a call of `start` does is said once, by `QueueInv.start`: in terms of the entries still to be
sent, `que` followed by `main_que`, it drops a flagged prefix when it is acknowledged, and flags
the prefix that its batch covers (`StartStep`).
-/

namespace Riser

open Cpp

/-- `itemData::optType`. -/
inductive OptType where
  | ADD
  | DEL
  deriving DecidableEq, Repr

/-- `class itemData`.  The queues hold pointers; `id` tells one allocated object from another. -/
structure ItemData where
  id : ℕ
  name : Str
  type : OptType
  is_sync : Bool
  deriving DecidableEq, Repr

/-- `itemData::setSync`. -/
def ItemData.setSync (it : ItemData) : ItemData := { it with is_sync := true }

/-- `SYNC_NUM`. -/
def syncNum : ℕ := 2

/-! ## Printing -/

/-- `GentReplication::MsetReply`. -/
def msetReply (outstr : Str) (num : ℕ) : Str :=
  snprintf 30 (lit "*" ++ decimal (num * 2 + 1) ++ lit "\r\n$4\r\nmset\r\n") ++ outstr

/-- `GentReplication::Reply`. -/
def reply (type : OptType) (key nr : Str) (expire : ℕ) : Str :=
  match type with
  | .ADD =>
      (if expire = 0 then
        snprintf 300 (lit "*3\r\n$3\r\nset\r\n$" ++ decimal key.length ++ lit "\r\n" ++ cstr key
          ++ lit "\r\n$" ++ decimal nr.length ++ lit "\r\n")
      else
        let expstr := snprintf 20 (decimal expire)
        snprintf 300 (lit "*4\r\n$5\r\nsetex\r\n$" ++ decimal key.length ++ lit "\r\n" ++ cstr key
          ++ lit "\r\n$" ++ decimal expstr.length ++ lit "\r\n" ++ expstr
          ++ lit "\r\n$" ++ decimal nr.length ++ lit "\r\n")) ++ nr ++ lit "\r\n"
  | .DEL =>
      snprintf 300 (lit "*2\r\n$3\r\ndel\r\n$" ++ decimal key.length ++ lit "\r\n" ++ cstr key
        ++ lit "\r\n")

/-- `GentReplication::ReplyItem`. -/
def replyItem (key nr : Str) : Str :=
  snprintf 100 (lit "$" ++ decimal key.length ++ lit "\r\n" ++ cstr key
    ++ lit "\r\n$" ++ decimal nr.length ++ lit "\r\n") ++ nr ++ lit "\r\n"

/-- What `Start` leaves in `outstr`: a fixed text, the reply to one entry, or the entries of an
MSET with the values read for them. -/
inductive Batch where
  | text (outstr : Str)
  | del (it : ItemData)
  | add (it : ItemData) (nr : Str) (expire : ℕ)
  | mset (items : List (ItemData × Str))
  deriving DecidableEq

/-- The bytes. -/
def Batch.outstr : Batch → Str
  | .text outstr => outstr
  | .del it => reply .DEL it.name [] 0
  | .add it nr expire => reply .ADD it.name nr expire
  | .mset items => msetReply (items.flatMap fun p => replyItem p.1.name p.2) items.length

/-- The entries that were printed. -/
def Batch.items : Batch → List ItemData
  | .text _ => []
  | .del it => [it]
  | .add it _ _ => [it]
  | .mset items => items.map Prod.fst

/-! ## The queues -/

/-- `class GentReplication`. -/
structure GentReplication where
  is_run : Bool
  status : ℕ
  is_update_que : Bool
  main_que : List ItemData
  que : List ItemData
  main_que_length : ℕ
  rinfo : RepInfo
  conn : Bool
  deriving DecidableEq

namespace GentReplication

/-- The entries that a full synchronisation puts into `que`. -/
def fullSync (keys : List Str) (next : ℕ) : List ItemData :=
  keys.mapIdx fun i key => ⟨next + i, key, .ADD, false⟩

/-- The constructor.  Without a full synchronisation nothing sets `is_update_que`: it is then
whatever `uninit` the memory held.  Nothing sets `conn_` in any case; it is taken to be absent, as it is once
a connection has been attached and closed. -/
def new (rinfo : RepInfo) (db : GentDb) (now : ℕ) (is_sync_all uninit : Bool) (next : ℕ) :
    GentReplication :=
  let r : GentReplication :=
    { is_run := true, status := 0, is_update_que := uninit, main_que := [], que := [],
      main_que_length := 0, rinfo, conn := false }
  if rinfo.ser_time = 0 ∨ rinfo.rep_time < rinfo.ser_time then
    if is_sync_all then
      let keys := db.keys (lit "*")
      { r with
        is_update_que := true
        que := fullSync keys next
        main_que_length := keys.length
        rinfo := if rinfo.ser_time = 0 then rinfo.set .ser_time now else rinfo }
    else r
  else r

/-- `GentReplication::Push`, and whether it notifies the replication thread. -/
def push (r : GentReplication) (now id : ℕ) (type : OptType) (key : Str) :
    GentReplication × Bool :=
  if r.is_run = false then (r, false)
  else
    ({ r with
        main_que := r.main_que ++ [⟨id, key, type, false⟩]
        main_que_length := r.main_que_length + 1
        rinfo := r.rinfo.set .ser_time now }, decide (r.main_que_length = 0) && r.conn)

/-- The loop of `Pop` on one queue: up to `max` flagged entries leave the front. -/
def popSynced : ℕ → List ItemData → List ItemData
  | 0, q => q
  | _ + 1, [] => []
  | max + 1, it :: q => if it.is_sync then popSynced max q else it :: q

/-- `GentReplication::Pop`.  Only entries of `main_que` move `rep_time`: the test that should do it
for `que` asks for a null entry. -/
def pop (r : GentReplication) (is_rep : Bool) (now : ℕ) : GentReplication :=
  if r.is_update_que = false then
    let q := popSynced (syncNum * 2) r.main_que
    let num := r.main_que.length - q.length
    { r with
      main_que := q
      main_que_length := r.main_que_length - num
      rinfo := if is_rep ∧ num ≠ 0 then r.rinfo.set .rep_time now else r.rinfo }
  else
    let q := popSynced (syncNum * 2) r.que
    { r with que := q, main_que_length := r.main_que_length - (r.que.length - q.length) }

/-- `GentListQueue::front_nums_element`, `none` for `false`. -/
def frontNums (q : List ItemData) (num : ℕ) : Option (List ItemData) :=
  if q = [] then none else some (q.take num)

/-- `GentReplication::front_nums_element`, which turns to `main_que` when `que` is exhausted. -/
def frontNumsElement (r : GentReplication) (now num : ℕ) :
    GentReplication × Option (List ItemData) :=
  if r.is_update_que = false then (r, frontNums r.main_que num)
  else
    match frontNums r.que num with
    | some dat => (r, some dat)
    | none =>
        ({ r with
            is_update_que := false
            rinfo := if r.rinfo.rep_time = 0 then r.rinfo.set .rep_time now else r.rinfo },
          frontNums r.main_que num)

/-- The queue that `Start` works on. -/
def active (r : GentReplication) : List ItemData := if r.is_update_que then r.que else r.main_que

/-- The queue that it does not work on. -/
def resting (r : GentReplication) : List ItemData := if r.is_update_que then r.main_que else r.que

/-- Write back the entries that `Start` took by pointer from the front of the active queue. -/
def setFront (r : GentReplication) (synced : List ItemData) : GentReplication :=
  if r.is_update_que then { r with que := synced ++ r.que.drop synced.length }
  else { r with main_que := synced ++ r.main_que.drop synced.length }

/-- What the loop does with an entry whose key is to be deleted: flush the MSET collected so far,
or send the DEL if there is none. -/
def delOrFlush (it : ItemData) (rest : List ItemData) (out : List (ItemData × Str)) :
    List ItemData × Batch :=
  if out ≠ [] then (it :: rest, .mset out) else (it.setSync :: rest, .del it)

/-- The batch loop of `Start` over `syncData`; `out` are the entries printed so far, `msetNum` many.
It returns the entries as it leaves them, and the batch. -/
def batchLoop (db : GentDb) (now : ℕ) :
    List ItemData → List (ItemData × Str) → Except Fault (List ItemData × Batch)
  | [], out => .ok ([], .mset out)
  | it :: rest, out =>
      if it.type ≠ .ADD then .ok (delOrFlush it rest out)
      else
        match db.getExpire it.name with
        | .error f => .error f
        | .ok (none, _) => .ok (delOrFlush it rest out)
        | .ok (some nr, expire) =>
            if expire ≠ 0 ∧ expire < now then .ok (delOrFlush it rest out)
            else if expire ≠ 0 then
              if out ≠ [] then .ok (it :: rest, .mset out)
              else .ok (it.setSync :: rest, .add it nr (expire - now))
            else
              -- an entry with an empty name is flagged without being printed
              (batchLoop db now rest (if it.name ≠ [] then out ++ [(it, nr)] else out)).map
                fun p => (it.setSync :: p.1, p.2)

/-- The two words with which the slave asks for entries. -/
inductive Word where
  | data
  | ok
  deriving DecidableEq

/-- The word as it arrives. -/
def Word.text : Word → Str
  | .data => lit "data"
  | .ok => lit "ok"

lemma Word.text_cases (w : Word) : w.text = lit "ok" ∨ w.text = lit "data" := by
  cases w
  · exact Or.inr rfl
  · exact Or.inl rfl

/-- What `Start` does with the message before it looks for new entries. -/
def acknowledge (r : GentReplication) (now : ℕ) (msg : Str) : GentReplication :=
  if r.status = 1 then
    if msg = lit "ok" then { r with status := 0 }.pop true now else { r with status := 0 }
  else r

/-- `GentReplication::Start`.  The test for `error` inside the acknowledgement is not reached. -/
def start (r : GentReplication) (db : GentDb) (now : ℕ) (msg : Str) :
    Except Fault (GentReplication × Batch × Bool) :=
  let r := { r with conn := true }
  if msg = lit "auth" then
    .ok (r, .text (lit "*2\r\n$5\r\nreply\r\n$6\r\nauthok\r\n"), true)
  else if msg = lit "autherror" then
    .ok (r, .text (lit "*2\r\n$5\r\nreply\r\n$9\r\nautherror\r\n"), true)
  else if msg ≠ lit "ok" ∧ msg ≠ lit "data" then
    .ok (r, .text (lit "*2\r\n$5\r\nreply\r\n$5\r\nclose\r\n"), true)
  else
    match (r.acknowledge now msg).frontNumsElement now syncNum with
    | (r, none) => .ok (r, .text [], false)
    | (r, some syncData) =>
        (batchLoop db now syncData []).map fun p =>
          ({ r with status := 1 }.setFront p.1, p.2, true)

/-! ## What a batch covers -/

/-- The entry stands for a deletion: it is one, or its key is missing or past its expiry. -/
def Gone (db : GentDb) (now : ℕ) (it : ItemData) : Prop :=
  it.type ≠ .ADD ∨ (∃ e, db.getExpire it.name = .ok (none, e)) ∨
    ∃ v e, db.getExpire it.name = .ok (some v, e) ∧ e ≠ 0 ∧ e < now

/-- **One turn of the batch loop**, by its outcome: what becomes of the entries, and the batch. -/
inductive Turn (db : GentDb) (now : ℕ) (it : ItemData) (rest : List ItemData)
    (out : List (ItemData × Str)) : List ItemData → Batch → Prop where
  /-- The MSET collected so far goes out, and the entry waits. -/
  | flush (hout : out ≠ []) : Turn db now it rest out (it :: rest) (.mset out)
  /-- The entry goes out alone, as a DEL. -/
  | del (hout : out = []) (hg : Gone db now it) :
      Turn db now it rest out (it.setSync :: rest) (.del it)
  /-- The entry goes out alone, with the rest of its time to live. -/
  | add (hout : out = []) {nr : Str} {expire : ℕ} (htype : it.type = .ADD)
      (hget : db.getExpire it.name = .ok (some nr, expire)) (h0 : expire ≠ 0)
      (hle : now ≤ expire) :
      Turn db now it rest out (it.setSync :: rest) (.add it nr (expire - now))
  /-- The entry joins the MSET. -/
  | join {nr : Str} {rest' : List ItemData} {b : Batch} (htype : it.type = .ADD)
      (hget : db.getExpire it.name = .ok (some nr, 0))
      (hrec : batchLoop db now rest (if it.name ≠ [] then out ++ [(it, nr)] else out)
        = .ok (rest', b)) :
      Turn db now it rest out (it.setSync :: rest') b

section Turns

variable {db : GentDb} {now : ℕ} {it : ItemData} {rest d' : List ItemData}
  {out : List (ItemData × Str)} {b : Batch}

lemma turn_delOrFlush (hg : Gone db now it)
    (h : Except.ok (ε := Fault) (delOrFlush it rest out) = .ok (d', b)) :
    Turn db now it rest out d' b := by
  have h := Except.ok.inj h
  unfold delOrFlush at h
  by_cases hout : out = []
  · rw [if_neg (not_not.mpr hout)] at h
    cases h
    exact .del hout hg
  · rw [if_pos hout] at h
    cases h
    exact .flush hout

lemma batchLoop_turn (h : batchLoop db now (it :: rest) out = .ok (d', b)) :
    Turn db now it rest out d' b := by
  rw [batchLoop] at h
  by_cases htype : it.type = .ADD
  swap
  · rw [if_pos htype] at h
    exact turn_delOrFlush (Or.inl htype) h
  rw [if_neg (not_not.mpr htype)] at h
  cases hget : db.getExpire it.name with
  | error f => simp [hget] at h
  | ok p =>
      obtain ⟨v, expire⟩ := p
      simp only [hget] at h
      cases v with
      | none => exact turn_delOrFlush (Or.inr (Or.inl ⟨expire, hget⟩)) h
      | some nr =>
          by_cases hexp : expire ≠ 0 ∧ expire < now
          · simp only [if_pos hexp] at h
            exact turn_delOrFlush (Or.inr (Or.inr ⟨nr, expire, hget, hexp⟩)) h
          simp only [if_neg hexp] at h
          by_cases h0 : expire = 0
          · subst h0
            rw [if_neg (not_not.mpr rfl)] at h
            generalize hrec : batchLoop db now rest _ = o at h
            cases o with
            | error f => cases h
            | ok p =>
                cases h
                exact .join htype hget hrec
          · rw [if_pos h0] at h
            by_cases hout : out = []
            · rw [if_neg (not_not.mpr hout)] at h
              cases h
              exact .add hout htype hget h0 (not_lt.mp fun hlt => hexp ⟨h0, hlt⟩)
            · rw [if_pos hout] at h
              cases h
              exact .flush hout

end Turns

/-- **What a batch covers.**  The loop flags the first `n` entries it is given and prints those of
them that have a name, after what was printed before.  A first entry is always covered. -/
lemma batchLoop_spec {db : GentDb} {now : ℕ} {d d' : List ItemData} {out : List (ItemData × Str)}
    {b : Batch} (h : batchLoop db now d out = .ok (d', b)) :
    ∃ n ≤ d.length, d' = (d.take n).map ItemData.setSync ++ d.drop n ∧
      (out = [] → d ≠ [] → 0 < n) ∧
      (∀ it ∈ d.take n, it.name ≠ [] → it ∈ b.items) ∧ ∀ p ∈ out, p.1 ∈ b.items := by
  induction d generalizing out d' b with
  | nil =>
      cases h
      exact ⟨0, by simp, by simp, by simp, by simp, fun p hp => List.mem_map_of_mem hp⟩
  | cons it rest ih =>
      cases batchLoop_turn h with
      | flush hout =>
          exact ⟨0, by simp, by simp, by simp [hout], by simp, fun p hp => List.mem_map_of_mem hp⟩
      | del hout _ => exact ⟨1, by simp, by simp, by simp, by simp [Batch.items], by simp [hout]⟩
      | add hout _ _ _ _ =>
          exact ⟨1, by simp, by simp, by simp, by simp [Batch.items], by simp [hout]⟩
      | @join nr rest' b _ _ hrec =>
          obtain ⟨n, hn, hd, -, hcov, hout⟩ := ih hrec
          refine ⟨n + 1, by simpa using hn, by simp [hd], by simp, ?_, ?_⟩
          · intro x hx hname
            rcases List.mem_cons.mp (by simpa using hx) with rfl | hx
            · exact hout (x, nr) (by simp [hname])
            · exact hcov x hx hname
          · intro q hq
            refine hout q ?_
            split_ifs <;> simp [hq]

/-- An entry that joins an MSET: a stored key without expiry. -/
def plain (db : GentDb) (it : ItemData) : Bool :=
  decide (it.type = .ADD) && match db.getExpire it.name with
    | .ok (some _, 0) => true
    | _ => false

lemma plain_iff {db : GentDb} {it : ItemData} :
    plain db it = true ↔ it.type = .ADD ∧ ∃ nr, db.getExpire it.name = .ok (some nr, 0) := by
  unfold plain
  split
  · rename_i nr hget
    simp [hget]
  · rename_i hne
    simp only [Bool.and_false, Bool.false_eq_true, false_iff, not_and, not_exists]
    exact fun _ nr hget => hne nr hget

/-- Plain entries all go out in one MSET. -/
lemma batchLoop_plain {db : GentDb} (now : ℕ) {d : List ItemData}
    (hd : ∀ it ∈ d, plain db it = true ∧ it.name ≠ []) (out : List (ItemData × Str)) :
    ∃ vs, vs.map Prod.fst = d ∧
      batchLoop db now d out = .ok (d.map ItemData.setSync, .mset (out ++ vs)) := by
  induction d generalizing out with
  | nil => exact ⟨[], rfl, by simp [batchLoop]⟩
  | cons it d ih =>
      obtain ⟨hplain, hname⟩ := hd it (by simp)
      obtain ⟨htype, nr, hget⟩ := plain_iff.mp hplain
      obtain ⟨vs, hvs, hrec⟩ := ih (fun x hx => hd x (by simp [hx])) (out ++ [(it, nr)])
      refine ⟨(it, nr) :: vs, by simp [hvs], ?_⟩
      simp [batchLoop, htype, hget, hname, hrec, Except.map]

/-- The loop always leaves a batch. -/
lemma batchLoop_ne_text {db : GentDb} {now : ℕ} {d d' : List ItemData}
    {out : List (ItemData × Str)} {t : Str} : batchLoop db now d out ≠ .ok (d', .text t) := by
  intro h
  induction d generalizing out d' with
  | nil => cases h
  | cons it rest ih =>
      cases batchLoop_turn h with
      | join _ _ hrec => exact ih hrec

/-! ## The shape of the queues -/

/-- The entries still to be sent, in the order of sending. -/
def pending (r : GentReplication) : List ItemData := r.que ++ r.main_que

/-- At most `SYNC_NUM` entries are flagged, and they are in front. -/
def SyncedFront (q : List ItemData) : Prop :=
  ∃ f u, q = f ++ u ∧ f.length ≤ syncNum ∧ (∀ it ∈ f, it.is_sync = true) ∧
    ∀ it ∈ u, it.is_sync = false

/-- `main_que` is not worked on before `que` is empty, and flags only stand in front. -/
structure QueueInv (r : GentReplication) : Prop where
  drained : r.is_update_que = false → r.que = []
  waiting : r.is_update_que = true → ∀ it ∈ r.main_que, it.is_sync = false
  front : SyncedFront r.active
  length : r.main_que_length = r.pending.length

/-- Enough turns of `Pop` remove exactly the flagged entries. -/
lemma popSynced_append {f u : List ItemData} {max : ℕ} (hf : ∀ it ∈ f, it.is_sync = true)
    (hu : ∀ it ∈ u, it.is_sync = false) (hlen : f.length ≤ max) :
    popSynced max (f ++ u) = u := by
  induction f generalizing max with
  | nil =>
      cases max with
      | zero => rfl
      | succ max =>
          cases u with
          | nil => rfl
          | cons it u => simp [popSynced, hu it (by simp)]
  | cons it f ih =>
      cases max with
      | zero => simp at hlen
      | succ max =>
          simp only [List.cons_append, popSynced, hf it (by simp), if_true]
          exact ih (fun x hx => hf x (by simp [hx])) (by simpa using hlen)

/-- Flagging a covered prefix keeps the shape. -/
lemma SyncedFront.setFront {q : List ItemData} {n : ℕ} (h : SyncedFront q) (hn : n ≤ syncNum) :
    SyncedFront ((q.take n).map ItemData.setSync ++ q.drop n) := by
  obtain ⟨f, u, rfl, hlen, hf, hu⟩ := h
  refine ⟨((f ++ u).take n).map ItemData.setSync ++ f.drop n, u.drop (n - f.length), ?_, ?_, ?_, ?_⟩
  · simp [List.drop_append]
  · simp only [List.length_append, List.length_map, List.length_take, List.length_drop]
    omega
  · intro it hit
    rcases List.mem_append.mp hit with hit | hit
    · obtain ⟨x, -, rfl⟩ := List.mem_map.mp hit
      rfl
    · exact hf it (List.mem_of_mem_drop hit)
  · exact fun it hit => hu it (List.mem_of_mem_drop hit)

variable {r : GentReplication}

/-- The active queue is a front part of what is pending, and nothing behind it is flagged. -/
lemma QueueInv.pending_eq (h : QueueInv r) :
    ∃ t, r.pending = r.active ++ t ∧ ∀ it ∈ t, it.is_sync = false := by
  cases hq : r.is_update_que with
  | true => exact ⟨r.main_que, by simp [pending, active, hq], h.waiting hq⟩
  | false => exact ⟨[], by simp [pending, active, hq, h.drained hq], by simp⟩

/-- What `Start` looks at, as a part of what is pending: nothing behind it is flagged. -/
lemma QueueInv.pending_take (h : QueueInv r) :
    r.pending.take (r.active.take syncNum).length = r.active.take syncNum ∧
      ∀ it ∈ r.pending.drop (r.active.take syncNum).length, it.is_sync = false := by
  obtain ⟨t, ht, htu⟩ := h.pending_eq
  obtain ⟨f, u, hq, hlen, -, hu⟩ := h.front
  have hle : (r.active.take syncNum).length ≤ r.active.length := List.length_take_le' ..
  rw [ht, List.take_append_of_le_length hle, List.drop_append_of_le_length hle]
  refine ⟨by rw [List.length_take, ← List.take_eq_take_min], ?_⟩
  intro it hit
  rcases List.mem_append.mp hit with hit | hit
  · rw [List.length_take] at hit
    rcases Nat.le_total syncNum r.active.length with hle | hle
    · rw [Nat.min_eq_left hle, hq, List.drop_append, List.drop_of_length_le hlen] at hit
      exact hu it (List.mem_of_mem_drop hit)
    · simp [Nat.min_eq_right hle] at hit
  · exact htu it hit

/-- One `Pop` removes every flagged entry. -/
lemma QueueInv.pop (h : QueueInv r) (now : ℕ) :
    ∃ p, r.pending = p ++ (r.pop true now).pending ∧ (∀ it ∈ p, it.is_sync = true) ∧
      (∀ it ∈ (r.pop true now).pending, it.is_sync = false) ∧ QueueInv (r.pop true now) := by
  obtain ⟨f, u, hq, hlen, hf, hu⟩ := h.front
  have hpop : popSynced (syncNum * 2) (f ++ u) = u := popSynced_append hf hu (by omega)
  have hu' : SyncedFront u := ⟨[], u, rfl, by simp, by simp, hu⟩
  have hl := h.length
  refine ⟨f, ?_⟩
  cases hflag : r.is_update_que with
  | false =>
      have hque := h.drained hflag
      have hmain : r.main_que = f ++ u := by simpa [active, hflag] using hq
      simp only [pending, hque, hmain, List.nil_append, List.length_append] at hl
      have hp : (r.pop true now).pending = u := by
        simp [GentReplication.pop, hflag, hmain, hpop, pending, hque]
      refine ⟨by rw [hp]; simp [pending, hque, hmain], hf, hp ▸ hu, ?_⟩
      constructor
      · simp [GentReplication.pop, hflag, hque]
      · simp [GentReplication.pop, hflag]
      · simpa [GentReplication.pop, hflag, active, hmain, hpop] using hu'
      · rw [hp]
        simp only [GentReplication.pop, hflag, if_true, hmain, hpop, hl, List.length_append]
        omega
  | true =>
      have hque : r.que = f ++ u := by simpa [active, hflag] using hq
      have hmain := h.waiting hflag
      simp only [pending, hque, List.length_append] at hl
      have hp : (r.pop true now).pending = u ++ r.main_que := by
        simp [GentReplication.pop, hflag, hque, hpop, pending]
      refine ⟨by rw [hp]; simp [pending, hque], hf, ?_, ?_⟩
      · intro it hit
        rw [hp] at hit
        exact (List.mem_append.mp hit).elim (hu it) (hmain it)
      constructor
      · simp [GentReplication.pop, hflag]
      · simpa [GentReplication.pop, hflag] using hmain
      · simpa [GentReplication.pop, hflag, active, hque, hpop] using hu'
      · rw [hp]
        simp only [GentReplication.pop, hflag, Bool.true_eq_false, if_false, hque, hpop, hl,
          List.length_append]
        omega

/-- **The acknowledgement.**  It removes flagged entries only, and only for an `ok` while a batch
is out; then it removes all of them. -/
lemma QueueInv.acknowledge (h : QueueInv r) (now : ℕ) (msg : Str) :
    ∃ p, r.pending = p ++ (r.acknowledge now msg).pending ∧ (∀ it ∈ p, it.is_sync = true) ∧
      (p ≠ [] → r.status = 1 ∧ msg = lit "ok") ∧
      (r.status = 1 ∧ msg = lit "ok" →
        ∀ it ∈ (r.acknowledge now msg).pending, it.is_sync = false) ∧
      QueueInv (r.acknowledge now msg) := by
  have h0 : QueueInv { r with status := 0 } := ⟨h.drained, h.waiting, h.front, h.length⟩
  unfold GentReplication.acknowledge
  by_cases hs : r.status = 1
  · by_cases hm : msg = lit "ok"
    · obtain ⟨p, hp, hpf, hpu, hinv⟩ := h0.pop now
      simp only [hs, hm, if_true]
      exact ⟨p, hp, hpf, by simp, fun _ => hpu, hinv⟩
    · simp only [hs, hm, if_true, if_false]
      exact ⟨[], rfl, by simp, by simp, by simp, h0⟩
  · simp only [hs, if_false]
    exact ⟨[], rfl, by simp, by simp, by simp, h⟩

/-- **Looking at the front.**  The entries stay as they are; there are none to look at only if
nothing is pending. -/
lemma QueueInv.frontNumsElement (h : QueueInv r) {now : ℕ} {r' : GentReplication}
    {o : Option (List ItemData)} (ho : r.frontNumsElement now syncNum = (r', o)) :
    QueueInv r' ∧ r'.pending = r.pending ∧
      (o = none → r.pending = []) ∧ ∀ d ∈ o, d = r'.active.take syncNum ∧ r'.active ≠ [] := by
  unfold GentReplication.frontNumsElement frontNums at ho
  cases hflag : r.is_update_que with
  | false =>
      have hque := h.drained hflag
      rw [if_pos hflag] at ho
      obtain ⟨rfl, rfl⟩ := Prod.mk.inj ho
      refine ⟨h, rfl, ?_, ?_⟩
      · intro hnone
        simp_all [pending]
      · intro d hd
        by_cases hm : r.main_que = [] <;> simp_all [active]
  | true =>
      rw [if_neg (by simp [hflag])] at ho
      by_cases hq : r.que = []
      · simp only [hq, if_true] at ho
        obtain ⟨rfl, rfl⟩ := Prod.mk.inj ho
        have hmain := h.waiting hflag
        refine ⟨⟨fun _ => rfl, by simp, ?_, by simpa [pending, hq] using h.length⟩,
          by simp [pending, hq], ?_, ?_⟩
        · exact ⟨[], r.main_que, by simp [active], by simp, by simp, hmain⟩
        · intro hnone
          simp_all [pending]
        · intro d hd
          by_cases hm : r.main_que = [] <;> simp_all [active]
      · simp only [hq, if_false] at ho
        obtain ⟨rfl, rfl⟩ := Prod.mk.inj ho
        refine ⟨h, rfl, by simp, ?_⟩
        intro d hd
        simp_all [active]

/-- The queues do not depend on the connection. -/
lemma QueueInv.setConn (h : QueueInv r) (conn : Bool) : QueueInv { r with conn } :=
  ⟨h.drained, h.waiting, h.front, h.length⟩

/-- A new replication either starts a full synchronisation or has nothing to send. -/
lemma new_que (rinfo : RepInfo) (db : GentDb) (now : ℕ) (is_sync_all uninit : Bool) (next : ℕ) :
    let r := new rinfo db now is_sync_all uninit next
    r.is_run = true ∧ r.conn = false ∧ r.main_que = [] ∧ r.main_que_length = r.que.length ∧
      (r.is_update_que = true ∧ r.que = fullSync (db.keys (lit "*")) next ∨ r.que = []) := by
  by_cases hser : rinfo.ser_time = 0 ∨ rinfo.rep_time < rinfo.ser_time
  · cases is_sync_all with
    | true => simp [GentReplication.new, if_pos hser, fullSync]
    | false => simp [GentReplication.new]
  · simp [GentReplication.new, if_neg hser]

lemma new_unsynced (rinfo : RepInfo) (db : GentDb) (now : ℕ) (is_sync_all uninit : Bool)
    (next : ℕ) :
    ∀ it ∈ (new rinfo db now is_sync_all uninit next).pending, it.is_sync = false := by
  obtain ⟨-, -, hmain, -, hque⟩ := new_que rinfo db now is_sync_all uninit next
  intro it hit
  rw [pending, hmain, List.append_nil] at hit
  rcases hque with ⟨-, hque⟩ | hque
  · rw [hque] at hit
    obtain ⟨i, hi, rfl⟩ := List.mem_mapIdx.mp hit
    rfl
  · simp [hque] at hit

lemma QueueInv.new (rinfo : RepInfo) (db : GentDb) (now : ℕ) (is_sync_all uninit : Bool)
    (next : ℕ) : QueueInv (new rinfo db now is_sync_all uninit next) := by
  obtain ⟨-, -, hmain, hlen, hque⟩ := new_que rinfo db now is_sync_all uninit next
  have hun := new_unsynced rinfo db now is_sync_all uninit next
  constructor
  · intro hflag
    rcases hque with ⟨hupd, -⟩ | hque
    · simp [hupd] at hflag
    · exact hque
  · simp [hmain]
  · refine ⟨[], active _, (List.nil_append _).symm, by simp, by simp, fun it hit => hun it ?_⟩
    simp only [active] at hit
    simp only [pending]
    split_ifs at hit <;> simp [hit]
  · simp [pending, hmain, hlen]

lemma push_pending (hrun : r.is_run = true) (now id : ℕ) (type : OptType) (key : Str) :
    (r.push now id type key).1.pending = r.pending ++ [⟨id, key, type, false⟩] := by
  simp [push, hrun, pending]

/-- An entry is pushed without a flag, behind all others. -/
lemma QueueInv.push (h : QueueInv r) (now id : ℕ) (type : OptType) (key : Str) :
    QueueInv (r.push now id type key).1 := by
  cases hrun : r.is_run with
  | false => simpa [GentReplication.push, hrun] using h
  | true =>
      obtain ⟨f, u, hq, hlen, hf, hu⟩ := h.front
      constructor
      · simpa [GentReplication.push, hrun] using h.drained
      · intro hflag it hit
        simp only [GentReplication.push, hrun, Bool.true_eq_false, if_false] at hflag hit
        rcases List.mem_append.mp hit with hit | hit
        · exact h.waiting hflag it hit
        · obtain rfl := List.mem_singleton.mp hit
          rfl
      · cases hflag : r.is_update_que with
        | true => simpa [GentReplication.push, hrun, active, hflag] using h.front
        | false =>
            refine ⟨f, u ++ [⟨id, key, type, false⟩], ?_, hlen, hf, ?_⟩
            · simp only [active, hflag, Bool.false_eq_true, if_false] at hq
              simp [GentReplication.push, hrun, active, hflag, hq]
            · intro it hit
              rcases List.mem_append.mp hit with hit | hit
              · exact hu it hit
              · obtain rfl := List.mem_singleton.mp hit
                rfl
      · rw [push_pending hrun]
        simp [GentReplication.push, hrun, h.length]

lemma drop_take_append_drop (q : List ItemData) {n k : ℕ} (h : n ≤ k) :
    (q.take k).drop n ++ q.drop k = q.drop n := by
  rw [List.drop_take, ← Nat.add_sub_cancel' h, ← List.drop_drop, Nat.add_sub_cancel_left,
    List.take_append_drop]

/-- Writing back what the batch loop flagged, on the active queue. -/
lemma active_setFront {n : ℕ} {d' : List ItemData}
    (hd : d' = ((r.active.take syncNum).take n).map ItemData.setSync
      ++ (r.active.take syncNum).drop n) (hn : n ≤ (r.active.take syncNum).length) :
    (r.setFront d').active = (r.active.take n).map ItemData.setSync ++ r.active.drop n := by
  have hlen : d'.length = (r.active.take syncNum).length := by
    rw [hd]
    simp only [List.length_append, List.length_map, List.length_take, List.length_drop] at hn ⊢
    omega
  have hn2 : n ≤ syncNum := hn.trans (List.length_take_le ..)
  have hact : d' ++ r.active.drop d'.length
      = (r.active.take n).map ItemData.setSync ++ r.active.drop n := by
    have hsplit := drop_take_append_drop r.active hn2
    have hdrop : r.active.drop d'.length = r.active.drop syncNum := by
      rw [hlen, List.length_take]
      rcases Nat.le_total syncNum r.active.length with hle | hle
      · rw [Nat.min_eq_left hle]
      · rw [Nat.min_eq_right hle, List.drop_length, List.drop_of_length_le hle]
    rw [hd] at hdrop ⊢
    rw [hdrop, List.append_assoc, hsplit, List.take_take, Nat.min_eq_left hn2]
  rw [← hact, GentReplication.setFront]
  cases hflag : r.is_update_que <;> simp [active, hflag]

/-- On all that is pending. -/
lemma QueueInv.setFront (h : QueueInv r) {n : ℕ} {d' : List ItemData}
    (hd : d' = ((r.active.take syncNum).take n).map ItemData.setSync
      ++ (r.active.take syncNum).drop n) (hn : n ≤ (r.active.take syncNum).length) :
    QueueInv (r.setFront d') ∧
      (r.setFront d').pending = (r.pending.take n).map ItemData.setSync ++ r.pending.drop n := by
  have hn2 : n ≤ syncNum := hn.trans (List.length_take_le ..)
  have hna : n ≤ r.active.length := hn.trans (List.length_take_le' ..)
  have hact := active_setFront hd hn
  have hfront := h.front.setFront hn2
  rw [← hact] at hfront
  cases hflag : r.is_update_que with
  | false =>
      have hque := h.drained hflag
      have hmain : r.active = r.main_que := by simp [active, hflag]
      have hp : (r.setFront d').pending
          = (r.main_que.take n).map ItemData.setSync ++ r.main_que.drop n := by
        rw [hmain] at hact
        simpa [GentReplication.setFront, hflag, pending, hque, active] using hact
      rw [hmain] at hna
      refine ⟨⟨?_, ?_, hfront, ?_⟩, by rw [hp]; simp [pending, hque]⟩
      · simp [GentReplication.setFront, hflag, hque]
      · simp [GentReplication.setFront, hflag]
      · have hl := h.length
        rw [hp]
        simp only [GentReplication.setFront, hflag, Bool.false_eq_true, if_false, hl, pending, hque,
          List.nil_append, List.length_append, List.length_map, List.length_take, List.length_drop]
        omega
  | true =>
      have hque : r.active = r.que := by simp [active, hflag]
      have hp : (r.setFront d').pending
          = (r.que.take n).map ItemData.setSync ++ r.que.drop n ++ r.main_que := by
        rw [hque, active, GentReplication.setFront, if_pos hflag, if_pos hflag] at hact
        rw [GentReplication.setFront, if_pos hflag, pending, hact]
      rw [hque] at hna
      refine ⟨⟨?_, ?_, hfront, ?_⟩, ?_⟩
      · simp [GentReplication.setFront, hflag]
      · simpa [GentReplication.setFront, hflag] using h.waiting hflag
      · have hl := h.length
        rw [hp]
        simp only [GentReplication.setFront, hflag, if_true, hl, pending, List.length_append,
          List.length_map, List.length_take, List.length_drop]
        omega
      · rw [hp, pending, List.take_append_of_le_length hna, List.drop_append_of_le_length hna,
          List.append_assoc]

/-- What a call of `Start` does, in terms of the pending entries: the acknowledged prefix `p` is
removed, the batch looks at the first `k` of the remaining `q`, and flags the first `n`. -/
structure StartStep (r : GentReplication) (db : GentDb) (now : ℕ) (msg : Str)
    (r' : GentReplication) (b : Batch) (p q : List ItemData) (k n : ℕ) : Prop where
  split : r.pending = p ++ q
  popped : ∀ it ∈ p, it.is_sync = true
  acked : p ≠ [] → r.status = 1 ∧ msg = lit "ok"
  fresh : r.status = 1 ∧ msg = lit "ok" → ∀ it ∈ q, it.is_sync = false
  waiting : ∀ it ∈ q.drop k, it.is_sync = false
  after : r'.pending = (q.take n).map ItemData.setSync ++ q.drop n
  covers : ∀ it ∈ q.take n, it.name ≠ [] → it ∈ b.items
  batch : q = [] ∧ b = .text [] ∨
    q ≠ [] ∧ 0 < n ∧ n ≤ k ∧ k ≤ syncNum ∧ k ≤ q.length ∧
      batchLoop db now (q.take k) []
        = .ok (((q.take k).take n).map ItemData.setSync ++ (q.take k).drop n, b)

/-- The two ways `Start` ends on a word of the slave. -/
inductive Started (r : GentReplication) (db : GentDb) (now : ℕ) (msg : Str) :
    GentReplication → Batch → Prop where
  /-- Nothing is pending. -/
  | idle {r₁ : GentReplication}
      (hf : ({ r with conn := true }.acknowledge now msg).frontNumsElement now syncNum
        = (r₁, none)) : Started r db now msg r₁ (.text [])
  /-- A batch is built from the entries at the front. -/
  | batch {r₁ : GentReplication} {d d' : List ItemData} {b : Batch}
      (hf : ({ r with conn := true }.acknowledge now msg).frontNumsElement now syncNum
        = (r₁, some d)) (hb : batchLoop db now d [] = .ok (d', b)) :
      Started r db now msg ({ r₁ with status := 1 }.setFront d') b

lemma start_cases {db : GentDb} {now : ℕ} {msg : Str} (hmsg : msg = lit "ok" ∨ msg = lit "data")
    {r' : GentReplication} {b : Batch} {ret : Bool}
    (hs : r.start db now msg = .ok (r', b, ret)) : Started r db now msg r' b := by
  have hna : msg ≠ lit "auth" := by rcases hmsg with rfl | rfl <;> decide
  have hne : msg ≠ lit "autherror" := by rcases hmsg with rfl | rfl <;> decide
  have hnc : ¬ (msg ≠ lit "ok" ∧ msg ≠ lit "data") := by tauto
  simp only [GentReplication.start, hna, hne, hnc, if_false] at hs
  generalize hf : GentReplication.frontNumsElement _ now syncNum = res at hs
  obtain ⟨r₁, o⟩ := res
  cases o with
  | none =>
      cases hs
      exact .idle hf
  | some d =>
      simp only at hs
      cases hb : batchLoop db now d [] with
      | error f => simp [hb, Except.map] at hs
      | ok res =>
          simp only [hb, Except.map, Except.ok.injEq, Prod.mk.injEq] at hs
          obtain ⟨rfl, rfl, -⟩ := hs
          exact .batch hf hb

/-- On any other message it answers with a fixed text, and the queues stay as they are. -/
lemma start_other {db : GentDb} {now : ℕ} {msg : Str} (hmsg : ¬ (msg = lit "ok" ∨ msg = lit "data"))
    {r' : GentReplication} {b : Batch} {ret : Bool} (hs : r.start db now msg = .ok (r', b, ret)) :
    r' = { r with conn := true } ∧ ∃ t, b = .text t := by
  have hclose : msg ≠ lit "ok" ∧ msg ≠ lit "data" := not_or.mp hmsg
  simp only [GentReplication.start, if_pos hclose] at hs
  split_ifs at hs <;> cases hs <;> exact ⟨rfl, _, rfl⟩

/-- `Start` does not stop the replication. -/
lemma start_is_run {db : GentDb} {now : ℕ} {msg : Str} (hmsg : msg = lit "ok" ∨ msg = lit "data")
    {r' : GentReplication} {b : Batch} {ret : Bool}
    (hs : r.start db now msg = .ok (r', b, ret)) : r'.is_run = r.is_run := by
  have hack : ∀ r : GentReplication, (r.acknowledge now msg).is_run = r.is_run := by
    intro r
    unfold GentReplication.acknowledge GentReplication.pop
    split_ifs <;> rfl
  have hfront : ∀ {r r₁ : GentReplication} {o}, r.frontNumsElement now syncNum = (r₁, o) →
      r₁.is_run = r.is_run := by
    intro r r₁ o hf
    have hf := congrArg (fun x => x.1.is_run) hf
    rw [← show _ = r₁.is_run from hf]
    cases hq : frontNums r.que syncNum <;> cases hu : r.is_update_que <;>
      simp [GentReplication.frontNumsElement, hq, hu]
  cases start_cases hmsg hs with
  | idle hf => rw [hfront hf, hack]
  | batch hf _ =>
      rw [GentReplication.setFront]
      split_ifs <;> exact (hfront hf).trans (hack _)

/-- What has left the queues is the acknowledged prefix. -/
lemma StartStep.removed {db : GentDb} {now : ℕ} {msg : Str} {r' : GentReplication} {b : Batch}
    {p q : List ItemData} {k n : ℕ} (h : StartStep r db now msg r' b p q k n) :
    r.pending.take (r.pending.length - r'.pending.length) = p := by
  have hlen : r'.pending.length = q.length := by
    rw [h.after]
    simp only [List.length_append, List.length_map, List.length_take, List.length_drop]
    omega
  rw [hlen, h.split, List.length_append, Nat.add_sub_cancel, List.take_left]

/-- What the batch loop returns stands in front of the entries it did not look at. -/
lemma StartStep.after_batch {db : GentDb} {now : ℕ} {msg : Str} {r' : GentReplication} {b b' : Batch}
    {p q d' : List ItemData} {k n : ℕ} (h : StartStep r db now msg r' b p q k n) (hq : q ≠ [])
    (hb : batchLoop db now (q.take k) [] = .ok (d', b')) : r'.pending = d' ++ q.drop k := by
  obtain ⟨hq', -⟩ | ⟨-, -, hnk, -, -, hb'⟩ := h.batch
  · exact absurd hq' hq
  rw [hb] at hb'
  obtain ⟨rfl, -⟩ := Prod.mk.inj (Except.ok.inj hb')
  rw [h.after, List.append_assoc, drop_take_append_drop q hnk, List.take_take, Nat.min_eq_left hnk]

/-- **`Start` on a message of the slave.** -/
theorem QueueInv.start (h : QueueInv r) {db : GentDb} {now : ℕ} {msg : Str}
    (hmsg : msg = lit "ok" ∨ msg = lit "data") {r' : GentReplication} {b : Batch} {ret : Bool}
    (hs : r.start db now msg = .ok (r', b, ret)) :
    QueueInv r' ∧ ∃ p q k n, StartStep r db now msg r' b p q k n := by
  have hc := h.setConn true
  obtain ⟨p, hp, hpf, hpa, hfresh, ha⟩ := hc.acknowledge now msg
  cases start_cases hmsg hs with
  | idle hf =>
      obtain ⟨h₁, hpend, hnone, -⟩ := ha.frontNumsElement hf
      have hq := hnone rfl
      refine ⟨h₁, p, [], 0, 0, ?_⟩
      exact ⟨by rw [← hq]; exact hp, hpf, hpa, by simp, by simp, by rw [hpend, hq]; rfl, by simp,
        Or.inl ⟨rfl, rfl⟩⟩
  | @batch r₁ d d' b hf hb =>
      obtain ⟨h₁, hpend, -, hsome⟩ := ha.frontNumsElement hf
      obtain ⟨rfl, hact⟩ := hsome d rfl
      obtain ⟨n, hn, hd, hpos, hcov, -⟩ := batchLoop_spec hb
      have h₁' : QueueInv { r₁ with status := 1 } := ⟨h₁.drained, h₁.waiting, h₁.front, h₁.length⟩
      obtain ⟨hinv, hafter⟩ := h₁'.setFront hd hn
      obtain ⟨htake, hwait⟩ := h₁.pending_take
      have hne : r₁.pending ≠ [] := by
        obtain ⟨t, ht, -⟩ := h₁.pending_eq
        simp [ht, hact]
      refine ⟨hinv, p, r₁.pending, (r₁.active.take syncNum).length, n, ?_⟩
      refine ⟨hpend ▸ hp, hpf, hpa, hpend ▸ hfresh, hwait, hafter, ?_, Or.inr ?_⟩
      · rwa [← htake, List.take_take, Nat.min_eq_left hn] at hcov
      refine ⟨hne, hpos rfl (by simpa [syncNum] using hact), hn, List.length_take_le .., ?_, ?_⟩
      · rw [← htake, List.length_take]
        exact Nat.min_le_right ..
      · rw [htake, hb, hd]

end GentReplication

end Riser
