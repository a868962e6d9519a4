import Riser.Store.KeyCount

/-!
# The counter over restarts

`key_num` outlives the process in the file `NUMBER`.  `SetNum` is called with every new value of the
counter, but it writes the file only when a hundred writes have gone by since it did so last, and `LoadNum`
reads it back when the database is opened.  `trigger_num_save`, which counts the writes, is maintained by
`Put` (after the call of `SetNum`) and by `BatchPut` (before it), and not by `Del`.  It is an `int`, and a
`Put` that overwrites a key does not call `SetNum`: with enough of them it becomes negative, and from then on
nothing is saved.

So a restart may lose what was counted since the file was written, and nothing finds the keys again: only a
counter of zero is not trusted by `Count`.  **A restart costs a hundred keys at most**: at any time, the
number of keys is at most the counter and a hundred for every restart so far (`size_le_count`), provided that
the file can be written and `trigger_num_save` does not overflow.  Nothing bounds the counter from above in this way: deletions are saved only
along with writes, and a restart brings back what has been counted off.

The file is emptied before it is written, and it may end up with any part of the text.  One that is too
short is not read, and the counter starts at zero.
-/

namespace Riser

open Cpp

/-- What becomes of a write to `NUMBER`: whether `fopen` succeeds, what `fwrite` reports, and how many bytes
are in the file in the end. -/
structure Saving where
  opened : Bool
  written : Bool
  left : ℕ

/-- The whole text is written. -/
def Saving.Full (o : Saving) : Prop := o.opened = true ∧ o.written = true ∧ 100 ≤ o.left

instance (o : Saving) : Decidable o.Full := inferInstanceAs (Decidable (_ ∧ _ ∧ _))

/-- `GentDb` with `trigger_num_save` and the file `NUMBER`. -/
structure NumberedDb where
  db : GentDb
  trigger_num_save : ℤ
  file : Option Str

namespace NumberedDb

/-! ## The file -/

/-- The buffer of `SetNum`. -/
def numText (num : ℕ) : Str := (snprintf 100 (decimal num) ++ List.replicate 100 0).take 100

/-- `GentDb::SetNum`. -/
def setNum (s : NumberedDb) (o : Saving) (num : ℕ) : NumberedDb :=
  if s.trigger_num_save < 100 then s
  else if o.opened then
    { s with
      file := some ((numText num).take o.left)
      trigger_num_save := if o.written then 0 else s.trigger_num_save }
  else s

/-- `GentDb::LoadNum`: `key_num` after the call, which is zero before it. -/
def loadNum : Option Str → ℕ
  | none => 0
  | some text => if text.length < 100 then 0 else toUInt64 (strtol (text.take 100))

/-! ## The operations -/

/-- `GentDb::Put` of a value. -/
def put (s : NumberedDb) (o : Saving) (now : ℕ) (key value : Str) (expire : ℕ) : NumberedDb :=
  let s' := if s.db.meta_db.contains key then s else s.setNum o (s.db.key_num + 1)
  ⟨(s.db.put true true now key value expire 1).1, toInt32 (s'.trigger_num_save + 1), s'.file⟩

/-- `GentDb::BatchPut`.  The trigger is incremented once for every pair. -/
def batchPut (s : NumberedDb) (o : Saving) (now : ℕ) (data : LevelDb) : NumberedDb :=
  let db := (s.db.batchPut true (fun _ => true) now data).1
  setNum ⟨db, toInt32 (s.trigger_num_save + data.size), s.file⟩ o db.key_num

/-- `GentDb::Del`. -/
def del (s : NumberedDb) (o : Saving) (key : Str) : NumberedDb :=
  let s' := if 0 < s.db.key_num then s.setNum o (s.db.key_num - 1) else s
  { s' with db := (s.db.del true true key).1 }

/-- `GentDb::Count`. -/
def count (s : NumberedDb) (o : Saving) (pre : Str) : ℕ × NumberedDb :=
  let (num, db) := s.db.count pre
  (num, if pre = [] ∧ s.db.key_num = 0 then setNum { s with db } o num else { s with db })

/-- One turn of the loop of `ClearExpireKey`; `os` are the writes to the file, by the number of the key. -/
def clearEntry (now : ℕ) (os : ℕ → Saving) (acc : NumberedDb × ℕ) (kv : Str × Str) :
    Except Fault (NumberedDb × ℕ) := do
  let dat ← metaUnserialize kv.2
  if dat.expire = 0 then pure acc
  else if now < dat.expire then pure acc
  else pure (acc.1.del (os acc.2) kv.1, acc.2 + 1)

/-- `GentDb::ClearExpireKey`. -/
def clearExpireKey (s : NumberedDb) (now : ℕ) (os : ℕ → Saving) : Except Fault (NumberedDb × ℕ) := do
  let (s, num) ← s.db.meta_db.toList.foldlM (clearEntry now os)
    ({ s with db := { s.db with is_clear := true } }, 0)
  return ({ s with db := { s.db with is_clear := false } }, num)

/-- A command; `DEL` deletes what `Get` finds. -/
def command (s : NumberedDb) (now : ℕ) (os : ℕ → Saving) : WriteCommand → Except Fault NumberedDb
  | .set key value => .ok (s.put (os 0) now key value 0)
  | .setex key value expire => .ok (s.put (os 0) now key value expire)
  | .mset data => .ok (s.batchPut (os 0) now data)
  | .del key => do
      match ← s.db.get now key with
      | none => return s
      | some _ => return s.del (os 0) key
  | .clearExpireKey => (s.clearExpireKey now os).map Prod.fst

/-- The process is started again: both leveldbs and the file are there. -/
def restart (s : NumberedDb) : NumberedDb :=
  ⟨⟨s.db.db, s.db.meta_db, loadNum s.file, 0, false⟩, 0, s.file⟩

/-! ## The system -/

/-- What can happen: a command, a question for the number of keys, and the end of the process. -/
inductive Ev where
  | command (now : ℕ) (os : ℕ → Saving) (c : WriteCommand)
  | count (o : Saving) (pre : Str)
  | restart

/-- A step. -/
def step (s : NumberedDb) : Ev → Option NumberedDb
  | .command now os c => (s.command now os c).toOption
  | .count o pre => some (s.count o pre).2
  | .restart => some s.restart

/-- The file can be written. -/
def Ev.Saved : Ev → Prop
  | .command _ os _ => ∀ n, (os n).Full
  | .count o _ => o.Full
  | .restart => True

/-- By how much an event raises `trigger_num_save`. -/
def Ev.writes : Ev → ℕ
  | .command _ _ (.set _ _) => 1
  | .command _ _ (.setex _ _ _) => 1
  | .command _ _ (.mset data) => data.size
  | _ => 0

/-- The counter is within the range of `atoll`, and the trigger does not overflow. -/
def Bounded (s : NumberedDb) (e : Ev) : Prop :=
  s.db.key_num < 2 ^ 63 ∧ s.trigger_num_save + e.writes < 2 ^ 31 ∧ ∀ s' ∈ s.step e, s'.db.key_num < 2 ^ 63

instance (s : NumberedDb) (e : Ev) : Decidable (Bounded s e) := inferInstanceAs (Decidable (_ ∧ _ ∧ _))

/-- The number of restarts. -/
def restarts (es : List Ev) : ℕ := es.countP fun | .restart => true | _ => false

/-- A new database. -/
def empty : NumberedDb := ⟨.empty, 0, none⟩

/-! ## What is lost -/

/-- **The invariant**, after `r` restarts.  What the file says may be short of another hundred, but no more
than there have been writes since it was written. -/
structure Lags (s : NumberedDb) (r : ℕ) : Prop where
  same : ∀ k, k ∈ s.db.db ↔ k ∈ s.db.meta_db
  num : s.db.meta_db.size ≤ s.db.key_num + 100 * r
  trigger : 0 ≤ s.trigger_num_save
  saved : s.db.meta_db.size ≤ loadNum s.file + min s.trigger_num_save 100 + 100 * r

variable {s s' : NumberedDb} {r : ℕ} {o : Saving}

/-- `SetNum` is not about the database. -/
@[simp] lemma setNum_db (s : NumberedDb) (o : Saving) (num : ℕ) : (s.setNum o num).db = s.db := by
  unfold setNum
  split_ifs <;> rfl

/-- It does not raise the trigger. -/
lemma setNum_trigger (h : 0 ≤ s.trigger_num_save) (o : Saving) (num : ℕ) :
    0 ≤ (s.setNum o num).trigger_num_save ∧
      (s.setNum o num).trigger_num_save ≤ s.trigger_num_save := by
  unfold setNum
  split_ifs
  · exact ⟨h, le_rfl⟩
  · exact ⟨le_rfl, h⟩
  · exact ⟨h, le_rfl⟩
  · exact ⟨h, le_rfl⟩

lemma length_numText (num : ℕ) : (numText num).length = 100 := by
  rw [numText, List.length_take, List.length_append, List.length_replicate]
  omega

/-- **`LoadNum` undoes `SetNum`.** -/
lemma loadNum_numText {num left : ℕ} (hnum : num < 2 ^ 63) (hleft : 100 ≤ left) :
    loadNum (some ((numText num).take left)) = num := by
  have hlen := length_numText num
  have hdigits : (decimal num).length ≤ 19 := (decimal_length_le_iff (by decide)).mpr (by omega)
  have hprint : snprintf 100 (decimal num) = decimal num := List.take_of_length_le (by omega)
  obtain ⟨zeros, htext⟩ : ∃ n, numText num = decimal num ++ List.replicate n 0 := by
    refine ⟨min (100 - (decimal num).length) 100, ?_⟩
    rw [numText, hprint, List.take_append, List.take_of_length_le (by omega), List.take_replicate]
  have hhead : ∀ b ∈ (List.replicate zeros (0 : UInt8)).head?, isDigit b = false := by
    intro b hb
    rw [List.eq_of_mem_replicate (List.mem_of_mem_head? hb)]
    rfl
  rw [loadNum, List.take_of_length_le (by omega), if_neg (by omega), List.take_of_length_le (by omega), htext,
    strtol, signedDigits_decimal_append hhead]
  simp only [Bool.false_eq_true, if_false]
  rw [min_eq_right (by omega)]
  exact toUInt64_natCast (by omega)

/-- **`SetNum`**, on the way to the state `s'`.  `x` is what the caller still adds to the trigger. -/
lemma Lags.setNum (ho : o.Full) {num x : ℕ} (hx : x ≤ 1) (hpos : 0 ≤ s.trigger_num_save)
    (hfile : s'.file = (s.setNum o num).file)
    (htrigger : s'.trigger_num_save = (s.setNum o num).trigger_num_save + x)
    (hsame : ∀ k, k ∈ s'.db.db ↔ k ∈ s'.db.meta_db) (hkey : s'.db.key_num = num) (hnum : num < 2 ^ 63)
    (hcount : s'.db.meta_db.size ≤ num + 100 * r)
    (hsaved : s.trigger_num_save < 100 →
      s'.db.meta_db.size ≤ loadNum s.file + (s.trigger_num_save + x) + 100 * r) : Lags s' r := by
  obtain ⟨hopened, hwritten, hleft⟩ := ho
  refine ⟨hsame, hkey ▸ hcount, ?_, ?_⟩
  · have := (setNum_trigger hpos o num).1
    omega
  · rw [hfile, htrigger, NumberedDb.setNum]
    by_cases hlow : s.trigger_num_save < 100
    · rw [if_pos hlow]
      have := hsaved hlow
      omega
    · rw [if_neg hlow, if_pos hopened]
      simp only [hwritten, if_true, loadNum_numText hnum hleft]
      omega

/-! ### The operations -/

lemma Lags.put (h : Lags s r) (ho : o.Full) (now : ℕ) (key value : Str) (expire : ℕ)
    (htrigger : s.trigger_num_save + 1 < 2 ^ 31)
    (hbound : (s.put o now key value expire).db.key_num < 2 ^ 63) :
    Lags (s.put o now key value expire) r := by
  set db := (s.db.put true true now key value expire 1).1 with hdb
  obtain ⟨hvalue, hmeta, hnum⟩ : (∃ v, db.db = s.db.db.insert key v) ∧
      (∃ m, db.meta_db = s.db.meta_db.insert key m) ∧
      db.key_num = if s.db.meta_db.contains key then s.db.key_num else s.db.key_num + 1 := by
    rw [hdb, GentDb.put]
    split
    · exact ⟨⟨_, rfl⟩, ⟨_, rfl⟩, rfl⟩
    · exact ⟨⟨_, rfl⟩, ⟨_, rfl⟩, rfl⟩
  obtain ⟨v, hvalue⟩ := hvalue
  obtain ⟨m, hmeta⟩ := hmeta
  have hsame : ∀ k, k ∈ db.db ↔ k ∈ db.meta_db := by
    intro k
    rw [hvalue, hmeta, Std.ExtTreeMap.mem_insert, Std.ExtTreeMap.mem_insert, h.same k]
  have hsize := KeyCount.size_insert (t := s.db.meta_db) (k := key) m
  rw [← hmeta] at hsize
  have hcount := h.num
  have hpos := h.trigger
  have hsaved := h.saved
  by_cases hkey : key ∈ s.db.meta_db
  · -- the key is overwritten: nothing is counted
    have hcontains := Std.ExtTreeMap.mem_iff_contains.mp hkey
    rw [if_pos hkey] at hsize
    rw [if_pos hcontains] at hnum
    have hint : toInt32 (s.trigger_num_save + 1) = s.trigger_num_save + 1 :=
      toInt32_of_bounds (by omega) htrigger
    simp only [NumberedDb.put, hcontains, if_true, hint]
    rw [← hdb]
    refine ⟨hsame, ?_, ?_, ?_⟩
    · dsimp only
      omega
    · dsimp only
      omega
    · dsimp only
      omega
  · have hcontains : s.db.meta_db.contains key = false := by
      rw [← Bool.not_eq_true]
      exact fun hc => hkey (Std.ExtTreeMap.mem_iff_contains.mpr hc)
    have hnew : db.key_num = s.db.key_num + 1 := by
      rw [hnum, hcontains]
      rfl
    obtain ⟨hlow, hhigh⟩ := setNum_trigger hpos o (s.db.key_num + 1)
    have hint : toInt32 ((s.setNum o (s.db.key_num + 1)).trigger_num_save + 1)
        = (s.setNum o (s.db.key_num + 1)).trigger_num_save + 1 :=
      toInt32_of_bounds (by omega) (by omega)
    have hput : s.put o now key value expire = ⟨db, (s.setNum o (s.db.key_num + 1)).trigger_num_save + 1,
        (s.setNum o (s.db.key_num + 1)).file⟩ := by
      simp only [NumberedDb.put, hcontains, Bool.false_eq_true, if_false, hint, hdb]
    rw [if_neg hkey] at hsize
    rw [hput]
    refine .setNum ho le_rfl hpos rfl rfl hsame hnew (hnew ▸ hbound) ?_ fun hlow => ?_
    · dsimp only
      omega
    · dsimp only
      omega

lemma Lags.batchPut (h : Lags s r) (ho : o.Full) (now : ℕ) (data : LevelDb)
    (htrigger : s.trigger_num_save + data.size < 2 ^ 31) (hbound : s.db.key_num + data.size < 2 ^ 63) :
    Lags (s.batchPut o now data) r := by
  have hnd : (data.toList.map Prod.fst).Nodup := by
    rw [Std.ExtTreeMap.map_fst_toList_eq_keys]
    exact Std.ExtTreeMap.nodup_keys
  have hsize := KeyCount.size_foldl_put (metaSerialize 0 0 now) data.toList hnd s.db.meta_db
  rw [Std.ExtTreeMap.length_toList] at hsize
  have hcount := h.num
  have hpos := h.trigger
  have hsaved := h.saved
  have hint : toInt32 (s.trigger_num_save + data.size) = s.trigger_num_save + data.size :=
    toInt32_of_bounds (by omega) htrigger
  set db := (s.db.batchPut true (fun _ => true) now data).1 with hdb
  have hle : db.meta_db.size ≤ s.db.meta_db.size + data.size := by
    show (data.toList.foldl (fun t kv => t.put true kv.1 (metaSerialize 0 0 now)) s.db.meta_db).size ≤ _
    omega
  have hput : (s.batchPut o now data).db = db := setNum_db _ o _
  have hstate : s.batchPut o now data
      = NumberedDb.setNum ⟨db, s.trigger_num_save + data.size, s.file⟩ o db.key_num := by
    rw [NumberedDb.batchPut, ← hdb, hint]
  refine Lags.setNum (s := ⟨db, s.trigger_num_save + data.size, s.file⟩) (x := 0) ho (Nat.zero_le 1)
    (by dsimp only; omega) (congrArg file hstate) (by rw [hstate]; simp) (fun k => ?_)
    (congrArg GentDb.key_num hput) hbound ?_ fun hlow => ?_
  · rw [hput]
    show k ∈ data.toList.foldl (fun t kv => t.insert kv.1 kv.2) s.db.db ↔
      k ∈ data.toList.foldl (fun t kv => t.insert kv.1 (metaSerialize 0 0 now)) s.db.meta_db
    rw [Inserts.mem_foldl_insert Prod.snd, Inserts.mem_foldl_insert fun _ => metaSerialize 0 0 now,
      h.same k]
  · rw [hput]
    show db.meta_db.size ≤ s.db.key_num + data.size + 100 * r
    omega
  · rw [hput]
    dsimp only at hlow ⊢
    omega

lemma Lags.del (h : Lags s r) (ho : o.Full) {key : Str} (hkey : key ∈ s.db.meta_db)
    (hbound : s.db.key_num < 2 ^ 63) : Lags (s.del o key) r := by
  have hsize := KeyCount.size_erase hkey
  have hcount := h.num
  have hpos := h.trigger
  have hsaved := h.saved
  have hmeta : (s.db.del true true key).1.meta_db = s.db.meta_db.erase key := rfl
  have hsame : ∀ k, k ∈ (s.db.del true true key).1.db ↔ k ∈ (s.db.del true true key).1.meta_db := by
    intro k
    show k ∈ s.db.db.erase key ↔ k ∈ s.db.meta_db.erase key
    rw [Std.ExtTreeMap.mem_erase, Std.ExtTreeMap.mem_erase, h.same k]
  have hnum : (s.db.del true true key).1.key_num
      = if 0 < s.db.key_num then s.db.key_num - 1 else s.db.key_num := by
    simp [GentDb.del]
  unfold NumberedDb.del
  by_cases hkeys : 0 < s.db.key_num
  · rw [if_pos hkeys] at hnum ⊢
    refine Lags.setNum (x := 0) ho (Nat.zero_le 1) hpos rfl (by simp) hsame hnum (by omega) ?_ fun hlow => ?_
    · dsimp only
      rw [hmeta]
      omega
    · dsimp only
      rw [hmeta]
      omega
  · rw [if_neg hkeys] at hnum ⊢
    refine ⟨hsame, ?_, hpos, ?_⟩
    · dsimp only
      rw [hmeta, hnum]
      omega
    · dsimp only
      rw [hmeta]
      omega

/-- The sweep deletes keys of its snapshot, each of them once. -/
lemma Lags.clearLoop (now : ℕ) {os : ℕ → Saving} (hos : ∀ n, (os n).Full) (l : List (Str × Str))
    (hl : (l.map Prod.fst).Nodup) (hmem : ∀ kv ∈ l, kv.1 ∈ s.db.meta_db) (h : Lags s r)
    (hbound : s.db.key_num < 2 ^ 63) (num : ℕ) {res : NumberedDb × ℕ}
    (hres : l.foldlM (clearEntry now os) (s, num) = .ok res) : Lags res.1 r := by
  induction l generalizing s num with
  | nil =>
      obtain rfl : (s, num) = res := Except.ok.inj hres
      exact h
  | cons kv l ih =>
      rw [List.map_cons, List.nodup_cons] at hl
      have hin : ∀ x ∈ l, x.1 ∈ s.db.meta_db := fun x hx => hmem x (List.mem_cons_of_mem kv hx)
      rw [List.foldlM_cons, clearEntry] at hres
      cases hdat : metaUnserialize kv.2 with
      | error f => simp [hdat, bind, Except.bind] at hres
      | ok dat =>
          simp only [hdat, bind, Except.bind, pure, Except.pure] at hres
          split_ifs at hres with hzero hlater
          · exact ih hl.2 hin h hbound num hres
          · exact ih hl.2 hin h hbound num hres
          · have hdel := h.del (hos num) (hmem kv List.mem_cons_self) hbound
            refine ih hl.2 (fun x hx => ?_) hdel ?_ (num + 1) hres
            · show x.1 ∈ s.db.meta_db.erase kv.1
              refine Std.ExtTreeMap.mem_erase.mpr ⟨fun heq => hl.1 ?_, hin x hx⟩
              rw [Std.LawfulEqCmp.compare_eq_iff_eq.mp heq]
              exact List.mem_map_of_mem hx
            · refine lt_of_le_of_lt ?_ hbound
              show (if 0 < s.db.key_num ∧ true = true then s.db.key_num - 1 else s.db.key_num) ≤ _
              split_ifs <;> omega

lemma Lags.clearExpireKey (h : Lags s r) {now : ℕ} {os : ℕ → Saving} (hos : ∀ n, (os n).Full)
    (hbound : s.db.key_num < 2 ^ 63) {res : NumberedDb × ℕ} (hres : s.clearExpireKey now os = .ok res) :
    Lags res.1 r := by
  obtain ⟨p, hloop, hend⟩ := bind_eq_ok.mp hres
  obtain rfl := Except.ok.inj hend
  have hnd : (s.db.meta_db.toList.map Prod.fst).Nodup := by
    rw [Std.ExtTreeMap.map_fst_toList_eq_keys]
    exact Std.ExtTreeMap.nodup_keys
  have hp : Lags p.1 r := by
    refine Lags.clearLoop (s := { s with db := { s.db with is_clear := true } }) now hos _ hnd
      (fun kv hkv => ?_) ⟨h.same, h.num, h.trigger, h.saved⟩ hbound 0 hloop
    have hget := Std.ExtTreeMap.mem_toList_iff_getElem?_eq_some.mp hkv
    exact Std.ExtTreeMap.mem_iff_isSome_getElem?.mpr (by rw [hget]; rfl)
  exact ⟨hp.same, hp.num, hp.trigger, hp.saved⟩

/-- A counter of zero is set to what has been counted. -/
lemma Lags.count (h : Lags s r) (ho : o.Full) (pre : Str) (hbound : (s.count o pre).2.db.key_num < 2 ^ 63) :
    Lags (s.count o pre).2 r := by
  have hkeys : s.db.meta_db.keys.length = s.db.meta_db.size := Std.ExtTreeMap.length_keys
  by_cases hzero : pre = [] ∧ s.db.key_num = 0
  · obtain ⟨rfl, hzero⟩ := hzero
    have hcount : s.db.count [] = (s.db.meta_db.size, { s.db with key_num := s.db.meta_db.size }) := by
      simp [GentDb.count, hzero, hkeys]
    have hstate : (s.count o []).2
        = NumberedDb.setNum ⟨{ s.db with key_num := s.db.meta_db.size }, s.trigger_num_save, s.file⟩ o
          s.db.meta_db.size := by
      simp only [NumberedDb.count, hcount, hzero, and_self, if_true]
    have hdb : (s.count o []).2.db = { s.db with key_num := s.db.meta_db.size } := by
      rw [hstate, setNum_db]
    rw [hdb] at hbound
    refine Lags.setNum (s := ⟨{ s.db with key_num := s.db.meta_db.size }, s.trigger_num_save, s.file⟩)
      (x := 0) ho (Nat.zero_le 1) h.trigger (congrArg file hstate) (by rw [hstate]; simp) ?_
      (congrArg GentDb.key_num hdb) hbound ?_ fun hlow => ?_
    · rw [hdb]
      exact h.same
    · rw [hdb]
      exact Nat.le_add_right _ _
    · have hsaved := h.saved
      rw [hdb]
      dsimp only at hlow ⊢
      omega
  · have hstate : (s.count o pre).2 = s := by
      have hdb : (s.db.count pre).2 = s.db := by
        unfold GentDb.count
        split_ifs <;> rfl
      simp only [NumberedDb.count, if_neg hzero, hdb]
    rw [hstate]
    exact h

/-- **A restart** goes back to the file. -/
lemma Lags.restart (h : Lags s r) : Lags s.restart (r + 1) := by
  have hsaved := h.saved
  refine ⟨h.same, ?_, le_rfl, ?_⟩
  · show s.db.meta_db.size ≤ loadNum s.file + 100 * (r + 1)
    omega
  · show (s.db.meta_db.size : ℤ) ≤ loadNum s.file + min 0 100 + 100 * ((r + 1 : ℕ) : ℤ)
    omega

/-! ### Whole runs -/

lemma Lags.command (h : Lags s r) {now : ℕ} {os : ℕ → Saving} (hos : ∀ n, (os n).Full) {c : WriteCommand}
    (hbound : s.db.key_num < 2 ^ 63)
    (htrigger : s.trigger_num_save + (Ev.command now os c).writes < 2 ^ 31)
    (hbound' : s'.db.key_num < 2 ^ 63) (hcommand : s.command now os c = .ok s') : Lags s' r := by
  cases c with
  | set key value =>
      obtain rfl := Except.ok.inj hcommand
      exact h.put (hos 0) now key value 0 htrigger hbound'
  | setex key value expire =>
      obtain rfl := Except.ok.inj hcommand
      exact h.put (hos 0) now key value expire htrigger hbound'
  | mset data =>
      obtain rfl := Except.ok.inj hcommand
      refine h.batchPut (hos 0) now data htrigger ?_
      rwa [NumberedDb.batchPut, setNum_db] at hbound'
  | del key =>
      obtain ⟨found, hget, hend⟩ := bind_eq_ok.mp hcommand
      cases found with
      | none =>
          obtain rfl := Except.ok.inj hend
          exact h
      | some value =>
          obtain rfl := Except.ok.inj hend
          exact h.del (hos 0) ((h.same key).mp (KeyCount.mem_of_get hget)) hbound
  | clearExpireKey =>
      cases hclear : s.clearExpireKey now os with
      | error f => simp [NumberedDb.command, hclear, Except.map] at hcommand
      | ok res =>
          simp only [NumberedDb.command, hclear, Except.map] at hcommand
          obtain rfl := Except.ok.inj hcommand
          exact h.clearExpireKey hos hbound hclear

/-- **A step.** -/
lemma Lags.step (h : Lags s r) {e : Ev} (hsaved : e.Saved) (hbound : Bounded s e)
    (hstep : s.step e = some s') : Lags s' (r + restarts [e]) := by
  obtain ⟨hlow, htrigger, hlow'⟩ := hbound
  have hlow' := hlow' s' hstep
  cases e with
  | command now os c =>
      cases hcommand : s.command now os c with
      | error f => simp [NumberedDb.step, hcommand, Except.toOption] at hstep
      | ok s₁ =>
          simp only [NumberedDb.step, hcommand, Except.toOption] at hstep
          obtain rfl := Option.some.inj hstep
          exact h.command hsaved hlow htrigger hlow' hcommand
  | count o pre =>
      obtain rfl := Option.some.inj hstep
      exact h.count hsaved pre hlow'
  | restart =>
      obtain rfl := Option.some.inj hstep
      exact h.restart

lemma Lags.run {es : List Ev} (h : Lags s r) (hsaved : ∀ e ∈ es, e.Saved)
    (hbound : Transition.Along NumberedDb.step Bounded s es)
    (hrun : Transition.run NumberedDb.step s es = some s') : Lags s' (r + restarts es) := by
  induction es generalizing s r with
  | nil =>
      obtain rfl : s = s' := Option.some.inj hrun
      exact h
  | cons e es ih =>
      obtain ⟨s₁, hstep, hrun⟩ := Transition.run_cons hrun
      have hnext := h.step (hsaved e List.mem_cons_self) hbound.1 hstep
      have hend := ih hnext (fun e' he' => hsaved e' (List.mem_cons_of_mem e he')) (hbound.2 s₁ hstep) hrun
      have hsplit : restarts (e :: es) = restarts [e] + restarts es := by
        rw [restarts, ← List.singleton_append, List.countP_append]
        rfl
      rw [hsplit, ← Nat.add_assoc]
      exact hend

/-- **A restart costs a hundred keys at most.**  After any commands, counts and restarts on a new database,
the number of keys is at most what `Count` answers and a hundred for every restart, as long as the file
can be written and the counters do not overflow. -/
theorem size_le_count {es : List Ev} (hsaved : ∀ e ∈ es, e.Saved)
    (hbound : Transition.Along step Bounded empty es) {s : NumberedDb}
    (hrun : Transition.run step empty es = some s) (o : Saving) :
    s.db.meta_db.size ≤ (s.count o []).1 + 100 * restarts es := by
  have hempty : Lags empty 0 :=
    ⟨fun k => by simp [empty, GentDb.empty], Nat.zero_le _, le_rfl, by simp [empty, GentDb.empty]⟩
  have h := hempty.run hsaved hbound hrun
  have hcount := h.num
  have hkeys : s.db.meta_db.keys.length = s.db.meta_db.size := Std.ExtTreeMap.length_keys
  rw [Nat.zero_add] at hcount
  show s.db.meta_db.size ≤ (s.db.count []).1 + 100 * restarts es
  by_cases hpos : 0 < s.db.key_num
  · rw [GentDb.count, if_pos ⟨rfl, hpos⟩]
    exact hcount
  · simp [GentDb.count, hpos]

/-- A write that succeeds. -/
def fullSaving : Saving := ⟨true, true, 100⟩

/-- So many pairs with keys of their own, from the `k`-th on. -/
def pairs (k n : ℕ) : LevelDb :=
  (List.range' k n).foldl (fun t i => t.insert (decimal i) (lit "v")) ∅

/-- A hundred keys are stored and counted, then one more, and the process is restarted. -/
def oneLost : List Ev :=
  [.command 1 (fun _ => fullSaving) (.mset (pairs 0 100)),
    .command 2 (fun _ => fullSaving) (.set (lit "k") (lit "v")), .restart]

theorem size_le_count_oneLost : ∃ s, Transition.run step empty oneLost = some s ∧
    s.db.key_num = 100 ∧ s.db.meta_db.size = 101 ∧
    s.db.meta_db.size ≤ (s.count fullSaving []).1 + 100 := by
  obtain ⟨s, hrun, hend⟩ := Option.map_eq_some_iff.mp (show
    (Transition.run step empty oneLost).map (fun s => (s.db.key_num, s.db.meta_db.size)) = some (100, 101) by
      decide +kernel)
  have hfull : fullSaving.Full := by decide
  have hsaved : ∀ e ∈ oneLost, e.Saved := by
    intro e he
    simp only [oneLost, List.mem_cons, List.not_mem_nil, or_false] at he
    rcases he with rfl | rfl | rfl
    · exact fun _ => hfull
    · exact fun _ => hfull
    · trivial
  have hbound : Transition.Along step Bounded empty oneLost := by decide +kernel
  exact ⟨s, hrun, (Prod.mk.inj hend).1, (Prod.mk.inj hend).2,
    size_le_count hsaved hbound hrun fullSaving⟩

/-- A hundred keys may be lost. -/
example : (Transition.run step empty
    ((List.range 100).map (fun i => .command i (fun _ => fullSaving) (.set (decimal i) (lit "v")))
      ++ [.restart])).map (fun s => (s.db.key_num, s.db.meta_db.size)) = some (0, 100) := by
  decide +kernel

/-- A key that is overwritten once too often: from here on `SetNum` returns at once. -/
example : (NumberedDb.put ⟨(GentDb.empty.put true true 0 (lit "k") (lit "v") 0 1).1, 2 ^ 31 - 1, none⟩
    fullSaving 1 (lit "k") (lit "v") 0).trigger_num_save = -2 ^ 31 := by
  decide +kernel

end NumberedDb

end Riser
