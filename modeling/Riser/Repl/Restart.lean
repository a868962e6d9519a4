import Riser.Core.Transition
import Riser.Repl.GentReplication

/-!
# Does a restart of the master remember that something was unsent?

The queues live in memory.  What a crash leaves is the slave's slot of the mapped file, and the
rebuilt replication compares two times in it: a full synchronisation is started when the last push
(`ser_time`) is **later** than the last acknowledged pop (`rep_time`).  `Remembered` says that this
is enough: if an entry was pushed and not popped, the rebuilt replication synchronises everything.

**It is not** (`forgets_unsent`).  Both times are whole seconds, of which only the first nine digits
reach the file, and `rep_time` moves with *any* acknowledged entry and once more when a full
synchronisation has run out of keys.  So a push in the same ten seconds, or an acknowledgement that
leaves something behind, is forgotten.

`remembered_of_timely` is what holds, under a condition on the two kinds of steps (`Timely`):

* a push comes at a time whose nine digits exceed those of `rep_time` in the file,
* a step that writes `rep_time` leaves no pushed entry behind.
-/

namespace Riser

open Cpp GentReplication

namespace GentReplication

/-- What changes the slot: pushes, and the replication thread's calls of `Start`. -/
inductive SlotEv where
  | push (now id : ℕ) (type : OptType) (key : Str)
  | start (now : ℕ) (db : GentDb) (word : Word)

/-- One step. -/
def slotStep (r : GentReplication) : SlotEv → Option GentReplication
  | .push now id type key => some (r.push now id type key).1
  | .start now db word =>
      match r.start db now word.text with
      | .ok (r', _, _) => some r'
      | .error _ => none

/-- **After a crash here**, if a pushed entry is still there, `GentFile::Init` finds the slot in use
and `GentRepMgr::Init` rebuilds a replication that synchronises every key. -/
def Remembered (junk : Str) (r : GentReplication) : Prop :=
  r.main_que ≠ [] → ∃ name info, RepInfo.load junk r.rinfo.head = some (name, info) ∧
    ∀ db now uninit next,
      (new info db now true uninit next).is_update_que = true ∧
      (new info db now true uninit next).que = fullSync (db.keys (lit "*")) next

/-- `Start` will take the word as an acknowledgement. -/
def acks (r : GentReplication) (word : Word) : Prop := r.status = 1 ∧ word = .ok

/-- The condition on a step. -/
def Timely (junk : Str) (r : GentReplication) : SlotEv → Prop
  | .push now _ _ _ => (RepInfo.init junk r.rinfo.head).rep_time < RepInfo.stamp now
  | .start _ _ word =>
      (r.is_update_que = false → r.acks word → (∃ it ∈ r.main_que, it.is_sync = true) →
        ∀ it ∈ r.main_que, it.is_sync = true) ∧
      (r.is_update_que = true → r.rinfo.rep_time = 0 →
        (∀ it ∈ r.que, r.acks word ∧ it.is_sync = true) → r.main_que = [])

instance (r : GentReplication) (word : Word) : Decidable (r.acks word) :=
  inferInstanceAs (Decidable (_ ∧ _))

instance (junk : Str) (r : GentReplication) : (e : SlotEv) → Decidable (r.Timely junk e)
  | .push _ _ _ _ => inferInstanceAs (Decidable (_ < _))
  | .start _ _ _ => inferInstanceAs (Decidable (_ ∧ _))

/-! ## What `Start` does to the slot -/

variable {r : GentReplication}

/-- `Pop` writes `rep_time` when it removes an entry of `main_que`. -/
lemma QueueInv.pop_slot (h : QueueInv r) (now : ℕ) :
    (r.pop true now).rinfo = r.rinfo ∧ (r.pop true now).main_que = r.main_que ∧
        ((r.pop true now).que = [] → ∀ it ∈ r.que, it.is_sync = true) ∨
      (r.pop true now).rinfo = r.rinfo.set .rep_time now ∧ r.is_update_que = false ∧
        (∃ it ∈ r.main_que, it.is_sync = true) ∧
        ((∀ it ∈ r.main_que, it.is_sync = true) → (r.pop true now).main_que = []) := by
  obtain ⟨f, u, hq, hlen, hf, hu⟩ := h.front
  have hpop : popSynced (syncNum * 2) (f ++ u) = u := popSynced_append hf hu (by omega)
  unfold GentReplication.pop
  cases hflag : r.is_update_que with
  | true =>
      have hque : r.que = f ++ u := by simpa [active, hflag] using hq
      simp only [Bool.true_eq_false, if_false, true_and, hque, hpop]
      refine Or.inl ?_
      rintro rfl
      simpa using hf
  | false =>
      have hmain : r.main_que = f ++ u := by simpa [active, hflag] using hq
      simp only [if_true, hmain, hpop, List.length_append, Nat.add_sub_cancel, true_and]
      cases f with
      | nil => exact Or.inl ⟨by simp, by simp, by simp [h.drained hflag]⟩
      | cons x f =>
          refine Or.inr ⟨by simp, ⟨x, by simp, hf x (by simp)⟩, fun hall => ?_⟩
          refine List.eq_nil_iff_forall_not_mem.mpr fun it hit => ?_
          have := hall it (by simp [hit])
          simp [hu it hit] at this

/-- The acknowledgement, likewise. -/
lemma QueueInv.acknowledge_slot (h : QueueInv r) (now : ℕ) (word : Word) :
    (r.acknowledge now word.text).is_update_que = r.is_update_que ∧
      ((r.acknowledge now word.text).rinfo = r.rinfo ∧
          (r.acknowledge now word.text).main_que = r.main_que ∧
          ((r.acknowledge now word.text).que = [] → ∀ it ∈ r.que, r.acks word ∧ it.is_sync = true) ∨
        (r.acknowledge now word.text).rinfo = r.rinfo.set .rep_time now ∧
          r.is_update_que = false ∧ r.acks word ∧ (∃ it ∈ r.main_que, it.is_sync = true) ∧
          ((∀ it ∈ r.main_que, it.is_sync = true) →
            (r.acknowledge now word.text).main_que = [])) := by
  have h0 : QueueInv { r with status := 0 } := ⟨h.drained, h.waiting, h.front, h.length⟩
  by_cases hack : r.acks word
  · obtain ⟨hs, rfl⟩ := hack
    have heq : r.acknowledge now Word.ok.text = { r with status := 0 }.pop true now := by
      simp [GentReplication.acknowledge, hs, Word.text]
    rw [heq]
    refine ⟨by unfold GentReplication.pop; split_ifs <;> rfl, ?_⟩
    refine (h0.pop_slot now).imp ?_ ?_
    · exact fun ⟨h₁, h₂, h₃⟩ => ⟨h₁, h₂, fun hn it hit => ⟨⟨hs, rfl⟩, h₃ hn it hit⟩⟩
    · exact fun ⟨h₁, h₂, h₃, h₄⟩ => ⟨h₁, h₂, ⟨hs, rfl⟩, h₃, h₄⟩
  · have heq : (r.acknowledge now word.text).is_update_que = r.is_update_que ∧
        (r.acknowledge now word.text).rinfo = r.rinfo ∧
        (r.acknowledge now word.text).main_que = r.main_que ∧
        (r.acknowledge now word.text).que = r.que := by
      unfold GentReplication.acknowledge
      split_ifs with hs hm
      · refine absurd ⟨hs, ?_⟩ hack
        cases word
        · simp [Word.text, lit] at hm
        · rfl
      · exact ⟨rfl, rfl, rfl, rfl⟩
      · exact ⟨rfl, rfl, rfl, rfl⟩
    obtain ⟨hu, hi, hm, hq⟩ := heq
    exact ⟨hu, Or.inl ⟨hi, hm, fun hn => by simp [← hq, hn]⟩⟩

/-- Looking at the front writes `rep_time` when `que` is exhausted for the first time. -/
lemma frontNumsElement_slot (r : GentReplication) (now : ℕ) :
    (r.frontNumsElement now syncNum).1.main_que = r.main_que ∧
      ((r.frontNumsElement now syncNum).1.rinfo = r.rinfo ∨
        (r.frontNumsElement now syncNum).1.rinfo = r.rinfo.set .rep_time now ∧
          r.is_update_que = true ∧ r.rinfo.rep_time = 0 ∧ r.que = []) := by
  unfold GentReplication.frontNumsElement frontNums
  cases hflag : r.is_update_que with
  | false => simp
  | true =>
      by_cases hq : r.que = []
      · by_cases h0 : r.rinfo.rep_time = 0 <;> simp [hq, h0]
      · simp [hq]

/-- **A call of `Start`** either leaves the slot alone, or writes `rep_time` for the entries of
`main_que` it pops or at the end of a full synchronisation. -/
lemma QueueInv.start_slot (h : QueueInv r) {db : GentDb} {now : ℕ} {word : Word}
    {r' : GentReplication} {b : Batch} {ret : Bool}
    (hs : r.start db now word.text = .ok (r', b, ret)) :
    r'.rinfo = r.rinfo ∧ (r.main_que = [] → r'.main_que = []) ∨
      r'.rinfo = r.rinfo.set .rep_time now ∧
        (r.is_update_que = false ∧ r.acks word ∧ (∃ it ∈ r.main_que, it.is_sync = true) ∧
            ((∀ it ∈ r.main_que, it.is_sync = true) → r'.main_que = []) ∨
          r.is_update_que = true ∧ r.rinfo.rep_time = 0 ∧
            (∀ it ∈ r.que, r.acks word ∧ it.is_sync = true) ∧
            (r.main_que = [] → r'.main_que = [])) := by
  obtain ⟨hupd, hack⟩ := (h.setConn true).acknowledge_slot now word
  obtain ⟨-, -, -, -, -, hinv⟩ := (h.setConn true).acknowledge now word.text
  set a := { r with conn := true }.acknowledge now word.text
  -- writing back the flags does not touch the slot
  have hend : ∀ {r₁ o}, a.frontNumsElement now syncNum = (r₁, o) →
      r'.rinfo = r₁.rinfo ∧ (r₁.main_que = [] → r'.main_que = []) := by
    intro r₁ o hf
    cases start_cases word.text_cases hs with
    | idle hf' =>
        obtain ⟨rfl, -⟩ := Prod.mk.inj (hf'.symm.trans hf)
        exact ⟨rfl, id⟩
    | @batch r₂ d d' b hf' hb =>
        obtain ⟨rfl, rfl⟩ := Prod.mk.inj (hf'.symm.trans hf)
        obtain ⟨-, -, -, hsome⟩ := hinv.frontNumsElement hf
        obtain ⟨-, hact⟩ := hsome d rfl
        unfold GentReplication.setFront
        split_ifs with hu
        · exact ⟨rfl, id⟩
        · have hu' : r₂.is_update_que = false := by simpa using hu
          exact ⟨rfl, fun hm => absurd (by simpa [active, hu'] using hm) hact⟩
  obtain ⟨hm, hslot⟩ := frontNumsElement_slot a now
  obtain ⟨hinfo, hmain⟩ := hend (Prod.mk.eta (p := a.frontNumsElement now syncNum)).symm
  rw [hm] at hmain
  rw [hinfo]
  rcases hack with ⟨hi, ham, hque⟩ | ⟨hi, hflag, hacks, hsome, hall⟩
  · rw [ham] at hmain
    rw [hi, hupd] at hslot
    refine hslot.imp (fun hi' => ⟨hi', hmain⟩) ?_
    rintro ⟨hi', hflag, h0, hq⟩
    exact ⟨hi', Or.inr ⟨hflag, h0, hque hq, hmain⟩⟩
  · rcases hslot with hi' | ⟨-, hflag', -⟩
    · exact Or.inr ⟨hi'.trans hi, Or.inl ⟨hflag, hacks, hsome, fun h => hmain (hall h)⟩⟩
    · rw [hupd] at hflag'
      simp only at hflag hflag'
      simp [hflag] at hflag'

/-! ## The invariant -/

/-- The slot is in use, and says that something is unsent whenever something is. -/
structure SlotInv (junk : Str) (r : GentReplication) : Prop where
  queues : r.QueueInv
  size : 21 ≤ r.rinfo.head.length
  used : (RepInfo.init junk r.rinfo.head).available ≠ 0
  behind : r.main_que ≠ [] → (RepInfo.init junk r.rinfo.head).ser_time = 0 ∨
    (RepInfo.init junk r.rinfo.head).rep_time < (RepInfo.init junk r.rinfo.head).ser_time

variable {junk : Str} {r' : GentReplication}

lemma SlotInv.remembered (h : SlotInv junk r) : Remembered junk r := by
  intro hne
  refine ⟨_, _, if_pos h.used, fun db now uninit next => ?_⟩
  simp [GentReplication.new, h.behind hne]

lemma SlotInv.new {rinfo : RepInfo} (hsize : 21 ≤ rinfo.head.length)
    (hused : (RepInfo.init junk rinfo.head).available ≠ 0) (db : GentDb) (now : ℕ)
    (is_sync_all uninit : Bool) (next : ℕ) :
    SlotInv junk (new rinfo db now is_sync_all uninit next) := by
  have hinfo : (GentReplication.new rinfo db now is_sync_all uninit next).rinfo = rinfo ∨
      (GentReplication.new rinfo db now is_sync_all uninit next).rinfo
        = rinfo.set .ser_time now := by
    unfold GentReplication.new
    dsimp only
    split_ifs <;> simp
  have hmain := (new_que rinfo db now is_sync_all uninit next).2.2.1
  refine ⟨QueueInv.new .., ?_, ?_, fun hne => absurd hmain hne⟩
  · rcases hinfo with hi | hi
    · rw [hi]; exact hsize
    · rw [hi, RepInfo.set_head_length _ hsize]; exact hsize
  · rcases hinfo with hi | hi
    · rw [hi]; exact hused
    · rw [hi, RepInfo.init_set_ser_time junk now hsize]; exact hused

lemma SlotInv.push (h : SlotInv junk r) {now id : ℕ} {type : OptType} {key : Str}
    (ht : r.Timely junk (.push now id type key)) : SlotInv junk (r.push now id type key).1 := by
  cases hrun : r.is_run with
  | false => simpa [GentReplication.push, hrun] using h
  | true =>
      have hinfo : (r.push now id type key).1.rinfo = r.rinfo.set .ser_time now := by
        simp [GentReplication.push, hrun]
      refine ⟨h.queues.push .., ?_, ?_, fun _ => ?_⟩
      · rw [hinfo, RepInfo.set_head_length _ h.size]; exact h.size
      · rw [hinfo, RepInfo.init_set_ser_time junk now h.size]; exact h.used
      · rw [hinfo, RepInfo.init_set_ser_time junk now h.size]
        exact Or.inr ht

lemma SlotInv.start (h : SlotInv junk r) {now : ℕ} {db : GentDb} {word : Word}
    (ht : r.Timely junk (.start now db word)) {b : Batch} {ret : Bool}
    (hs : r.start db now word.text = .ok (r', b, ret)) : SlotInv junk r' := by
  have hq := (h.queues.start word.text_cases hs).1
  rcases h.queues.start_slot hs with ⟨hi, hm⟩ | ⟨hi, hcase⟩
  · refine ⟨hq, hi ▸ h.size, hi ▸ h.used, fun hne => ?_⟩
    rw [hi]
    exact h.behind fun hm' => hne (hm hm')
  · have hempty : r'.main_que = [] := by
      rcases hcase with ⟨hflag, hack, hsome, hm⟩ | ⟨hflag, h0, hall, hm⟩
      · exact hm (ht.1 hflag hack hsome)
      · exact hm (ht.2 hflag h0 hall)
    refine ⟨hq, ?_, ?_, fun hne => absurd hempty hne⟩
    · rw [hi, RepInfo.set_head_length _ h.size]; exact h.size
    · rw [hi, RepInfo.init_set_rep_time junk now h.size]; exact h.used

theorem SlotInv.step (h : SlotInv junk r) {e : SlotEv} (ht : r.Timely junk e)
    (hs : r.slotStep e = some r') : SlotInv junk r' := by
  cases e with
  | push now id type key =>
      cases hs
      exact h.push ht
  | start now db word =>
      simp only [slotStep] at hs
      split at hs
      · rename_i hstart
        cases hs
        exact h.start ht hstart
      · cases hs

/-- **A push is forgotten.**  The full synchronisation of an empty master ends and writes
`rep_time`; a key is set within the same second; after a crash nothing is synchronised. -/
theorem forgets_unsent :
    ∃ r, Transition.run slotStep
        (new (RepInfo.fresh (lit "slave")) .empty 1700000000 true false 0)
        [.start 1700000001 .empty .data, .push 1700000001 0 .ADD (lit "a")] = some r ∧
      ¬ Remembered [] r := by
  refine ⟨_, rfl, fun h => ?_⟩
  obtain ⟨name, info, hload, hnew⟩ := h (by decide)
  have hque := (hnew (GentDb.empty.put true true 1700000001 (lit "a") (lit "v") 0 1).1 1700000100
    false 0).2
  obtain ⟨-, rfl⟩ := Prod.mk.inj (Option.some.inj hload)
  revert hque
  decide

/-- **Timely runs are remembered.**  From any slot that is in use, in every run whose pushes come
late enough after the last acknowledgement and whose acknowledgements leave no pushed entry
behind, a crash at any point is followed by a full synchronisation if it lost a pushed entry. -/
theorem remembered_of_timely (rinfo : RepInfo) (hsize : 21 ≤ rinfo.head.length)
    (hused : (RepInfo.init junk rinfo.head).available ≠ 0) (db : GentDb) (now : ℕ)
    (is_sync_all uninit : Bool) (next : ℕ) (evs : List SlotEv)
    (ht : Transition.Along slotStep (Timely junk) (new rinfo db now is_sync_all uninit next) evs)
    (hrun : Transition.run slotStep (new rinfo db now is_sync_all uninit next) evs = some r) :
    Remembered junk r :=
  (Transition.inv_run (fun _ _ _ h ht hs => h.step ht hs) evs
    (SlotInv.new hsize hused db now is_sync_all uninit next) ht hrun).remembered

/-- The same run with the key set some seconds later. -/
theorem remembered_of_timely_late_push :
    ∃ r, Transition.run slotStep
        (new (RepInfo.fresh (lit "slave")) .empty 1700000000 true false 0)
        [.start 1700000001 .empty .data, .push 1700000020 0 .ADD (lit "a")] = some r ∧
      r.main_que ≠ [] ∧ Remembered [] r :=
  ⟨_, rfl, by decide, remembered_of_timely (RepInfo.fresh (lit "slave")) (by decide) (by decide)
    .empty 1700000000 true false 0
    [.start 1700000001 .empty .data, .push 1700000020 0 .ADD (lit "a")] (by decide) rfl⟩

end GentReplication

end Riser
