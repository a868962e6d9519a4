import Riser.Core.Transition
import Riser.Repl.RepInfo

/-!
# A slot of the mapped file across a restart

`GentFile::Init` makes one `repinfo` per slot of `REPLICATION_INFO`, with `head` pointing into the
mapped bytes.  From then on every change is made twice, in the fields of the object and in the bytes, and
after a restart the bytes are all there is.  `Restores` says that they are **enough**: an object
constructed from them has the fields of the one that wrote them.

They are enough as long as nobody writes more than fits.  A time of ten digits loses its last one to the
terminating NUL of `snprintf`; a name is written without its NUL, so it runs on into the rest of a
longer one that had the slot before; and the ten zeros with which a slot starts run on into the
byte of the reader's array that nothing initialises.  `restores_iff` is the exact condition for a
whole history of a slot, and it covers the bytes of the other slots, which no write reaches.
-/

namespace Riser

open Cpp

namespace RepInfo

/-- An object constructed from the bytes has the fields of this one.  Names are compared as the C
strings they are used as; `junk` is what the reader finds behind its array. -/
structure Restores (junk : Str) (i : RepInfo) : Prop where
  available : (init junk i.head).available = i.available
  ser_time : (init junk i.head).ser_time = i.ser_time
  rep_time : (init junk i.head).rep_time = i.rep_time
  name : cstr (init junk i.head).name = cstr i.name

/-- The bytes behind the reader's array do not continue ten zeros to another number. -/
def Quiet (junk : Str) : Prop := (atoi (lit "0000000000" ++ junk) % 2 ^ 32).toNat = 0

instance (junk : Str) : Decidable (Quiet junk) := inferInstanceAs (Decidable (_ = _))

/-! ## Taking a slot into use -/

section SetName

variable {i : RepInfo} {nstr : Str}

/-- The name of a slot in use, as a C string. -/
lemma cstr_setName (junk : Str) (hlen : nstr.length < slaveNameSize) :
    cstr (i.setName junk nstr).name = cstr nstr := by
  have hsplit : (nstr ++ 0 :: junk).take slaveNameSize
      = nstr ++ 0 :: junk.take (slaveNameSize - nstr.length - 1) := by
    obtain ⟨n, hn⟩ : ∃ n, slaveNameSize - nstr.length = n + 1 :=
      ⟨slaveNameSize - nstr.length - 1, by omega⟩
    rw [List.take_append, List.take_of_length_le (by omega), hn, List.take_succ_cons, Nat.add_sub_cancel]
  show cstr ((nstr ++ 0 :: junk).take slaveNameSize) = cstr nstr
  rw [hsplit]
  by_cases hzero : 0 ∈ nstr
  · obtain ⟨t, ht⟩ := cstr_split hzero
    rw [ht, List.append_assoc, cstr_append (zero_notMem_cstr nstr)]
    rw [cstr_append (zero_notMem_cstr nstr)]
    simp [cstr]
  · rw [cstr_append hzero, cstr_eq_self hzero]
    simp [cstr]

/-- What goes into the file: a one, twenty zeros, and the name without a NUL. -/
lemma setName_head (junk : Str) (hlen : nstr.length < slaveNameSize) :
    (i.setName junk nstr).head
      = memcpy i.head 0 (lit "1" ++ lit "0000000000" ++ lit "0000000000" ++ cstr nstr) := by
  have hname : cstr ((nstr ++ 0 :: junk).take slaveNameSize) = cstr nstr := cstr_setName (i := i) junk hlen
  have hcut : (cstr nstr).length ≤ nstr.length := (List.takeWhile_prefix _).length_le
  have htext : (i.setName junk nstr).head = memcpy i.head 0
      (snprintf 100 (decimal 1 ++ timeText 0 ++ timeText 0
        ++ cstr ((nstr ++ 0 :: junk).take slaveNameSize))) := rfl
  rw [htext, hname, snprintf, List.take_of_length_le]
  · rfl
  · have h1 : (decimal 1).length = 1 := by decide
    have h0 : (timeText 0).length = 10 := by decide
    simp only [List.length_append, h1, h0]
    unfold slaveNameSize at hlen
    omega

/-- What a restart makes of it. -/
lemma init_setName (junk junk' : Str) (hlen : nstr.length < slaveNameSize) :
    init junk (i.setName junk' nstr).head = {
      available := 1
      ser_time := (atoi (lit "0000000000" ++ junk) % 2 ^ 32).toNat
      rep_time := (atoi (lit "0000000000" ++ junk) % 2 ^ 32).toNat
      name := (cstr nstr ++ i.head.drop (21 + (cstr nstr).length)).take slaveNameSize
      head := (i.setName junk' nstr).head } := by
  have hone : lit "1" = [49] := by decide
  have hzeros : lit "0000000000" = List.replicate 10 48 := by decide
  have hatoi : (atoi [49] % 2 ^ 32).toNat = 1 := by decide
  have hhead : (i.setName junk' nstr).head
      = 49 :: (List.replicate 10 48 ++ (List.replicate 10 48
        ++ (cstr nstr ++ i.head.drop (21 + (cstr nstr).length)))) := by
    have hsize : 0 + ([49] ++ List.replicate 10 48 ++ List.replicate 10 48 ++ cstr nstr).length
        = 21 + (cstr nstr).length := by
      simp only [List.length_append, List.length_singleton, List.length_replicate]
      omega
    rw [setName_head junk' hlen, memcpy, hone, hzeros, hsize]
    simp only [List.take_zero, List.nil_append, List.append_assoc, List.cons_append]
  rw [hhead, init, hzeros]
  simp only [List.take_succ_cons, List.take_zero, hatoi, List.drop_succ_cons, List.drop_zero]
  congr 1

/-- The name comes back exactly when a NUL happens to follow it. -/
lemma cstr_append_take_iff {n t : Str} {k : ℕ} (hn : 0 ∉ n) (hk : n.length < k) (ht : t ≠ []) :
    cstr ((n ++ t).take k) = n ↔ t.head? = some 0 := by
  obtain ⟨b, t, rfl⟩ := List.exists_cons_of_ne_nil ht
  obtain ⟨m, hm⟩ : ∃ m, k - n.length = m + 1 := ⟨k - n.length - 1, by omega⟩
  rw [List.take_append, List.take_of_length_le (by omega), hm, List.take_succ_cons, cstr_append hn,
    List.append_right_eq_self]
  by_cases hb : b = 0
  · simp [cstr, hb]
  · simp [cstr, hb]

/-- **A slot that is taken into use** restores exactly when the byte behind the new name is a NUL and
the reader's zeros end where its array does. -/
lemma restores_setName_iff (junk junk' : Str) (hhead : slaveNameSize + 21 ≤ i.head.length)
    (hlen : nstr.length < slaveNameSize) :
    Restores junk (i.setName junk' nstr) ↔
      Quiet junk ∧ i.head[21 + (cstr nstr).length]? = some 0 := by
  have hcut : (cstr nstr).length ≤ nstr.length := (List.takeWhile_prefix _).length_le
  have hrest : i.head.drop (21 + (cstr nstr).length) ≠ [] := by
    simp only [ne_eq, List.drop_eq_nil_iff]
    omega
  have hname := cstr_append_take_iff (zero_notMem_cstr nstr) (hcut.trans_lt hlen) hrest
  rw [List.head?_drop] at hname
  constructor
  · intro h
    have htime := h.ser_time
    have hn := h.name
    rw [init_setName junk junk' hlen] at htime hn
    rw [cstr_setName junk' hlen] at hn
    exact ⟨htime, hname.mp hn⟩
  · rintro ⟨hquiet, hzero⟩
    constructor
    · rw [init_setName junk junk' hlen]
      rfl
    · rw [init_setName junk junk' hlen]
      exact hquiet
    · rw [init_setName junk junk' hlen]
      exact hquiet
    · rw [init_setName junk junk' hlen, cstr_setName junk' hlen]
      exact hname.mpr hzero

end SetName

/-! ## Writing a field -/

section SetField

variable {i : RepInfo} {junk : Str}

/-- A time survives exactly when it has no more than nine digits. -/
lemma stamp_eq_iff {val : ℕ} (h : val < 2 ^ 32) : stamp val = val ↔ val < 10 ^ 9 := by
  rcases lt_or_ge val (10 ^ 9) with hlt | hge
  · have hlen : (decimal val).length ≤ 9 := (decimal_length_le_iff (by decide)).mpr hlt
    rw [stamp, List.take_of_length_le hlen, digitsVal_decimal]
    exact iff_of_true rfl hlt
  · rw [stamp, take_decimal hge (by omega) (by decide), digitsVal_decimal]
    omega

/-- The field of that name. -/
def Field.get : Field → RepInfo → ℕ
  | .ser_time, i => i.ser_time
  | .rep_time, i => i.rep_time
  | .available, i => i.available

lemma restores_iff_get : Restores junk i ↔
    (∀ f : Field, f.get (init junk i.head) = f.get i) ∧ cstr (init junk i.head).name = cstr i.name := by
  constructor
  · intro h
    refine ⟨fun f => ?_, h.name⟩
    cases f with
    | ser_time => exact h.ser_time
    | rep_time => exact h.rep_time
    | available => exact h.available
  · rintro ⟨hfield, hname⟩
    exact ⟨hfield .available, hfield .ser_time, hfield .rep_time, hname⟩

lemma get_set (i : RepInfo) (f g : Field) (val : ℕ) :
    g.get (i.set f val) = if g = f then val % 2 ^ 32 else g.get i := by
  cases f <;> cases g <;> rfl

lemma name_set (i : RepInfo) (f : Field) (val : ℕ) : (i.set f val).name = i.name := by
  cases f <;> rfl

/-- **A field that has been written** is restored exactly if what is read back is what it was set to. -/
lemma restores_set_iff (h : Restores junk i) {f : Field} {val read : ℕ}
    (hread : ∀ g : Field, g.get (init junk (i.set f val).head)
      = if g = f then read else g.get (init junk i.head))
    (hname : (init junk (i.set f val).head).name = (init junk i.head).name) :
    Restores junk (i.set f val) ↔ read = val % 2 ^ 32 := by
  rw [restores_iff_get, hname, name_set]
  constructor
  · rintro ⟨hfield, -⟩
    simpa [hread, get_set] using hfield f
  · intro heq
    refine ⟨fun g => ?_, h.name⟩
    rw [hread, get_set, heq, (restores_iff_get.mp h).1 g]

/-- A time. -/
lemma restores_set_time_iff (h : Restores junk i) (hhead : 21 ≤ i.head.length) {f : Field}
    (hf : f ≠ .available) {val : ℕ} (hval : val < 2 ^ 32) :
    Restores junk (i.set f val) ↔ val < 10 ^ 9 := by
  have hread : ∀ g : Field, g.get (init junk (i.set f val).head)
      = if g = f then stamp val else g.get (init junk i.head) := by
    intro g
    cases f with
    | ser_time => rw [init_set_ser_time junk val hhead]; cases g <;> rfl
    | rep_time => rw [init_set_rep_time junk val hhead]; cases g <;> rfl
    | available => exact absurd rfl hf
  have hname : (init junk (i.set f val).head).name = (init junk i.head).name := by
    cases f with
    | ser_time => rw [init_set_ser_time junk val hhead]
    | rep_time => rw [init_set_rep_time junk val hhead]
    | available => exact absurd rfl hf
  rw [restores_set_iff h hread hname, Nat.mod_eq_of_lt hval, stamp_eq_iff hval]

/-- A slot is given up with a NUL, which reads as a zero. -/
lemma init_set_available (hhead : 1 ≤ i.head.length) :
    init junk (i.set .available 0).head
      = { init junk i.head with available := 0, head := (i.set .available 0).head } := by
  obtain ⟨b, t, ht⟩ := List.exists_cons_of_length_pos (Nat.lt_of_lt_of_le Nat.zero_lt_one hhead)
  have hbuf : setBuf 1 0 = [0] := by decide
  have hatoi : (atoi [0] % 2 ^ 32).toNat = 0 := by decide
  have hset : (i.set .available 0).head = 0 :: t := by
    rw [set_head]
    simp [memcpy, Field.offset, Field.ln, hbuf, ht]
  rw [hset, ht, init, init]
  simp only [List.take_succ_cons, List.take_zero, hatoi, List.drop_succ_cons]

lemma restores_set_available (h : Restores junk i) (hhead : 1 ≤ i.head.length) :
    Restores junk (i.set .available 0) := by
  refine (restores_set_iff h (fun g => ?_) ?_).mpr (Nat.zero_mod (2 ^ 32)).symm
  · rw [init_set_available hhead]
    cases g <;> rfl
  · rw [init_set_available hhead]

end SetField

end RepInfo

/-! ## The history of a slot -/

/-- `repinfo::size`. -/
def slotSize : ℕ := slaveNameSize + 21

/-- A change of a slot: it is taken into use, one of its times is set, or it is given up
(`SetLogout`). -/
inductive SlotOp where
  | name (junk nstr : Str) (short : nstr.length < slaveNameSize)
  | ser_time (val : ℕ) (bound : val < 2 ^ 32)
  | rep_time (val : ℕ) (bound : val < 2 ^ 32)
  | logout

namespace SlotOp

/-- What it does to the object and the bytes. -/
def apply (i : RepInfo) : SlotOp → RepInfo
  | .name junk nstr _ => i.setName junk nstr
  | .ser_time val _ => i.set .ser_time val
  | .rep_time val _ => i.set .rep_time val
  | .logout => i.set .available 0

/-- **The condition under which the bytes stay enough.** -/
def Safe (junk : Str) (i : RepInfo) : SlotOp → Prop
  | .name _ nstr _ => RepInfo.Quiet junk ∧ i.head[21 + (cstr nstr).length]? = some 0
  | .ser_time val _ => val < 10 ^ 9
  | .rep_time val _ => val < 10 ^ 9
  | .logout => True

instance (junk : Str) (i : RepInfo) : ∀ op, Decidable (Safe junk i op)
  | .name _ _ _ => inferInstanceAs (Decidable (_ ∧ _))
  | .ser_time _ _ => inferInstanceAs (Decidable (_ < _))
  | .rep_time _ _ => inferInstanceAs (Decidable (_ < _))
  | .logout => inferInstanceAs (Decidable True)

variable {i : RepInfo} {junk : Str}

/-- One change. -/
lemma restores_apply_iff (h : i.Restores junk) (hhead : slotSize ≤ i.head.length) (op : SlotOp) :
    (op.apply i).Restores junk ↔ op.Safe junk i := by
  unfold slotSize at hhead
  cases op with
  | name junk' nstr short => exact RepInfo.restores_setName_iff junk junk' hhead short
  | ser_time val bound => exact RepInfo.restores_set_time_iff (f := .ser_time) h (by omega) (by decide) bound
  | rep_time val bound => exact RepInfo.restores_set_time_iff (f := .rep_time) h (by omega) (by decide) bound
  | logout => exact iff_of_true (RepInfo.restores_set_available h (by omega)) trivial

/-- Nothing is written behind the slot. -/
lemma apply_head (hhead : slotSize ≤ i.head.length) (op : SlotOp) :
    (op.apply i).head.length = i.head.length ∧
      (op.apply i).head.drop slotSize = i.head.drop slotSize := by
  have hcopy : ∀ {offset : ℕ} {src : Str}, offset + src.length ≤ slotSize →
      (memcpy i.head offset src).length = i.head.length ∧
        (memcpy i.head offset src).drop slotSize = i.head.drop slotSize := fun hfit =>
    ⟨memcpy_length (by omega), memcpy_above _ _ (by omega) hfit⟩
  have hset : ∀ (f : RepInfo.Field) (val : ℕ), (i.set f val).head.length = i.head.length ∧
      (i.set f val).head.drop slotSize = i.head.drop slotSize := by
    intro f val
    rw [RepInfo.set_head]
    refine hcopy ?_
    rw [RepInfo.setBuf_length val (by cases f <;> decide)]
    cases f <;> decide
  cases op with
  | name junk' nstr short =>
      have hcut : (cstr nstr).length ≤ nstr.length := (List.takeWhile_prefix _).length_le
      have hsize : (lit "1" ++ lit "0000000000" ++ lit "0000000000").length = 21 := by decide
      simp only [apply, RepInfo.setName_head junk' short]
      refine hcopy ?_
      rw [List.length_append, hsize]
      unfold slotSize
      omega
  | ser_time val bound => exact hset .ser_time val
  | rep_time val bound => exact hset .rep_time val
  | logout => exact hset .available 0

end SlotOp

/-- The mapped file, and the object of its `k`-th slot, whose `head` points into the file. -/
structure MappedSlot (k : ℕ) where
  file : Str
  info : RepInfo
  head : info.head = file.drop (slotSize * k)
  fits : slotSize * (k + 1) ≤ file.length

namespace MappedSlot

variable {k : ℕ}

/-- The bytes of a slot. -/
def slotBytes (file : Str) (j : ℕ) : Str := (file.drop (slotSize * j)).take slotSize

lemma slotSize_le (s : MappedSlot k) : slotSize ≤ s.info.head.length := by
  have hfits := s.fits
  rw [s.head, List.length_drop]
  unfold slotSize slaveNameSize at *
  omega

/-- The object that `GentFile::Init` constructs. -/
def construct (junk file : Str) (h : slotSize * (k + 1) ≤ file.length) : MappedSlot k where
  file := file
  info := RepInfo.init junk (file.drop (slotSize * k))
  head := rfl
  fits := h

/-- A change of the slot is one of the file. -/
def write (s : MappedSlot k) (op : SlotOp) : MappedSlot k where
  file := s.file.take (slotSize * k) ++ (op.apply s.info).head
  info := op.apply s.info
  head := by
    have hfits := s.fits
    rw [List.drop_left']
    rw [List.length_take]
    unfold slotSize slaveNameSize at *
    omega
  fits := by
    have hfits := s.fits
    have hlen := congrArg List.length s.head
    rw [List.length_drop] at hlen
    rw [List.length_append, (SlotOp.apply_head s.slotSize_le op).1, List.length_take]
    unfold slotSize slaveNameSize at *
    omega

/-- The other slots keep their bytes. -/
lemma slotBytes_write (s : MappedSlot k) (op : SlotOp) {j : ℕ} (hj : j ≠ k) :
    slotBytes (s.write op).file j = slotBytes s.file j := by
  have hfits := s.fits
  have htake : (s.file.take (slotSize * k)).length = slotSize * k := by
    rw [List.length_take]
    unfold slotSize slaveNameSize at *
    omega
  have hbehind := (SlotOp.apply_head s.slotSize_le op).2
  show ((s.file.take (slotSize * k) ++ (op.apply s.info).head).drop (slotSize * j)).take slotSize
    = (s.file.drop (slotSize * j)).take slotSize
  rcases Nat.lt_or_gt_of_ne hj with hlt | hgt
  · have hle : slotSize * j + slotSize ≤ slotSize * k := by
      unfold slotSize slaveNameSize
      omega
    rw [List.drop_append_of_le_length (by omega), List.take_append_of_le_length, List.drop_take,
      List.take_take]
    · congr 1
      omega
    · rw [List.length_drop]
      omega
  · obtain ⟨d, hd⟩ : ∃ d, slotSize * j = slotSize * k + (slotSize + d) :=
      ⟨slotSize * j - slotSize * k - slotSize, by unfold slotSize slaveNameSize; omega⟩
    rw [hd, ← List.drop_drop, List.drop_left' htake, ← List.drop_drop, hbehind, s.head,
      List.drop_drop, List.drop_drop]

/-- One change after another. -/
def step (s : MappedSlot k) (op : SlotOp) : Option (MappedSlot k) := some (s.write op)

/-- **A slot survives a restart**, at every moment of its history, exactly when it does at the beginning
and all changes are safe.  The other slots keep their bytes in any case. -/
theorem restores_iff (junk : Str) {s s' : MappedSlot k} {ops : List SlotOp}
    (hrun : Transition.run step s ops = some s') :
    (Transition.Along step (fun s _ => s.info.Restores junk) s ops ∧ s'.info.Restores junk ↔
        s.info.Restores junk ∧ Transition.Along step (fun s op => op.Safe junk s.info) s ops) ∧
      ∀ j, j ≠ k → slotBytes s'.file j = slotBytes s.file j := by
  constructor
  · have hiff : s.info.Restores junk →
        (Transition.Along step (fun s _ => s.info.Restores junk) s ops ∧ s'.info.Restores junk ↔
          Transition.Along step (fun s op => op.Safe junk s.info) s ops) := fun h =>
      Transition.along_inv_iff (W := fun _ => True) (fun _ _ _ _ _ => trivial)
        (fun s op s' _ hI hs => by
          obtain rfl := Option.some.inj hs
          exact SlotOp.restores_apply_iff hI s.slotSize_le op) ops trivial h hrun
    constructor
    · intro h
      have hfirst : s.info.Restores junk := by
        cases ops with
        | nil =>
            obtain rfl := Option.some.inj hrun
            exact h.2
        | cons op ops => exact h.1.1
      exact ⟨hfirst, (hiff hfirst).mp h⟩
    · rintro ⟨hfirst, hsafe⟩
      exact (hiff hfirst).mpr hsafe
  · intro j hj
    refine Transition.inv_run_of_step
      (I := fun t : MappedSlot k => slotBytes t.file j = slotBytes s.file j)
      (fun t op t' ht hstep => ?_) rfl hrun
    obtain rfl := Option.some.inj hstep
    exact (slotBytes_write t op hj).trans ht

/-- A new file with room for two slots, and its first one. -/
def newFile : MappedSlot 0 :=
  construct [] (List.replicate 142 0) (by simp [slotSize, slaveNameSize])

/-- A slave registers, is pushed to on a day of 2001, and leaves; another one with a longer name takes
the slot. -/
def quietHistory : List SlotOp :=
  [.name [] (lit "a") (by decide), .ser_time 990000000 (by decide), .logout,
    .name [] (lit "slave") (by decide)]

theorem restores_quietHistory : ∃ s' : MappedSlot 0,
    Transition.run step newFile quietHistory = some s' ∧ s'.info.Restores [] ∧
      slotBytes s'.file 1 = slotBytes newFile.file 1 := by
  obtain ⟨s', hrun⟩ : ∃ s', Transition.run step newFile quietHistory = some s' := ⟨_, rfl⟩
  have hsafe : Transition.Along step (fun s op => op.Safe [] s.info) newFile quietHistory := by
    decide +kernel
  have hiff := restores_iff [] hrun
  exact ⟨s', hrun, (hiff.1.mpr ⟨⟨rfl, rfl, rfl, rfl⟩, hsafe⟩).2, hiff.2 1 (by decide)⟩

/-- **A time of ten digits** comes back without its last one, and **a shorter name** comes back with the
end of the longer one before it. -/
theorem slot_misread :
    (∃ s' : MappedSlot 0, Transition.run step newFile
        [.name [] (lit "a") (by decide), .ser_time 1700000005 (by decide)] = some s' ∧
      s'.info.ser_time = 1700000005 ∧ (RepInfo.init [] s'.info.head).ser_time = 170000000) ∧
    ∃ s' : MappedSlot 0, Transition.run step newFile
        [.name [] (lit "slave") (by decide), .logout, .name [] (lit "a") (by decide)] = some s' ∧
      cstr s'.info.name = lit "a" ∧ cstr (RepInfo.init [] s'.info.head).name = lit "alave" :=
  ⟨⟨_, rfl, by decide, by decide⟩, _, rfl, by decide, by decide⟩

end MappedSlot

/-! ## A registered slave is found again -/

/-- A slot that nobody had before survives the restart. -/
lemma RepInfo.restores_fresh {junk nstr : Str} (hquiet : Quiet junk)
    (hlen : nstr.length < slaveNameSize) : (fresh nstr).Restores junk := by
  refine (restores_setName_iff junk [] (by simp [init, slaveNameSize]) hlen).mpr ⟨hquiet, ?_⟩
  have hcut : (cstr nstr).length ≤ nstr.length := (List.takeWhile_prefix _).length_le
  have hlt : 21 + (cstr nstr).length < slaveNameSize + 21 := by omega
  simp [init, hlt]

lemma RepInfo.cstr_fresh {nstr : Str} (hlen : nstr.length < slaveNameSize) :
    cstr (fresh nstr).name = cstr nstr := cstr_setName [] hlen

end Riser
