import Riser.Redis.Complete
import Riser.Redis.Faults

/-!
# Who decides that a key has expired

The expiry of a key is a number in its meta record, and three places compare it with the clock, each
in its own way.  `GentDb::Get` hides a key whose expiry lies before the clock.  `TTL` answers `-2` when
the clock is not before the expiry, and the sweeper deletes under the same condition.  In the very
second of the expiry the first comparison and the other two differ.

`expiryAgrees_iff` is **the exact condition under which the replies agree**.  Besides that second
it is about keys that only `meta_db` has, as after a `Del` whose second half failed: `TTL` asks
`meta_db` alone, and finds them.

What a record says is up to its text, and `SETEX` can write records whose text does not decode to what
was meant: an expiry of fewer or more than ten digits shifts the fields, and one that is zero or beyond
`LONG_MAX` is stored as none.  `setexRecord_iff` says that **the record is right exactly when the
time of the expiry has ten digits**.
-/

namespace Riser

open Cpp

/-! ## The readers, by the record of the key -/

namespace GentDb

variable {s : GentDb} {now : ℕ} {key m : Str} {dat : MetaData}

/-- Without a meta record nothing expires. -/
lemma get_of_none (hm : s.meta_db[key]? = none) : s.get now key = .ok s.db[key]? := by
  simp only [get, hm]
  rfl

lemma get_of_some (hm : s.meta_db[key]? = some m) (hdat : metaUnserialize m = .ok dat) :
    s.get now key = .ok (if dat.expire ≠ 0 ∧ dat.expire < now then none else s.db[key]?) := by
  simp only [get, hm, hdat, bind, Except.bind, pure, Except.pure, decide_eq_true_eq]

/-- A record that does not decode stops the readers. -/
lemma get_of_fault {f : Fault} (hm : s.meta_db[key]? = some m) (hdat : metaUnserialize m = .error f) :
    s.get now key = .error f := by
  simp only [get, hm, hdat, bind, Except.bind]

lemma ttl_of_none (hm : s.meta_db[key]? = none) : s.ttl key = .ok (s.db.contains key, 0) := by
  simp only [ttl, hm]
  rfl

lemma ttl_of_some (hm : s.meta_db[key]? = some m) (hdat : metaUnserialize m = .ok dat) :
    s.ttl key = .ok (true, dat.expire) := by
  simp only [ttl, hm, hdat]
  rfl

lemma ttl_of_fault {f : Fault} (hm : s.meta_db[key]? = some m) (hdat : metaUnserialize m = .error f) :
    s.ttl key = .error f := by
  simp only [ttl, hm, hdat]
  rfl

end GentDb

/-! ## The record that `SETEX` writes -/

/-- `expire` of a `SETEX`: the argument as an unsigned number, added to the clock modulo `2 ^ 64`. -/
def setexExpire (ttl : ℤ) (now : ℕ) : ℕ := (toUInt64 ttl + now) % 2 ^ 64

/-- **The record of a `SETEX` says what was meant**: it decodes to the data type and the store time,
and to an expiry with which `Get` hides the key exactly from the second on that follows the time of the
expiry. -/
def SetexRecord (d : ℕ) (ttl : ℤ) (now : ℕ) : Prop :=
  ∃ e, metaUnserialize (metaSerialize d (setexExpire ttl now) now) = .ok ⟨d, e, now⟩ ∧
    ∀ (s : GentDb) (key value : Str),
      s.meta_db[key]? = some (metaSerialize d (setexExpire ttl now) now) →
      s.db[key]? = some value →
      ∀ t : ℕ, now ≤ t → s.get t key = .ok (if ttl + now < t then none else some value)

section Setex

variable {d now : ℕ} {ttl : ℤ}

/-- The sum is that of the integers unless it is negative, and then it is beyond `LONG_MAX`. -/
lemma setexExpire_cases (hnow : TenDigit now) (hlo : -2 ^ 31 ≤ ttl) (hhi : ttl < 2 ^ 31) :
    (0 ≤ ttl + now ∧ (setexExpire ttl now : ℤ) = ttl + now) ∨
      (ttl + now < 0 ∧ redisExpireTime < setexExpire ttl now) := by
  obtain ⟨hge, hlt⟩ := hnow
  simp only [setexExpire, toUInt64, redisExpireTime]
  omega

/-- An expiry that is zero or out of range is stored as none. -/
lemma metaSerialize_none {e : ℕ} (he : e = 0 ∨ redisExpireTime < e) :
    metaSerialize d e now = metaSerialize d 0 now := by
  rw [metaSerialize, if_pos he, metaSerialize, if_pos (Or.inl rfl)]

/-- The text with an expiry, before it is cut into fields. -/
lemma metaSerialize_some {e : ℕ} (hd : d < 10) (hnow : TenDigit now) (hne : e ≠ 0)
    (hlt : e < 10 ^ 11) :
    metaSerialize d e now = UInt8.ofNat (48 + d) :: 43 :: (decimal e ++ decimal now) := by
  have hrange : ¬ (e = 0 ∨ redisExpireTime < e) := by
    simp only [redisExpireTime]
    omega
  have hlen : (decimal e).length ≤ 11 := (decimal_length_le_iff (by decide)).mpr hlt
  have hplus : lit "+" = [43] := by decide
  rw [metaSerialize, if_neg hrange, snprintf, decimalInt_of_lt_ten hd, hplus]
  refine List.take_of_length_le ?_
  simp only [List.length_append, List.length_singleton, hnow.decimal_length]
  omega

/-- A store with one key, whose record is given. -/
def oneKey (record value : Str) : GentDb :=
  { GentDb.empty with
    db := (∅ : LevelDb).insert (lit "k") value
    meta_db := (∅ : LevelDb).insert (lit "k") record }

/-- A right record hides the key at the right time, whatever expiry it decodes to. -/
lemma SetexRecord.expired_iff (h : SetexRecord d ttl now) :
    ∃ e, metaUnserialize (metaSerialize d (setexExpire ttl now) now) = .ok ⟨d, e, now⟩ ∧
      ((e ≠ 0 ∧ e < now) ↔ ttl + now < now) := by
  obtain ⟨e, hdec, hget⟩ := h
  refine ⟨e, hdec, ?_⟩
  generalize metaSerialize d (setexExpire ttl now) now = record at hdec hget
  have hmeta : (oneKey record []).meta_db[lit "k"]? = some record := by simp [oneKey]
  have hdb : (oneKey record []).db[lit "k"]? = some [] := by simp [oneKey]
  have hkey := hget (oneKey record []) (lit "k") [] hmeta hdb now le_rfl
  rw [GentDb.get_of_some hmeta hdec, hdb] at hkey
  have hval := Except.ok.inj hkey
  split_ifs at hval with h₁ h₂ h₂
  · exact iff_of_true h₁ h₂
  · exact iff_of_false h₁ h₂

/-- With fewer than ten digits of expiry the store time begins inside the clock. -/
lemma metaUnserialize_short {e : ℕ} (hd : d < 10) (hnow : TenDigit now) (hne : e ≠ 0)
    (hlt : e < 10 ^ 9) :
    ∃ e' st, metaUnserialize (metaSerialize d e now) = .ok ⟨d, e', st⟩ ∧ st < 10 ^ 9 := by
  have hlen : (decimal e).length ≤ 9 := (decimal_length_le_iff (by decide)).mpr hlt
  have htake : ((decimal e ++ decimal now).take 10).length = 10 := by
    simp only [List.length_take, List.length_append, hnow.decimal_length]
    omega
  rw [metaSerialize_some hd hnow hne (by omega), ← List.take_append_drop 10 (decimal e ++ _),
    metaUnserialize_fields hd htake]
  refine ⟨_, _, rfl, ?_⟩
  have hdigits : ∀ b ∈ ((decimal e ++ decimal now).drop 10).take 10, isDigit b = true := by
    intro b hb
    rcases List.mem_append.mp (List.mem_of_mem_drop (List.mem_of_mem_take hb)) with hb | hb
    · exact isDigit_of_mem_decimal hb
    · exact isDigit_of_mem_decimal hb
  refine (strtoull_lt hdigits).trans_le (Nat.pow_le_pow_right (by decide) ?_)
  simp only [List.length_take, List.length_drop, List.length_append, hnow.decimal_length]
  omega

/-- Of eleven digits of expiry the first ten are read. -/
lemma metaUnserialize_long {e : ℕ} (hd : d < 10) (hnow : TenDigit now) (hge : 10 ^ 10 ≤ e)
    (hlt : e < 10 ^ 11) :
    ∃ st, metaUnserialize (metaSerialize d e now) = .ok ⟨d, e / 10, st⟩ := by
  have hten : TenDigit (e / 10) := ⟨by omega, by omega⟩
  have htake : (decimal e).take 10 = decimal (e / 10) := take_decimal hge hlt (by decide)
  have hlen : ((decimal e).take 10).length = 10 := by rw [htake, hten.decimal_length]
  rw [metaSerialize_some hd hnow (by omega) hlt, ← List.take_append_drop 10 (decimal e),
    List.append_assoc, metaUnserialize_fields hd hlen, htake, hten.strtoull_decimal]
  exact ⟨_, rfl⟩

/-- **The record of a `SETEX` is right exactly when the time of the expiry has ten digits.** -/
theorem setexRecord_iff (hd : d < 10) (hnow : TenDigit now) (hlo : -2 ^ 31 ≤ ttl)
    (hhi : ttl < 2 ^ 31) :
    SetexRecord d ttl now ↔ 10 ^ 9 ≤ ttl + now ∧ ttl + now < 10 ^ 10 := by
  have hge := hnow.1
  have hlt := hnow.2
  constructor
  · intro h
    obtain ⟨e, hdec, hexp⟩ := h.expired_iff
    by_contra hout
    -- The four ways to miss the ten digits, by what the record then says.
    rcases setexExpire_cases hnow hlo hhi with ⟨hsum, heq⟩ | ⟨hneg, hbig⟩
    · rcases Nat.eq_zero_or_pos (setexExpire ttl now) with hzero | hpos
      · rw [hzero, metaUnserialize_metaSerialize hd (Or.inl rfl) hnow] at hdec
        have := (MetaData.mk.inj (Except.ok.inj hdec)).2.1
        omega
      · rcases lt_or_ge (setexExpire ttl now) (10 ^ 9) with hshort | hlong
        · obtain ⟨e', st, hdec', hst⟩ := metaUnserialize_short hd hnow (by omega) hshort
          rw [hdec'] at hdec
          have := (MetaData.mk.inj (Except.ok.inj hdec)).2.2
          omega
        · obtain ⟨st, hdec'⟩ := metaUnserialize_long (e := setexExpire ttl now) hd hnow (by omega)
            (by omega)
          rw [hdec'] at hdec
          have := (MetaData.mk.inj (Except.ok.inj hdec)).2.1
          omega
    · rw [metaSerialize_none (Or.inr hbig), metaUnserialize_metaSerialize hd (Or.inl rfl) hnow]
        at hdec
      have := (MetaData.mk.inj (Except.ok.inj hdec)).2.1
      omega
  · rintro ⟨hlow, hhigh⟩
    have heq : (setexExpire ttl now : ℤ) = ttl + now := by
      rcases setexExpire_cases hnow hlo hhi with ⟨-, heq⟩ | ⟨hneg, -⟩
      · exact heq
      · omega
    have hten : TenDigit (setexExpire ttl now) := ⟨by omega, by omega⟩
    have hdec := metaUnserialize_metaSerialize hd (Or.inr hten) hnow
    refine ⟨setexExpire ttl now, hdec, fun s key value hmeta hdb t ht => ?_⟩
    rw [GentDb.get_of_some hmeta hdec, hdb]
    have hiff : (setexExpire ttl now ≠ 0 ∧ setexExpire ttl now < t) ↔ ttl + now < t := by omega
    simp only [hiff]

/-- An hour from 2023 on. -/
theorem setexRecord_hour : SetexRecord 0 3600 1700000000 :=
  (setexRecord_iff (by decide) (by decide) (by decide) (by decide)).mpr (by decide)

/-- A `SETEX` into the distant past stores a key that never expires. -/
theorem setexRecord_negative : ¬ SetexRecord 0 (-2000000000) 1700000000 := by
  intro h
  obtain ⟨e, hdec, hexp⟩ := h.expired_iff
  have hnone : metaUnserialize (metaSerialize 0 (setexExpire (-2000000000) 1700000000) 1700000000)
      = .ok ⟨0, 0, 1700000000⟩ := by decide +kernel
  rw [show ((0 : ℕ) : ℤ) = 0 from rfl, hnone] at hdec
  have := (MetaData.mk.inj (Except.ok.inj hdec)).2.1
  omega

end Setex

/-! ## The replies, by the record of the key -/

section Replies

variable {w : World} {sv : Server} {r : GentRedis}

/-- A line with a printed number is not one with a minus sign. -/
lemma numberText_ne (size : ℕ) (hsize : 3 ≤ size) (c : UInt8) (n : ℕ) (x y : Str) :
    snprintf size (c :: (decimal n ++ x)) ++ y ≠ c :: 45 :: lit "2\r\n" ∧
      snprintf size (c :: (decimal n ++ x)) ++ y ≠ c :: 45 :: lit "1\r\n" := by
  obtain ⟨d, ds, hds⟩ := List.exists_cons_of_ne_nil (decimal_ne_nil n)
  have hd : isDigit d = true := isDigit_of_mem_decimal (n := n) (by simp [hds])
  obtain ⟨k, rfl⟩ : ∃ k, size = k + 3 := ⟨size - 3, by omega⟩
  have hne : d ≠ 45 := (isDigit_sign hd).2.1
  constructor <;> simp [snprintf, hds, hne]

/-- `GET` answers that the key is missing. -/
lemma get_missing_iff :
    GentProcessGet.complete w sv r = .ok (lit "$-1\r\n", r, sv) ↔
      sv.db.get w.now r.keystr = .ok none := by
  rw [GentProcessGet.complete]
  cases hget : sv.db.get w.now r.keystr with
  | error f => simp [bind, Except.bind]
  | ok found =>
      cases found with
      | none => exact iff_of_true rfl rfl
      | some nr =>
          refine iff_of_false (fun h => ?_) (by simp)
          have hout := congrArg Prod.fst (Except.ok.inj h)
          exact (numberText_ne 50 (by decide) 36 (nr.length % 2 ^ 32) crlf (nr ++ crlf)).2
            (by simpa [numberLine, unsigned, lit] using hout)

/-- `EXISTS` answers that the key is missing. -/
lemma exists_missing_iff :
    GentProcessExists.complete w sv r = .ok (lit ":0\r\n", r, sv) ↔
      sv.db.get w.now r.keystr = .ok none := by
  rw [GentProcessExists.complete]
  cases hget : sv.db.get w.now r.keystr with
  | error f => simp [bind, Except.bind]
  | ok found =>
      cases found with
      | none => exact iff_of_true rfl rfl
      | some nr =>
          refine iff_of_false (fun h => ?_) (by simp)
          have hout : lit ":1\r\n" = lit ":0\r\n" := congrArg Prod.fst (Except.ok.inj h)
          exact absurd hout (by decide)

/-- `TTL` answers `-2`. -/
lemma ttl_missing_iff :
    GentProcessTtl.complete w sv r = .ok (lit ":-2\r\n", r, sv) ↔
      ∃ isTtl expire, sv.db.ttl r.keystr = .ok (isTtl, expire) ∧
        (isTtl = false ∨ (0 < expire ∧ expire ≤ w.now)) := by
  rw [GentProcessTtl.complete]
  cases httl : sv.db.ttl r.keystr with
  | error f => simp [bind, Except.bind]
  | ok res =>
      obtain ⟨isTtl, expire⟩ := res
      have hnum : snprintf 50 (lit ":" ++ decimal (expire - w.now) ++ crlf) ≠ lit ":-2\r\n" := by
        have := (numberText_ne 50 (by decide) 58 (expire - w.now) crlf []).1
        simpa [lit] using this
      have hone : lit ":-1\r\n" ≠ lit ":-2\r\n" := by decide
      simp only [bind, Except.bind, pure, Except.pure, Except.ok.injEq, Prod.mk.injEq, and_true]
      cases isTtl with
      | false => simp
      | true =>
          rcases Nat.eq_zero_or_pos expire with rfl | hpos
          · simp [hone]
          · by_cases hlt : w.now < expire
            · have hle : ¬ expire ≤ w.now := by omega
              simpa only [hpos, hlt, hle, and_true, and_false, or_false, if_true, true_and,
                exists_eq_left', exists_eq_left] using iff_of_false hnum (by simp [hle])
            · simp [hpos, hlt]
              omega

end Replies

/-! ## What a sweep removes -/

/-- A meta record under which the sweeper deletes. -/
def Dead (now : ℕ) (m : Str) : Prop :=
  ∃ dat, metaUnserialize m = .ok dat ∧ dat.expire ≠ 0 ∧ dat.expire ≤ now

namespace GentDb

variable {s s' : GentDb} {now num num' : ℕ}

/-- One turn: the key is deleted if its record is dead, and nothing happens otherwise. -/
lemma clearEntry_cases {k m : Str} (h : clearEntry now (s, num) (k, m) = .ok (s', num')) :
    (Dead now m ∧ s' = (s.del true true k).1) ∨ (¬ Dead now m ∧ s' = s) := by
  obtain ⟨dat, hdat, h⟩ := bind_eq_ok.mp h
  have hdead : Dead now m ↔ dat.expire ≠ 0 ∧ dat.expire ≤ now := by
    constructor
    · rintro ⟨dat', hdat', hdead⟩
      rw [hdat, Except.ok.injEq] at hdat'
      exact hdat' ▸ hdead
    · exact fun hdead => ⟨dat, hdat, hdead⟩
  rw [hdead]
  split_ifs at h with hzero hlt
  · exact .inr ⟨by omega, (Prod.mk.inj (Except.ok.inj h)).1.symm⟩
  · exact .inr ⟨by omega, (Prod.mk.inj (Except.ok.inj h)).1.symm⟩
  · exact .inl ⟨by omega, (Prod.mk.inj (Except.ok.inj h)).1.symm⟩

/-- A key that is not deleted keeps its entries in both leveldbs, and one that is loses both. -/
lemma del_getElem? (k key : Str) :
    (k = key ∧ (s.del true true k).1.db[key]? = none ∧ (s.del true true k).1.meta_db[key]? = none) ∨
      (k ≠ key ∧ (s.del true true k).1.db[key]? = s.db[key]? ∧
        (s.del true true k).1.meta_db[key]? = s.meta_db[key]?) := by
  by_cases hk : k = key
  · subst hk
    exact .inl ⟨rfl, by simp [del, LevelDb.delete], by simp [del, LevelDb.delete]⟩
  · exact .inr ⟨hk, by simp [del, LevelDb.delete, Std.ExtTreeMap.getElem?_erase, hk],
      by simp [del, LevelDb.delete, Std.ExtTreeMap.getElem?_erase, hk]⟩

/-- The loop of the sweeper, for one key: it is gone if the snapshot has a dead record of it, and
untouched otherwise. -/
lemma clearLoop_getElem? (key : Str) :
    ∀ (l : List (Str × Str)) (s : GentDb) (num : ℕ),
      l.foldlM (clearEntry now) (s, num) = .ok (s', num') →
      ((∃ m, (key, m) ∈ l ∧ Dead now m) ∧ s'.db[key]? = none ∧ s'.meta_db[key]? = none) ∨
        ((¬ ∃ m, (key, m) ∈ l ∧ Dead now m) ∧ s'.db[key]? = s.db[key]? ∧
          s'.meta_db[key]? = s.meta_db[key]?)
  | [], s, num, h => by
      obtain ⟨rfl, -⟩ := Prod.mk.inj (Except.ok.inj h)
      exact .inr ⟨by simp, rfl, rfl⟩
  | (k, m) :: l, s, num, h => by
      rw [List.foldlM_cons] at h
      obtain ⟨⟨s₁, num₁⟩, hentry, hloop⟩ := bind_eq_ok.mp h
      rcases clearLoop_getElem? key l s₁ num₁ hloop with ⟨⟨m', hm', hdead⟩, hgone⟩ | ⟨hlater, hdb, hmeta⟩
      · exact .inl ⟨⟨m', List.mem_cons_of_mem _ hm', hdead⟩, hgone⟩
      -- No later turn touches the key: what this one has done to it is what remains.
      · rcases clearEntry_cases hentry with ⟨hdead, rfl⟩ | ⟨hlive, rfl⟩
        · rcases del_getElem? (s := s) k key with ⟨rfl, hdb', hmeta'⟩ | ⟨hk, hdb', hmeta'⟩
          · exact .inl ⟨⟨m, List.mem_cons_self .., hdead⟩, hdb.trans hdb', hmeta.trans hmeta'⟩
          · refine .inr ⟨?_, hdb.trans hdb', hmeta.trans hmeta'⟩
            rintro ⟨m', hm', hdead'⟩
            rcases List.mem_cons.mp hm' with heq | hm'
            · exact hk (Prod.mk.inj heq).1.symm
            · exact hlater ⟨m', hm', hdead'⟩
        · refine .inr ⟨?_, hdb, hmeta⟩
          rintro ⟨m', hm', hdead'⟩
          rcases List.mem_cons.mp hm' with heq | hm'
          · exact hlive ((Prod.mk.inj heq).2 ▸ hdead')
          · exact hlater ⟨m', hm', hdead'⟩

/-- **A sweep**, for one key. -/
lemma clearExpireKey_getElem? (h : s.clearExpireKey now = .ok (s', num)) (key : Str) :
    ((∃ m, s.meta_db[key]? = some m ∧ Dead now m) ∧ s'.db[key]? = none ∧ s'.meta_db[key]? = none) ∨
      ((¬ ∃ m, s.meta_db[key]? = some m ∧ Dead now m) ∧ s'.db[key]? = s.db[key]? ∧
        s'.meta_db[key]? = s.meta_db[key]?) := by
  obtain ⟨⟨s₁, num₁⟩, hloop, h⟩ := bind_eq_ok.mp h
  obtain ⟨rfl, -⟩ := Prod.mk.inj (Except.ok.inj h)
  simp only [← Std.ExtTreeMap.mem_toList_iff_getElem?_eq_some]
  exact clearLoop_getElem? key _ { s with is_clear := true } 0 hloop

end GentDb

/-! ## When the replies agree -/

/-- **All expiry checks agree**: `GET` and `EXISTS` report a key missing exactly when `TTL` answers
`-2`, and a sweep at this very second changes none of the three answers. -/
structure ExpiryAgrees (w : World) (sv : Server) : Prop where
  get_ttl : ∀ r, GentProcessGet.complete w sv r = .ok (lit "$-1\r\n", r, sv) ↔
    GentProcessTtl.complete w sv r = .ok (lit ":-2\r\n", r, sv)
  exists_ttl : ∀ r, GentProcessExists.complete w sv r = .ok (lit ":0\r\n", r, sv) ↔
    GentProcessTtl.complete w sv r = .ok (lit ":-2\r\n", r, sv)
  sweep : ∀ db' num, sv.db.clearExpireKey w.now = .ok (db', num) →
    ∀ r, ∀ c ∈ [Command.get, .keyExists, .ttl],
      (c.complete false w { sv with db := db' } r []).map Prod.fst
        = (c.complete false w sv r []).map Prod.fst

section Agree

variable {w : World} {sv : Server}

/-- What the two leveldbs must say about one key. -/
def Decided (now : ℕ) (s : GentDb) (key : Str) : Prop :=
  ∀ m dat, s.meta_db[key]? = some m → metaUnserialize m = .ok dat →
    (dat.expire = 0 ∨ now < dat.expire → key ∈ s.db) ∧ (dat.expire ≠ 0 → dat.expire = now → key ∉ s.db)

/-- The readers agree about a key exactly when it is decided. -/
lemma missing_iff (s : GentDb) (now : ℕ) (key : Str) :
    (s.get now key = .ok none ↔ ∃ isTtl expire, s.ttl key = .ok (isTtl, expire) ∧
        (isTtl = false ∨ (0 < expire ∧ expire ≤ now))) ↔ Decided now s key := by
  have hdb : s.db[key]? = none ↔ key ∉ s.db := by
    rw [Std.ExtTreeMap.mem_iff_isSome_getElem?, Bool.not_eq_true, Option.isSome_eq_false_iff,
      Option.isNone_iff_eq_none]
  cases hm : s.meta_db[key]? with
  | none =>
      have hdec : Decided now s key := fun m dat hm' => by simp [hm] at hm'
      refine iff_of_true ?_ hdec
      rw [GentDb.get_of_none hm, GentDb.ttl_of_none hm, Except.ok.injEq, hdb]
      simp [Std.ExtTreeMap.mem_iff_contains, -Std.ExtTreeMap.contains_iff_mem]
  | some m =>
      cases hdat : metaUnserialize m with
      | error f =>
          have hdec : Decided now s key := fun m' dat hm' hdat' => by
            rw [hm, Option.some.injEq] at hm'
            simp [← hm', hdat] at hdat'
          refine iff_of_true ?_ hdec
          rw [GentDb.get_of_fault hm hdat, GentDb.ttl_of_fault hm hdat]
          simp
      | ok dat =>
          have hdec : Decided now s key ↔ (dat.expire = 0 ∨ now < dat.expire → key ∈ s.db) ∧
              (dat.expire ≠ 0 → dat.expire = now → key ∉ s.db) := by
            constructor
            · exact fun h => h m dat hm hdat
            · intro h m' dat' hm' hdat'
              rw [hm, Option.some.injEq] at hm'
              rw [← hm', hdat, Except.ok.injEq] at hdat'
              exact hdat' ▸ h
          have hget : s.get now key = .ok none ↔
              (dat.expire ≠ 0 ∧ dat.expire < now) ∨ key ∉ s.db := by
            rw [GentDb.get_of_some hm hdat, Except.ok.injEq, ← hdb]
            split_ifs with hexp
            · exact iff_of_true rfl (.inl hexp)
            · simp [hexp]
          have httl : (∃ isTtl expire, s.ttl key = .ok (isTtl, expire) ∧
              (isTtl = false ∨ (0 < expire ∧ expire ≤ now))) ↔
                0 < dat.expire ∧ dat.expire ≤ now := by
            rw [GentDb.ttl_of_some hm hdat]
            simp
          rw [hdec, hget, httl]
          by_cases hkey : key ∈ s.db
          · simp only [hkey, not_true_eq_false, or_false, implies_true, true_and, imp_false]
            omega
          · simp only [hkey, not_false_eq_true, or_true, implies_true, and_true, imp_false, true_iff]
            omega

/-- A reply only depends on what the readers find under the key. -/
lemma reply_congr {db' : GentDb} {r : GentRedis}
    (hget : db'.get w.now r.keystr = sv.db.get w.now r.keystr)
    (httl : (GentProcessTtl.complete w { sv with db := db' } r).map Prod.fst
      = (GentProcessTtl.complete w sv r).map Prod.fst) {c : Command}
    (hc : c ∈ [Command.get, .keyExists, .ttl]) :
    (c.complete false w { sv with db := db' } r []).map Prod.fst
      = (c.complete false w sv r []).map Prod.fst := by
  simp only [List.mem_cons, List.not_mem_nil, or_false] at hc
  rcases hc with rfl | rfl | rfl
  · simp only [Command.complete, GentProcessGet.complete, hget]
    cases sv.db.get w.now r.keystr with
    | error f => rfl
    | ok found => cases found <;> rfl
  · simp only [Command.complete, GentProcessExists.complete, hget]
    cases sv.db.get w.now r.keystr with
    | error f => rfl
    | ok found => cases found <;> rfl
  · exact httl

/-- A sweep leaves the answers about a decided key as they are. -/
lemma sweep_get {db' : GentDb} {num : ℕ} (hsweep : sv.db.clearExpireKey w.now = .ok (db', num))
    (hdec : ∀ key, Decided w.now sv.db key) (r : GentRedis) :
    db'.get w.now r.keystr = sv.db.get w.now r.keystr ∧
      (GentProcessTtl.complete w { sv with db := db' } r).map Prod.fst
        = (GentProcessTtl.complete w sv r).map Prod.fst := by
  rcases GentDb.clearExpireKey_getElem? hsweep r.keystr with
    ⟨⟨m, hm, dat, hdat, hne, hle⟩, hdb', hmeta'⟩ | ⟨-, hdb', hmeta'⟩
  · have hmissing : GentProcessTtl.complete w sv r = .ok (lit ":-2\r\n", r, sv) :=
      ttl_missing_iff.mpr ⟨true, dat.expire, GentDb.ttl_of_some hm hdat, .inr ⟨by omega, hle⟩⟩
    have hget : sv.db.get w.now r.keystr = .ok none :=
      (missing_iff _ _ _).mpr (hdec r.keystr) |>.mpr (ttl_missing_iff.mp hmissing)
    have hcontains : db'.db.contains r.keystr = false := by
      rw [Std.ExtTreeMap.contains_eq_isSome_getElem?, hdb']
      rfl
    have hmissing' : GentProcessTtl.complete w { sv with db := db' } r
        = .ok (lit ":-2\r\n", r, { sv with db := db' }) :=
      ttl_missing_iff.mpr ⟨false, 0, by rw [GentDb.ttl_of_none hmeta', hcontains], .inl rfl⟩
    exact ⟨by rw [hget, GentDb.get_of_none hmeta', hdb'], by rw [hmissing, hmissing']; rfl⟩
  · have hcontains : db'.db.contains r.keystr = sv.db.db.contains r.keystr := by
      simp only [Std.ExtTreeMap.contains_eq_isSome_getElem?, hdb']
    refine ⟨by simp only [GentDb.get, hmeta', hdb'], ?_⟩
    have httl : db'.ttl r.keystr = sv.db.ttl r.keystr := by
      simp only [GentDb.ttl, hmeta', hcontains]
    simp only [GentProcessTtl.complete, httl]
    cases sv.db.ttl r.keystr with
    | error f => rfl
    | ok res => rfl

/-- **The expiry checks agree exactly when** every key with a live or no expiry has a value, and no
key with a value expires in this second. -/
theorem expiryAgrees_iff :
    ExpiryAgrees w sv ↔ ∀ key m dat, sv.db.meta_db[key]? = some m → metaUnserialize m = .ok dat →
      (dat.expire = 0 ∨ w.now < dat.expire → key ∈ sv.db.db) ∧
        (dat.expire ≠ 0 → dat.expire = w.now → key ∉ sv.db.db) := by
  constructor
  · intro h key
    have hreply := h.get_ttl { newRedis with keystr := key }
    rw [get_missing_iff, ttl_missing_iff] at hreply
    exact (missing_iff _ _ _).mp hreply
  · intro hdec
    refine ⟨fun r => ?_, fun r => ?_, fun db' num hsweep r c hc => ?_⟩
    · rw [get_missing_iff, ttl_missing_iff]
      exact (missing_iff _ _ _).mpr (hdec r.keystr)
    · rw [exists_missing_iff, ttl_missing_iff]
      exact (missing_iff _ _ _).mpr (hdec r.keystr)
    · have hsame := sweep_get hsweep hdec r
      exact reply_congr hsame.1 hsame.2 hc

/-- A key stored five seconds ago for five seconds. -/
def lastSecond : Server :=
  { emptyServer with db := (GentDb.empty.put true true 1000000000 (lit "k") (lit "v") 1000000005 1).1 }

lemma lastSecond_meta {key m : Str} (h : lastSecond.db.meta_db[key]? = some m) :
    key = lit "k" ∧ metaUnserialize m = .ok ⟨1, 1000000005, 1000000000⟩ := by
  have hmeta : lastSecond.db.meta_db
      = (∅ : LevelDb).insert (lit "k") (metaSerialize 1 1000000005 1000000000) := rfl
  rw [hmeta, Std.ExtTreeMap.getElem?_insert] at h
  simp only [Std.LawfulEqCmp.compare_eq_iff_eq] at h
  split_ifs at h with hk
  · rw [← Option.some.inj h]
    exact ⟨hk.symm, metaUnserialize_metaSerialize (d := 1) (by decide) (.inr (by decide)) (by decide)⟩
  · simp at h

/-- **In the second of the expiry** `GET` still finds the key, `TTL` says that it is gone, and a sweep
takes it away from `GET` as well. -/
theorem expiry_lastSecond :
    ¬ ExpiryAgrees { quietWorld with now := 1000000005 } lastSecond ∧
      lastSecond.db.get 1000000005 (lit "k") = .ok (some (lit "v")) ∧
      GentProcessTtl.complete { quietWorld with now := 1000000005 } lastSecond
          { newRedis with keystr := lit "k" }
        = .ok (lit ":-2\r\n", { newRedis with keystr := lit "k" }, lastSecond) ∧
      ∃ db' num, lastSecond.db.clearExpireKey 1000000005 = .ok (db', num) ∧
        db'.get 1000000005 (lit "k") = .ok none := by
  have hm : lastSecond.db.meta_db[lit "k"]?
      = some (metaSerialize 1 1000000005 1000000000) := by decide +kernel
  have hdat : metaUnserialize (metaSerialize 1 1000000005 1000000000)
      = .ok ⟨1, 1000000005, 1000000000⟩ := (lastSecond_meta hm).2
  have hdb : lastSecond.db.db[lit "k"]? = some (lit "v") := by decide +kernel
  have hget : lastSecond.db.get 1000000005 (lit "k") = .ok (some (lit "v")) := by
    rw [GentDb.get_of_some hm hdat, hdb]
    rfl
  have httl : GentProcessTtl.complete { quietWorld with now := 1000000005 } lastSecond
        { newRedis with keystr := lit "k" }
      = .ok (lit ":-2\r\n", { newRedis with keystr := lit "k" }, lastSecond) :=
    ttl_missing_iff.mpr ⟨true, 1000000005, GentDb.ttl_of_some hm hdat, .inr (by decide)⟩
  refine ⟨fun h => ?_, hget, httl, ?_⟩
  · have hmissing := get_missing_iff.mp ((h.get_ttl _).mpr httl)
    exact absurd (hget.symm.trans hmissing) (by simp)
  · have hok : (lastSecond.db.clearExpireKey 1000000005).toOption.isSome = true := by decide +kernel
    cases hclear : lastSecond.db.clearExpireKey 1000000005 with
    | error f => simp [hclear, Except.toOption] at hok
    | ok res =>
        refine ⟨res.1, res.2, rfl, ?_⟩
        rcases GentDb.clearExpireKey_getElem? hclear (lit "k") with ⟨-, hdb', hmeta'⟩ | ⟨hlive, -⟩
        · rw [GentDb.get_of_none hmeta', hdb']
        · exact absurd ⟨_, hm, _, hdat, by decide, by decide⟩ hlive

/-- A second earlier they agree. -/
theorem expiryAgrees_before : ExpiryAgrees { quietWorld with now := 1000000004 } lastSecond := by
  refine expiryAgrees_iff.mpr fun key m dat hm hdat => ?_
  obtain ⟨rfl, hdat'⟩ := lastSecond_meta hm
  rw [hdat, Except.ok.injEq] at hdat'
  subst hdat'
  exact ⟨fun _ => by decide +kernel, fun _ h => absurd h (by decide)⟩

end Agree

end Riser
