import Riser.Repl.GentReplication

/-!
# The expiry of a replicated key

An entry of the queue names a key, and `Start` looks up its value and its expiry when it builds the
batch.  A key whose expiry is over goes out as a DEL.  For one that still has time to live, `Start`
subtracts the clock and hands the rest to `Reply`, which prints a SETEX, **unless the rest is zero**:
there `Reply` prints a SET, since zero is how its other callers say that there is no expiry.  So a
key that is replicated in the second of its expiry becomes permanent on the slave.

`keepsExpiry_iff` is the exact condition.  Besides that second it asks that the rest is an `int`,
for the slave reads it with `atoi`.  It is a condition on **one entry of the queue**, the one at its front
that `Start` comes to (`comesTo`): an entry with an expiry goes out alone, and one behind others waits.
-/

namespace Riser

open Cpp

/-- The batch keeps the expiry `e` of an entry that it covers: it is a DEL, or a SETEX whose seconds,
as the slave reads them, lead from the clock to `e`.  A rest of zero is printed as a SET. -/
def Batch.Keeps (now e : ℕ) : Batch → Prop
  | .del _ => True
  | .add _ _ rest => rest ≠ 0 ∧ atoi (snprintf 20 (decimal rest)) + now = e
  | .mset _ => False
  | .text _ => False

/-- **Replication preserves expiry**: the batch keeps the expiry of every key of an ADD entry that it
covers. -/
def Batch.KeepsExpiry (db : GentDb) (now : ℕ) (b : Batch) : Prop :=
  ∀ it ∈ b.items, it.type = .ADD → ∀ v e, db.getExpire it.name = .ok (v, e) → e ≠ 0 → b.Keeps now e

/-- What is known of the entries of a batch. -/
def Batch.Covers (db : GentDb) (now : ℕ) : Batch → Prop
  | .text _ => True
  | .del it => GentReplication.Gone db now it
  | .add it nr rest => it.type = .ADD ∧ ∃ e, db.getExpire it.name = .ok (some nr, e) ∧ e ≠ 0 ∧
      now ≤ e ∧ rest = e - now
  | .mset items => ∀ p ∈ items, p.1.type = .ADD ∧ db.getExpire p.1.name = .ok (some p.2, 0)

section Covers

variable {db : GentDb} {now : ℕ} {b : Batch}

/-- The loop: only keys without expiry join the MSET. -/
lemma batchLoop_covers {d d' : List ItemData} {out : List (ItemData × Str)}
    (hout : Batch.Covers db now (.mset out))
    (h : GentReplication.batchLoop db now d out = .ok (d', b)) : b.Covers db now := by
  induction d generalizing out d' b with
  | nil =>
      cases h
      exact hout
  | cons it rest ih =>
      cases GentReplication.batchLoop_turn h with
      | flush _ => exact hout
      | del _ hgone => exact hgone
      | add _ htype hget h0 hle => exact ⟨htype, _, hget, h0, hle, rfl⟩
      | @join nr _ _ htype hget hrec =>
          refine ih (fun p hp => ?_) hrec
          split_ifs at hp with hname
          · rcases List.mem_append.mp hp with hp | hp
            · exact hout p hp
            · obtain rfl := List.mem_singleton.mp hp
              exact ⟨htype, hget⟩
          · exact hout p hp

/-- Whatever the slave has said. -/
lemma start_covers {g g' : GentReplication} {msg : Str} {sent : Bool}
    (h : g.start db now msg = .ok (g', b, sent)) : b.Covers db now := by
  by_cases hmsg : msg = lit "ok" ∨ msg = lit "data"
  · cases GentReplication.start_cases hmsg h with
    | idle _ => exact trivial
    | batch _ hloop => exact batchLoop_covers (by simp [Batch.Covers]) hloop
  · obtain ⟨-, t, rfl⟩ := GentReplication.start_other hmsg h
    exact trivial

/-- The keys of an MSET have no expiry. -/
lemma expiry_of_mset {items : List (ItemData × Str)} (h : Batch.Covers db now (.mset items))
    {it : ItemData} (hit : it ∈ (Batch.mset items).items) {v : Option Str} {e : ℕ}
    (hget : db.getExpire it.name = .ok (v, e)) : e = 0 := by
  obtain ⟨p, hp, rfl⟩ := List.mem_map.mp hit
  rw [(h p hp).2, Except.ok.injEq, Prod.mk.injEq] at hget
  exact hget.2.symm

end Covers

/-- The seconds that the slave reads are those that the master has printed exactly when they are an
`int`. -/
lemma atoi_rest_iff (n : ℕ) : atoi (snprintf 20 (decimal n)) = n ↔ n < 2 ^ 31 := by
  constructor
  · intro h
    have := atoi_lt (snprintf 20 (decimal n))
    omega
  · intro h
    have hlen : (decimal n).length ≤ 19 := (decimal_length_le_iff (by decide)).mpr (by omega)
    rw [snprintf, List.take_of_length_le hlen, atoi_decimal h]

/-- On the entries of the batch: none whose key still has a value and time to live ends in this second, or
later than the seconds of an `int` reach. -/
lemma keepsExpiry_iff_items {g g' : GentReplication} {db : GentDb} {now : ℕ} {msg : Str} {b : Batch}
    {sent : Bool} (hstart : g.start db now msg = .ok (g', b, sent)) :
    b.KeepsExpiry db now ↔
      ∀ it ∈ b.items, it.type = .ADD → ∀ v e, db.getExpire it.name = .ok (some v, e) → e ≠ 0 →
        now ≤ e → now < e ∧ e < now + 2 ^ 31 := by
  have hcovers := start_covers hstart
  cases b with
  | text outstr => simp [Batch.KeepsExpiry, Batch.items]
  | del it =>
      refine iff_of_true (fun _ _ _ _ _ _ _ => trivial) fun it' hit' htype v e hget h0 hle => ?_
      obtain rfl := List.mem_singleton.mp hit'
      -- A DEL covers no key that still has time to live.
      rcases hcovers with hdel | ⟨e', hget'⟩ | ⟨v', e', hget', -, hlt⟩
      · exact absurd htype hdel
      · simp [hget] at hget'
      · rw [hget, Except.ok.injEq, Prod.mk.injEq] at hget'
        omega
  | add it nr rest =>
      obtain ⟨htype, e, hget, h0, hle, rfl⟩ := hcovers
      have hrest : atoi (snprintf 20 (decimal (e - now))) + now = e ↔ e - now < 2 ^ 31 := by
        rw [← atoi_rest_iff]
        omega
      constructor
      · intro hkeeps it' hit' _ v e' hget' _ _
        obtain rfl := List.mem_singleton.mp hit'
        rw [hget, Except.ok.injEq, Prod.mk.injEq] at hget'
        obtain ⟨-, rfl⟩ := hget'
        obtain ⟨hne, hsum⟩ := hkeeps it' hit' htype _ e hget h0
        have := hrest.mp hsum
        omega
      · intro hsoon it' hit' _ v e' hget' _
        obtain rfl := List.mem_singleton.mp hit'
        rw [hget, Except.ok.injEq, Prod.mk.injEq] at hget'
        obtain ⟨-, rfl⟩ := hget'
        have := hsoon it' hit' htype _ e hget h0 hle
        exact ⟨by omega, hrest.mpr (by omega)⟩
  | mset items =>
      exact iff_of_true (fun it hit _ v e hget h0 => absurd (expiry_of_mset hcovers hit hget) h0)
        fun it hit _ v e hget h0 => absurd (expiry_of_mset hcovers hit hget) h0

/-! ### The entry that `Start` comes to -/

namespace GentReplication

/-- The first entry, without those that are flagged and not printed: permanent keys with an empty name. -/
def firstPrinted (db : GentDb) (d : List ItemData) : Option ItemData :=
  d.find? fun it => !(plain db it && decide (it.name = []))

/-- **The entry of the queue that decides on the batch.**  On a message that is no word of the slave's,
`Start` looks at none. -/
def comesTo (g : GentReplication) (db : GentDb) (now : ℕ) (msg : Str) : Option ItemData :=
  if msg = lit "ok" ∨ msg = lit "data" then
    (({ g with conn := true }.acknowledge now msg).frontNumsElement now syncNum).2.bind
      (firstPrinted db)
  else none

end GentReplication

section ComesTo

open GentReplication (batchLoop firstPrinted plain plain_iff)

variable {db : GentDb} {now e : ℕ} {b : Batch} {it : ItemData} {v : Str} {d d' : List ItemData}

/-- Behind the first pair only an MSET can come. -/
lemma batchLoop_joined {out : List (ItemData × Str)} (hout : out ≠ [])
    (h : batchLoop db now d out = .ok (d', b)) : ∃ items, b = .mset items := by
  induction d generalizing out d' with
  | nil =>
      cases h
      exact ⟨out, rfl⟩
  | cons it rest ih =>
      cases GentReplication.batchLoop_turn h with
      | flush _ => exact ⟨out, rfl⟩
      | del hnil _ => exact absurd hnil hout
      | add hnil _ _ _ _ => exact absurd hnil hout
      | join _ _ hrec =>
          refine ih ?_ hrec
          split_ifs
          · simp
          · exact hout

lemma plain_eq_false {x : ItemData}
    (h : ∀ nr, x.type = .ADD → db.getExpire x.name ≠ .ok (some nr, 0)) : plain db x = false := by
  refine Bool.eq_false_iff.mpr fun hplain => ?_
  obtain ⟨htype, nr, hget⟩ := plain_iff.mp hplain
  exact h nr htype hget

lemma plain_eq_false_of_gone {x : ItemData} (h : GentReplication.Gone db now x) : plain db x = false := by
  refine plain_eq_false fun nr htype hget => ?_
  rcases h with hdel | ⟨e, hget'⟩ | ⟨v, e, hget', h0, -⟩
  · exact hdel htype
  · simp [hget] at hget'
  · rw [hget, Except.ok.injEq, Prod.mk.injEq] at hget'
    exact h0 hget'.2.symm

lemma plain_eq_false_of_expiry {x : ItemData} (h : db.getExpire x.name = .ok (some v, e)) (h0 : e ≠ 0) :
    plain db x = false := by
  refine plain_eq_false fun nr _ hget => ?_
  rw [h, Except.ok.injEq, Prod.mk.injEq] at hget
  exact h0 hget.2

/-- **A key with time to live is in the batch exactly if its entry is the one.**  The induction passes
over the entries that are not printed. -/
lemma mem_items_iff_firstPrinted (hget : db.getExpire it.name = .ok (some v, e)) (h0 : e ≠ 0)
    (h : batchLoop db now d [] = .ok (d', b)) : it ∈ b.items ↔ firstPrinted db d = some it := by
  induction d generalizing d' with
  | nil =>
      cases h
      simp [Batch.items, firstPrinted]
  | cons x rest ih =>
      have halone : plain db x = false → b.items = [x] →
          (it ∈ b.items ↔ firstPrinted db (x :: rest) = some it) := by
        intro hplain hitems
        rw [hitems, List.mem_singleton, firstPrinted, List.find?_cons_of_pos (by simp [hplain]),
          Option.some.injEq, eq_comm]
      cases GentReplication.batchLoop_turn h with
      | flush hne => exact absurd rfl hne
      | del _ hgone => exact halone (plain_eq_false_of_gone hgone) rfl
      | add _ _ hx hne _ => exact halone (plain_eq_false_of_expiry hx hne) rfl
      | @join nr _ _ htype hx hrec =>
          have hplain : plain db x = true := plain_iff.mpr ⟨htype, nr, hx⟩
          by_cases hname : x.name = []
          · rw [if_neg (not_not.mpr hname)] at hrec
            rw [ih hrec, firstPrinted, firstPrinted, List.find?_cons_of_neg (by simp [hplain, hname])]
          · -- it joins an MSET, which has no key with an expiry
            rw [if_pos hname] at hrec
            obtain ⟨items, rfl⟩ := batchLoop_joined (by simp) hrec
            have hcovers : Batch.Covers db now (.mset items) :=
              batchLoop_covers (by simpa [Batch.Covers] using ⟨htype, hx⟩) hrec
            refine iff_of_false (fun hit => h0 (expiry_of_mset hcovers hit hget)) fun hfirst => ?_
            rw [firstPrinted, List.find?_cons_of_pos (by simp [hname])] at hfirst
            obtain rfl := Option.some.inj hfirst
            rw [plain_eq_false_of_expiry hget h0] at hplain
            cases hplain

/-- The same of what `Start` returns. -/
lemma mem_items_iff_comesTo {g g' : GentReplication} {msg : Str} {sent : Bool}
    (hstart : g.start db now msg = .ok (g', b, sent)) (hget : db.getExpire it.name = .ok (some v, e))
    (h0 : e ≠ 0) : it ∈ b.items ↔ g.comesTo db now msg = some it := by
  rw [GentReplication.comesTo]
  by_cases hmsg : msg = lit "ok" ∨ msg = lit "data"
  · rw [if_pos hmsg]
    cases GentReplication.start_cases hmsg hstart with
    | idle hfront => simp [hfront, Batch.items]
    | batch hfront hloop =>
        rw [hfront, Option.bind_some]
        exact mem_items_iff_firstPrinted hget h0 hloop
  · obtain ⟨-, t, rfl⟩ := GentReplication.start_other hmsg hstart
    simp [hmsg, Batch.items]

end ComesTo

/-- **The expiry of the covered keys is kept exactly when** the entry that `Start` comes to does not have
a key that ends in this second, or later than the seconds of an `int` reach. -/
theorem keepsExpiry_iff {g g' : GentReplication} {db : GentDb} {now : ℕ} {msg : Str} {b : Batch}
    {sent : Bool} (hstart : g.start db now msg = .ok (g', b, sent)) :
    b.KeepsExpiry db now ↔
      ∀ it ∈ g.comesTo db now msg, it.type = .ADD → ∀ v e, db.getExpire it.name = .ok (some v, e) →
        e ≠ 0 → now ≤ e → now < e ∧ e < now + 2 ^ 31 := by
  rw [keepsExpiry_iff_items hstart]
  constructor
  · intro hitems it hit htype v e hget h0
    exact hitems it ((mem_items_iff_comesTo hstart hget h0).mpr hit) htype v e hget h0
  · intro hcomes it hit htype v e hget h0
    exact hcomes it ((mem_items_iff_comesTo hstart hget h0).mp hit) htype v e hget h0

/-- A master on which one key has been set for five seconds. -/
def expiringDb : GentDb := (GentDb.empty.put true true 1700000000 (lit "k") (lit "v") 1700000005 1).1

/-- Its queue for a slave that is up to date but for this key. -/
def expiringRep : GentReplication :=
  ((GentReplication.new (RepInfo.fresh (lit "slave")) .empty 1700000000 false false 0).push
    1700000000 0 .ADD (lit "k")).1

/-- The batch for the key, with what is left of the five seconds. -/
def expiringBatch (rest : ℕ) : Batch := .add ⟨0, lit "k", .ADD, false⟩ (lit "v") rest

lemma expiringDb_getExpire :
    expiringDb.getExpire (lit "k") = .ok (some (lit "v"), 1700000005) := by
  have hrefines : Refines expiringDb (ExpMap.empty.bind (lit "k") (lit "v") 1700000005) :=
    Refines.empty.put (d := 1) (by decide) (.inr (by decide)) 1700000000 (lit "k") (lit "v")
  rw [hrefines.getExpire]
  simp [ExpMap.bind, ExpMap.expiry]

/-- **In the last of the five seconds** the slave is told to SET the key. -/
theorem expiring_becomes_permanent :
    ∃ g', expiringRep.start expiringDb 1700000005 GentReplication.Word.data.text
        = .ok (g', expiringBatch 0, true) ∧
      (expiringBatch 0).outstr = lit "*3\r\n$3\r\nset\r\n$1\r\nk\r\n$1\r\nv\r\n" ∧
      ¬ (expiringBatch 0).KeepsExpiry expiringDb 1700000005 := by
  refine ⟨_, rfl, by decide, fun h => ?_⟩
  exact (h _ List.mem_cons_self rfl _ _ expiringDb_getExpire (by decide)).1 rfl

/-- Two seconds earlier it is told the rest. -/
theorem keepsExpiry_twoSeconds :
    (∃ g', expiringRep.start expiringDb 1700000003 GentReplication.Word.data.text
        = .ok (g', expiringBatch 2, true)) ∧
      (expiringBatch 2).KeepsExpiry expiringDb 1700000003 := by
  have hstart : expiringRep.start expiringDb 1700000003 GentReplication.Word.data.text
      = .ok (_, expiringBatch 2, true) := rfl
  refine ⟨⟨_, hstart⟩, (keepsExpiry_iff hstart).mpr ?_⟩
  intro it hit _ v e hget _ _
  obtain rfl : ⟨0, lit "k", .ADD, false⟩ = it := Option.some.inj hit
  rw [expiringDb_getExpire, Except.ok.injEq, Prod.mk.injEq] at hget
  omega

end Riser
