import Riser.Core.Transition
import Riser.Repl.GentReplication

/-!
# The bookkeeping of the queues

A replication is constructed, and then `Push` and `Start` are called on it, with any messages and with
any store at each call.  Two kinds of facts are wanted of every state on the way.

**The queues** (`Booked`): `main_que_length` counts the entries of both, the flagged entries are a prefix
of the active queue, two at most, none are in the other, and so `Pop` removes exactly the flagged ones.
This holds without a condition; it is `QueueInv`.

**The batches** (`Batches`): a call of `Start` that returns a batch flags a prefix of the active queue that
is not empty, and the operations in the batch are those of this prefix, in order.  Entries with an empty
name are left out, since the slave could not read them.  Only **the MSET leaves them out**: an entry that
goes out alone, as a DEL or with its time to live, is printed whatever its name is.  `bookkeeping_iff` has
the exact condition: the first entry that `Start` does not skip has a name.
-/

namespace Riser

open Cpp

namespace GentReplication

/-! ## Operations -/

/-- What a slave is asked to do. -/
inductive Op where
  | set (key value : Str)
  | setex (key value : Str) (seconds : ℕ)
  | del (key : Str)
  deriving DecidableEq

def Op.key : Op → Str
  | .set key _ => key
  | .setex key _ _ => key
  | .del key => key

/-- A change with this much time left.  `Reply` prints a SET if there is none. -/
def Op.timed (key value : Str) (expire : ℕ) : Op :=
  if expire = 0 then .set key value else .setex key value expire

lemma Op.key_timed (key value : Str) (expire : ℕ) : (timed key value expire).key = key := by
  unfold timed
  split_ifs <;> rfl

/-- The operations of a batch, in order. -/
def ops : Batch → List Op
  | .text _ => []
  | .del it => [.del it.name]
  | .add it nr expire => [.timed it.name nr expire]
  | .mset items => items.map fun p => .set p.1.name p.2

/-- The operation that an entry stands for, `none` if what is stored for its key cannot be read. -/
def op (db : GentDb) (now : ℕ) (it : ItemData) : Option Op :=
  if it.type ≠ .ADD then some (.del it.name)
  else
    match db.getExpire it.name with
    | .error _ => none
    | .ok (none, _) => some (.del it.name)
    | .ok (some nr, expire) =>
        if expire ≠ 0 ∧ expire < now then some (.del it.name)
        else some (if expire ≠ 0 then .timed it.name nr (expire - now) else .set it.name nr)

section Entry

variable {db : GentDb} {now : ℕ} {it : ItemData} {nr : Str} {expire : ℕ}

lemma op_of_gone (h : Gone db now it) : op db now it = some (.del it.name) := by
  unfold op
  by_cases htype : it.type = .ADD
  · rw [if_neg (not_not.mpr htype)]
    rcases h with h | ⟨e, hget⟩ | ⟨v, e, hget, hexp⟩
    · exact absurd htype h
    · rw [hget]
    · rw [hget]
      exact if_pos hexp
  · exact if_pos htype

lemma op_of_get (htype : it.type = .ADD) (hget : db.getExpire it.name = .ok (some nr, expire))
    (hle : ¬ (expire ≠ 0 ∧ expire < now)) : op db now it
      = some (if expire ≠ 0 then .timed it.name nr (expire - now) else .set it.name nr) := by
  rw [op, if_neg (not_not.mpr htype), hget]
  exact if_neg hle

/-- The operation is on the key of the entry. -/
lemma key_of_op {o : Op} (h : op db now it = some o) : o.key = it.name := by
  unfold op at h
  split_ifs at h with htype
  · obtain rfl := Option.some.inj h
    rfl
  split at h
  · cases h
  · obtain rfl := Option.some.inj h
    rfl
  · split_ifs at h
    · obtain rfl := Option.some.inj h
      rfl
    · obtain rfl := Option.some.inj h
      exact Op.key_timed ..
    · obtain rfl := Option.some.inj h
      rfl

/-- A deletion does not join an MSET. -/
lemma not_plain_of_gone (h : Gone db now it) : plain db it = false := by
  rw [Bool.eq_false_iff, ne_eq, plain_iff]
  rintro ⟨htype, nr, hget⟩
  rcases h with h | ⟨e, hnone⟩ | ⟨v, e, hsome, h0, -⟩
  · exact h htype
  · rw [hget] at hnone
    cases hnone
  · rw [hget] at hsome
    cases hsome
    exact h0 rfl

end Entry

/-! ## The batch -/

/-- The batch loop passes over the entry: it would join the MSET, and has no name. -/
def skipped (db : GentDb) (it : ItemData) : Bool := plain db it && decide (it.name = [])

/-- The first entry that is not passed over has a name, unless it cannot be read. -/
def FirstNamed (db : GentDb) (now : ℕ) (d : List ItemData) : Prop :=
  ∀ it ∈ (d.dropWhile (skipped db)).head?, it.name ≠ [] ∨ op db now it = none

instance (db : GentDb) (now : ℕ) (d : List ItemData) : Decidable (FirstNamed db now d) :=
  inferInstanceAs (Decidable (∀ it ∈ _, _))

section Batch

variable {db : GentDb} {now : ℕ} {it : ItemData} {d d' rest : List ItemData}
  {out : List (ItemData × Str)} {b : Batch}

lemma firstNamed_of_skipped (h : skipped db it = true) :
    FirstNamed db now (it :: rest) ↔ FirstNamed db now rest := by
  rw [FirstNamed, List.dropWhile_cons_of_pos h, FirstNamed]

lemma firstNamed_of_not_skipped (h : skipped db it = false) :
    FirstNamed db now (it :: rest) ↔ it.name ≠ [] ∨ op db now it = none := by
  rw [FirstNamed, List.dropWhile_cons_of_neg (by simp [h])]
  simp

/-- An entry that goes out alone is not passed over. -/
lemma name_of_alone (hplain : plain db it = false) {o : Op} (hop : op db now it = some o)
    (hnamed : FirstNamed db now (it :: rest)) : it.name ≠ [] := by
  rw [firstNamed_of_not_skipped (by rw [skipped, hplain, Bool.false_and]), hop] at hnamed
  exact hnamed.resolve_right (by simp)

lemma not_plain_of_expire {nr : Str} {expire : ℕ} (hget : db.getExpire it.name = .ok (some nr, expire))
    (h0 : expire ≠ 0) : plain db it = false := by
  rw [Bool.eq_false_iff, ne_eq, plain_iff]
  rintro ⟨-, nr', hget'⟩
  rw [hget] at hget'
  cases hget'
  exact h0 rfl

/-- **The operations of a batch.**  Behind what was printed before come those of the entries that the loop
flags, of those with a name. -/
lemma batchLoop_ops (h : batchLoop db now d out = .ok (d', b))
    (hnamed : out ≠ [] ∨ FirstNamed db now d) :
    ∃ n ≤ d.length, d' = (d.take n).map ItemData.setSync ++ d.drop n ∧ (out = [] → d ≠ [] → 0 < n) ∧
      (ops b).map some = (out.map fun p => some (.set p.1.name p.2))
        ++ ((d.take n).filter (·.name ≠ [])).map (op db now) := by
  induction d generalizing out d' b with
  | nil =>
      cases h
      exact ⟨0, by simp, by simp, by simp, by simp [ops]⟩
  | cons it rest ih =>
      cases batchLoop_turn h with
      | flush hout => exact ⟨0, by simp, by simp, by simp [hout], by simp [ops]⟩
      | del hout hgone =>
          have hop := op_of_gone hgone
          have hname := name_of_alone (not_plain_of_gone hgone) hop
            (hnamed.resolve_left (not_not.mpr hout))
          exact ⟨1, by simp, by simp, by simp, by simp [ops, hout, hname, hop]⟩
      | add hout htype hget h0 hle =>
          have hop := op_of_get htype hget (not_and_of_not_right _ (not_lt.mpr hle))
          rw [if_pos h0] at hop
          have hname := name_of_alone (not_plain_of_expire hget h0) hop
            (hnamed.resolve_left (not_not.mpr hout))
          exact ⟨1, by simp, by simp, by simp, by simp [ops, hout, hname, hop]⟩
      | @join nr rest' b htype hget hrec =>
          have hop : op db now it = some (.set it.name nr) := op_of_get htype hget (by simp)
          by_cases hname : it.name = []
          · have hskip : skipped db it = true := by
              simp [skipped, plain_iff.mpr ⟨htype, nr, hget⟩, hname]
            rw [firstNamed_of_skipped hskip] at hnamed
            rw [if_neg (by simpa using hname)] at hrec
            obtain ⟨n, hn, hd, -, hops⟩ := ih hrec hnamed
            refine ⟨n + 1, by simpa using hn, by simp [hd], by simp, ?_⟩
            rw [hops, List.take_succ_cons, List.filter_cons_of_neg (by simp [hname])]
          · rw [if_pos hname] at hrec
            obtain ⟨n, hn, hd, -, hops⟩ := ih hrec (Or.inl (by simp))
            refine ⟨n + 1, by simpa using hn, by simp [hd], by simp, ?_⟩
            rw [hops, List.take_succ_cons, List.filter_cons_of_pos (by simpa using hname)]
            simp [hop]

/-- **An entry without a name in a batch.** -/
lemma batchLoop_unnamed (h : batchLoop db now d [] = .ok (d', b)) (hnot : ¬ FirstNamed db now d) :
    ∃ o ∈ ops b, o.key = [] := by
  induction d generalizing d' b with
  | nil => exact absurd (by simp [FirstNamed]) hnot
  | cons it rest ih =>
      have halone : plain db it = false → it.name = [] := by
        intro hplain
        rw [firstNamed_of_not_skipped (by rw [skipped, hplain, Bool.false_and])] at hnot
        exact not_not.mp fun hname => hnot (Or.inl hname)
      cases batchLoop_turn h with
      | flush hout => exact absurd rfl hout
      | del _ hgone => exact ⟨.del it.name, List.mem_singleton_self _, halone (not_plain_of_gone hgone)⟩
      | @add _ nr expire _ hget h0 _ =>
          refine ⟨.timed it.name nr (expire - now), List.mem_singleton_self _, ?_⟩
          rw [Op.key_timed]
          exact halone (not_plain_of_expire hget h0)
      | join htype hget hrec =>
          have hplain : plain db it = true := plain_iff.mpr ⟨htype, _, hget⟩
          by_cases hname : it.name = []
          · rw [firstNamed_of_skipped (by simp [skipped, hplain, hname])] at hnot
            rw [if_neg (by simpa using hname)] at hrec
            exact ih hrec hnot
          · rw [firstNamed_of_not_skipped (by simp [skipped, hname])] at hnot
            exact absurd (Or.inl hname) hnot

/-- It does not throw. -/
lemma batchLoop_of_unnamed (hnot : ¬ FirstNamed db now d) :
    ∃ d' b, batchLoop db now d [] = .ok (d', b) := by
  induction d with
  | nil => exact absurd (by simp [FirstNamed]) hnot
  | cons it rest ih =>
      by_cases hskip : skipped db it = true
      · obtain ⟨hplain, hname⟩ : plain db it = true ∧ it.name = [] := by
          simpa [skipped] using hskip
        obtain ⟨htype, nr, hget⟩ := plain_iff.mp hplain
        rw [firstNamed_of_skipped hskip] at hnot
        obtain ⟨d', b, hrec⟩ := ih hnot
        rw [hname] at hget
        exact ⟨it.setSync :: d', b, by simp [batchLoop, htype, hget, hname, hrec, Except.map]⟩
      · rw [firstNamed_of_not_skipped (by simpa using hskip), not_or, not_not] at hnot
        obtain ⟨hname, hop⟩ := hnot
        have hplain : plain db it ≠ true := fun hplain => hskip (by simp [skipped, hplain, hname])
        rw [batchLoop]
        by_cases htype : it.type = .ADD
        · rw [if_neg (not_not.mpr htype)]
          cases hget : db.getExpire it.name with
          | error f => exact absurd (by simp [op, htype, hget]) hop
          | ok res =>
              obtain ⟨v, expire⟩ := res
              cases v with
              | none => exact ⟨_, _, rfl⟩
              | some nr =>
                  have h0 : expire ≠ 0 := by
                    rintro rfl
                    exact hplain (plain_iff.mpr ⟨htype, nr, hget⟩)
                  simp only
                  split_ifs with hexp hout
                  · exact ⟨_, _, rfl⟩
                  · exact absurd rfl hout
                  · exact ⟨_, _, rfl⟩
        · rw [if_pos htype]
          exact ⟨_, _, rfl⟩

end Batch

/-! ## The calls -/

/-- The calls after the constructor. -/
inductive Call where
  | push (now id : ℕ) (type : OptType) (key : Str)
  | start (db : GentDb) (now : ℕ) (msg : Str)

/-- One call.  An exception ends the run. -/
def call (r : GentReplication) : Call → Option GentReplication
  | .push now id type key => some (r.push now id type key).1
  | .start db now msg =>
      match r.start db now msg with
      | .ok (r', _, _) => some r'
      | .error _ => none

/-- The replication when `Start` looks at its front: acknowledged, and turned to `main_que` if `que` is
exhausted. -/
def looked (r : GentReplication) (now : ℕ) (msg : Str) : GentReplication :=
  (({ r with conn := true }.acknowledge now msg).frontNumsElement now syncNum).1

/-- **The queues are in order.** -/
structure Booked (r : GentReplication) : Prop where
  length : r.main_que_length = r.que.length + r.main_que.length
  front : SyncedFront r.active
  resting : ∀ it ∈ r.resting, it.is_sync = false
  /-- `Pop` removes the flagged entries, which are not more than `main_que_length` counts. -/
  pop : ∀ is_rep now, (r.pop is_rep now).active = r.active.dropWhile (·.is_sync) ∧
    (r.pop is_rep now).resting = r.resting ∧
    (r.active.takeWhile (·.is_sync)).length ≤ r.main_que_length

/-- **The batch is in order**: if `Start` returns one, it flags the first `n` entries, and the operations
are theirs. -/
def Batches (r : GentReplication) : Call → Prop
  | .push .. => True
  | .start db now msg => ∀ r' b, r.start db now msg = .ok (r', b, true) → (∀ t, b ≠ .text t) →
      ∃ n, 0 < n ∧ n ≤ syncNum ∧ n ≤ (r.looked now msg).active.length ∧
        r'.active = ((r.looked now msg).active.take n).map ItemData.setSync
          ++ (r.looked now msg).active.drop n ∧
        (ops b).map some = (((r.looked now msg).active.take n).filter (·.name ≠ [])).map (op db now)

/-- The condition: what a batch would begin with has a name. -/
def Named (r : GentReplication) : Call → Prop
  | .push .. => True
  | .start db now msg => msg = lit "ok" ∨ msg = lit "data" →
      FirstNamed db now ((r.looked now msg).active.take syncNum)

instance (r : GentReplication) : ∀ c, Decidable (Named r c)
  | .push .. => .isTrue trivial
  | .start db now _ => inferInstanceAs (Decidable (_ → FirstNamed db now _))

variable {r r' : GentReplication}

/-! ## The queues -/

lemma QueueInv.booked (h : QueueInv r) : Booked r := by
  obtain ⟨f, u, hq, hlen, hf, hu⟩ := h.front
  have hpop : popSynced (syncNum * 2) (f ++ u) = u := popSynced_append hf hu (by omega)
  have htake : (f ++ u).takeWhile (·.is_sync) = f := by
    rw [List.takeWhile_append_of_pos hf]
    cases u with
    | nil => simp
    | cons it u => simp [hu it (by simp)]
  have hdrop : (f ++ u).dropWhile (·.is_sync) = u := by
    rw [List.dropWhile_append_of_pos hf]
    cases u with
    | nil => rfl
    | cons it u => exact List.dropWhile_cons_of_neg (by simp [hu it (by simp)])
  have hlength : r.main_que_length = r.que.length + r.main_que.length := by
    rw [h.length, pending, List.length_append]
  have hactive : r.active.length ≤ r.main_que_length := by
    rw [hlength, active]
    split_ifs <;> omega
  refine ⟨hlength, h.front, ?_, fun is_rep now => ⟨?_, ?_, ?_⟩⟩
  · intro it hit
    unfold GentReplication.resting at hit
    cases hflag : r.is_update_que with
    | true => exact h.waiting hflag it (by simpa [hflag] using hit)
    | false => simp [hflag, h.drained hflag] at hit
  · rw [hq, hdrop]
    cases hflag : r.is_update_que with
    | true =>
        have hque : r.que = f ++ u := by simpa [active, hflag] using hq
        simp [GentReplication.pop, active, hflag, hque, hpop]
    | false =>
        have hmain : r.main_que = f ++ u := by simpa [active, hflag] using hq
        simp [GentReplication.pop, active, hflag, hmain, hpop]
  · cases hflag : r.is_update_que <;> simp [GentReplication.pop, GentReplication.resting, hflag]
  · rw [hq] at hactive ⊢
    rw [htake]
    rw [List.length_append] at hactive
    omega

/-- **The step lemma.** -/
lemma QueueInv.call (h : QueueInv r) {c : Call} (hcall : r.call c = some r') : QueueInv r' := by
  cases c with
  | push now id type key =>
      obtain rfl := Option.some.inj hcall
      exact h.push now id type key
  | start db now msg =>
      simp only [GentReplication.call] at hcall
      split at hcall
      · rename_i r₁ b ret hs
        obtain rfl := Option.some.inj hcall
        by_cases hmsg : msg = lit "ok" ∨ msg = lit "data"
        · exact (h.start hmsg hs).1
        · obtain ⟨rfl, -⟩ := start_other hmsg hs
          exact h.setConn true
      · cases hcall

/-! ## The batches -/

/-- The front that `Start` looks at. -/
lemma QueueInv.looked (h : QueueInv r) (now : ℕ) (msg : Str) : QueueInv (r.looked now msg) ∧
    ((({ r with conn := true }.acknowledge now msg).frontNumsElement now syncNum)
        = (r.looked now msg, none) ∧ (r.looked now msg).active = [] ∨
      ({ r with conn := true }.acknowledge now msg).frontNumsElement now syncNum
        = (r.looked now msg, some ((r.looked now msg).active.take syncNum)) ∧
          (r.looked now msg).active ≠ []) := by
  obtain ⟨-, -, -, -, -, hack⟩ := (h.setConn true).acknowledge now msg
  rcases hf : ({ r with conn := true }.acknowledge now msg).frontNumsElement now syncNum with ⟨r₁, o⟩
  have hr₁ : r.looked now msg = r₁ := by rw [GentReplication.looked, hf]
  obtain ⟨hinv, hpend, hnone, hsome⟩ := hack.frontNumsElement hf
  rw [hr₁]
  refine ⟨hinv, ?_⟩
  cases o with
  | none =>
      obtain ⟨t, ht, -⟩ := hinv.pending_eq
      rw [hpend, hnone rfl] at ht
      exact Or.inl ⟨hf, (List.append_eq_nil_iff.mp ht.symm).1⟩
  | some d => exact Or.inr ⟨by rw [hf, (hsome d rfl).1], (hsome d rfl).2⟩

lemma start_of_front {db : GentDb} {now : ℕ} {msg : Str} (hmsg : msg = lit "ok" ∨ msg = lit "data")
    {r₁ : GentReplication} {d d' : List ItemData} {b : Batch}
    (hf : ({ r with conn := true }.acknowledge now msg).frontNumsElement now syncNum = (r₁, some d))
    (hb : batchLoop db now d [] = .ok (d', b)) :
    r.start db now msg = .ok ({ r₁ with status := 1 }.setFront d', b, true) := by
  have hna : msg ≠ lit "auth" := by rcases hmsg with rfl | rfl <;> decide
  have hne : msg ≠ lit "autherror" := by rcases hmsg with rfl | rfl <;> decide
  have hnc : ¬ (msg ≠ lit "ok" ∧ msg ≠ lit "data") := by tauto
  simp only [GentReplication.start, hna, hne, hnc, if_false, hf, hb]
  rfl

/-- **The exact condition for one call.** -/
lemma QueueInv.batches_iff (h : QueueInv r) (c : Call) : Batches r c ↔ Named r c := by
  cases c with
  | push now id type key => exact Iff.rfl
  | start db now msg =>
      obtain ⟨hinv, hfront⟩ := h.looked now msg
      constructor
      · intro hbatches hmsg
        by_contra hnot
        obtain ⟨d', b, hb⟩ := batchLoop_of_unnamed hnot
        rcases hfront with ⟨-, hnil⟩ | ⟨hf, -⟩
        · rw [hnil] at hnot
          exact hnot (by simp [FirstNamed])
        have hstart := start_of_front hmsg hf hb
        obtain ⟨n, -, -, -, -, hops⟩ := hbatches _ b hstart fun t ht => batchLoop_ne_text (ht ▸ hb)
        obtain ⟨o, ho, hkey⟩ := batchLoop_unnamed hb hnot
        have hmem : some o ∈ (ops b).map some := List.mem_map_of_mem ho
        rw [hops] at hmem
        obtain ⟨it, hit, hop⟩ := List.mem_map.mp hmem
        have hname := (List.mem_filter.mp hit).2
        rw [← key_of_op hop, hkey] at hname
        simp at hname
      · intro hnamed r' b hs htext
        by_cases hmsg : msg = lit "ok" ∨ msg = lit "data"
        · cases start_cases hmsg hs with
          | idle _ => exact absurd rfl (htext [])
          | batch hf' hb =>
              rcases hfront with ⟨hf, -⟩ | ⟨hf, hne⟩
              · rw [hf] at hf'
                cases hf'
              rw [hf] at hf'
              obtain ⟨rfl, hd⟩ := Prod.mk.inj hf'
              obtain rfl := Option.some.inj hd
              obtain ⟨n, hn, hd', hpos, hops⟩ := batchLoop_ops hb (Or.inr (hnamed hmsg))
              have hn2 : n ≤ syncNum := hn.trans (List.length_take_le ..)
              refine ⟨n, hpos rfl (by simpa [syncNum] using hne), hn2,
                hn.trans (List.length_take_le' ..), active_setFront hd' hn, ?_⟩
              rw [hops, List.take_take, Nat.min_eq_left hn2]
              rfl
        · obtain ⟨-, t, ht⟩ := start_other hmsg hs
          exact absurd ht (htext t)

/-! ## The result -/

/-- **The bookkeeping is right exactly when** every batch would begin with an entry that has a name.  The
queues are in order in any case. -/
theorem bookkeeping_iff (rinfo : RepInfo) (db : GentDb) (now : ℕ) (is_sync_all uninit : Bool) (next : ℕ)
    (calls : List Call) :
    Transition.Along call (fun r c => Booked r ∧ Batches r c)
        (new rinfo db now is_sync_all uninit next) calls ∧
      (∀ r ∈ Transition.run call (new rinfo db now is_sync_all uninit next) calls, Booked r) ↔
    Transition.Along call Named (new rinfo db now is_sync_all uninit next) calls := by
  have hnew := QueueInv.new rinfo db now is_sync_all uninit next
  have hend : ∀ r ∈ Transition.run call (new rinfo db now is_sync_all uninit next) calls, Booked r :=
    fun r hr => (Transition.inv_run_of_step (fun _ _ _ h hc => h.call hc) hnew hr).booked
  rw [and_iff_left hend]
  refine Transition.along_congr (fun _ _ _ h hc => h.call hc) (fun r c h => ?_) calls hnew
  rw [and_iff_right h.booked]
  exact h.batches_iff c

/-- A key without a name is deleted, and the slave asks for data. -/
def unnamedDel : List Call :=
  [.push 1700000000 0 .DEL [], .start .empty 1700000001 (lit "data")]

/-- **An entry without a name is printed**: the batch is a DEL of the empty key. -/
theorem prints_unnamed : ¬ (Transition.Along call (fun r c => Booked r ∧ Batches r c)
    (new (RepInfo.fresh (lit "slave")) .empty 1700000000 false false 0) unnamedDel) := by
  rintro ⟨-, hrest⟩
  obtain ⟨⟨-, hbatches⟩, -⟩ := hrest _ rfl
  have hinv := (QueueInv.new (RepInfo.fresh (lit "slave")) .empty 1700000000 false false 0).push 1700000000 0
    .DEL []
  exact absurd ((hinv.batches_iff _).mp hbatches) (by decide)

end GentReplication

end Riser
