import Riser.Core.Transition
import Riser.Repl.GentRepMgr

/-!
# Commands in worker threads

A command that writes goes to the database first and tells the replications afterwards, and **no lock
is held over both**.  Here each of the two is one atomic step, and any number of threads take theirs in
any order.  A `Worker` is a command in progress: one constructor for each point between two steps.  An
MSET writes its batch in one step and pushes its keys one by one; a DEL looks the key up before it
deletes it.  A command whose write fails pushes nothing.

What matters of a step is said once, by `Acts`: it stores some keys and owes an ADD for each of them,
or deletes a key and owes a DEL for it, or pushes what it owes, or does nothing that shows.

The first question is whether the queues end up in the order of the database: is the last entry of a
stored key an ADD?  Not when a DEL is pushed late, after a SET has stored the key again and has pushed
its ADD already (`late_del`).  That is all that goes wrong (`queue_order`).
-/

namespace Riser

open Cpp

/-! ## The system -/

/-- A command in progress: a SET or SETEX before its `Put`, an MSET before its `BatchPut`, a DEL before
its `Get` and before its `Del`, and the keys that are still to be pushed. -/
inductive Worker where
  | put (key value : Str) (expire : ℕ)
  | batchPut (data : LevelDb)
  | get (key : Str)
  | del (key : Str)
  | push (type : OptType) (keys : List Str)
  | done

/-- The entries that the command has still to push. -/
def Worker.owed : Worker → List (OptType × Str)
  | .push type keys => keys.map (type, ·)
  | _ => []

/-- The master, the commands in progress, and the keys that they have stored and deleted so far. -/
structure Workers where
  store : GentDb
  mgr : GentRepMgr
  threads : List Worker
  stored : List Str
  deleted : List Str

/-- A thread moves; the clock, the answers of the leveldbs to a write, and the number of the entry that
a push allocates. -/
structure Move where
  thread : ℕ
  now : ℕ
  okDb : Bool
  okMeta : Str → Bool
  id : ℕ

namespace Workers

/-- The threads, before anything is stored. -/
def init (store : GentDb) (mgr : GentRepMgr) (threads : List Worker) : Workers :=
  ⟨store, mgr, threads, [], []⟩

/-- Thread `i` is at `w` now. -/
def goto (s : Workers) (i : ℕ) (w : Worker) : Workers := { s with threads := s.threads.set i w }

/-- One step of a thread, which is at the given point of its command. -/
def advance (s : Workers) (e : Move) : Worker → Option Workers
  | .put key value expire =>
      match s.store.put e.okDb (e.okMeta key) e.now key value expire 1 with
      | (store, true) =>
          some { s.goto e.thread (.push .ADD [key]) with store, stored := [key] ++ s.stored }
      | (store, false) => some { s.goto e.thread .done with store }
  | .batchPut data =>
      match s.store.batchPut e.okDb e.okMeta e.now data with
      | (store, true) =>
          some { s.goto e.thread (.push .ADD data.keys) with store, stored := data.keys ++ s.stored }
      | (store, false) => some { s.goto e.thread .done with store }
  | .get key =>
      match s.store.get e.now key with
      | .error _ => none
      | .ok none => some (s.goto e.thread .done)
      | .ok (some _) => some (s.goto e.thread (.del key))
  | .del key =>
      match s.store.del e.okDb (e.okMeta key) key with
      | (store, true) =>
          some { s.goto e.thread (.push .DEL [key]) with store, deleted := key :: s.deleted }
      | (store, false) => some { s.goto e.thread .done with store }
  | .push _ [] => some (s.goto e.thread .done)
  | .push type (key :: keys) =>
      some { s.goto e.thread (.push type keys) with mgr := (s.mgr.push e.now e.id type key).1 }
  | .done => none

def step (s : Workers) (e : Move) : Option Workers := s.threads[e.thread]?.bind (s.advance e)

/-- All commands have returned. -/
def Finished (s : Workers) : Prop := ∀ w ∈ s.threads, w = .done

/-- Some command has still to push this entry. -/
def Owes (s : Workers) (type : OptType) (k : Str) : Prop := ∃ w ∈ s.threads, (type, k) ∈ w.owed

/-! ## What a step does -/

/-- **What a thread at `w` can do**, and the state after it. -/
inductive Acts (s : Workers) (i : ℕ) : Worker → Workers → Prop where
  /-- Nothing that shows. -/
  | quiet {w w' : Worker} {store : GentDb} (hw : w.owed = []) (hw' : w'.owed = [])
      (hdb : store.db = s.store.db) : Acts s i w { s.goto i w' with store }
  /-- Some keys are stored. -/
  | stores {w : Worker} {keys : List Str} {store : GentDb} (hw : w.owed = [])
      (hdb : ∀ k, k ∈ store.db ↔ k ∈ s.store.db ∨ k ∈ keys) :
      Acts s i w { s.goto i (.push .ADD keys) with store, stored := keys ++ s.stored }
  /-- A key is deleted. -/
  | deletes {key : Str} {store : GentDb} (hdb : ∀ k, k ∈ store.db ↔ k ≠ key ∧ k ∈ s.store.db) :
      Acts s i (.del key)
        { s.goto i (.push .DEL [key]) with store, deleted := key :: s.deleted }
  /-- An entry is pushed. -/
  | pushes {type : OptType} {key : Str} {keys : List Str} (now id : ℕ) :
      Acts s i (.push type (key :: keys))
        { s.goto i (.push type keys) with mgr := (s.mgr.push now id type key).1 }

section Cases

variable {s s' : Workers} {e : Move}

lemma put_db (s : GentDb) (okDb okMeta : Bool) (now : ℕ) (key value : Str) (expire : ℕ)
    (datatype : ℤ) : (s.put okDb okMeta now key value expire datatype).1.db
      = s.db.put okDb key value := by
  unfold GentDb.put
  split_ifs
  · rfl
  · rfl

lemma acts_put {key value : Str} {expire : ℕ} (h : s.advance e (.put key value expire) = some s') :
    Acts s e.thread (.put key value expire) s' := by
  have hdb := put_db s.store e.okDb (e.okMeta key) e.now key value expire 1
  have hok : (s.store.put e.okDb (e.okMeta key) e.now key value expire 1).2 = e.okDb := rfl
  rw [advance] at h
  rcases hput : s.store.put e.okDb (e.okMeta key) e.now key value expire 1 with ⟨store, ok⟩
  rw [hput] at h hdb hok
  obtain rfl : ok = e.okDb := hok
  cases hok : e.okDb with
  | false =>
      rw [hok] at h hdb
      obtain rfl := Option.some.inj h
      exact .quiet rfl rfl hdb
  | true =>
      rw [hok] at h hdb
      obtain rfl := Option.some.inj h
      refine .stores rfl fun k => ?_
      rw [show store.db = s.store.db.insert key value from hdb, Std.ExtTreeMap.mem_insert,
        Std.LawfulEqCmp.compare_eq_iff_eq, List.mem_singleton, or_comm, eq_comm]

lemma acts_batchPut {data : LevelDb} (h : s.advance e (.batchPut data) = some s') :
    Acts s e.thread (.batchPut data) s' := by
  rw [advance, GentDb.batchPut] at h
  split_ifs at h
  · obtain rfl := Option.some.inj h
    refine .stores rfl fun k => ?_
    rw [← Std.ExtTreeMap.map_fst_toList_eq_keys]
    exact Inserts.mem_foldl_insert Prod.snd data.toList k s.store.db
  · obtain rfl := Option.some.inj h
    exact .quiet rfl rfl rfl

lemma acts_del {key : Str} (h : s.advance e (.del key) = some s') :
    Acts s e.thread (.del key) s' := by
  rw [advance, GentDb.del] at h
  cases hok : e.okDb with
  | false =>
      rw [hok] at h
      obtain rfl := Option.some.inj h
      exact .quiet rfl rfl rfl
  | true =>
      rw [hok] at h
      obtain rfl := Option.some.inj h
      refine .deletes fun k => ?_
      show k ∈ s.store.db.erase key ↔ _
      rw [Std.ExtTreeMap.mem_erase, Ne, Std.LawfulEqCmp.compare_eq_iff_eq, eq_comm]

/-- **Every step is one of these.** -/
lemma step_acts (h : step s e = some s') :
    ∃ w, s.threads[e.thread]? = some w ∧ Acts s e.thread w s' := by
  obtain ⟨w, hw, h⟩ := Option.bind_eq_some_iff.mp h
  refine ⟨w, hw, ?_⟩
  cases w with
  | put key value expire => exact acts_put h
  | batchPut data => exact acts_batchPut h
  | get key =>
      rw [advance] at h
      rcases hget : s.store.get e.now key with f | _ | v
      · simp [hget] at h
      · rw [hget] at h
        obtain rfl := Option.some.inj h
        exact .quiet rfl rfl rfl
      · rw [hget] at h
        obtain rfl := Option.some.inj h
        exact .quiet rfl rfl rfl
  | del key => exact acts_del h
  | push type keys =>
      cases keys with
      | nil =>
          obtain rfl := Option.some.inj h
          exact .quiet rfl rfl rfl
      | cons key keys =>
          obtain rfl := Option.some.inj h
          exact .pushes e.now e.id
  | done => simp [advance] at h

end Cases

/-! ## What is owed -/

section Owing

variable {s : Workers} {i : ℕ} {w : Worker} {type : OptType} {k : Str}

/-- What the moving thread did not owe is still owed. -/
lemma Owes.goto (h : s.Owes type k) (hi : s.threads[i]? = some w) (hw : (type, k) ∉ w.owed)
    (w' : Worker) : (s.goto i w').Owes type k := by
  obtain ⟨u, hu, hk⟩ := h
  rcases Transition.mem_set_or_eq w' hi hu with hu | rfl
  · exact ⟨u, hu, hk⟩
  · exact absurd hk hw

/-- So is what it owes afterwards. -/
lemma Owes.of_goto {w' : Worker} (hi : s.threads[i]? = some w) (hw' : (type, k) ∈ w'.owed) :
    (s.goto i w').Owes type k :=
  ⟨w', Transition.self_mem_set hi, hw'⟩

/-- A push that is not the next one of the thread stays owed. -/
lemma Owes.push {key : Str} {keys : List Str} {type' : OptType} (h : s.Owes type k)
    (hi : s.threads[i]? = some (.push type' (key :: keys))) (hne : type = type' → k ≠ key) :
    (s.goto i (.push type' keys)).Owes type k := by
  by_cases hmem : (type, k) ∈ (Worker.push type' keys).owed
  · exact .of_goto hi hmem
  · refine h.goto hi (fun hk => ?_) _
    rcases List.mem_cons.mp hk with heq | hk
    · exact hne (Prod.mk.inj heq).1 (Prod.mk.inj heq).2
    · exact hmem hk

/-- When all commands have returned, nothing is. -/
lemma Finished.not_owes (h : s.Finished) : ¬ s.Owes type k := by
  rintro ⟨w, hw, hk⟩
  rw [h w hw] at hk
  simp [Worker.owed] at hk

end Owing

/-! ## The order of the queue -/

/-- The type of the last entry for a key. -/
def lastType (q : List ItemData) (k : Str) : Option OptType :=
  (q.filter fun it => it.name = k).getLast?.map ItemData.type

lemma lastType_append (q : List ItemData) (it : ItemData) (k : Str) :
    lastType (q ++ [it]) k = if it.name = k then some it.type else lastType q k := by
  unfold lastType
  rw [List.filter_append, List.filter_singleton]
  split_ifs with h
  · simp [h]
  · simp [h]

/-- **The queue reflects the database**: of every key that the commands have touched and that is
stored, each replication has an ADD as the last entry. -/
def Ordered (s : Workers) : Prop :=
  ∀ k, k ∈ s.stored ∨ k ∈ s.deleted → k ∈ s.store.db →
    ∀ n e, s.mgr.Registers n e → lastType e.rep.main_que k = some .ADD

/-- The condition on the next step of a thread. -/
def InOrderAt (s : Workers) : Worker → Prop
  | .push .ADD (_ :: _) => ∀ n e, s.mgr.Registers n e → e.rep.is_run = true
  | .push .DEL (key :: _) => key ∈ s.store.db → s.Owes .ADD key
  | _ => True

/-- **The condition on a step.**  A DEL is pushed only for a key that is not stored, or whose ADD is
still to come; and an ADD is pushed while the replications run. -/
def InOrder (s : Workers) (e : Move) : Prop := ∀ w ∈ s.threads[e.thread]?, s.InOrderAt w

/-- The invariant: until its ADD is there, it is owed. -/
def OrderInv (s : Workers) : Prop :=
  ∀ k, k ∈ s.stored ∨ k ∈ s.deleted → k ∈ s.store.db →
    s.Owes .ADD k ∨ ∀ n e, s.mgr.Registers n e → lastType e.rep.main_que k = some .ADD

/-- What a push leaves of a key. -/
lemma lastType_push {m : GentRepMgr} {now id : ℕ} {type : OptType} {key n : Str} {e' : Registered}
    (h : (m.push now id type key).1.Registers n e') (k : Str) :
    ∃ e, m.Registers n e ∧ lastType e'.rep.main_que k
      = if e.rep.is_run = true ∧ key = k then some type else lastType e.rep.main_que k := by
  obtain ⟨e, he, rfl⟩ := GentRepMgr.registers_push.mp h
  refine ⟨e, he, ?_⟩
  unfold GentReplication.push GentRepMgr.load
  cases hrun : e.rep.is_run with
  | false => simp
  | true =>
      simp only [Bool.true_eq_false, if_false, true_and]
      exact lastType_append _ _ k

/-- **One step.** -/
lemma OrderInv.step {s s' : Workers} {e : Move} (h : s.OrderInv) (hP : s.InOrder e)
    (hs : step s e = some s') : s'.OrderInv := by
  obtain ⟨w, hw, hact⟩ := step_acts hs
  have hcond : s.InOrderAt w := hP w hw
  intro k hk hmem
  cases hact with
  | quiet how how' hdb =>
      rw [show _ = s.store.db from hdb] at hmem
      exact (h k hk hmem).imp_left fun ho => ho.goto hw (by simp [how]) _
  | @stores _ keys store how hdb =>
      by_cases hkeys : k ∈ keys
      · exact Or.inl (.of_goto hw (List.mem_map_of_mem hkeys))
      · have hold : k ∈ s.store.db := ((hdb k).mp hmem).resolve_right hkeys
        have htouched : k ∈ s.stored ∨ k ∈ s.deleted :=
          hk.imp_left fun hk => (List.mem_append.mp hk).resolve_left hkeys
        exact (h k htouched hold).imp_left fun ho => ho.goto hw (by simp [how]) _
  | @deletes key store hdb =>
      obtain ⟨hne, hold⟩ := (hdb k).mp hmem
      have htouched : k ∈ s.stored ∨ k ∈ s.deleted :=
        hk.imp_right fun hk => (List.mem_cons.mp hk).resolve_left hne
      exact (h k htouched hold).imp_left fun ho => ho.goto hw (by simp [Worker.owed]) _
  | @pushes type key keys now id =>
      by_cases heq : key = k
      · subst heq
        cases type with
        | ADD =>
            refine Or.inr fun n e' he' => ?_
            obtain ⟨e, he, hlast⟩ := lastType_push he' key
            rw [hlast, if_pos ⟨hcond n e he, rfl⟩]
        | DEL => exact Or.inl ((hcond hmem).push hw (by simp))
      · refine (h k hk hmem).imp (fun ho => ho.push hw fun _ => Ne.symm heq) fun hlast n e' he' => ?_
        obtain ⟨e, he, hlast'⟩ := lastType_push he' k
        rw [hlast', if_neg fun h => heq h.2, hlast n e he]

/-- **The queues reflect the database** at the end of every run in which no DEL comes late. -/
theorem queue_order (store : GentDb) (mgr : GentRepMgr) (threads : List Worker) (es : List Move)
    (s : Workers) (hrun : Transition.run step (init store mgr threads) es = some s)
    (horder : Transition.Along step InOrder (init store mgr threads) es) (hfin : s.Finished) :
    s.Ordered := by
  have hinv : s.OrderInv := by
    refine Transition.inv_run (fun _ _ _ h hP hs => h.step hP hs) es (fun k hk => ?_) horder hrun
    simp [init] at hk
  intro k hk hmem
  exact (hinv k hk hmem).resolve_left hfin.not_owes

/-- A master with one slave. -/
def oneSlave : GentRepMgr := (GentRepMgr.emptyMgr.get GentRepMgr.quiet [] (lit "s") true).2

lemma is_run_oneSlave {n : Str} {e : Registered} (he : oneSlave.Registers n e) :
    e.rep.is_run = true := by
  rcases GentRepMgr.registers_store.mp he with ⟨-, rfl⟩ | ⟨-, he⟩
  · rfl
  · have hempty : GentRepMgr.emptyMgr.rep_list[n]? = none := Std.ExtTreeMap.getElem?_empty
    rw [show GentRepMgr.emptyMgr.rep_list[n]? = some e from he] at hempty
    cases hempty

/-- A database with one key. -/
def oneKey : GentDb := (GentDb.empty.put true true 1700000000 (lit "a") (lit "v") 0 1).1

/-- The threads in the order in which they move, when every write succeeds. -/
def moves (threads : List ℕ) : List Move :=
  threads.map fun i => ⟨i, 1700000000, true, fun _ => true, 0⟩

/-- A DEL and a SET of the key. -/
def delAndSet : List Worker := [.get (lit "a"), .put (lit "a") (lit "w") 0]

lemma inOrder_of_at {s : Workers} {e : Move} {w : Worker} (hw : s.threads[e.thread]? = some w)
    (h : s.InOrderAt w) : s.InOrder e := by
  rintro w' hw'
  obtain rfl := Option.some.inj (hw.symm.trans hw')
  exact h

/-- The DEL is done when the SET begins. -/
theorem queue_order_delAndSet : ∃ s,
    Transition.run step (init oneKey oneSlave delAndSet) (moves [0, 0, 0, 0, 1, 1, 1]) = some s ∧
      lit "a" ∈ s.store.db ∧ s.Ordered := by
  obtain ⟨s, hs⟩ : ∃ s, Transition.run step (init oneKey oneSlave delAndSet)
      (moves [0, 0, 0, 0, 1, 1, 1]) = some s := ⟨_, rfl⟩
  have hfin : s.Finished := by
    obtain rfl := Option.some.inj hs
    show ∀ w ∈ [Worker.done, Worker.done], w = .done
    simp
  have hrunning : ∀ n e, (oneSlave.push 1700000000 0 .DEL (lit "a")).1.Registers n e →
      e.rep.is_run = true := by
    rintro n e' he'
    obtain ⟨e, he, rfl⟩ := GentRepMgr.registers_push.mp he'
    exact (GentRepMgr.is_run_push _ _ _ _ _).trans (is_run_oneSlave he)
  refine ⟨s, hs, ?_, queue_order oneKey oneSlave delAndSet _ s hs ?_ hfin⟩
  · obtain rfl := Option.some.inj hs
    decide
  · refine .cons rfl (inOrder_of_at rfl trivial) <| .cons rfl (inOrder_of_at rfl trivial) <|
      .cons rfl (inOrder_of_at rfl ?_) <| .cons rfl (inOrder_of_at rfl trivial) <|
      .cons rfl (inOrder_of_at rfl trivial) <| .cons rfl (inOrder_of_at rfl hrunning) <|
      .cons rfl (inOrder_of_at rfl trivial) trivial
    exact fun hmem => absurd hmem (by decide)

/-- **A DEL that comes late**: it has deleted the key before the SET stores it, and is pushed after
the SET's ADD. -/
theorem late_del : ∃ s,
    Transition.run step (init oneKey oneSlave delAndSet) (moves [0, 0, 1, 1, 1, 0, 0]) = some s ∧
      s.Finished ∧ lit "a" ∈ s.stored ∧ lit "a" ∈ s.store.db ∧ ¬ s.Ordered := by
  refine ⟨_, rfl, ?_, by decide, by decide, fun h => ?_⟩
  · show ∀ w ∈ [Worker.done, Worker.done], w = .done
    simp
  · have hlast := h (lit "a") (Or.inl (by decide)) (by decide) (lit "s") _ rfl
    exact absurd hlast (by decide)

end Workers

end Riser
