import Riser.Repl.Workers

/-!
# A slave registers while commands run

The first `Get` of a slave's name takes three steps: it finds a slot for the name, the constructor
fills `que` with the keys that are stored **at that moment**, and only then the replication is put into
`rep_list_`, where `Push` sees it.  Commands run in other threads meanwhile (`Workers`).

So a command that stores a key after the snapshot and pushes it before the insertion is missed: the key
is neither in `que` nor in `main_que` (`write_missed`).  `registration_complete` says when nothing is
missed: if at the insertion every key stored so far is in the snapshot, or has still to be pushed by
some command.

`find_build_insert` says that the three steps, with nothing in between, are `GentRepMgr.get`.
-/

namespace Riser

open Cpp

/-! ## The system -/

/-- A `Get` in progress. -/
inductive Getter where
  | find
  | build (info : ℕ)
  | insert (info : ℕ) (rep : GentReplication)
  | done

/-- The commands in progress, and the `Get`. -/
structure Registration where
  workers : Workers
  getter : Getter

/-- A command moves, or the `Get` does; `junk`, `uninit` and `next` are as in `GentRepMgr.get`. -/
inductive RegEvent where
  | work (e : Move)
  | find (junk : Str)
  | build (now : ℕ) (uninit : Bool) (next : ℕ)
  | insert

namespace Registration

/-- The `GentRepMgr` of the master. -/
def mgr (s : Registration) : GentRepMgr := s.workers.mgr

/-- The manager and the `Get` after a step of the latter. -/
def goto (s : Registration) (mgr : GentRepMgr) (getter : Getter) : Registration :=
  ⟨{ s.workers with mgr }, getter⟩

/-- A step, while the slave `name` registers with a full synchronisation. -/
def step (name : Str) (s : Registration) : RegEvent → Option Registration
  | .work e => (s.workers.step e).map fun workers => { s with workers }
  | .find junk =>
      match s.getter with
      | .find =>
          match s.mgr.rep_list[name]? with
          | some _ => some (s.goto s.mgr .done)
          | none =>
              match s.mgr.info junk name with
              | (none, mgr) => some (s.goto mgr .done)
              | (some info, mgr) => some (s.goto mgr (.build info))
      | _ => none
  | .build now uninit next =>
      match s.getter with
      | .build info =>
          let rep := GentReplication.new (s.mgr.repfile.slot info) s.workers.store now true uninit next
          some (s.goto { s.mgr with repfile := s.mgr.repfile.setSlot info rep.rinfo }
            (.insert info rep))
      | _ => none
  | .insert =>
      match s.getter with
      | .insert info rep =>
          some (s.goto { s.mgr with rep_list := s.mgr.rep_list.insert name ⟨info, rep⟩ } .done)
      | _ => none

/-- The registration and all commands have returned. -/
def Finished (s : Registration) : Prop := s.getter = .done ∧ s.workers.Finished

/-- The keys in the two queues of a replication. -/
def queued (e : Registered) : List Str := (e.rep.que ++ e.rep.main_que).map ItemData.name

/-- **No write is missed**: the new replication has every key that a command has stored. -/
def Complete (name : Str) (s : Registration) : Prop :=
  ∀ e, s.mgr.Registers name e → ∀ k ∈ s.workers.stored, k ∈ queued e

/-- Some command has still to push the key. -/
def Pending (s : Workers) (k : Str) : Prop := ∃ type, s.Owes type k

/-- **The condition on a step.**  At the insertion, every key stored so far is in the snapshot, or
has still to be pushed. -/
def Overlaps (s : Registration) : RegEvent → Prop
  | .insert => ∀ info rep, s.getter = .insert info rep →
      ∀ k ∈ s.workers.stored, k ∈ rep.que.map ItemData.name ∨ Pending s.workers k
  | _ => True

/-! ## A `Get` on its own -/

/-- **The three steps are `Get`.** -/
theorem find_build_insert {name junk : Str} {s : Registration} {now next info : ℕ} {uninit : Bool}
    (hs : s.getter = .find) (hnew : s.mgr.rep_list[name]? = none)
    (hinfo : (s.mgr.info junk name).1 = some info) :
    Transition.run (step name) s [.find junk, .build now uninit next, .insert]
      = some (s.goto (s.mgr.get ⟨s.workers.store, now, uninit, next⟩ junk name true).2 .done) := by
  rcases hm : s.mgr.info junk name with ⟨i, m⟩
  rw [hm] at hinfo
  obtain rfl : i = some info := hinfo
  have hfind : step name s (.find junk) = some (s.goto m (.build info)) := by
    simp only [step, hs, hnew, hm]
  have hget : (s.mgr.get ⟨s.workers.store, now, uninit, next⟩ junk name true).2
      = m.create ⟨s.workers.store, now, uninit, next⟩ name info true := by
    simp only [GentRepMgr.get, hnew, hm]
  rw [hget, Transition.run, hfind]
  rfl

/-! ## Nothing is missed -/

section Pending

variable {s : Workers} {i : ℕ} {w : Worker} {k : Str}

lemma Pending.goto (h : Pending s k) (hi : s.threads[i]? = some w) (hw : w.owed = [])
    (w' : Worker) : Pending (s.goto i w') k := by
  obtain ⟨type, h⟩ := h
  exact ⟨type, h.goto hi (by simp [hw]) w'⟩

lemma Pending.push {type : OptType} {key : Str} {keys : List Str} (h : Pending s k)
    (hi : s.threads[i]? = some (.push type (key :: keys))) (hne : k ≠ key) :
    Pending (s.goto i (.push type keys)) k := by
  obtain ⟨t, h⟩ := h
  exact ⟨t, h.push hi fun _ => hne⟩

end Pending

/-- A push adds its key to a replication that runs. -/
lemma queued_push {r : GentReplication} (hr : r.is_run = true) (now id : ℕ) (type : OptType)
    (key : Str) (i : ℕ) : queued ⟨i, (r.push now id type key).1⟩ = queued ⟨i, r⟩ ++ [key] := by
  simp [queued, GentReplication.push, hr]

/-- The invariant: the new replication runs, and until it has a key, some command owes the push. -/
structure RegInv (name : Str) (s : Registration) : Prop where
  built : ∀ {info rep}, s.getter = .insert info rep → rep.is_run = true
  running : ∀ {e}, s.mgr.Registers name e → e.rep.is_run = true
  caught : ∀ {e}, s.mgr.Registers name e → ∀ k ∈ s.workers.stored, k ∈ queued e ∨ Pending s.workers k

variable {name : Str} {s s' : Registration}

/-- **A step of a command.** -/
lemma RegInv.work (h : RegInv name s) {e : Move} {workers : Workers}
    (hs : s.workers.step e = some workers) : RegInv name { s with workers } := by
  obtain ⟨w, hw, hact⟩ := Workers.step_acts hs
  cases hact with
  | quiet how how' hdb =>
      exact ⟨h.built, h.running, fun he k hk => (h.caught he k hk).imp_right (·.goto hw how _)⟩
  | @stores _ keys store how hdb =>
      refine ⟨h.built, h.running, fun he k hk => ?_⟩
      rcases List.mem_append.mp hk with hk | hk
      · exact Or.inr ⟨.ADD, .of_goto hw (List.mem_map_of_mem hk)⟩
      · exact (h.caught he k hk).imp_right (·.goto hw how _)
  | deletes hdb =>
      exact ⟨h.built, h.running, fun he k hk => (h.caught he k hk).imp_right (·.goto hw rfl _)⟩
  | @pushes type key keys now id =>
      refine ⟨h.built, fun he' => ?_, fun he' k hk => ?_⟩
      · obtain ⟨e, he, rfl⟩ := GentRepMgr.registers_push.mp he'
        exact (GentRepMgr.is_run_push _ _ _ _ _).trans (h.running he)
      · obtain ⟨e, he, rfl⟩ := GentRepMgr.registers_push.mp he'
        have hrun : (s.workers.mgr.load e).is_run = true := h.running he
        rw [queued_push hrun]
        by_cases heq : k = key
        · exact Or.inl (by simp [heq])
        · exact (h.caught he k hk).imp (List.mem_append_left _) (·.push hw heq)

lemma rep_list_info (m : GentRepMgr) (junk name : Str) :
    (m.info junk name).2.rep_list = m.rep_list := by
  unfold GentRepMgr.info
  cases m.rep_map[name]? with
  | some i => rfl
  | none => rfl

/-- A step of the `Get` that leaves `rep_list_` as it is. -/
lemma RegInv.goto (h : RegInv name s) {m : GentRepMgr} (hm : m.rep_list = s.mgr.rep_list)
    {getter : Getter} (hbuilt : ∀ {info rep}, getter = .insert info rep → rep.is_run = true) :
    RegInv name (s.goto m getter) := by
  have hreg : ∀ {e}, m.Registers name e → s.mgr.Registers name e := fun {e} he => by
    unfold GentRepMgr.Registers at he ⊢
    rwa [← hm]
  exact ⟨hbuilt, fun he => h.running (hreg he), fun he => h.caught (hreg he)⟩

/-- **One step.** -/
lemma RegInv.step (h : RegInv name s) {e : RegEvent} (hP : s.Overlaps e)
    (hs : step name s e = some s') : RegInv name s' := by
  cases e with
  | work e =>
      obtain ⟨workers, hw, rfl⟩ := Option.map_eq_some_iff.mp hs
      exact h.work hw
  | find junk =>
      cases hget : s.getter with
      | find =>
          have hlist := rep_list_info s.mgr junk name
          simp only [Registration.step, hget] at hs
          cases hreg : s.mgr.rep_list[name]? with
          | some e =>
              simp only [hreg] at hs
              obtain rfl := Option.some.inj hs
              exact h.goto rfl nofun
          | none =>
              rcases hinfo : s.mgr.info junk name with ⟨_ | info, m⟩
              · rw [hinfo] at hlist
                simp only [hreg, hinfo] at hs
                obtain rfl := Option.some.inj hs
                exact h.goto hlist nofun
              · rw [hinfo] at hlist
                simp only [hreg, hinfo] at hs
                obtain rfl := Option.some.inj hs
                exact h.goto hlist nofun
      | _ => simp [Registration.step, hget] at hs
  | build now uninit next =>
      cases hget : s.getter with
      | build info =>
          simp only [Registration.step, hget] at hs
          obtain rfl := Option.some.inj hs
          refine h.goto ?_ ?_
          · rfl
          · rintro info' rep ⟨⟩
            exact (GentRepMgr.new_spec (s.mgr.repfile.slot info)
              ⟨s.workers.store, now, uninit, next⟩ true).1
      | _ => simp [Registration.step, hget] at hs
  | insert =>
      cases hget : s.getter with
      | insert info rep =>
          simp only [Registration.step, hget] at hs
          obtain rfl := Option.some.inj hs
          have hnew : ∀ {e}, (s.mgr.rep_list.insert name ⟨info, rep⟩)[name]? = some e →
              e = ⟨info, rep⟩ := fun {e} he => by
            rw [Std.ExtTreeMap.getElem?_insert_self] at he
            exact (Option.some.inj he).symm
          refine ⟨nofun, fun he => ?_, fun he k hk => ?_⟩
          · rw [hnew he]
            exact h.built hget
          · rw [hnew he]
            refine (hP info rep hget k hk).imp_left fun hk => ?_
            rw [queued, List.map_append]
            exact List.mem_append_left _ hk
      | _ => simp [Registration.step, hget] at hs

/-- **Nothing is missed** by a slave that registers, if at the insertion nothing has been. -/
theorem registration_complete (name : Str) (s s' : Registration) (es : List RegEvent)
    (hnew : s.mgr.rep_list[name]? = none) (hfind : s.getter = .find)
    (hrun : Transition.run (step name) s es = some s')
    (hover : Transition.Along (step name) Overlaps s es) (hfin : s'.Finished) :
    Complete name s' := by
  have hnone : ∀ {e}, ¬ s.mgr.Registers name e := fun {e} he => by
    rw [GentRepMgr.Registers, hnew] at he
    cases he
  have hstart : RegInv name s := by
    refine ⟨fun {info rep} heq => ?_, fun he => absurd he hnone, fun he => absurd he hnone⟩
    rw [hfind] at heq
    cases heq
  have hinv : RegInv name s' :=
    Transition.inv_run (fun _ _ _ h hP hs => h.step hP hs) es hstart hover hrun
  intro e he k hk
  refine (hinv.caught he k hk).resolve_right ?_
  rintro ⟨type, ho⟩
  exact hfin.2.not_owes ho

/-- One SET, next to the registration of a first slave. -/
def setAndGet : Registration :=
  ⟨.init .empty GentRepMgr.emptyMgr [.put (lit "a") (lit "v") 0], .find⟩

/-- A move of the SET, when its writes succeed. -/
def set : RegEvent := .work ⟨0, 1700000000, true, fun _ => true, 0⟩

/-- The SET stores the key before the snapshot and pushes it before the insertion. -/
theorem registration_complete_setAndGet : ∃ s,
    Transition.run (step (lit "s")) setAndGet
      [.find [], set, .build 1700000000 false 0, set, .insert, set] = some s ∧
      s.workers.stored = [lit "a"] ∧ Complete (lit "s") s := by
  obtain ⟨s, hs⟩ : ∃ s, Transition.run (step (lit "s")) setAndGet
      [.find [], set, .build 1700000000 false 0, set, .insert, set] = some s := ⟨_, rfl⟩
  refine ⟨s, hs, ?_, registration_complete (lit "s") setAndGet s _ rfl rfl hs ?_ ?_⟩
  · obtain rfl := Option.some.inj hs
    rfl
  · refine .cons rfl trivial <| .cons rfl trivial <| .cons rfl trivial <| .cons rfl trivial <|
      .cons rfl ?_ <| .cons rfl trivial trivial
    rintro info rep heq k hk
    obtain ⟨-, rfl⟩ := Getter.insert.inj heq
    obtain rfl : k = lit "a" := List.mem_singleton.mp hk
    exact Or.inl (by decide)
  · obtain rfl := Option.some.inj hs
    refine ⟨rfl, ?_⟩
    show ∀ w ∈ [Worker.done], w = .done
    simp

/-- **A write is missed** that is stored after the snapshot and pushed before the insertion. -/
theorem write_missed : ∃ s,
    Transition.run (step (lit "s")) setAndGet
      [.find [], .build 1700000000 false 0, set, set, set, .insert] = some s ∧ s.Finished ∧
      lit "a" ∈ s.workers.stored ∧ lit "a" ∈ s.workers.store.db ∧
      (s.mgr.rep_list[lit "s"]?.map queued) = some [] ∧ ¬ Complete (lit "s") s := by
  refine ⟨_, rfl, ⟨rfl, ?_⟩, by decide, by decide, by decide, fun h => ?_⟩
  · show ∀ w ∈ [Worker.done], w = .done
    simp
  · exact absurd (h _ rfl (lit "a") (by decide)) (by decide)

end Registration

end Riser
