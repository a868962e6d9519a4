import Riser.Connect.Mget
import Riser.Level.GentLevel

/-!
# `get` of several keys against `get` of one

`ProcessGet` and `ProcessMultiGet` are two ways to the same text: for each key that is there a `VALUE` line
and the value, and an `END` line behind all of them.  `MultiGetAgrees` says that they agree, and that a key
that is missing adds nothing on either.  **They do not**, for two reasons.

* For a missing key `ProcessGet` assigns the `END` line and goes on, where `ProcessMultiGet` has a
  `continue`: the client is told of an empty value.
* `Split` counts the words in a `uint8_t`.  With 255 or 256 keys (and 511, 512, 767, 768) the count is 0 or 1
  and the request is refused, with 257 keys (and 513, 769) it is 2 and only the first key is looked up.

`multiGetAgrees_iff` says that there are no other reasons.
-/

namespace Riser

open Cpp

namespace GentDb

variable {s : GentDb} {now : ℕ} {key : Str}

/-- `Get` finds a value exactly if the record of the key decodes and the key is shown. -/
lemma get_eq_some_iff : (∃ nr, s.get now key = .ok (some nr)) ↔ ¬ s.Undecoded key ∧ s.Shows now key := by
  by_cases hun : s.Undecoded key
  · obtain ⟨f, hf⟩ : ∃ f, s.get now key = .error f := hun.get
    simp [hun, hf]
  · obtain ⟨found, hfound, hshows⟩ : ∃ found, s.get now key = .ok found ∧
        (found ≠ none ↔ s.Shows now key) := get_of_decoded hun
    rw [← hshows, hfound]
    cases found with
    | none => simp
    | some nr => simp [hun]

end GentDb

namespace GentLevel

/-- A key of the protocol: a word of at most 150 bytes. -/
structure Key where
  text : Str
  word : IsWord text
  short : text.length ≤ 150

/-- The request for some keys. -/
def getLine (keys : List Key) : Str := commandLine (lit "get") (keys.map Key.text)

/-- What a client is told. -/
def reply (w : World) (db : GentDb) (l : GentLevel) (first recont : Str) : Except Fault Str :=
  (serve w db l first recont).map Prod.fst

/-- A value with its `VALUE` line. -/
def valueBlock (key nr : Str) : Str :=
  lit "VALUE " ++ cstr key ++ lit " 0 " ++ unsigned nr.length ++ crlf ++ nr ++ crlf

/-- What a key adds to an answer: nothing if it is missing. -/
def block (w : World) (db : GentDb) (key : Str) : Str :=
  match db.get w.now key with
  | .ok (some nr) => valueBlock key nr
  | _ => []

/-- **A request for several keys is answered with what the requests for the single keys are answered with.** -/
def MultiGetAgrees (w : World) (db : GentDb) (l : GentLevel) (keys : List Key) : Prop :=
  reply w db l (getLine keys) [] = .ok (keys.flatMap (fun key => block w db key.text) ++ lit "END\r\n") ∧
    ∀ key ∈ keys, reply w db l (getLine [key]) [] = .ok (block w db key.text ++ lit "END\r\n")

/-! ## The branches of a `get` -/

section Branches

variable {l : GentLevel}

lemma branches_get {key : Str} {rest : List Str} (h : l.tokenList = lit "get" :: key :: rest) :
    l.branches 2 = .ok (0, { l with commandtype := .COMM_GET, keystr := key, curstatus := .CONN_DATA }) := by
  have hkey : elemAt l.tokenList 1 = .ok key := elemAt_of_eq_some (by rw [h]; rfl)
  have hname : named true l.tokenList "get" = .ok true := by rw [h, named_cons]; decide
  simp only [branches, decide_true, hname, ok_bind, if_true, keyWord, hkey, pure, Except.pure]

lemma branches_multiGet {args : List Str} (h : l.tokenList = lit "get" :: args) {clength : ℕ}
    (hlt : 2 < clength) (hle : clength ≤ maxTokens) :
    l.branches clength = .ok (0, { l with
      keystr := [], keys := args, commandtype := .COMM_GET, curstatus := .CONN_DATA }) := by
  have hkeys : l.tokenList.drop 1 = args := by rw [h]; rfl
  have hname : named true l.tokenList "get" = .ok true := by rw [h, named_cons]; decide
  have hnot : named false l.tokenList "get" = .ok false := rfl
  simp only [branches, hlt.ne', decide_false, hnot, ok_bind, Bool.false_eq_true, if_false, hlt,
    decide_true, hname, if_true, hle.not_gt, hkeys, pure, Except.pure]

/-- No branch is for a `get` without a key. -/
lemma branches_few {args : List Str} (h : l.tokenList = lit "get" :: args) {clength : ℕ}
    (hlt : clength < 2) : l.branches clength = .ok (-1, l) := by
  have hquit : lit "get" ≠ lit "quit" := by decide
  have hstats : lit "get" ≠ lit "stats" := by decide
  have h5 : clength ≠ 5 := by omega
  have hnamed : ∀ b name, named b l.tokenList name = .ok (b && decide (lit "get" = lit name)) := by
    intro b name
    rw [h, named_cons]
  simp only [branches, hnamed, ok_bind, hlt.ne, hlt.not_gt, h5, hquit, hstats, decide_false, Bool.false_and,
    Bool.and_false, Bool.false_eq_true, if_false, pure, Except.pure]

end Branches

/-! ## The answers -/

section Answers

variable {w : World} {db : GentDb} {l : GentLevel}

/-- The buffer is large enough. -/
lemma valueLine_eq {key : Str} (h : key.length ≤ 150) (nr : Str) :
    valueLine key nr = lit "VALUE " ++ cstr key ++ lit " 0 " ++ unsigned nr.length ++ crlf := by
  refine List.take_of_length_le ?_
  have hkey := length_cstr_le key
  have hnum := unsigned_length_le nr.length
  have hvalue : (lit "VALUE ").length = 6 := rfl
  have hzero : (lit " 0 ").length = 3 := rfl
  have hend : crlf.length = 2 := rfl
  simp only [List.length_append, hvalue, hzero, hend]
  omega

lemma isWord_get : IsWord (lit "get") := by decide

lemma isWord_keys (keys : List Key) : ∀ a ∈ keys.map Key.text, IsWord a := by
  intro a ha
  obtain ⟨key, -, rfl⟩ := List.mem_map.mp ha
  exact key.word

/-- What `Process` leaves, from the branch that is taken. -/
lemma process_getLine (keys : List Key) {cword : ℤ} {l' : GentLevel}
    (h : ({ l with
            commandstr := joined (lit "get") (keys.map Key.text) ++ [13], remains := 0, content := [],
            tokenList := lit "get" :: keys.map Key.text } : GentLevel).branches ((keys.length + 1) % 2 ^ 8)
      = .ok (cword, l')) :
    l.process (getLine keys) []
      = if cword < 0 then .ok (0, lit "CLIENT ERROR\r\n", l') else .ok (cword, [], l') := by
  have hnone : ([] : Str).length < 2 ^ 32 := by decide
  have hline := process_line isWord_get (isWord_keys keys) hnone l []
  rw [List.append_nil, List.length_map] at hline
  rw [getLine, hline]
  simp only [List.length_nil, h, ok_bind]

lemma reply_of_data {first : Str} {l' : GentLevel} (h : l.process first [] = .ok (0, [], l'))
    (hst : l'.curstatus = .CONN_DATA) (recont : Str) :
    reply w db l first recont = (complete w db l' [] recont).map Prod.fst := by
  simp only [reply, serve, h, ok_bind, ne_eq, not_true, and_false, if_false, hst]

/-- The answer if the count is 2: to the first key, as if it had a value. -/
lemma reply_get {key : Key} {rest : List Key} (hcount : (rest.length + 2) % 2 ^ 8 = 2) :
    reply w db l (getLine (key :: rest)) [] = (db.get w.now key.text).map fun found =>
      valueBlock key.text (found.getD []) ++ lit "END\r\n" := by
  have hbranch := process_getLine (l := l) (key :: rest) (by
    rw [List.length_cons, hcount]
    exact branches_get rfl)
  rw [if_neg (by decide)] at hbranch
  have hend : lit "\r\nEND\r\n" = crlf ++ lit "END\r\n" := by decide
  rw [reply_of_data hbranch rfl, complete]
  simp only [processGet, key.word.1, if_false]
  cases db.get w.now key.text with
  | error f => rfl
  | ok found =>
      simp only [bind, Except.bind, pure, Except.pure, Except.map, valueLine_eq key.short, valueBlock, hend,
        List.append_assoc]

/-- The answer if the count is 0 or 1. -/
lemma reply_few {keys : List Key} (hcount : (keys.length + 1) % 2 ^ 8 < 2) :
    reply w db l (getLine keys) [] = .ok (lit "CLIENT ERROR\r\n") := by
  have hbranch := process_getLine (l := l) keys (branches_few rfl hcount)
  rw [if_pos (by decide)] at hbranch
  have hne : lit "CLIENT ERROR\r\n" ≠ [] := by decide
  simp only [reply, serve, hbranch, ok_bind, hne, ne_eq, not_false_eq_true, and_self, if_true]
  rfl

/-- One turn of the loop over the keys. -/
lemma appendValue_eq {key : Key} {found : Option Str} (h : db.get w.now key.text = .ok found) (outstr : Str) :
    appendValue w db outstr key.text = .ok (outstr ++ block w db key.text) := by
  rw [appendValue, block, h]
  cases found with
  | none => simp [bind, Except.bind, pure, Except.pure]
  | some nr =>
      simp only [bind, Except.bind, pure, Except.pure, valueLine_eq key.short, valueBlock, List.append_assoc]

/-- The whole loop: **a missing key adds nothing.** -/
lemma foldlM_appendValue {keys : List Key} (h : ∀ key ∈ keys, ∃ found, db.get w.now key.text = .ok found)
    (outstr : Str) :
    (keys.map Key.text).foldlM (appendValue w db) outstr
      = .ok (outstr ++ keys.flatMap fun key => block w db key.text) := by
  induction keys generalizing outstr with
  | nil => simp [pure, Except.pure]
  | cons key keys ih =>
      obtain ⟨found, hfound⟩ := h key List.mem_cons_self
      rw [List.map_cons, List.foldlM_cons, appendValue_eq hfound, ok_bind,
        ih fun k hk => h k (List.mem_cons_of_mem key hk), List.flatMap_cons, List.append_assoc]

/-- The answer if the count is larger. -/
lemma reply_multiGet {keys : List Key} (hcount : 2 < (keys.length + 1) % 2 ^ 8)
    (h : ∀ key ∈ keys, ∃ found, db.get w.now key.text = .ok found) :
    reply w db l (getLine keys) []
      = .ok (keys.flatMap (fun key => block w db key.text) ++ lit "END\r\n") := by
  have hmax : (keys.length + 1) % 2 ^ 8 ≤ maxTokens := by
    have := Nat.mod_lt (keys.length + 1) (show 0 < 2 ^ 8 by decide)
    rw [maxTokens]
    omega
  have hbranch := process_getLine (l := l) keys (branches_multiGet rfl hcount hmax)
  rw [if_neg (by decide)] at hbranch
  rw [reply_of_data hbranch rfl, complete]
  simp only [processGet, if_true, processMultiGet, foldlM_appendValue h, List.nil_append, ok_bind]
  rfl

end Answers

/-! ## When they agree -/

section Agree

variable {w : World} {db : GentDb} {l : GentLevel}

/-- A single `get` is right exactly for a key that has a value. -/
lemma reply_single_iff {key : Key} :
    reply w db l (getLine [key]) [] = .ok (block w db key.text ++ lit "END\r\n") ↔
      ∃ nr, db.get w.now key.text = .ok (some nr) := by
  rw [reply_get (by decide), block]
  cases hget : db.get w.now key.text with
  | error f => simp [Except.map]
  | ok found =>
      cases found with
      | some nr => simp [Except.map]
      | none =>
          -- the text of an empty value is not empty
          have hne : valueBlock key.text [] ≠ [] := by simp [valueBlock, crlf, lit]
          simp [Except.map, hne]

lemma block_ne_nil {key : Str} (h : ∃ nr, db.get w.now key = .ok (some nr)) : block w db key ≠ [] := by
  obtain ⟨nr, hnr⟩ := h
  simp [block, hnr, valueBlock, crlf, lit]

/-- The answer to several keys, all of which have a value. -/
lemma reply_all_iff {keys : List Key} (h : ∀ key ∈ keys, ∃ nr, db.get w.now key.text = .ok (some nr)) :
    reply w db l (getLine keys) [] = .ok (keys.flatMap (fun key => block w db key.text) ++ lit "END\r\n") ↔
      keys.length = 1 ∨ 3 ≤ (keys.length + 1) % 2 ^ 8 := by
  rcases Nat.lt_trichotomy ((keys.length + 1) % 2 ^ 8) 2 with hfew | htwo | hmany
  · -- refused
    have hone : ¬ (keys.length = 1 ∨ 3 ≤ (keys.length + 1) % 2 ^ 8) := by omega
    refine iff_of_false (fun heq => ?_) hone
    rw [reply_few hfew, Except.ok.injEq] at heq
    have hlast : lit "CLIENT ERROR\r\n" = lit "CLIENT ER" ++ lit "ROR\r\n" := by decide
    rw [hlast] at heq
    exact absurd (List.append_inj_right' heq (by decide)) (by decide)
  · cases keys with
    | nil => exact absurd htwo (by decide)
    | cons key rest =>
        obtain ⟨nr, hnr⟩ := h key List.mem_cons_self
        have hblock : block w db key.text = valueBlock key.text nr := by simp only [block, hnr]
        rw [List.length_cons] at htwo ⊢
        rw [reply_get (by omega), hnr]
        simp only [Except.map, Option.getD_some, List.flatMap_cons, hblock, List.append_assoc,
          Except.ok.injEq, List.append_cancel_left_eq]
        cases rest with
        | nil => simp
        | cons second rest =>
            -- a second key would have to add nothing
            have hne := block_ne_nil (h second (by simp))
            rw [List.length_cons] at htwo ⊢
            refine iff_of_false (fun heq => hne ?_) (by omega)
            have hlen := congrArg List.length heq
            rw [List.flatMap_cons] at hlen
            simp only [List.length_append] at hlen
            exact List.eq_nil_of_length_eq_zero (by omega)
  · refine iff_of_true (reply_multiGet hmany fun key hkey => ?_) (Or.inr hmany)
    obtain ⟨nr, hnr⟩ := h key hkey
    exact ⟨some nr, hnr⟩

end Agree

/-- **The two ways agree exactly if every key has a value** and the count of the words has not wrapped below
three, apart from a request for one key. -/
theorem multiGetAgrees_iff (w : World) (db : GentDb) (l : GentLevel) (keys : List Key) :
    MultiGetAgrees w db l keys ↔
      (∀ key ∈ keys, ¬ db.Undecoded key.text ∧ db.Shows w.now key.text) ∧
        (keys.length = 1 ∨ 3 ≤ (keys.length + 1) % 2 ^ 8) := by
  have hsingle : (∀ key ∈ keys, reply w db l (getLine [key]) [] = .ok (block w db key.text ++ lit "END\r\n")) ↔
      ∀ key ∈ keys, ∃ nr, db.get w.now key.text = .ok (some nr) :=
    forall₂_congr fun _ _ => reply_single_iff
  have hshown : (∀ key ∈ keys, ¬ db.Undecoded key.text ∧ db.Shows w.now key.text) ↔
      ∀ key ∈ keys, ∃ nr, db.get w.now key.text = .ok (some nr) :=
    forall₂_congr fun _ _ => GentDb.get_eq_some_iff.symm
  rw [MultiGetAgrees, hsingle, hshown, and_comm]
  exact and_congr_right reply_all_iff

/-- A fresh handler. -/
def newLevel : GentLevel := ⟨0, 0, .COMM_GET, [], [], [], [], [], .CONN_READ⟩

/-- **A key that nobody has stored**: the client is told of an empty value. -/
theorem multiGetAgrees_unstored :
    ¬ MultiGetAgrees quietWorld .empty newLevel [⟨lit "k", by decide, by decide⟩] := by
  rw [MultiGetAgrees]
  decide +kernel

end GentLevel

end Riser
