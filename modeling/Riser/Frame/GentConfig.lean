import Riser.Core.CppSearch
import Riser.Core.Inserts

/-!
# `GentConfig`: the configuration file

`Parse` takes the file line by line: a blank line or a comment is skipped, and otherwise a key and a
value are cut out at the first `=`, by four searches whose results go into two calls of `substr`.  The
searches for the key and for the value skip different sets of blanks, and nothing looks at the search
for the value: **where that finds nothing, `substr` throws**, and nobody catches it.

* `key=` and a line that is a carriage return do throw.  A line without `=` is its own value, because
  `npos + 1` is zero.
* `parseLine_runs_iff` has the lines that are taken, and `parse_iff` what follows for files: the
  entries of a file are set exactly if no value is empty and no blank line has a carriage return.
-/

namespace Riser

open Cpp

namespace GentConfig

/-- The blanks around a key: space, form feed, tab and vertical tab. -/
def keyBlanks : Str := [32, 12, 9, 11]

/-- The blanks around a value, with the ends of lines. -/
def valueBlanks : Str := [32, 12, 10, 13, 9, 11]

/-- The position behind a hit; `npos + 1` is zero. -/
def past : Option ℕ → ℕ
  | none => 0
  | some p => p + 1

/-- The key without the blanks behind it. -/
def trimKey (key : Str) : Str := key.take (past (findLastNotOf key keyBlanks))

/-- The value, searched from `pos` on.  For `npos`, `substr` throws. -/
def parseValue (s : Str) (pos : ℕ) : Except Fault Str :=
  match findFirstNotOf s valueBlanks pos with
  | none => .error .outOfRange
  | some first => substr s first (past (findLastNotOf s valueBlanks) - first)

/-- The key, up to the first `=` or to the end of the line. -/
def cutKey (s : Str) (start : ℕ) : Option ℕ → Except Fault Str
  | some stop => substr s start (stop - start)
  | none => substrFrom s start

/-- What happens to a line whose first byte that is no blank is at `start`. -/
def parseEntry (s : Str) (start : ℕ) : Except Fault (Option (Str × Str)) := do
  let stop := findFirstOf s (lit "=") start
  let key ← cutKey s start stop
  if trimKey key = [] then return none
  return some (trimKey key, ← parseValue s (past stop))

/-- One turn of the loop of `GentConfig::Parse`: the entry that the line sets. -/
def parseLine (s : Str) : Except Fault (Option (Str × Str)) :=
  match findFirstNotOf s keyBlanks 0 with
  | none => .ok none
  | some start => do
      if (← elemAt s start) ∈ lit "#;" then return none
      parseEntry s start

/-- `conf_`, a `std::map`. -/
abbrev Conf := Std.ExtTreeMap Str Str compare

/-- `GentConfig::GentConfig`. -/
def new : Conf := ((∅ : Conf).insert (lit "port") (lit "3535")).insert (lit "thread") (lit "10")

/-- `conf_[key] = value`. -/
def setEntry (conf : Conf) : Option (Str × Str) → Conf
  | none => conf
  | some (key, value) => conf.insert key value

/-- `GentConfig::Parse`, on the lines of the file. -/
def parse (conf : Conf) (lines : List Str) : Except Fault Conf :=
  lines.foldlM (fun conf s => (parseLine s).map (setEntry conf)) conf

/-! ## Which lines are taken -/

/-- The line from its first byte that is no blank. -/
def body (s : Str) : Str := s.dropWhile fun b => decide (b ∈ keyBlanks)

/-- A blank line, a comment, or a line without a key. -/
def Skipped (s : Str) : Prop := ∀ b ∈ (body s).head?, b ∈ lit "#;="

/-- Where the value is searched: behind the first `=`, or in the whole line if there is none. -/
def valuePart (s : Str) : Str :=
  if 61 ∈ body s then ((body s).dropWhile fun b => decide (b ≠ 61)).tail else s

/-- **The condition**: there is something to be found. -/
def Sound (s : Str) : Prop := Skipped s ∨ ∃ b ∈ valuePart s, b ∉ valueBlanks

section Lines

variable {s a c k v : Str} {b : UInt8}

lemma body_blank (h : ∀ b ∈ s, b ∈ keyBlanks) : body s = [] :=
  List.dropWhile_eq_nil_iff.mpr fun b hb => by simpa using h b hb

lemma body_append (ha : ∀ x ∈ a, x ∈ keyBlanks) (hb : b ∉ keyBlanks) :
    body (a ++ b :: c) = b :: c := by
  rw [body, List.dropWhile_append_of_pos fun x hx => by simpa using ha x hx]
  simp [hb]

lemma parseLine_blank (h : ∀ b ∈ s, b ∈ keyBlanks) : parseLine s = .ok none := by
  have hnone : findFirstNotOf s keyBlanks 0 = none := findFirstNotOf_eq_none_iff.mpr h
  rw [parseLine, hnone]

lemma parseLine_append (ha : ∀ x ∈ a, x ∈ keyBlanks) (hb : b ∉ keyBlanks) :
    parseLine (a ++ b :: c)
      = if b ∈ lit "#;" then .ok none else parseEntry (a ++ b :: c) a.length := by
  have hfirst : findFirstNotOf (a ++ b :: c) keyBlanks 0 = some a.length :=
    findFirstNotOf_append ha hb
  have helem : elemAt (a ++ b :: c) a.length = .ok b := by
    simp [elemAt]
  rw [parseLine, hfirst]
  simp only [helem, bind, Except.bind]
  rfl

/-- A key that starts with no blank is not trimmed away. -/
lemma trimKey_cons (hb : b ∉ keyBlanks) : trimKey (b :: k) ≠ [] := by
  cases hlast : findLastNotOf (b :: k) keyBlanks with
  | none => exact absurd (findLastNotOf_eq_none_iff.mp hlast b List.mem_cons_self) hb
  | some p =>
      rw [trimKey, hlast]
      exact List.cons_ne_nil _ _

lemma parseValue_runs_iff {pos : ℕ} :
    (∃ v, parseValue s pos = .ok v) ↔ ∃ b ∈ s.drop pos, b ∉ valueBlanks := by
  cases hfirst : findFirstNotOf s valueBlanks pos with
  | none =>
      have hall := findFirstNotOf_eq_none_iff.mp hfirst
      refine iff_of_false (fun ⟨v, hv⟩ => ?_) fun ⟨b, hb, hne⟩ => hne (hall b hb)
      rw [parseValue, hfirst] at hv
      cases hv
  | some first =>
      obtain ⟨a, b, c, hdrop, rfl, hb, -⟩ := findFirstNotOf_eq_some hfirst
      have hlen := congrArg List.length hdrop
      rw [List.length_drop, List.length_append, List.length_cons] at hlen
      refine iff_of_true ?_ ⟨b, by rw [hdrop]; simp, hb⟩
      simp only [parseValue, hfirst, substr_of_le (show pos + a.length ≤ s.length by omega)]
      exact ⟨_, rfl⟩

/-- A line with a key: everything depends on the search for the value. -/
lemma parseEntry_eq {start : ℕ} {key : Str} {stop : Option ℕ}
    (hstop : findFirstOf s (lit "=") start = stop) (hcut : cutKey s start stop = .ok key)
    (hkey : trimKey key ≠ []) :
    parseEntry s start = (parseValue s (past stop)).map fun value => some (trimKey key, value) := by
  rw [parseEntry, hstop, hcut]
  simp only [bind, Except.bind, if_neg hkey]
  cases parseValue s (past stop) with
  | error f => rfl
  | ok v => rfl

/-- What stands behind the `=`. -/
lemma drop_equals (a k v : Str) : (a ++ (k ++ 61 :: v)).drop (a.length + k.length + 1) = v := by
  rw [Nat.add_assoc, ← List.drop_drop, List.drop_left, ← List.drop_drop, List.drop_left]
  rfl

/-- A line with a `=`. -/
lemma parseEntry_equals (hk : 61 ∉ k) (hkey : trimKey k ≠ []) :
    parseEntry (a ++ (k ++ 61 :: v)) a.length
      = (parseValue (a ++ (k ++ 61 :: v)) (a.length + k.length + 1)).map
          fun value => some (trimKey k, value) := by
  have hstop : findFirstOf (a ++ (k ++ 61 :: v)) (lit "=") a.length = some (a.length + k.length) :=
    findFirstOf_append (fun x hx hmem => hk (by
      rw [show lit "=" = [61] from rfl, List.mem_singleton] at hmem
      exact hmem ▸ hx)) (by decide) a
  refine parseEntry_eq hstop ?_ hkey
  rw [cutKey, substr_of_le (by simp), List.drop_left, Nat.add_sub_cancel_left, List.take_left]

/-- A line without a `=`: `npos + 1` is zero, and the value is searched in the whole line. -/
lemma parseEntry_bare (hk : 61 ∉ k) (hkey : trimKey k ≠ []) :
    parseEntry (a ++ k) a.length
      = (parseValue (a ++ k) 0).map fun value => some (trimKey k, value) := by
  have hstop : findFirstOf (a ++ k) (lit "=") a.length = none := by
    refine findFirstOf_eq_none fun x hx hmem => hk ?_
    rw [List.drop_left] at hx
    rw [show lit "=" = [61] from rfl, List.mem_singleton] at hmem
    exact hmem ▸ hx
  refine parseEntry_eq hstop ?_ hkey
  rw [cutKey, substrFrom_of_le (by simp), List.drop_left]

lemma map_runs_iff {α β : Type} {f : α → β} {x : Except Fault α} :
    (∃ r, x.map f = .ok r) ↔ ∃ r, x = .ok r := by
  cases x with
  | error e => simp [Except.map]
  | ok y => simp [Except.map]

/-- **Which lines are taken.** -/
theorem parseLine_runs_iff (s : Str) : (∃ r, parseLine s = .ok r) ↔ Sound s := by
  cases hfirst : findFirstNotOf s keyBlanks 0 with
  | none =>
      have hall : ∀ b ∈ s, b ∈ keyBlanks := findFirstNotOf_eq_none_iff.mp hfirst
      refine iff_of_true ⟨none, parseLine_blank hall⟩ (Or.inl ?_)
      rw [Skipped, body_blank hall]
      exact nofun
  | some start =>
      obtain ⟨a, b, c, hs, -, hb, ha⟩ := findFirstNotOf_eq_some hfirst
      rw [List.drop_zero] at hs
      subst hs
      rw [parseLine_append ha hb]
      have hskip : Skipped (a ++ b :: c) ↔ b ∈ lit "#;=" := by
        rw [Skipped, body_append ha hb]
        simp
      by_cases hcomment : b ∈ lit "#;"
      · rw [if_pos hcomment]
        refine iff_of_true ⟨none, rfl⟩ (Or.inl (hskip.mpr ?_))
        exact (show ∀ x ∈ lit "#;", x ∈ lit "#;=" by decide) b hcomment
      rw [if_neg hcomment]
      by_cases hbare : b = 61
      · -- the key is empty
        subst hbare
        refine iff_of_true ⟨none, ?_⟩ (Or.inl (hskip.mpr (by decide)))
        have hstop : findFirstOf (a ++ 61 :: c) (lit "=") a.length = some (a.length + 0) :=
          findFirstOf_append (show ∀ x ∈ ([] : Str), x ∉ lit "=" from nofun) (by decide) a
        rw [parseEntry, hstop, cutKey, substr_of_le (by simp), Nat.add_zero, Nat.sub_self,
          List.take_zero]
        rfl
      · have hnot : ¬ Skipped (a ++ b :: c) := by
          rw [hskip]
          intro hmem
          have hcases : ∀ x ∈ lit "#;=", x ∈ lit "#;" ∨ x = 61 := by decide
          exact (hcases b hmem).elim hcomment hbare
        rw [Sound, or_iff_right hnot, valuePart, body_append ha hb]
        by_cases heq : 61 ∈ b :: c
        · obtain ⟨k, v, hkv, hk⟩ := List.eq_append_cons_of_mem heq
          obtain ⟨k, rfl⟩ : ∃ k', k = b :: k' := by
            cases k with
            | nil => exact absurd (List.cons.inj hkv).1 hbare
            | cons x k => exact ⟨k, by rw [(List.cons.inj hkv).1]⟩
          have hvalue : ((b :: k) ++ 61 :: v).dropWhile (fun x => decide (x ≠ 61)) = 61 :: v := by
            rw [List.dropWhile_append_of_pos fun x hx => by
              simpa using fun h : x = 61 => hk (h ▸ hx)]
            simp
          rw [if_pos heq, hkv, hvalue, List.tail_cons, parseEntry_equals hk (trimKey_cons hb),
            map_runs_iff, parseValue_runs_iff, drop_equals]
        · rw [if_neg heq, parseEntry_bare heq (trimKey_cons hb), map_runs_iff, parseValue_runs_iff,
            List.drop_zero]

end Lines

/-! ## Files -/

/-- A line of a file: one that is to be skipped, or an entry. -/
inductive Line where
  | blank (s : Str)
  | comment (lead : Str) (mark : UInt8) (text : Str)
  | entry (key value : Str)

namespace Line

/-- The line as it stands in the file. -/
def text : Line → Str
  | .blank s => s
  | .comment lead mark text => lead ++ mark :: text
  | .entry key value => key ++ 61 :: value

/-- The entry. -/
def pair : Line → Option (Str × Str)
  | .entry key value => some (key, value)
  | _ => none

/-- No blank at either end. -/
def Tidy (blanks s : Str) : Prop := (∀ b ∈ s.head?, b ∉ blanks) ∧ ∀ b ∈ s.getLast?, b ∉ blanks

/-- What may stand in a file. -/
def Ok : Line → Prop
  | .blank s => ∀ b ∈ s, b ∈ valueBlanks
  | .comment lead mark _ => (∀ b ∈ lead, b ∈ keyBlanks) ∧ mark ∈ lit "#;"
  | .entry key value => key ≠ [] ∧ 61 ∉ key ∧ Tidy keyBlanks key ∧ (∀ b ∈ key.head?, b ∉ lit "#;") ∧
      Tidy valueBlanks value

/-- **The condition**: no carriage return in a blank line, and no empty value. -/
def Plain : Line → Prop
  | .blank s => ∀ b ∈ s, b ∈ keyBlanks
  | .comment _ _ _ => True
  | .entry _ value => value ≠ []

end Line

/-- The entries of a file. -/
def entries (file : List Line) : List (Str × Str) := file.filterMap Line.pair

/-- **The file sets its entries and nothing else.** -/
def SetsExactly (conf : Conf) (file : List Line) : Prop :=
  ∃ conf', parse conf (file.map Line.text) = .ok conf' ∧
    (∀ key value, (key, value) ∈ entries file → conf'[key]? = some value) ∧
      ∀ key, key ∉ (entries file).map Prod.fst → conf'[key]? = conf[key]?

section Files

variable {conf : Conf}

/-- A key without blanks at its ends is not trimmed. -/
lemma trimKey_of_tidy {key : Str} (hne : key ≠ []) (h : Line.Tidy keyBlanks key) :
    trimKey key = key := by
  obtain ⟨front, last, rfl⟩ : ∃ front last, key = front ++ [last] :=
    ⟨key.dropLast, key.getLast hne, (List.dropLast_append_getLast hne).symm⟩
  have hlast : last ∉ keyBlanks := h.2 last (by simp)
  rw [trimKey, findLastNotOf_concat front hlast]
  simp [past]

/-- A value without blanks at its ends is found as it is. -/
lemma parseValue_of_tidy (front : Str) {value : Str} (hne : value ≠ [])
    (h : Line.Tidy valueBlanks value) : parseValue (front ++ value) front.length = .ok value := by
  obtain ⟨b, c, rfl⟩ := List.exists_cons_of_ne_nil hne
  have hfirst : findFirstNotOf (front ++ b :: c) valueBlanks front.length = some front.length :=
    findFirstNotOf_head List.drop_left (h.1 b rfl)
  have hlast : past (findLastNotOf (front ++ b :: c) valueBlanks) = (front ++ b :: c).length := by
    obtain ⟨init, last, hinit⟩ : ∃ init last, b :: c = init ++ [last] :=
      ⟨_, _, (List.dropLast_append_getLast hne).symm⟩
    have hblank : last ∉ valueBlanks := h.2 last (by rw [hinit]; simp)
    rw [hinit, ← List.append_assoc, findLastNotOf_concat _ hblank, past]
    simp only [List.length_append, List.length_singleton]
  rw [parseValue, hfirst]
  simp only [hlast, substr_of_le (show front.length ≤ (front ++ b :: c).length by simp),
    List.drop_left]
  simp

/-- An entry with a value is taken as it is, and one without ends the program. -/
lemma parseLine_entry {key value : Str} (h : (Line.entry key value).Ok) :
    parseLine (key ++ 61 :: value)
      = if value = [] then .error .outOfRange else .ok (some (key, value)) := by
  obtain ⟨hne, heq, htidy, hmark, hvalue⟩ := h
  have hkey := trimKey_of_tidy hne htidy
  have hline : parseLine (key ++ 61 :: value)
      = (parseValue (key ++ 61 :: value) (key.length + 1)).map fun value => some (key, value) := by
    obtain ⟨b, c, rfl⟩ := List.exists_cons_of_ne_nil hne
    have hb : b ∉ keyBlanks := htidy.1 b rfl
    have happ := parseLine_append (a := []) (c := c ++ 61 :: value) nofun hb
    have hent := parseEntry_equals (a := []) (v := value) heq (by rw [hkey]; exact hne)
    rw [if_neg (hmark b rfl)] at happ
    rw [hkey] at hent
    simp only [List.nil_append, List.length_nil, Nat.zero_add, List.cons_append] at happ hent ⊢
    rw [happ, hent]
  rw [hline]
  split_ifs with hnil
  · subst hnil
    have hnone : findFirstNotOf (key ++ [61]) valueBlanks (key.length + 1) = none := by
      rw [findFirstNotOf_eq_none_iff, List.drop_of_length_le (by simp)]
      exact nofun
    rw [parseValue, hnone]
    rfl
  · have hfound := parseValue_of_tidy (key ++ [61]) hnil hvalue
    rw [List.append_assoc, List.singleton_append, List.length_append, List.length_singleton] at hfound
    rw [hfound]
    rfl

/-- What each line of a file does, and which lines end the program. -/
lemma parseLine_text {l : Line} (h : l.Ok) :
    (l.Plain → parseLine l.text = .ok l.pair) ∧ (¬ l.Plain → ¬ ∃ r, parseLine l.text = .ok r) := by
  cases l with
  | blank s =>
      refine ⟨fun hplain => parseLine_blank hplain, fun hnot => ?_⟩
      -- there is no `=`, and nothing to be found in the whole line
      have hsub : ∀ x ∈ body s, x ∈ valueBlanks := fun x hx =>
        h x ((List.dropWhile_sublist _).subset hx)
      have heq : 61 ∉ body s := fun hmem => absurd (hsub 61 hmem) (by decide)
      show ¬ ∃ r, parseLine s = .ok r
      rw [parseLine_runs_iff, Sound, valuePart, if_neg heq]
      rintro (hskip | ⟨b, hb, hne⟩)
      · cases hbody : body s with
        | nil =>
            have hall := List.dropWhile_eq_nil_iff.mp hbody
            exact hnot fun b hb => by simpa using hall b hb
        | cons b c =>
            have hmark : b ∈ lit "#;=" := hskip b (by rw [hbody]; rfl)
            have hblank : b ∈ valueBlanks := hsub b (by rw [hbody]; exact List.mem_cons_self)
            exact absurd hblank ((show ∀ x ∈ lit "#;=", x ∉ valueBlanks by decide) b hmark)
      · exact hne (h b hb)
  | comment lead mark text =>
      refine ⟨fun _ => ?_, fun hnot => absurd trivial hnot⟩
      have hmark : mark ∉ keyBlanks :=
        (show ∀ x ∈ lit "#;", x ∉ keyBlanks by decide) mark h.2
      show parseLine (lead ++ mark :: text) = .ok none
      rw [parseLine_append h.1 hmark, if_pos h.2]
  | entry key value =>
      have hline : parseLine (Line.entry key value).text = _ := parseLine_entry h
      refine ⟨fun hplain => ?_, fun hnot => ?_⟩
      · rw [hline, if_neg hplain]
        rfl
      · rw [hline, if_pos (not_not.mp hnot)]
        rintro ⟨r, hr⟩
        cases hr

lemma parse_cons (conf : Conf) {s : Str} {r : Option (Str × Str)} (hs : parseLine s = .ok r)
    (lines : List Str) : parse conf (s :: lines) = parse (setEntry conf r) lines := by
  rw [parse, List.foldlM_cons, hs]
  rfl

/-- **A file is taken if all its lines are.** -/
lemma parse_runs_iff (conf : Conf) (lines : List Str) :
    (∃ conf', parse conf lines = .ok conf') ↔ ∀ s ∈ lines, Sound s := by
  induction lines generalizing conf with
  | nil => exact iff_of_true ⟨conf, rfl⟩ nofun
  | cons s lines ih =>
      rw [List.forall_mem_cons, ← parseLine_runs_iff]
      cases hs : parseLine s with
      | error f =>
          refine iff_of_false (fun ⟨conf', h⟩ => ?_) fun h => by obtain ⟨⟨r, hr⟩, -⟩ := h; cases hr
          rw [parse, List.foldlM_cons, hs] at h
          cases h
      | ok r =>
          rw [parse_cons conf hs, ih]
          exact ⟨fun h => ⟨⟨r, rfl⟩, h⟩, And.right⟩

/-- What a file of plain lines makes of the configuration. -/
lemma parse_plain (file : List Line) (hok : ∀ l ∈ file, l.Ok) (hplain : ∀ l ∈ file, l.Plain)
    (conf : Conf) : parse conf (file.map Line.text)
      = .ok ((entries file).foldl (fun conf kv => conf.insert kv.1 kv.2) conf) := by
  induction file generalizing conf with
  | nil => rfl
  | cons l file ih =>
      rw [List.forall_mem_cons] at hok hplain
      rw [List.map_cons, parse_cons conf ((parseLine_text hok.1).1 hplain.1), ih hok.2 hplain.2,
        entries, entries, List.filterMap_cons]
      cases l.pair with
      | none => rfl
      | some kv => rfl

end Files

/-- **What the parser does with lines and with files.** -/
theorem parse_iff (conf : Conf) (lines : List Str) (file : List Line) :
    ((∃ conf', parse conf lines = .ok conf') ↔ ∀ s ∈ lines, Sound s) ∧
    ((∀ l ∈ file, l.Ok) → ((entries file).map Prod.fst).Nodup →
      (SetsExactly conf file ↔ ∀ l ∈ file, l.Plain)) := by
  refine ⟨parse_runs_iff conf lines, fun hok hnodup => ⟨?_, fun hplain => ?_⟩⟩
  · rintro ⟨conf', hparse, -⟩ l hl
    by_contra hnot
    refine (parseLine_text (hok l hl)).2 hnot ((parseLine_runs_iff _).mpr ?_)
    exact (parse_runs_iff conf _).mp ⟨conf', hparse⟩ _ (List.mem_map_of_mem hl)
  · refine ⟨_, parse_plain file hok hplain conf, fun key value hmem => ?_, fun key hkey => ?_⟩
    · exact Inserts.getElem?_foldl_insert_of_mem hnodup hmem conf
    · exact Inserts.getElem?_foldl_insert_of_notMem hkey conf

/-- A file with a comment, a blank line and two entries. -/
def smallFile : List Line :=
  [.comment [] 35 (lit " server"), .entry (lit "port") (lit "6379"), .blank (lit "  "),
    .entry (lit "master ip") (lit "a=b")]

theorem parse_iff_smallFile : SetsExactly new smallFile := by
  refine ((parse_iff new [] smallFile).2 ?_ (by decide)).mpr ?_
  · intro l hl
    fin_cases hl <;> simp only [Line.Ok, Line.Tidy] <;> decide
  · intro l hl
    fin_cases hl <;> simp only [Line.Plain] <;> decide

/-- **An empty value, or an empty line that ends in a carriage return, ends the program.** -/
theorem parse_emptyValue :
    parse new [lit "logfile="] = .error .outOfRange ∧ parse new [lit "\r"] = .error .outOfRange := by
  decide

end GentConfig

end Riser
