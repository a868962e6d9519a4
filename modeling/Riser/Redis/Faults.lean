import Riser.Redis.Tokens

/-!
# The requests that crash the server

An index past the end of the token list, or a `substr` past the end of a string, ends the process.
**Only `set`, `setex` and `mset` get there.**  The others test the exact number of tokens, and tokens
are never empty, so their arguments are read without a fault (`Command.parser_runs`).

* `set` and `setex` ask for at least five (seven) tokens and then index one more; and they count
  delimiters on the raw bytes, two bytes each, so a delimiter that is the last byte leads past the
  end (`ValueSafe`).
* `mset` counts delimiters in the same way, and reads its pairs by length lines: an empty line has
  no length, and a negative length passes the test for missing bytes by wrapping (`ItemsSafe`).

These are conditions on the bytes alone, and they are exact: `process_runs_iff`.
-/

namespace Riser

open Cpp

/-! ## `set` and `setex` -/

/-- The value of a `set` (`setex`) can be read: where there are `n` tokens, an admissible key and
`lines` delimiters, there is one more token, and the last delimiter is not the last byte. -/
def ValueSafe (n : ℕ) (marks : Str) (lines : ℕ) (data : Str) : Prop :=
  n ≤ (tokens data).length → (argOf (tokens data) 3).length < 250 →
    ∀ pos ∈ headerEnd data marks lines, n < (tokens data).length ∧ pos ≤ data.length

instance (n : ℕ) (marks : Str) (lines : ℕ) (data : Str) :
    Decidable (ValueSafe n marks lines data) :=
  inferInstanceAs (Decidable (_ → _ → ∀ pos ∈ headerEnd data marks lines, _))

section Value

variable {data : Str} {v : List Str}

lemma runs_elemAt {α : Type} {v : List α} {i : ℕ} : Runs (elemAt v i) ↔ i < v.length := by
  constructor
  · intro h
    by_contra hle
    rw [elemAt_of_le (by omega)] at h
    exact not_runs_error _ h
  · intro h
    rw [elemAt_of_lt h]
    exact runs_ok _

/-- The last step of `set` and `setex`. -/
lemma runs_takeContent (hv : ∀ t ∈ v, Clean t) {i pos : ℕ} (r : GentRedis) :
    Runs (takeContent v i data pos r) ↔ i < v.length ∧ pos ≤ data.length := by
  constructor
  · intro h
    obtain ⟨t, ht, h⟩ := runs_bind.mp h
    obtain ⟨len, -, h⟩ := runs_bind.mp h
    obtain ⟨content, hcontent, -⟩ := runs_bind.mp h
    exact ⟨runs_elemAt.mp ⟨t, ht⟩, runs_substrFrom.mp ⟨content, hcontent⟩⟩
  · rintro ⟨hi, hpos⟩
    have hne : v.get ⟨i, hi⟩ ≠ [] := (hv _ (List.get_mem _ _)).1
    simp only [takeContent, elemAt_of_lt hi, getLength_eq hne, substrFrom_of_le hpos,
      substr_of_le hpos, bind, Except.bind, pure, Except.pure]
    split_ifs <;> exact runs_ok _

end Value

/-- The connection may use the commands. -/
def Authed (cfg : Config) (r : GentRedis) : Prop := r.auth = true ∨ cfg.auth = []

instance (cfg : Config) (r : GentRedis) : Decidable (Authed cfg r) :=
  inferInstanceAs (Decidable (_ ∨ _))

/-- Behind the test for authentication, only that flag has changed. -/
lemma withAuth_eq {cfg : Config} {r : GentRedis} (h : Authed cfg r)
    (body : GentRedis → Parsed) : withAuth cfg r body = body { r with auth := true } := by
  unfold withAuth
  by_cases hr : r.auth = true
  · rw [if_pos hr, ← hr]
  · rw [if_neg hr, if_pos (h.resolve_left hr)]

/-- A parser that succeeds has got past the test. -/
lemma withAuth_ok {cfg : Config} {r r' : GentRedis} {body : GentRedis → Parsed}
    (h : withAuth cfg r body = .ok (0, r')) : ∃ a, body { r with auth := a } = .ok (0, r') := by
  unfold withAuth at h
  split_ifs at h with hauth hopen
  · refine ⟨true, ?_⟩
    rw [← h, ← hauth]
  · exact ⟨true, h⟩
  · cases h

section ValueParser

variable {n lines pos : ℕ} {marks : Str} {body : ℕ → GentRedis → Parsed} {cfg : Config}
  {r : GentRedis} {v : List Str} {data : Str}

lemma valueParser_short (hauth : Authed cfg r) (hnum : v.length < n) :
    valueParser n marks lines body cfg v data r
      = .ok (-1, { r with auth := true, curstatus := .CONN_NREAD }) := by
  rw [valueParser, withAuth_eq hauth, if_pos hnum]
  rfl

/-- The key is cut out of the tokens, and then it depends on its length and on the delimiters. -/
lemma valueParser_key (hauth : Authed cfg r) (hv : ∀ t ∈ v, Clean t) (hn : 5 ≤ n)
    (hnum : n ≤ v.length) :
    valueParser n marks lines body cfg v data r
      = if 250 ≤ (argOf v 3).length then
          .ok (-3, { r with auth := true, curstatus := .CONN_NREAD, keystr := argOf v 3 })
        else match headerEnd data marks lines with
          | none => .ok (-1, { r with auth := true, curstatus := .CONN_NREAD, keystr := argOf v 3 })
          | some pos =>
              body pos { r with auth := true, curstatus := .CONN_NREAD, keystr := argOf v 3 } := by
  rw [valueParser, withAuth_eq hauth, if_neg (by omega), tokenArg_eq hv (by omega)]
  rfl

/-- The way of a request through `valueParser` when nothing is wrong. -/
lemma valueParser_eq (body : ℕ → GentRedis → Parsed) (hauth : Authed cfg r)
    (hv : ∀ t ∈ v, Clean t) (hn : 5 ≤ n) (hnum : n ≤ v.length) (hkey : (argOf v 3).length < 250)
    (hend : headerEnd data marks lines = some pos) :
    valueParser n marks lines body cfg v data r
      = body pos { r with auth := true, curstatus := .CONN_NREAD, keystr := argOf v 3 } := by
  rw [valueParser_key hauth hv hn hnum, if_neg (by omega), hend]

/-- **The ways through `valueParser`**: it is refused for its tokens, its key or its delimiters, or
`body` goes on behind the last delimiter. -/
lemma valueParser_cases (marks : Str) (lines : ℕ) (body : ℕ → GentRedis → Parsed) (data : Str)
    (hauth : Authed cfg r) (hv : ∀ t ∈ v, Clean t) (hn : 5 ≤ n) :
    ((v.length < n ∨ 250 ≤ (argOf v 3).length ∨ headerEnd data marks lines = none) ∧
        ∃ code r', (code = -1 ∨ code = -3) ∧
          valueParser n marks lines body cfg v data r = .ok (code, r')) ∨
      ∃ pos, n ≤ v.length ∧ (argOf v 3).length < 250 ∧ headerEnd data marks lines = some pos ∧
        valueParser n marks lines body cfg v data r
          = body pos { r with auth := true, curstatus := .CONN_NREAD, keystr := argOf v 3 } := by
  by_cases hnum : v.length < n
  · exact Or.inl ⟨Or.inl hnum, _, _, Or.inl rfl, valueParser_short hauth hnum⟩
  rw [valueParser_key hauth hv hn (by omega)]
  by_cases hkey : 250 ≤ (argOf v 3).length
  · rw [if_pos hkey]
    exact Or.inl ⟨Or.inr (Or.inl hkey), _, _, Or.inr rfl, rfl⟩
  rw [if_neg hkey]
  cases hend : headerEnd data marks lines with
  | none => exact Or.inl ⟨Or.inr (Or.inr rfl), _, _, Or.inl rfl, rfl⟩
  | some pos => exact Or.inr ⟨pos, by omega, by omega, rfl, rfl⟩

end ValueParser

lemma valueParser_runs_iff {n lines : ℕ} {marks : Str} {body : ℕ → GentRedis → Parsed}
    {cfg : Config} {r : GentRedis} {data : Str} (h : Authed cfg r) (hn : 5 ≤ n)
    (hbody : n ≤ (tokens data).length → ∀ pos r,
      Runs (body pos r) ↔ n < (tokens data).length ∧ pos ≤ data.length) :
    Runs (valueParser n marks lines body cfg (tokens data) data r)
      ↔ ValueSafe n marks lines data := by
  have hv : ∀ t ∈ tokens data, Clean t := fun t ht => clean_of_mem_tokens ht
  rcases valueParser_cases marks lines body data h hv hn with
    ⟨hwhy, code, r', -, heq⟩ | ⟨pos, hle, hkey, hend, heq⟩
  · rw [heq]
    refine iff_of_true (runs_ok _) ?_
    intro hle hkey pos hpos
    rcases hwhy with hnum | hlong | hnone
    · omega
    · omega
    · exact absurd (hnone.symm.trans hpos) nofun
  · rw [heq, hbody hle]
    constructor
    · intro hsafe _ _ pos' hpos'
      obtain rfl := Option.some.inj (hend.symm.trans hpos')
      exact hsafe
    · intro hsafe
      exact hsafe hle hkey pos hend

lemma set_runs_iff {cfg : Config} {r : GentRedis} (h : Authed cfg r) (data : Str) :
    Runs (GentProcessSet.parser cfg (tokens data) data r) ↔ ValueSafe 5 (lit "*3") 6 data :=
  valueParser_runs_iff h le_rfl fun _ _ r =>
    runs_takeContent (fun _ ht => clean_of_mem_tokens ht) r

lemma setex_runs_iff {cfg : Config} {r : GentRedis} (h : Authed cfg r) (now : ℕ) (data : Str) :
    Runs (GentProcessSetex.parser cfg now (tokens data) data r)
      ↔ ValueSafe 7 (lit "*4") 8 data := by
  refine valueParser_runs_iff h (by decide) fun hle pos r => ?_
  rw [takeExpire, elemAt_of_lt (show 6 < (tokens data).length by omega), runs_ok_bind]
  exact runs_takeContent (fun _ ht => clean_of_mem_tokens ht) _

/-! ## `mset` -/

/-- The first half of a pair, read without care. -/
def pairKey (data : Str) (m : MsetData) : Option MsetData :=
  if m.cur_key = [] then
    (findFirstOf data crlf 0).bind fun p =>
      let keyLen := lengthOf (data.take p)
      if data.length < (p + 2 + keyLen) % 2 ^ 64 then none
      else some { m with
        cur_key := (data.drop (p + 2)).take keyLen
        cur_key_end := (p + 2 + keyLen + 2) % 2 ^ 64 }
  else some m

/-- The second half, likewise. -/
def pairLen (data : Str) (m : MsetData) : Option MsetData :=
  if m.cur_content_len = 0 then
    (findFirstOf data crlf m.cur_key_end).map fun cpos =>
      { m with
        cur_content_len := lengthOf (field data m.cur_key_end cpos)
        cur_content_start := cpos + 2 }
  else some m

/-- A complete pair is stored, and the next one begins. -/
def MsetData.store (m : MsetData) (data : Str) : MsetData :=
  { m with
    keys_values :=
      m.keys_values.insert m.cur_key ((data.drop m.cur_content_start).take m.cur_content_len) }.set

/-- **A key that can be read**: its length line is not empty, and if enough bytes seem to be there,
they start inside the buffer.  The second part only says something of a negative length. -/
def KeySafe (data : Str) (m : MsetData) : Prop :=
  m.cur_key = [] → ∀ p ∈ findFirstOf data crlf 0,
    0 < p ∧ ((p + 2 + lengthOf (data.take p)) % 2 ^ 64 ≤ data.length → p + 2 ≤ data.length)

/-- The length line of the value is not empty. -/
def LenSafe (data : Str) (m : MsetData) : Prop :=
  m.cur_content_len = 0 → ∀ cpos ∈ findFirstOf data crlf m.cur_key_end, m.cur_key_end < cpos

/-- **Pairs that can be read**, `n` of them: key and length of each, and a value that starts inside
the buffer if enough bytes seem to be there. -/
def ItemsSafe : ℕ → Str → MsetData → Prop
  | 0, _, _ => True
  | n + 1, data, m =>
      KeySafe data m ∧ ∀ k ∈ pairKey data m, LenSafe data k ∧ ∀ d ∈ pairLen data k,
        d.pairEnd ≤ data.length → d.cur_content_start ≤ data.length ∧
          ItemsSafe n (data.drop d.pairEnd) (d.store data)

section Items

variable {data : Str} {m : MsetData}

lemma take_ne_nil {p : ℕ} (hp : p < data.length) : data.take p ≠ [] ↔ 0 < p := by
  rw [ne_eq, List.take_eq_nil_iff]
  have hne : data ≠ [] := by rintro rfl; simp at hp
  simp only [hne, or_false]
  omega

lemma itemKey_of_safe (h : KeySafe data m) : itemKey data m = .ok (pairKey data m) := by
  unfold itemKey pairKey
  split_ifs with hkey
  · cases hfind : findFirstOf data crlf 0 with
    | none => rfl
    | some p =>
        obtain ⟨hp, hwrap⟩ := h hkey p hfind
        have hlt := (findFirstOf_lt hfind).2
        have hne : data.take p ≠ [] := (take_ne_nil hlt).mpr hp
        simp only [substr_of_le (Nat.zero_le _), List.drop_zero, getLength_eq hne, bind, Except.bind,
          Option.bind_some]
        split_ifs with hshort
        · rfl
        · simp only [substr_of_le (hwrap (by omega))]
          rfl
  · rfl

lemma safe_of_runs_itemKey (h : Runs (itemKey data m)) : KeySafe data m := by
  intro hkey p hfind
  have hlt := (findFirstOf_lt hfind).2
  have hfind : findFirstOf data crlf 0 = some p := hfind
  simp only [itemKey, hkey, if_true, hfind, substr_of_le (Nat.zero_le _), List.drop_zero,
    runs_ok_bind] at h
  obtain ⟨len, hlen, h⟩ := runs_bind.mp h
  have hne : data.take p ≠ [] := runs_getLength.mp ⟨len, hlen⟩
  obtain rfl : lengthOf (data.take p) = len := by
    rw [getLength_eq hne] at hlen
    exact Except.ok.inj hlen
  refine ⟨(take_ne_nil hlt).mp hne, fun hwrap => ?_⟩
  rw [if_neg (by omega)] at h
  obtain ⟨key, hsub, -⟩ := runs_bind.mp h
  exact runs_substr.mp ⟨key, hsub⟩

lemma itemLen_of_safe (h : LenSafe data m) : itemLen data m = .ok (pairLen data m) := by
  unfold itemLen pairLen
  split_ifs with hlen
  · cases hfind : findFirstOf data crlf m.cur_key_end with
    | none => rfl
    | some cpos =>
        have hlt := findFirstOf_lt hfind
        have hclean := clean_field hfind (h hlen cpos hfind).ne'
        simp only [substr_of_le (show m.cur_key_end ≤ data.length by omega), bind, Except.bind]
        have hget : getLength (field data m.cur_key_end cpos) = _ := getLength_eq hclean.1
        simp only [field] at hget
        rw [hget]
        rfl
  · rfl

lemma safe_of_runs_itemLen (h : Runs (itemLen data m)) : LenSafe data m := by
  intro hlen cpos hfind
  have hlt := findFirstOf_lt hfind
  have hfind : findFirstOf data crlf m.cur_key_end = some cpos := hfind
  simp only [itemLen, hlen, if_true, hfind,
    substr_of_le (show m.cur_key_end ≤ data.length by omega), runs_ok_bind] at h
  obtain ⟨len, hget, -⟩ := runs_bind.mp h
  have hne := runs_getLength.mp ⟨len, hget⟩
  by_contra hle
  exact hne (by simp [show cpos - m.cur_key_end = 0 by omega])

end Items

/-- **The pairs of an `mset`** are read without a fault exactly when they are safe. -/
theorem itemLoop_runs_iff : ∀ (n : ℕ) (data : Str) (m : MsetData),
    Runs (itemLoop n data m) ↔ ItemsSafe n data m
  | 0, data, m => by simp [itemLoop, ItemsSafe]
  | n + 1, data, m => by
      unfold ItemsSafe
      constructor
      · intro h
        obtain ⟨ok, hkey, h⟩ := runs_bind.mp h
        have hsafe := safe_of_runs_itemKey ⟨ok, hkey⟩
        obtain rfl : pairKey data m = ok := by
          rw [itemKey_of_safe hsafe] at hkey
          exact Except.ok.inj hkey
        refine ⟨hsafe, fun k hk => ?_⟩
        simp only [Option.mem_def.mp hk] at h
        obtain ⟨ol, hlen, h⟩ := runs_bind.mp h
        have hsafe' := safe_of_runs_itemLen ⟨ol, hlen⟩
        obtain rfl : pairLen data k = ol := by
          rw [itemLen_of_safe hsafe'] at hlen
          exact Except.ok.inj hlen
        refine ⟨hsafe', fun d hd hend => ?_⟩
        simp only [Option.mem_def.mp hd, if_neg (show ¬ data.length < d.pairEnd by omega)] at h
        obtain ⟨value, hvalue, h⟩ := runs_bind.mp h
        have hstart := runs_substr.mp ⟨value, hvalue⟩
        rw [substr_of_le hstart, Except.ok.injEq] at hvalue
        subst hvalue
        rw [substrFrom_of_le hend, runs_ok_bind] at h
        exact ⟨hstart, (itemLoop_runs_iff n _ _).mp h⟩
      · rintro ⟨hkey, hrest⟩
        simp only [itemLoop, itemKey_of_safe hkey, runs_ok_bind]
        cases hk : pairKey data m with
        | none => exact runs_ok _
        | some k =>
            obtain ⟨hlen, hrest⟩ := hrest k hk
            simp only [itemLen_of_safe hlen, runs_ok_bind]
            cases hd : pairLen data k with
            | none => exact runs_ok _
            | some d =>
                simp only
                split_ifs with hshort
                · exact runs_ok _
                · obtain ⟨hstart, hsafe⟩ := hrest d hd (by omega)
                  rw [substr_of_le hstart, runs_ok_bind, substrFrom_of_le (by omega), runs_ok_bind]
                  exact (itemLoop_runs_iff n _ _).mpr hsafe

/-- A `mset` that can be read, with what the handler still holds of an earlier one. -/
def MsetSafe (data : Str) (m : MsetData) : Prop :=
  let first := (tokens data).getD 0 []
  let num := toInt32 (atoi (first.drop 1) - 1)
  num.tmod 2 = 0 → ∀ pos ∈ headerEnd data first 3, pos ≤ data.length ∧
    ItemsSafe (num.tdiv 2).toNat (data.drop pos)
      { m with totalSetNum := num.tdiv 2, setNum := num.tdiv 2 }

lemma mset_runs_iff {cfg : Config} {r : GentRedis} (h : Authed cfg r) {data : Str}
    (hnum : 3 ≤ (tokens data).length) :
    Runs (GentProcessMset.parser cfg (tokens data) data r) ↔ MsetSafe data r.mdata := by
  have hfirst : (tokens data)[0]? = some ((tokens data).getD 0 []) := by
    simp [List.getD, show 0 < (tokens data).length by omega]
  have hne : 1 ≤ ((tokens data).getD 0 []).length :=
    List.length_pos_of_ne_nil (clean_of_mem_tokens (List.mem_of_getElem? hfirst)).1
  simp only [GentProcessMset.parser, withAuth_eq h, if_neg (show ¬ (tokens data).length < 3 by omega),
    elemAt_of_eq_some hfirst, runs_ok_bind, substrFrom_of_le hne, MsetSafe]
  set first := (tokens data).getD 0 []
  by_cases hodd : (toInt32 (atoi (first.drop 1) - 1)).tmod 2 = 0
  · simp only [hodd, ne_eq, not_true, if_false, forall_const, msetPairs]
    cases hend : headerEnd data first 3 with
    | none => simp
    | some pos =>
        simp only [Option.mem_def, Option.some.injEq, forall_eq', ← itemLoop_runs_iff]
        constructor
        · intro hruns
          obtain ⟨rest, hrest, hruns⟩ := runs_bind.mp hruns
          have hpos := runs_substrFrom.mp ⟨rest, hrest⟩
          rw [substrFrom_of_le hpos, Except.ok.injEq] at hrest
          subst hrest
          obtain ⟨res, hres, -⟩ := runs_bind.mp hruns
          exact ⟨hpos, res, hres⟩
        · rintro ⟨hpos, hitems⟩
          rw [substrFrom_of_le hpos, runs_ok_bind, runs_bind]
          obtain ⟨res, hres⟩ := hitems
          exact ⟨res, hres, runs_ok _⟩
  · rw [if_pos hodd]
    exact iff_of_true (runs_pure _) fun heven => absurd heven hodd

/-! ## The other commands -/

lemma runs_mapM_iff {α β : Type} {f : α → Except Fault β} :
    ∀ {l : List α}, Runs (l.mapM f) ↔ ∀ a ∈ l, Runs (f a)
  | [] => by simp
  | a :: l => by
      rw [List.mapM_cons, List.forall_mem_cons]
      constructor
      · intro h
        obtain ⟨b, hb, h⟩ := runs_bind.mp h
        obtain ⟨bs, hbs, -⟩ := runs_bind.mp h
        exact ⟨⟨b, hb⟩, runs_mapM_iff.mp ⟨bs, hbs⟩⟩
      · rintro ⟨⟨b, hb⟩, h⟩
        obtain ⟨bs, hbs⟩ := runs_mapM_iff.mpr h
        simp [hb, hbs]

lemma toInt32_lt (x : ℤ) : toInt32 x < 2 ^ 31 := by
  simp only [toInt32, Int.bmod_def]
  split_ifs <;> omega

/-- What `mget` checks keeps its indices inside the list. -/
lemma mget_index {len i : ℕ} {f : ℤ} (hf : f < 2 ^ 31) (hlen : (len : ℤ) = toInt32 (f * 2 + 1))
    (hi : 1 ≤ i) (hif : i < 1 + (f.toNat - 1)) : i * 2 + 1 + 1 < len := by
  simp only [toInt32, Int.bmod_def] at hlen
  split_ifs at hlen <;> omega

lemma runs_repAuth (cfg : Config) (v : List Str) (msg : Str) (r : GentRedis) :
    Runs (repAuth cfg v msg r) := by
  unfold repAuth
  split_ifs with _ _ hlen
  · exact runs_ok _
  · exact runs_ok _
  · exact runs_ok _
  · push Not at hlen
    rw [elemAt_of_lt (show 8 < v.length by omega), elemAt_of_lt (show 10 < v.length by omega),
      runs_ok_bind]
    split_ifs <;> exact runs_ok _

/-- **A command other than the three** never faults. -/
theorem Command.parser_runs {cfg : Config} (now : ℕ) {r : GentRedis} (h : Authed cfg r) {data : Str}
    (hnum : 3 ≤ (tokens data).length) {c : Command} (hc : c ≠ .set ∧ c ≠ .setex ∧ c ≠ .mset) :
    Runs (c.parser cfg now (tokens data) data r) := by
  have hv : ∀ t ∈ tokens data, Clean t := fun t ht => clean_of_mem_tokens ht
  have hkeyed : ∀ wrong, Runs (keyParser wrong cfg (tokens data) r) := by
    intro wrong
    rw [keyParser, withAuth_eq h]
    split_ifs with hlen
    · exact runs_pure _
    · rw [tokenArg_eq hv (by omega)]
      exact runs_ok _
  have hplain : Runs (plainParser cfg r) := by
    rw [plainParser, withAuth_eq h]
    exact runs_ok _
  cases c with
  | set => exact absurd rfl hc.1
  | setex => exact absurd rfl hc.2.1
  | mset => exact absurd rfl hc.2.2
  | get => exact hkeyed (-1)
  | ttl => exact hkeyed (-1)
  | del => exact hkeyed (-1)
  | keyExists => exact hkeyed (-1)
  | keys => exact hkeyed (-2)
  | ping => exact hplain
  | randomkey => exact hplain
  | quit => exact runs_ok _
  | auth =>
      simp only [Command.parser, GentProcessAuth.parser]
      by_cases hlen : (tokens data).length ≠ 5
      · rw [if_pos hlen]
        exact runs_pure _
      · rw [if_neg hlen, tokenArg_eq hv (by omega), runs_ok_bind]
        split_ifs <;> exact runs_pure _
  | mget =>
      have hne := (hv _ (List.get_mem (tokens data) ⟨0, by omega⟩)).1
      rw [Command.parser, GentProcessMget.parser, withAuth_eq h,
        elemAt_of_lt (show 0 < (tokens data).length by omega), runs_ok_bind, getLength_eq hne,
        runs_ok_bind, mgetKeys]
      split_ifs with hbad
      · exact runs_pure _
      · push Not at hbad
        obtain ⟨keyvec, hkeyvec⟩ := (runs_mapM_iff (f := fun i => tokenArg (tokens data) (i * 2 + 1))).mpr
          fun i hi => by
            rw [List.mem_range'_1] at hi
            exact ⟨_, tokenArg_eq hv (mget_index (toInt32_lt _) hbad.2 hi.1 hi.2)⟩
        exact runs_bind.mpr ⟨keyvec, hkeyvec, runs_ok _⟩
  | info =>
      simp only [Command.parser, GentProcessInfo.parser, withAuth_eq h]
      split_ifs with hlen
      · rw [tokenArg_eq hv (by omega)]
        exact runs_ok _
      · exact runs_ok _
  | rep =>
      simp only [Command.parser, GentProcessRep.parser]
      split_ifs with hlen
      · exact runs_pure _
      · rw [elemAt_of_lt (show 6 < (tokens data).length by omega), runs_ok_bind]
        obtain ⟨r', hr'⟩ := runs_repAuth cfg (tokens data) ((tokens data).get ⟨6, by omega⟩)
          { r with repmsg := (tokens data).get ⟨6, by omega⟩ }
        rw [hr', runs_ok_bind, tokenArg_eq hv (by omega)]
        exact runs_ok _
  | reply =>
      simp only [Command.parser, GentProcessReply.parser, withAuth_eq h]
      split_ifs with hlen
      · exact runs_pure _
      · rw [elemAt_of_lt (show 4 < (tokens data).length by omega)]
        exact runs_ok _
  | slave =>
      simp only [Command.parser, GentProcessSlave.parser, withAuth_eq h]
      split_ifs with hlen
      · exact runs_pure _
      · rw [tokenArg_eq hv (show 5 + 1 < _ by omega), runs_ok_bind,
          tokenArg_eq hv (show 3 + 1 < _ by omega)]
        split_ifs <;> exact runs_ok _

/-! ## A request -/

/-- **A request that can be parsed**, by a handler whose last `mset` has left `m`. -/
def RequestSafe (m : MsetData) (data : Str) : Prop :=
  match (tokens data)[2]?.bind commands with
  | some .set => ValueSafe 5 (lit "*3") 6 data
  | some .setex => ValueSafe 7 (lit "*4") 8 data
  | some .mset => MsetSafe data m
  | _ => True

lemma parseCommand_runs_iff {cfg : Config} (now : ℕ) {r : GentRedis} (h : Authed cfg r)
    (data : Str) : Runs (parseCommand cfg now r data) ↔ RequestSafe r.mdata data := by
  unfold parseCommand RequestSafe
  by_cases hempty : data.length = 0
  · obtain rfl : data = [] := List.length_eq_zero_iff.mp hempty
    have htokens : tokens [] = [] := rfl
    simp [htokens]
  · rw [if_neg hempty, split_eq, runs_ok_bind]
    by_cases hnum : (tokens data).length < 3
    · have hnone : (tokens data)[2]? = none := List.getElem?_eq_none (by omega)
      simp only [hnone, Option.bind_none]
      split_ifs <;> simp
    · obtain ⟨name, hname⟩ : ∃ name, (tokens data)[2]? = some name :=
        ⟨_, List.getElem?_eq_getElem (by omega)⟩
      rw [if_neg (by omega), if_neg hnum, elemAt_of_eq_some hname, runs_ok_bind, hname,
        Option.bind_some]
      cases hc : commands name with
      | none => simp
      | some c =>
          have hauth : Authed cfg { r with subc := some c } := h
          by_cases hset : c = .set
          · subst hset
            exact set_runs_iff hauth data
          · by_cases hsetex : c = .setex
            · subst hsetex
              exact setex_runs_iff hauth now data
            · by_cases hmset : c = .mset
              · subst hmset
                exact mset_runs_iff hauth (by omega)
              · have hruns : Runs (c.parser cfg now (tokens data) data { r with subc := some c }) :=
                  Command.parser_runs now hauth (by omega) ⟨hset, hsetex, hmset⟩
                cases c <;> first | contradiction | exact iff_of_true hruns trivial

/-- **The parser faults exactly on the unsafe requests**, in `Process` for a request and in
`ContinueProcess` for more bytes of an `mset`. -/
theorem process_runs_iff (cfg : Config) (now : ℕ) (r : GentRedis) (data : Str)
    (h : Authed cfg r) :
    (Runs (process cfg now r data) ↔ RequestSafe r.mdata data) ∧
      (r.subc = some .mset → (Runs (continueProcess r data) ↔
        ItemsSafe r.mdata.setNum.toNat (r.mdata.content ++ data) r.mdata)) := by
  constructor
  · rw [← parseCommand_runs_iff now h, process, runs_bind]
    constructor
    · rintro ⟨res, hres, -⟩
      exact ⟨res, hres⟩
    · rintro ⟨⟨status, r'⟩, hres⟩
      refine ⟨(status, r'), hres, ?_⟩
      cases htext : errorText status <;> simp only [htext] <;> exact runs_ok _
  · intro hsubc
    rw [continueProcess, if_pos hsubc, GentProcessMset.continueParser, runs_bind, itemParser,
      ← itemLoop_runs_iff]
    constructor
    · rintro ⟨res, hres, -⟩
      exact ⟨res, hres⟩
    · rintro ⟨res, hres⟩
      exact ⟨res, hres, runs_ok _⟩

/-- A handler of a new connection, for a server without passwords. -/
def newRedis : GentRedis where
  auth := false
  master_auth := false
  keystr := []
  mdata := ⟨∅, [], [], 0, 0, 0, 0, 0⟩
  keyvec := []
  content := []
  repmsg := []
  subc := none
  rlbytes := 0
  expire := 0
  is_sync_all := true
  curstatus := .CONN_READ
  slave_continue := false

/-- A server without passwords. -/
def openConfig : Config := ⟨[], []⟩

/-- **A `set` that ends the process**: six delimiters, five tokens. -/
theorem set_crashes : Authed openConfig newRedis ∧
    ¬ Runs (process openConfig 0 newRedis (lit "*3\r\n$3\r\nset\r\n$1\r\nk\r\n\r\n")) := by
  refine ⟨Or.inr rfl, ?_⟩
  have hfault : process openConfig 0 newRedis (lit "*3\r\n$3\r\nset\r\n$1\r\nk\r\n\r\n")
      = .error .badIndex := rfl
  rw [hfault]
  exact not_runs_error _

/-- A `set` as a client sends it. -/
theorem process_runs_iff_set :
    RequestSafe newRedis.mdata (lit "*3\r\n$3\r\nset\r\n$1\r\nk\r\n$1\r\nv\r\n") ∧
      Runs (process openConfig 0 newRedis (lit "*3\r\n$3\r\nset\r\n$1\r\nk\r\n$1\r\nv\r\n")) := by
  have hsafe : RequestSafe newRedis.mdata (lit "*3\r\n$3\r\nset\r\n$1\r\nk\r\n$1\r\nv\r\n") := by
    show ValueSafe 5 (lit "*3") 6 (lit "*3\r\n$3\r\nset\r\n$1\r\nk\r\n$1\r\nv\r\n")
    decide
  exact ⟨hsafe, (process_runs_iff openConfig 0 newRedis _ (Or.inr rfl)).1.mpr hsafe⟩

end Riser
