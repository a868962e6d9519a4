import Riser.Redis.Request

/-!
# An `mset` that arrives in pieces

`mset` is the one command whose parser can be interrupted.  When bytes are missing, `ItemParser`
keeps those it has in `mdata.content`, together with what it has found of the pair it is in, and returns
`MGET_REQ`; `ContinueParser` puts the next read behind them and starts over at the beginning of
that pair.

What it keeps of the pair is positions in `mdata.content`, and the empty key and the length zero also
mean that nothing is known yet.  Neither does harm: what is known is what would be found again
(`MsetData.Knows`), and what counts as unknown is found again.  `MsetData.Reading` is the invariant
between two reads, `itemLoop_reading` is one call of `ItemParser` under it, and `mset_segments` says of
**every cut of every request** that the pieces do what the whole does.
-/

namespace Riser

open Cpp

/-- The pairs `todo` are still to be stored, on top of what is stored already, to give `final`; the
first of them may be known in part. -/
structure MsetData.Reading (final : LevelDb) (todo : List (Str × Str)) (m : MsetData) : Prop where
  num : m.setNum = todo.length
  knows : ∀ kv ∈ todo.head?, m.Knows kv.1 kv.2
  values : todo.foldl (fun d kv => d.insert kv.1 kv.2) m.keys_values = final
  done : todo = [] → m.cur_key = [] ∧ m.content = []

/-- The lengths are `int`s. -/
def ShortPairs (pairs : List (Str × Str)) : Prop :=
  ∀ kv ∈ pairs, kv.1.length < 2 ^ 31 ∧ kv.2.length < 2 ^ 31

section Loop

variable {final : LevelDb}

/-- **One call of the loop** on the bytes `data`, when `rest` are still to come. -/
lemma itemLoop_reading : ∀ (todo : List (Str × Str)) (m : MsetData) (data rest : Str),
    m.Reading final todo → ShortPairs todo → data ++ rest = todo.flatMap pairBytes →
    (rest ≠ [] → ∃ m' todo', itemLoop todo.length data m = .ok (mgetReq, m') ∧
      m'.Reading final todo' ∧ ShortPairs todo' ∧ m'.content ++ rest = todo'.flatMap pairBytes) ∧
    (rest = [] → ∃ m', itemLoop todo.length data m = .ok (0, m') ∧ m'.Reading final [])
  | [], m, data, rest, hm, _, hdata => by
      obtain ⟨rfl, rfl⟩ := List.append_eq_nil_iff.mp hdata
      have hnum : m.setNum = 0 := hm.num
      refine ⟨fun h => absurd rfl h, fun _ => ⟨m, ?_, hm⟩⟩
      rw [List.length_nil, itemLoop, if_neg (not_not.mpr hnum)]
  | (key, value) :: todo, m, data, rest, hm, hshort, hdata => by
      obtain ⟨hkey, hvalue⟩ := hshort (key, value) List.mem_cons_self
      have hknows : m.Knows key value := hm.knows (key, value) rfl
      rw [List.flatMap_cons] at hdata
      have htake : data = (pairBytes (key, value) ++ todo.flatMap pairBytes).take data.length := by
        rw [← hdata, List.take_left]
      rcases lt_or_ge data.length (pairBytes (key, value)).length with hk | hk
      · -- The pair is not complete: it stays the first of those to be stored.
        obtain ⟨m', hloop, hknows', hcontent, hvalues, hnum⟩ :=
          itemLoop_wait (s := todo.flatMap pairBytes) hknows hkey hvalue hk todo.length
        rw [← htake] at hloop hcontent
        have hrest : rest ≠ [] := by
          rintro rfl
          rw [List.append_nil] at hdata
          rw [hdata, List.length_append] at hk
          omega
        refine ⟨fun _ => ⟨m', (key, value) :: todo, hloop, ⟨hnum.trans hm.num, ?_, ?_, ?_⟩, hshort, ?_⟩,
          fun h => absurd h hrest⟩
        · intro kv hkv
          obtain rfl := Option.some.inj hkv
          exact hknows'
        · rw [hvalues]
          exact hm.values
        · exact fun h => absurd h (List.cons_ne_nil _ _)
        · rw [hcontent, hdata, List.flatMap_cons]
      · -- It is stored, and the loop goes on with the bytes behind it.
        have hloop := itemLoop_pair (s := todo.flatMap pairBytes) hknows hkey hvalue hk todo.length
        rw [← htake] at hloop
        have hm' : (MsetData.set { m with keys_values := m.keys_values.insert key value }).Reading
            final todo := by
          refine ⟨?_, fun kv _ => (Idle.set _).knows kv.1 kv.2, hm.values, fun _ => ⟨rfl, rfl⟩⟩
          have hnum := hm.num
          simp only [MsetData.set, List.length_cons] at hnum ⊢
          omega
        have hrest : (todo.flatMap pairBytes).take (data.length - (pairBytes (key, value)).length) ++ rest
            = todo.flatMap pairBytes := by
          have := congrArg (List.drop (pairBytes (key, value)).length) hdata
          rw [List.drop_append_of_le_length hk, List.drop_left] at this
          have hleft : (pairBytes (key, value) ++ todo.flatMap pairBytes).drop
              (pairBytes (key, value)).length = todo.flatMap pairBytes := List.drop_left
          rw [← hleft, ← List.drop_take, ← htake, List.drop_left, this]
        rw [List.length_cons, hloop]
        exact itemLoop_reading todo _ _ rest hm' (fun kv hkv => hshort kv (List.mem_cons_of_mem _ hkv))
          hrest

end Loop

/-! ## The reads of a request -/

/-- `ContinueParser` on one read after the other, with the statuses it returns. -/
def continueReads : List Str → GentRedis → Except Fault (List ℤ × GentRedis)
  | [], r => .ok ([], r)
  | data :: more, r => do
      let (status, r) ← GentProcessMset.continueParser data r
      let (statuses, r) ← continueReads more r
      return (status :: statuses, r)

/-- `Parser` on the first read, and `ContinueParser` on the others. -/
def parseReads (cfg : Config) (first : Str) (more : List Str) (r : GentRedis) :
    Except Fault (List ℤ × GentRedis) := do
  let tokenList ← split first
  let (status, r) ← GentProcessMset.parser cfg tokenList first r
  let (statuses, r) ← continueReads more r
  return (status :: statuses, r)

section Reads

variable {final : LevelDb} {cfg : Config} {r : GentRedis}

/-- One further read. -/
lemma continueParser_reading {todo : List (Str × Str)} {data rest : Str}
    (hm : r.mdata.Reading final todo) (hshort : ShortPairs todo)
    (hdata : r.mdata.content ++ (data ++ rest) = todo.flatMap pairBytes) :
    (rest ≠ [] → ∃ r' todo', GentProcessMset.continueParser data r = .ok (mgetReq, r') ∧
      r'.mdata.Reading final todo' ∧ ShortPairs todo' ∧
      r'.mdata.content ++ rest = todo'.flatMap pairBytes) ∧
    (rest = [] → ∃ r', GentProcessMset.continueParser data r = .ok (0, r') ∧
      r'.mdata.Reading final []) := by
  rw [← List.append_assoc] at hdata
  obtain ⟨hwait, hdone⟩ := itemLoop_reading todo r.mdata (r.mdata.content ++ data) rest hm hshort hdata
  have hloop : itemParser (r.mdata.content ++ data) r.mdata
      = itemLoop todo.length (r.mdata.content ++ data) r.mdata := by
    rw [itemParser, hm.num, Int.toNat_natCast]
  unfold GentProcessMset.continueParser
  rw [hloop]
  constructor
  · intro hrest
    obtain ⟨m', todo', h, hm', hshort', hcontent⟩ := hwait hrest
    rw [h, ok_bind]
    exact ⟨_, todo', rfl, hm', hshort', hcontent⟩
  · intro hrest
    obtain ⟨m', h, hm'⟩ := hdone hrest
    rw [h, ok_bind]
    exact ⟨_, rfl, hm'⟩

/-- All further reads: bytes are missing until the last one. -/
lemma continueReads_reading : ∀ (more : List Str) (r : GentRedis) (todo : List (Str × Str)),
    more ≠ [] → (∀ data ∈ more, data ≠ []) → r.mdata.Reading final todo → ShortPairs todo →
    r.mdata.content ++ more.flatten = todo.flatMap pairBytes →
    ∃ r', continueReads more r = .ok (List.replicate (more.length - 1) mgetReq ++ [0], r') ∧
      r'.mdata.Reading final []
  | [], _, _, hne, _, _, _, _ => absurd rfl hne
  | [data], r, todo, _, _, hm, hshort, hdata => by
      rw [List.flatten_singleton, ← List.append_nil data] at hdata
      obtain ⟨r', h, hr'⟩ := (continueParser_reading hm hshort hdata).2 rfl
      exact ⟨r', by rw [continueReads, h]; rfl, hr'⟩
  | data :: next :: more, r, todo, _, hall, hm, hshort, hdata => by
      have hnext : (next :: more).flatten ≠ [] := by
        rw [List.flatten_cons]
        exact List.append_ne_nil_of_left_ne_nil (hall next (by simp)) _
      rw [List.flatten_cons] at hdata
      obtain ⟨r₁, todo₁, h₁, hm₁, hshort₁, hdata₁⟩ :=
        (continueParser_reading hm hshort hdata).1 hnext
      obtain ⟨r', h, hr'⟩ := continueReads_reading (next :: more) r₁ todo₁ (List.cons_ne_nil _ _)
        (fun d hd => hall d (List.mem_cons_of_mem _ hd)) hm₁ hshort₁ hdata₁
      refine ⟨r', ?_, hr'⟩
      rw [continueReads, h₁]
      show (continueReads (next :: more) r₁ >>= _) = _
      rw [h]
      rfl

/-- **The parser of `mset` does not care about segmentation.**  Whatever pairs are sent, and wherever the
bytes behind the header are cut, bytes are missing until the last read; then the pairs are stored, a
later one over an earlier one with the same key, and nothing is left of the request. -/
theorem mset_segments {name : Str} (hc : commands name = some .mset) (hauth : Authed cfg r)
    (hidle : r.mdata.Idle) (hnone : r.mdata.keys_values = ∅) (pairs : List (Str × Str))
    (hne : pairs ≠ []) (hnum : pairs.length < 2 ^ 30)
    (hlen : ∀ kv ∈ pairs, kv.1.length < 2 ^ 31 ∧ kv.2.length < 2 ^ 31) (rest : Str) (more : List Str)
    (hmore : ∀ data ∈ more, data ≠ []) (hcut : rest ++ more.flatten = pairs.flatMap pairBytes) :
    ∃ r', parseReads cfg (Request.msetBytes name pairs.length rest) more r
        = .ok (List.replicate more.length mgetReq ++ [0], r') ∧
      r'.mdata.keys_values = pairs.foldl (fun d kv => d.insert kv.1 kv.2) ∅ ∧
      r'.mdata.content = [] ∧ r'.mdata.cur_key = [] ∧ r'.mdata.setNum = 0 := by
  set final := pairs.foldl (fun d kv => d.insert kv.1 kv.2) (∅ : LevelDb) with hfinal
  -- It is enough that the pairs have been read.
  suffices h : ∃ r', parseReads cfg (Request.msetBytes name pairs.length rest) more r
      = .ok (List.replicate more.length mgetReq ++ [0], r') ∧ r'.mdata.Reading final [] by
    obtain ⟨r', hparse, hr'⟩ := h
    exact ⟨r', hparse, hr'.values, (hr'.done rfl).2, (hr'.done rfl).1, hr'.num⟩
  have hstart : MsetData.Reading final pairs
      { r.mdata with totalSetNum := pairs.length, setNum := pairs.length } :=
    ⟨rfl, fun kv _ => ⟨.inl hidle.1, .inl hidle.2⟩, by rw [hfinal, ← hnone], fun h => absurd h hne⟩
  obtain ⟨hwait, hdone⟩ := itemLoop_reading pairs _ rest more.flatten hstart hlen hcut
  have hparser := Request.mset_parser_bytes hauth hc (show 2 * pairs.length + 1 < 2 ^ 31 by omega) rest
  rw [parseReads, split_eq, ok_bind, hparser]
  by_cases hlast : more = []
  · subst hlast
    obtain ⟨m', hloop, hm'⟩ := hdone rfl
    rw [hloop]
    exact ⟨_, rfl, hm'⟩
  · have hrest : more.flatten ≠ [] := by
      obtain ⟨data, more, rfl⟩ := List.exists_cons_of_ne_nil hlast
      rw [List.flatten_cons]
      exact List.append_ne_nil_of_left_ne_nil (hmore data List.mem_cons_self) _
    obtain ⟨m', todo', hloop, hm', hshort', hcontent⟩ := hwait hrest
    rw [hloop]
    obtain ⟨r', h, hr'⟩ := continueReads_reading more
      { r with auth := true, mdata := m', curstatus := .CONN_CONREAD } todo' hlast hmore hm' hshort'
      hcontent
    refine ⟨r', ?_, hr'⟩
    show (continueReads more { r with auth := true, mdata := m', curstatus := .CONN_CONREAD } >>= _) = _
    rw [h]
    have hcount : more.length = more.length - 1 + 1 := by
      have := List.length_pos_of_ne_nil hlast
      omega
    rw [hcount, List.replicate_succ, Nat.add_sub_cancel]
    rfl

/-- An empty key and an empty value, cut inside a length and between CR and LF. -/
theorem mset_segments_cut :
    ∃ r', parseReads openConfig (Request.msetBytes (lit "mset") 2 (lit "$0\r"))
        [lit "\n\r\n$1\r\nv\r\n$", lit "1\r\nk\r\n$0\r\n\r", lit "\n"] newRedis
        = .ok ([mgetReq, mgetReq, mgetReq, 0], r') ∧
      r'.mdata.keys_values = ((∅ : LevelDb).insert [] (lit "v")).insert (lit "k") [] ∧
      r'.mdata.content = [] ∧ r'.mdata.cur_key = [] ∧ r'.mdata.setNum = 0 :=
  mset_segments (by decide) (.inr rfl) ⟨rfl, rfl⟩ rfl [([], lit "v"), (lit "k", [])] (by decide)
    (by decide) (by decide) _ _ (by decide) (by decide)

end Reads

end Riser
