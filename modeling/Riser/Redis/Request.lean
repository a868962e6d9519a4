import Riser.Redis.Resp

/-!
# Requests with many arguments, and all requests

`mget` reads its keys at fixed positions of the token list, and compares the number of tokens with
the number of arguments: each key has to be a token.  `mset` reads its pairs by their lengths, and
any bytes will do.  The second is an induction on the pairs (`itemLoop_pairs`): what the loop has
read is an encoding, and it cuts the bytes exactly where the next pair starts.

`Request.acts_iff` puts all commands together.
-/

namespace Riser

open Cpp

/-! ## `mget` -/

lemma mapM_eq {α β : Type} {f : α → Except Fault β} {g : α → β} :
    ∀ {l : List α}, (∀ a ∈ l, f a = .ok (g a)) → l.mapM f = .ok (l.map g)
  | [], _ => rfl
  | a :: l, h => by
      have hrest : l.mapM f = .ok (l.map g) := mapM_eq fun a ha => h a (by simp [ha])
      rw [List.mapM_cons, h a (by simp), hrest]
      rfl

/-- The fields of keys without delimiters. -/
lemma fields_keys : ∀ {keys : List Str}, (∀ k ∈ keys, NoDelim k) →
    fields (keys.flatMap bulk)
      = keys.flatMap fun k => lengthLine k :: if k = [] then [] else [k]
  | [], _ => fields_of_clean (by simp)
  | k :: keys, h => by
      rw [List.flatMap_cons, fields_bulk (h k (by simp)),
        fields_keys fun k hk => h k (by simp [hk]), List.flatMap_cons]
      rfl

lemma getElem?_flatMap_pair {α β : Type} (f g : α → β) : ∀ (l : List α) (j : ℕ),
    (l.flatMap fun a => [f a, g a])[2 * j]? = l[j]?.map f ∧
      (l.flatMap fun a => [f a, g a])[2 * j + 1]? = l[j]?.map g
  | [], _ => by simp
  | a :: l, 0 => by simp
  | a :: l, j + 1 => by
      obtain ⟨hf, hg⟩ := getElem?_flatMap_pair f g l j
      rw [List.flatMap_cons, show 2 * (j + 1) = 2 * j + 1 + 1 by ring]
      exact ⟨hf, hg⟩

/-- As many tokens as two for each key means that no key is empty. -/
lemma length_fields_keys (keys : List Str) :
    (keys.flatMap fun k => lengthLine k :: if k = [] then [] else [k]).length
      ≤ 2 * keys.length ∧
    ((keys.flatMap fun k => lengthLine k :: if k = [] then [] else [k]).length = 2 * keys.length →
      ∀ k ∈ keys, k ≠ []) := by
  induction keys with
  | nil => simp
  | cons k keys ih =>
      obtain ⟨hle, heq⟩ := ih
      simp only [List.flatMap_cons, List.length_append, List.length_cons]
      by_cases hk : k = []
      · simp only [hk, if_true, List.length_nil]
        exact ⟨by omega, fun h => by omega⟩
      · simp only [hk, if_false, List.length_cons, List.length_nil]
        refine ⟨by omega, fun h k' hk' => ?_⟩
        rcases List.mem_cons.mp hk' with rfl | hk'
        · exact hk
        · exact heq (by omega) k' hk'

namespace Request

variable {cfg : Config} {now : ℕ} {r : GentRedis} {name : Str}

/-- The parser of `mget` on a list of tokens that starts with the right number. -/
lemma mget_parser_iff (hauth : Authed cfg r) {data : Str} {num : ℕ} {keys : List Str}
    (hnum : num * 2 + 1 < 2 ^ 31) {first : Str} (hfirst : (tokens data)[0]? = some first)
    (hlen : lengthOf first = num) :
    (∃ r', GentProcessMget.parser cfg (tokens data) r = .ok (0, r') ∧
        r'.subc = r.subc ∧ r'.keyvec = keys ∧ r'.curstatus = .CONN_DATA) ↔
      5 ≤ (tokens data).length ∧ (tokens data).length = num * 2 + 1 ∧
        keys = (List.range' 1 (num - 1)).map fun i => argOf (tokens data) (i * 2 + 1) := by
  have hv : ∀ t ∈ tokens data, Clean t := fun t ht => clean_of_mem_tokens ht
  have hne : first ≠ [] := (hv _ (List.mem_of_getElem? hfirst)).1
  have hfield : toInt32 ((num : ℕ) : ℤ) = num := toInt32_of_bounds (by omega) (by omega)
  have htwice : toInt32 ((num : ℤ) * 2 + 1) = num * 2 + 1 :=
    toInt32_of_bounds (by omega) (by omega)
  have hparse : GentProcessMget.parser cfg (tokens data) r
      = mgetKeys (tokens data) num { r with auth := true } := by
    rw [GentProcessMget.parser, withAuth_eq hauth, elemAt_of_eq_some hfirst, ← hfield, ← hlen]
    show (getLength first >>= _) = _
    rw [getLength_eq hne]
    rfl
  rw [hparse, mgetKeys, htwice, Int.toNat_natCast]
  by_cases hok : 5 ≤ (tokens data).length ∧ (tokens data).length = num * 2 + 1
  · have hkeys : (List.range' 1 (num - 1)).mapM (fun i => tokenArg (tokens data) (i * 2 + 1))
        = .ok ((List.range' 1 (num - 1)).map fun i => argOf (tokens data) (i * 2 + 1)) := by
      refine mapM_eq fun i hi => tokenArg_eq hv ?_
      rw [List.mem_range'_1] at hi
      omega
    rw [if_neg (by omega), hkeys]
    constructor
    · rintro ⟨r', hr', -, hvec, -⟩
      simp only [bind, Except.bind, pure, Except.pure, Except.ok.injEq, Prod.mk.injEq, true_and]
        at hr'
      subst hr'
      exact ⟨hok.1, hok.2, hvec.symm⟩
    · rintro ⟨-, -, rfl⟩
      exact ⟨_, rfl, rfl, rfl, rfl⟩
  · rw [if_pos (by omega)]
    constructor
    · rintro ⟨r', hr', -⟩
      simp only [pure, Except.pure, Except.ok.injEq, Prod.mk.injEq] at hr'
      omega
    · rintro ⟨h5, hlen, -⟩
      exact absurd ⟨h5, hlen⟩ hok

lemma mget_acts_iff (hauth : Authed cfg r) {keys : List Str} (hc : commands name = some .mget)
    (hadm : (mget keys).Admissible name) :
    (mget keys).Acts cfg now r name ↔ ∀ key ∈ keys, Clean key := by
  obtain ⟨hlen, hne⟩ := hadm
  have hauth' : Authed cfg { r with subc := some .mget } := hauth
  have hnum : (name :: keys).length * 2 + 1 < 2 ^ 31 := length_of_encode hlen
  have hkeylen : ∀ k ∈ keys, k.length < 2 ^ 31 := fun k hk =>
    length_of_mem_encode (by simp [args, hk]) hlen
  have htok : tokens (encode (name :: keys)) = _ :=
    tokens_encode (clean_of_commands hc) (name_ne_mset hc (by simp)) keys
  have hcount : lengthOf (countLine (name :: keys)) = (name :: keys).length := by
    show toUInt64 (atoi (decimal _)) = _
    rw [atoi_decimal (by omega), toUInt64_natCast (by omega)]
  show (∃ r', process cfg now r (encode (name :: keys)) = .ok (0, [], r') ∧ _) ↔ _
  rw [process_done_iff (tokens_front hc).2 hc]
  refine (mget_parser_iff hauth' hnum (by rw [htok]; rfl) hcount).trans ?_
  rw [List.length_cons, Nat.add_sub_cancel]
  constructor
  · rintro ⟨-, hlength, hkeys⟩
    have hdelim : ∀ k ∈ keys, NoDelim k := by
      intro k hk
      rw [hkeys] at hk
      obtain ⟨i, -, rfl⟩ := List.mem_map.mp hk
      exact noDelim_argOf (fun t ht => clean_of_mem_tokens ht) _
    rw [htok, fields_keys hdelim] at hlength
    simp only [List.length_cons] at hlength
    exact fun k hk => ⟨(length_fields_keys keys).2 (by omega) k hk, hdelim k hk⟩
  · intro hclean
    have hfields : fields (keys.flatMap bulk) = keys.flatMap fun k => [lengthLine k, k] := by
      rw [fields_keys fun k hk => (hclean k hk).2]
      exact List.flatMap_congr fun k hk => by rw [if_neg (hclean k hk).1]
    have hlength : (tokens (encode (name :: keys))).length = (keys.length + 1) * 2 + 1 := by
      rw [htok, hfields]
      simp
      omega
    have hpos : 0 < keys.length := List.length_pos_of_ne_nil hne
    refine ⟨by omega, hlength, List.ext_getElem? fun j => ?_⟩
    rw [List.getElem?_map]
    by_cases hj : j < keys.length
    · have hkj : keys[j]? = some (keys.get ⟨j, hj⟩) := by simp [hj]
      obtain ⟨hline, hkey⟩ := getElem?_flatMap_pair lengthLine id keys j
      rw [hkj, Option.map_some] at hline hkey
      have harg : argOf (tokens (encode (name :: keys))) ((1 + j) * 2 + 1) = keys.get ⟨j, hj⟩ := by
        refine argOf_eq (hkeylen _ (List.get_mem _ _)) ?_ (Or.inr ?_)
        · rw [htok, hfields, show (1 + j) * 2 + 1 = 2 * j + 1 + 1 + 1 by ring]
          exact hline
        · rw [htok, hfields, show (1 + j) * 2 + 1 + 1 = 2 * j + 1 + 1 + 1 + 1 by ring]
          exact hkey
      rw [hkj, List.getElem?_range' hj, Option.map_some, Nat.one_mul, harg]
    · rw [List.getElem?_eq_none (by omega), List.getElem?_eq_none (by simp; omega), Option.map_none]

end Request

/-! ## `mset` -/

/-- A pair as the client sends it. -/
def pairBytes (kv : Str × Str) : Str := bulk kv.1 ++ bulk kv.2

/-- No pair is being read. -/
def MsetData.Idle (m : MsetData) : Prop := m.cur_key = [] ∧ m.cur_content_len = 0

lemma Idle.set (m : MsetData) : m.set.Idle := ⟨rfl, rfl⟩

/-- The line in front of an argument is found, and its length is that of the argument. -/
lemma findFirstOf_bulk (arg s pre : Str) :
    findFirstOf (pre ++ (bulk arg ++ s)) crlf pre.length
      = some (pre.length + (lengthLine arg).length) := by
  have hbulk : bulk arg ++ s = lengthLine arg ++ 13 :: 10 :: (arg ++ crlf ++ s) := by
    simp [bulk, crlf, lit]
  rw [hbulk]
  exact findFirstOf_append (clean_lengthLine arg).2 (by decide) pre

lemma length_bulk (arg : Str) :
    (bulk arg).length = (lengthLine arg).length + 2 + arg.length + 2 := by
  simp [bulk, crlf, lit]
  omega

/-! What `ItemParser` finds in the first bytes of a pair.  It stops wherever bytes are missing, and when
it goes on with more of them, the fields that are filled already are as it would fill them again. -/

/-- What is known of the pair being read, if anything, is right. -/
structure MsetData.Knows (m : MsetData) (key value : Str) : Prop where
  known_key : m.cur_key = [] ∨ (m.cur_key = key ∧ m.cur_key_end = (bulk key).length)
  known_len : m.cur_content_len = 0 ∨ (m.cur_content_len = value.length ∧
    m.cur_content_start = (bulk key).length + (lengthLine value).length + 2)

lemma MsetData.Idle.knows {m : MsetData} (hm : m.Idle) (key value : Str) : m.Knows key value :=
  ⟨.inl hm.1, .inl hm.2⟩

section Pair

variable {m : MsetData} {s : Str}

lemma length_lengthLine_le {arg : Str} (h : arg.length < 2 ^ 31) : (lengthLine arg).length ≤ 11 := by
  have hdigits : (decimal arg.length).length ≤ 10 := (decimal_length_le_iff (by decide)).mpr (by omega)
  have hmark : (lit "$").length = 1 := by decide
  rw [lengthLine, List.length_append, hmark]
  omega

/-- **The key of a pair** is read by its length, as soon as its bytes are there. -/
lemma itemKey_take {key : Str} (hm : m.cur_key = [] ∨ (m.cur_key = key ∧ m.cur_key_end = (bulk key).length))
    (hlen : key.length < 2 ^ 31) (k : ℕ) :
    itemKey ((bulk key ++ s).take k) m
        = .ok (some { m with cur_key := key, cur_key_end := (bulk key).length }) ∨
      (k < (lengthLine key).length + 2 + key.length ∧ itemKey ((bulk key ++ s).take k) m = .ok none) := by
  by_cases hnew : m.cur_key = []
  swap
  · obtain ⟨rfl, hend⟩ := hm.resolve_left hnew
    rw [itemKey, if_neg hnew, ← hend]
    exact .inl rfl
  have hline := length_lengthLine_le hlen
  have hfind : findFirstOf ((bulk key ++ s).take k) crlf 0
      = (some (lengthLine key).length).filter fun p => decide (p < k) := by
    have := findFirstOf_bulk key s []
    rw [List.nil_append, List.length_nil, Nat.zero_add] at this
    rw [findFirstOf_take, this]
  rw [itemKey, if_pos hnew, hfind]
  by_cases hk : (lengthLine key).length < k
  swap
  · rw [Option.filter_some_neg (by simpa using hk)]
    exact .inr ⟨by omega, rfl⟩
  rw [Option.filter_some_pos (by simpa using hk)]
  have hsize := length_bulk key
  have htake : ((bulk key ++ s).take k).take (lengthLine key).length = lengthLine key := by
    rw [List.take_take, Nat.min_eq_left hk.le, bulk, List.append_assoc, List.take_left]
  simp only [substr_of_le (Nat.zero_le _), List.drop_zero, htake,
    getLength_eq (clean_lengthLine key).1, lengthOf_lengthLine hlen, bind, Except.bind,
    Nat.mod_eq_of_lt (show (lengthLine key).length + 2 + key.length < 2 ^ 64 by omega),
    Nat.mod_eq_of_lt (show (lengthLine key).length + 2 + key.length + 2 < 2 ^ 64 by omega)]
  by_cases hfit : (lengthLine key).length + 2 + key.length ≤ k
  swap
  · have hshort : ((bulk key ++ s).take k).length < (lengthLine key).length + 2 + key.length := by
      rw [List.length_take]
      omega
    rw [if_pos hshort]
    exact .inr ⟨by omega, rfl⟩
  have hlong : ¬ ((bulk key ++ s).take k).length < (lengthLine key).length + 2 + key.length := by
    rw [List.length_take, List.length_append]
    omega
  have hkey : (((bulk key ++ s).take k).drop ((lengthLine key).length + 2)).take key.length = key := by
    have hcut : bulk key ++ s = (lengthLine key ++ crlf) ++ (key ++ (crlf ++ s)) := by simp [bulk]
    have hl : (lengthLine key).length + 2 = (lengthLine key ++ crlf).length := by simp [crlf, lit]
    rw [List.drop_take, List.take_take, Nat.min_eq_left (by omega), hcut, hl, List.drop_left,
      List.take_left]
  rw [if_neg hlong, substr_of_le (by rw [List.length_take, List.length_append]; omega), hkey]
  left
  simp only [pure, Except.pure, hsize]

/-- **The length of its value** is read as soon as its line is there. -/
lemma itemLen_take {pre value : Str} (hend : m.cur_key_end = pre.length)
    (hm : m.cur_content_len = 0 ∨ (m.cur_content_len = value.length ∧
      m.cur_content_start = pre.length + (lengthLine value).length + 2))
    (hlen : value.length < 2 ^ 31) (k : ℕ) :
    itemLen ((pre ++ (bulk value ++ s)).take k) m
        = .ok (some { m with
          cur_content_len := value.length
          cur_content_start := pre.length + (lengthLine value).length + 2 }) ∨
      (k ≤ pre.length + (lengthLine value).length ∧
        itemLen ((pre ++ (bulk value ++ s)).take k) m = .ok none) := by
  by_cases hnew : m.cur_content_len = 0
  swap
  · obtain ⟨hl, hs⟩ := hm.resolve_left hnew
    rw [itemLen, if_neg hnew, ← hl, ← hs]
    exact .inl rfl
  rw [itemLen, if_pos hnew, hend, findFirstOf_take, findFirstOf_bulk]
  by_cases hk : pre.length + (lengthLine value).length < k
  swap
  · rw [Option.filter_some_neg (by simpa using hk)]
    exact .inr ⟨by omega, rfl⟩
  rw [Option.filter_some_pos (by simpa using hk)]
  have hfield : (((pre ++ (bulk value ++ s)).take k).drop pre.length).take (lengthLine value).length
      = lengthLine value := by
    rw [List.drop_take, List.take_take, Nat.min_eq_left (by omega), List.drop_left, bulk,
      List.append_assoc, List.take_left]
  have hle : pre.length ≤ ((pre ++ (bulk value ++ s)).take k).length := by
    rw [List.length_take, List.length_append]
    omega
  left
  simp only [substr_of_le hle, Nat.add_sub_cancel_left, hfield, getLength_eq (clean_lengthLine value).1,
    lengthOf_lengthLine hlen, bind, Except.bind, pure, Except.pure]

/-- Where the next pair starts. -/
lemma length_pairBytes (key value : Str) :
    (pairBytes (key, value)).length
      = (bulk key).length + (lengthLine value).length + 2 + value.length + 2 := by
  show (bulk key ++ bulk value).length = _
  rw [List.length_append, length_bulk value]
  omega

/-- The pair is known, and the next one starts where it ends. -/
lemma pairEnd_eq {key value : Str} (hkey : key.length < 2 ^ 31) (hvalue : value.length < 2 ^ 31) :
    MsetData.pairEnd { m with
        cur_key := key
        cur_key_end := (bulk key).length
        cur_content_len := value.length
        cur_content_start := (bulk key).length + (lengthLine value).length + 2 }
      = (pairBytes (key, value)).length := by
  have h₁ := length_lengthLine_le hkey
  have h₂ := length_lengthLine_le hvalue
  have h₃ := length_bulk key
  rw [length_pairBytes, MsetData.pairEnd]
  dsimp only
  exact Nat.mod_eq_of_lt (by omega)

/-- **One turn with bytes missing** remembers them, and stores nothing. -/
lemma itemLoop_wait {key value : Str} (hm : m.Knows key value) (hkey : key.length < 2 ^ 31)
    (hvalue : value.length < 2 ^ 31) {k : ℕ} (hk : k < (pairBytes (key, value)).length) (n : ℕ) :
    ∃ m', itemLoop (n + 1) ((pairBytes (key, value) ++ s).take k) m = .ok (mgetReq, m') ∧
      m'.Knows key value ∧ m'.content = (pairBytes (key, value) ++ s).take k ∧
      m'.keys_values = m.keys_values ∧ m'.setNum = m.setNum := by
  have hsplit : pairBytes (key, value) ++ s = bulk key ++ (bulk value ++ s) := by simp [pairBytes]
  have hsize : ((pairBytes (key, value) ++ s).take k).length < (pairBytes (key, value)).length := by
    rw [List.length_take]
    omega
  rw [itemLoop]
  rcases itemKey_take (s := bulk value ++ s) hm.known_key hkey k with hres | ⟨-, hres⟩
  swap
  · rw [← hsplit] at hres
    simp only [hres, bind, Except.bind, MsetData.wait]
    exact ⟨_, rfl, ⟨hm.known_key, hm.known_len⟩, rfl, rfl, rfl⟩
  rw [← hsplit] at hres
  simp only [hres, bind, Except.bind]
  rcases itemLen_take (m := { m with cur_key := key, cur_key_end := (bulk key).length }) (s := s) rfl
    hm.known_len hvalue k with hres' | ⟨-, hres'⟩
  · rw [← hsplit] at hres'
    simp only [hres', pairEnd_eq hkey hvalue, if_pos hsize, MsetData.wait]
    exact ⟨_, rfl, ⟨.inr ⟨rfl, rfl⟩, .inr ⟨rfl, rfl⟩⟩, rfl, rfl, rfl⟩
  · rw [← hsplit] at hres'
    simp only [hres', MsetData.wait]
    exact ⟨_, rfl, ⟨.inr ⟨rfl, rfl⟩, hm.known_len⟩, rfl, rfl, rfl⟩

/-- **One turn with the whole pair** stores it and goes on behind it. -/
lemma itemLoop_pair {key value : Str} (hm : m.Knows key value) (hkey : key.length < 2 ^ 31)
    (hvalue : value.length < 2 ^ 31) {k : ℕ} (hk : (pairBytes (key, value)).length ≤ k) (n : ℕ) :
    itemLoop (n + 1) ((pairBytes (key, value) ++ s).take k) m
      = itemLoop n (s.take (k - (pairBytes (key, value)).length))
        { m with keys_values := m.keys_values.insert key value }.set := by
  have hsplit : pairBytes (key, value) ++ s = bulk key ++ (bulk value ++ s) := by simp [pairBytes]
  have hcut : pairBytes (key, value) ++ s
      = (bulk key ++ (lengthLine value ++ crlf)) ++ (value ++ (crlf ++ s)) := by
    simp [hsplit, bulk]
  have hlen := length_pairBytes key value
  have hbulk := length_bulk key
  have hsize : (pairBytes (key, value)).length ≤ ((pairBytes (key, value) ++ s).take k).length := by
    rw [List.length_take, List.length_append]
    omega
  have hstart : (bulk key).length + (lengthLine value).length + 2
      ≤ ((pairBytes (key, value) ++ s).take k).length := by omega
  have hres := (itemKey_take (s := bulk value ++ s) hm.known_key hkey k).resolve_right
    fun h => by omega
  have hres' := (itemLen_take (m := { m with cur_key := key, cur_key_end := (bulk key).length })
    (s := s) rfl hm.known_len hvalue k).resolve_right fun h => by omega
  have hval : (((pairBytes (key, value) ++ s).take k).drop
      ((bulk key).length + (lengthLine value).length + 2)).take value.length = value := by
    have hl : (bulk key).length + (lengthLine value).length + 2
        = (bulk key ++ (lengthLine value ++ crlf)).length := by
      simp [crlf, lit]
      omega
    rw [List.drop_take, List.take_take, Nat.min_eq_left (by omega), hcut, hl, List.drop_left,
      List.take_left]
  have hrest : ((pairBytes (key, value) ++ s).take k).drop (pairBytes (key, value)).length
      = s.take (k - (pairBytes (key, value)).length) := by
    rw [List.drop_take, List.drop_left]
  rw [← hsplit] at hres hres'
  rw [itemLoop]
  simp only [hres, bind, Except.bind, hres', pairEnd_eq hkey hvalue, if_neg (not_lt.mpr hsize),
    substr_of_le hstart, hval, substrFrom_of_le hsize, hrest]
  rfl

/-- **Many pairs** are stored in order, and the loop goes on behind them. -/
lemma itemLoop_lead (n : ℕ) : ∀ (pairs : List (Str × Str)) {m : MsetData}, m.Idle →
    (pairs.flatMap pairBytes ++ s).length < 2 ^ 31 →
    ∃ m', itemLoop (pairs.length + n) (pairs.flatMap pairBytes ++ s) m = itemLoop n s m' ∧ m'.Idle ∧
      m'.setNum = m.setNum - pairs.length ∧
      m'.keys_values = pairs.foldl (fun d kv => d.insert kv.1 kv.2) m.keys_values
  | [], m, hm, _ => ⟨m, by simp, hm, by simp, rfl⟩
  | (key, value) :: pairs, m, hm, hlen => by
      rw [List.flatMap_cons, List.append_assoc] at hlen ⊢
      rw [List.length_append] at hlen
      have hpair := length_pairBytes key value
      have hbulk := length_bulk key
      have hturn := itemLoop_pair (s := pairs.flatMap pairBytes ++ s) (hm.knows key value) (by omega)
        (by omega) (Nat.le_add_right _ (pairs.flatMap pairBytes ++ s).length) (pairs.length + n)
      rw [List.take_of_length_le (by rw [List.length_append]), Nat.add_sub_cancel_left,
        List.take_length] at hturn
      rw [List.length_cons, Nat.add_right_comm, hturn]
      obtain ⟨m', hloop, hidle, hnum, hvalues⟩ :=
        itemLoop_lead n pairs (Idle.set { m with keys_values := m.keys_values.insert key value })
          (by omega)
      refine ⟨m', hloop, hidle, ?_, hvalues⟩
      simp only [hnum, MsetData.set]
      push_cast
      ring

/-- **All pairs.**  The loop is done. -/
lemma itemLoop_pairs (pairs : List (Str × Str)) {m : MsetData} (hm : m.Idle)
    (hnum : m.setNum = pairs.length) (hlen : (pairs.flatMap pairBytes).length < 2 ^ 31) :
    ∃ m', itemLoop pairs.length (pairs.flatMap pairBytes) m = .ok (0, m') ∧ m'.Idle ∧
      m'.keys_values = pairs.foldl (fun d kv => d.insert kv.1 kv.2) m.keys_values := by
  obtain ⟨m', hloop, hidle, hleft, hvalues⟩ :=
    itemLoop_lead (s := []) 0 pairs hm (by rwa [List.append_nil])
  rw [List.append_nil, Nat.add_zero] at hloop
  have hdone : m'.setNum = 0 := by rw [hleft, hnum, sub_self]
  exact ⟨m', by rw [hloop, itemLoop, if_neg (not_not.mpr hdone)], hidle, hvalues⟩

end Pair

namespace Request

variable {cfg : Config} {now : ℕ} {r : GentRedis} {name : Str}

/-- The first three lines of an `mset` of `n` pairs. -/
def msetLines (name : Str) (n : ℕ) : List Str := [42 :: decimal (2 * n + 1), lengthLine name, name]

/-- An `mset` of `n` pairs whose bytes are `s`. -/
def msetBytes (name : Str) (n : ℕ) (s : Str) : Str := (msetLines name n).flatMap (· ++ crlf) ++ s

lemma noDelim_msetLines (hc : commands name = some .mset) (n : ℕ) :
    ∀ l ∈ msetLines name n, NoDelim l := by
  simpa [msetLines] using ⟨(clean_numberLine 42 (by decide) _).2, (clean_lengthLine _).2,
    (clean_of_commands hc).2⟩

/-- An `mset` of which nothing is missing leaves the connection to the loop. -/
lemma mset_parser_status {v : List Str} {data : Str} {r' : GentRedis}
    (h : GentProcessMset.parser cfg v data r = .ok (0, r')) : r'.curstatus = .CONN_NREAD := by
  have hbody : ∀ {r : GentRedis}, r.curstatus = .CONN_NREAD → ∀ {first : Str} {num : ℤ},
      msetPairs data first num r = .ok (0, r') → r'.curstatus = .CONN_NREAD := by
    intro r hr first num h
    unfold msetPairs at h
    cases hend : headerEnd data first 3 with
    | none =>
        simp only [hend] at h
        cases h
    | some pos =>
        simp only [hend] at h
        obtain ⟨tail, -, h⟩ := bind_eq_ok.mp h
        obtain ⟨⟨ret, m⟩, -, h⟩ := bind_eq_ok.mp h
        obtain ⟨rfl, rfl⟩ := Prod.mk.inj (Except.ok.inj h)
        exact hr
  obtain ⟨a, h⟩ := withAuth_ok h
  dsimp only at h
  split_ifs at h with hnum
  · cases h
  · obtain ⟨first, -, h⟩ := bind_eq_ok.mp h
    obtain ⟨num, -, h⟩ := bind_eq_ok.mp h
    split_ifs at h with hodd
    · cases h
    · exact hbody rfl h

/-- The first three tokens. -/
lemma tokens_mset (hc : commands name = some .mset) (n : ℕ) (s : Str) :
    ∃ w, tokens (msetBytes name n s) = msetLines name n ++ w := by
  obtain ⟨w, hw, -⟩ := tokens_head (clean_numberLine 42 (by decide) (2 * n + 1))
    (clean_lengthLine name) (clean_of_commands hc) s
  exact ⟨w, hw⟩

/-- The number in the first token is that of the pairs. -/
lemma mset_parser_eq (hauth : Authed cfg r) {v : List Str} {a data : Str} {n : ℕ} (h3 : 3 ≤ v.length)
    (ha : v[0]? = some a) (hne : a ≠ []) (hn : 2 * n + 1 < 2 ^ 31)
    (hnum : atoi (a.drop 1) = 2 * n + 1) :
    GentProcessMset.parser cfg v data r
      = msetPairs data a n { r with auth := true, curstatus := .CONN_NREAD } := by
  have hfield : toInt32 (atoi (a.drop 1) - 1) = 2 * n := by
    rw [hnum, add_sub_cancel_right]
    exact toInt32_of_bounds (by omega) (by omega)
  have heven : (2 * (n : ℤ)).tmod 2 = 0 := Int.mul_tmod_right 2 _
  have hhalf : (2 * (n : ℤ)).tdiv 2 = n := Int.mul_tdiv_cancel_left _ (by decide)
  rw [GentProcessMset.parser, withAuth_eq hauth, if_neg (by omega), elemAt_of_eq_some ha, ok_bind,
    substrFrom_of_le (List.length_pos_of_ne_nil hne), ok_bind]
  dsimp only
  rw [hfield, heven, hhalf, if_neg (by simp)]

/-- The parser hands the bytes behind the header to the loop. -/
lemma mset_parser_bytes (hauth : Authed cfg r) (hc : commands name = some .mset) {n : ℕ}
    (hn : 2 * n + 1 < 2 ^ 31) (s : Str) :
    GentProcessMset.parser cfg (tokens (msetBytes name n s)) (msetBytes name n s) r
      = (itemLoop n s { r.mdata with totalSetNum := n, setNum := n }).map fun p =>
        (p.1, { r with
          auth := true
          mdata := p.2
          curstatus := if p.1 = mgetReq then .CONN_CONREAD else .CONN_NREAD }) := by
  obtain ⟨w, htok⟩ := tokens_mset hc n s
  set data := msetBytes name n s with hdata
  have hfirst : (tokens data)[0]? = some (42 :: decimal (2 * n + 1)) := by rw [htok]; rfl
  have hnum : atoi ((42 :: decimal (2 * n + 1)).drop 1) = 2 * n + 1 := by
    show atoi (decimal (2 * n + 1)) = _
    rw [atoi_decimal hn]
    push_cast
    rfl
  obtain ⟨pos, hend, hpos, hdrop⟩ := headerEnd_of_lines _ _ hdata (noDelim_msetLines hc n)
    (show ∃ b t, data = b :: t ∧ b ∈ 42 :: decimal (2 * n + 1) from ⟨42, _, rfl, by simp⟩)
  rw [mset_parser_eq hauth (by rw [htok]; simp [msetLines]) hfirst (by simp) hn hnum, msetPairs,
    show headerEnd _ _ 3 = some pos from hend]
  simp only [substrFrom_of_le hpos, hdrop, ok_bind, itemParser, Int.toNat_natCast]
  cases itemLoop n s { r.mdata with totalSetNum := n, setNum := n } with
  | error f => rfl
  | ok p =>
      simp only [Except.map, ok_bind, pure, Except.pure]
      split_ifs <;> rfl

/-- **An `mset` is its pairs**: what becomes of the request is what becomes of the loop. -/
lemma process_mset_iff (hauth : Authed cfg r) (hc : commands name = some .mset) {n : ℕ}
    (hn : 2 * n + 1 < 2 ^ 31) (s : Str) (P : MsetData → Prop) :
    (∃ r', process cfg now r (msetBytes name n s) = .ok (0, [], r') ∧ r'.subc = some .mset ∧
        P r'.mdata) ↔
      ∃ m', itemLoop n s { r.mdata with totalSetNum := n, setNum := n } = .ok (0, m') ∧ P m' := by
  have hauth' : Authed cfg { r with subc := some .mset } := hauth
  obtain ⟨w, htok⟩ := tokens_mset hc n s
  have hthird : (tokens (msetBytes name n s))[2]? = some name := by rw [htok]; rfl
  rw [process_done_iff hthird hc]
  have hcommand : Command.mset.parser cfg now (tokens (msetBytes name n s)) (msetBytes name n s)
      { r with subc := some .mset } = _ := mset_parser_bytes hauth' hc hn s
  rw [hcommand]
  constructor
  · rintro ⟨r', hr', -, hP⟩
    cases hloop : itemLoop n s { r.mdata with totalSetNum := n, setNum := n } with
    | error f => simp [hloop, Except.map] at hr'
    | ok res =>
        obtain ⟨ret, m'⟩ := res
        rw [hloop] at hr'
        simp only [Except.map, Except.ok.injEq, Prod.mk.injEq] at hr'
        obtain ⟨rfl, rfl⟩ := hr'
        exact ⟨m', rfl, hP⟩
  · rintro ⟨m', hloop, hP⟩
    exact ⟨_, by rw [hloop]; rfl, rfl, hP⟩

/-- The request of a client. -/
lemma bytes_mset (pairs : List (Str × Str)) :
    (mset pairs).bytes name = msetBytes name pairs.length (pairs.flatMap pairBytes) := by
  have hargs : (mset pairs).args.flatMap bulk = pairs.flatMap pairBytes := by
    rw [args, List.flatMap_assoc]
    refine List.flatMap_congr fun kv _ => ?_
    simp [pairBytes]
  have hcount : countLine (name :: (mset pairs).args) = 42 :: decimal (2 * pairs.length + 1) := by
    have hlen : (name :: (mset pairs).args).length = 2 * pairs.length + 1 := by
      simp [args, List.length_flatMap]
      omega
    rw [countLine, hlen]
    rfl
  rw [bytes, encode, List.flatMap_cons, hargs, hcount]
  simp [msetBytes, msetLines, bulk]

/-- **Any pairs will do.** -/
lemma mset_acts (hauth : Authed cfg r) (hidle : r.mdata.Idle) (hnone : r.mdata.keys_values = ∅)
    {pairs : List (Str × Str)} (hc : commands name = some .mset)
    (hlen : ((mset pairs).bytes name).length < 2 ^ 31) : (mset pairs).Acts cfg now r name := by
  have hnum : 2 * pairs.length + 1 < 2 ^ 31 := by
    have := length_of_encode hlen
    simp only [args, List.length_cons, List.length_flatMap, List.length_nil, List.map_const',
      List.sum_replicate, smul_eq_mul] at this
    omega
  have hpairs : (pairs.flatMap pairBytes).length < 2 ^ 31 := by
    rw [bytes_mset, msetBytes, List.length_append] at hlen
    omega
  obtain ⟨m', hloop, -, hvalues⟩ := itemLoop_pairs pairs
    (m := { r.mdata with totalSetNum := pairs.length, setNum := pairs.length }) hidle rfl hpairs
  show ∃ r', process cfg now r ((mset pairs).bytes name) = .ok (0, [], r') ∧ _
  rw [bytes_mset]
  exact (process_mset_iff hauth hc hnum _ fun m => m.keys_values = _).mpr
    ⟨m', hloop, hvalues.trans (by rw [hnone])⟩

/-- **Which requests are acted on as sent.**  The handler is between two requests, and the request
comes in one piece. -/
theorem acts_iff (cfg : Config) (now : ℕ) (r : GentRedis) (name : Str) (q : Request)
    (hauth : Authed cfg r) (hidle : r.mdata.Idle) (hnone : r.mdata.keys_values = ∅)
    (hname : commands name = some q.command) (hadm : q.Admissible name) :
    q.Acts cfg now r name ↔ q.Plain := by
  cases q with
  | keyed c key => exact keyed_acts_iff hauth hname hadm.1
  | auth password => exact auth_acts_iff hname hadm.1
  | set key value => exact set_acts_iff hauth hname hadm
  | setex key seconds value => exact setex_acts_iff hauth hname hadm
  | mset pairs => exact iff_of_true (mset_acts hauth hidle hnone hname hadm.1) trivial
  | mget keys => exact mget_acts_iff hauth hname hadm

/-- A key with a space in it, for `set`. -/
theorem acts_iff_set_spaced :
    (set (lit "a b") (lit "1\r\n2")).Acts openConfig 0 newRedis (lit "SET") :=
  (acts_iff openConfig 0 newRedis (lit "SET") (set (lit "a b") (lit "1\r\n2")) (Or.inr rfl)
    ⟨rfl, rfl⟩ rfl rfl ⟨by decide, by decide⟩).mpr
    ⟨show ∀ b ∈ lit "a b", b ∉ crlf by decide, fun h => absurd h (by decide)⟩

/-- **A key that `mset` stores and that `get` and `del` do not find**: they report an unknown
command. -/
theorem mset_key_lost :
    (mset [(lit "a\r\nb", lit "v")]).Acts openConfig 0 newRedis (lit "mset") ∧
    ¬ (keyed .get (lit "a\r\nb")).Acts openConfig 0 newRedis (lit "get") ∧
    ¬ (keyed .del (lit "a\r\nb")).Acts openConfig 0 newRedis (lit "del") := by
  have hdirty : ¬ Clean (lit "a\r\nb") := by decide
  refine ⟨mset_acts (Or.inr rfl) ⟨rfl, rfl⟩ rfl rfl (by decide), ?_, ?_⟩
  · exact fun h => hdirty ((keyed_acts_iff (Or.inr rfl) rfl (by decide)).mp h)
  · exact fun h => hdirty ((keyed_acts_iff (Or.inr rfl) rfl (by decide)).mp h)

end Request

end Riser
