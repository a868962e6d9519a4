import Riser.Redis.Request

/-!
# Pieces of a request

`Process` is handed what a read has brought, and that may be a part of a request.  It does not know.
The lines that are there are its tokens (`fields_take`), and it takes them for the whole:

* what ends within the first line has no token, and is dropped (`tokens_of_clean`).  What follows is
  the request with another first line (`withFirst`), at which most parsers do not look;
* what ends later is a request with too few tokens (`process_take`): an error, or, if all that is
  missing of the header is its last byte, an exception of `substr`;
* only the last byte of a request in one stage is not missed (`process_dropLast`).
-/

namespace Riser

open Cpp

/-! ## The beginning of some lines -/

/-- How many lines end within the first `p` bytes.  A line ends with the first byte of its
delimiter. -/
def linesSeen : List Str → ℕ → ℕ
  | [], _ => 0
  | l :: lines, p => if p ≤ l.length then 0 else linesSeen lines (p - (l.length + 2)) + 1

section Lines

variable {l : Str} {lines : List Str} {p : ℕ}

lemma flatMap_crlf_cons (l : Str) (lines : List Str) :
    (l :: lines).flatMap (· ++ crlf) = l ++ 13 :: 10 :: lines.flatMap (· ++ crlf) := by
  simp [crlf, lit]

/-- Inside the first line. -/
lemma take_lines_of_le (hp : p ≤ l.length) :
    ((l :: lines).flatMap (· ++ crlf)).take p = l.take p := by
  rw [flatMap_crlf_cons, List.take_append_of_le_length hp]

/-- Behind it. -/
lemma take_lines_of_lt (hp : l.length < p) :
    ((l :: lines).flatMap (· ++ crlf)).take p
      = l ++ 13 :: (10 :: lines.flatMap (· ++ crlf)).take (p - (l.length + 1)) := by
  rw [flatMap_crlf_cons, List.take_append, List.take_of_length_le (by omega),
    show p - l.length = p - (l.length + 1) + 1 by omega, List.take_succ_cons]

lemma drop_take_lines (l : Str) (lines : List Str) (p : ℕ) :
    (((l :: lines).flatMap (· ++ crlf)).take p).drop (l.length + 2)
      = (lines.flatMap (· ++ crlf)).take (p - (l.length + 2)) := by
  rw [List.drop_take, flatMap_crlf_cons, ← List.drop_drop, List.drop_left]
  rfl

lemma linesSeen_le : ∀ (lines : List Str) (p : ℕ), linesSeen lines p ≤ lines.length
  | [], _ => le_rfl
  | l :: lines, p => by
      rw [linesSeen, List.length_cons]
      split_ifs
      · exact Nat.zero_le _
      · exact Nat.succ_le_succ (linesSeen_le lines _)

/-- All of them, if no more than the last byte is missing. -/
lemma linesSeen_eq_length : ∀ {lines : List Str} {p : ℕ}, lines ≠ [] →
    (linesSeen lines p = lines.length ↔ (lines.flatMap (· ++ crlf)).length ≤ p + 1)
  | [l], p, _ => by
      have hlen : ([l].flatMap (· ++ crlf)).length = l.length + 2 := by simp [crlf, lit]
      rw [hlen, linesSeen]
      split_ifs with hp
      · exact iff_of_false (by simp) (by omega)
      · exact iff_of_true rfl (by omega)
  | l :: l' :: lines, p, _ => by
      have hlen : ((l :: l' :: lines).flatMap (· ++ crlf)).length
          = l.length + 2 + ((l' :: lines).flatMap (· ++ crlf)).length := by
        rw [flatMap_crlf_cons, List.length_append, List.length_cons, List.length_cons]
        omega
      have hpos : 2 ≤ ((l' :: lines).flatMap (· ++ crlf)).length := by
        rw [flatMap_crlf_cons, List.length_append, List.length_cons, List.length_cons]
        omega
      rw [hlen, linesSeen, List.length_cons]
      split_ifs with hp
      · exact iff_of_false (by simp) (by omega)
      · rw [Nat.add_right_cancel_iff, linesSeen_eq_length (List.cons_ne_nil l' lines)]
        omega

/-- **The tokens of the beginning** are the lines that have ended. -/
lemma fields_take : ∀ {lines : List Str} (p : ℕ), (∀ l ∈ lines, Clean l) →
    fields ((lines.flatMap (· ++ crlf)).take p) = lines.take (linesSeen lines p)
  | [], p, _ => by
      rw [List.flatMap_nil, List.take_nil]
      exact fields_of_clean (by simp)
  | l :: lines, p, h => by
      have hl := h l (by simp)
      rw [linesSeen]
      split_ifs with hp
      · rw [take_lines_of_le hp]
        exact fields_of_clean fun b hb => hl.2 b (List.mem_of_mem_take hb)
      · have hrest : ((10 :: lines.flatMap (· ++ crlf)).take (p - (l.length + 1))).drop 1
            = (lines.flatMap (· ++ crlf)).take (p - (l.length + 2)) := by
          rw [List.drop_take]
          rfl
        rw [take_lines_of_lt (by omega), fields_field hl (by decide), hrest,
          fields_take _ fun l hl => h l (by simp [hl]), List.take_succ_cons]

/-- Counting lines from a position on. -/
lemma skipLines_drop (s : Str) (n pos : ℕ) :
    skipLines s n pos = (skipLines (s.drop pos) n 0).map (pos + ·) := by
  by_cases hle : pos ≤ s.length
  · have hlen : (s.take pos).length = pos := by simp [hle]
    have hshift := skipLines_shift (s.take pos) (s.drop pos) n 0
    rwa [List.take_append_drop, hlen, Nat.add_zero] at hshift
  · rw [List.drop_of_length_le (by omega)]
    cases n with
    | zero => rfl
    | succ n =>
        rw [skipLines, skipLines, findFirstOf_of_le (by omega), findFirstOf_of_le (by simp)]
        rfl

/-- **Counting the lines of the beginning.**  The position may be one behind its end. -/
lemma skipLines_take : ∀ {lines : List Str} (p n : ℕ), (∀ l ∈ lines, NoDelim l) →
    skipLines ((lines.flatMap (· ++ crlf)).take p) n 0
      = if n ≤ linesSeen lines p then some ((lines.take n).flatMap (· ++ crlf)).length else none
  | _, _, 0, _ => rfl
  | [], p, n + 1, _ => by
      rw [List.flatMap_nil, List.take_nil]
      rfl
  | l :: lines, p, n + 1, h => by
      have hl := h l (by simp)
      rw [linesSeen]
      by_cases hp : p ≤ l.length
      · rw [if_pos hp, if_neg (by omega), take_lines_of_le hp, skipLines,
          findFirstOf_eq_none fun b hb => hl b (List.mem_of_mem_take (by simpa using hb))]
        rfl
      · have hfind : findFirstOf (((l :: lines).flatMap (· ++ crlf)).take p) crlf 0 = some l.length := by
          rw [take_lines_of_lt (by omega)]
          exact findFirstOf_zero hl (by decide)
        rw [if_neg hp, skipLines, hfind, Option.bind_some, skipLines_drop, drop_take_lines,
          skipLines_take _ n fun l hl => h l (by simp [hl])]
        by_cases hn : n ≤ linesSeen lines (p - (l.length + 2))
        · rw [if_pos hn, if_pos (by omega), List.take_succ_cons, flatMap_crlf_cons]
          simp only [Option.map_some, List.length_append, List.length_cons, Option.some.injEq]
          omega
        · rw [if_neg hn, if_neg (by omega)]
          rfl

end Lines

/-- Bytes without a delimiter have no token. -/
lemma tokens_of_clean {s : Str} (hs : NoDelim s) : tokens s = [] := by
  have hnil : fields s = [] := fields_of_clean hs
  rw [tokens_eq_fields, hnil]
  rw [hnil]
  rintro n ⟨hlen, -⟩
  simp at hlen

/-! ## Requests as lines -/

/-- A request of a client. -/
inductive ClientRequest where
  | ping
  | slave (id : Str)
  | of (q : Request)

namespace ClientRequest

/-- The command. -/
def command : ClientRequest → Command
  | ping => .ping
  | slave _ => .slave
  | of q => q.command

/-- The arguments. -/
def args : ClientRequest → List Str
  | ping => []
  | slave id => [id, lit "clear"]
  | of q => q.args

/-- The bytes of the request, under the given name of its command. -/
def bytes (name : Str) (q : ClientRequest) : Str := encode (name :: q.args)

/-- What a client may send and the server understands (`Request.acts_iff`). -/
def WellFormed (name : Str) (q : ClientRequest) : Prop :=
  (q.bytes name).length < 2 ^ 31 ∧
  match q with
  | ping => True
  | slave id => Clean id
  | of (.keyed _ key) => Clean key
  | of (.auth password) => Clean password
  | of (.set key _) => Clean key ∧ key.length < 250
  | of (.setex key seconds _) => Clean key ∧ key.length < 250 ∧ -2 ^ 31 ≤ seconds ∧ seconds < 2 ^ 31
  | of (.mset _) => True
  | of (.mget keys) => keys ≠ [] ∧ ∀ key ∈ keys, Clean key

/-- The lines of the header behind the first.  A request in one stage is all header. -/
def lines (name : Str) : ClientRequest → List Str
  | of (.set key value) => [lengthLine name, name, lengthLine key, key, lengthLine value]
  | of (.setex key seconds value) =>
      [lengthLine name, name, lengthLine key, key, lengthLine (decimalInt seconds), decimalInt seconds,
        lengthLine value]
  | of (.mset _) => [lengthLine name, name]
  | q => (name :: q.args).flatMap fun a => [lengthLine a, a]

/-- What follows the header. -/
def rest : ClientRequest → Str
  | of (.set _ value) => value ++ crlf
  | of (.setex _ _ value) => value ++ crlf
  | of (.mset pairs) => pairs.flatMap pairBytes
  | _ => []

/-- The first line. -/
def first (name : Str) (q : ClientRequest) : Str := countLine (name :: q.args)

/-- The request with another first line. -/
def withFirst (name : Str) (q : ClientRequest) (a : Str) : Str :=
  (a :: q.lines name).flatMap (· ++ crlf) ++ q.rest

/-- The header. -/
def header (name : Str) (q : ClientRequest) : Str :=
  (q.first name :: q.lines name).flatMap (· ++ crlf)

lemma length_mset_args (pairs : List (Str × Str)) :
    (of (.mset pairs)).args.length = 2 * pairs.length := by
  simp [args, Request.args, List.length_flatMap]
  omega

lemma bytes_eq (name : Str) (q : ClientRequest) : q.bytes name = q.withFirst name (q.first name) := by
  have hsingle : ∀ args : List Str, encode args
      = (countLine args :: args.flatMap fun a => [lengthLine a, a]).flatMap (· ++ crlf) := by
    intro args
    rw [encode, flatMap_bulk, List.flatMap_cons, List.append_assoc]
  cases q with
  | ping => rw [bytes, hsingle]; exact (List.append_nil _).symm
  | slave id => rw [bytes, hsingle]; exact (List.append_nil _).symm
  | of q =>
      cases q with
      | keyed c key => rw [bytes, hsingle]; exact (List.append_nil _).symm
      | auth password => rw [bytes, hsingle]; exact (List.append_nil _).symm
      | set key value => exact encode_headLines [name, key] value
      | setex key seconds value => exact encode_headLines [name, key, decimalInt seconds] value
      | mset pairs =>
          have hbytes : (Request.mset pairs).bytes name = _ := Request.bytes_mset pairs
          have hfirst : 42 :: decimal (2 * pairs.length + 1) = (of (.mset pairs)).first name := by
            rw [first, countLine, List.length_cons, length_mset_args]
            rfl
          rw [withFirst, ← hfirst]
          exact hbytes
      | mget keys => rw [bytes, hsingle]; exact (List.append_nil _).symm

lemma bytes_eq_header (name : Str) (q : ClientRequest) : q.bytes name = q.header name ++ q.rest :=
  bytes_eq name q

section Tokens

variable {name a : Str} {q : ClientRequest}

lemma clean_first (name : Str) (q : ClientRequest) : Clean (q.first name) := clean_countLine _

/-- The name of the command is the third line. -/
lemma lines_eq (name : Str) (q : ClientRequest) :
    ∃ more, q.lines name = lengthLine name :: name :: more := by
  cases q with
  | ping => exact ⟨_, rfl⟩
  | slave id => exact ⟨_, rfl⟩
  | of q => cases q <;> exact ⟨_, rfl⟩

/-- Two lines for each argument. -/
lemma clean_argLines {args : List Str} (h : ∀ a ∈ args, Clean a) :
    ∀ l ∈ args.flatMap fun a => [lengthLine a, a], Clean l := by
  intro l hl
  obtain ⟨a, ha, hl⟩ := List.mem_flatMap.mp hl
  rcases List.mem_pair.mp hl with rfl | rfl
  · exact clean_lengthLine a
  · exact h _ ha

lemma clean_lines (hname : commands name = some q.command) (hwf : q.WellFormed name) :
    ∀ l ∈ q.lines name, Clean l := by
  have hclean := clean_of_commands hname
  obtain ⟨-, hwf⟩ := hwf
  cases q with
  | ping => exact clean_argLines (by simpa [args] using hclean)
  | slave id =>
      exact clean_argLines (by simpa [args] using ⟨hclean, hwf, show Clean (lit "clear") by decide⟩)
  | of q =>
      cases q with
      | keyed c key => exact clean_argLines (by simpa [args, Request.args] using ⟨hclean, hwf⟩)
      | auth password => exact clean_argLines (by simpa [args, Request.args] using ⟨hclean, hwf⟩)
      | set key value =>
          simpa [lines] using ⟨clean_lengthLine _, hclean, clean_lengthLine _, hwf.1, clean_lengthLine _⟩
      | setex key seconds value =>
          simpa [lines] using ⟨clean_lengthLine _, hclean, clean_lengthLine _, hwf.1,
            clean_lengthLine _, Request.clean_decimalInt _, clean_lengthLine _⟩
      | mset pairs => simpa [lines] using ⟨clean_lengthLine _, hclean⟩
      | mget keys => exact clean_argLines (by simpa [args, Request.args] using ⟨hclean, hwf.2⟩)

lemma clean_withFirst (hname : commands name = some q.command) (hwf : q.WellFormed name)
    (ha : Clean a) : ∀ l ∈ a :: q.lines name, Clean l := by
  simpa using ⟨ha, clean_lines hname hwf⟩

/-- Only the header of `mset` is followed by something else than tokens, and that header is short. -/
lemma lines_mset (hc : q.command = .mset) : (q.lines name).length = 2 := by
  cases q with
  | ping => cases hc
  | slave id => cases hc
  | of q =>
      cases q with
      | keyed c key => cases c <;> cases hc
      | auth password => cases hc
      | set key value => cases hc
      | setex key seconds value => cases hc
      | mset pairs => rfl
      | mget keys => cases hc

/-- **The tokens of the beginning of a header.** -/
lemma tokens_take (hname : commands name = some q.command) (hwf : q.WellFormed name) (ha : Clean a)
    (p : ℕ) : tokens (((a :: q.lines name).flatMap (· ++ crlf)).take p)
      = (a :: q.lines name).take (linesSeen (a :: q.lines name) p) := by
  have hfields := fields_take p (clean_withFirst hname hwf ha)
  rw [tokens_eq_fields, hfields]
  rw [hfields]
  rintro n ⟨hlen, hthird⟩
  rw [List.take_take] at hlen hthird
  obtain ⟨more, hmore⟩ := lines_eq name q
  by_cases hc : q.command = .mset
  · rw [List.length_take, List.length_cons, lines_mset hc] at hlen
    omega
  · have hname' : (a :: q.lines name)[2]? = some name := by rw [hmore]; rfl
    rw [List.length_take] at hlen
    rw [List.getElem?_take_of_lt (by omega), hname', Option.some.injEq, Option.some.injEq] at hthird
    exact hthird.elim (name_ne_mset hname hc).1 (name_ne_mset hname hc).2

/-- The tokens of a request other than `mset`, whatever its first line is. -/
lemma tokens_withFirst (hname : commands name = some q.command) (hwf : q.WellFormed name)
    (hc : q.command ≠ .mset) (ha : Clean a) :
    tokens (q.withFirst name a) = a :: q.lines name ++ fields q.rest := by
  have hfields : fields (q.withFirst name a) = a :: q.lines name ++ fields q.rest :=
    fields_lines q.rest (clean_withFirst hname hwf ha)
  have hthird : (a :: q.lines name ++ fields q.rest)[2]? = some name := by
    obtain ⟨more, hmore⟩ := lines_eq name q
    rw [hmore]
    rfl
  rw [tokens_eq_fields, hfields]
  rw [hfields]
  exact not_msetStop_of_third hthird (name_ne_mset hname hc)

end Tokens

end ClientRequest

/-! ## What fails -/

/-- The bytes are answered with an error, or end the server. -/
def Fails (cfg : Config) (now : ℕ) (r : GentRedis) (data : Str) : Prop :=
  (∃ f, process cfg now r data = .error f) ∨
    ∃ status text r', (status = -1 ∨ status = -2) ∧ errorText status = some text ∧
      process cfg now r data = .ok (0, text, r')

section Fails

variable {cfg : Config} {now : ℕ} {r r' : GentRedis} {data name : Str} {c : Command}

lemma fails_of_none (h : (tokens data)[2]?.bind commands = none) (hne : tokens data ≠ []) :
    Fails cfg now r data :=
  Or.inr ⟨-1, _, r, Or.inl rfl, rfl, by rw [process_none h, if_neg hne]⟩

lemma fails_of_parse (hname : (tokens data)[2]? = some name) (hc : commands name = some c) {status : ℤ}
    (hst : status = -1 ∨ status = -2)
    (h : c.parser cfg now (tokens data) data { r with subc := some c } = .ok (status, r')) :
    Fails cfg now r data := by
  obtain ⟨text, htext⟩ : ∃ text, errorText status = some text := by
    rcases hst with rfl | rfl <;> exact ⟨_, rfl⟩
  refine Or.inr ⟨status, text, r', hst, htext, ?_⟩
  rw [process_eq hname hc, h, ok_bind]
  simp only [htext]
  rfl

lemma fails_of_fault (hname : (tokens data)[2]? = some name) (hc : commands name = some c) {f : Fault}
    (h : c.parser cfg now (tokens data) data { r with subc := some c } = .error f) :
    Fails cfg now r data :=
  Or.inl ⟨f, by rw [process_eq hname hc, h]; rfl⟩

variable {v : List Str} {n i pos lines : ℕ} {marks line : Str} {body : ℕ → GentRedis → Parsed}

lemma keyParser_short {wrong : ℤ} (hauth : Authed cfg r) (h : v.length ≠ 5) :
    keyParser wrong cfg v r = .ok (wrong, { r with auth := true }) := by
  rw [keyParser, withAuth_eq hauth, if_pos h]
  rfl

/-- A parser that finds too few tokens, or too few lines, or a value that cannot start. -/
lemma valueParser_fails (hauth : Authed cfg r) (hv : ∀ t ∈ v, Clean t) (hn : 5 ≤ n)
    (hkey : n ≤ v.length → (argOf v 3).length < 250)
    (hend : headerEnd data marks lines = if lines ≤ v.length then some pos else none)
    (hbody : lines ≤ v.length → ∀ r, body pos r = .error .outOfRange) :
    (∃ r', valueParser n marks lines body cfg v data r = .ok (-1, r')) ∨
      ∃ f, valueParser n marks lines body cfg v data r = .error f := by
  by_cases hnum : v.length < n
  · exact Or.inl ⟨_, valueParser_short hauth hnum⟩
  have hnum : n ≤ v.length := by omega
  have hshort := hkey hnum
  rw [valueParser_key hauth hv hn hnum, if_neg (by omega), hend]
  by_cases hlines : lines ≤ v.length
  · rw [if_pos hlines]
    exact Or.inr ⟨_, hbody hlines _⟩
  · rw [if_neg hlines]
    exact Or.inl ⟨_, rfl⟩

/-- The value starts behind the end of what is there. -/
lemma takeContent_fault (hline : v[i]? = some line) (hne : line ≠ []) (hpos : data.length < pos) :
    takeContent v i data pos r = .error .outOfRange := by
  rw [takeContent, elemAt_of_eq_some hline, ok_bind, getLength_eq hne, ok_bind,
    substrFrom_of_lt hpos]
  rfl

lemma mgetKeys_short {fieldNum : ℤ} (h : (v.length : ℤ) ≠ toInt32 (fieldNum * 2 + 1)) :
    mgetKeys v fieldNum r = .ok (-1, r) := by
  rw [mgetKeys, if_pos (Or.inr h)]
  rfl

end Fails

namespace ClientRequest

variable {cfg : Config} {now : ℕ} {r : GentRedis} {name : Str} {q : ClientRequest}

/-- All of the request is header. -/
def OneStage : ClientRequest → Prop
  | of (.set _ _) => False
  | of (.setex _ _ _) => False
  | of (.mset _) => False
  | _ => True

lemma length_argLines (args : List Str) :
    (args.flatMap fun a => [lengthLine a, a]).length = 2 * args.length := by
  simp [List.length_flatMap]
  omega

lemma length_lines (h : q.OneStage) : (q.lines name).length = 2 * q.args.length + 2 := by
  have hlen := length_argLines (name :: q.args)
  rw [List.length_cons, Nat.mul_succ] at hlen
  cases q with
  | ping => exact hlen
  | slave id => exact hlen
  | of q =>
      cases q with
      | keyed c key => exact hlen
      | auth password => exact hlen
      | set key value => exact h.elim
      | setex key seconds value => exact h.elim
      | mset pairs => exact h.elim
      | mget keys => exact hlen

/-- The number in the first line of an `mset`. -/
lemma atoi_first {pairs : List (Str × Str)} (hwf : (of (.mset pairs)).WellFormed name) :
    2 * pairs.length + 1 < 2 ^ 31 ∧
      atoi (((of (.mset pairs)).first name).drop 1) = 2 * pairs.length + 1 := by
  have hnum : (name :: (of (.mset pairs)).args).length * 2 + 1 < 2 ^ 31 := length_of_encode hwf.1
  rw [List.length_cons, length_mset_args] at hnum
  refine ⟨by omega, ?_⟩
  show atoi (decimal (name :: (of (.mset pairs)).args).length) = _
  rw [List.length_cons, length_mset_args, atoi_decimal (by omega)]
  push_cast
  rfl

/-- The number in the first line. -/
lemma lengthOf_first (hwf : q.WellFormed name) : lengthOf (q.first name) = q.args.length + 1 := by
  have hnum : (name :: q.args).length * 2 + 1 < 2 ^ 31 := length_of_encode hwf.1
  show toUInt64 (atoi (decimal (name :: q.args).length)) = _
  rw [atoi_decimal (by omega), toUInt64_natCast (by omega), List.length_cons]

lemma mget_parser_short (hauth : Authed cfg r) {v : List Str} {a : Str} {num : ℕ}
    (ha : v[0]? = some a) (hne : a ≠ []) (hnum : num * 2 + 1 < 2 ^ 31) (hlen : lengthOf a = num)
    (h : v.length ≠ num * 2 + 1) :
    GentProcessMget.parser cfg v r = .ok (-1, { r with auth := true }) := by
  have hfield : toInt32 ((num : ℕ) : ℤ) = num := toInt32_of_bounds (by omega) (by omega)
  have htwice : toInt32 ((num : ℤ) * 2 + 1) = num * 2 + 1 :=
    toInt32_of_bounds (by omega) (by omega)
  rw [GentProcessMget.parser, withAuth_eq hauth, elemAt_of_eq_some ha, ok_bind, getLength_eq hne,
    ok_bind, hlen, hfield]
  exact mgetKeys_short (by rw [htwice]; omega)

/-- **Too few tokens**, for a request in one stage. -/
lemma parser_short (hauth : Authed cfg r) (hwf : q.WellFormed name) (hstage : q.OneStage)
    {v : List Str} {data : Str} (hfirst : v[0]? = some (q.first name)) (h3 : 3 ≤ v.length)
    (hlt : v.length < 2 * q.args.length + 3) :
    ∃ status r', (status = -1 ∨ status = -2) ∧
      q.command.parser cfg now v data r = .ok (status, r') := by
  have hone : ∀ {args : List Str}, args.length = 1 → v.length < 2 * args.length + 3 → v.length ≠ 5 := by
    intro args hargs hlt
    omega
  cases q with
  | ping =>
      simp only [args, List.length_nil] at hlt
      omega
  | slave id =>
      refine ⟨-1, { r with auth := true }, Or.inl rfl, ?_⟩
      simp only [args, List.length_cons, List.length_nil] at hlt
      rw [command, Command.parser, GentProcessSlave.parser, withAuth_eq hauth, if_pos (by omega)]
      rfl
  | of q =>
      cases q with
      | keyed c key =>
          have h5 := hone rfl hlt
          cases c with
          | get => exact ⟨-1, _, Or.inl rfl, keyParser_short hauth h5⟩
          | ttl => exact ⟨-1, _, Or.inl rfl, keyParser_short hauth h5⟩
          | del => exact ⟨-1, _, Or.inl rfl, keyParser_short hauth h5⟩
          | keyExists => exact ⟨-1, _, Or.inl rfl, keyParser_short hauth h5⟩
          | keys => exact ⟨-2, _, Or.inr rfl, keyParser_short hauth h5⟩
      | auth password =>
          refine ⟨-1, r, Or.inl rfl, ?_⟩
          show GentProcessAuth.parser cfg v r = _
          rw [GentProcessAuth.parser, if_pos (hone rfl hlt)]
          rfl
      | set key value => exact hstage.elim
      | setex key seconds value => exact hstage.elim
      | mset pairs => exact hstage.elim
      | mget keys =>
          have hnum : (name :: keys).length * 2 + 1 < 2 ^ 31 := length_of_encode hwf.1
          rw [List.length_cons] at hnum
          exact ⟨-1, _, Or.inl rfl, mget_parser_short hauth hfirst (clean_first name _).1 hnum
            (lengthOf_first hwf) (by
              simp only [args, Request.args] at hlt
              omega)⟩

/-- Looking for the end of the header in its beginning. -/
lemma headerEnd_take (hname : commands name = some q.command) (hwf : q.WellFormed name) {p : ℕ}
    (hp : 0 < p) {marks : Str} (hmarks : 42 ∈ marks) (n : ℕ) :
    headerEnd ((q.header name).take p) marks n
      = if n ≤ linesSeen (q.first name :: q.lines name) p then
          some (((q.first name :: q.lines name).take n).flatMap (· ++ crlf)).length
        else none := by
  have hfind : findFirstOf ((q.header name).take p) marks 0 = some 0 := by
    obtain ⟨p, rfl⟩ : ∃ p', p = p' + 1 := ⟨p - 1, by omega⟩
    exact findFirstOf_zero (a := []) (b := 42) (by simp) hmarks
  rw [headerEnd, hfind, Option.bind_some]
  exact skipLines_take p n fun l hl => (clean_withFirst hname hwf (clean_first name q) l hl).2

/-- A beginning of the header with at least three tokens. -/
structure Begins (name : Str) (q : ClientRequest) (data : Str) : Prop where
  short : data.length < (q.header name).length
  three : 3 ≤ (tokens data).length
  get : ∀ i < (tokens data).length, (tokens data)[i]? = (q.first name :: q.lines name)[i]?
  le : (tokens data).length ≤ (q.lines name).length + 1
  headerEnd : ∀ {marks : Str}, 42 ∈ marks → headerEnd data marks ((q.lines name).length + 1)
    = if (q.lines name).length + 1 ≤ (tokens data).length then some (q.header name).length else none

lemma begins (hname : commands name = some q.command) (hwf : q.WellFormed name) {p : ℕ}
    (hhi : p < (q.header name).length)
    (h3 : 3 ≤ linesSeen (q.first name :: q.lines name) p) : q.Begins name ((q.header name).take p) := by
  have htok : tokens ((q.header name).take p) = (q.first name :: q.lines name).take _ :=
    tokens_take hname hwf (clean_first name q) p
  have hle : linesSeen (q.first name :: q.lines name) p ≤ (q.lines name).length + 1 := linesSeen_le _ _
  have hlen : (tokens ((q.header name).take p)).length
      = linesSeen (q.first name :: q.lines name) p := by
    rw [htok, List.length_take, List.length_cons]
    omega
  have hpos : 0 < p := by
    by_contra hzero
    rw [linesSeen, if_pos (by omega)] at h3
    omega
  refine ⟨?_, by omega, fun i hi => ?_, by omega, fun hmarks => ?_⟩
  · rw [List.length_take]
    omega
  · rw [htok, List.getElem?_take_of_lt (by omega)]
  · rw [headerEnd_take hname hwf hpos hmarks, hlen, header, ← List.length_cons, List.take_length]

namespace Begins

variable {data : Str}

lemma third (h : q.Begins name data) : (tokens data)[2]? = some name := by
  obtain ⟨more, hmore⟩ := lines_eq name q
  have h3 := h.three
  rw [h.get 2 (by omega), hmore]
  rfl

/-- A key that is there is found. -/
lemma key {key : Str} (h : q.Begins name data) (hkey : key.length < 250)
    (hline : (q.lines name)[2]? = some (lengthLine key)) (harg : (q.lines name)[3]? = some key) {n : ℕ}
    (hn : 5 ≤ n) (hnum : n ≤ (tokens data).length) : (argOf (tokens data) 3).length < 250 := by
  rw [argOf_eq (by omega) ((h.get 3 (by omega)).trans hline)
    (Or.inr ((h.get 4 (by omega)).trans harg))]
  exact hkey

/-- **A value that is not there.** -/
lemma fails_value (h : q.Begins name data) (hauth : Authed cfg r) (hname : commands name = some q.command)
    {n : ℕ} {marks : Str} {body : ℕ → GentRedis → Parsed} (hn : 5 ≤ n)
    (hkey : n ≤ (tokens data).length → (argOf (tokens data) 3).length < 250) (hmarks : 42 ∈ marks)
    (hbody : (q.lines name).length + 1 ≤ (tokens data).length → ∀ r,
      body (q.header name).length r = .error .outOfRange)
    (hparser : q.command.parser cfg now (tokens data) data { r with subc := some q.command }
      = valueParser n marks ((q.lines name).length + 1) body cfg (tokens data) data
        { r with subc := some q.command }) : Fails cfg now r data := by
  have hauth' : Authed cfg { r with subc := some q.command } := hauth
  rcases valueParser_fails hauth' (fun t ht => clean_of_mem_tokens ht) hn hkey (h.headerEnd hmarks)
    hbody with ⟨r', hr'⟩ | ⟨f, hf⟩
  · exact fails_of_parse h.third hname (Or.inl rfl) (hparser.trans hr')
  · exact fails_of_fault h.third hname (hparser.trans hf)

lemma fails_set {key value : Str} (h : (of (.set key value)).Begins name data) (hauth : Authed cfg r)
    (hname : commands name = some .set) (hkey : key.length < 250) : Fails cfg now r data := by
  refine h.fails_value hauth hname le_rfl (h.key hkey rfl rfl le_rfl) (by decide)
    (fun hall r => ?_) rfl
  exact takeContent_fault (h.get 5 hall) (clean_lengthLine value).1 h.short

lemma fails_setex {key value : Str} {seconds : ℤ} (h : (of (.setex key seconds value)).Begins name data)
    (hauth : Authed cfg r) (hname : commands name = some .setex) (hkey : key.length < 250) :
    Fails cfg now r data := by
  refine h.fails_value hauth hname (by decide) (h.key hkey rfl rfl (by decide)) (by decide)
    (fun hall r => ?_) rfl
  have hsec : (tokens data)[6]? = some (decimalInt seconds) := h.get 6 (Nat.lt_of_succ_lt hall)
  rw [takeExpire, elemAt_of_eq_some hsec]
  exact takeContent_fault (h.get 7 hall) (clean_lengthLine value).1 h.short

lemma fails_mset {pairs : List (Str × Str)} (h : (of (.mset pairs)).Begins name data)
    (hauth : Authed cfg r) (hname : commands name = some .mset)
    (hwf : (of (.mset pairs)).WellFormed name) : Fails cfg now r data := by
  have hauth' : Authed cfg { r with subc := some .mset } := hauth
  have hfirst : (tokens data)[0]? = some ((of (.mset pairs)).first name) :=
    h.get 0 (Nat.lt_of_lt_of_le (by decide) h.three)
  obtain ⟨hsmall, hnum⟩ := atoi_first hwf
  have hend : Riser.headerEnd data ((of (.mset pairs)).first name) 3 = some _ :=
    (h.headerEnd List.mem_cons_self).trans (if_pos h.three)
  refine fails_of_fault h.third hname (f := .outOfRange) ?_
  show GentProcessMset.parser cfg (tokens data) data { r with subc := some .mset } = _
  rw [Request.mset_parser_eq hauth' h.three hfirst (clean_first name _).1 hsmall hnum, msetPairs,
    hend]
  dsimp only
  rw [substrFrom_of_lt h.short]
  rfl

end Begins

/-- **The beginning of a request fails**: there are too few tokens, or the value would start behind
the end. -/
theorem process_take (hauth : Authed cfg r) (hname : commands name = some q.command)
    (hwf : q.WellFormed name) {p : ℕ} (hlo : (q.first name).length < p)
    (hhi : p < (q.header name).length) (hend : q.OneStage → p + 1 ≠ (q.header name).length) :
    Fails cfg now r ((q.bytes name).take p) := by
  rw [bytes_eq_header, List.take_append_of_le_length hhi.le]
  have htok : tokens ((q.header name).take p) = (q.first name :: q.lines name).take _ :=
    tokens_take hname hwf (clean_first name q) p
  have hle : linesSeen (q.first name :: q.lines name) p ≤ (q.lines name).length + 1 := linesSeen_le _ _
  have hlen : (tokens ((q.header name).take p)).length
      = linesSeen (q.first name :: q.lines name) p := by
    rw [htok, List.length_take, List.length_cons]
    omega
  by_cases h3 : linesSeen (q.first name :: q.lines name) p < 3
  · refine fails_of_none ?_ fun hnil => ?_
    · rw [List.getElem?_eq_none (by omega)]
      rfl
    · rw [hnil, linesSeen, if_neg (by omega)] at hlen
      cases hlen
  have hbegins := begins hname hwf hhi (by omega)
  have hauth' : Authed cfg { r with subc := some q.command } := hauth
  by_cases hstage : q.OneStage
  · have hlines : (q.lines name).length = _ := length_lines hstage
    have hnot : linesSeen (q.first name :: q.lines name) p ≠ (q.lines name).length + 1 := by
      intro hall
      exact hend hstage (Nat.le_antisymm hhi
        ((linesSeen_eq_length (List.cons_ne_nil _ _)).mp hall))
    obtain ⟨status, r', hst, hparse⟩ := parser_short hauth' hwf hstage (hbegins.get 0 (by omega))
      hbegins.three (by omega)
    exact fails_of_parse hbegins.third hname hst hparse
  · cases q with
    | ping => exact absurd trivial hstage
    | slave id => exact absurd trivial hstage
    | of q =>
        cases q with
        | keyed c key => exact absurd trivial hstage
        | auth password => exact absurd trivial hstage
        | mget keys => exact absurd trivial hstage
        | set key value => exact hbegins.fails_set hauth hname hwf.2.2
        | setex key seconds value => exact hbegins.fails_setex hauth hname hwf.2.2.1
        | mset pairs => exact hbegins.fails_mset hauth hname hwf

/-! ## What remains -/

lemma commands_dollar (t : Str) : commands (36 :: t) = none := by
  rw [Option.eq_none_iff_forall_ne_some]
  intro c hc
  have hhead : ∀ p ∈ setCommands, p.1.head? ≠ some 36 := by decide
  exact hhead _ (mem_of_commands hc) rfl

/-- A length line in third place is no command. -/
lemma third_dollar {s : Str} (h : ∀ t, (fields s)[2]? = some t → t.head? = some 36) :
    tokens s = fields s ∧ (tokens s)[2]?.bind commands = none := by
  have htok : tokens s = fields s := by
    refine tokens_eq_fields fun n => ?_
    cases hthird : (fields s)[2]? with
    | none =>
        rintro ⟨hlen, -⟩
        rw [List.getElem?_eq_none_iff] at hthird
        rw [List.length_take] at hlen
        omega
    | some t =>
        refine not_msetStop_of_third hthird ⟨?_, ?_⟩ n
        · rintro rfl
          exact absurd (h _ hthird) (by decide)
        · rintro rfl
          exact absurd (h _ hthird) (by decide)
  refine ⟨htok, ?_⟩
  rw [htok]
  cases hthird : (fields s)[2]? with
  | none => rfl
  | some t =>
      obtain ⟨t', rfl⟩ : ∃ t', t = 36 :: t' := by
        have hhead := h t hthird
        cases t with
        | nil => cases hhead
        | cons b t' => exact ⟨t', by rw [Option.some.inj hhead]⟩
      rw [Option.bind_some, commands_dollar]

/-- **Cut behind the first line**: its delimiter is left, and all tokens are one place too far in
front. -/
lemma process_drop_first (hname : commands name = some q.command) (hwf : q.WellFormed name) :
    Fails cfg now r ((q.bytes name).drop (q.first name).length) := by
  have hdrop : (q.bytes name).drop (q.first name).length
      = crlf ++ ((q.lines name).flatMap (· ++ crlf) ++ q.rest) := by
    rw [bytes_eq, withFirst, List.flatMap_cons, List.append_assoc, List.append_assoc, List.drop_left]
  have hfields : fields ((q.bytes name).drop (q.first name).length)
      = q.lines name ++ fields q.rest := by
    rw [hdrop, fields_crlf, fields_lines _ (clean_lines hname hwf)]
  have hthird : ∀ t, (fields ((q.bytes name).drop (q.first name).length))[2]? = some t →
      t.head? = some 36 := by
    rw [hfields]
    have hdone : ∀ {more : List Str} {arg t : Str},
        (lengthLine name :: name :: lengthLine arg :: more)[2]? = some t → t.head? = some 36 := by
      rintro more arg t h
      obtain rfl := Option.some.inj h
      rfl
    cases q with
    | ping =>
        intro t ht
        rw [rest, fields_of_clean (by simp)] at ht
        cases ht
        all_goals exact nofun
    | slave id => exact fun t => hdone
    | of q =>
        cases q with
        | keyed c key => exact fun t => hdone
        | auth password => exact fun t => hdone
        | set key value => exact fun t => hdone
        | setex key seconds value => exact fun t => hdone
        | mset pairs =>
            cases pairs with
            | nil =>
                intro t ht
                rw [show rest (of (.mset [])) = [] from rfl, fields_of_clean (by simp)] at ht
                cases ht
            | cons kv pairs =>
                intro t ht
                rw [show rest (of (.mset (kv :: pairs)))
                    = lengthLine kv.1 ++ (crlf ++ (kv.1 ++ crlf ++ bulk kv.2 ++ pairs.flatMap pairBytes))
                  by simp [rest, pairBytes, bulk], fields_line (clean_lengthLine _)] at ht
                exact hdone ht
        | mget keys =>
            obtain ⟨key, keys, rfl⟩ := List.exists_cons_of_ne_nil hwf.2.1
            exact fun t => hdone
  obtain ⟨htok, hnone⟩ := third_dollar hthird
  refine fails_of_none hnone ?_
  obtain ⟨more, hmore⟩ := lines_eq name q
  rw [htok, hfields, hmore]
  exact List.cons_ne_nil _ _

/-! ## Another first line -/

/-- The parser does not look at the first token. -/
def Blind : ClientRequest → Prop
  | ping => True
  | slave _ => True
  | of (.keyed _ _) => True
  | of (.auth _) => True
  | _ => False

lemma Blind.oneStage (h : q.Blind) : q.OneStage := by
  cases q with
  | ping => trivial
  | slave id => trivial
  | of q => cases q <;> trivial

/-- A parser of one stage looks at the tokens only. -/
lemma parser_head (hstage : q.OneStage) {a a' : Str} (ha : a = a' ∨ q.Blind) (v : List Str)
    (data data' : Str) :
    q.command.parser cfg now (a :: v) data r = q.command.parser cfg now (a' :: v) data' r := by
  cases q with
  | ping => rfl
  | slave id => rfl
  | of q =>
      cases q with
      | keyed c key => cases c <;> rfl
      | auth password => rfl
      | set key value => exact hstage.elim
      | setex key seconds value => exact hstage.elim
      | mset pairs => exact hstage.elim
      | mget keys =>
          obtain rfl := ha.resolve_right id
          rfl

/-- **What has the tokens of the request is the request.** -/
lemma process_congr (hname : commands name = some q.command) (hstage : q.OneStage) {a a' : Str}
    (ha : a = a' ∨ q.Blind) {data data' : Str} (h : tokens data = a :: q.lines name)
    (h' : tokens data' = a' :: q.lines name) :
    process cfg now r data = process cfg now r data' := by
  obtain ⟨more, hmore⟩ := lines_eq name q
  have hthird : ∀ {s b : Str}, tokens s = b :: q.lines name → (tokens s)[2]? = some name := by
    intro s b hs
    rw [hs, hmore]
    rfl
  rw [process_eq (hthird h) hname, process_eq (hthird h') hname, h, h',
    parser_head hstage ha _ data data']

lemma rest_eq_nil (h : q.OneStage) : q.rest = [] := by
  cases q with
  | ping => rfl
  | slave id => rfl
  | of q => cases q <;> first | rfl | exact h.elim

lemma ne_mset_of_oneStage (h : q.OneStage) : q.command ≠ .mset := by
  cases q with
  | ping => exact nofun
  | slave id => exact nofun
  | of q =>
      cases q with
      | keyed c key => cases c <;> exact nofun
      | auth password => exact nofun
      | set key value => exact h.elim
      | setex key seconds value => exact h.elim
      | mset pairs => exact h.elim
      | mget keys => exact nofun

lemma tokens_oneStage (hname : commands name = some q.command) (hwf : q.WellFormed name)
    (hstage : q.OneStage) {a : Str} (ha : Clean a) :
    tokens (q.withFirst name a) = a :: q.lines name := by
  rw [tokens_withFirst hname hwf (ne_mset_of_oneStage hstage) ha, rest_eq_nil hstage,
    fields_of_clean (by simp), List.append_nil]

/-- **The last byte is not missed.** -/
lemma process_dropLast (hname : commands name = some q.command) (hwf : q.WellFormed name)
    (hstage : q.OneStage) {a : Str} (ha : Clean a) :
    process cfg now r (q.withFirst name a).dropLast = process cfg now r (q.withFirst name a) := by
  refine process_congr hname hstage (Or.inl rfl) ?_ (tokens_oneStage hname hwf hstage ha)
  have hall : linesSeen (a :: q.lines name) ((q.withFirst name a).length - 1)
      = (a :: q.lines name).length := by
    rw [linesSeen_eq_length (List.cons_ne_nil _ _), withFirst, rest_eq_nil hstage, List.append_nil]
    omega
  have htok := tokens_take hname hwf ha ((q.withFirst name a).length - 1)
  rw [hall, List.take_length] at htok
  rw [List.dropLast_eq_take, ← htok]
  congr 2
  rw [withFirst, rest_eq_nil hstage, List.append_nil]

/-- **`mget` compares the number** in the first line with that of the tokens. -/
lemma process_mget_wrong {keys : List Str} {a : Str} {num : ℕ} (hauth : Authed cfg r)
    (hname : commands name = some .mget) (hwf : (of (.mget keys)).WellFormed name) (ha : Clean a)
    (hnum : lengthOf a = num) (hlt : num < keys.length + 1) :
    Fails cfg now r ((of (.mget keys)).withFirst name a) := by
  have hauth' : Authed cfg { r with subc := some .mget } := hauth
  have htok : tokens ((of (.mget keys)).withFirst name a) = _ :=
    tokens_oneStage hname hwf trivial ha
  have hlen : (tokens ((of (.mget keys)).withFirst name a)).length = 2 * keys.length + 3 := by
    rw [htok, List.length_cons, length_lines (q := of (.mget keys)) trivial]
    rfl
  have hsmall : (name :: keys).length * 2 + 1 < 2 ^ 31 := length_of_encode hwf.1
  rw [List.length_cons] at hsmall
  have hthird : (tokens ((of (.mget keys)).withFirst name a))[2]? = some name := by
    rw [htok]
    rfl
  have hzero : (tokens ((of (.mget keys)).withFirst name a))[0]? = some a := by
    rw [htok]
    rfl
  exact fails_of_parse hthird hname (Or.inl rfl)
    (mget_parser_short hauth' hzero ha.1 (by omega) hnum (by omega))

section Value

variable {key value a : Str} {seconds : ℤ}

/-- The way of a value to the handler, in whatever line the request starts. -/
lemma valueParser_withFirst (hname : commands name = some q.command) (hwf : q.WellFormed name)
    (hmset : q.command ≠ .mset) (hauth : Authed cfg r) (ha : Clean a) {marks : Str}
    (hmarks : ∃ b t, a = b :: t ∧ b ∈ marks) {n : ℕ} (hn : 5 ≤ n) (hnum : n ≤ (q.lines name).length + 1)
    (hkey : key.length < 250) (hline : (q.lines name)[2]? = some (lengthLine key))
    (harg : (q.lines name)[3]? = some key) (body : ℕ → GentRedis → Parsed) :
    ∃ pos, pos ≤ (q.withFirst name a).length ∧ (q.withFirst name a).drop pos = q.rest ∧
      valueParser n marks ((q.lines name).length + 1) body cfg (tokens (q.withFirst name a))
          (q.withFirst name a) r
        = body pos { r with auth := true, curstatus := .CONN_NREAD, keystr := key } := by
  have htok : tokens (q.withFirst name a) = _ := tokens_withFirst hname hwf hmset ha
  obtain ⟨b, t, rfl, hb⟩ := hmarks
  obtain ⟨pos, hend, hpos, hdrop⟩ := headerEnd_of_lines _ _
    (show q.withFirst name (b :: t) = (_ :: q.lines name).flatMap (· ++ crlf) ++ q.rest from rfl)
    (fun l hl => (clean_withFirst hname hwf ha l hl).2)
    (show ∃ b' t', q.withFirst name (b :: t) = b' :: t' ∧ b' ∈ marks from ⟨b, _, rfl, hb⟩)
  have hget : ∀ {i : ℕ} {line : Str}, (q.lines name)[i]? = some line →
      (tokens (q.withFirst name (b :: t)))[i + 1]? = some line := by
    intro i line h
    rw [htok, List.cons_append, List.getElem?_cons_succ,
      List.getElem?_append_left (List.getElem?_eq_some_iff.mp h).1, h]
  have hkeyarg : argOf (tokens (q.withFirst name (b :: t))) 3 = key :=
    argOf_eq (by omega) (hget hline) (Or.inr (hget harg))
  have hlen : (q.lines name).length + 1 ≤ (tokens (q.withFirst name (b :: t))).length := by
    rw [htok, List.length_append, List.length_cons]
    omega
  refine ⟨pos, hpos, hdrop, ?_⟩
  rw [List.length_cons] at hend
  rw [valueParser_eq body hauth (fun t ht => clean_of_mem_tokens ht) hn (by omega)
    (by rw [hkeyarg]; exact hkey) hend, hkeyarg]

lemma process_set (hauth : Authed cfg r) (hname : commands name = some .set)
    (hwf : (of (.set key value)).WellFormed name) (ha : Clean a)
    (hmarks : ∃ b t, a = b :: t ∧ b ∈ lit "*3") :
    process cfg now r ((of (.set key value)).withFirst name a)
      = .ok (0, [], { r with
          subc := some .set, auth := true, curstatus := .CONN_NREAD, keystr := key, content := value,
          rlbytes := value.length }) := by
  have hauth' : Authed cfg { r with subc := some .set } := hauth
  set data := (of (.set key value)).withFirst name a with hdata
  have htok : tokens data = _ := tokens_withFirst hname hwf nofun ha
  have hvalue : value.length < 2 ^ 31 := length_of_mem_encode
    (show value ∈ name :: (of (.set key value)).args by simp [args, Request.args]) hwf.1
  have hthird : (tokens data)[2]? = some name := by rw [htok]; rfl
  have hline : (tokens data)[5]? = some (lengthLine value) := by rw [htok]; rfl
  obtain ⟨pos, hpos, hdrop, hparse⟩ := valueParser_withFirst hname hwf nofun hauth' ha hmarks
    (show 5 ≤ 5 from le_rfl) (show 5 ≤ 6 by decide) hwf.2.2 rfl rfl (takeContent (tokens data) 5 data)
  rw [process_eq hthird hname]
  rw [takeContent_eq hline (clean_lengthLine value).1 (lengthOf_lengthLine hvalue) hpos hdrop] at hparse
  show GentProcessSet.parser cfg (tokens data) data { r with subc := some .set } >>= _ = _
  rw [show GentProcessSet.parser cfg (tokens data) data { r with subc := some .set } = _ from hparse]
  rfl

lemma process_setex (hauth : Authed cfg r) (hname : commands name = some .setex)
    (hwf : (of (.setex key seconds value)).WellFormed name) (ha : Clean a)
    (hmarks : ∃ b t, a = b :: t ∧ b ∈ lit "*4") :
    process cfg now r ((of (.setex key seconds value)).withFirst name a)
      = .ok (0, [], { r with
          subc := some .setex, auth := true, curstatus := .CONN_NREAD, keystr := key, content := value,
          rlbytes := value.length, expire := (toUInt64 seconds + now) % 2 ^ 64 }) := by
  have hauth' : Authed cfg { r with subc := some .setex } := hauth
  set data := (of (.setex key seconds value)).withFirst name a with hdata
  have htok : tokens data = _ := tokens_withFirst hname hwf nofun ha
  have hvalue : value.length < 2 ^ 31 := length_of_mem_encode
    (show value ∈ name :: (of (.setex key seconds value)).args by simp [args, Request.args]) hwf.1
  have hthird : (tokens data)[2]? = some name := by rw [htok]; rfl
  have hsec : (tokens data)[6]? = some (decimalInt seconds) := by rw [htok]; rfl
  have hline : (tokens data)[7]? = some (lengthLine value) := by rw [htok]; rfl
  obtain ⟨pos, hpos, hdrop, hparse⟩ := valueParser_withFirst hname hwf nofun hauth' ha hmarks
    (show 5 ≤ 7 by decide) (show 7 ≤ 8 by decide) hwf.2.2.1 rfl rfl (takeExpire now (tokens data) data)
  rw [process_eq hthird hname]
  rw [takeExpire, elemAt_of_eq_some hsec, ok_bind, takeContent_eq hline (clean_lengthLine value).1
    (lengthOf_lengthLine hvalue) hpos hdrop, atoi_decimalInt hwf.2.2.2.1 hwf.2.2.2.2] at hparse
  show GentProcessSetex.parser cfg now (tokens data) data { r with subc := some .setex } >>= _ = _
  rw [show GentProcessSetex.parser cfg now (tokens data) data { r with subc := some .setex } = _
    from hparse]
  rfl

end Value

section Mset

variable {pairs : List (Str × Str)} {a : Str}

/-- The first three tokens of an `mset`. -/
lemma tokens_mset_withFirst (hname : commands name = some .mset) (pairs : List (Str × Str))
    (ha : Clean a) :
    (tokens ((of (.mset pairs)).withFirst name a))[0]? = some a ∧
      (tokens ((of (.mset pairs)).withFirst name a))[2]? = some name ∧
      3 ≤ (tokens ((of (.mset pairs)).withFirst name a)).length := by
  obtain ⟨w, hw, -⟩ := tokens_head ha (clean_lengthLine name) (clean_of_commands hname)
    (pairs.flatMap pairBytes)
  have htok : tokens ((of (.mset pairs)).withFirst name a) = [a, lengthLine name, name] ++ w := hw
  rw [htok]
  exact ⟨rfl, rfl, by simp⟩

/-- **An `mset` stores as many pairs as its first line says**, and what is left is dropped. -/
lemma process_mset (hauth : Authed cfg r) (hidle : r.mdata.Idle) (hname : commands name = some .mset)
    (hwf : (of (.mset pairs)).WellFormed name) (ha : Clean a) {n : ℕ} (hn : n ≤ pairs.length)
    (hnum : atoi (a.drop 1) = 2 * n + 1) :
    ∃ r', process cfg now r ((of (.mset pairs)).withFirst name a) = .ok (0, [], r') ∧
      r'.subc = some .mset ∧ r'.curstatus = .CONN_NREAD ∧
      r'.mdata.keys_values
        = (pairs.take n).foldl (fun d kv => d.insert kv.1 kv.2) r.mdata.keys_values := by
  have hauth' : Authed cfg { r with subc := some .mset } := hauth
  obtain ⟨hzero, hthird, hthree⟩ := tokens_mset_withFirst hname pairs ha
  set data := (of (.mset pairs)).withFirst name a with hdata
  have hsmall := (atoi_first hwf).1
  obtain ⟨b, t, rfl⟩ := List.exists_cons_of_ne_nil ha.1
  obtain ⟨pos, hend, hpos, hdrop⟩ := headerEnd_of_lines _ _
    (show data = [b :: t, lengthLine name, name].flatMap (· ++ crlf) ++ pairs.flatMap pairBytes from rfl)
    (fun l hl => (clean_withFirst hname hwf ha l hl).2)
    (show ∃ b' t', data = b' :: t' ∧ b' ∈ b :: t from ⟨b, _, rfl, List.mem_cons_self⟩)
  have hsplit : pairs.flatMap pairBytes
      = (pairs.take n).flatMap pairBytes ++ (pairs.drop n).flatMap pairBytes := by
    rw [← List.flatMap_append, List.take_append_drop]
  have hlen : (pairs.flatMap pairBytes).length < 2 ^ 31 := by
    have hbytes := hwf.1
    rw [bytes_eq_header, List.length_append] at hbytes
    exact Nat.lt_of_le_of_lt (Nat.le_add_left _ _) hbytes
  have htake : (pairs.take n).length = n := by rw [List.length_take]; omega
  obtain ⟨m', hloop, -, hleft, hvalues⟩ := itemLoop_lead (s := (pairs.drop n).flatMap pairBytes) 0
    (pairs.take n) (m := { r.mdata with totalSetNum := n, setNum := n }) hidle (by rwa [← hsplit])
  rw [← hsplit, htake, Nat.add_zero] at hloop
  have hdone : m'.setNum = 0 := by rw [hleft, htake, sub_self]
  rw [itemLoop, if_neg (not_not.mpr hdone)] at hloop
  have hparse : GentProcessMset.parser cfg (tokens data) data { r with subc := some .mset }
      = .ok (0, { r with
          subc := some .mset, auth := true, curstatus := .CONN_NREAD, mdata := m' }) := by
    rw [Request.mset_parser_eq hauth' hthree hzero ha.1 (by omega) hnum, msetPairs,
      show headerEnd _ _ 3 = some pos from hend]
    simp only [substrFrom_of_le hpos, hdrop, ok_bind, itemParser, Int.toNat_natCast, hloop]
    rfl
  refine ⟨{ r with
    subc := some .mset, auth := true, curstatus := .CONN_NREAD, mdata := m' }, ?_, rfl, rfl, hvalues⟩
  rw [process_eq hthird hname]
  show GentProcessMset.parser cfg (tokens data) data { r with subc := some .mset } >>= _ = _
  rw [hparse]
  rfl

/-- An even number is an error. -/
lemma process_mset_wrong (hauth : Authed cfg r) (hname : commands name = some .mset) (ha : Clean a)
    {n : ℕ} (hsmall : 2 * n < 2 ^ 31) (hnum : atoi (a.drop 1) = 2 * n) :
    Fails cfg now r ((of (.mset pairs)).withFirst name a) := by
  have hauth' : Authed cfg { r with subc := some .mset } := hauth
  obtain ⟨hzero, hthird, hthree⟩ := tokens_mset_withFirst hname pairs ha
  set data := (of (.mset pairs)).withFirst name a with hdata
  have hodd : (toInt32 (atoi (a.drop 1) - 1)).tmod 2 ≠ 0 := by
    rw [hnum, toInt32_of_bounds (by omega) (by omega)]
    intro h
    have := Int.dvd_of_tmod_eq_zero h
    omega
  have hparse : GentProcessMset.parser cfg (tokens data) data { r with subc := some .mset }
      = .ok (-1, { r with subc := some .mset, auth := true, curstatus := .CONN_NREAD }) := by
    rw [GentProcessMset.parser, withAuth_eq hauth', if_neg (by omega), elemAt_of_eq_some hzero, ok_bind,
      substrFrom_of_le (List.length_pos_of_ne_nil ha.1), ok_bind]
    dsimp only
    rw [if_pos hodd]
    rfl
  exact fails_of_parse hthird hname (Or.inl rfl) hparse

end Mset

/-! ## The whole request -/

lemma tokens_bytes (hname : commands name = some q.command) (hwf : q.WellFormed name)
    (hstage : q.OneStage) : tokens (q.bytes name) = q.first name :: q.lines name := by
  rw [bytes_eq]
  exact tokens_oneStage hname hwf hstage (clean_first name q)

lemma process_ping (hauth : Authed cfg r) (hname : commands name = some .ping)
    (hwf : ping.WellFormed name) :
    process cfg now r (ping.bytes name)
      = .ok (0, [], { r with subc := some .ping, auth := true, curstatus := .CONN_DATA }) := by
  have hauth' : Authed cfg { r with subc := some .ping } := hauth
  have htok : tokens (ping.bytes name) = _ := tokens_bytes hname hwf trivial
  have hthird : (tokens (ping.bytes name))[2]? = some name := by rw [htok]; rfl
  rw [process_eq hthird hname]
  show plainParser cfg _ >>= _ = _
  rw [plainParser, withAuth_eq hauth']
  rfl

lemma process_slave {id : Str} (hauth : Authed cfg r) (hname : commands name = some .slave)
    (hwf : (slave id).WellFormed name) :
    process cfg now r ((slave id).bytes name)
      = .ok (0, [], { r with
          subc := some .slave, auth := true, curstatus := .CONN_DATA, keystr := id }) := by
  have hauth' : Authed cfg { r with subc := some .slave } := hauth
  have htok : tokens ((slave id).bytes name) = _ := tokens_bytes hname hwf trivial
  have hlen : id.length < 2 ^ 31 :=
    length_of_mem_encode (show id ∈ name :: (slave id).args by simp [args]) hwf.1
  have hthird : (tokens ((slave id).bytes name))[2]? = some name := by rw [htok]; rfl
  have hseven : (tokens ((slave id).bytes name)).length = 7 := by rw [htok]; rfl
  have harg : ∀ {i : ℕ} {arg : Str}, arg.length < 2 ^ 31 → i + 1 < 7 →
      (tokens ((slave id).bytes name))[i]? = some (lengthLine arg) →
      (tokens ((slave id).bytes name))[i + 1]? = some arg →
      tokenArg (tokens ((slave id).bytes name)) i = .ok arg := by
    intro i arg hlen hi hline hget
    rw [tokenArg_eq (fun t ht => clean_of_mem_tokens ht) (by omega), argOf_eq hlen hline (Or.inr hget)]
  have hclear : tokenArg (tokens ((slave id).bytes name)) 5 = .ok (lit "clear") :=
    harg (by decide) (by decide) (by rw [htok]; rfl) (by rw [htok]; rfl)
  have hid : tokenArg (tokens ((slave id).bytes name)) 3 = .ok id :=
    harg hlen (by decide) (by rw [htok]; rfl) (by rw [htok]; rfl)
  rw [process_eq hthird hname]
  show GentProcessSlave.parser cfg _ _ >>= _ = _
  rw [GentProcessSlave.parser, withAuth_eq hauth', if_neg (not_not.mpr hseven), hclear, ok_bind,
    if_neg (not_not.mpr rfl), hid]
  rfl

/-- A password is compared with the configured one.  Without one, the status stays as it is. -/
lemma process_auth {password : Str} (hname : commands name = some .auth)
    (hwf : (of (.auth password)).WellFormed name) :
    process cfg now r ((of (.auth password)).bytes name)
      = .ok (if cfg.auth = [] then (0, [], { r with subc := some .auth, auth := true })
          else if password = cfg.auth then (0, [], { r with subc := some .auth, curstatus := .CONN_DATA })
          else (0, lit "-ERR invalid password\r\n", { r with subc := some .auth })) := by
  have htok : tokens ((of (.auth password)).bytes name) = _ := tokens_bytes hname hwf trivial
  have hlen : password.length < 2 ^ 31 := length_of_mem_encode
    (show password ∈ name :: (of (.auth password)).args by simp [args, Request.args]) hwf.1
  have hthird : (tokens ((of (.auth password)).bytes name))[2]? = some name := by rw [htok]; rfl
  have hfive : (tokens ((of (.auth password)).bytes name)).length = 5 := by rw [htok]; rfl
  have harg : tokenArg (tokens ((of (.auth password)).bytes name)) 3 = .ok password := by
    rw [tokenArg_eq (fun t ht => clean_of_mem_tokens ht) (by omega),
      argOf_eq hlen (by rw [htok]; rfl) (Or.inr (by rw [htok]; rfl))]
  rw [process_eq hthird hname]
  show GentProcessAuth.parser cfg _ _ >>= _ = _
  rw [GentProcessAuth.parser, if_neg (not_not.mpr hfive), harg, ok_bind]
  by_cases hopen : cfg.auth = []
  · rw [if_pos hopen, if_pos hopen]
    rfl
  · by_cases hpw : password = cfg.auth
    · rw [if_neg hopen, if_neg (not_not.mpr hpw), if_neg hopen, if_pos hpw]
      rfl
    · rw [if_neg hopen, if_pos hpw, if_neg hopen, if_neg hpw]
      rfl

/-- **The request in one piece is understood.** -/
lemma process_bytes (hauth : Authed cfg r) (hidle : r.mdata.Idle)
    (hname : commands name = some q.command) (hwf : q.WellFormed name)
    (hq : ∀ password, q ≠ of (.auth password)) :
    ∃ r', process cfg now r (q.bytes name) = .ok (0, [], r') ∧ r'.subc = some q.command ∧
      (r'.curstatus = .CONN_DATA ∨ r'.curstatus = .CONN_NREAD) := by
  cases q with
  | ping => exact ⟨_, process_ping hauth hname hwf, rfl, Or.inl rfl⟩
  | slave id => exact ⟨_, process_slave hauth hname hwf, rfl, Or.inl rfl⟩
  | of q =>
      cases q with
      | keyed c key =>
          obtain ⟨r', hproc, hsub, -, hst⟩ := (Request.keyed_acts_iff hauth hname hwf.1).mpr hwf.2
          exact ⟨r', hproc, hsub, Or.inl hst⟩
      | auth password => exact absurd rfl (hq password)
      | set key value =>
          rw [bytes_eq, process_set hauth hname hwf (clean_first name _) ⟨42, _, rfl, by decide⟩]
          exact ⟨_, rfl, rfl, Or.inr rfl⟩
      | setex key seconds value =>
          rw [bytes_eq, process_setex hauth hname hwf (clean_first name _) ⟨42, _, rfl, by decide⟩]
          exact ⟨_, rfl, rfl, Or.inr rfl⟩
      | mset pairs =>
          obtain ⟨r', hproc, hsub, hst, -⟩ := process_mset hauth hidle hname hwf (clean_first name _)
            le_rfl (atoi_first hwf).2
          rw [← bytes_eq] at hproc
          exact ⟨r', hproc, hsub, Or.inr hst⟩
      | mget keys =>
          obtain ⟨r', hproc, hsub, -, hst⟩ :=
            (Request.mget_acts_iff hauth hname ⟨hwf.1, hwf.2.1⟩).mpr hwf.2.2
          exact ⟨r', hproc, hsub, Or.inl hst⟩

end ClientRequest

end Riser
