import Riser.Redis.Request
import Riser.Repl.GentReplication

/-!
# What the slave makes of a batch

The master prints a batch into buffers of 300 and 100 bytes, with `%s` for the key and the value
behind the buffer; the slave reads the bytes with the parsers of any other client.  Three things
come between the two.

* **The buffer.**  What does not fit is cut off, and the bytes behind it move up.  A DEL may lose its
  last byte; a SETEX up to two, if the value does not notice; an MSET none.
* **`%s`** ends at a NUL, while the length in front of it is that of the whole key.
* **The tokens.**  A DEL and a SETEX are cut at CR and LF when they are read, an MSET is not.

Besides, an entry whose time to live is used up in this very second is printed as a plain SET.

`Batch.Fits` is what remains, and it is exact for a DEL, a SETEX and the last pair of an MSET.  It
is not for a pair in front of another: a value that is made for the purpose can supply the bytes
that its header has lost, or send the reader back with a negative length.
-/

namespace Riser

open Cpp

/-! ## The texts -/

/-- The lines of a DEL; `text` is what is printed for the key. -/
def delLines (key text : Str) : List Str := [lit "*2", lit "$3", lit "del", lengthLine key, text]

/-- The lines of a SETEX, up to the length of the value. -/
def setexLines (key text : Str) (expire : ℕ) : List Str :=
  [lit "*4", lit "$5", lit "setex", lengthLine key, text, lengthLine (decimal expire),
    decimal expire]

/-- The lines of a pair, up to the value. -/
def pairLines (key text nr : Str) : List Str := [lengthLine key, text, lengthLine nr]

lemma reply_del (key : Str) :
    reply .DEL key [] 0 = ((delLines key (cstr key)).flatMap (· ++ crlf)).take 299 := by
  have hhead : lit "*2\r\n$3\r\ndel\r\n$"
      = lit "*2" ++ crlf ++ lit "$3" ++ crlf ++ lit "del" ++ crlf ++ lit "$" := rfl
  simp [reply, snprintf, delLines, lengthLine, hhead, crlf]

lemma length_decimal_le {n : ℕ} (h : n < 2 ^ 31) : (decimal n).length ≤ 10 :=
  (decimal_length_le_iff (by decide)).mpr (by omega)

lemma reply_setex (key nr : Str) {expire : ℕ} (h0 : expire ≠ 0) (h : expire < 2 ^ 31) :
    reply .ADD key nr expire
      = ((setexLines key (cstr key) expire).flatMap (· ++ crlf) ++ (lengthLine nr ++ crlf)).take 299
        ++ (nr ++ crlf) := by
  have hhead : lit "*4\r\n$5\r\nsetex\r\n$"
      = lit "*4" ++ crlf ++ lit "$5" ++ crlf ++ lit "setex" ++ crlf ++ lit "$" := rfl
  have hsep : lit "\r\n$" = crlf ++ lit "$" := rfl
  have hexp : snprintf 20 (decimal expire) = decimal expire :=
    List.take_of_length_le ((length_decimal_le h).trans (by decide))
  simp only [reply, if_neg h0, hexp]
  simp [snprintf, setexLines, lengthLine, hhead, hsep, crlf]

lemma replyItem_eq (key nr : Str) :
    replyItem key nr
      = ((pairLines key (cstr key) nr).flatMap (· ++ crlf)).take 99 ++ (nr ++ crlf) := by
  have hsep : lit "\r\n$" = crlf ++ lit "$" := rfl
  simp [replyItem, snprintf, pairLines, lengthLine, hsep, crlf]

/-- Lines that fit are not touched. -/
lemma take_append_fit {a : Str} {k : ℕ} (h : a.length ≤ k) (s : Str) :
    (a ++ s).take k = a ++ s.take (k - a.length) := by
  rw [List.take_append, List.take_of_length_le h]

/-- A line, cut anywhere, is the line or no field at all. -/
lemma fields_take_line {text : Str} (h : NoDelim text) (k : ℕ) :
    fields ((text ++ crlf).take k) = if text ≠ [] ∧ text.length < k then [text] else [] := by
  have hnil : ∀ s : Str, s.length ≤ 1 → fields (s.drop 1) = [] := fun s hs => by
    rw [List.drop_of_length_le hs]
    exact fields_of_clean (by simp)
  by_cases hk : text.length < k
  · obtain ⟨j, rfl⟩ : ∃ j, k = text.length + (j + 1) := ⟨k - text.length - 1, by omega⟩
    have hcut : (text ++ crlf).take (text.length + (j + 1)) = text ++ 13 :: [10].take j := by
      rw [List.take_length_add_append]
      rfl
    have hshort : (([10] : Str).take j).length ≤ 1 := by simp
    rw [hcut]
    by_cases hne : text = []
    · subst hne
      rw [List.nil_append, fields_blank (by decide), hnil _ hshort, if_neg (by simp)]
    · rw [fields_field ⟨hne, h⟩ (by decide), hnil _ hshort, if_pos ⟨hne, by omega⟩]
  · rw [if_neg (by omega), List.take_append_of_le_length (by omega)]
    exact fields_of_clean fun b hb => h b (List.mem_of_mem_take hb)

/-- A length line that has lost digits says too little. -/
lemma lengthOf_cut {n j : ℕ} (hn : n < 2 ^ 31) (hj : j < (decimal n).length) :
    lengthOf (36 :: (decimal n).take j) < 10 ^ j := by
  have hdigits : ∀ b ∈ (decimal n).take j, isDigit b = true := fun b hb =>
    isDigit_of_mem_decimal (List.mem_of_mem_take hb)
  have hval : signedDigits ((decimal n).take j) = (false, digitsVal ((decimal n).take j)) := by
    by_cases hnil : (decimal n).take j = []
    · rw [hnil]
      rfl
    · simpa using signedDigits_append (r := []) hdigits hnil (by simp)
  have hlt : digitsVal ((decimal n).take j) < 10 ^ j := by
    have := digitsVal_lt hdigits
    rwa [List.length_take, min_eq_left (by omega)] at this
  have hnine : 10 ^ j ≤ 10 ^ 9 := by
    refine Nat.pow_le_pow_right (by decide) ?_
    have := length_decimal_le hn
    omega
  have hatoi : atoi ((decimal n).take j) = digitsVal ((decimal n).take j) :=
    atoi_of_signedDigits (by omega) hval
  show toUInt64 (atoi ((decimal n).take j)) < _
  rw [hatoi, toUInt64_natCast (by omega)]
  exact hlt

lemma length_lengthLine (arg : Str) : (lengthLine arg).length = 1 + (decimal arg.length).length := by
  simp [lengthLine, lit]
  omega

lemma noDelim_cstr {key : Str} (h : NoDelim key) : NoDelim (cstr key) := fun b hb =>
  h b ((List.takeWhile_prefix _).subset hb)

/-! ## What is asked of a batch -/

/-- The header of a pair is printed as a whole. -/
def PairFits (key nr : Str) : Prop :=
  0 ∉ key ∧ ((pairLines key key nr).flatMap (· ++ crlf)).length ≤ 99

instance (key nr : Str) : Decidable (PairFits key nr) := inferInstanceAs (Decidable (_ ∧ _))

namespace Batch

/-- **The slave does what the batch stands for**, on these keys and values and with this time to
live, when the bytes come in one read.  A fixed text stands for nothing. -/
def Acts (cfg : Config) (now : ℕ) (r : GentRedis) (b : Batch) : Prop :=
  let Done (P : GentRedis → Prop) := ∃ r', process cfg now r b.outstr = .ok (0, [], r') ∧ P r'
  match b with
  | .text _ => True
  | .del it => Done fun r' =>
      r'.subc = some .del ∧ r'.keystr = it.name ∧ r'.curstatus = .CONN_DATA
  | .add it nr expire => Done fun r' =>
      r'.subc = some .setex ∧ r'.keystr = it.name ∧ r'.content = nr ∧ r'.rlbytes = nr.length ∧
        r'.expire = (expire + now) % 2 ^ 64
  | .mset items => Done fun r' => r'.subc = some .mset ∧
      r'.mdata.keys_values = items.foldl (fun d p => d.insert p.1.name p.2) ∅

/-- **The condition.**  For a SETEX, the bytes that the buffer has no room for are made up for by
the first bytes of the value, and must not be missed there. -/
def Fits : Batch → Prop
  | .text _ => True
  | .del it => Clean it.name ∧ 0 ∉ it.name ∧
      ((delLines it.name it.name).flatMap (· ++ crlf)).length ≤ 300
  | .add it nr expire => expire ≠ 0 ∧ Clean it.name ∧ 0 ∉ it.name ∧
      let printed :=
        ((setexLines it.name it.name expire).flatMap (· ++ crlf) ++ (lengthLine nr ++ crlf)).length
      printed ≤ 301 ∧ ((nr ++ crlf).drop (printed - 299)).take nr.length = nr
  | .mset items => ∀ p ∈ items, PairFits p.1.name p.2

/-- All pairs of an MSET but the last one fit. -/
def LeadersFit : Batch → Prop
  | .mset items => ∀ p ∈ items.dropLast, PairFits p.1.name p.2
  | _ => True

end Batch

/-! ## DEL -/

section Del

variable {cfg : Config} {now : ℕ} {r : GentRedis} {key : Str}

/-- The tokens of a DEL. -/
lemma tokens_del (hlen : key.length < 2 ^ 31) :
    tokens (reply .DEL key [] 0)
      = [lit "*2", lit "$3", lit "del", lengthLine key]
        ++ fields ((cstr key ++ crlf).take (283 - (decimal key.length).length)) := by
  have hdigits := length_decimal_le hlen
  have hlines : (delLines key (cstr key)).flatMap (· ++ crlf)
      = ([lit "*2", lit "$3", lit "del"].flatMap (· ++ crlf) ++ (lengthLine key ++ crlf))
        ++ (cstr key ++ crlf) := by
    simp [delLines]
  have hlength : ([lit "*2", lit "$3", lit "del"].flatMap (· ++ crlf)
      ++ (lengthLine key ++ crlf)).length = 16 + (decimal key.length).length := by
    rw [List.length_append, List.length_append, length_lengthLine]
    show 13 + (1 + (decimal key.length).length + 2) = _
    omega
  obtain ⟨w, hw, hfields⟩ := tokens_head (a := lit "*2") (b := lit "$3") (c := lit "del")
    (by decide) (by decide) (by decide)
    (lengthLine key ++ (crlf ++ (cstr key ++ crlf).take (283 - (decimal key.length).length)))
  rw [reply_del, hlines, take_append_fit (by omega), hlength, List.append_assoc, List.append_assoc,
    show 299 - (16 + (decimal key.length).length) = 283 - (decimal key.length).length by omega,
    hw, hfields (by decide), fields_line (clean_lengthLine key)]
  rfl

lemma del_iff (now : ℕ) (hauth : Authed cfg r) (hlen : key.length < 2 ^ 31) :
    (∃ r', process cfg now r (reply .DEL key [] 0) = .ok (0, [], r') ∧
        r'.subc = some .del ∧ r'.keystr = key ∧ r'.curstatus = .CONN_DATA) ↔
      Clean key ∧ 0 ∉ key ∧ ((delLines key key).flatMap (· ++ crlf)).length ≤ 300 := by
  have hlength : ((delLines key key).flatMap (· ++ crlf)).length
      = 18 + (decimal key.length).length + key.length := by
    simp only [delLines, List.flatMap_cons, List.flatMap_nil, List.length_append, length_lengthLine]
    show 2 + 2 + (2 + 2 + (3 + 2 + (_ + 2 + (_ + 2 + 0)))) = _
    omega
  have hthird : (tokens (reply .DEL key [] 0))[2]? = some (lit "del") := by
    rw [tokens_del hlen]
    rfl
  rw [process_done_iff hthird (show commands (lit "del") = some .del from rfl), hlength]
  refine (keyParser_iff (by decide) hauth).trans ?_
  constructor
  · rintro ⟨hnum, harg⟩
    have hdelim : NoDelim key := by
      rw [← harg]
      exact noDelim_argOf (fun t ht => clean_of_mem_tokens ht) 3
    rw [tokens_del hlen, fields_take_line (noDelim_cstr hdelim)] at hnum harg
    split_ifs at hnum harg with hfit
    · have hlong : key.length ≤ (cstr key).length :=
        (congrArg List.length harg).symm.trans_le (List.length_take_le' _ _)
      have hkey : cstr key = key := (List.takeWhile_prefix _).eq_of_length_le hlong
      rw [hkey] at hfit
      exact ⟨⟨hfit.1, hdelim⟩, hkey ▸ zero_notMem_cstr key, by omega⟩
    · simp at hnum
  · rintro ⟨hclean, hzero, hfit⟩
    rw [tokens_del hlen, cstr_eq_self hzero, fields_take_line hclean.2,
      if_pos ⟨hclean.1, by omega⟩]
    exact ⟨rfl, argOf_eq hlen rfl (Or.inr rfl)⟩

end Del

/-! ## SETEX -/

lemma skipLines_succ (data : Str) : ∀ n pos, skipLines data (n + 1) pos
    = (skipLines data n pos).bind fun p => (findFirstOf data crlf p).map (· + 2)
  | 0, pos => by
      simp only [skipLines, Option.bind_some]
      cases findFirstOf data crlf pos <;> rfl
  | n + 1, pos => by
      rw [skipLines, skipLines]
      cases findFirstOf data crlf pos with
      | none => rfl
      | some p =>
          simp only [Option.bind_some]
          exact skipLines_succ data n (p + 2)

/-- Where a header ends whose last line is closed by one delimiter and some other byte. -/
lemma headerEnd_of_line {data line s : Str} {b c : UInt8} (marks : Str) (lines : List Str)
    (hdata : data = lines.flatMap (· ++ crlf) ++ (line ++ b :: c :: s))
    (hlines : ∀ l ∈ lines, NoDelim l) (hline : NoDelim line) (hb : b ∈ crlf)
    (hmark : ∃ x t, data = x :: t ∧ x ∈ marks) :
    ∃ pos, headerEnd data marks (lines.length + 1) = some pos ∧ pos ≤ data.length ∧
      data.drop pos = s := by
  obtain ⟨x, t, hxt, hx⟩ := hmark
  have hfind : findFirstOf data marks 0 = some 0 := by
    rw [hxt]
    exact findFirstOf_zero (a := []) (by simp) hx
  have hdrop : data = (lines.flatMap (· ++ crlf) ++ (line ++ [b, c])) ++ s := by
    rw [hdata]
    simp
  have hpos : (lines.flatMap (· ++ crlf)).length + line.length + 2
      = (lines.flatMap (· ++ crlf) ++ (line ++ [b, c])).length := by
    simp only [List.length_append, List.length_cons, List.length_nil]
    omega
  refine ⟨(lines.flatMap (· ++ crlf)).length + line.length + 2, ?_, ?_, ?_⟩
  · rw [headerEnd, hfind, Option.bind_some, hdata, skipLines_succ, skipLines_lines _ _ hlines,
      Option.bind_some, findFirstOf_append hline hb, Option.map_some]
  · have hlen := congrArg List.length hdrop
    rw [List.length_append] at hlen
    omega
  · rw [hpos, hdrop, List.drop_left]

section Setex

variable {cfg : Config} {now : ℕ} {r : GentRedis} {key nr : Str} {expire : ℕ}

/-- **A SETEX with a good key**, and anything behind the time to live: the next line says how many
bytes there are, and they are those that follow it. -/
lemma setex_iff (hauth : Authed cfg r) (hkey : Clean key) (h250 : key.length < 250)
    (hexp : expire < 2 ^ 31) {line s : Str} {b c : UInt8} (hline : Clean line) (hb : b ∈ crlf) :
    (∃ r', process cfg now r ((setexLines key key expire).flatMap (· ++ crlf)
          ++ (line ++ b :: c :: s)) = .ok (0, [], r') ∧
        r'.subc = some .setex ∧ r'.keystr = key ∧ r'.content = nr ∧ r'.rlbytes = nr.length ∧
        r'.expire = (expire + now) % 2 ^ 64) ↔
      lengthOf line = nr.length ∧ s.take nr.length = nr := by
  have hauth' : Authed cfg { r with subc := some .setex } := hauth
  have hclean : ∀ l ∈ setexLines key key expire, Clean l := by
    have hdec : Clean (decimal expire) := ⟨decimal_ne_nil _, noDelim_decimal _⟩
    simp only [setexLines, List.forall_mem_cons, List.not_mem_nil, false_imp_iff, implies_true,
      and_true]
    exact ⟨by decide, by decide, by decide, clean_lengthLine _, hkey, clean_lengthLine _, hdec⟩
  have htok : ∃ w, tokens ((setexLines key key expire).flatMap (· ++ crlf) ++ (line ++ b :: c :: s))
      = setexLines key key expire ++ line :: w := by
    obtain ⟨w, hw, hfields⟩ := tokens_head (a := lit "*4") (b := lit "$5") (c := lit "setex")
      (by decide) (by decide) (by decide)
      (([lengthLine key, key, lengthLine (decimal expire), decimal expire].flatMap (· ++ crlf))
        ++ (line ++ b :: c :: s))
    have hrest : ∀ l ∈ [lengthLine key, key, lengthLine (decimal expire), decimal expire],
        Clean l := fun l hl => hclean l (by
          rw [setexLines]
          exact List.mem_of_mem_drop (i := 3) hl)
    refine ⟨fields s, ?_⟩
    have hcut : (setexLines key key expire).flatMap (· ++ crlf) ++ (line ++ b :: c :: s)
        = [lit "*4", lit "$5", lit "setex"].flatMap (· ++ crlf)
          ++ (([lengthLine key, key, lengthLine (decimal expire), decimal expire].flatMap (· ++ crlf))
            ++ (line ++ b :: c :: s)) := by
      simp [setexLines]
    rw [hcut, hw, hfields (by decide), fields_lines _ hrest, fields_field hline hb]
    rfl
  obtain ⟨w, htok⟩ := htok
  obtain ⟨pos, hend, hpos, hdrop⟩ := headerEnd_of_line (lit "*4") _ rfl
    (fun l hl => (hclean l hl).2) hline.2 hb (s := s) (c := c) ⟨42, _, rfl, by decide⟩
  set data := (setexLines key key expire).flatMap (· ++ crlf) ++ (line ++ b :: c :: s) with hdata
  have hv : ∀ t ∈ tokens data, Clean t := fun t ht => clean_of_mem_tokens ht
  have hthird : (tokens data)[2]? = some (lit "setex") := by rw [htok]; rfl
  have hsec : (tokens data)[6]? = some (decimal expire) := by rw [htok]; rfl
  have hlast : (tokens data)[7]? = some line := by rw [htok]; rfl
  have harg : argOf (tokens data) 3 = key :=
    argOf_eq (by omega) (by rw [htok]; rfl) (Or.inr (by rw [htok]; rfl))
  have hparse := valueParser_eq (takeExpire now (tokens data) data) hauth' hv
    (show 5 ≤ 7 by decide) (by rw [htok]; simp [setexLines]) (by rw [harg]; exact h250) hend
  rw [takeExpire, elemAt_of_eq_some hsec, ok_bind, takeContent_take hlast hline.1 hpos hdrop,
    atoi_decimal hexp, toUInt64_natCast (by omega), harg] at hparse
  rw [process_done_iff hthird (show commands (lit "setex") = some .setex from rfl)]
  constructor
  · rintro ⟨r', hr', -, -, hcontent, hrl, -⟩
    have hr' := hparse.symm.trans hr'
    simp only [Except.ok.injEq, Prod.mk.injEq] at hr'
    obtain ⟨-, rfl⟩ := hr'
    have hrl : lengthOf line = nr.length := hrl
    exact ⟨hrl, hrl ▸ hcontent⟩
  · rintro ⟨hrl, hcontent⟩
    have henough : nr.length - s.length = 0 := by
      have := congrArg List.length hcontent
      rw [List.length_take] at this
      omega
    rw [hrl, henough] at hparse
    exact ⟨_, hparse, rfl, rfl, hcontent, rfl, rfl⟩

/-- The tokens of a SETEX as it is printed. -/
lemma tokens_add (nr : Str) (hlen : key.length < 2 ^ 31) (h0 : expire ≠ 0) (hexp : expire < 2 ^ 31) :
    tokens (reply .ADD key nr expire)
      = [lit "*4", lit "$5", lit "setex", lengthLine key]
        ++ fields ((cstr key ++ (crlf ++ [lengthLine (decimal expire), decimal expire,
            lengthLine nr].flatMap (· ++ crlf))).take (281 - (decimal key.length).length)
          ++ (nr ++ crlf)) := by
  have hdigits := length_decimal_le hlen
  have hlines : (setexLines key (cstr key) expire).flatMap (· ++ crlf) ++ (lengthLine nr ++ crlf)
      = ([lit "*4", lit "$5", lit "setex"].flatMap (· ++ crlf) ++ (lengthLine key ++ crlf))
        ++ (cstr key ++ (crlf ++ [lengthLine (decimal expire), decimal expire,
            lengthLine nr].flatMap (· ++ crlf))) := by
    simp [setexLines]
  have hlength : ([lit "*4", lit "$5", lit "setex"].flatMap (· ++ crlf)
      ++ (lengthLine key ++ crlf)).length = 18 + (decimal key.length).length := by
    rw [List.length_append, List.length_append, length_lengthLine]
    show 15 + (1 + (decimal key.length).length + 2) = _
    omega
  obtain ⟨w, hw, hfields⟩ := tokens_head (a := lit "*4") (b := lit "$5") (c := lit "setex")
    (by decide) (by decide) (by decide)
    (lengthLine key ++ (crlf ++ ((cstr key ++ (crlf ++ [lengthLine (decimal expire), decimal expire,
      lengthLine nr].flatMap (· ++ crlf))).take (281 - (decimal key.length).length)
        ++ (nr ++ crlf))))
  rw [reply_setex key nr h0 hexp, hlines, take_append_fit (by omega), hlength,
    show 299 - (18 + (decimal key.length).length) = 281 - (decimal key.length).length by omega,
    List.append_assoc, List.append_assoc, List.append_assoc, hw, hfields (by decide),
    fields_line (clean_lengthLine key)]
  rfl

/-- **The key of a SETEX** has to be a token, and one without a NUL: a key that is printed as nothing
lets the length of the value take the place of the seconds. -/
lemma setex_key (hauth : Authed cfg r) (h250 : key.length < 250) (h0 : expire ≠ 0)
    (hexp : expire < 2 ^ 31) (hnr : nr.length < 2 ^ 31)
    (h : ∃ r', process cfg now r (reply .ADD key nr expire) = .ok (0, [], r') ∧
      r'.keystr = key ∧ r'.expire = (expire + now) % 2 ^ 64) : Clean key ∧ 0 ∉ key := by
  have hauth' : Authed cfg { r with subc := some .setex } := hauth
  have hdigits : (decimal key.length).length ≤ 10 := length_decimal_le (by omega)
  have htok := tokens_add nr (show key.length < 2 ^ 31 by omega) h0 hexp
  set data := reply .ADD key nr expire
  have hv : ∀ t ∈ tokens data, Clean t := fun t ht => clean_of_mem_tokens ht
  have hthird : (tokens data)[2]? = some (lit "setex") := by rw [htok]; rfl
  rw [process_done_iff hthird (show commands (lit "setex") = some .setex from rfl)] at h
  obtain ⟨r', hr', hkey, hexpire⟩ := h
  obtain ⟨hnum, pos, hr'⟩ := valueParser_done hauth' hv (show 5 ≤ 7 by decide) hr'
  obtain ⟨sec, hsec⟩ : ∃ sec, (tokens data)[6]? = some sec :=
    ⟨_, List.getElem?_eq_getElem (by omega)⟩
  rw [takeExpire, elemAt_of_eq_some hsec] at hr'
  obtain ⟨line, hline, -, rfl⟩ := takeContent_spec hv hr'
  have harg : argOf (tokens data) 3 = key := hkey
  have hdelim : NoDelim key := by
    rw [← harg]
    exact noDelim_argOf hv 3
  have hshort := length_cstr_le key
  by_cases htext : cstr key = []
  · exfalso
    have hfit : (crlf ++ [lengthLine (decimal expire), decimal expire,
        lengthLine nr].flatMap (· ++ crlf)).length ≤ 281 - (decimal key.length).length := by
      have := length_decimal_le hexp
      have := length_decimal_le (show (decimal expire).length < 2 ^ 31 by omega)
      have := length_decimal_le hnr
      have hcrlf : crlf.length = 2 := rfl
      simp only [List.flatMap_cons, List.flatMap_nil, List.length_append, List.length_nil,
        length_lengthLine]
      omega
    rw [htok, htext, List.nil_append, List.take_of_length_le hfit, List.append_assoc, fields_crlf,
      fields_lines] at hsec
    · obtain rfl : lengthLine nr = sec := Option.some.inj hsec
      have hsame : (toUInt64 (atoi (lengthLine nr)) + now) % 2 ^ 64 = (expire + now) % 2 ^ 64 :=
        hexpire
      have hzero : toUInt64 0 = 0 := rfl
      rw [Request.atoi_lengthLine, hzero] at hsame
      omega
    · simpa using ⟨clean_lengthLine (decimal expire), ⟨decimal_ne_nil _, noDelim_decimal _⟩,
        clean_lengthLine nr⟩
  · obtain ⟨j, hj⟩ : ∃ j, 281 - (decimal key.length).length = (cstr key).length + (2 + j) :=
      ⟨281 - (decimal key.length).length - (cstr key).length - 2, by omega⟩
    have hcut : ∀ s : Str, (crlf ++ s).take (2 + j) = crlf ++ s.take j := fun s => by
      rw [take_append_fit (show crlf.length ≤ 2 + j by simp [crlf, lit]),
        show 2 + j - crlf.length = j from Nat.add_sub_cancel_left 2 j]
    rw [htok, hj, List.take_length_add_append, hcut, List.append_assoc, List.append_assoc,
      fields_line ⟨htext, noDelim_cstr hdelim⟩] at harg
    have hlong : key.length ≤ (cstr key).length :=
      (congrArg List.length harg).symm.trans_le (List.length_take_le' _ _)
    have hkey : cstr key = key := (List.takeWhile_prefix _).eq_of_length_le hlong
    exact ⟨⟨hkey ▸ htext, hdelim⟩, hkey ▸ zero_notMem_cstr key⟩

/-- A text that a delimiter is appended to without a change but for its first two bytes begins with
a delimiter. -/
lemma head_of_shift : ∀ {s : Str}, (s ++ crlf).drop 2 = s → ∃ b t, s ++ crlf = b :: t ∧ b ∈ crlf
  | [], _ => ⟨13, [10], rfl, by decide⟩
  | [x], h => by
      obtain rfl : 10 = x := (List.cons.inj h).1
      exact ⟨10, crlf, rfl, by decide⟩
  | x :: y :: s, h => by
      have hs : s ++ crlf = x :: y :: s := h
      obtain ⟨b, t, hbt, hb⟩ := head_of_shift (s := s) (by rw [hs]; rfl)
      obtain rfl : b = x := (List.cons.inj (hbt.symm.trans hs)).1
      exact ⟨b, _, rfl, hb⟩

/-- Behind the time to live there is still room. -/
lemma length_setexLines (h250 : key.length < 250) (hexp : expire < 2 ^ 31) :
    ((setexLines key key expire).flatMap (· ++ crlf)).length ≤ 289 := by
  have hkey : (decimal key.length).length ≤ 3 := (decimal_length_le_iff (by decide)).mpr (by omega)
  have hdigits := length_decimal_le hexp
  have hsize : (decimal (decimal expire).length).length ≤ 2 :=
    (decimal_length_le_iff (by decide)).mpr (by omega)
  simp only [setexLines, List.flatMap_cons, List.flatMap_nil, List.length_append,
    length_lengthLine]
  show 2 + 2 + (2 + 2 + (5 + 2 + (_ + 2 + (_ + 2 + (_ + 2 + (_ + 2 + 0)))))) ≤ _
  omega

/-- The value and the delimiter behind it, cut at the first delimiter. -/
lemma first_delim (nr : Str) :
    ∃ a b c s, nr ++ crlf = a ++ b :: c :: s ∧ b ∈ crlf ∧ NoDelim a := by
  rcases clean_or_split nr with hclean | ⟨a, b, t, rfl, hb, ha⟩
  · exact ⟨nr, 13, 10, [], rfl, by decide, hclean⟩
  · obtain ⟨c, s, hs⟩ : ∃ c s, t ++ crlf = c :: s := by cases t <;> exact ⟨_, _, rfl⟩
    exact ⟨a, b, c, s, by rw [List.append_assoc, List.cons_append, hs], hb, ha⟩

/-- **The end of a SETEX.**  The buffer has room for `m` bytes of the line with the length of the
value and its delimiter. -/
lemma setex_tail (hauth : Authed cfg r) (hkey : Clean key) (h250 : key.length < 250)
    (hexp : expire < 2 ^ 31) (hnr : nr.length < 2 ^ 31) {m : ℕ} (hm : 1 < m) :
    (∃ r', process cfg now r ((setexLines key key expire).flatMap (· ++ crlf)
          ++ ((lengthLine nr ++ crlf).take m ++ (nr ++ crlf))) = .ok (0, [], r') ∧
        r'.subc = some .setex ∧ r'.keystr = key ∧ r'.content = nr ∧ r'.rlbytes = nr.length ∧
        r'.expire = (expire + now) % 2 ^ 64) ↔
      (lengthLine nr).length ≤ m ∧
        ((nr ++ crlf).drop ((lengthLine nr).length + 2 - m)).take nr.length = nr := by
  have hlv := lengthOf_lengthLine hnr
  rcases lt_trichotomy m ((lengthLine nr).length + 1) with hlt | rfl | hgt
  · -- the delimiter is lost, and the line runs into the value
    obtain ⟨a, b, c, s, hsplit, hb, ha⟩ := first_delim nr
    have hlen : nr.length = a.length + s.length := by
      have := congrArg List.length hsplit
      simp only [crlf, lit, List.length_append, List.length_cons] at this
      simp at this
      omega
    have hcut : (lengthLine nr ++ crlf).take m ++ (nr ++ crlf)
        = ((lengthLine nr).take m ++ a) ++ b :: c :: s := by
      rw [List.take_append_of_le_length (by omega), hsplit, List.append_assoc]
    have hline : Clean ((lengthLine nr).take m ++ a) := by
      refine ⟨?_, fun x hx => ?_⟩
      · obtain ⟨j, rfl⟩ := Nat.exists_eq_add_of_lt hm
        exact List.cons_ne_nil _ _
      · rcases List.mem_append.mp hx with hx | hx
        · exact (clean_lengthLine nr).2 x (List.mem_of_mem_take hx)
        · exact ha x hx
    rw [hcut, setex_iff hauth hkey h250 hexp hline hb]
    constructor
    · rintro ⟨hrl, hs⟩
      have hnil : a = [] := by
        have := congrArg List.length hs
        rw [List.length_take] at this
        exact List.length_eq_zero_iff.mp (by omega)
      subst hnil
      have hfull : m = (lengthLine nr).length := by
        by_contra hne
        obtain ⟨j, rfl⟩ : ∃ j, m = j + 1 := ⟨m - 1, by omega⟩
        have hj : j < (decimal nr.length).length := by
          have := length_lengthLine nr
          omega
        have hrl : lengthOf (36 :: (decimal nr.length).take j) = nr.length := by
          rw [List.append_nil] at hrl
          exact hrl
        have hsmall := lengthOf_cut hnr hj
        rw [hrl, ← decimal_length_le_iff (by omega)] at hsmall
        omega
      refine ⟨hfull.ge, ?_⟩
      rw [hfull, Nat.add_sub_cancel_left, hsplit]
      exact hs
    · rintro ⟨hle, hs⟩
      obtain rfl : m = (lengthLine nr).length := by omega
      rw [Nat.add_sub_cancel_left] at hs
      have hshift : (nr ++ crlf).drop 2 = nr := by
        rw [← List.take_of_length_le (l := (nr ++ crlf).drop 2) (i := nr.length) (by simp [crlf, lit])]
        exact hs
      obtain ⟨b', t, hbt, hb'⟩ := head_of_shift hshift
      have hnil : a = [] := by
        cases a with
        | nil => rfl
        | cons x a =>
            rw [hbt] at hsplit
            obtain rfl : b' = x := (List.cons.inj hsplit).1
            exact absurd hb' (ha b' (by simp))
      subst hnil
      rw [hsplit] at hs
      refine ⟨?_, hs⟩
      rw [List.append_nil, List.take_length, hlv]
  · obtain ⟨c, s, hs⟩ : ∃ c s, nr ++ crlf = c :: s := by cases nr <;> exact ⟨_, _, rfl⟩
    have hcut : (lengthLine nr ++ crlf).take ((lengthLine nr).length + 1) ++ (nr ++ crlf)
        = lengthLine nr ++ 13 :: c :: s := by
      rw [List.take_length_add_append, hs, List.append_assoc]
      rfl
    rw [hcut, setex_iff hauth hkey h250 hexp (clean_lengthLine nr) (by decide), hs,
      show (lengthLine nr).length + 2 - ((lengthLine nr).length + 1) = 1 by omega]
    exact ⟨fun h => ⟨by omega, h.2⟩, fun h => ⟨hlv, h.2⟩⟩
  · have hcut : (lengthLine nr ++ crlf).take m ++ (nr ++ crlf)
        = lengthLine nr ++ 13 :: 10 :: (nr ++ crlf) := by
      rw [List.take_of_length_le (by simp [crlf, lit]; omega), List.append_assoc]
      rfl
    rw [hcut, setex_iff hauth hkey h250 hexp (clean_lengthLine nr) (by decide),
      Nat.sub_eq_zero_of_le (by omega), List.drop_zero, List.take_left]
    exact ⟨fun _ => ⟨by omega, rfl⟩, fun _ => ⟨hlv, rfl⟩⟩

/-- An entry whose time to live is used up is not sent as a SETEX. -/
lemma reply_set_subc (hauth : Authed cfg r) {r' : GentRedis}
    (h : process cfg now r (reply .ADD key nr 0) = .ok (0, [], r')) : r'.subc = some .set := by
  have hauth' : Authed cfg { r with subc := some .set } := hauth
  have hcut : reply .ADD key nr 0
      = [lit "*3", lit "$3", lit "set"].flatMap (· ++ crlf)
        ++ ((lengthLine key ++ (crlf ++ (cstr key ++ (crlf ++ (lengthLine nr ++ crlf))))).take 286
          ++ (nr ++ crlf)) := by
    have hhead : lit "*3\r\n$3\r\nset\r\n$"
        = [lit "*3", lit "$3", lit "set"].flatMap (· ++ crlf) ++ lit "$" := rfl
    have hsep : lit "\r\n$" = crlf ++ lit "$" := rfl
    have htake : ∀ s : Str, ([lit "*3", lit "$3", lit "set"].flatMap (· ++ crlf) ++ s).take 299
        = [lit "*3", lit "$3", lit "set"].flatMap (· ++ crlf) ++ s.take 286 := fun s =>
      take_append_fit (by decide) s
    simp only [reply, if_true, snprintf, hhead, hsep, List.append_assoc, htake, lengthLine]
    rfl
  obtain ⟨w, hw, -⟩ := tokens_head (a := lit "*3") (b := lit "$3") (c := lit "set")
    (by decide) (by decide) (by decide)
    ((lengthLine key ++ (crlf ++ (cstr key ++ (crlf ++ (lengthLine nr ++ crlf))))).take 286
      ++ (nr ++ crlf))
  rw [← hcut] at hw
  have hv : ∀ t ∈ tokens (reply .ADD key nr 0), Clean t := fun t ht => clean_of_mem_tokens ht
  have hthird : (tokens (reply .ADD key nr 0))[2]? = some (lit "set") := by rw [hw]; rfl
  obtain ⟨r'', hr'', rfl⟩ := (process_done_iff hthird (show commands (lit "set") = some .set from rfl)
    (· = r')).mp ⟨r', h, rfl⟩
  obtain ⟨-, pos, hr''⟩ := valueParser_done hauth' hv le_rfl hr''
  obtain ⟨-, -, -, rfl⟩ := takeContent_spec hv hr''
  rfl

lemma add_iff (now : ℕ) (hauth : Authed cfg r) (h250 : key.length < 250) (hexp : expire < 2 ^ 31)
    (hnr : nr.length < 2 ^ 31) :
    (∃ r', process cfg now r (reply .ADD key nr expire) = .ok (0, [], r') ∧
        r'.subc = some .setex ∧ r'.keystr = key ∧ r'.content = nr ∧ r'.rlbytes = nr.length ∧
        r'.expire = (expire + now) % 2 ^ 64) ↔
      expire ≠ 0 ∧ Clean key ∧ 0 ∉ key ∧
        let printed :=
          ((setexLines key key expire).flatMap (· ++ crlf) ++ (lengthLine nr ++ crlf)).length
        printed ≤ 301 ∧ ((nr ++ crlf).drop (printed - 299)).take nr.length = nr := by
  by_cases h0 : expire = 0
  · subst h0
    refine iff_of_false ?_ (by simp)
    rintro ⟨r', hr', hsub, -⟩
    rw [reply_set_subc hauth hr'] at hsub
    cases hsub
  by_cases hkey : Clean key ∧ 0 ∉ key
  · obtain ⟨hclean, hzero⟩ := hkey
    have hroom := length_setexLines h250 hexp
    set head := (setexLines key key expire).flatMap (· ++ crlf) with hhead
    have hcut : reply .ADD key nr expire
        = head ++ ((lengthLine nr ++ crlf).take (299 - head.length) ++ (nr ++ crlf)) := by
      rw [reply_setex key nr h0 hexp, cstr_eq_self hzero, ← hhead, take_append_fit (by omega),
        List.append_assoc]
    have hprinted : (head ++ (lengthLine nr ++ crlf)).length
        = head.length + ((lengthLine nr).length + 2) := by
      rw [List.length_append, List.length_append]
      rfl
    rw [hcut, setex_tail hauth hclean h250 hexp hnr (by omega), hprinted]
    dsimp only
    rw [show head.length + ((lengthLine nr).length + 2) - 299
        = (lengthLine nr).length + 2 - (299 - head.length) by omega]
    constructor
    · rintro ⟨hle, hshift⟩
      exact ⟨h0, hclean, hzero, by omega, hshift⟩
    · rintro ⟨-, -, -, hle, hshift⟩
      exact ⟨by omega, hshift⟩
  · refine iff_of_false ?_ fun h => hkey ⟨h.2.1, h.2.2.1⟩
    rintro ⟨r', hr', -, hname, -, -, hexpire⟩
    exact hkey (setex_key hauth h250 h0 hexp hnr ⟨r', hr', hname, hexpire⟩)

end Setex

/-! ## MSET -/

/-- A pair that fits is printed as a client would send it. -/
lemma replyItem_of_fits {key nr : Str} (h : PairFits key nr) :
    replyItem key nr = pairBytes (key, nr) := by
  rw [replyItem_eq, cstr_eq_self h.1, List.take_of_length_le h.2]
  simp [pairLines, pairBytes, bulk]

lemma msetReply_eq (outstr : Str) {num : ℕ} (h : num ≤ syncNum) :
    msetReply outstr num = Request.msetBytes (lit "mset") num outstr := by
  have hdigits : (decimal (num * 2 + 1)).length ≤ 1 := by
    rw [decimal_length_le_iff (by decide)]
    simp only [syncNum] at h
    omega
  have htail : lit "\r\n$4\r\nmset\r\n"
      = crlf ++ (lengthLine (lit "mset") ++ crlf ++ (lit "mset" ++ crlf)) := rfl
  rw [msetReply, snprintf, List.take_of_length_le, Request.msetBytes, Request.msetLines, mul_comm,
    htail]
  · simp [lit]
  · simp only [List.length_append]
    show 1 + (decimal (num * 2 + 1)).length + 12 ≤ 29
    omega

section Pair

variable {data key nr : Str} {m m' : MsetData}

/-- **What a turn that stores a pair has read.** -/
lemma itemLoop_stored {n : ℕ} (h : itemLoop (n + 1) data m = .ok (0, m')) :
    ∃ k d, pairKey data m = some k ∧ LenSafe data k ∧ pairLen data k = some d ∧
      d.pairEnd ≤ data.length ∧ d.cur_content_start ≤ data.length ∧
      itemLoop n (data.drop d.pairEnd) (d.store data) = .ok (0, m') := by
  obtain ⟨hkey, hrest⟩ := (itemLoop_runs_iff _ _ _).mp ⟨_, h⟩
  have hwait : ∀ m : MsetData, Except.ok (ε := Fault) (m.wait data) ≠ .ok (0, m') := by
    intro m hm
    have := (Prod.mk.inj (Except.ok.inj hm)).1
    simp [mgetReq] at this
  rw [itemLoop, itemKey_of_safe hkey, ok_bind] at h
  cases hk : pairKey data m with
  | none =>
      rw [hk] at h
      exact absurd h (hwait m)
  | some k =>
      obtain ⟨hlen, hrest⟩ := hrest k hk
      simp only [hk, itemLen_of_safe hlen, ok_bind] at h
      cases hd : pairLen data k with
      | none =>
          rw [hd] at h
          exact absurd h (hwait k)
      | some d =>
          simp only [hd] at h
          by_cases hshort : data.length < d.pairEnd
          · rw [if_pos hshort] at h
            exact absurd h (hwait d)
          · rw [if_neg hshort] at h
            have hstart := (hrest d hd (by omega)).1
            rw [substr_of_le hstart, ok_bind, substrFrom_of_le (by omega), ok_bind] at h
            exact ⟨k, d, rfl, hlen, hd, by omega, hstart, h⟩

/-- Two ways to the same map. -/
lemma insert_inj {d : LevelDb} {k v : Str} (h : d.insert k v = d.insert key nr)
    (honly : (∀ x ∈ d, x = key) ∨ key ∉ d) : k = key ∧ v = nr := by
  have hget : ∀ x : Str, (d.insert k v)[x]? = (d.insert key nr)[x]? := fun x => by rw [h]
  simp only [Std.ExtTreeMap.getElem?_insert, Std.LawfulEqCmp.compare_eq_iff_eq] at hget
  have hk : k = key := by
    by_contra hne
    rcases honly with honly | hnot
    · have hx := hget k
      rw [if_pos rfl, if_neg (Ne.symm hne)] at hx
      exact hne (honly k (Std.ExtTreeMap.mem_iff_isSome_getElem?.mpr (by rw [← hx]; rfl)))
    · have hx := hget key
      rw [if_pos rfl, if_neg hne] at hx
      exact hnot (Std.ExtTreeMap.mem_iff_isSome_getElem?.mpr (by rw [hx]; rfl))
  have hx := hget key
  rw [if_pos hk, if_pos rfl] at hx
  exact ⟨hk, Option.some.inj hx⟩

/-- A key with a NUL is not read back: the delimiter stands where the NUL was. -/
lemma zero_notMem_of_read {s : Str} (h : (cstr key ++ (crlf ++ s)).take key.length = key) :
    0 ∉ key := by
  intro hzero
  obtain ⟨t, ht⟩ := cstr_split hzero
  have hlen : key.length = (cstr key).length + (t.length + 1) := by
    conv_lhs => rw [ht]
    simp
  rw [hlen, List.take_length_add_append] at h
  have hsame : cstr key ++ (crlf ++ s).take (t.length + 1) = cstr key ++ 0 :: t := h.trans ht
  have hhead := (List.cons.inj (List.append_cancel_left hsame)).1
  exact absurd hhead (by decide)

/-- **The length line of a value that has lost something** is not found whole within what was
printed, and it does not spell a negative number. -/
lemma not_cut {j c : ℕ} (hnr : nr.length < 2 ^ 31) (hj : j < (lengthLine nr).length + 2)
    (hfind : findFirstOf ((lengthLine nr ++ crlf).take j ++ (nr ++ crlf)) crlf 0 = some c)
    (hpos : 0 < c) :
    j < c + 2 ∧
      (c ≤ j → lengthOf (((lengthLine nr ++ crlf).take j ++ (nr ++ crlf)).take c) < 2 ^ 63) := by
  rcases Nat.lt_or_ge (lengthLine nr).length j with hlt | hle
  · obtain rfl : j = (lengthLine nr).length + 1 := by omega
    have hcut : (lengthLine nr ++ crlf).take ((lengthLine nr).length + 1) ++ (nr ++ crlf)
        = lengthLine nr ++ 13 :: (nr ++ crlf) := by
      rw [List.take_length_add_append, List.append_assoc]
      rfl
    rw [hcut, findFirstOf_zero (clean_lengthLine nr).2 (by decide), Option.some.injEq] at hfind
    rw [hcut, ← hfind, List.take_left, lengthOf_lengthLine hnr]
    exact ⟨by omega, fun _ => by omega⟩
  · rw [List.take_append_of_le_length hle] at hfind ⊢
    obtain ⟨a, b, t, hsplit, rfl, hb, -⟩ := findFirstOf_eq_some hfind
    rw [List.drop_zero] at hsplit
    have hlen : ((lengthLine nr).take j).length = j := by
      rw [List.length_take, min_eq_left hle]
    have hge : j ≤ a.length := by
      by_contra hlt
      have hmem : b ∈ (lengthLine nr).take j := by
        have hget : ((lengthLine nr).take j ++ (nr ++ crlf))[a.length]? = some b := by
          rw [hsplit]
          simp
        rw [List.getElem?_append_left (by omega)] at hget
        exact List.mem_of_getElem? hget
      exact (clean_lengthLine nr).2 b (List.mem_of_mem_take hmem) hb
    refine ⟨by omega, fun h => ?_⟩
    rw [show 0 + a.length = j by omega, List.take_append_of_le_length (by omega),
      List.take_of_length_le hlen.le]
    rcases Nat.eq_or_lt_of_le hle with rfl | hlt
    · rw [List.take_length, lengthOf_lengthLine hnr]
      omega
    · obtain ⟨i, rfl⟩ : ∃ i, j = i + 1 := ⟨j - 1, by omega⟩
      have hi : i < (decimal nr.length).length := by
        have := length_lengthLine nr
        omega
      have hcut : lengthOf ((lengthLine nr).take (i + 1)) < 10 ^ i := lengthOf_cut hnr hi
      have hnine : 10 ^ i ≤ 10 ^ 9 := by
        refine Nat.pow_le_pow_right (by decide) ?_
        have := length_decimal_le hnr
        omega
      omega

/-- The value of a pair starts behind the header as it was printed, or, for a negative length, it is
all that is left. -/
lemma pair_start {kept cpos len : ℕ} (hsize : data.length = kept + nr.length + 2)
    (hlen : data.length < 2 ^ 32) (hend : (cpos + 2 + len + 2) % 2 ^ 64 ≤ data.length)
    (hstart : cpos + 2 ≤ data.length) (hvalue : (data.drop (cpos + 2)).take len = nr) :
    cpos + 2 ≤ kept ∨ cpos = kept ∧ 2 ^ 63 ≤ len := by
  have hnr : min len (data.length - (cpos + 2)) = nr.length := by
    rw [← hvalue, List.length_take, List.length_drop]
  by_cases hwrap : cpos + 2 + len + 2 < 2 ^ 64
  · rw [Nat.mod_eq_of_lt hwrap] at hend
    omega
  · omega

/-- The last turn leaves the pair that was read. -/
lemma itemLoop_last (h : itemLoop 1 data m = .ok (0, m')) :
    ∃ k d, pairKey data m = some k ∧ LenSafe data k ∧ pairLen data k = some d ∧
      d.pairEnd ≤ data.length ∧ d.cur_content_start ≤ data.length ∧
      m'.keys_values = d.keys_values.insert d.cur_key
        ((data.drop d.cur_content_start).take d.cur_content_len) := by
  obtain ⟨k, d, hk, hsafe, hd, hend, hstart, hlast⟩ := itemLoop_stored h
  refine ⟨k, d, hk, hsafe, hd, hend, hstart, ?_⟩
  rw [itemLoop, Except.ok.injEq] at hlast
  split_ifs at hlast
  · have := (Prod.mk.inj hlast).1
    simp [mgetReq] at this
  · rw [← (Prod.mk.inj hlast).2]
    rfl

lemma length_lengthLine_crlf (arg : Str) :
    (lengthLine arg ++ crlf).length = (lengthLine arg).length + 2 := List.length_append

/-- The length of the key is printed in any case. -/
lemma replyItem_cut (hkey : key.length < 2 ^ 31) :
    replyItem key nr = (lengthLine key ++ crlf)
      ++ ((cstr key ++ (crlf ++ (lengthLine nr ++ crlf))).take (97 - (lengthLine key).length)
        ++ (nr ++ crlf)) := by
  have hlk := length_lengthLine key
  have hdk := length_decimal_le hkey
  have hl := length_lengthLine_crlf key
  have hlines : (pairLines key (cstr key) nr).flatMap (· ++ crlf)
      = (lengthLine key ++ crlf) ++ (cstr key ++ (crlf ++ (lengthLine nr ++ crlf))) := by
    simp [pairLines]
  rw [replyItem_eq, hlines, take_append_fit (by omega), hl, List.append_assoc,
    show 99 - ((lengthLine key).length + 2) = 97 - (lengthLine key).length by omega]

/-- **A pair that has lost something behind its key**: the length line of the value ends with the
printed bytes or later. -/
lemma pair_lost (hkey : key.length < 2 ^ 31) (hnr : nr.length < 2 ^ 31) (hzero : 0 ∉ key)
    (hlong : 99 < ((pairLines key key nr).flatMap (· ++ crlf)).length) {cpos : ℕ}
    (hroom : (lengthLine key).length + 2 + key.length + 2 ≤ 99)
    (hfind : findFirstOf (replyItem key nr) crlf ((lengthLine key).length + 2 + key.length + 2)
      = some cpos)
    (hgt : (lengthLine key).length + 2 + key.length + 2 < cpos) :
    99 < cpos + 2 ∧ (cpos ≤ 99 → lengthOf (field (replyItem key nr)
      ((lengthLine key).length + 2 + key.length + 2) cpos) < 2 ^ 63) := by
  have hcrlf : crlf.length = 2 := rfl
  simp only [pairLines, List.flatMap_cons, List.flatMap_nil, List.length_append, List.length_nil,
    hcrlf] at hlong
  obtain ⟨j, hj⟩ : ∃ j, (lengthLine key).length + 2 + key.length + 2 + j = 99 :=
    ⟨99 - ((lengthLine key).length + 2 + key.length + 2), by omega⟩
  have hpre : (lengthLine key).length + 2 + key.length + 2
      = ((lengthLine key ++ crlf) ++ (key ++ crlf)).length := by
    simp only [List.length_append, hcrlf]
    omega
  have htail : replyItem key nr = ((lengthLine key ++ crlf) ++ (key ++ crlf))
      ++ ((lengthLine nr ++ crlf).take j ++ (nr ++ crlf)) := by
    have hl : (key ++ crlf).length = key.length + 2 := List.length_append
    have hcut : (key ++ (crlf ++ (lengthLine nr ++ crlf))).take (97 - (lengthLine key).length)
        = (key ++ crlf) ++ (lengthLine nr ++ crlf).take j := by
      rw [← List.append_assoc, take_append_fit (by omega), hl,
        show 97 - (lengthLine key).length - (key.length + 2) = j by omega]
    rw [replyItem_cut hkey, cstr_eq_self hzero, hcut]
    simp only [List.append_assoc]
  have hshift := findFirstOf_shift ((lengthLine key ++ crlf) ++ (key ++ crlf))
    ((lengthLine nr ++ crlf).take j ++ (nr ++ crlf)) crlf 0
  rw [← htail, ← hpre, Nat.add_zero, hfind] at hshift
  obtain ⟨c, hc, rfl⟩ := Option.map_eq_some_iff.mp hshift.symm
  obtain ⟨hlt, hsmall⟩ := not_cut hnr (by omega) hc (by omega)
  refine ⟨by omega, fun hcpos => ?_⟩
  have hfield : field (replyItem key nr) ((lengthLine key).length + 2 + key.length + 2)
      ((lengthLine key).length + 2 + key.length + 2 + c)
      = ((lengthLine nr ++ crlf).take j ++ (nr ++ crlf)).take c := by
    rw [field, Nat.add_sub_cancel_left, hpre, htail, List.drop_left]
  rw [hfield]
  exact hsmall (by omega)

/-- **A last pair that is read as it was meant** has lost nothing. -/
lemma pairFits_of_stored (hm : m.Idle) (hkey : key.length < 2 ^ 31) (hnr : nr.length < 2 ^ 31)
    (h : itemLoop 1 (replyItem key nr) m = .ok (0, m'))
    (hvalues : m'.keys_values = m.keys_values.insert key nr)
    (honly : (∀ x ∈ m.keys_values, x = key) ∨ key ∉ m.keys_values) : PairFits key nr := by
  have hl := length_lengthLine_crlf key
  set body := cstr key ++ (crlf ++ (lengthLine nr ++ crlf)) with hbody
  have htext : replyItem key nr = (lengthLine key ++ crlf)
      ++ (body.take (97 - (lengthLine key).length) ++ (nr ++ crlf)) := replyItem_cut hkey
  have hfirst : findFirstOf (replyItem key nr) crlf 0 = some (lengthLine key).length := by
    rw [htext, List.append_assoc]
    exact findFirstOf_zero (clean_lengthLine key).2 (b := 13) (by decide)
  have hline : (replyItem key nr).take (lengthLine key).length = lengthLine key := by
    rw [htext, List.append_assoc, List.take_left]
  have hlk := length_lengthLine key
  have hdk := length_decimal_le hkey
  -- what the one turn has read
  obtain ⟨k, d, hk, hsafe, hd, hend, hstart, hstored⟩ := itemLoop_last h
  simp only [pairKey, hm.1, if_true, hfirst, Option.bind_some, hline, lengthOf_lengthLine hkey,
    Nat.mod_eq_of_lt (show (lengthLine key).length + 2 + key.length < 2 ^ 64 by omega),
    Nat.mod_eq_of_lt (show (lengthLine key).length + 2 + key.length + 2 < 2 ^ 64 by omega)] at hk
  split_ifs at hk with hshort
  obtain rfl := Option.some.inj hk
  simp only [pairLen, hm.2, if_true, Option.map_eq_some_iff] at hd
  obtain ⟨cpos, hfind, rfl⟩ := hd
  have hgt : (lengthLine key).length + 2 + key.length + 2 < cpos := hsafe hm.2 cpos hfind
  obtain ⟨hread, hvalue⟩ := insert_inj (hstored.symm.trans hvalues) honly
  dsimp only at hread
  -- the value starts within what was printed
  have hkept : (body.take (97 - (lengthLine key).length)).length ≤ 97 - (lengthLine key).length :=
    List.length_take_le _ _
  have hsize : (replyItem key nr).length = ((lengthLine key).length + 2
      + (body.take (97 - (lengthLine key).length)).length) + nr.length + 2 := by
    have hcrlf : crlf.length = 2 := rfl
    simp only [htext, List.length_append, hcrlf]
    omega
  have hwhere := pair_start hsize (by omega) hend hstart hvalue
  -- so the key was read from there, too
  have hzero : 0 ∉ key := by
    have hdrop : (replyItem key nr).drop ((lengthLine key).length + 2)
        = body.take (97 - (lengthLine key).length) ++ (nr ++ crlf) := by
      rw [htext, ← hl, List.drop_left]
    rw [hdrop, List.take_append_of_le_length (by omega), List.take_take, min_eq_left (by omega)]
      at hread
    exact zero_notMem_of_read hread
  refine ⟨hzero, ?_⟩
  by_contra hlong
  obtain ⟨hlate, hsmall⟩ := pair_lost hkey hnr hzero (by omega) (by omega) hfind hgt
  rcases hwhere with hwhere | ⟨hwhere, hbig⟩
  · omega
  · exact absurd hbig (not_le.mpr (hsmall (by omega)))

end Pair

section Mset

variable {cfg : Config} {now : ℕ} {r : GentRedis} {items : List (ItemData × Str)}

/-- **An MSET is its pairs.** -/
lemma mset_acts_iff_loop (hauth : Authed cfg r) (hnum : items.length ≤ syncNum) :
    (Batch.mset items).Acts cfg now r ↔
      ∃ m', itemLoop items.length (items.flatMap fun p => replyItem p.1.name p.2)
          { r.mdata with totalSetNum := items.length, setNum := items.length } = .ok (0, m') ∧
        m'.keys_values = items.foldl (fun d p => d.insert p.1.name p.2) ∅ := by
  show (∃ r', process cfg now r (msetReply _ _) = .ok (0, [], r') ∧ _) ↔ _
  rw [msetReply_eq _ hnum]
  simp only [syncNum] at hnum
  exact Request.process_mset_iff hauth rfl (by omega) _ fun m => m.keys_values = _

/-- Pairs that fit are all read. -/
lemma itemLoop_of_fits {m : MsetData} (hidle : m.Idle)
    (hlen : (Batch.mset items).outstr.length < 2 ^ 31) (hfits : (Batch.mset items).Fits) :
    ∃ m', itemLoop items.length (items.flatMap fun p => replyItem p.1.name p.2)
        { m with totalSetNum := items.length, setNum := items.length } = .ok (0, m') ∧ m'.Idle ∧
      m'.keys_values = items.foldl (fun d p => d.insert p.1.name p.2) m.keys_values := by
  have hpairs : (items.flatMap fun p => replyItem p.1.name p.2)
      = (items.map fun p => (p.1.name, p.2)).flatMap pairBytes := by
    rw [List.flatMap_map]
    exact List.flatMap_congr fun p hp => replyItem_of_fits (hfits p hp)
  have hsize : ((items.map fun p => (p.1.name, p.2)).flatMap pairBytes).length < 2 ^ 31 := by
    rw [Batch.outstr, msetReply, hpairs, List.length_append] at hlen
    omega
  obtain ⟨m', hloop, hidle', hvalues⟩ := itemLoop_pairs (items.map fun p => (p.1.name, p.2))
    (m := { m with totalSetNum := items.length, setNum := items.length }) hidle (by simp) hsize
  rw [List.length_map] at hloop
  rw [List.foldl_map] at hvalues
  exact ⟨m', hpairs ▸ hloop, hidle', hvalues⟩

lemma mset_acts_of_fits (hauth : Authed cfg r) (hidle : r.mdata.Idle)
    (hnone : r.mdata.keys_values = ∅) (hnum : items.length ≤ syncNum)
    (hlen : (Batch.mset items).outstr.length < 2 ^ 31) (hfits : (Batch.mset items).Fits) :
    (Batch.mset items).Acts cfg now r := by
  obtain ⟨m', hloop, -, hvalues⟩ := itemLoop_of_fits hidle hlen hfits
  rw [mset_acts_iff_loop hauth hnum]
  exact ⟨m', hloop, by rw [hvalues, hnone]⟩

/-- In front of the last pair at most one key has been stored. -/
lemma stored_one (hone : items.length ≤ 1) (key : Str) :
    (∀ x ∈ items.foldl (fun d p => d.insert p.1.name p.2) (∅ : LevelDb), x = key) ∨
      key ∉ items.foldl (fun d p => d.insert p.1.name p.2) (∅ : LevelDb) := by
  match items, hone with
  | [], _ => exact Or.inr Std.ExtTreeMap.not_mem_empty
  | [p], _ =>
      have hmem : ∀ x : Str, x ∈ (∅ : LevelDb).insert p.1.name p.2 → p.1.name = x := fun x hx => by
        rw [Std.ExtTreeMap.mem_insert, Std.LawfulEqCmp.compare_eq_iff_eq] at hx
        exact hx.resolve_right Std.ExtTreeMap.not_mem_empty
      by_cases hkey : p.1.name = key
      · exact Or.inl fun x hx => (hmem x hx).symm.trans hkey
      · exact Or.inr fun hx => hkey (hmem key hx)

/-- The condition is exact for the last pair. -/
lemma fits_of_mset_acts (hauth : Authed cfg r) (hidle : r.mdata.Idle)
    (hnone : r.mdata.keys_values = ∅) (hnum : items.length ≤ syncNum)
    (hkeys : ∀ p ∈ items, p.1.name.length < 2 ^ 31)
    (hlen : (Batch.mset items).outstr.length < 2 ^ 31) (hlead : (Batch.mset items).LeadersFit)
    (hacts : (Batch.mset items).Acts cfg now r) : (Batch.mset items).Fits := by
  obtain ⟨m', hloop, hvalues⟩ := (mset_acts_iff_loop hauth hnum).mp hacts
  rw [Batch.outstr, msetReply, List.length_append] at hlen
  rcases List.eq_nil_or_concat items with rfl | ⟨lead, q, rfl⟩
  · exact fun p hp => absurd hp List.not_mem_nil
  rw [List.concat_eq_append] at *
  have hlead : ∀ p ∈ lead, PairFits p.1.name p.2 := by
    simpa [Batch.LeadersFit] using hlead
  have hpairs : ((lead ++ [q]).flatMap fun p => replyItem p.1.name p.2)
      = (lead.map fun p => (p.1.name, p.2)).flatMap pairBytes ++ replyItem q.1.name q.2 := by
    rw [List.flatMap_append, List.flatMap_map, List.flatMap_singleton]
    exact congrArg (· ++ _) (List.flatMap_congr fun p hp => replyItem_of_fits (hlead p hp))
  rw [hpairs] at hloop hlen
  obtain ⟨m, hrest, hm, -, hbase⟩ := itemLoop_lead (s := replyItem q.1.name q.2) 1
    (lead.map fun p => (p.1.name, p.2))
    (m := { r.mdata with totalSetNum := (lead ++ [q]).length, setNum := (lead ++ [q]).length })
    hidle (by omega)
  rw [List.length_map] at hrest
  have hlast := hrest.symm.trans (by simpa using hloop)
  have hbase : m.keys_values = lead.foldl (fun d p => d.insert p.1.name p.2) ∅ := by
    rw [hbase, List.foldl_map, hnone]
  have hnr : q.2.length < 2 ^ 31 := by
    have hsize := congrArg List.length (replyItem_eq q.1.name q.2)
    simp only [List.length_append] at hsize hlen
    omega
  have hfits : PairFits q.1.name q.2 := by
    refine pairFits_of_stored hm (hkeys q (by simp)) hnr hlast ?_ ?_
    · rw [hvalues, hbase, List.foldl_append]
      rfl
    · rw [hbase]
      exact stored_one (by simpa [syncNum] using hnum) q.1.name
  intro p hp
  rcases List.mem_append.mp hp with hp | hp
  · exact hlead p hp
  · rw [List.mem_singleton.mp hp]
    exact hfits

end Mset

/-! ## The batches of `Start` -/

/-- **What the commands store.**  Only `setex` gives a key an expiry: the key has less than 250
bytes, and the seconds were an `int` when they were added to a clock that was not later. -/
def Storable (db : GentDb) (now : ℕ) : Prop :=
  ∀ key value expire, db.getExpire key = .ok (some value, expire) → expire ≠ 0 →
    key.length < 250 ∧ expire < now + 2 ^ 31

/-- In terms of the map that the store stands for. -/
lemma storable_of_refines {db : GentDb} {a : ExpMap Str Str} {now : ℕ} (h : Refines db a)
    (ha : ∀ key value expire, a key = some (value, expire) → expire ≠ 0 →
      key.length < 250 ∧ expire < now + 2 ^ 31) : Storable db now := by
  intro key value expire hget h0
  rw [h.getExpire, Except.ok.injEq, Prod.mk.injEq] at hget
  obtain ⟨hvalue, hexpire⟩ := hget
  obtain ⟨⟨v, e⟩, hkey, rfl⟩ := Option.map_eq_some_iff.mp hvalue
  simp only [ExpMap.expiry, hkey] at hexpire
  exact ha key v expire (hexpire ▸ hkey) h0

/-- What is known of a batch: an MSET covers at most `n` entries, and a SETEX is printed with the
value and the rest of the time to live of its key. -/
def Batch.Built (db : GentDb) (now n : ℕ) : Batch → Prop
  | .mset items => items.length ≤ n
  | .add it nr rest => ∃ expire, db.getExpire it.name = .ok (some nr, expire) ∧ expire ≠ 0 ∧
      rest = expire - now
  | _ => True

lemma batchLoop_built {db : GentDb} {now : ℕ} {d d' : List ItemData} {b : Batch}
    {out : List (ItemData × Str)} (h : GentReplication.batchLoop db now d out = .ok (d', b)) :
    b.Built db now (out.length + d.length) := by
  induction d generalizing out d' b with
  | nil =>
      cases h
      exact Nat.le_refl _
  | cons it rest ih =>
      cases GentReplication.batchLoop_turn h with
      | flush _ => exact Nat.le_add_right _ _
      | del _ _ => exact trivial
      | add _ _ hget h0 _ => exact ⟨_, hget, h0, rfl⟩
      | join _ _ hrec =>
          have hb := ih hrec
          cases b with
          | mset items =>
              refine hb.trans ?_
              split_ifs
              · simp
                omega
              · simp
          | add it nr rest => exact hb
          | del it => exact trivial
          | text outstr => exact trivial

lemma frontNums_length {q d : List ItemData} {num : ℕ}
    (h : GentReplication.frontNums q num = some d) : d.length ≤ num := by
  unfold GentReplication.frontNums at h
  split_ifs at h
  obtain rfl := Option.some.inj h
  exact List.length_take_le _ _

lemma frontNumsElement_length {g g' : GentReplication} {now num : ℕ} {d : List ItemData}
    (h : g.frontNumsElement now num = (g', some d)) : d.length ≤ num := by
  unfold GentReplication.frontNumsElement at h
  by_cases hupd : g.is_update_que = false
  · rw [if_pos hupd] at h
    exact frontNums_length (Prod.mk.inj h).2
  · rw [if_neg hupd] at h
    cases hq : GentReplication.frontNums g.que num with
    | some dat =>
        rw [hq] at h
        obtain rfl := Option.some.inj (Prod.mk.inj h).2
        exact frontNums_length hq
    | none =>
        rw [hq] at h
        exact frontNums_length (Prod.mk.inj h).2

lemma start_built {g g' : GentReplication} {db : GentDb} {now : ℕ} {word : GentReplication.Word}
    {b : Batch} {sent : Bool} (h : g.start db now word.text = .ok (g', b, sent)) :
    b.Built db now syncNum := by
  cases GentReplication.start_cases word.text_cases h with
  | idle _ => exact trivial
  | batch hf hb =>
      have hbuilt := batchLoop_built hb
      have hlen := frontNumsElement_length hf
      cases b with
      | mset items =>
          refine hbuilt.trans ?_
          simpa using hlen
      | add it nr rest => exact hbuilt
      | del it => exact trivial
      | text outstr => exact trivial

/-- **Encoder and parser.**  Whatever `Start` builds on the master, the slave does it if the batch
fits; and if it does it, the batch fits, provided that the first pair of an MSET of two does. -/
theorem batch_acts_iff (cfg : Config) (now : ℕ) (r : GentRedis) (hauth : Authed cfg r)
    (hidle : r.mdata.Idle) (hnone : r.mdata.keys_values = ∅) (g g' : GentReplication) (db : GentDb)
    (t : ℕ) (word : GentReplication.Word) (b : Batch) (sent : Bool) (hstore : Storable db t)
    (hstart : g.start db t word.text = .ok (g', b, sent))
    (hkeys : ∀ it ∈ b.items, it.name.length < 2 ^ 31) (hlen : b.outstr.length < 2 ^ 31) :
    (b.Fits → b.Acts cfg now r) ∧ (b.LeadersFit → b.Acts cfg now r → b.Fits) := by
  have hbuilt := start_built hstart
  cases b with
  | text outstr => exact ⟨fun _ => trivial, fun _ _ => trivial⟩
  | del it =>
      have hiff := del_iff now hauth (hkeys it (by simp [Batch.items]))
      exact ⟨hiff.mpr, fun _ => hiff.mp⟩
  | add it nr rest =>
      obtain ⟨expire, hget, h0, rfl⟩ := hbuilt
      obtain ⟨h250, hsoon⟩ := hstore _ _ _ hget h0
      have hnr : nr.length < 2 ^ 31 := by
        simp only [Batch.outstr, reply, List.length_append] at hlen
        omega
      have hiff := add_iff now hauth h250 (show expire - t < 2 ^ 31 by omega) hnr
      exact ⟨hiff.mpr, fun _ => hiff.mp⟩
  | mset items =>
      have hkeys : ∀ p ∈ items, p.1.name.length < 2 ^ 31 := fun p hp =>
        hkeys p.1 (List.mem_map_of_mem hp)
      exact ⟨mset_acts_of_fits hauth hidle hnone hbuilt hlen,
        fits_of_mset_acts hauth hidle hnone hbuilt hkeys hlen⟩

/-- A master on which one key has been set. -/
def oneKeyDb (key : Str) : GentDb := (GentDb.empty.put true true 1700000000 key (lit "v") 0 1).1

/-- Its queue for a slave that is up to date but for this key. -/
def oneKeyRep (key : Str) : GentReplication :=
  ((GentReplication.new (RepInfo.fresh (lit "slave")) .empty 1700000000 false false 0).push
    1700000000 0 .ADD key).1

/-- The batch for the key. -/
def oneKeyBatch (key : Str) : Batch := .mset [(⟨0, key, .ADD, false⟩, lit "v")]

lemma storable_oneKeyDb (key : Str) (now : ℕ) : Storable (oneKeyDb key) now := by
  have hrefines : Refines (oneKeyDb key) (ExpMap.empty.bind key (lit "v") 0) :=
    Refines.empty.put (d := 1) (by decide) (Or.inl rfl) 1700000000 key (lit "v")
  refine storable_of_refines hrefines fun k v e hk h0 => ?_
  by_cases hkey : k = key
  · simp [ExpMap.bind, hkey] at hk
    omega
  · simp [ExpMap.bind, hkey, ExpMap.empty] at hk

set_option maxRecDepth 4000 in
/-- **A key of 95 bytes does not reach the slave.** -/
theorem long_key_lost :
    ∃ g', (oneKeyRep (List.replicate 95 107)).start (oneKeyDb (List.replicate 95 107)) 1700000001
        GentReplication.Word.data.text = .ok (g', oneKeyBatch (List.replicate 95 107), true) ∧
      Storable (oneKeyDb (List.replicate 95 107)) 1700000001 ∧
      ¬ (oneKeyBatch (List.replicate 95 107)).Acts openConfig 0 newRedis := by
  refine ⟨_, rfl, storable_oneKeyDb _ _, fun hacts => ?_⟩
  have hfits := fits_of_mset_acts (Or.inr rfl) ⟨rfl, rfl⟩ rfl (by decide) (by decide) (by decide)
    (by simp [Batch.LeadersFit]) hacts
  have hpair := hfits _ List.mem_cons_self
  revert hpair
  decide

/-- A key of one byte does. -/
theorem batch_acts_iff_short_key :
    (oneKeyBatch (lit "k")).Acts openConfig 0 newRedis := by
  refine (batch_acts_iff openConfig 0 newRedis (Or.inr rfl) ⟨rfl, rfl⟩ rfl (oneKeyRep (lit "k")) _
    (oneKeyDb (lit "k")) 1700000001 .data _ true (storable_oneKeyDb _ _) rfl (by decide)
    (by decide)).1 ?_
  show ∀ p ∈ _, PairFits _ _
  decide

end Riser
