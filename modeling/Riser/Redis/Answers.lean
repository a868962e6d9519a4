import Riser.Core.RespValue
import Riser.Redis.Complete
import Riser.Redis.Request

/-!
# Are the answers well formed?

A client that asks for something should get one RESP value (`Resp.decode`), and nothing behind it.  The
answers are assembled from buffers of fixed size, though, and a key in the answer to `KEYS` or
`RANDOMKEY` goes through a buffer of 260 bytes with `%s`: its length line is right, but of the key
itself only what fits is there, and nothing from a NUL on.  `MSET` stores keys of any length and any
bytes.  The report of `INFO` has 500 bytes, and is cut anywhere if it is longer; a long path of the
configuration file is enough.

The other answers are always right.  `answers_iff` has the exact condition for each command.
-/

namespace Riser

open Cpp

/-! ## The store -/

/-- `time(NULL)`: ten digits, from 2001 to 2286. -/
def Clock := { t : ℕ // TenDigit t }

/-- **The stores that `SET`, `SETEX` and `MSET` lead to.**  The first two take keys of less than 250
bytes; a length prefix is an `int`, and what a negative one lets in is no longer than a buffer. -/
inductive Reachable : GentDb → Prop where
  | empty : Reachable .empty
  | set {s : GentDb} (h : Reachable s) (t : Clock) (okDb okMeta : Bool) (key value : Str)
      (hkey : key.length < 250) (hvalue : value.length < 2 ^ 31) :
      Reachable (s.put okDb okMeta t.1 key value 0 1).1
  | setex {s : GentDb} (h : Reachable s) (t : Clock) (okDb okMeta : Bool) (key value : Str)
      (expire : ℕ) (hkey : key.length < 250) (hvalue : value.length < 2 ^ 31) :
      Reachable (s.put okDb okMeta t.1 key value expire 1).1
  | mset {s : GentDb} (h : Reachable s) (t : Clock) (okDb : Bool) (okMeta : Str → Bool)
      (data : LevelDb) (hdata : ∀ kv ∈ data.toList, kv.1.length < 2 ^ 32 ∧ kv.2.length < 2 ^ 32) :
      Reachable (s.batchPut okDb okMeta t.1 data).1

/-- What the answers need of the store: values whose length a `%u` can print, and meta records that
can be read. -/
structure Sound (s : GentDb) : Prop where
  value : ∀ {k v : Str}, s.db[k]? = some v → v.length < 2 ^ 32
  record : ∀ {k m : Str}, s.meta_db[k]? = some m → 12 ≤ m.length

lemma LevelDb.getElem?_put {d : LevelDb} {ok : Bool} {key value k x : Str}
    (h : (d.put ok key value)[k]? = some x) : d[k]? = some x ∨ x = value := by
  cases ok with
  | false => exact Or.inl h
  | true =>
      rw [show d.put true key value = d.insert key value from rfl,
        Std.ExtTreeMap.getElem?_insert] at h
      split_ifs at h
      · exact Or.inr (Option.some.inj h).symm
      · exact Or.inl h

/-- A batch leaves old values and its own. -/
lemma LevelDb.getElem?_foldl_put (ok : Str → Bool) (f : Str × Str → Str) {k x : Str} :
    ∀ (l : List (Str × Str)) {d : LevelDb},
      (l.foldl (fun d kv => d.put (ok kv.1) kv.1 (f kv)) d)[k]? = some x →
        d[k]? = some x ∨ ∃ kv ∈ l, x = f kv
  | [], _, h => Or.inl h
  | kv :: l, d, h => by
      rcases LevelDb.getElem?_foldl_put ok f l h with h | ⟨kv', hmem, hx⟩
      · rcases LevelDb.getElem?_put h with h | hx
        · exact Or.inl h
        · exact Or.inr ⟨kv, List.mem_cons_self, hx⟩
      · exact Or.inr ⟨kv', List.mem_cons_of_mem kv hmem, hx⟩

lemma decimalInt_length_pos (x : ℤ) : 0 < (decimalInt x).length := by
  unfold decimalInt
  split_ifs
  · exact Nat.succ_pos _
  · exact decimal_length_pos _

/-- A meta record is long enough to be read. -/
lemma length_metaSerialize (datatype : ℤ) (expire : ℕ) (t : Clock) :
    12 ≤ (metaSerialize datatype expire t.1).length := by
  have htype := decimalInt_length_pos datatype
  have hnow := t.2.decimal_length
  have hstar : (lit "*0000000000").length = 11 := by decide
  have hplus : (lit "+").length = 1 := by decide
  have hexp := decimal_length_pos expire
  unfold metaSerialize snprintf
  split_ifs
  · simp only [List.length_take, List.length_append, hstar, hnow]
    omega
  · simp only [List.length_take, List.length_append, hplus, hnow]
    omega

lemma Sound.put {s : GentDb} (h : Sound s) (t : Clock) (okDb okMeta : Bool) (key : Str) {value : Str}
    (hvalue : value.length < 2 ^ 32) (expire : ℕ) (datatype : ℤ) :
    Sound (s.put okDb okMeta t.1 key value expire datatype).1 := by
  have hbody : ∀ {s : GentDb}, Sound s →
      Sound (s.putBody true okDb okMeta t.1 key value expire datatype).1 := by
    intro s h
    refine ⟨fun {k v} hv => ?_, fun {k m} hm => ?_⟩
    · rcases LevelDb.getElem?_put hv with hv | rfl
      · exact h.value hv
      · exact hvalue
    · cases okDb with
      | false => exact h.record hm
      | true =>
          rcases LevelDb.getElem?_put hm with hm | rfl
          · exact h.record hm
          · exact length_metaSerialize datatype expire t
  unfold GentDb.put
  split_ifs
  · exact hbody (s := { s with write_num := 0 }) ⟨h.value, h.record⟩
  · exact hbody h

lemma Sound.batchPut {s : GentDb} (h : Sound s) (t : Clock) (okDb : Bool) (okMeta : Str → Bool)
    {data : LevelDb} (hdata : ∀ kv ∈ data.toList, kv.2.length < 2 ^ 32) :
    Sound (s.batchPut okDb okMeta t.1 data).1 := by
  cases okDb with
  | false => exact h
  | true =>
      refine ⟨fun {k v} hv => ?_, fun {k m} hm => ?_⟩
      · rcases LevelDb.getElem?_foldl_put (fun _ => true) Prod.snd data.toList hv
          with hv | ⟨kv, hmem, rfl⟩
        · exact h.value hv
        · exact hdata kv hmem
      · rcases LevelDb.getElem?_foldl_put okMeta (fun _ => metaSerialize 0 0 t.1) data.toList hm
          with hm | ⟨kv, -, rfl⟩
        · exact h.record hm
        · exact length_metaSerialize 0 0 t

/-- **Every store that is reached is sound.** -/
lemma Reachable.sound {s : GentDb} (h : Reachable s) : Sound s := by
  induction h with
  | empty =>
      refine ⟨fun {k v} h => ?_, fun {k m} h => ?_⟩
      · simp [GentDb.empty] at h
      · simp [GentDb.empty] at h
  | set _ t okDb okMeta key value _ hvalue ih => exact ih.put t okDb okMeta key (by omega) 0 1
  | setex _ t okDb okMeta key value expire _ hvalue ih =>
      exact ih.put t okDb okMeta key (by omega) expire 1
  | mset _ t okDb okMeta data hdata ih =>
      exact ih.batchPut t okDb okMeta fun kv hkv => (hdata kv hkv).2

lemma strtoull_lt_two_pow (s : Str) : strtoull s < 2 ^ 64 := by
  unfold strtoull toUInt64
  dsimp only
  split_ifs
  · decide
  · omega
  · omega

lemma metaUnserialize_of_le {m : Str} (h : 12 ≤ m.length) :
    ∃ dat, metaUnserialize m = .ok dat ∧ dat.expire < 2 ^ 64 := by
  have h0 : substr m 0 1 = _ := substr_of_le (Nat.zero_le _) 1
  have h1 : substr m 1 1 = _ := substr_of_le (by omega) 1
  have h2 : substr m 2 10 = _ := substr_of_le (by omega) 10
  have h12 := substr_of_le h 10
  simp only [metaUnserialize, h0, h1, h2, h12, bind, Except.bind, pure, Except.pure]
  split_ifs
  · exact ⟨_, rfl, by norm_num⟩
  · exact ⟨_, rfl, strtoull_lt_two_pow _⟩

section Readers

variable {s : GentDb}

lemma Sound.get (h : Sound s) (now : ℕ) (k : Str) :
    ∃ found, s.get now k = .ok found ∧ ∀ v ∈ found, v.length < 2 ^ 32 := by
  have hvalue : ∀ v ∈ s.db[k]?, v.length < 2 ^ 32 := fun v hv => h.value hv
  unfold GentDb.get
  cases hm : s.meta_db[k]? with
  | none => exact ⟨s.db[k]?, rfl, hvalue⟩
  | some m =>
      obtain ⟨dat, hdat, -⟩ := metaUnserialize_of_le (h.record hm)
      simp only [hdat, bind, Except.bind, pure, Except.pure]
      refine ⟨_, rfl, ?_⟩
      split_ifs
      · exact nofun
      · exact hvalue

lemma Sound.ttl (h : Sound s) (k : Str) : ∃ isTtl expire, s.ttl k = .ok (isTtl, expire) ∧
    expire < 2 ^ 64 := by
  unfold GentDb.ttl
  cases hm : s.meta_db[k]? with
  | none => exact ⟨_, 0, rfl, by norm_num⟩
  | some m =>
      obtain ⟨dat, hdat, hlt⟩ := metaUnserialize_of_le (h.record hm)
      simp only [hdat, bind, Except.bind, pure, Except.pure]
      exact ⟨true, dat.expire, rfl, hlt⟩

end Readers

/-! ## Printing -/

lemma crlf_eq : crlf = Resp.eol := rfl

lemma snprintf_of_lt {size : ℕ} {text : Str} (h : text.length < size) : snprintf size text = text :=
  List.take_of_length_le (by omega)

lemma unsigned_length_le (n : ℕ) : (unsigned n).length ≤ 10 :=
  (decimal_length_le_iff (by decide)).mpr (by omega)

lemma unsigned_of_lt {n : ℕ} (h : n < 2 ^ 32) : unsigned n = decimal n := by
  rw [unsigned, Nat.mod_eq_of_lt h]

lemma decimal_length_mono {m n : ℕ} (h : m ≤ n) : (decimal m).length ≤ (decimal n).length :=
  (decimal_length_le_iff (decimal_length_pos n)).mpr
    (h.trans_lt ((decimal_length_le_iff (decimal_length_pos n)).mp le_rfl))

/-- A number and its mark fit every buffer that is used for them. -/
lemma numberLine_eq {size : ℕ} (hsize : 20 ≤ size) {type : String} (htype : (lit type).length = 1)
    (n : ℕ) : numberLine size type n = lit type ++ (unsigned n ++ Resp.eol) := by
  have hdigits := unsigned_length_le n
  have hcrlf : crlf.length = 2 := rfl
  rw [numberLine, snprintf_of_lt, List.append_assoc, crlf_eq]
  simp only [List.length_append, htype, hcrlf]
  omega

/-- A value that `GET` or `MGET` sends. -/
lemma bulk_eq {size : ℕ} (hsize : 20 ≤ size) {v : Str} (hv : v.length < 2 ^ 32) :
    numberLine size "$" v.length ++ v ++ crlf = (Resp.Scalar.bulk v).encode := by
  rw [numberLine_eq hsize (by decide), unsigned_of_lt hv, crlf_eq]
  show 36 :: (decimal v.length ++ Resp.eol) ++ v ++ Resp.eol = _
  simp [Resp.Scalar.encode]

/-! ## Keys in a buffer -/

/-- The key comes out of its buffer as it is. -/
def ItemFits (key : Str) : Prop := 0 ∉ key ∧ (Resp.Scalar.bulk key).encode.length < 260

instance (key : Str) : Decidable (ItemFits key) := inferInstanceAs (Decidable (_ ∧ _))

lemma length_encode_bulk (key : Str) : (Resp.Scalar.bulk key).encode.length
    = 1 + (decimal key.length).length + 2 + key.length + 2 := by
  simp [Resp.Scalar.encode, Resp.eol]
  omega

lemma length_keyItem (key : Str) : (keyItem key).length
    = min 259 (1 + (unsigned key.length).length + 2 + (cstr key).length + 2) := by
  have hdollar : (lit "$").length = 1 := rfl
  have hcrlf : crlf.length = 2 := rfl
  simp only [keyItem, snprintf, List.length_take, List.length_append, hdollar, hcrlf]

/-- Nothing is added. -/
lemma length_keyItem_le (key : Str) :
    (keyItem key).length ≤ (Resp.Scalar.bulk key).encode.length := by
  have hdigits : (unsigned key.length).length ≤ (decimal key.length).length :=
    decimal_length_mono (Nat.mod_le _ _)
  have hkey := length_cstr_le key
  rw [length_keyItem, length_encode_bulk]
  omega

lemma length_cstr_lt {s : Str} (h : 0 ∈ s) : (cstr s).length < s.length := by
  obtain ⟨t, ht⟩ := cstr_split h
  have := congrArg List.length ht
  simp only [List.length_append, List.length_cons] at this
  omega

/-- **The buffer is large enough exactly when** the key fits and has no NUL. -/
lemma keyItem_eq_iff (key : Str) :
    keyItem key = (Resp.Scalar.bulk key).encode ↔ ItemFits key := by
  constructor
  · intro h
    have hlen := congrArg List.length h
    have hdigits : (unsigned key.length).length ≤ (decimal key.length).length :=
      decimal_length_mono (Nat.mod_le _ _)
    rw [length_keyItem] at hlen
    refine ⟨fun hzero => ?_, by omega⟩
    have hless := length_cstr_lt hzero
    rw [length_encode_bulk] at hlen
    omega
  · rintro ⟨hzero, hlen⟩
    have hlen' := hlen
    rw [length_encode_bulk] at hlen'
    have htext : lit "$" ++ unsigned key.length ++ crlf ++ cstr key ++ crlf
        = (Resp.Scalar.bulk key).encode := by
      rw [unsigned_of_lt (by omega), cstr_eq_self hzero, crlf_eq]
      show 36 :: decimal key.length ++ Resp.eol ++ key ++ Resp.eol = _
      simp [Resp.Scalar.encode]
    rw [keyItem, htext, snprintf_of_lt hlen]

/-- Two lists of texts, the first of them never longer: if they are the same when put together, they
are the same one by one. -/
lemma flatMap_eq_of_length_le {α : Type} {f g : α → Str} : ∀ {l : List α},
    (∀ a ∈ l, (f a).length ≤ (g a).length) → l.flatMap f = l.flatMap g → ∀ a ∈ l, f a = g a
  | [], _, _, _, hmem => by cases hmem
  | a :: l, hle, heq, b, hmem => by
      have htail : (l.flatMap f).length ≤ (l.flatMap g).length := by
        rw [List.length_flatMap, List.length_flatMap]
        exact List.sum_le_sum fun x hx => hle x (List.mem_cons_of_mem a hx)
      have hhead := hle a List.mem_cons_self
      have hlen := congrArg List.length heq
      simp only [List.flatMap_cons, List.length_append] at hlen
      obtain ⟨ha, hl⟩ := List.append_inj heq (by omega)
      rcases List.mem_cons.mp hmem with rfl | hmem
      · exact ha
      · exact flatMap_eq_of_length_le (fun x hx => hle x (List.mem_cons_of_mem a hx)) hl b hmem

/-! ## The answers -/

/-- The commands that ask for something, or delete. -/
def queries : List Command := [.get, .mget, .keys, .randomkey, .keyExists, .ttl, .del, .info]

/-- What the value in the answer should be. -/
def Means (w : World) (sv : Server) (r : GentRedis) (v : Resp.Value) : Command → Prop
  | .get => sv.db.get w.now r.keystr = .ok none ∧ v = .scalar .null ∨
      ∃ nr, sv.db.get w.now r.keystr = .ok (some nr) ∧ v = .scalar (.bulk nr)
  | .keys => v = .array ((sv.db.keys r.keystr).map .bulk)
  | .randomkey => v = .scalar (.bulk (sv.db.random w.rand).2)
  | .info => ∃ body, v = .scalar (.bulk body)
  | _ => True

/-- **The answer is one RESP value**, with nothing behind it, and means what it should. -/
def Answers (w : World) (sv : Server) (r : GentRedis) (recont : Str) (c : Command) : Prop :=
  ∃ outstr r' sv' v, complete false w sv r recont = .ok (outstr, r', sv') ∧
    Resp.decode outstr = some (v, []) ∧ Means w sv r v c

/-- What `INFO` sends behind the length. -/
def report (w : World) (sv : Server) (r : GentRedis) : Str :=
  if r.keystr = lit "rep" then
    lit "# Master\r\n" ++ w.info.master_info ++ lit "# Slave\r\n" ++ w.info.slave_info ++ crlf
  else snprintf 500 (GentProcessInfo.text w.info sv)

/-- **The condition.** -/
def Fits (w : World) (sv : Server) (r : GentRedis) : Command → Prop
  | .keys => (sv.db.keys r.keystr).length < 2 ^ 32 ∧ ∀ k ∈ sv.db.keys r.keystr, ItemFits k
  | .randomkey => ItemFits (sv.db.random w.rand).2
  | .info => crlf <:+ report w sv r ∧ (report w sv r).length < 2 ^ 32 + 2
  | _ => True

instance (w : World) (sv : Server) (r : GentRedis) (c : Command) : Decidable (Fits w sv r c) :=
  match c with
  | .keys => inferInstanceAs (Decidable (_ ∧ _))
  | .randomkey => inferInstanceAs (Decidable (ItemFits _))
  | .info => inferInstanceAs (Decidable (_ ∧ _))
  | .get | .set | .setex | .mset | .auth | .ttl | .mget | .del | .quit | .keyExists | .ping | .rep
  | .reply | .slave => inferInstanceAs (Decidable True)

lemma answers_of_scalar {w : World} {sv sv' : Server} {r r' : GentRedis} {recont outstr : Str}
    {c : Command} (h : complete false w sv r recont = .ok (outstr, r', sv')) (v : Resp.Scalar)
    (hv : outstr = v.encode) (hmeans : Means w sv r (.scalar v) c) : Answers w sv r recont c := by
  refine ⟨outstr, r', sv', .scalar v, h, ?_, hmeans⟩
  rw [Resp.decode_eq_some_iff, List.append_nil]
  exact hv

section Queries

variable {w : World} {sv : Server} {r : GentRedis} {recont : Str}

lemma get_answers (hc : r.subc = some .get) (hs : Sound sv.db) : Answers w sv r recont .get := by
  obtain ⟨found, hget, hlen⟩ := hs.get w.now r.keystr
  cases found with
  | none =>
      have hout : complete false w sv r recont = .ok (lit "$-1\r\n", r, sv) := by
        simp only [complete, hc, Command.complete, GentProcessGet.complete, hget]
        rfl
      exact answers_of_scalar hout .null rfl (Or.inl ⟨hget, rfl⟩)
  | some nr =>
      have hout : complete false w sv r recont
          = .ok (numberLine 50 "$" nr.length ++ nr ++ crlf, r, sv) := by
        simp only [complete, hc, Command.complete, GentProcessGet.complete, hget]
        rfl
      exact answers_of_scalar hout (.bulk nr) (bulk_eq (by decide) (hlen nr rfl))
        (Or.inr ⟨nr, hget, rfl⟩)

lemma exists_answers (hc : r.subc = some .keyExists) (hs : Sound sv.db) :
    Answers w sv r recont .keyExists := by
  obtain ⟨found, hget, -⟩ := hs.get w.now r.keystr
  have hout : complete false w sv r recont
      = .ok (if found = none then lit ":0\r\n" else lit ":1\r\n", r, sv) := by
    simp only [complete, hc, Command.complete, GentProcessExists.complete, hget]
    cases found with
    | none => rfl
    | some nr => rfl
  cases found with
  | none => exact answers_of_scalar hout (.int 0) (by decide) trivial
  | some nr => exact answers_of_scalar hout (.int 1) (by simp; decide) trivial

/-- A number that `%llu` prints. -/
lemma int_eq {n : ℕ} (hn : n < 2 ^ 64) :
    snprintf 50 (lit ":" ++ decimal n ++ crlf) = (Resp.Scalar.int n).encode := by
  have hdigits : (decimal n).length ≤ 20 := (decimal_length_le_iff (by decide)).mpr (by omega)
  have hcolon : (lit ":").length = 1 := rfl
  have hcrlf : crlf.length = 2 := rfl
  rw [snprintf_of_lt (by simp only [List.length_append, hcolon, hcrlf]; omega), crlf_eq]
  show 58 :: (decimal n ++ Resp.eol) = 58 :: (decimalInt n ++ Resp.eol)
  rw [decimalInt, if_neg (by omega), Int.natAbs_natCast]

lemma ttl_answers (hc : r.subc = some .ttl) (hs : Sound sv.db) : Answers w sv r recont .ttl := by
  obtain ⟨isTtl, expire, httl, hlt⟩ := hs.ttl r.keystr
  have hout : ∃ outstr, complete false w sv r recont = .ok (outstr, r, sv) ∧
      (outstr = snprintf 50 (lit ":" ++ decimal (expire - w.now) ++ crlf) ∨
        outstr = lit ":-1\r\n" ∨ outstr = lit ":-2\r\n") := by
    simp only [complete, hc, Command.complete, GentProcessTtl.complete, httl]
    refine ⟨_, rfl, ?_⟩
    split_ifs <;> simp
  obtain ⟨outstr, hout, rfl | rfl | rfl⟩ := hout
  · exact answers_of_scalar hout (.int (expire - w.now : ℕ)) (int_eq (by omega)) trivial
  · exact answers_of_scalar hout (.int (-1)) (by decide) trivial
  · exact answers_of_scalar hout (.int (-2)) (by decide) trivial

lemma del_answers (hc : r.subc = some .del) (hs : Sound sv.db) : Answers w sv r recont .del := by
  obtain ⟨found, hget, -⟩ := hs.get w.now r.keystr
  have hout : ∃ outstr sv', complete false w sv r recont = .ok (outstr, r, sv') ∧
      (outstr = lit ":0\r\n" ∨ outstr = lit ":1\r\n") := by
    simp only [complete, hc, Command.complete, GentProcessDel.complete, hget]
    cases found with
    | none => exact ⟨_, _, rfl, Or.inl rfl⟩
    | some nr =>
        cases hok : w.okDb with
        | false => exact ⟨_, _, rfl, Or.inl rfl⟩
        | true => exact ⟨_, _, rfl, Or.inr rfl⟩
  obtain ⟨outstr, sv', hout, rfl | rfl⟩ := hout
  · exact answers_of_scalar hout (.int 0) (by decide) trivial
  · exact answers_of_scalar hout (.int 1) (by decide) trivial

/-- The header of an array, for as many items as the format can print. -/
lemma header_eq {n : ℕ} (hn : n < 2 ^ 32) :
    numberLine 20 "*" n = lit "*" ++ decimal n ++ crlf := by
  rw [numberLine_eq (by decide) (by decide), unsigned_of_lt hn]
  rfl

lemma array_eq {n : ℕ} (hn : n < 2 ^ 32) (items : Str) :
    numberLine 20 "*" n ++ items = 42 :: (decimal n ++ Resp.eol ++ items) := by
  rw [header_eq hn]
  rfl

lemma mget_answers (hc : r.subc = some .mget) (hs : Sound sv.db) (hnum : r.keyvec.length < 2 ^ 31) :
    Answers w sv r recont .mget := by
  choose found hget hlen using hs.get w.now
  have hitems : r.keyvec.mapM (fun key => do
      let nr := (← sv.db.get w.now key).getD []
      return numberLine 20 "$" nr.length ++ nr ++ crlf)
      = .ok (r.keyvec.map fun key => (Resp.Scalar.bulk ((found key).getD [])).encode) := by
    refine mapM_eq fun key _ => ?_
    have hvalue : ((found key).getD []).length < 2 ^ 32 := by
      cases hkey : found key with
      | none => simp
      | some nr => exact hlen key nr hkey
    rw [hget key, ← bulk_eq (show 20 ≤ 20 by decide) hvalue]
    rfl
  have hout : complete false w sv r recont = .ok (numberLine 20 "*" r.keyvec.length
      ++ r.keyvec.flatMap fun key => (Resp.Scalar.bulk ((found key).getD [])).encode, r, sv) := by
    simp only [complete, hc, Command.complete, GentProcessMget.complete, hitems]
    show Except.ok _ = _
    rw [List.length_map, List.flatMap_def]
  refine ⟨_, r, sv, .array (r.keyvec.map fun key => .bulk ((found key).getD [])), hout, ?_, trivial⟩
  rw [Resp.decode_eq_some_iff, List.append_nil, array_eq (by omega)]
  simp only [Resp.Value.encode, List.length_map, List.flatMap_map]

/-- **`KEYS`.** -/
lemma keys_answers_iff (hc : r.subc = some .keys) :
    Answers w sv r recont .keys ↔ Fits w sv r .keys := by
  have hout : complete false w sv r recont = .ok (numberLine 20 "*" (sv.db.keys r.keystr).length
      ++ (sv.db.keys r.keystr).flatMap keyItem, r, sv) := by
    simp only [complete, hc, Command.complete, GentProcessKeys.complete]
  set keys := sv.db.keys r.keystr with hkeys
  have hencode : (Resp.Value.array (keys.map .bulk)).encode = 42 :: (decimal keys.length ++ (Resp.eol
      ++ keys.flatMap fun k => (Resp.Scalar.bulk k).encode)) := by
    simp only [Resp.Value.encode, List.length_map, List.flatMap_map, List.append_assoc]
  constructor
  · rintro ⟨outstr, r', sv', v, h, hdec, rfl⟩
    rw [hout] at h
    obtain ⟨rfl, -⟩ := Prod.mk.inj (Except.ok.inj h)
    rw [Resp.decode_eq_some_iff, List.append_nil, ← hkeys, hencode,
      numberLine_eq (by decide) (by decide)] at hdec
    have hbytes : unsigned keys.length ++ (Resp.eol ++ keys.flatMap keyItem)
        = decimal keys.length ++ (Resp.eol ++ keys.flatMap fun k => (Resp.Scalar.bulk k).encode) := by
      rw [← List.append_assoc]
      exact (List.cons.inj hdec).2
    obtain ⟨hnum, hitems⟩ := Resp.decimal_eol_inj hbytes
    have hlt : keys.length < 2 ^ 32 := by omega
    refine ⟨hlt, fun k hk => (keyItem_eq_iff k).mp ?_⟩
    exact flatMap_eq_of_length_le (fun k _ => length_keyItem_le k) hitems k hk
  · rintro ⟨hnum, hfit⟩
    refine ⟨_, r, sv, .array (keys.map .bulk), hout, ?_, rfl⟩
    have hitems : keys.flatMap keyItem = keys.flatMap fun k => (Resp.Scalar.bulk k).encode :=
      List.flatMap_congr fun k hk => (keyItem_eq_iff k).mpr (hfit k hk)
    rw [Resp.decode_eq_some_iff, List.append_nil, array_eq hnum, hencode, hitems, List.append_assoc]

/-- **`RANDOMKEY`.** -/
lemma randomkey_answers_iff (hc : r.subc = some .randomkey) :
    Answers w sv r recont .randomkey ↔ Fits w sv r .randomkey := by
  have hout : complete false w sv r recont = .ok (keyItem (sv.db.random w.rand).2, r, sv) := by
    simp only [complete, hc, Command.complete, GentProcessRandomkey.complete]
  refine Iff.trans ?_ (keyItem_eq_iff _)
  constructor
  · rintro ⟨outstr, r', sv', v, h, hdec, rfl⟩
    rw [hout] at h
    obtain ⟨rfl, -⟩ := Prod.mk.inj (Except.ok.inj h)
    rw [Resp.decode_eq_some_iff, List.append_nil] at hdec
    exact hdec
  · intro heq
    exact answers_of_scalar hout (.bulk _) heq rfl

/-- What `INFO` sends. -/
lemma info_complete (hc : r.subc = some .info) : ∃ sv', complete false w sv r recont
    = .ok (36 :: (unsigned ((report w sv r).length + 2 ^ 32 - 2) ++ (Resp.eol ++ report w sv r)),
      r, sv') := by
  have hline : ∀ n, snprintf 50 (lit "$" ++ unsigned n ++ crlf) = 36 :: (unsigned n ++ Resp.eol) :=
    fun n => numberLine_eq (by decide) (by decide) n
  simp only [complete, hc, Command.complete, GentProcessInfo.complete, report]
  split_ifs
  · refine ⟨sv, ?_⟩
    rw [hline, List.cons_append, List.append_assoc]
  · refine ⟨{ sv with db := (sv.db.count []).2 }, ?_⟩
    rw [hline, List.cons_append, List.append_assoc]

/-- **`INFO`.** -/
lemma info_answers_iff (hc : r.subc = some .info) :
    Answers w sv r recont .info ↔ Fits w sv r .info := by
  obtain ⟨sv', hout⟩ : ∃ sv', complete false w sv r recont = _ := info_complete hc
  have hencode : ∀ body : Str, (Resp.Value.scalar (.bulk body)).encode
      = 36 :: (decimal body.length ++ (Resp.eol ++ (body ++ Resp.eol))) := by
    intro body
    simp [Resp.Value.encode, Resp.Scalar.encode]
  have heol : Resp.eol.length = 2 := rfl
  constructor
  · rintro ⟨outstr, r', sv'', v, h, hdec, body, rfl⟩
    rw [hout] at h
    obtain ⟨rfl, -⟩ := Prod.mk.inj (Except.ok.inj h)
    rw [Resp.decode_eq_some_iff, List.append_nil, hencode] at hdec
    obtain ⟨hnum, hbody⟩ := Resp.decimal_eol_inj (List.cons.inj hdec).2
    have hlen := congrArg List.length hbody
    rw [List.length_append, heol] at hlen
    refine ⟨⟨body, hbody.symm⟩, ?_⟩
    omega
  · rintro ⟨⟨body, hbody⟩, hlt⟩
    have hlen := congrArg List.length hbody
    rw [List.length_append, crlf_eq, heol] at hlen
    refine answers_of_scalar hout (.bulk body) ?_ ⟨body, rfl⟩
    refine Eq.trans ?_ (hencode body).symm
    rw [← hbody, crlf_eq, List.length_append, heol, unsigned,
      show (body.length + 2 + 2 ^ 32 - 2) % 2 ^ 32 = body.length by omega]

end Queries

/-! ## Every query -/

/-- A loop that gives up at the first fault gives up nothing else. -/
lemma length_of_mapM_eq_ok {α β : Type} {f : α → Except Fault β} :
    ∀ {l : List α} {l' : List β}, l.mapM f = .ok l' → l'.length = l.length
  | [], _, h => by
      obtain rfl := Except.ok.inj h
      rfl
  | a :: l, l', h => by
      rw [List.mapM_cons] at h
      obtain ⟨b, -, h⟩ := bind_eq_ok.mp h
      obtain ⟨bs, hbs, h⟩ := bind_eq_ok.mp h
      obtain rfl := Except.ok.inj h
      rw [List.length_cons, List.length_cons, length_of_mapM_eq_ok hbs]

/-- The keys of an `mget` are counted with an `int`. -/
lemma length_keyvec {cfg : Config} {tokenList : List Str} {r r' : GentRedis}
    (h : GentProcessMget.parser cfg tokenList r = .ok (0, r')) : r'.keyvec.length < 2 ^ 31 := by
  obtain ⟨a, h⟩ := withAuth_ok h
  obtain ⟨first, -, h⟩ := bind_eq_ok.mp h
  obtain ⟨fieldNum, -, h⟩ := bind_eq_ok.mp h
  have hnum : toInt32 fieldNum < 2 ^ 31 := Int.bmod_lt (by decide)
  unfold mgetKeys at h
  split_ifs at h
  · cases h
  · obtain ⟨keyvec, hkeys, h⟩ := bind_eq_ok.mp h
    obtain ⟨-, rfl⟩ := Prod.mk.inj (Except.ok.inj h)
    have hlen := length_of_mapM_eq_ok hkeys
    rw [List.length_range'] at hlen
    show keyvec.length < 2 ^ 31
    omega

/-- **An answer is well formed exactly when what it is built from fits its buffers.**  This is for every
query, for every store that writes lead to, and whatever leveldb and the clock do: `GET`, `MGET`,
`EXISTS`, `TTL` and `DEL` are always answered well, and `KEYS`, `RANDOMKEY` and `INFO` in these cases. -/
theorem answers_iff (cfg : Config) (now : ℕ) (r₀ : GentRedis) (data name : Str) (c : Command)
    (r : GentRedis) (hname : (tokens data)[2]? = some name) (hc : commands name = some c)
    (hq : c ∈ queries) (hparsed : process cfg now r₀ data = .ok (0, [], r)) (w : World) (sv : Server)
    (hs : Reachable sv.db) (recont : Str) : Answers w sv r recont c ↔ Fits w sv r c := by
  obtain ⟨r', hr', rfl⟩ := (process_done_iff hname hc (· = r)).mp ⟨r, hparsed, rfl⟩
  have hsubc : r'.subc = some c := (Command.parser_keeps hr').subc
  simp only [queries, List.mem_cons, List.not_mem_nil, or_false] at hq
  rcases hq with rfl | rfl | rfl | rfl | rfl | rfl | rfl | rfl
  · exact iff_of_true (get_answers hsubc hs.sound) trivial
  · exact iff_of_true (mget_answers hsubc hs.sound (length_keyvec hr')) trivial
  · exact keys_answers_iff hsubc
  · exact randomkey_answers_iff hsubc
  · exact iff_of_true (exists_answers hsubc hs.sound) trivial
  · exact iff_of_true (ttl_answers hsubc hs.sound) trivial
  · exact iff_of_true (del_answers hsubc hs.sound) trivial
  · exact info_answers_iff hsubc

lemma reachable_keyServer {key : Str} (h : key.length < 250) :
    Reachable (keyServer key (lit "v")).db :=
  .set .empty ⟨1000000000, by decide⟩ true true key (lit "v") h (by decide)

/-- `KEYS *`. -/
def keysRequest : Str := lit "*2\r\n$4\r\nkeys\r\n$1\r\n*\r\n"

/-- The handler once this is parsed. -/
def keysParsed : GentRedis :=
  { newRedis with auth := true, subc := some .keys, keystr := lit "*", curstatus := .CONN_DATA }

theorem answers_iff_oneKey :
    Answers quietWorld (keyServer (lit "k") (lit "v")) keysParsed [] .keys :=
  (answers_iff openConfig 0 newRedis keysRequest (lit "keys") .keys keysParsed (by decide) rfl
    (by decide) rfl quietWorld (keyServer (lit "k") (lit "v")) (reachable_keyServer (by decide)) []).mpr
    (by decide)

/-- **A key with a NUL** is listed with its length and without what follows the NUL. -/
theorem keys_cut : Reachable (keyServer [107, 0] (lit "v")).db ∧
    process openConfig 0 newRedis keysRequest = .ok (0, [], keysParsed) ∧
    complete false quietWorld (keyServer [107, 0] (lit "v")) keysParsed []
      = .ok (lit "*1\r\n$2\r\nk\r\n", keysParsed, keyServer [107, 0] (lit "v")) ∧
    ¬ Answers quietWorld (keyServer [107, 0] (lit "v")) keysParsed [] .keys := by
  refine ⟨reachable_keyServer (by decide), rfl, rfl, ?_⟩
  rw [keys_answers_iff rfl]
  decide

end Riser
