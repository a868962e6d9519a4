import Riser.Connect.Cuts
import Riser.Redis.Answers
import Riser.Redis.Expiry
import Riser.Redis.Request

/-!
# `MGET` against `GET`

The two commands parse, look up and print on separate ways.  `MgetAgrees` says that the answer to
`MGET k1 … kn` is the array header and then, one after the other, what `GET ki` answers.

`MGET` does not look at what `Get` returns: **a key that is missing or expired is answered like one
with an empty value**, while `GET` answers nil.  The two print the same otherwise, whatever the
sizes of their buffers.  So they agree exactly if every key is shown, or if there is no answer at
all because a meta record does not decode (`mgetAgrees_iff`).
-/

namespace Riser

open Cpp

/-! ## Keys that are shown -/

namespace GentDb

/-- The meta record of the key does not decode: `Get` throws. -/
def Undecoded (s : GentDb) (key : Str) : Prop :=
  ∃ m f, s.meta_db[key]? = some m ∧ metaUnserialize m = .error f

/-- The key has a value, and has not expired. -/
def Shows (s : GentDb) (now : ℕ) (key : Str) : Prop :=
  key ∈ s.db ∧ ∀ m dat, s.meta_db[key]? = some m → metaUnserialize m = .ok dat →
    dat.expire = 0 ∨ now ≤ dat.expire

variable {s : GentDb} {now : ℕ} {key : Str}

lemma Undecoded.get (h : s.Undecoded key) : ∃ f, s.get now key = .error f := by
  obtain ⟨m, f, hm, hdat⟩ := h
  exact ⟨f, get_of_fault hm hdat⟩

/-- A record that decodes lets `Get` return, with a value if the key is shown. -/
lemma get_of_decoded (h : ¬ s.Undecoded key) :
    ∃ found, s.get now key = .ok found ∧ (found ≠ none ↔ s.Shows now key) := by
  have hvalue : s.db[key]? ≠ none ↔ key ∈ s.db := by
    rw [← Option.isSome_iff_ne_none, Std.ExtTreeMap.mem_iff_isSome_getElem?]
  cases hm : s.meta_db[key]? with
  | none =>
      refine ⟨_, get_of_none hm, hvalue.trans ⟨fun hkey => ⟨hkey, fun m dat h' => ?_⟩, And.left⟩⟩
      exact absurd (hm.symm.trans h') nofun
  | some m =>
      cases hdat : metaUnserialize m with
      | error f => exact absurd ⟨m, f, hm, hdat⟩ h
      | ok dat =>
          have hlive : (∀ m' dat', s.meta_db[key]? = some m' → metaUnserialize m' = .ok dat' →
              dat'.expire = 0 ∨ now ≤ dat'.expire) ↔ ¬ (dat.expire ≠ 0 ∧ dat.expire < now) := by
            constructor
            · intro hall hexp
              rcases hall m dat hm hdat with h0 | hle
              · exact hexp.1 h0
              · exact absurd hexp.2 (by omega)
            · intro hexp m' dat' hm' hdat'
              obtain rfl : m = m' := Option.some.inj (hm.symm.trans hm')
              obtain rfl : dat = dat' := Except.ok.inj (hdat.symm.trans hdat')
              omega
          refine ⟨_, get_of_some hm hdat, ?_⟩
          rw [Shows, hlive, ← hvalue]
          by_cases hexp : dat.expire ≠ 0 ∧ dat.expire < now
          · simp [hexp]
          · rw [if_neg hexp]
            exact ⟨fun hne => ⟨hne, hexp⟩, And.left⟩

lemma shows_of_record {m : Str} {dat : MetaData} (hkey : key ∈ s.db) (hm : s.meta_db[key]? = some m)
    (hdat : metaUnserialize m = .ok dat) (hlive : dat.expire = 0 ∨ now ≤ dat.expire) :
    s.Shows now key := by
  refine ⟨hkey, fun m' dat' hm' hdat' => ?_⟩
  obtain rfl := Option.some.inj (hm.symm.trans hm')
  obtain rfl := Except.ok.inj (hdat.symm.trans hdat')
  exact hlive

end GentDb

namespace Session

variable {cfg : Config} {w : World} {sv : Server} {r : GentRedis}

/-- What a client is told. -/
def reply (cfg : Config) (w : World) (sv : Server) (r : GentRedis) (data : Str) : Option Str :=
  (answer cfg w sv r data).map Prod.fst

/-- **The answer to `MGET` is made of the answers to `GET`.** -/
def MgetAgrees (cfg : Config) (w : World) (sv : Server) (r : GentRedis) (mget get : Str)
    (keys : List Str) : Prop :=
  reply cfg w sv r (encode (mget :: keys))
    = (keys.mapM fun key => reply cfg w sv r (encode [get, key])).map fun replies =>
        lit "*" ++ decimal keys.length ++ crlf ++ replies.flatten

/-! ## The two answers -/

/-- A command that needs no more bytes answers what its `Complete` prints. -/
lemma reply_complete {data : Str} {r' : GentRedis} {c : Command}
    (hproc : process cfg w.now r data = .ok (0, [], r')) (hsub : r'.subc = some c)
    (hst : r'.curstatus = .CONN_DATA) (hc : c ≠ .quit ∧ c ≠ .reply ∧ c ≠ .rep) :
    reply cfg w sv r data = ((c.complete false w sv r' []).map Prod.fst).toOption := by
  have hsame : { r' with curstatus := .CONN_DATA } = r' := by rw [← hst]
  have hcomplete : complete false w sv { r' with curstatus := .CONN_DATA } []
      = c.complete false w sv r' [] := by rw [hsame, complete_eq hsub]
  cases hres : c.complete false w sv r' [] with
  | error f =>
      rw [hres] at hcomplete
      simp only [reply, answer, react, hproc, hcomplete, hst]
      rfl
  | ok res =>
      obtain ⟨out, r'', sv'⟩ := res
      rw [reply, answer_complete hproc (Or.inl hst) (hcomplete.trans hres)
        (Command.complete_ne_nil hc hres)]
      rfl

/-- What `GET` prints. -/
def getText : Option Str → Str
  | none => lit "$-1\r\n"
  | some nr => numberLine 50 "$" nr.length ++ nr ++ crlf

/-- What `MGET` prints for one key. -/
def mgetText (found : Option Str) : Str :=
  numberLine 20 "$" (found.getD []).length ++ found.getD [] ++ crlf

lemma reply_get (hauth : Authed cfg r) {get key : Str} (hname : commands get = some .get)
    (hlen : (encode [get, key]).length < 2 ^ 31) (hkey : Clean key) :
    reply cfg w sv r (encode [get, key]) = ((sv.db.get w.now key).map getText).toOption := by
  obtain ⟨r', hproc, hsub, rfl, hst⟩ :
      (Request.keyed .get key).Acts cfg w.now r get :=
    (Request.keyed_acts_iff hauth hname hlen).mpr hkey
  have hdone : process cfg w.now r (encode [get, r'.keystr]) = .ok (0, [], r') := hproc
  rw [reply_complete hdone (show r'.subc = some .get from hsub) hst ⟨nofun, nofun, nofun⟩]
  show ((GentProcessGet.complete w sv r').map Prod.fst).toOption = _
  rw [GentProcessGet.complete]
  cases sv.db.get w.now r'.keystr with
  | error f => rfl
  | ok found =>
      cases found with
      | none => rfl
      | some nr => rfl

lemma reply_mget (hauth : Authed cfg r) {mget : Str} {keys : List Str}
    (hname : commands mget = some .mget) (hlen : (encode (mget :: keys)).length < 2 ^ 31)
    (hne : keys ≠ []) (hkeys : ∀ key ∈ keys, Clean key) :
    reply cfg w sv r (encode (mget :: keys))
      = ((keys.mapM fun key => (sv.db.get w.now key).map mgetText).map fun items =>
          numberLine 20 "*" items.length ++ items.flatten).toOption := by
  obtain ⟨r', hproc, hsub, rfl, hst⟩ : (Request.mget keys).Acts cfg w.now r mget :=
    (Request.mget_acts_iff hauth hname ⟨hlen, hne⟩).mpr hkeys
  have hdone : process cfg w.now r (encode (mget :: r'.keyvec)) = .ok (0, [], r') := hproc
  rw [reply_complete hdone (show r'.subc = some .mget from hsub) hst ⟨nofun, nofun, nofun⟩]
  have hitem : (fun key => do
      let nr := (← sv.db.get w.now key).getD []
      return numberLine 20 "$" nr.length ++ nr ++ crlf)
      = fun key => (sv.db.get w.now key).map mgetText := by
    funext key
    cases sv.db.get w.now key with
    | error f => rfl
    | ok found => rfl
  show ((GentProcessMget.complete w sv r').map Prod.fst).toOption = _
  rw [GentProcessMget.complete, hitem]
  cases r'.keyvec.mapM fun key => (sv.db.get w.now key).map mgetText with
  | error f => rfl
  | ok items => rfl

/-! ## When they agree -/

/-- Without a fault the values come one by one. -/
lemma toOption_mapM {α β : Type} (f : α → Except Fault β) (l : List α) :
    (l.mapM f).toOption = l.mapM fun a => (f a).toOption := by
  induction l with
  | nil => rfl
  | cons a l ih =>
      rw [List.mapM_cons, List.mapM_cons, ← ih]
      cases f a with
      | error e => rfl
      | ok b =>
          cases l.mapM f with
          | error e => rfl
          | ok bs => rfl

lemma toOption_map {α β : Type} (f : α → β) (x : Except Fault α) :
    (x.map f).toOption = x.toOption.map f := by
  cases x with
  | error e => rfl
  | ok a => rfl

lemma mapM_congr {α β : Type} {f g : α → Option β} {l : List α} (h : ∀ a ∈ l, f a = g a) :
    l.mapM f = l.mapM g := by
  induction l with
  | nil => rfl
  | cons a l ih =>
      rw [List.mapM_cons, List.mapM_cons, h a List.mem_cons_self,
        ih fun b hb => h b (List.mem_cons_of_mem a hb)]

/-- One fault is enough. -/
lemma mapM_none {α β : Type} {f : α → Option β} {l : List α} {a : α} (ha : a ∈ l)
    (hnone : f a = none) : l.mapM f = none := by
  induction l with
  | nil => cases ha
  | cons b l ih =>
      rw [List.mapM_cons]
      rcases List.mem_cons.mp ha with rfl | ha
      · rw [hnone]; rfl
      · rw [ih ha]
        cases f b with
        | none => rfl
        | some _ => rfl

/-- The two texts are the same for a value, and that of `GET` is shorter if there is none. -/
lemma getText_length_le (found : Option Str) :
    (getText found).length ≤ (mgetText found).length ∧
      (getText found = mgetText found ↔ found ≠ none) := by
  cases found with
  | none => decide
  | some nr =>
      have hsame : getText (some nr) = mgetText (some nr) := by
        show numberLine 50 "$" nr.length ++ nr ++ crlf = numberLine 20 "$" nr.length ++ nr ++ crlf
        rw [numberLine_eq (by decide) (by decide), numberLine_eq (by decide) (by decide)]
      exact ⟨by rw [hsame], iff_of_true hsame nofun⟩

/-- A `GET` is no longer than an `MGET` of the same key. -/
lemma length_get_le {mget get key : Str} {keys : List Str} (hm : commands mget = some .mget)
    (hg : commands get = some .get) (hkey : key ∈ keys) :
    (encode [get, key]).length ≤ (encode (mget :: keys)).length := by
  have hmlen : (bulk mget).length = 10 :=
    (show ∀ p ∈ setCommands, p.2 = .mget → (bulk p.1).length = 10 by decide) _
      (mem_of_commands hm) rfl
  have hglen : (bulk get).length = 9 :=
    (show ∀ p ∈ setCommands, p.2 = .get → (bulk p.1).length = 9 by decide) _
      (mem_of_commands hg) rfl
  have hbulk : (bulk key).length ≤ (keys.flatMap bulk).length := by
    obtain ⟨front, rest, rfl⟩ := List.append_of_mem hkey
    rw [List.flatMap_append, List.flatMap_cons, List.length_append, List.length_append]
    omega
  have hcount : (decimal 2).length ≤ (decimal (keys.length + 1)).length :=
    decimal_length_mono (by have := List.length_pos_of_mem hkey; omega)
  simp only [encode, countLine, List.length_append, List.flatMap_cons, List.flatMap_nil,
    List.length_cons, List.length_nil, hmlen, hglen, Nat.zero_add, Nat.reduceAdd]
  omega

/-- **`MGET` agrees with `GET` exactly if every key is shown**, or if no command can answer because a
record does not decode. -/
theorem mgetAgrees_iff (cfg : Config) (w : World) (sv : Server) (r : GentRedis) (mget get : Str)
    (keys : List Str) (hauth : Authed cfg r) (hm : commands mget = some .mget)
    (hg : commands get = some .get) (hne : keys ≠ []) (hkeys : ∀ key ∈ keys, Clean key)
    (hlen : (encode (mget :: keys)).length < 2 ^ 31) :
    MgetAgrees cfg w sv r mget get keys ↔
      (∃ key ∈ keys, sv.db.Undecoded key) ∨ ∀ key ∈ keys, sv.db.Shows w.now key := by
  have hget : (keys.mapM fun key => reply cfg w sv r (encode [get, key]))
      = keys.mapM fun key => ((sv.db.get w.now key).map getText).toOption :=
    mapM_congr fun key hkey => reply_get hauth hg ((length_get_le hm hg hkey).trans_lt hlen)
      (hkeys key hkey)
  have hnum : keys.length < 2 ^ 32 := by
    have := length_of_encode hlen
    simp only [List.length_cons] at this
    omega
  rw [MgetAgrees, reply_mget hauth hm hlen hne hkeys, hget]
  by_cases hbad : ∃ key ∈ keys, sv.db.Undecoded key
  · -- `Get` throws for that key, so there is no answer on either side
    obtain ⟨key, hkey, hun⟩ := hbad
    refine iff_of_true ?_ (Or.inl ⟨key, hkey, hun⟩)
    obtain ⟨f, hf⟩ : ∃ f, sv.db.get w.now key = .error f := hun.get
    have hfault : ∀ g : Option Str → Str,
        keys.mapM (fun key => ((sv.db.get w.now key).map g).toOption) = none :=
      fun g => mapM_none hkey (by rw [hf]; rfl)
    rw [toOption_map, toOption_mapM, hfault, hfault]
    rfl
  · -- all lookups return: the texts are compared one by one
    have hdec : ∀ key ∈ keys, ¬ sv.db.Undecoded key := fun key hkey hun => hbad ⟨key, hkey, hun⟩
    have hget : ∀ key ∈ keys, ∃ found, sv.db.get w.now key = .ok found ∧
        (found ≠ none ↔ sv.db.Shows w.now key) := fun key hkey => GentDb.get_of_decoded (hdec key hkey)
    choose! found hfound hshown using hget
    have htexts : ∀ g : Option Str → Str,
        keys.mapM (fun key => ((sv.db.get w.now key).map g).toOption)
          = some (keys.map fun key => g (found key)) := by
      intro g
      rw [← toOption_mapM, mapM_eq fun key hkey => by rw [hfound key hkey]; rfl]
      rfl
    rw [toOption_map, toOption_mapM, htexts, htexts, Option.map_some, Option.map_some,
      List.length_map, header_eq hnum, Option.some.injEq, List.append_cancel_left_eq,
      ← List.flatMap_def, ← List.flatMap_def, or_iff_right hbad]
    constructor
    · intro heq key hkey
      have hsame := flatMap_eq_of_length_le (fun key _ => (getText_length_le (found key)).1)
        heq.symm key hkey
      exact (hshown key hkey).mp ((getText_length_le (found key)).2.mp hsame)
    · intro hall
      exact List.flatMap_congr fun key hkey =>
        ((getText_length_le (found key)).2.mpr ((hshown key hkey).mpr (hall key hkey))).symm

/-- A server that has the key `k` for good, and the key `t` for five seconds. -/
def twoKeyServer : Server :=
  { keyServer (lit "k") (lit "v") with
    db := ((keyServer (lit "k") (lit "v")).db.put true true 1000000000 (lit "t") (lit "w") 1000000005 1).1 }

/-- Both are shown: the second one has not expired. -/
theorem mgetAgrees_present :
    MgetAgrees openConfig quietWorld twoKeyServer newRedis (lit "mget") (lit "get")
      [lit "k", lit "t"] := by
  refine (mgetAgrees_iff openConfig quietWorld twoKeyServer newRedis (lit "mget") (lit "get")
    [lit "k", lit "t"] (Or.inr rfl) rfl rfl (by decide) (by decide) (by decide)).mpr (Or.inr ?_)
  have hnow : TenDigit 1000000000 := ⟨by decide, by decide⟩
  have hk : twoKeyServer.db.meta_db[lit "k"]? = some (metaSerialize 1 0 1000000000) := by
    decide +kernel
  have ht : twoKeyServer.db.meta_db[lit "t"]? = some (metaSerialize 1 1000000005 1000000000) := by
    decide +kernel
  simp only [List.forall_mem_cons, List.not_mem_nil, false_imp_iff, implies_true, and_true]
  constructor
  · exact GentDb.shows_of_record (by decide +kernel) hk
      (metaUnserialize_metaSerialize (by decide) (Or.inl rfl) hnow) (Or.inl rfl)
  · exact GentDb.shows_of_record (by decide +kernel) ht
      (metaUnserialize_metaSerialize (by decide) (Or.inr ⟨by decide, by decide⟩) hnow)
      (Or.inr (by decide))

/-- **A key that nobody has stored** is nil for `GET`, and empty for `MGET`. -/
theorem mgetAgrees_missing :
    ¬ MgetAgrees openConfig quietWorld emptyServer newRedis (lit "mget") (lit "get") [lit "k"] := by
  rw [MgetAgrees]
  decide +kernel

end Session

end Riser
