import Riser.Connect.Serve
import Riser.Core.Transition
import Riser.Redis.Pieces
import Riser.Repl.Encoding
import Riser.Repl.MappedSlot
import Riser.Repl.Slots

/-!
# The dialogue of a master and a slave

On the replication connection both ends run the same parser of requests.  The slave opens with
`rep <name> auth` or `rep <name> data`; the master answers with a batch or a `reply`; and the slave
acknowledges a batch with `rep <name> ok`.  Errors travel on the same connection: they are texts that
the other end parses as well.

A message is **heard** if it is parsed as one of the commands of the dialogue, with nothing missing.
What the slave says is always heard.  What the master says is not: the errors of
`GentProcessRep::Complete` and `MasterHandle` are no commands, and a batch may not fit its buffers.
Whoever does not understand a message answers `-ERR unknown command`, which the other end does not
understand either.

`Dialogue` is the system of the two, with all that may happen in between, and `Orderly` is the condition
on its steps under which every message is heard: `dialogue_closed`.
-/

namespace Riser

open Cpp

/-! ## What the slave says -/

/-- The name of a slave.  It is printed into 100 bytes from `SERVER_ID`, which the build takes from the
name of the host and the date, and from the port. -/
structure ServerId where
  text : Str
  clean : Clean text
  zero : 0 ∉ text
  short : text.length < 100

/-- The lines that all messages of the slave begin with. -/
def repLines (first : Str) (id : ServerId) (word : Str) : List Str :=
  [first, lit "$3", lit "rep", lengthLine id.text, id.text, lengthLine word, word]

/-- A message of a slave, as far as it matters: some word, and something behind it. -/
def IsRep (id : ServerId) (m : Str) : Prop :=
  ∃ first word rest, Clean first ∧ Clean word ∧ word.length < 2 ^ 31 ∧
    m = (repLines first id word).flatMap (· ++ crlf) ++ rest

/-- The text of `GentRepMgr::SlaveAuth`. -/
def slaveAuth (client_name auth : Str) (is_sync_all : Bool) : Str :=
  let all := if is_sync_all then lit "true" else lit "false"
  snprintf 300 (lit "*4\r\n$3\r\nrep\r\n$" ++ decimal client_name.length ++ crlf ++ cstr client_name
    ++ lit "\r\n$4\r\nauth\r\n$" ++ decimal auth.length ++ crlf ++ cstr auth
    ++ lit "\r\n$" ++ decimal all.length ++ crlf ++ all ++ crlf)

/-- The text with which `GentRepMgr::Slave` asks for entries. -/
def slaveData (server_id : Str) : Str :=
  snprintf 300 (lit "*3\r\n$3\r\nrep\r\n$" ++ decimal server_id.length ++ crlf ++ cstr server_id
    ++ lit "\r\n$4\r\ndata\r\n")

section Rep

variable {id : ServerId}

lemma length_repLines (id : ServerId) (first word : Str) (hfirst : first.length ≤ 2)
    (hword : word.length ≤ 5) :
    ((repLines first id word).flatMap (· ++ crlf)).length ≤ 140 := by
  have hid := id.short
  have hdigits : ∀ n, n < 100 → (decimal n).length ≤ 2 := fun n hn =>
    (decimal_length_le_iff (by decide)).mpr (by omega)
  have h₁ := hdigits id.text.length hid
  have h₂ := hdigits word.length (by omega)
  simp only [repLines, List.flatMap_cons, List.flatMap_nil, List.length_append, length_lengthLine,
    List.length_nil]
  show first.length + 2 + (2 + 2 + (3 + 2 + (_ + 2 + (_ + 2 + (_ + 2 + (_ + 2 + 0)))))) ≤ 140
  omega

/-- What is printed behind the word may be cut, the word is not. -/
lemma isRep_snprintf {first word : Str} (hfirst : Clean first) (hword : Clean word)
    (hflen : first.length ≤ 2) (hwlen : word.length ≤ 5) (rest : Str) :
    IsRep id (snprintf 300 ((repLines first id word).flatMap (· ++ crlf) ++ rest)) := by
  refine ⟨first, word, rest.take (299 - ((repLines first id word).flatMap (· ++ crlf)).length), hfirst,
    hword, by omega, ?_⟩
  have hlen := length_repLines id first word hflen hwlen
  rw [snprintf, take_append_fit (by omega)]

lemma isRep_slaveReply (suc : Bool) : IsRep id (slaveReply id.text suc) := by
  have hhead : lit "*3\r\n$3\r\nrep\r\n$"
      = lit "*3" ++ crlf ++ lit "$3" ++ crlf ++ lit "rep" ++ crlf ++ lit "$" := rfl
  have hsep : lit "\r\n$" = crlf ++ lit "$" := rfl
  have htext : slaveReply id.text suc = snprintf 300
      ((repLines (lit "*3") id (if suc then lit "ok" else lit "error")).flatMap (· ++ crlf) ++ []) := by
    simp [slaveReply, cstr_eq_self id.zero, repLines, lengthLine, hhead, hsep]
  rw [htext]
  cases suc
  · exact isRep_snprintf (by decide) (by decide) (by decide) (by decide) []
  · exact isRep_snprintf (by decide) (by decide) (by decide) (by decide) []

lemma isRep_slaveData : IsRep id (slaveData id.text) := by
  have hhead : lit "*3\r\n$3\r\nrep\r\n$"
      = lit "*3" ++ crlf ++ lit "$3" ++ crlf ++ lit "rep" ++ crlf ++ lit "$" := rfl
  have htail : lit "\r\n$4\r\ndata\r\n"
      = crlf ++ lengthLine (lit "data") ++ crlf ++ lit "data" ++ crlf := rfl
  have htext : slaveData id.text = snprintf 300
      ((repLines (lit "*3") id (lit "data")).flatMap (· ++ crlf) ++ []) := by
    simp [slaveData, cstr_eq_self id.zero, repLines, hhead, htail]
    simp [lengthLine]
  rw [htext]
  exact isRep_snprintf (by decide) (by decide) (by decide) (by decide) []

/-- The password may be too long for the buffer. -/
lemma isRep_slaveAuth (auth : Str) (is_sync_all : Bool) :
    IsRep id (slaveAuth id.text auth is_sync_all) := by
  have hhead : lit "*4\r\n$3\r\nrep\r\n$"
      = lit "*4" ++ crlf ++ lit "$3" ++ crlf ++ lit "rep" ++ crlf ++ lit "$" := rfl
  have htail : lit "\r\n$4\r\nauth\r\n$"
      = crlf ++ lengthLine (lit "auth") ++ crlf ++ lit "auth" ++ crlf ++ lit "$" := rfl
  obtain ⟨rest, htext⟩ : ∃ rest, slaveAuth id.text auth is_sync_all = snprintf 300
      ((repLines (lit "*4") id (lit "auth")).flatMap (· ++ crlf) ++ rest) := by
    refine ⟨lit "$" ++ decimal auth.length ++ crlf ++ cstr auth
      ++ lit "\r\n$" ++ decimal (if is_sync_all then lit "true" else lit "false").length ++ crlf
      ++ (if is_sync_all then lit "true" else lit "false") ++ crlf, ?_⟩
    simp [slaveAuth, cstr_eq_self id.zero, repLines, hhead, htail]
    simp [lengthLine]
  rw [htext]
  exact isRep_snprintf (by decide) (by decide) (by decide) (by decide) rest

lemma IsRep.ne_nil {m : Str} (h : IsRep id m) : m ≠ [] := by
  obtain ⟨first, word, rest, hfirst, -, -, rfl⟩ := h
  obtain ⟨b, t, rfl⟩ := List.exists_cons_of_ne_nil hfirst.1
  exact nofun

/-- **The master hears every message of a slave**, whatever its handler is like. -/
lemma process_rep (cfg : Config) (now : ℕ) (r : GentRedis) {m : Str} (hm : IsRep id m) :
    ∃ r', process cfg now r m = .ok (0, [], r') ∧ r'.subc = some .rep ∧ r'.keystr = id.text ∧
      r'.curstatus = .CONN_DATA ∧ (cfg.master_auth = [] → r'.master_auth = true) := by
  obtain ⟨first, word, rest, hfirst, hword, hwlen, rfl⟩ := hm
  have htok : tokens ((repLines first id word).flatMap (· ++ crlf) ++ rest)
      = repLines first id word ++ fields rest := by
    have hsplit : (repLines first id word).flatMap (· ++ crlf) ++ rest
        = [first, lit "$3", lit "rep"].flatMap (· ++ crlf)
          ++ ([lengthLine id.text, id.text, lengthLine word, word].flatMap (· ++ crlf) ++ rest) := by
      simp [repLines]
    obtain ⟨v, hv, hfields⟩ := tokens_head hfirst (show Clean (lit "$3") by decide)
      (show Clean (lit "rep") by decide)
      ([lengthLine id.text, id.text, lengthLine word, word].flatMap (· ++ crlf) ++ rest)
    rw [hsplit, hv, hfields (by decide), fields_lines rest (by
      simp only [List.mem_cons, List.not_mem_nil, or_false]
      rintro l (rfl | rfl | rfl | rfl)
      · exact clean_lengthLine _
      · exact id.clean
      · exact clean_lengthLine _
      · exact hword)]
    rfl
  set data := (repLines first id word).flatMap (· ++ crlf) ++ rest with hdata
  have hv : ∀ t ∈ tokens data, Clean t := fun t ht => clean_of_mem_tokens ht
  have hnum : 7 ≤ (tokens data).length := by
    rw [htok, List.length_append]
    exact Nat.le_add_right 7 _
  have hthird : (tokens data)[2]? = some (lit "rep") := by rw [htok]; rfl
  have hseven : (tokens data)[6]? = some word := by rw [htok]; rfl
  have hkey : argOf (tokens data) 3 = id.text := by
    have := id.short
    exact argOf_eq (by omega) (by rw [htok]; rfl) (Or.inr (by rw [htok]; rfl))
  -- an `auth` message has its password looked at, and there are enough tokens for that
  obtain ⟨r₁, hr₁, hopen⟩ : ∃ r₁, repAuth cfg (tokens data) word
      { r with subc := some .rep, repmsg := word } = .ok r₁ ∧
      (cfg.master_auth = [] → r₁.master_auth = true) := by
    unfold repAuth
    split_ifs with h₁ h₂ h₃
    · exact ⟨_, rfl, fun _ => h₁⟩
    · exact ⟨_, rfl, fun _ => rfl⟩
    · exact ⟨_, rfl, fun h => absurd h h₂⟩
    · have heleven : (tokens data).length = 11 := by
        by_contra hne
        exact h₃ (Or.inl hne)
      rw [elemAt_of_lt (show 8 < (tokens data).length by omega), ok_bind]
      split_ifs
      · exact ⟨_, rfl, fun h => absurd h h₂⟩
      · rw [elemAt_of_lt (show 10 < (tokens data).length by omega), ok_bind]
        exact ⟨_, rfl, fun _ => rfl⟩
  have hkeep : Keeps .rep { r with subc := some .rep, repmsg := word } r₁ := keeps_repAuth hr₁
  refine (process_done_iff hthird (show commands (lit "rep") = some .rep from rfl) _).mpr
    ⟨{ r₁ with keystr := id.text, curstatus := .CONN_DATA }, ?_, hkeep.subc, rfl, rfl, hopen⟩
  simp only [Command.parser, GentProcessRep.parser]
  rw [if_neg (by omega), elemAt_of_eq_some hseven, ok_bind, hr₁, ok_bind, tokenArg_eq hv (by omega),
    ok_bind, hkey]
  rfl

end Rep

/-! ## What the master says -/

/-- The texts of `reply`. -/
def replies : List Str :=
  [lit "*2\r\n$5\r\nreply\r\n$6\r\nauthok\r\n", lit "*2\r\n$5\r\nreply\r\n$9\r\nautherror\r\n",
    lit "*2\r\n$5\r\nreply\r\n$5\r\nclose\r\n"]

/-- The commands that a slave takes from its master. -/
def slaveCommands : List Command := [.set, .setex, .mset, .del, .reply]

/-- A handler between two messages of a master. -/
structure Listens (r : GentRedis) : Prop where
  auth : r.auth = true
  idle : r.mdata.Idle
  none : r.mdata.keys_values = ∅

/-- **The slave hears the message**, and nothing of it is missing.  Only an `mset` has pairs, and it goes
on to act. -/
def Hears (cfg : Config) (now : ℕ) (r : GentRedis) (m : Str) : Prop :=
  ∃ c r', process cfg now r m = .ok (0, [], r') ∧ r'.subc = some c ∧ c ∈ slaveCommands ∧
    r'.auth = true ∧ r'.mdata.Idle ∧
    (r'.mdata.keys_values = ∅ ∨ c = .mset ∧ r'.curstatus = .CONN_NREAD)

section Hears

variable {cfg : Config} {now : ℕ} {r r' : GentRedis} {m name : Str} {c : Command}

/-- All commands but `mset` leave the pairs alone. -/
lemma hears_of_process (hr : Listens r) (hname : (tokens m)[2]? = some name)
    (hc : commands name = some c) (hmem : c ∈ slaveCommands) (hne : c ≠ .mset)
    (h : process cfg now r m = .ok (0, [], r')) : Hears cfg now r m := by
  obtain ⟨r₁, hr₁, rfl⟩ := (process_done_iff hname hc (· = r')).mp ⟨r', h, rfl⟩
  have hkeep := Command.parser_keeps hr₁
  have hmdata : r₁.mdata = r.mdata := hkeep.mdata hne
  exact ⟨c, r₁, h, hkeep.subc, hmem, hkeep.auth hr.auth, hmdata ▸ hr.idle,
    Or.inl (hmdata ▸ hr.none)⟩

lemma hears_replies (hr : Listens r) (hm : m ∈ replies) : Hears cfg now r m := by
  obtain ⟨hthird, hnum⟩ : (tokens m)[2]? = some (lit "reply") ∧ (tokens m).length = 5 :=
    (show ∀ m ∈ replies, (tokens m)[2]? = some (lit "reply") ∧ (tokens m).length = 5 by decide) m hm
  have hauth : Authed cfg { r with subc := some .reply } := Or.inl hr.auth
  have hparse : ∃ r', GentProcessReply.parser cfg (tokens m) { r with subc := some .reply }
      = .ok (0, r') ∧ True := by
    rw [GentProcessReply.parser, withAuth_eq hauth, if_neg (not_not.mpr hnum),
      elemAt_of_lt (show 4 < (tokens m).length by omega), ok_bind]
    exact ⟨_, rfl, trivial⟩
  have hc : commands (lit "reply") = some .reply := rfl
  obtain ⟨r', hr', -⟩ := (process_done_iff hthird hc fun _ => True).mpr hparse
  exact hears_of_process hr hthird hc (by decide) (by simp) hr'

lemma hears_del (hr : Listens r) {key : Str} (hclean : Clean key) (hzero : 0 ∉ key)
    (hfit : ((delLines key key).flatMap (· ++ crlf)).length ≤ 300) :
    Hears cfg now r (reply .DEL key [] 0) := by
  have hlen : key.length < 2 ^ 31 := by
    simp only [delLines, List.flatMap_cons, List.length_append] at hfit
    omega
  obtain ⟨r', hr', -⟩ : ∃ r', process cfg now r _ = .ok (0, [], r') ∧ _ :=
    (del_iff now (Or.inl hr.auth) hlen).mpr ⟨hclean, hzero, hfit⟩
  have hthird : (tokens (reply .DEL key [] 0))[2]? = some (lit "del") := by
    rw [tokens_del hlen]
    rfl
  exact hears_of_process hr hthird rfl (by decide) (by simp) hr'

/-- A key whose time is up in this second is sent as a plain `set`. -/
lemma reply_set {key nr : Str} (hzero : 0 ∉ key) (h250 : key.length < 250) (hnr : nr.length < 2 ^ 31) :
    reply .ADD key nr 0 = (ClientRequest.of (.set key nr)).bytes (lit "set") := by
  have hhead : lit "*3\r\n$3\r\nset\r\n$"
      = lit "*3" ++ crlf ++ lengthLine (lit "set") ++ crlf ++ lit "set" ++ crlf ++ lit "$" := rfl
  have hfirst : (ClientRequest.of (.set key nr)).first (lit "set") = lit "*3" := by
    simp only [ClientRequest.first, ClientRequest.args, Request.args, countLine, List.length_cons,
      List.length_nil]
    decide
  have hdigits : (decimal key.length).length ≤ 3 := (decimal_length_le_iff (by decide)).mpr (by omega)
  have hnrdigits := length_decimal_le hnr
  simp only [reply, if_true, cstr_eq_self hzero]
  rw [ClientRequest.bytes_eq, hfirst, snprintf, List.take_of_length_le]
  · simp only [ClientRequest.withFirst, ClientRequest.lines, ClientRequest.rest, hhead]
    simp [lengthLine, crlf, lit]
  · simp only [List.length_append]
    show 14 + (decimal key.length).length + 2 + key.length + 3 + (decimal nr.length).length + 2 ≤ _
    omega

lemma hears_add (hr : Listens r) {key nr : Str} {expire : ℕ} (hclean : Clean key) (hzero : 0 ∉ key)
    (h250 : key.length < 250) (hexp : expire < 2 ^ 31) (hlen : (reply .ADD key nr expire).length < 2 ^ 31)
    (hfit : expire ≠ 0 → (Batch.add ⟨0, key, .ADD, false⟩ nr expire).Fits) :
    Hears cfg now r (reply .ADD key nr expire) := by
  have hnr : nr.length < 2 ^ 31 := by
    simp only [reply, List.length_append] at hlen
    omega
  by_cases h0 : expire = 0
  · subst h0
    have hset := reply_set hzero h250 hnr
    have hthird : (tokens (reply .ADD key nr 0))[2]? = some (lit "set") := by
      rw [hset]
      exact (tokens_front (c := .set) rfl).2
    obtain ⟨r', hr', -⟩ : ∃ r', process cfg now r _ = .ok (0, [], r') ∧ _ :=
      ClientRequest.process_bytes (q := .of (.set key nr)) (Or.inl hr.auth) hr.idle rfl
        ⟨hset ▸ hlen, hclean, h250⟩ (by simp)
    exact hears_of_process hr hthird rfl (by decide) (by simp) (hset ▸ hr')
  · obtain ⟨r', hr', -⟩ : ∃ r', process cfg now r _ = .ok (0, [], r') ∧ _ :=
      (add_iff now (Or.inl hr.auth) h250 hexp hnr).mpr (hfit h0)
    have hthird : (tokens (reply .ADD key nr expire))[2]? = some (lit "setex") := by
      rw [tokens_add nr (by omega) h0 hexp]
      rfl
    exact hears_of_process hr hthird rfl (by decide) (by simp) hr'

lemma hears_mset (hr : Listens r) {items : List (ItemData × Str)} (hnum : items.length ≤ syncNum)
    (hlen : (Batch.mset items).outstr.length < 2 ^ 31) (hfits : (Batch.mset items).Fits) :
    Hears cfg now r (Batch.mset items).outstr := by
  have hauth : Authed cfg { r with subc := some .mset } := Or.inl hr.auth
  have hsmall : 2 * items.length + 1 < 2 ^ 31 := by
    simp only [syncNum] at hnum
    omega
  obtain ⟨m', hloop, hidle, -⟩ := itemLoop_of_fits hr.idle hlen hfits
  obtain ⟨r', hr', hsub, hidle'⟩ : ∃ r', process cfg now r _ = .ok (0, [], r') ∧
      r'.subc = some .mset ∧ r'.mdata.Idle :=
    (Request.process_mset_iff (Or.inl hr.auth) (show commands (lit "mset") = some .mset from rfl)
      hsmall _ MsetData.Idle).mpr ⟨m', hloop, hidle⟩
  obtain ⟨v, htok⟩ := Request.tokens_mset (show commands (lit "mset") = some .mset from rfl)
    items.length (items.flatMap fun p => replyItem p.1.name p.2)
  rw [show (Batch.mset items).outstr = _ from msetReply_eq _ hnum]
  have hthird : (tokens (Request.msetBytes (lit "mset") items.length
      (items.flatMap fun p => replyItem p.1.name p.2)))[2]? = some (lit "mset") := by
    rw [htok]
    rfl
  obtain ⟨r₁, hr₁, rfl⟩ := (process_done_iff hthird rfl (· = r')).mp ⟨r', hr', rfl⟩
  exact ⟨.mset, r₁, hr', hsub, by decide, (Command.parser_keeps hr₁).auth hr.auth, hidle',
    Or.inr ⟨rfl, Request.mset_parser_status hr₁⟩⟩

end Hears

/-! ## Batches -/

/-- **The batch can be heard**: it fits its buffers, or it is a plain `set` of a key that is one token.
Its sizes are those of an `int`. -/
def Batch.Legible (b : Batch) : Prop :=
  b.outstr.length < 2 ^ 31 ∧
  match b with
  | .add it nr expire => Clean it.name ∧ 0 ∉ it.name ∧ it.name.length < 250 ∧ expire < 2 ^ 31 ∧
      (expire ≠ 0 → (Batch.add it nr expire).Fits)
  | b => b.Fits

instance : DecidablePred Batch.Fits
  | .text _ => inferInstanceAs (Decidable True)
  | .del _ => inferInstanceAs (Decidable (_ ∧ _ ∧ _))
  | .add _ _ _ => inferInstanceAs (Decidable (_ ∧ _ ∧ _ ∧ _ ∧ _))
  | .mset items => inferInstanceAs (Decidable (∀ p ∈ items, PairFits p.1.name p.2))

instance : DecidablePred Batch.Legible
  | .text t => inferInstanceAs (Decidable (_ ∧ (Batch.text t).Fits))
  | .del it => inferInstanceAs (Decidable (_ ∧ (Batch.del it).Fits))
  | .add it nr expire => inferInstanceAs (Decidable (_ ∧ Clean it.name ∧ 0 ∉ it.name ∧ _ ∧ _ ∧
      (expire ≠ 0 → (Batch.add it nr expire).Fits)))
  | .mset items => inferInstanceAs (Decidable (_ ∧ (Batch.mset items).Fits))

/-- **What `Start` sends** is a `reply`, or nothing, or a batch. -/
lemma start_sends {g g' : GentReplication} {db : GentDb} {now : ℕ} {msg : Str} {b : Batch} {sent : Bool}
    (h : g.start db now msg = .ok (g', b, sent)) :
    b.outstr ∈ replies ∨ b = .text [] ∨ (∀ t, b ≠ .text t) ∧ b.Built db now syncNum := by
  by_cases hword : msg = lit "ok" ∨ msg = lit "data"
  · obtain ⟨word, rfl⟩ : ∃ word : GentReplication.Word, word.text = msg := by
      rcases hword with rfl | rfl
      · exact ⟨.ok, rfl⟩
      · exact ⟨.data, rfl⟩
    cases GentReplication.start_cases word.text_cases h with
    | idle _ => exact Or.inr (Or.inl rfl)
    | batch _ hb =>
        exact Or.inr (Or.inr ⟨fun t ht => GentReplication.batchLoop_ne_text (ht ▸ hb), start_built h⟩)
  · left
    have hclose : msg ≠ lit "ok" ∧ msg ≠ lit "data" := not_or.mp hword
    unfold GentReplication.start at h
    split_ifs at h
    · obtain ⟨-, hrest⟩ := Prod.mk.inj (Except.ok.inj h)
      rw [← (Prod.mk.inj hrest).1]
      decide
    · obtain ⟨-, hrest⟩ := Prod.mk.inj (Except.ok.inj h)
      rw [← (Prod.mk.inj hrest).1]
      decide
    · obtain ⟨-, hrest⟩ := Prod.mk.inj (Except.ok.inj h)
      rw [← (Prod.mk.inj hrest).1]
      decide

/-- A batch that can be heard is. -/
lemma hears_batch {cfg : Config} {now t : ℕ} {r : GentRedis} {db : GentDb} {b : Batch}
    (hr : Listens r) (hlegible : b.Legible) (htext : ∀ t, b ≠ .text t)
    (hbuilt : b.Built db t syncNum) : Hears cfg now r b.outstr := by
  obtain ⟨hlen, hfits⟩ := hlegible
  cases b with
  | text t => exact absurd rfl (htext t)
  | del it => exact hears_del hr hfits.1 hfits.2.1 hfits.2.2
  | add it nr expire =>
      obtain ⟨hclean, hzero, h250, hexp, hfit⟩ := hfits
      exact hears_add hr hclean hzero h250 hexp hlen hfit
  | mset items => exact hears_mset hr hbuilt hlen hfits

/-- The master has, or can make, a replication for the name. -/
def GentRepMgr.HasRoom (m : GentRepMgr) (name : Str) : Prop :=
  m.rep_list[name]?.isSome ∨ (m.known name).isSome ∨ m.repfile.freeSlot.isSome

instance (m : GentRepMgr) (name : Str) : Decidable (m.HasRoom name) :=
  inferInstanceAs (Decidable (_ ∨ _ ∨ _))

lemma GentRepMgr.get_isSome_iff (m : GentRepMgr) (cr : Creation) (junk name : Str)
    (is_sync_all : Bool) : (m.get cr junk name is_sync_all).1.isSome ↔ m.HasRoom name := by
  have hcreated : ∀ (m : GentRepMgr) (i : ℕ), (m.created cr name i is_sync_all).1.isSome :=
    fun m i => Option.isSome_iff_ne_none.mpr (m.created_ne_none cr name i is_sync_all)
  rcases m.get_cases cr junk name is_sync_all with ⟨e, he, hget⟩ | ⟨hnone, ⟨i, hi, hget⟩ | ⟨hunknown, h⟩⟩
  · rw [hget]
    exact iff_of_true rfl (Or.inl (by rw [he]; rfl))
  · rw [hget]
    exact iff_of_true (hcreated m i) (Or.inr (Or.inl (by rw [hi]; rfl)))
  · rcases h with ⟨i, hi, hget⟩ | ⟨hfull, hget⟩
    · rw [hget]
      exact iff_of_true (hcreated _ i) (Or.inr (Or.inr (by rw [hi]; rfl)))
    · rw [hget]
      refine iff_of_false (by simp) ?_
      simp only [HasRoom, hnone, hunknown, hfull]
      simp

/-- The batch that `MasterHandle` is about to send. -/
def Server.batch (sv : Server) (w : World) (r : GentRedis) : Option Batch :=
  match sv.master.get ⟨sv.db, w.now, w.uninit, w.id⟩ w.junk r.keystr r.is_sync_all with
  | (none, _) => none
  | (some e, master) => ((master.load e).start sv.db w.now r.repmsg).toOption.map fun res => res.2.1

/-- **What `MasterHandle` sends**, if there is room for the slave. -/
lemma masterHandle_sends {sv sv' : Server} {w : World} {r : GentRedis} {out : Str} {idle : Bool}
    (hroom : sv.master.HasRoom r.keystr) (h : sv.masterHandle w r = .ok (out, idle, sv')) :
    ∃ b, sv.batch w r = some b ∧ out = b.outstr ∧
      (out ∈ replies ∨ out = [] ∨ (∀ t, b ≠ .text t) ∧ b.Built sv.db w.now syncNum) := by
  have hsome := (sv.master.get_isSome_iff ⟨sv.db, w.now, w.uninit, w.id⟩ w.junk r.keystr
    r.is_sync_all).mpr hroom
  unfold Server.masterHandle at h
  unfold Server.batch
  rcases hget : sv.master.get ⟨sv.db, w.now, w.uninit, w.id⟩ w.junk r.keystr r.is_sync_all
    with ⟨e, master⟩
  rw [hget] at h hsome
  cases e with
  | none => cases hsome
  | some e =>
      obtain ⟨⟨rep, b, ret⟩, hstart, h⟩ := bind_eq_ok.mp h
      obtain ⟨rfl, -⟩ := Prod.mk.inj (Except.ok.inj h)
      refine ⟨b, by simp only [hstart]; rfl, rfl, ?_⟩
      rcases start_sends hstart with hreply | rfl | hbatch
      · exact Or.inl hreply
      · exact Or.inr (Or.inl rfl)
      · exact Or.inr (Or.inr hbatch)

/-! ## The system -/

/-- `GentRepMgr::status` on the slave. -/
inductive SlaveStatus where
  | INIT | AUTH | WAIT | CONTINUE
  deriving DecidableEq

/-- A master and a slave, and the replication connection between them: the two handlers, the
replications that are attached to the master's end, and the messages under way. -/
structure Dialogue where
  master : Server
  mcomm : GentRedis
  attached : List Str
  slave : Server
  scomm : GentRedis
  status : SlaveStatus
  linked : Bool
  toMaster : List Str
  toSlave : List Str

/-- What may happen: the timer of the slave, a read at either end, `MasterHandle`, the end of the
connection, and whatever other clients do with the two servers.  A read takes some number of bytes. -/
inductive DialogueEvent where
  | timer (late links uninit₁ uninit₂ : Bool)
  | masterRead (w : World) (size : ℕ)
  | masterHandle (w : World) (name : Str)
  | slaveRead (w : World) (size : ℕ)
  | close
  | masterOther (db : GentDb) (mgr : GentRepMgr)
  | slaveOther (db : GentDb) (mgr : GentRepMgr)

/-- A message, unless there is nothing to send. -/
def emitted (out : Str) : List Str := if out = [] then [] else [out]

/-- What is left of the messages once so many bytes are read. -/
def unread : ℕ → List Str → List Str
  | _, [] => []
  | size, m :: ms => if size < m.length then m.drop size :: ms else unread (size - m.length) ms

namespace Dialogue

/-- The two ends before the first connection.  The handlers are those of `link`. -/
def start (master : Server) (id : ServerId) (db : GentDb) (mgr : GentRepMgr) : Dialogue where
  master := master
  mcomm := newRedis
  attached := []
  slave := ⟨db, mgr, id.text⟩
  scomm := { newRedis with auth := true }
  status := .INIT
  linked := false
  toMaster := []
  toSlave := []

/-- `LinkMaster`: a new connection, with a handler at either end, and that of the slave is
authenticated. -/
def link (d : Dialogue) (uninit₁ uninit₂ : Bool) : Dialogue :=
  { d with
    mcomm := .new uninit₁
    attached := []
    scomm := { GentRedis.new uninit₂ with auth := true }
    status := .INIT
    linked := true
    toMaster := []
    toSlave := [] }

/-- The connection is closed, at both ends. -/
def unlink (d : Dialogue) : Dialogue :=
  { d with attached := [], linked := false, toMaster := [], toSlave := [] }

/-- The end of `GentRepMgr::Slave`, on a connection. -/
def ask (cfg : Config) (is_sync_all : Bool) (d : Dialogue) : Dialogue :=
  match d.status with
  | .INIT =>
      if cfg.master_auth = [] then { d with status := .CONTINUE }
      else
        { d with
          status := .AUTH
          toMaster := d.toMaster ++ [slaveAuth d.slave.server_id cfg.master_auth is_sync_all] }
  | .CONTINUE =>
      { d with status := .WAIT, toMaster := d.toMaster ++ [slaveData d.slave.server_id] }
  | _ => d

/-- `GentRepMgr::Slave`.  `late` says that the last message is more than a minute old, and `links` that
the master can be reached. -/
def slaveTimer (cfg : Config) (is_sync_all : Bool) (d : Dialogue) (late links uninit₁ uninit₂ : Bool) :
    Dialogue :=
  if (d.status = .AUTH ∨ d.status = .WAIT) ∧ d.linked then
    if late then { d with status := .CONTINUE } else d
  else
    let d := if d.status = .AUTH ∨ d.status = .WAIT then { d with status := .CONTINUE } else d
    if d.linked then d.ask cfg is_sync_all
    else if links then (d.link uninit₁ uninit₂).ask cfg is_sync_all
    else d

/-- `reply close` ends the connection. -/
def closes (cfg : Config) (now : ℕ) (r : GentRedis) (data : Str) : Bool :=
  match process cfg now r data with
  | .ok (_, [], r) => r.curstatus = .CONN_CLOSE
  | _ => false

/-- A step.  `cfgM` and `cfgS` are the configurations of the two.  There is none if a server fails, or if
a handler is left waiting for more bytes. -/
def step (cfgM cfgS : Config) (is_sync_all : Bool) (d : Dialogue) : DialogueEvent → Option Dialogue
  | .timer late links uninit₁ uninit₂ =>
      some (d.slaveTimer cfgS is_sync_all late links uninit₁ uninit₂)
  | .masterRead w size =>
      let data := d.toMaster.flatten.take size
      if data = [] then none
      else (Session.react cfgM false w d.master d.mcomm data).map fun a =>
        { d with
          master := a.server
          mcomm := a.comm
          attached := a.attached ++ d.attached
          toMaster := unread size d.toMaster
          toSlave := d.toSlave ++ emitted a.out }
  | .masterHandle w name =>
      if name ∈ d.attached then
        match d.master.masterHandle w d.mcomm with
        | .error _ => none
        | .ok (out, _, sv) => some { d with master := sv, toSlave := d.toSlave ++ emitted out }
      else none
  | .slaveRead w size =>
      let data := d.toSlave.flatten.take size
      if data = [] then none
      else if closes cfgS w.now d.scomm data then some d.unlink
      else (Session.react cfgS true w d.slave d.scomm data).map fun a =>
        { d with
          slave := a.server
          scomm := { a.comm with slave_continue := false }
          status := if a.comm.slave_continue then .CONTINUE else d.status
          toSlave := unread size d.toSlave
          toMaster := d.toMaster ++ emitted a.out }
  | .close => some d.unlink
  | .masterOther db mgr => some { d with master := { d.master with db, master := mgr } }
  | .slaveOther db mgr => some { d with slave := { d.slave with db, master := mgr } }

/-- **The condition on a step.**  A read takes one message.  When the master reads, there is room for
the slave and its thread can be told; and when it answers, there is room, and the batch can be heard. -/
def Orderly (id : ServerId) (d : Dialogue) : DialogueEvent → Prop
  | .masterRead w size => d.toMaster.head?.map List.length = some size ∧
      d.master.master.HasRoom id.text ∧ w.sent = true
  | .masterHandle w _ => d.master.master.HasRoom d.mcomm.keystr ∧
      ∀ b ∈ d.master.batch w d.mcomm, b.Legible
  | .slaveRead _ size => d.toSlave.head?.map List.length = some size
  | _ => True

instance (id : ServerId) (d : Dialogue) : ∀ e, Decidable (d.Orderly id e)
  | .timer _ _ _ _ => inferInstanceAs (Decidable True)
  | .masterRead _ _ => inferInstanceAs (Decidable (_ ∧ _ ∧ _))
  | .masterHandle w _ => inferInstanceAs (Decidable (_ ∧ ∀ b ∈ d.master.batch w d.mcomm, b.Legible))
  | .slaveRead _ _ => inferInstanceAs (Decidable (_ = _))
  | .close => inferInstanceAs (Decidable True)
  | .masterOther _ _ => inferInstanceAs (Decidable True)
  | .slaveOther _ _ => inferInstanceAs (Decidable True)

/-- **Every message under way is heard** by the end that it goes to. -/
def Closed (cfgM cfgS : Config) (d : Dialogue) : Prop :=
  (∀ m ∈ d.toMaster, ∀ now, ∃ r', process cfgM now d.mcomm m = .ok (0, [], r') ∧
      r'.subc = some .rep) ∧
    ∀ m ∈ d.toSlave, ∀ now, ∃ c r', process cfgS now d.scomm m = .ok (0, [], r') ∧
      r'.subc = some c ∧ c ∈ slaveCommands

/-! ## One message -/

section Message

variable {id : ServerId} {cfg : Config} {w : World} {sv : Server} {r : GentRedis} {m : Str}
  {a : Session.Reaction}

/-- The status of the connection does not matter for that. -/
lemma attaches_status (w : World) (sv : Server) (r : GentRedis) (st : Status) :
    GentProcessRep.attaches w sv { r with curstatus := st } = GentProcessRep.attaches w sv r := rfl

/-- What the master does with a message of the slave. -/
lemma react_rep_eq (cfg : Config) (w : World) (sv : Server) (r : GentRedis) (hm : IsRep id m) :
    ∃ r', r'.keystr = id.text ∧ r'.curstatus = .CONN_DATA ∧
    (cfg.master_auth = [] → r'.master_auth = true) ∧
    ∀ a, Session.react cfg false w sv r m = some a ↔
      ∃ out r'' sv', GentProcessRep.complete w sv r' = .ok (out, r'', sv') ∧
        (out ≠ [] ∨ r''.curstatus = .CONN_WAIT) ∧
        a = ⟨out, { r'' with curstatus := .CONN_READ }, sv', (GentProcessRep.attaches w sv r').toList⟩ := by
  obtain ⟨r', hproc, hsub, hkey, hst, hopen⟩ := process_rep cfg w.now r hm
  refine ⟨r', hkey, hst, hopen, fun a => ?_⟩
  have hcomplete : complete false w sv { r' with curstatus := .CONN_DATA } []
      = GentProcessRep.complete w sv r' := by
    rw [complete_eq (r := { r' with curstatus := .CONN_DATA }) hsub, ← hst]
    rfl
  simp only [Session.react, hproc, hcomplete, attaches_status]
  rw [if_neg (not_not.mpr rfl), if_neg (by rw [hst]; simp), if_pos (Or.inl hst)]
  cases GentProcessRep.complete w sv r' with
  | error f => simp
  | ok res =>
      obtain ⟨out, r'', sv'⟩ := res
      dsimp only
      rw [Option.ite_none_right_eq_some]
      constructor
      · rintro ⟨hout, h⟩
        exact ⟨out, r'', sv', rfl, hout, (Option.some.inj h).symm⟩
      · rintro ⟨out₁, r₁, sv₁, h, hout, rfl⟩
        obtain ⟨rfl, hrest⟩ := Prod.mk.inj (Except.ok.inj h)
        obtain ⟨rfl, rfl⟩ := Prod.mk.inj hrest
        exact ⟨hout, rfl⟩

/-- **The master's answer to a message of the slave**: a `reply` to one that is not authenticated, and
nothing otherwise, since the master thread is told. -/
lemma react_rep (hm : IsRep id m) (hroom : sv.master.HasRoom id.text) (hsent : w.sent = true)
    (h : Session.react cfg false w sv r m = some a) : a.out = [] ∨ a.out ∈ replies := by
  obtain ⟨r', hkey, -, -, hreact⟩ := react_rep_eq cfg w sv r hm
  obtain ⟨out, r'', sv', hcomplete, -, rfl⟩ := (hreact a).mp h
  have hsome := (sv.master.get_isSome_iff ⟨sv.db, w.now, w.uninit, w.id⟩ w.junk r'.keystr
    r'.is_sync_all).mpr (hkey ▸ hroom)
  show out = [] ∨ out ∈ replies
  unfold GentProcessRep.complete at hcomplete
  split_ifs at hcomplete
  · right
    rw [← (Prod.mk.inj (Except.ok.inj hcomplete)).1]
    decide
  · right
    rw [← (Prod.mk.inj (Except.ok.inj hcomplete)).1]
    decide
  · rcases hget : sv.master.get ⟨sv.db, w.now, w.uninit, w.id⟩ w.junk r'.keystr r'.is_sync_all
      with ⟨e, master⟩
    rw [hget] at hcomplete hsome
    cases e with
    | none => cases hsome
    | some e =>
        left
        rw [← (Prod.mk.inj (Except.ok.inj hcomplete)).1]

/-- Without room the slave gets an error. -/
lemma react_full (hm : IsRep id m) (hopen : cfg.master_auth = [])
    (hfull : ¬ sv.master.HasRoom id.text) :
    ∃ a, Session.react cfg false w sv r m = some a ∧ a.out = lit "-ERR slave full,manual clear\r\n" := by
  obtain ⟨r', hkey, -, hauth, hreact⟩ := react_rep_eq cfg w sv r hm
  have hnone := (sv.master.get_isSome_iff ⟨sv.db, w.now, w.uninit, w.id⟩ w.junk r'.keystr
    r'.is_sync_all).not.mpr (hkey ▸ hfull)
  rcases hget : sv.master.get ⟨sv.db, w.now, w.uninit, w.id⟩ w.junk r'.keystr r'.is_sync_all
    with ⟨e, master⟩
  rw [hget] at hnone
  obtain rfl : e = none := Option.not_isSome_iff_eq_none.mp hnone
  have hcomplete : GentProcessRep.complete w sv r'
      = .ok (lit "-ERR slave full,manual clear\r\n", r', { sv with master }) := by
    rw [GentProcessRep.complete, if_neg (by rw [hauth hopen]; decide), hget]
  exact ⟨_, (hreact _).mpr ⟨_, _, _, hcomplete, Or.inl (List.cons_ne_nil _ _), rfl⟩, rfl⟩

/-- What a command of the master does on the slave: it acknowledges, if at all, and leaves no pair of an
`mset` behind. -/
lemma complete_slave {c : Command} (hc : c ∈ slaveCommands) {recont out : Str} {r' : GentRedis}
    {sv' : Server} (h : c.complete true w sv r recont = .ok (out, r', sv')) :
    (out = [] ∨ ∃ suc, out = slaveReply sv.server_id suc) ∧ sv'.server_id = sv.server_id ∧
      r'.auth = r.auth ∧
      r'.mdata = if c = .mset then { r.mdata with keys_values := ∅ } else r.mdata := by
  have hvalue : ∀ {expire : ℕ}, valueComplete true w sv expire r recont = .ok (out, r', sv') →
      (out = [] ∨ ∃ suc, out = slaveReply sv.server_id suc) ∧ sv'.server_id = sv.server_id ∧
        r'.auth = r.auth ∧ r'.mdata = r.mdata := by
    intro expire h
    simp only [valueComplete] at h
    split_ifs at h
    · cases h
      exact ⟨Or.inr ⟨true, rfl⟩, rfl, rfl, rfl⟩
    · cases h
      exact ⟨Or.inr ⟨false, rfl⟩, rfl, rfl, rfl⟩
  simp only [slaveCommands, List.mem_cons, List.not_mem_nil, or_false] at hc
  rcases hc with rfl | rfl | rfl | rfl | rfl
  · exact hvalue h
  · exact hvalue h
  · simp only [Command.complete, GentProcessMset.complete] at h
    split_ifs at h
    · cases h
      exact ⟨Or.inr ⟨true, rfl⟩, rfl, rfl, rfl⟩
    · cases h
      exact ⟨Or.inr ⟨false, rfl⟩, rfl, rfl, rfl⟩
  · obtain ⟨found, -, h⟩ := bind_eq_ok.mp h
    cases found with
    | none =>
        cases h
        exact ⟨Or.inr ⟨true, rfl⟩, rfl, rfl, rfl⟩
    | some nr =>
        simp only [if_true] at h
        split_ifs at h
        · cases h
          exact ⟨Or.inr ⟨true, rfl⟩, rfl, rfl, rfl⟩
        · cases h
          exact ⟨Or.inr ⟨false, rfl⟩, rfl, rfl, rfl⟩
  · cases h
    exact ⟨Or.inl rfl, rfl, rfl, rfl⟩

/-- **The slave's answer to a message that it hears**, and its handler behind it. -/
lemma react_heard (hears : Hears cfg w.now r m) (h : Session.react cfg true w sv r m = some a) :
    (a.out = [] ∨ ∃ suc, a.out = slaveReply sv.server_id suc) ∧ a.server.server_id = sv.server_id ∧
      Listens a.comm := by
  obtain ⟨c, r', hproc, hsub, hc, hauth, hidle, hpairs⟩ := hears
  simp only [Session.react, hproc] at h
  rw [if_neg (not_not.mpr rfl)] at h
  split_ifs at h with hread hdata
  · obtain rfl := Option.some.inj h
    have hnone : r'.mdata.keys_values = ∅ := by
      rcases hpairs with hnone | ⟨-, hst⟩
      · exact hnone
      · rw [hst] at hread
        exact absurd hread (by simp)
    exact ⟨Or.inl rfl, rfl, hauth, hidle, hnone⟩
  · rw [complete_eq (r := { r' with curstatus := .CONN_DATA }) hsub] at h
    cases hcomplete : c.complete true w sv { r' with curstatus := .CONN_DATA } [] with
    | error f => simp [hcomplete] at h
    | ok res =>
        obtain ⟨out, r'', sv'⟩ := res
        obtain ⟨hout, hid, hauth', hmdata⟩ := complete_slave hc hcomplete
        simp only [hcomplete] at h
        rw [Option.ite_none_right_eq_some] at h
        obtain rfl := Option.some.inj h.2
        refine ⟨hout, hid, hauth'.trans hauth, ?_, ?_⟩
        · show r''.mdata.Idle
          rw [hmdata]
          split_ifs
          · exact hidle
          · exact hidle
        · show r''.mdata.keys_values = ∅
          rw [hmdata]
          split_ifs with hmset
          · rfl
          · exact hpairs.resolve_right fun h => hmset h.1

end Message

/-! ## Whole runs -/

/-- **The invariant**: what is under way to the master is of the slave's making, and what is under way
to the slave is heard by it, now and later. -/
structure Inv (cfgS : Config) (id : ServerId) (d : Dialogue) : Prop where
  name : d.slave.server_id = id.text
  listens : Listens d.scomm
  toMaster : ∀ m ∈ d.toMaster, IsRep id m
  toSlave : ∀ m ∈ d.toSlave, m ≠ [] ∧ ∀ now r, Listens r → Hears cfgS now r m

section Run

variable {cfgM cfgS : Config} {all : Bool} {id : ServerId} {d d' : Dialogue} {m out : Str}
  {ms : List Str} {size : ℕ}

lemma unread_zero : ∀ {ms : List Str}, (∀ m ∈ ms, m ≠ []) → unread 0 ms = ms
  | [], _ => rfl
  | m :: ms, h => by
      have hpos : 0 < m.length := List.length_pos_of_ne_nil (h m List.mem_cons_self)
      rw [unread, if_pos hpos, List.drop_zero]

/-- **A read of one message** leaves the others. -/
lemma read_head (hne : ∀ m ∈ ms, m ≠ []) (hsize : ms.head?.map List.length = some size) :
    ∃ m rest, ms = m :: rest ∧ ms.flatten.take size = m ∧ unread size ms = rest := by
  cases ms with
  | nil => cases hsize
  | cons m rest =>
      obtain rfl : m.length = size := Option.some.inj hsize
      refine ⟨m, rest, rfl, by rw [List.flatten_cons, List.take_left], ?_⟩
      rw [unread, if_neg (lt_irrefl _), Nat.sub_self,
        unread_zero fun m hm => hne m (List.mem_cons_of_mem _ hm)]

lemma forall_append_emitted {P : Str → Prop} (h : ∀ m ∈ ms, P m) (hout : out = [] ∨ P out) :
    ∀ m ∈ ms ++ emitted out, P m := by
  intro m hm
  rcases List.mem_append.mp hm with hm | hm
  · exact h m hm
  · unfold emitted at hm
    split_ifs at hm with hnil
    · cases hm
    · rw [List.mem_singleton.mp hm]
      exact hout.resolve_left hnil

lemma Inv.unlink (h : d.Inv cfgS id) : d.unlink.Inv cfgS id := ⟨h.name, h.listens, nofun, nofun⟩

lemma Inv.link (h : d.Inv cfgS id) (uninit₁ uninit₂ : Bool) : (d.link uninit₁ uninit₂).Inv cfgS id :=
  ⟨h.name, ⟨rfl, ⟨rfl, rfl⟩, rfl⟩, nofun, nofun⟩

lemma Inv.ask (h : d.Inv cfgS id) : (d.ask cfgS all).Inv cfgS id := by
  have hsay : ∀ {m : Str} {st : SlaveStatus}, IsRep id m →
      Dialogue.Inv cfgS id { d with status := st, toMaster := d.toMaster ++ [m] } := by
    intro m st hm
    refine ⟨h.name, h.listens, fun m' hm' => ?_, h.toSlave⟩
    rcases List.mem_append.mp hm' with hm' | hm'
    · exact h.toMaster m' hm'
    · rw [List.mem_singleton.mp hm']
      exact hm
  unfold Dialogue.ask
  split
  · split_ifs
    · exact ⟨h.name, h.listens, h.toMaster, h.toSlave⟩
    · exact hsay (h.name ▸ isRep_slaveAuth _ _)
  · exact hsay (h.name ▸ isRep_slaveData)
  · exact h

lemma Inv.slaveTimer (h : d.Inv cfgS id) (late links uninit₁ uninit₂ : Bool) :
    (d.slaveTimer cfgS all late links uninit₁ uninit₂).Inv cfgS id := by
  have hstatus : ∀ st, Dialogue.Inv cfgS id { d with status := st } := fun st =>
    ⟨h.name, h.listens, h.toMaster, h.toSlave⟩
  have hgo : Dialogue.Inv cfgS id
      (if d.status = .AUTH ∨ d.status = .WAIT then { d with status := .CONTINUE } else d) := by
    split_ifs
    · exact hstatus _
    · exact h
  unfold Dialogue.slaveTimer
  dsimp only
  generalize (if d.status = .AUTH ∨ d.status = .WAIT then { d with status := .CONTINUE } else d) = d₁
    at hgo
  split_ifs
  · exact hstatus _
  · exact h
  · exact hgo.ask
  · exact (hgo.link _ _).ask
  · exact hgo

/-- **A step that meets the condition keeps the invariant.** -/
lemma Inv.step (h : d.Inv cfgS id) {e : DialogueEvent} (horderly : d.Orderly id e)
    (hstep : d.step cfgM cfgS all e = some d') : d'.Inv cfgS id := by
  cases e with
  | timer late links uninit₁ uninit₂ =>
      obtain rfl := Option.some.inj hstep
      exact h.slaveTimer late links uninit₁ uninit₂
  | masterRead w size =>
      obtain ⟨hsize, hroom, hsent⟩ := horderly
      obtain ⟨m, rest, hms, hdata, hrest⟩ := read_head (fun m hm => (h.toMaster m hm).ne_nil) hsize
      have hm : IsRep id m := h.toMaster m (hms ▸ List.mem_cons_self)
      simp only [Dialogue.step, hdata, if_neg hm.ne_nil] at hstep
      obtain ⟨a, ha, rfl⟩ := Option.map_eq_some_iff.mp hstep
      refine ⟨h.name, h.listens, fun m' hm' => h.toMaster m' (hms ▸ List.mem_cons_of_mem _ (hrest ▸ hm')),
        forall_append_emitted h.toSlave ?_⟩
      rcases react_rep hm hroom hsent ha with hnil | hreply
      · exact Or.inl hnil
      · have hne : a.out ≠ [] := (show ∀ m ∈ replies, m ≠ [] by decide) _ hreply
        exact Or.inr ⟨hne, fun now r hr => hears_replies hr hreply⟩
  | masterHandle w name =>
      obtain ⟨hroom, hlegible⟩ := horderly
      simp only [Dialogue.step] at hstep
      split_ifs at hstep
      cases hres : d.master.masterHandle w d.mcomm with
      | error f => simp [hres] at hstep
      | ok res =>
          obtain ⟨out, idle, sv⟩ := res
          simp only [hres] at hstep
          obtain rfl := Option.some.inj hstep
          obtain ⟨b, hb, rfl, hsends⟩ := masterHandle_sends hroom hres
          refine ⟨h.name, h.listens, h.toMaster, forall_append_emitted h.toSlave ?_⟩
          by_cases hnil : b.outstr = []
          · exact Or.inl hnil
          refine Or.inr ⟨hnil, fun now r hr => ?_⟩
          rcases hsends with hreply | hempty | ⟨htext, hbuilt⟩
          · exact hears_replies hr hreply
          · exact absurd hempty hnil
          · exact hears_batch hr (hlegible b hb) htext hbuilt
  | slaveRead w size =>
      obtain ⟨m, rest, hms, hdata, hrest⟩ := read_head (fun m hm => (h.toSlave m hm).1) horderly
      obtain ⟨hne, hears⟩ := h.toSlave m (hms ▸ List.mem_cons_self)
      simp only [Dialogue.step, hdata, if_neg hne] at hstep
      split_ifs at hstep
      · obtain rfl := Option.some.inj hstep
        exact h.unlink
      · obtain ⟨a, ha, rfl⟩ := Option.map_eq_some_iff.mp hstep
        obtain ⟨hout, hid, hlistens⟩ := react_heard (hears w.now d.scomm h.listens) ha
        refine ⟨hid.trans h.name, ⟨hlistens.auth, hlistens.idle, hlistens.none⟩,
          forall_append_emitted h.toMaster ?_,
          fun m' hm' => h.toSlave m' (hms ▸ List.mem_cons_of_mem _ (hrest ▸ hm'))⟩
        rcases hout with hnil | ⟨suc, hsuc⟩
        · exact Or.inl hnil
        · rw [hsuc, h.name]
          exact Or.inr (isRep_slaveReply suc)
  | close =>
      obtain rfl := Option.some.inj hstep
      exact h.unlink
  | masterOther db mgr =>
      obtain rfl := Option.some.inj hstep
      exact ⟨h.name, h.listens, h.toMaster, h.toSlave⟩
  | slaveOther db mgr =>
      obtain rfl := Option.some.inj hstep
      exact ⟨h.name, h.listens, h.toMaster, h.toSlave⟩

lemma Inv.closed (h : d.Inv cfgS id) : d.Closed cfgM cfgS := by
  constructor
  · intro m hm now
    obtain ⟨r', hr', hsub, -⟩ := process_rep cfgM now d.mcomm (h.toMaster m hm)
    exact ⟨r', hr', hsub⟩
  · intro m hm now
    obtain ⟨c, r', hr', hsub, hc, -⟩ := (h.toSlave m hm).2 now d.scomm h.listens
    exact ⟨c, r', hr', hsub, hc⟩

end Run

/-- **The dialogue is closed** in every state of a run whose steps meet the condition: whatever is under
way is heard, and neither end answers it with an error. -/
theorem dialogue_closed (cfgM cfgS : Config) (is_sync_all : Bool) (id : ServerId) (master : Server)
    (db : GentDb) (mgr : GentRepMgr) (es : List DialogueEvent) (d : Dialogue)
    (horderly : Transition.Along (step cfgM cfgS is_sync_all) (Orderly id) (start master id db mgr) es)
    (hrun : Transition.run (step cfgM cfgS is_sync_all) (start master id db mgr) es = some d) :
    d.Closed cfgM cfgS := by
  have hstart : (start master id db mgr).Inv cfgS id := ⟨rfl, ⟨rfl, ⟨rfl, rfl⟩, rfl⟩, nofun, nofun⟩
  exact (Transition.inv_run (fun _ _ _ h hP hs => Inv.step h hP hs) es hstart horderly hrun).closed

/-- A slave. -/
def slaveId : ServerId := ⟨lit "host_6380", by decide, by decide, by decide⟩

/-- The slave connects, and asks for entries. -/
def asks : List DialogueEvent := [.timer false true false false, .timer false true false false]

/-- A key is on its way: the request of the slave, and the batch. -/
def oneKeyRun : List DialogueEvent :=
  asks ++ [.masterRead quietWorld 38, .masterHandle quietWorld slaveId.text]

theorem dialogue_closed_oneKey : ∃ d,
    Transition.run (step openConfig openConfig true)
        (start (keyServer (lit "k") (lit "v")) slaveId .empty .emptyMgr) oneKeyRun = some d ∧
      d.toSlave = [lit "*3\r\n$4\r\nmset\r\n$1\r\nk\r\n$1\r\nv\r\n"] ∧
      d.Closed openConfig openConfig := by
  obtain ⟨d, hd, hslave⟩ := Option.map_eq_some_iff.mp (show
    (Transition.run (step openConfig openConfig true)
        (start (keyServer (lit "k") (lit "v")) slaveId .empty .emptyMgr) oneKeyRun).map toSlave
      = some [lit "*3\r\n$4\r\nmset\r\n$1\r\nk\r\n$1\r\nv\r\n"] by decide +kernel)
  exact ⟨d, hd, hslave, dialogue_closed openConfig openConfig true slaveId _ _ _ _ d
    (by decide +kernel) hd⟩

/-! ## The defect -/

section Echo

variable {cfgM cfgS : Config} {all : Bool} {d : Dialogue} {m : Str}

/-- A text without a command. -/
def Foreign (m : Str) : Prop := tokens m ≠ [] ∧ (tokens m)[2]?.bind commands = none

instance (m : Str) : Decidable (Foreign m) := inferInstanceAs (Decidable (_ ∧ _))

/-- The answer to a message that is not understood. -/
def unknownCommand : Str := lit "-ERR unknown command\r\n"

lemma Foreign.process_eq (h : Foreign m) (cfg : Config) (now : ℕ) (r : GentRedis) :
    process cfg now r m = .ok (0, unknownCommand, r) := by
  rw [process_none h.2, if_neg h.1]
  rfl

lemma Foreign.ne_nil (h : Foreign m) : m ≠ [] := by
  rintro rfl
  exact h.1 rfl

lemma Foreign.react_eq (h : Foreign m) (cfg : Config) (is_slave : Bool) (w : World) (sv : Server)
    (r : GentRedis) : Session.react cfg is_slave w sv r m
      = some ⟨unknownCommand, { r with curstatus := .CONN_READ }, sv, []⟩ := by
  simp only [Session.react, h.process_eq]
  rw [if_pos (by decide)]

lemma unread_single (m : Str) : unread m.length [m] = [] := by
  rw [unread, if_neg (lt_irrefl _), unread]

/-- The slave reads a text that is no command. -/
lemma slave_echo (hm : Foreign m) (w : World) (hslave : d.toSlave = [m]) :
    ∃ d', d.step cfgM cfgS all (.slaveRead w m.length) = some d' ∧ d'.toSlave = [] ∧
      d'.toMaster = d.toMaster ++ [unknownCommand] := by
  have hdata : d.toSlave.flatten.take m.length = m := by rw [hslave]; simp
  have hcloses : closes cfgS w.now d.scomm m = false := by
    simp only [closes, hm.process_eq]
    rfl
  simp only [step, hdata, if_neg hm.ne_nil, hcloses, Bool.false_eq_true, if_false, hm.react_eq,
    Option.map_some]
  exact ⟨_, rfl, by rw [hslave, unread_single], rfl⟩

/-- The master does. -/
lemma master_echo (hm : Foreign m) (w : World) (hmaster : d.toMaster = [m]) :
    ∃ d', d.step cfgM cfgS all (.masterRead w m.length) = some d' ∧ d'.toMaster = [] ∧
      d'.toSlave = d.toSlave ++ [unknownCommand] := by
  have hdata : d.toMaster.flatten.take m.length = m := by rw [hmaster]; simp
  simp only [step, hdata, if_neg hm.ne_nil, hm.react_eq, Option.map_some]
  exact ⟨_, rfl, by rw [hmaster, unread_single], rfl⟩

/-- An exchange of errors: the slave answers what it does not understand, and the master the answer. -/
def round (w : World) (m : Str) : List DialogueEvent :=
  [.slaveRead w m.length, .masterRead w unknownCommand.length]

lemma run_round (hm : Foreign m) (w : World) (hmaster : d.toMaster = []) (hslave : d.toSlave = [m]) :
    ∃ d', Transition.run (step cfgM cfgS all) d (round w m) = some d' ∧ d'.toMaster = [] ∧
      d'.toSlave = [unknownCommand] := by
  obtain ⟨d₁, h₁, hslave₁, hmaster₁⟩ : ∃ d₁, d.step cfgM cfgS all _ = some d₁ ∧ _ :=
    slave_echo hm w hslave
  rw [hmaster, List.nil_append] at hmaster₁
  obtain ⟨d₂, h₂, hmaster₂, hslave₂⟩ : ∃ d₂, d₁.step cfgM cfgS all _ = some d₂ ∧ _ :=
    master_echo (by decide) w hmaster₁
  rw [hslave₁, List.nil_append] at hslave₂
  exact ⟨d₂, by simp only [round, Transition.run, h₁, h₂, Option.bind_some], hmaster₂, hslave₂⟩

/-- **The errors go to and fro without end.** -/
lemma run_rounds (hm : Foreign m) (w : World) (hmaster : d.toMaster = []) (hslave : d.toSlave = [m]) :
    ∀ n, ∃ d', Transition.run (step cfgM cfgS all) d
        (round w m ++ (List.replicate n (round w unknownCommand)).flatten) = some d' ∧
      d'.toMaster = [] ∧ d'.toSlave = [unknownCommand] := by
  intro n
  obtain ⟨d₁, h₁, hmaster₁, hslave₁⟩ : ∃ d₁, Transition.run (step cfgM cfgS all) d _ = some d₁ ∧ _ :=
    run_round hm w hmaster hslave
  rw [Transition.run_append, h₁, Option.bind_some]
  clear h₁
  induction n generalizing d₁ with
  | zero => exact ⟨d₁, rfl, hmaster₁, hslave₁⟩
  | succ n ih =>
      obtain ⟨d₂, h₂, hmaster₂, hslave₂⟩ : ∃ d₂, Transition.run (step cfgM cfgS all) d₁ _ = some d₂ ∧ _ :=
        run_round (by decide) w hmaster₁ hslave₁
      rw [List.replicate_succ, List.flatten_cons, Transition.run_append, h₂, Option.bind_some]
      exact ih d₂ hmaster₂ hslave₂

end Echo

/-- The slots of a master that 1024 slaves have registered with, under numbers for names. -/
def fullSlots : List Str := (List.range slaveNum).map fun i => (RepInfo.fresh (decimal i)).head

/-- This master, restarted. -/
def fullServer : Server := ⟨.empty, GentRepMgr.new [] fullSlots, []⟩

lemma fullServer_full : ¬ fullServer.master.HasRoom slaveId.text := by
  have hslots : ∀ c ∈ fullSlots.map (RepInfo.init []), c.available ≠ 0 ∧ cstr c.name ≠ slaveId.text := by
    intro c hc
    simp only [fullSlots, List.map_map, List.mem_map, List.mem_range, Function.comp_apply] at hc
    obtain ⟨i, hi, rfl⟩ := hc
    have hlen : (decimal i).length < slaveNameSize :=
      lt_of_le_of_lt ((decimal_length_le_iff (k := 4) (by decide)).mpr (hi.trans (by decide)))
        (by decide)
    have hres : (RepInfo.fresh (decimal i)).Restores [] := RepInfo.restores_fresh (by decide) hlen
    refine ⟨by rw [hres.available]; exact Nat.one_ne_zero, ?_⟩
    rw [hres.name, RepInfo.cstr_fresh hlen, cstr_eq_self (zero_notMem_decimal i)]
    -- A number has no letters.
    intro heq
    have hletter : (104 : UInt8) ∈ decimal i := by rw [heq]; decide
    exact absurd (isDigit_of_mem_decimal hletter) (by decide)
  have hnames : (GentFile.loadNames (fullSlots.map (RepInfo.init [])) 0 ∅)[slaveId.text]? = none := by
    rw [GentRepMgr.loadNames_of_notMem _ _ _ _ fun c hc _ => (hslots c hc).2]
    exact Std.ExtTreeMap.getElem?_empty
  have hfree : (fullSlots.map (RepInfo.init [])).findIdx? (·.available = 0) = none := by
    rw [List.findIdx?_eq_none_iff]
    intro c hc
    simpa using (hslots c hc).1
  rintro (h | h | h)
  · simp [fullServer, GentRepMgr.new] at h
  · simp [fullServer, GentRepMgr.new, GentRepMgr.known, GentFile.init, hnames] at h
  · simp [fullServer, GentRepMgr.new, GentFile.freeSlot, GentFile.init, hfree] at h

/-- **All slots are taken.**  The next slave is told so with a text that is no command, and from then on
the two ends answer each other's errors. -/
theorem slave_full : ∃ d,
    Transition.run (step openConfig openConfig true) (start fullServer slaveId .empty .emptyMgr)
        (asks ++ [.masterRead quietWorld 38]) = some d ∧
      d.toSlave = [lit "-ERR slave full,manual clear\r\n"] ∧ ¬ d.Closed openConfig openConfig ∧
      ∀ n, ∃ d', Transition.run (step openConfig openConfig true) d
          (round quietWorld (lit "-ERR slave full,manual clear\r\n")
            ++ (List.replicate n (round quietWorld unknownCommand)).flatten) = some d' ∧
        d'.toSlave = [unknownCommand] := by
  have hforeign : Foreign (lit "-ERR slave full,manual clear\r\n") := by decide
  obtain ⟨d₀, h₀, hmaster₀, hslave₀, hserver⟩ : ∃ d₀,
      Transition.run (step openConfig openConfig true) (start fullServer slaveId .empty .emptyMgr) asks
        = some d₀ ∧ d₀.toMaster = [slaveData slaveId.text] ∧ d₀.toSlave = [] ∧
      d₀.master = fullServer := ⟨_, rfl, rfl, rfl, rfl⟩
  obtain ⟨a, ha, hout⟩ : ∃ a, Session.react openConfig false quietWorld d₀.master d₀.mcomm
      (slaveData slaveId.text) = some a ∧ _ :=
    react_full isRep_slaveData rfl (hserver ▸ fullServer_full)
  have hread : d₀.step openConfig openConfig true (.masterRead quietWorld 38) = some
      { d₀ with
        master := a.server
        mcomm := a.comm
        attached := a.attached ++ d₀.attached
        toMaster := []
        toSlave := [a.out] } := by
    have hdata : d₀.toMaster.flatten.take 38 = slaveData slaveId.text := by
      rw [hmaster₀]
      decide
    have hemit : emitted a.out = [a.out] := by rw [hout]; rfl
    have hunread : unread 38 d₀.toMaster = [] := by
      rw [hmaster₀]
      decide
    simp only [step, hdata, ha, hslave₀, hemit, hunread, Option.map_some, List.nil_append]
    rw [if_neg (by decide)]
  obtain ⟨d, hd, hmaster, hslave⟩ : ∃ d,
      d₀.step openConfig openConfig true (.masterRead quietWorld 38) = some d ∧ d.toMaster = [] ∧
      d.toSlave = [lit "-ERR slave full,manual clear\r\n"] := ⟨_, hread, rfl, by rw [hout]⟩
  refine ⟨d, ?_, hslave, ?_, fun n => ?_⟩
  · rw [Transition.run_append, h₀, Option.bind_some, Transition.run, hd]
    rfl
  · rintro ⟨-, hheard⟩
    obtain ⟨c, r', hproc, -⟩ := hheard _ (hslave ▸ List.mem_cons_self) 0
    rw [hforeign.process_eq] at hproc
    exact absurd (Prod.mk.inj (Prod.mk.inj (Except.ok.inj hproc)).2).1 (by decide)
  · obtain ⟨d', hd', -, hslave'⟩ := run_rounds hforeign quietWorld hmaster hslave n
    exact ⟨d', hd', hslave'⟩

end Dialogue

end Riser
