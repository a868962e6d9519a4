import Riser.Redis.Answers
import Riser.Redis.Pieces
import Riser.Repl.Converge

/-!
# What the server is for

The requests that are about the data, and what each of them should do (`DataOp.spec`): a map with expiry
goes in, a RESP value and a map come out.  Nothing of the program is in it.

A request is carried out in two steps, and other clients may come in between.

* `Process` takes the bytes apart and keeps the operation in the handler (`DataOp.process_bytes`).  The
  expiry of a `setex` is computed there.
* `Complete` carries out what the handler holds (`DataOp.complete_spec`): if the store represents a map,
  the answer is the encoding of the value that `spec` has for it, and the store represents the map that
  `spec` leaves.

What the answers of the other commands are is not a matter of the data.  Note that an `mget` has an empty
value for a key that is not there.
-/

namespace Riser

open Cpp

/-! ## Operations -/

/-- A request about the data. -/
inductive DataOp where
  | get (key : Str)
  | ttl (key : Str)
  | del (key : Str)
  | keyExists (key : Str)
  | set (key value : Str)
  | setex (key : Str) (seconds : ℕ) (value : Str)
  | mset (pairs : List (Str × Str))
  | mget (keys : List Str)

/-- The clock when a request is read, and when it is carried out. -/
structure Times where
  read : ℕ
  now : ℕ

namespace DataOp

/-- The request. -/
def request : DataOp → Request
  | get key => .keyed .get key
  | ttl key => .keyed .ttl key
  | del key => .keyed .del key
  | keyExists key => .keyed .keyExists key
  | set key value => .set key value
  | setex key seconds value => .setex key seconds value
  | mset pairs => .mset pairs
  | mget keys => .mget keys

/-- Its bytes, under the given name of its command. -/
def bytes (name : Str) (o : DataOp) : Str := (ClientRequest.of o.request).bytes name

/-- The answer to a write. -/
def okLine : Resp.Scalar := .simple ⟨lit "OK", by decide⟩

/-- A value, or none. -/
def bulkOf : Option Str → Resp.Scalar
  | none => .null
  | some v => .bulk v

/-- The seconds that are left: `-1` without an expiry, `-2` without the key or if its time is up. -/
def secondsLeft (now : ℕ) : Option (Str × ℕ) → ℤ
  | none => -2
  | some (_, 0) => -1
  | some (_, e + 1) => if now < e + 1 then ((e + 1 - now : ℕ) : ℤ) else -2

/-- **What an operation is for.** -/
def spec (a : ExpMap Str Str) (t : Times) : DataOp → Resp.Value × ExpMap Str Str
  | get key => (.scalar (bulkOf (a.visible t.now key)), a)
  | ttl key => (.scalar (.int (secondsLeft t.now (a key))), a)
  | keyExists key => (.scalar (.int (if (a.visible t.now key).isSome then 1 else 0)), a)
  | mget keys => (.array (keys.map fun key => .bulk ((a.visible t.now key).getD [])), a)
  | del key =>
      if (a.visible t.now key).isSome then (.scalar (.int 1), a.unbind key) else (.scalar (.int 0), a)
  | set key value => (.scalar okLine, a.bind key value 0)
  | setex key seconds value => (.scalar okLine, a.bind key value (seconds + t.read))
  | mset pairs => (.scalar okLine, a.bindList pairs)

/-- There is always an answer. -/
lemma encode_ne_nil (v : Resp.Value) : v.encode ≠ [] := by
  cases v with
  | scalar v => cases v <;> exact List.cons_ne_nil _ _
  | array vs => exact List.cons_ne_nil _ _

/-- What a client may send: a request that is understood, and an expiry that has ten digits as long as
the clock does not go past `latest`. -/
def WellFormed (latest : ℕ) (name : Str) (o : DataOp) : Prop :=
  commands name = some o.request.command ∧ (ClientRequest.of o.request).WellFormed name ∧
    match o with
    | setex _ seconds _ => seconds + latest < 10 ^ 10
    | _ => True

end DataOp

/-- A binding that can be printed. -/
def Printable (v : Str) (e : ℕ) : Prop := v.length < 2 ^ 32 ∧ e < 2 ^ 64

/-- The machine stores what it is told to store, and its clock has ten digits and is not past `latest`. -/
structure World.Fair (latest : ℕ) (w : World) : Prop where
  okDb : w.okDb = true
  okMeta : w.okMeta = fun _ => true
  clock : TenDigit w.now
  early : w.now ≤ latest

/-! ## The handler -/

/-- A handler between two requests. -/
structure GentRedis.Rested (cfg : Config) (r : GentRedis) : Prop where
  auth : Authed cfg r
  idle : r.mdata.Idle
  none : r.mdata.keys_values = ∅

namespace DataOp

/-- The fields of the handler that `Complete` looks at. -/
def Fields (read : ℕ) (r : GentRedis) : DataOp → Prop
  | get key | ttl key | del key | keyExists key => r.keystr = key
  | set key value => r.keystr = key ∧ r.content = value ∧ r.rlbytes = value.length
  | setex key seconds value =>
      r.keystr = key ∧ r.content = value ∧ r.rlbytes = value.length ∧ r.expire = seconds + read
  | mset pairs => r.mdata.keys_values = pairs.foldl (fun d kv => d.insert kv.1 kv.2) ∅
  | mget keys => r.keyvec = keys

/-- **The handler holds the operation.** -/
structure Held (cfg : Config) (read : ℕ) (o : DataOp) (r : GentRedis) : Prop where
  auth : Authed cfg r
  idle : r.mdata.Idle
  none : (∀ pairs, o ≠ mset pairs) → r.mdata.keys_values = ∅
  subc : r.subc = some o.request.command
  fields : o.Fields read r

/-- The status is none of these fields. -/
lemma Held.setStatus {cfg : Config} {read : ℕ} {o : DataOp} {r : GentRedis} (h : Held cfg read o r)
    (st : Status) : Held cfg read o { r with curstatus := st } := by
  refine ⟨h.auth, h.idle, h.none, h.subc, ?_⟩
  have hfields := h.fields
  cases o <;> exact hfields

section Process

variable {cfg : Config} {now latest : ℕ} {r r' : GentRedis} {name : Str} {o : DataOp}

lemma bytes_ne_nil (name : Str) (o : DataOp) : o.bytes name ≠ [] := List.cons_ne_nil _ _

/-- A handler that holds an operation other than `mset` has no pairs from it. -/
lemma held_of_process (hr : r.Rested cfg) (hname : commands name = some o.request.command)
    (hmset : o.request.command ≠ .mset) (h : process cfg now r (o.bytes name) = .ok (0, [], r'))
    (hfields : o.Fields now r') : Held cfg now o r' := by
  obtain ⟨r₁, hr₁, rfl⟩ := (process_done_iff (tokens_front hname).2 hname (· = r')).mp ⟨r', h, rfl⟩
  have hkeep := Command.parser_keeps hr₁
  have hmdata : r₁.mdata = r.mdata := hkeep.mdata hmset
  exact ⟨hr.auth.imp_left hkeep.auth, hmdata ▸ hr.idle, fun _ => hmdata ▸ hr.none, hkeep.subc, hfields⟩

/-- **The bytes of the request are understood**: the handler holds the operation, and goes on to act. -/
def Understood (cfg : Config) (now : ℕ) (r : GentRedis) (name : Str) (o : DataOp) : Prop :=
  ∃ r', process cfg now r (o.bytes name) = .ok (0, [], r') ∧ Held cfg now o r' ∧
    (r'.curstatus = .CONN_DATA ∨ r'.curstatus = .CONN_NREAD)

lemma understood_keyed (hr : r.Rested cfg) {c : KeyCommand} {key : Str} (hreq : o.request = .keyed c key)
    (hfields : ∀ r' : GentRedis, r'.keystr = key → o.Fields now r')
    (hname : commands name = some o.request.command)
    (hwf : (ClientRequest.of o.request).WellFormed name) : o.Understood cfg now r name := by
  have hbytes : o.bytes name = (Request.keyed c key).bytes name := by
    rw [← hreq]
    rfl
  have hmset : o.request.command ≠ .mset := by
    rw [hreq]
    cases c <;> simp [Request.command]
  rw [hreq] at hwf
  obtain ⟨r', hproc, -, hkey, hst⟩ : (Request.keyed c key).Acts cfg now r name :=
    (Request.keyed_acts_iff hr.auth (hreq ▸ hname) hwf.1).mpr hwf.2
  rw [← hbytes] at hproc
  exact ⟨r', hproc, held_of_process hr hname hmset hproc (hfields r' hkey), Or.inl hst⟩

lemma understood_mset (hr : r.Rested cfg) {pairs : List (Str × Str)}
    (hname : commands name = some .mset) (hwf : (ClientRequest.of (.mset pairs)).WellFormed name) :
    (mset pairs).Understood cfg now r name := by
  have hlen : ((Request.mset pairs).bytes name).length < 2 ^ 31 := hwf.1
  have hargs : (Request.mset pairs).args.length = 2 * pairs.length :=
    ClientRequest.length_mset_args pairs
  have hnum : 2 * pairs.length + 1 < 2 ^ 31 := by
    have := length_of_encode hlen
    rw [List.length_cons, hargs] at this
    omega
  have hpairs : (pairs.flatMap pairBytes).length < 2 ^ 31 := by
    rw [Request.bytes_mset, Request.msetBytes, List.length_append] at hlen
    omega
  obtain ⟨m', hloop, hidle, hvalues⟩ := itemLoop_pairs pairs
    (m := { r.mdata with totalSetNum := pairs.length, setNum := pairs.length }) hr.idle rfl hpairs
  obtain ⟨r', hproc, hsub, hidle', hvalues'⟩ : ∃ r',
      process cfg now r ((mset pairs).bytes name) = .ok (0, [], r') ∧ _ := by
    rw [show (mset pairs).bytes name = _ from Request.bytes_mset pairs]
    exact (Request.process_mset_iff hr.auth hname hnum (pairs.flatMap pairBytes)
      fun m => m.Idle ∧ m.keys_values = pairs.foldl (fun d kv => d.insert kv.1 kv.2) ∅).mpr
      ⟨m', hloop, hidle, hvalues.trans (by rw [hr.none])⟩
  obtain ⟨r₁, hr₁, rfl⟩ := (process_done_iff (tokens_front hname).2 hname (· = r')).mp ⟨r', hproc, rfl⟩
  have hkeep := Command.parser_keeps hr₁
  exact ⟨r₁, hproc, ⟨hr.auth.imp_left hkeep.auth, hidle', fun h => absurd rfl (h pairs), hsub, hvalues'⟩,
    Or.inr (Request.mset_parser_status hr₁)⟩

lemma process_bytes (hr : r.Rested cfg) (ho : o.WellFormed latest name) (hnow : now ≤ latest) :
    o.Understood cfg now r name := by
  obtain ⟨hname, hwf, hlate⟩ := ho
  cases o with
  | get key => exact understood_keyed hr rfl (fun _ h => h) hname hwf
  | ttl key => exact understood_keyed hr rfl (fun _ h => h) hname hwf
  | del key => exact understood_keyed hr rfl (fun _ h => h) hname hwf
  | keyExists key => exact understood_keyed hr rfl (fun _ h => h) hname hwf
  | set key value =>
      have hbytes : (set key value).bytes name = _ := ClientRequest.bytes_eq name _
      have hfirst := ClientRequest.clean_first name (.of (.set key value))
      exact ⟨_, (congrArg (process cfg now r) hbytes).trans
        (ClientRequest.process_set hr.auth hname hwf hfirst ⟨42, _, rfl, by decide⟩),
        ⟨Or.inl rfl, hr.idle, fun _ => hr.none, rfl, rfl, rfl, rfl⟩, Or.inr rfl⟩
  | setex key seconds value =>
      have hbytes : (setex key seconds value).bytes name = _ := ClientRequest.bytes_eq name _
      have hfirst := ClientRequest.clean_first name (.of (.setex key seconds value))
      have hsum : seconds + latest < 10 ^ 10 := hlate
      have hexp : (toUInt64 (seconds : ℤ) + now) % 2 ^ 64 = seconds + now := by
        rw [toUInt64_natCast (by omega)]
        omega
      exact ⟨_, (congrArg (process cfg now r) hbytes).trans
        (ClientRequest.process_setex hr.auth hname hwf hfirst ⟨42, _, rfl, by decide⟩),
        ⟨Or.inl rfl, hr.idle, fun _ => hr.none, rfl, rfl, rfl, rfl, hexp⟩, Or.inr rfl⟩
  | mset pairs => exact understood_mset hr hname hwf
  | mget keys =>
      obtain ⟨r', hproc, -, hkeys, hst⟩ : (Request.mget keys).Acts cfg now r name :=
        (Request.mget_acts_iff hr.auth hname ⟨hwf.1, hwf.2.1⟩).mpr hwf.2.2
      exact ⟨r', hproc, held_of_process hr hname (by simp [request, Request.command]) hproc hkeys,
        Or.inl hst⟩

end Process

section Complete

variable {cfg : Config} {w : World} {sv : Server} {a : ExpMap Str Str} {r : GentRedis} {o : DataOp}
  {read latest : ℕ} {name : Str}

/-- **The operation is carried out as it should be**: the answer is the value of `spec`, the store
represents the map of `spec`, and the handler rests. -/
def Done (cfg : Config) (w : World) (sv : Server) (a : ExpMap Str Str) (read : ℕ) (r : GentRedis)
    (o : DataOp) : Prop :=
  ∃ r' sv', complete false w sv r [] = .ok ((o.spec a ⟨read, w.now⟩).1.encode, r', sv') ∧
    Refines sv'.db (o.spec a ⟨read, w.now⟩).2 ∧ (o.spec a ⟨read, w.now⟩).2.All Printable ∧
    r'.Rested cfg

lemma printable_visible (h : a.All Printable) {now : ℕ} {key v : Str} (hv : a.visible now key = some v) :
    v.length < 2 ^ 32 := by
  obtain ⟨⟨v', e⟩, hfilter, rfl⟩ := Option.map_eq_some_iff.mp hv
  exact (h key v' e (Option.filter_eq_some_iff.mp hfilter).1).1

/-- A handler that does not hold an `mset` rests once the operation has been carried out. -/
lemma Held.rested (h : Held cfg read o r) (hne : ∀ pairs, o ≠ mset pairs) : r.Rested cfg :=
  ⟨h.auth, h.idle, h.none hne⟩

/-- What only looks leaves the store as it is. -/
lemma done_of_query (hs : Refines sv.db a) (hall : a.All Printable) (hheld : Held cfg read o r)
    (hne : ∀ pairs, o ≠ mset pairs) {c : Command} (hc : o.request.command = c)
    (hsame : (o.spec a ⟨read, w.now⟩).2 = a)
    (h : c.complete false w sv r [] = .ok ((o.spec a ⟨read, w.now⟩).1.encode, r, sv)) :
    o.Done cfg w sv a read r := by
  refine ⟨r, sv, ?_, by rwa [hsame], by rwa [hsame], hheld.rested hne⟩
  rw [complete_eq hheld.subc, hc]
  exact h

/-- The numbers that are written out in the program. -/
lemma int_texts : lit ":0\r\n" = (Resp.Scalar.int 0).encode ∧ lit ":1\r\n" = (Resp.Scalar.int 1).encode ∧
    lit ":-1\r\n" = (Resp.Scalar.int (-1)).encode ∧ lit ":-2\r\n" = (Resp.Scalar.int (-2)).encode := by
  decide

lemma done_get {key : Str} (hs : Refines sv.db a) (hall : a.All Printable)
    (hheld : Held cfg read (get key) r) : (get key).Done cfg w sv a read r := by
  have hkey : r.keystr = key := hheld.fields
  refine done_of_query hs hall hheld (by simp) rfl rfl ?_
  show GentProcessGet.complete w sv r = .ok ((bulkOf (a.visible w.now key)).encode, r, sv)
  rw [GentProcessGet.complete, hkey, hs.get, ok_bind]
  cases hv : a.visible w.now key with
  | none => rfl
  | some v =>
      show Except.ok _ = Except.ok ((Resp.Scalar.bulk v).encode, r, sv)
      rw [bulk_eq (by decide) (printable_visible hall hv)]

lemma done_ttl {key : Str} (hs : Refines sv.db a) (hall : a.All Printable)
    (hheld : Held cfg read (ttl key) r) : (ttl key).Done cfg w sv a read r := by
  have hkey : r.keystr = key := hheld.fields
  refine done_of_query hs hall hheld (by simp) rfl rfl ?_
  show GentProcessTtl.complete w sv r
    = .ok ((Resp.Scalar.int (secondsLeft w.now (a key))).encode, r, sv)
  obtain ⟨-, -, hnever, hgone⟩ := int_texts
  have httl := hs.ttl key
  rw [ExpMap.expiry] at httl
  cases hk : a key with
  | none =>
      rw [hk] at httl
      rw [GentProcessTtl.complete, hkey, httl, ok_bind, secondsLeft, ← hgone]
      rfl
  | some p =>
      obtain ⟨v, e⟩ := p
      have he : e < 2 ^ 64 := (hall key v e hk).2
      replace httl : sv.db.ttl key = .ok (true, e) := by rw [httl, hk]; rfl
      rw [GentProcessTtl.complete, hkey, httl, ok_bind]
      cases e with
      | zero =>
          rw [secondsLeft, ← hnever]
          rfl
      | succ e =>
          simp only [true_and, Nat.zero_lt_succ, if_true, secondsLeft]
          split_ifs
          · rw [int_eq (by omega)]
            rfl
          · rw [← hgone]
            rfl

lemma done_keyExists {key : Str} (hs : Refines sv.db a) (hall : a.All Printable)
    (hheld : Held cfg read (keyExists key) r) : (keyExists key).Done cfg w sv a read r := by
  have hkey : r.keystr = key := hheld.fields
  refine done_of_query hs hall hheld (by simp) rfl rfl ?_
  show GentProcessExists.complete w sv r = .ok
    ((Resp.Scalar.int (if (a.visible w.now key).isSome then 1 else 0)).encode, r, sv)
  obtain ⟨hzero, hone, -, -⟩ := int_texts
  rw [GentProcessExists.complete, hkey, hs.get, ok_bind]
  cases a.visible w.now key with
  | none =>
      simp only [hzero]
      rfl
  | some v =>
      simp only [hone]
      rfl

lemma done_mget {keys : List Str} (hs : Refines sv.db a) (hall : a.All Printable)
    (hlen : keys.length < 2 ^ 32) (hheld : Held cfg read (mget keys) r) :
    (mget keys).Done cfg w sv a read r := by
  have hkeys : r.keyvec = keys := hheld.fields
  refine done_of_query hs hall hheld (by simp) rfl rfl ?_
  have hitems : keys.mapM (fun key => do
      let nr := (← sv.db.get w.now key).getD []
      return numberLine 20 "$" nr.length ++ nr ++ crlf)
      = .ok (keys.map fun key => (Resp.Scalar.bulk ((a.visible w.now key).getD [])).encode) := by
    refine mapM_eq fun key _ => ?_
    have hvalue : ((a.visible w.now key).getD []).length < 2 ^ 32 := by
      cases hv : a.visible w.now key with
      | none => simp
      | some v => exact printable_visible hall hv
    rw [hs.get, ← bulk_eq (show 20 ≤ 20 by decide) hvalue]
    rfl
  show GentProcessMget.complete w sv r = _
  rw [GentProcessMget.complete, hkeys, hitems, ok_bind]
  simp only [spec, Resp.Value.encode, List.length_map, array_eq hlen, List.flatMap_def, List.map_map]
  rfl

lemma done_del {key : Str} (hs : Refines sv.db a) (hall : a.All Printable) (hw : w.Fair latest)
    (hheld : Held cfg read (del key) r) : (del key).Done cfg w sv a read r := by
  have hkey : r.keystr = key := hheld.fields
  have hcomplete : complete false w sv r [] = GentProcessDel.complete false w sv r := complete_eq hheld.subc
  have hrest := hheld.rested (by simp)
  obtain ⟨hzero, hone, -, -⟩ := int_texts
  rw [Done, hcomplete, GentProcessDel.complete, hkey, hs.get, ok_bind, hw.okDb, hw.okMeta]
  cases hv : a.visible w.now key with
  | none =>
      simp only [spec, hv, Option.isSome_none, Bool.false_eq_true, if_false, hzero]
      exact ⟨r, sv, rfl, hs, hall, hrest⟩
  | some v =>
      simp only [spec, hv, Option.isSome_some, if_true, hone, hzero]
      exact ⟨r, _, rfl, hs.del key, hall.unbind key, hrest⟩

/-- A value is stored, with or without an expiry. -/
lemma done_value {c : Command} {key value : Str} {expire : ℕ} (hs : Refines sv.db a)
    (hall : a.All Printable) (hw : w.Fair latest) (hrest : r.Rested cfg) (hsub : r.subc = some c)
    (hc : c.complete false w sv r [] = valueComplete false w sv expire r [])
    (hspec : o.spec a ⟨read, w.now⟩ = (.scalar okLine, a.bind key value expire)) (hkey : r.keystr = key)
    (hcontent : r.content = value) (hbytes : r.rlbytes = value.length) (hlen : value.length < 2 ^ 32)
    (hexp : expire = 0 ∨ TenDigit expire) : o.Done cfg w sv a read r := by
  have htake : (r.content ++ []).take r.rlbytes = value := by
    rw [List.append_nil, hcontent, hbytes, List.take_length]
  have hput : Refines (sv.db.put true true w.now key value expire 1).1 (a.bind key value expire) :=
    hs.put (d := 1) (by decide) hexp w.now key value
  have hlt : expire < 2 ^ 64 := by
    rcases hexp with rfl | hten
    · decide
    · have := hten.2
      omega
  rw [Done, complete_eq hsub, hc, valueComplete, hspec, htake, hkey, hw.okDb, hw.okMeta]
  exact ⟨_, _, rfl, hput, hall.bind key ⟨hlen, hlt⟩, hrest.auth, hrest.idle, hrest.none⟩

lemma done_mset {pairs : List (Str × Str)} (hs : Refines sv.db a) (hall : a.All Printable)
    (hw : w.Fair latest) (hlen : ∀ kv ∈ pairs, kv.2.length < 2 ^ 32)
    (hheld : Held cfg read (mset pairs) r) : (mset pairs).Done cfg w sv a read r := by
  have hvalues : r.mdata.keys_values = pairs.foldl (fun d kv => d.insert kv.1 kv.2) ∅ := hheld.fields
  have hcomplete : complete false w sv r [] = GentProcessMset.complete false w sv r :=
    complete_eq hheld.subc
  -- the same pairs, as the slave has them
  have hitems := bindList_keysValues a (pairs.map fun kv => (⟨0, kv.1, .ADD, false⟩, kv.2))
  have hbind : a.bindAll (fun k => r.mdata.keys_values[k]?) = a.bindList pairs := by
    simpa only [keysValues, List.foldl_map, List.map_map, Function.comp_def, List.map_id', ← hvalues]
      using hitems
  have hbatch := hs.batchPut w.now r.mdata.keys_values
  rw [hbind] at hbatch
  rw [Done, hcomplete, GentProcessMset.complete, hw.okDb, hw.okMeta]
  exact ⟨_, _, rfl, hbatch, hall.bindList fun kv hkv => ⟨hlen kv hkv, by decide⟩, hheld.auth, hheld.idle,
    rfl⟩

/-- **Every operation is carried out as it should be.** -/
theorem complete_spec (hs : Refines sv.db a) (hall : a.All Printable) (hw : w.Fair latest)
    (ho : o.WellFormed latest name) (hread : TenDigit read ∧ read ≤ latest)
    (hheld : Held cfg read o r) : o.Done cfg w sv a read r := by
  obtain ⟨-, hwf, hlate⟩ := ho
  have harg : ∀ arg ∈ name :: o.request.args, arg.length < 2 ^ 32 := fun arg h =>
    (length_of_mem_encode h hwf.1).trans (by decide)
  cases o with
  | get key => exact done_get hs hall hheld
  | ttl key => exact done_ttl hs hall hheld
  | del key => exact done_del hs hall hw hheld
  | keyExists key => exact done_keyExists hs hall hheld
  | set key value =>
      obtain ⟨hkey, hcontent, hbytes⟩ := hheld.fields
      exact done_value hs hall hw (hheld.rested (by simp)) hheld.subc rfl rfl hkey hcontent hbytes
        (harg value (by simp [request, Request.args])) (Or.inl rfl)
  | setex key seconds value =>
      obtain ⟨hkey, hcontent, hbytes, hexpire⟩ := hheld.fields
      have hten : TenDigit (seconds + read) := by
        have hsum : seconds + latest < 10 ^ 10 := hlate
        exact ⟨hread.1.1.trans (Nat.le_add_left _ _), by have := hread.2; omega⟩
      refine done_value hs hall hw (hheld.rested (by simp)) hheld.subc ?_ rfl hkey hcontent hbytes
        (harg value (by simp [request, Request.args])) (Or.inr hten)
      rw [← hexpire]
      rfl
  | mset pairs =>
      refine done_mset hs hall hw (fun kv hkv => harg kv.2 ?_) hheld
      simp only [request, Request.args, List.mem_cons, List.mem_flatMap]
      exact Or.inr ⟨kv, hkv, by simp⟩
  | mget keys =>
      have hnum : keys.length < 2 ^ 32 := by
        have := length_of_encode hwf.1
        simp only [ClientRequest.args, request, Request.args, List.length_cons] at this
        omega
      exact done_mget hs hall hnum hheld

end Complete

end DataOp

end Riser
