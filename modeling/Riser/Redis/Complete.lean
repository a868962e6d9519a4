import Riser.Redis.Parser
import Riser.Repl.GentRepMgr

/-!
# What the commands do

Once a request is parsed, `Complete` of its command acts on it and leaves the answer in `outstr`.  The
arguments are in the handler, where the parser has put them; `recont` are the bytes of a value that
came in later reads.

A `Server` is what the commands share: the database, the master's `GentRepMgr`, and the name under
which this server is a slave.  Everything else that an outcome depends on is in `World`: the clock,
what leveldb reports, `rand()`, and the like.

On a connection to a master (`is_slave`) a write is not answered to a client but acknowledged with a
`rep` message (`slaveReply`).

Answers are built in buffers of fixed size with `snprintf`, and keys are often printed with `%s`: what
does not fit is cut off, and so is what follows a NUL.  A `%u` prints the low 32 bits.
-/

namespace Riser

open Cpp

/-- What `INFO` reports and no other command knows of. -/
structure InfoData where
  pid : ℕ
  port : ℕ
  configfile : Str
  property : ℕ → Str
  total_connect : ℕ
  current_connect : ℕ
  totals : ℕ
  hmen : Str
  slaveof : Bool
  master_info : Str
  slave_info : Str

/-- What a command meets: the clock; what the two leveldbs report for a write; `rand()`; the number of
the next entry it allocates; memory that is not initialised, as in `Creation` and `RepInfo.setName`;
whether a thread can be created, and whether the pipe to the master thread takes a byte. -/
structure World where
  now : ℕ
  okDb : Bool
  okMeta : Str → Bool
  rand : ℕ
  id : ℕ
  uninit : Bool
  junk : Str
  created : Bool
  sent : Bool
  info : InfoData

/-- What the commands share. -/
structure Server where
  db : GentDb
  master : GentRepMgr
  server_id : Str

/-- `%u` of a size. -/
def unsigned (n : ℕ) : Str := decimal (n % 2 ^ 32)

/-- A line with a number, in a buffer of `size` bytes. -/
def numberLine (size : ℕ) (type : String) (n : ℕ) : Str :=
  snprintf size (lit type ++ unsigned n ++ crlf)

/-- `GentRepMgr::SlaveReply`. -/
def slaveReply (server_id : Str) (suc : Bool) : Str :=
  let t := if suc then lit "ok" else lit "error"
  snprintf 300 (lit "*3\r\n$3\r\nrep\r\n$" ++ decimal server_id.length ++ crlf ++ cstr server_id
    ++ lit "\r\n$" ++ decimal t.length ++ crlf ++ t ++ crlf)

namespace Server

/-- The answer to a write. -/
def stored (sv : Server) (is_slave : Bool) : Str :=
  if is_slave then slaveReply sv.server_id true else lit "+OK\r\n"

/-- The answer to a write that failed. -/
def notStored (sv : Server) (is_slave : Bool) : Str :=
  if is_slave then slaveReply sv.server_id false else lit "-ERR NOT_STORED\r\n"

/-- `GentRepMgr::Instance("master")->Push` for some keys. -/
def push (sv : Server) (w : World) (type : OptType) (keys : List Str) : Server :=
  { sv with
    master := keys.zipIdx.foldl (fun m k => (m.push w.now (w.id + k.2) type k.1).1) sv.master }

/-- `GentRepMgr::QueLength`. -/
def queLength (sv : Server) : ℕ :=
  (sv.master.rep_list.toList.map fun it => it.2.rep.main_que_length).sum

end Server

/-- The answer, the handler and the server. -/
abbrev Completed := Except Fault (Str × GentRedis × Server)

/-! ## Reading -/

def GentProcessGet.complete (w : World) (sv : Server) (r : GentRedis) : Completed := do
  match ← sv.db.get w.now r.keystr with
  | none => return (lit "$-1\r\n", r, sv)
  | some nr => return (numberLine 50 "$" nr.length ++ nr ++ crlf, r, sv)

/-- A key that is missing is answered like one with an empty value. -/
def GentProcessMget.complete (w : World) (sv : Server) (r : GentRedis) : Completed := do
  let items ← r.keyvec.mapM fun key => do
    let nr := (← sv.db.get w.now key).getD []
    return numberLine 20 "$" nr.length ++ nr ++ crlf
  return (numberLine 20 "*" items.length ++ items.flatten, r, sv)

def GentProcessTtl.complete (w : World) (sv : Server) (r : GentRedis) : Completed := do
  let (isTtl, expire) ← sv.db.ttl r.keystr
  let outstr :=
    if isTtl ∧ 0 < expire then
      if w.now < expire then snprintf 50 (lit ":" ++ decimal (expire - w.now) ++ crlf)
      else lit ":-2\r\n"
    else if isTtl ∧ expire = 0 then lit ":-1\r\n"
    else lit ":-2\r\n"
  return (outstr, r, sv)

def GentProcessExists.complete (w : World) (sv : Server) (r : GentRedis) : Completed := do
  match ← sv.db.get w.now r.keystr with
  | none => return (lit ":0\r\n", r, sv)
  | some _ => return (lit ":1\r\n", r, sv)

/-- A key in a buffer of its own. -/
def keyItem (key : Str) : Str :=
  snprintf 260 (lit "$" ++ unsigned key.length ++ crlf ++ cstr key ++ crlf)

def GentProcessKeys.complete (sv : Server) (r : GentRedis) : Completed :=
  let outvec := sv.db.keys r.keystr
  .ok (numberLine 20 "*" outvec.length ++ outvec.flatMap keyItem, r, sv)

def GentProcessRandomkey.complete (w : World) (sv : Server) (r : GentRedis) : Completed :=
  .ok (keyItem (sv.db.random w.rand).2, r, sv)

/-! ## Writing -/

/-- What `SET` and `SETEX` have in common.  `Put` is given `rlbytes` bytes from the start of
`content`. -/
def valueComplete (is_slave : Bool) (w : World) (sv : Server) (expire : ℕ) (r : GentRedis)
    (recont : Str) : Completed :=
  let r := { r with content := r.content ++ recont }
  let (db, ok) := sv.db.put w.okDb (w.okMeta r.keystr) w.now r.keystr (r.content.take r.rlbytes)
    expire 1
  let sv := { sv with db }
  if ok then .ok (sv.stored is_slave, r, sv.push w .ADD [r.keystr])
  else .ok (sv.notStored is_slave, r, sv)

def GentProcessSet.complete (is_slave : Bool) (w : World) (sv : Server) (r : GentRedis)
    (recont : Str) : Completed :=
  valueComplete is_slave w sv 0 r recont

def GentProcessSetex.complete (is_slave : Bool) (w : World) (sv : Server) (r : GentRedis)
    (recont : Str) : Completed :=
  valueComplete is_slave w sv r.expire r recont

def GentProcessMset.complete (is_slave : Bool) (w : World) (sv : Server) (r : GentRedis) :
    Completed :=
  let keys_values := r.mdata.keys_values
  let (db, ok) := sv.db.batchPut w.okDb w.okMeta w.now keys_values
  let sv := { sv with db }
  let r := { r with mdata := { r.mdata with keys_values := ∅ } }
  if ok then .ok (sv.stored is_slave, r, sv.push w .ADD keys_values.keys)
  else .ok (sv.notStored is_slave, r, sv)

def GentProcessDel.complete (is_slave : Bool) (w : World) (sv : Server) (r : GentRedis) :
    Completed := do
  let answer := fun (outstr : Str) suc => if is_slave then slaveReply sv.server_id suc else outstr
  match ← sv.db.get w.now r.keystr with
  | none => return (answer (lit ":0\r\n") true, r, sv)
  | some _ =>
      let (db, ok) := sv.db.del w.okDb (w.okMeta r.keystr) r.keystr
      let sv := { sv with db }
      if ok then return (answer (lit ":1\r\n") true, r, sv.push w .DEL [r.keystr])
      return (answer (lit ":0\r\n") false, r, sv)

/-! ## The server itself -/

/-- `GentProcessInfo::TotalTableFiles`: the text. -/
def GentProcessInfo.totalTableFiles (property : ℕ → Str) : Str :=
  (List.range 7).flatMap fun level =>
    lit "   level_" ++ decimal level ++ lit ":" ++ cstr (property level) ++ lit "\n"

/-- The report without an argument, before it is cut to its buffer. -/
def GentProcessInfo.text (i : InfoData) (sv : Server) : Str :=
  lit "# Server\r\nprocess_id: " ++ decimal i.pid
    ++ lit "\r\nport: " ++ decimal i.port
    ++ lit "\r\nconfig_file: " ++ cstr i.configfile
    ++ lit "\r\nfile_num: " ++ GentProcessInfo.totalTableFiles i.property
    ++ lit "\r\n\r\n# Clients\r\ntotal_connect: " ++ unsigned i.total_connect
    ++ lit "\r\ncurrent_connect: " ++ unsigned i.current_connect
    ++ lit "\r\n\r\n# Disk\r\ndisk_use: " ++ decimal i.totals
    ++ lit "\r\ndisk_use_human: " ++ cstr i.hmen
    ++ lit "\r\n\r\n# Keyspace\r\nkey_num: " ++ decimal (sv.db.count []).1
    ++ lit "\r\n\r\n# Replication\r\nrole:"
    ++ (if i.slaveof then lit "master,slave" else lit "master")
    ++ lit "\r\nconnected_slaves:" ++ unsigned sv.master.rep_list.size
    ++ lit "\r\nmaster_repl_length:" ++ decimal sv.queLength ++ lit "\r\n\r\n"

/-- The report is sent as a bulk string that lacks its last two bytes, which are expected to be a line
end. -/
def GentProcessInfo.complete (w : World) (sv : Server) (r : GentRedis) : Completed :=
  let answer := fun (outstr : Str) =>
    snprintf 50 (lit "$" ++ unsigned (outstr.length + 2 ^ 32 - 2) ++ crlf) ++ outstr
  if r.keystr = lit "rep" then
    .ok (answer (lit "# Master\r\n" ++ w.info.master_info ++ lit "# Slave\r\n" ++ w.info.slave_info
      ++ crlf), r, sv)
  else
    .ok (answer (snprintf 500 (GentProcessInfo.text w.info sv)), r,
      { sv with db := (sv.db.count []).2 })

def GentProcessAuth.complete (sv : Server) (r : GentRedis) : Completed :=
  .ok (lit "+OK\r\n", { r with auth := true }, sv)

def GentProcessPing.complete (sv : Server) (r : GentRedis) : Completed :=
  .ok (lit "+PONG\r\n", r, sv)

def GentProcessSlave.complete (w : World) (sv : Server) (r : GentRedis) : Completed :=
  let (ok, master) := sv.master.logout r.keystr w.created
  let outstr :=
    if ok then lit "+OK\r\n" else lit "-ERR " ++ r.keystr ++ lit " is run,failed to stop\r\n"
  .ok (outstr, r, { sv with master })

/-- A slave that is authenticated is registered, and the master thread is told about its message. -/
def GentProcessRep.complete (w : World) (sv : Server) (r : GentRedis) : Completed :=
  if r.master_auth = false then
    if r.repmsg = lit "auth" then .ok (lit "*2\r\n$5\r\nreply\r\n$6\r\nauthok\r\n", r, sv)
    else .ok (lit "*2\r\n$5\r\nreply\r\n$9\r\nautherror\r\n", r, sv)
  else
    match sv.master.get ⟨sv.db, w.now, w.uninit, w.id⟩ w.junk r.keystr r.is_sync_all with
    | (none, master) => .ok (lit "-ERR slave full,manual clear\r\n", r, { sv with master })
    | (some _, master) =>
        .ok (if w.sent then [] else lit "-ERR send master message failed\r\n",
          { r with curstatus := .CONN_WAIT }, { sv with master := master.setConn r.keystr true })

/-- `subc->Complete`.  `quit` and `reply` have nothing to do. -/
def Command.complete (is_slave : Bool) (w : World) (sv : Server) (r : GentRedis) (recont : Str) :
    Command → Completed
  | .get => GentProcessGet.complete w sv r
  | .set => GentProcessSet.complete is_slave w sv r recont
  | .setex => GentProcessSetex.complete is_slave w sv r recont
  | .mset => GentProcessMset.complete is_slave w sv r
  | .auth => GentProcessAuth.complete sv r
  | .ttl => GentProcessTtl.complete w sv r
  | .mget => GentProcessMget.complete w sv r
  | .randomkey => GentProcessRandomkey.complete w sv r
  | .del => GentProcessDel.complete is_slave w sv r
  | .quit => .ok ([], r, sv)
  | .keys => GentProcessKeys.complete sv r
  | .keyExists => GentProcessExists.complete w sv r
  | .ping => GentProcessPing.complete sv r
  | .info => GentProcessInfo.complete w sv r
  | .rep => GentProcessRep.complete w sv r
  | .reply => .ok ([], r, sv)
  | .slave => GentProcessSlave.complete w sv r

/-- `GentRedis::Complete`. -/
def complete (is_slave : Bool) (w : World) (sv : Server) (r : GentRedis) (recont : Str) : Completed :=
  match r.subc with
  | none => .ok (lit "-ERR command\r\n", r, sv)
  | some c => c.complete is_slave w sv r recont

lemma complete_eq {is_slave : Bool} {w : World} {sv : Server} {r : GentRedis} {recont : Str} {c : Command}
    (h : r.subc = some c) : complete is_slave w sv r recont = c.complete is_slave w sv r recont := by
  rw [complete, h]

/-! ## There is an answer -/

lemma snprintf_ne_nil {size : ℕ} (hsize : 1 < size) {text : Str} (h : text ≠ []) :
    snprintf size text ≠ [] := by
  obtain ⟨b, t, rfl⟩ := List.exists_cons_of_ne_nil h
  obtain ⟨n, hn⟩ : ∃ n, size - 1 = n + 1 := ⟨size - 2, by omega⟩
  rw [snprintf, hn, List.take_succ_cons]
  exact List.cons_ne_nil _ _

lemma numberLine_ne_nil {size : ℕ} (hsize : 1 < size) (type : String) (n : ℕ) :
    numberLine size type n ≠ [] :=
  snprintf_ne_nil hsize (List.append_ne_nil_of_right_ne_nil _ (by decide))

lemma keyItem_ne_nil (key : Str) : keyItem key ≠ [] :=
  snprintf_ne_nil (by decide) (List.append_ne_nil_of_right_ne_nil _ (by decide))

/-- **Every command of a client is answered**, but for `quit`. -/
lemma Command.complete_ne_nil {c : Command} (hc : c ≠ .quit ∧ c ≠ .reply ∧ c ≠ .rep) {w : World}
    {sv sv' : Server} {r r' : GentRedis} {recont out : Str}
    (h : c.complete false w sv r recont = .ok (out, r', sv')) : out ≠ [] := by
  have hout : ∀ {out' : Str} {r₁ : GentRedis} {sv₁ : Server}, out' ≠ [] →
      (.ok (out', r₁, sv₁) : Completed) = .ok (out, r', sv') → out ≠ [] := by
    intro out' r₁ sv₁ hne heq
    exact (Prod.mk.inj (Except.ok.inj heq)).1 ▸ hne
  have hvalue : ∀ {expire : ℕ}, valueComplete false w sv expire r recont = .ok (out, r', sv') →
      out ≠ [] := by
    intro expire h
    simp only [valueComplete] at h
    split_ifs at h
    · exact hout (List.cons_ne_nil _ _) h
    · exact hout (List.cons_ne_nil _ _) h
  cases c with
  | get =>
      obtain ⟨found, -, h⟩ := bind_eq_ok.mp h
      cases found with
      | none => exact hout (List.cons_ne_nil _ _) h
      | some nr => exact hout (List.append_ne_nil_of_right_ne_nil _ (by decide)) h
  | set => exact hvalue h
  | setex => exact hvalue h
  | mset =>
      simp only [complete, GentProcessMset.complete] at h
      split_ifs at h
      · exact hout (List.cons_ne_nil _ _) h
      · exact hout (List.cons_ne_nil _ _) h
  | auth => exact hout (List.cons_ne_nil _ _) h
  | ttl =>
      obtain ⟨found, -, h⟩ := bind_eq_ok.mp h
      refine hout ?_ h
      split_ifs
      · exact snprintf_ne_nil (by decide) (List.append_ne_nil_of_right_ne_nil _ (by decide))
      · exact List.cons_ne_nil _ _
      · exact List.cons_ne_nil _ _
      · exact List.cons_ne_nil _ _
  | mget =>
      obtain ⟨items, -, h⟩ := bind_eq_ok.mp h
      exact hout (List.append_ne_nil_of_left_ne_nil (numberLine_ne_nil (by decide) _ _) _) h
  | randomkey => exact hout (keyItem_ne_nil _) h
  | del =>
      obtain ⟨found, -, h⟩ := bind_eq_ok.mp h
      cases found with
      | none => exact hout (List.cons_ne_nil _ _) h
      | some nr =>
          simp only [Bool.false_eq_true, if_false] at h
          split_ifs at h
          · exact hout (List.cons_ne_nil _ _) h
          · exact hout (List.cons_ne_nil _ _) h
  | quit => exact absurd rfl hc.1
  | keys =>
      exact hout (List.append_ne_nil_of_left_ne_nil (numberLine_ne_nil (by decide) _ _) _) h
  | keyExists =>
      obtain ⟨found, -, h⟩ := bind_eq_ok.mp h
      cases found with
      | none => exact hout (List.cons_ne_nil _ _) h
      | some nr => exact hout (List.cons_ne_nil _ _) h
  | ping => exact hout (List.cons_ne_nil _ _) h
  | info =>
      simp only [complete, GentProcessInfo.complete] at h
      have hline : ∀ n : ℕ, snprintf 50 (lit "$" ++ unsigned n ++ crlf) ≠ [] := fun n =>
        numberLine_ne_nil (by decide) "$" n
      split_ifs at h
      · exact hout (List.append_ne_nil_of_left_ne_nil (hline _) _) h
      · exact hout (List.append_ne_nil_of_left_ne_nil (hline _) _) h
  | rep => exact absurd rfl hc.2.2
  | reply => exact absurd rfl hc.2.1
  | slave =>
      simp only [complete, GentProcessSlave.complete] at h
      refine hout ?_ h
      by_cases hok : (sv.master.logout r.keystr w.created).1 = true
      · rw [if_pos hok]
        exact List.cons_ne_nil _ _
      · rw [if_neg hok]
        exact List.append_ne_nil_of_right_ne_nil _ (by decide)

/-- A machine on which everything works. -/
def quietWorld : World where
  now := 1000000000
  okDb := true
  okMeta := fun _ => true
  rand := 0
  id := 0
  uninit := false
  junk := []
  created := true
  sent := true
  info := ⟨1, 6379, [], fun _ => [], 1, 1, 0, [], false, [], []⟩

/-- A server without keys and slaves. -/
def emptyServer : Server := ⟨.empty, .emptyMgr, []⟩

/-- A server with one key. -/
def keyServer (key value : Str) : Server :=
  { emptyServer with db := (GentDb.empty.put true true 1000000000 key value 0 1).1 }

end Riser
