import Riser.Connect.Session

/-!
# A connection without a password

A server with a password should tell a connection nothing, and do nothing for it, until the password
has come.  Every parser asks for it by itself (`IsAuth`), except those of `auth`, `quit` and `rep`.  The
last has a password of its own: `master_auth`.

"Nothing" is about two servers: whatever the connection sends, it is answered the same by both, and
neither changes.  So nothing of a server shows in the answers.  The answers include what the master
thread sends, since the state of the connection does.

It is the case exactly when `master_auth` is set in the configuration, and the handler of the
connection starts without it (`unauthenticated_iff`).  An empty `master_auth` means that a slave needs no
password, also on a server with a password: anyone may register as a slave and is sent all keys and
values (`store_leaked`).  And the constructor of the handler does not initialise its `master_auth`.
-/

namespace Riser

open Cpp

/-! ## Passwords in requests -/

/-- The request is `auth` with the password. -/
def CarriesAuth (cfg : Config) (data : Str) : Prop :=
  (tokens data)[2]?.bind commands = some .auth ∧ (tokens data).length = 5 ∧
    argOf (tokens data) 3 = cfg.auth

/-- The request is `rep` with the password for slaves, which is not empty. -/
def CarriesMasterAuth (cfg : Config) (data : Str) : Prop :=
  cfg.master_auth ≠ [] ∧ (tokens data)[2]?.bind commands = some .rep ∧ (tokens data).length = 11 ∧
    (tokens data)[8]? = some cfg.master_auth

instance (cfg : Config) (data : Str) : Decidable (CarriesAuth cfg data) :=
  inferInstanceAs (Decidable (_ ∧ _))

instance (cfg : Config) (data : Str) : Decidable (CarriesMasterAuth cfg data) :=
  inferInstanceAs (Decidable (_ ∧ _))

/-- What is handed to `Process` has no password in it. -/
def Session.Withholds (cfg : Config) (x : Session) : SessionEvent → Prop
  | .turn _ _ => ∀ data ∈ x.running.given, ¬ CarriesAuth cfg data ∧ ¬ CarriesMasterAuth cfg data
  | .masterHandle _ _ => True

/-! ## The handler stays unauthenticated -/

/-- No password has come, and the only command that may act is `rep`. -/
structure GentRedis.Unauthenticated (r : GentRedis) : Prop where
  auth : r.auth = false
  master_auth : r.master_auth = false
  data : r.curstatus = .CONN_DATA → r.subc = some .rep
  status : r.curstatus ≠ .CONN_NREAD ∧ r.curstatus ≠ .CONN_CONREAD

section Process

variable {cfg : Config} {now : ℕ} {r r' : GentRedis} {data outstr : Str} {status : ℤ}

lemma withAuth_refuses (hcfg : cfg.auth ≠ []) (hr : r.auth = false) (body : GentRedis → Parsed) :
    withAuth cfg r body = .ok (authReqFail, r) := by
  rw [withAuth, if_neg (by simp [hr]), if_neg hcfg]

/-- **Who asks for the password**: every parser but three, before anything else. -/
lemma parser_refuses {c : Command} (hc : c ≠ .auth ∧ c ≠ .quit ∧ c ≠ .rep) (hcfg : cfg.auth ≠ [])
    (hr : r.auth = false) (v : List Str) : c.parser cfg now v data r = .ok (authReqFail, r) := by
  obtain ⟨hauth, hquit, hrep⟩ := hc
  cases c with
  | auth => exact absurd rfl hauth
  | quit => exact absurd rfl hquit
  | rep => exact absurd rfl hrep
  | _ =>
      simp only [Command.parser, GentProcessGet.parser, GentProcessTtl.parser, GentProcessDel.parser,
        GentProcessExists.parser, GentProcessKeys.parser, keyParser, GentProcessSet.parser,
        GentProcessSetex.parser, valueParser, GentProcessMset.parser, GentProcessMget.parser,
        GentProcessSlave.parser, GentProcessInfo.parser, GentProcessPing.parser,
        GentProcessRandomkey.parser, plainParser, GentProcessReply.parser]
      exact withAuth_refuses hcfg hr _

/-- A wrong password leaves the handler as it is. -/
lemma auth_unauthenticated (hcfg : cfg.auth ≠ [])
    (hno : ¬ ((tokens data).length = 5 ∧ argOf (tokens data) 3 = cfg.auth))
    (h : GentProcessAuth.parser cfg (tokens data) r = .ok (status, r')) : r' = r := by
  unfold GentProcessAuth.parser at h
  split_ifs at h with hnum
  · exact (Prod.mk.inj (Except.ok.inj h)).2.symm
  · have hwrong : argOf (tokens data) 3 ≠ cfg.auth := fun harg => hno ⟨not_not.mp hnum, harg⟩
    rw [tokenArg_eq (fun t ht => clean_of_mem_tokens ht) (by omega), ok_bind, if_pos hwrong] at h
    exact (Prod.mk.inj (Except.ok.inj h)).2.symm

/-- So does a slave's message, as far as authentication goes. -/
lemma repAuth_unauthenticated (hmaster : cfg.master_auth ≠ []) (hr : r.master_auth = false)
    {v : List Str} {msg : Str} (hno : ¬ (v.length = 11 ∧ v[8]? = some cfg.master_auth))
    (h : repAuth cfg v msg r = .ok r') : r' = { r with repmsg := lit "autherror" } := by
  unfold repAuth at h
  rw [if_neg (by simp [hr]), if_neg hmaster] at h
  split_ifs at h with hform
  · exact (Except.ok.inj h).symm
  · obtain ⟨password, hpassword, h⟩ := bind_eq_ok.mp h
    have hwrong : password ≠ cfg.master_auth := by
      rintro rfl
      refine hno ⟨?_, ?_⟩
      · by_contra hlen
        exact hform (Or.inl hlen)
      · unfold elemAt at hpassword
        split at hpassword
        · rename_i heq
          rw [heq, Except.ok.inj hpassword]
        · cases hpassword
    rw [if_pos hwrong] at h
    exact (Except.ok.inj h).symm

/-- **What a parser can do without a password**: leave the handler in its status, or close the
connection, or hand a slave's message on. -/
lemma parser_unauthenticated (hcfg : cfg.auth ≠ []) (hmaster : cfg.master_auth ≠ []) {c : Command}
    (hr : r.Unauthenticated) (hsubc : r.subc = some c)
    (hname : (tokens data)[2]?.bind commands = some c) (hno : ¬ CarriesAuth cfg data)
    (hnom : ¬ CarriesMasterAuth cfg data)
    (h : c.parser cfg now (tokens data) data r = .ok (status, r')) : r'.Unauthenticated := by
  by_cases hc : c ≠ .auth ∧ c ≠ .quit ∧ c ≠ .rep
  · rw [parser_refuses hc hcfg hr.auth] at h
    obtain ⟨-, rfl⟩ := Prod.mk.inj (Except.ok.inj h)
    exact hr
  · have hcases : c = .auth ∨ c = .quit ∨ c = .rep := by tauto
    rcases hcases with rfl | rfl | rfl
    · rw [auth_unauthenticated hcfg (fun hcar => hno ⟨hname, hcar⟩) h]
      exact hr
    · obtain ⟨-, rfl⟩ := Prod.mk.inj (Except.ok.inj h)
      exact ⟨hr.auth, hr.master_auth, (by simp), (by simp), (by simp)⟩
    · simp only [Command.parser, GentProcessRep.parser] at h
      split_ifs at h with hnum
      · obtain ⟨-, rfl⟩ := Prod.mk.inj (Except.ok.inj h)
        exact hr
      · obtain ⟨msg, -, h⟩ := bind_eq_ok.mp h
        obtain ⟨r₁, hr₁, h⟩ := bind_eq_ok.mp h
        obtain ⟨keystr, -, h⟩ := bind_eq_ok.mp h
        obtain ⟨-, rfl⟩ := Prod.mk.inj (Except.ok.inj h)
        rw [repAuth_unauthenticated hmaster (by exact hr.master_auth)
          (fun hcar => hnom ⟨hmaster, hname, hcar⟩) hr₁]
        exact ⟨hr.auth, hr.master_auth, fun _ => hsubc, (by simp), (by simp)⟩

/-- **A request without a password** leaves the handler without one. -/
lemma process_unauthenticated (hcfg : cfg.auth ≠ []) (hmaster : cfg.master_auth ≠ [])
    (hr : r.Unauthenticated) (hread : r.curstatus = .CONN_READ) (hno : ¬ CarriesAuth cfg data)
    (hnom : ¬ CarriesMasterAuth cfg data) (h : process cfg now r data = .ok (status, outstr, r')) :
    r'.Unauthenticated := by
  rcases process_cases h with ⟨rfl, -⟩ | ⟨c, st, hname, hparse, -⟩
  · exact hr
  · have hsubc : ({ r with subc := some c } : GentRedis).Unauthenticated :=
      ⟨hr.auth, hr.master_auth, fun hdata => absurd (hread.symm.trans hdata) nofun, hr.status⟩
    exact parser_unauthenticated hcfg hmaster hsubc rfl hname hno hnom hparse

end Process

/-! ## The loop -/

section Step

variable {cfg : Config} {x y : Session} {e : SessionEvent}

lemma GentRedis.Unauthenticated.goto {r : GentRedis} (h : r.Unauthenticated) {st : Status}
    (hst : st.Idle) : ({ r with curstatus := st } : GentRedis).Unauthenticated := by
  refine ⟨h.auth, h.master_auth, ?_, ?_⟩
  · rcases hst with rfl | rfl | rfl <;> exact nofun
  · rcases hst with rfl | rfl | rfl <;> exact ⟨nofun, nofun⟩

/-- What the turn of an unauthenticated connection does, whatever its server is. -/
lemma act_unauthenticated (hr : x.running.conn.comm.Unauthenticated) (w : World) :
    ∃ outstr, ∀ sv attached, Session.act false w ⟨sv, x.running, attached⟩
      = .ok (outstr, x.running.conn.comm, sv, attached) := by
  by_cases hdata : x.running.conn.comm.curstatus = .CONN_DATA
  · have hsubc := hr.data hdata
    refine ⟨if x.running.conn.comm.repmsg = lit "auth" then
      lit "*2\r\n$5\r\nreply\r\n$6\r\nauthok\r\n"
      else lit "*2\r\n$5\r\nreply\r\n$9\r\nautherror\r\n", fun sv attached => ?_⟩
    have hnone : GentProcessRep.attaches w sv x.running.conn.comm = none := by
      rw [GentProcessRep.attaches, if_neg (by simp [hr.master_auth])]
    simp only [Session.act, hdata, if_true, complete, hsubc, Command.complete, GentProcessRep.complete,
      hr.master_auth, hnone]
    split_ifs
    · rfl
    · rfl
  · refine ⟨[], fun sv attached => ?_⟩
    simp only [Session.act, hdata, if_false]
    rfl

/-- **A turn keeps the handler unauthenticated.** -/
lemma take_unauthenticated (hcfg : cfg.auth ≠ []) (hmaster : cfg.master_auth ≠ []) {x y : Running}
    (hr : x.conn.comm.Unauthenticated)
    (hno : ∀ data ∈ x.given, ¬ CarriesAuth cfg data ∧ ¬ CarriesMasterAuth cfg data) {now : ℕ}
    {outstr : Str} {updateEvent : Bool}
    (h : (StreamEvent.turn ⟨cfg, now, fun _ _ => (outstr, x.conn.comm), updateEvent⟩).take x = some y) :
    y.conn.comm.Unauthenticated := by
  by_cases hidle : x.status.Idle
  · rcases take_idle hidle h with ⟨-, st, hst, hcomm⟩ | ⟨data, status, out, r, hdata, hproc, hcases⟩
    · exact hcomm ▸ hr.goto hst
    · have hr' := process_unauthenticated hcfg hmaster hr (Running.status_of_given hdata)
        (hno _ hdata).1 (hno _ hdata).2 hproc
      rcases hcases with ⟨-, hcomm⟩ | ⟨-, hcomm⟩
      · exact hcomm ▸ hr'.goto (by decide)
      · exact hcomm ▸ hr'
  · simp only [StreamEvent.take, Running.turn] at h
    cases hst : x.status with
    | CONN_READ => exact absurd (Or.inl hst) hidle
    | CONN_WRITE => exact absurd (Or.inr (Or.inl hst)) hidle
    | CONN_WAIT => exact absurd (Or.inr (Or.inr hst)) hidle
    | CONN_NREAD => exact absurd hst hr.status.1
    | CONN_CONREAD => exact absurd hst hr.status.2
    | CONN_CLOSE =>
        simp only [hst] at h
        obtain rfl := Option.some.inj h
        exact hr
    | CONN_DATA =>
        simp only [hst, Running.data] at h
        split_ifs at h
        · obtain rfl := Option.some.inj h
          exact hr.goto (by decide)
        · obtain rfl := Option.some.inj h
          exact hr

/-- **One step**: the server is as it was, the connection is not attached, and with another server it
would be in the same state. -/
lemma step_unauthenticated (hcfg : cfg.auth ≠ []) (hmaster : cfg.master_auth ≠ [])
    (hr : x.running.conn.comm.Unauthenticated) (hnone : x.attached = []) (hno : x.Withholds cfg e)
    (h : x.step cfg false e = some y) :
    y.running.conn.comm.Unauthenticated ∧ y.attached = [] ∧ y.server = x.server ∧
      ∀ sv, Session.step cfg false { x with server := sv } e = some { y with server := sv } := by
  cases e with
  | masterHandle w name =>
      rw [Session.step, hnone, if_neg List.not_mem_nil] at h
      cases h
  | turn w updateEvent =>
      obtain ⟨outstr, hact⟩ := act_unauthenticated hr w
      rw [Session.step, show x.act false w = _ from hact x.server x.attached] at h
      obtain ⟨z, hz, rfl⟩ := Option.map_eq_some_iff.mp h
      refine ⟨take_unauthenticated hcfg hmaster hr hno hz, hnone, rfl, fun sv => ?_⟩
      rw [Session.step, hact sv x.attached]
      show Option.map _ _ = _
      rw [hz]
      rfl

end Step

/-- **A run.** -/
lemma run_unauthenticated {cfg : Config} (hcfg : cfg.auth ≠ []) (hmaster : cfg.master_auth ≠ []) :
    ∀ (es : List SessionEvent) {x y : Session}, x.running.conn.comm.Unauthenticated → x.attached = [] →
      Transition.Along (Session.step cfg false) (Session.Withholds cfg) x es →
      Transition.run (Session.step cfg false) x es = some y →
      y.server = x.server ∧ ∀ sv, Transition.run (Session.step cfg false) { x with server := sv } es
        = some { y with server := sv }
  | [], x, y, _, _, _, hrun => by
      obtain rfl : x = y := Option.some.inj hrun
      exact ⟨rfl, fun _ => rfl⟩
  | e :: es, x, y, hr, hnone, ⟨hno, hrest⟩, hrun => by
      obtain ⟨x₁, h₁, hrun⟩ := Transition.run_cons hrun
      obtain ⟨hr₁, hnone₁, hsv₁, hsame⟩ := step_unauthenticated hcfg hmaster hr hnone hno h₁
      obtain ⟨hsv, hall⟩ := run_unauthenticated hcfg hmaster es hr₁ hnone₁ (hrest x₁ h₁) hrun
      refine ⟨hsv.trans hsv₁, fun sv => ?_⟩
      rw [Transition.run, hsame sv, Option.bind_some]
      exact hall sv

/-! ## An empty `master_auth` -/

/-- A slave's request for data, without any password. -/
def repRequest : Str := lit "*3\r\n$3\r\nrep\r\n$1\r\ns\r\n$4\r\ndata\r\n"

/-- Two turns of the loop: the request is read and acted on. -/
def twoTurns : List SessionEvent := [.turn quietWorld true, .turn quietWorld true]

lemma withholds_repRequest (cfg : Config) :
    ¬ CarriesAuth cfg repRequest ∧ ¬ CarriesMasterAuth cfg repRequest := by
  have hname : (tokens repRequest)[2]?.bind commands = some .rep := by decide
  have hlen : (tokens repRequest).length = 7 := by decide
  refine ⟨?_, ?_⟩
  · rintro ⟨hauth, -⟩
    rw [hname] at hauth
    cases hauth
  · rintro ⟨-, -, heleven, -⟩
    rw [hlen] at heleven
    cases heleven

lemma withholds_given {cfg : Config} {x : Session} {w : World} {updateEvent : Bool}
    (h : x.running.given = none ∨ x.running.given = some repRequest) :
    x.Withholds cfg (.turn w updateEvent) := by
  intro data hdata
  rw [Option.mem_def] at hdata
  rcases h with h | h
  · rw [h] at hdata
    cases hdata
  · obtain rfl := Option.some.inj (h.symm.trans hdata)
    exact withholds_repRequest cfg

/-- **Registered without a password.** -/
lemma repRequest_registers {cfg : Config} {uninit : Bool} (h : cfg.master_auth = [] ∨ uninit = true) :
    ∃ x, Transition.Along (Session.step cfg false) (Session.Withholds cfg)
        (.start emptyServer uninit (eagerSocket repRequest)) twoTurns ∧
      Transition.run (Session.step cfg false)
        (.start emptyServer uninit (eagerSocket repRequest)) twoTurns = some x ∧
      x.server.master.rep_list.contains (lit "s") = true := by
  obtain ⟨auth, master_auth⟩ := cfg
  -- without the password of the slaves, or with one that is taken as given
  have hcases : master_auth = [] ∧ uninit = false ∨ uninit = true := by
    cases uninit with
    | false => exact Or.inl ⟨h.resolve_right nofun, rfl⟩
    | true => exact Or.inr rfl
  rcases hcases with ⟨rfl, rfl⟩ | rfl
  · refine ⟨_, .cons rfl ?_ <| .cons rfl ?_ trivial, rfl, by decide⟩
    · exact withholds_given (Or.inr rfl)
    · exact withholds_given (Or.inl rfl)
  · refine ⟨_, .cons rfl ?_ <| .cons rfl ?_ trivial, rfl, by decide⟩
    · exact withholds_given (Or.inr rfl)
    · exact withholds_given (Or.inl rfl)

/-- **Nothing is told and nothing is done without a password**, exactly when slaves need one as well, and
the handler starts without it.  The run may be any sequence of turns and of calls of `MasterHandle`; the
peer may send anything but the passwords. -/
theorem unauthenticated_iff (cfg : Config) (hcfg : cfg.auth ≠ []) (uninit : Bool) :
    (∀ (sock : Socket) (sv : Server) (es : List SessionEvent) (x : Session),
      Transition.Along (Session.step cfg false) (Session.Withholds cfg) (.start sv uninit sock) es →
      Transition.run (Session.step cfg false) (.start sv uninit sock) es = some x →
      x.server = sv ∧ ∀ sv', Transition.run (Session.step cfg false) (.start sv' uninit sock) es
        = some { x with server := sv' }) ↔
    cfg.master_auth ≠ [] ∧ uninit = false := by
  constructor
  · intro hall
    by_contra hcond
    have hopen : cfg.master_auth = [] ∨ uninit = true := by
      rcases Bool.eq_false_or_eq_true uninit with h | h
      · exact Or.inr h
      · exact Or.inl (not_not.mp fun hne => hcond ⟨hne, h⟩)
    obtain ⟨x, halong, hrun, hcontains⟩ := repRequest_registers hopen
    rw [(hall _ _ _ x halong hrun).1] at hcontains
    exact absurd hcontains (by decide)
  · rintro ⟨hmaster, rfl⟩ sock sv es x halong hrun
    have hnew : (Session.start sv false sock).running.conn.comm.Unauthenticated :=
      ⟨rfl, rfl, nofun, nofun, nofun⟩
    exact run_unauthenticated hcfg hmaster es hnew rfl halong hrun

/-- A slave with the wrong password learns that it is wrong. -/
theorem unauthenticated_iff_autherror :
    ∃ x, Transition.run (Session.step ⟨lit "pw", lit "mpw"⟩ false)
        (.start emptyServer false (eagerSocket repRequest)) twoTurns = some x ∧
      x.server = emptyServer := by
  obtain ⟨x, hx⟩ : ∃ x, Transition.run (Session.step ⟨lit "pw", lit "mpw"⟩ false)
      (.start emptyServer false (eagerSocket repRequest)) twoTurns = some x := ⟨_, rfl⟩
  have halong : Transition.Along (Session.step ⟨lit "pw", lit "mpw"⟩ false)
      (Session.Withholds ⟨lit "pw", lit "mpw"⟩)
      (.start emptyServer false (eagerSocket repRequest)) twoTurns :=
    .cons rfl (withholds_given (Or.inr rfl)) <| .cons rfl (withholds_given (Or.inl rfl)) trivial
  exact ⟨x, hx, ((unauthenticated_iff ⟨lit "pw", lit "mpw"⟩ (by decide) false).mpr
    ⟨by decide, rfl⟩ _ _ _ x halong hx).1⟩

/-- **The store is sent to anyone** who asks for it as a slave, if `master_auth` is empty. -/
theorem store_leaked : ∃ x,
    Transition.Along (Session.step ⟨lit "pw", []⟩ false) (Session.Withholds ⟨lit "pw", []⟩)
      (.start (keyServer (lit "k") (lit "secret")) false (eagerSocket repRequest))
      (twoTurns ++ [.masterHandle quietWorld (lit "s")]) ∧
    Transition.run (Session.step ⟨lit "pw", []⟩ false)
      (.start (keyServer (lit "k") (lit "secret")) false (eagerSocket repRequest))
      (twoTurns ++ [.masterHandle quietWorld (lit "s")]) = some x ∧
    x.running.sock.outbox
      = (lit "*3\r\n$4\r\nmset\r\n$1\r\nk\r\n$6\r\nsecret\r\n").map some := by
  refine ⟨_, ?_, rfl, rfl⟩
  exact .cons rfl (withholds_given (Or.inr rfl)) <| .cons rfl (withholds_given (Or.inl rfl)) <|
    .cons rfl trivial trivial

end Riser
