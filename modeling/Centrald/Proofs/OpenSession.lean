import Centrald.Proofs.BrokerSession
import Centrald.Proofs.GrantVerifier
import Centrald.Server.Shell

/-!
# `Centrald.Proofs.OpenSession`: which sessions can be opened

`Openable` says which parameters a daemon can open a session with, when
it has a signed grant for them and names a given account. On Linux any
low session for an account other than `root` can be opened: the daemon
names `centrald`, for which no password is asked.

The checks of a session that has started a shell make its parameters
openable (`Admitted.openable`), and conversely a daemon with a grant for
openable parameters gets its shell (`startsShell_of_openable`).
-/

set_option autoImplicit false

namespace Centrald.Proofs

open Durable Common Platform Client Server

variable {env : ShellEnv}

/-! ### Texts of frames and parameters -/

section

variable {frame : OpenFrame} (texts : Texts)
  (hcolumns : 0 ≤ frame.columns ∧ frame.columns ≤ 4294967295)
  (hrows : 0 ≤ frame.rows ∧ frame.rows ≤ 4294967295)
include texts hcolumns hrows

theorem openFrame_ofJson_toJson : OpenFrame.ofJson texts (frame.toJson texts) = some frame := by
  show (SignedGrant.ofJson texts (frame.grant.toJson texts)).bind (fun grant =>
    (asU32 (.num frame.columns)).bind fun columns =>
    (asU32 (.num frame.rows)).bind fun rows =>
    some (OpenFrame.mk grant frame.parametersBase64 columns rows frame.accountUser
      frame.accountPasswordBase64 frame.saveCredentials)) = some frame
  rw [signedGrant_ofJson_toJson, asU32, asU32, Json.asIntIn, Json.asIntIn, if_pos hcolumns,
    if_pos hrows]
  rfl

/-- A frame that a daemon sends is an open frame. -/
theorem wireFrame_ofJson_open :
    SessionWireFrame.ofJson texts (frame.toJson texts) = some (.open frame) := by
  show (OpenFrame.ofJson texts (frame.toJson texts)).bind
    (fun frame => some (SessionWireFrame.open frame)) = _
  rw [openFrame_ofJson_toJson texts hcolumns hrows]
  rfl

end

theorem isSessionOpen_toJson (texts : Texts) (frame : OpenFrame) :
    isSessionOpen (frame.toJson texts).print = true := by
  rw [isSessionOpen, parse_print]
  rfl

/-! ### Openable parameters -/

/-- The daemon has a password that the system accepts for the account,
and that goes with the parameters. -/
def HasPassword (env : ShellEnv) (params : SessionParameters) (user : Bytes) : Prop :=
  ∃ passwordBase64 password, decodePassword env passwordBase64 = .ok (some password) ∧
    MatchesSigned env params password ∧ env.validateAccountCredentials user password = .ok ()

/-- A shell of the list is asked for, or the default one. -/
def AsksAllowedShell (os : OperatingSystem) (params : SessionParameters) : Prop :=
  params.shell = [] ∨ params.shell ∈ allowedShells os

/-- The account conditions of a session, when the daemon names
`accountUser`. -/
def AccountAdmits (env : ShellEnv) (params : SessionParameters) (accountUser : Bytes) : Prop :=
  match env.os with
  | .linux =>
    (params.privilege = ascii "low" ∧ params.user ≠ ascii "root" ∧
      (namedUser params accountUser ∈ [[], ascii "centrald"] ∨
        HasPassword env params (namedUser params accountUser))) ∨
    (params.privilege = ascii "elevated" ∧ namedUser params accountUser = ascii "root" ∧
      HasPassword env params (ascii "root"))
  | .windows =>
    params.privilege = ascii "elevated" ∧ namedUser params accountUser ≠ [] ∧
      HasPassword env params (namedUser params accountUser)

theorem AccountAdmits.low {params : SessionParameters} {accountUser : Bytes}
    (h : AccountAdmits env params accountUser) (hlow : params.privilege = ascii "low") :
    env.os = .linux ∧ params.user ≠ ascii "root" := by
  have hnot : params.privilege ≠ ascii "elevated" := by
    rw [hlow]
    decide
  unfold AccountAdmits at h
  cases hos : env.os with
  | windows =>
    rw [hos] at h
    exact (hnot h.1).elim
  | linux =>
    rw [hos] at h
    obtain ⟨-, huser, -⟩ | ⟨helevated, -⟩ := h
    · exact ⟨rfl, huser⟩
    · exact (hnot helevated).elim

/-- A daemon that names `accountUser` can open a session with these
parameters, once they are signed. -/
structure Openable (env : ShellEnv) (params : SessionParameters) (accountUser : Bytes) :
    Prop where
  valid : params.validate = .ok ()
  shell : AsksAllowedShell env.os params
  account : AccountAdmits env params accountUser

theorem requestedShell_ok_iff {os : OperatingSystem} {params : SessionParameters} :
    (∃ shell, requestedShell os params.shell = .ok shell) ↔ AsksAllowedShell os params := by
  unfold requestedShell AsksAllowedShell
  by_cases hempty : params.shell = []
  · simp [hempty]
  · by_cases hallowed : (allowedShells os).contains params.shell
    · simp [hempty, List.contains_iff_mem.1 hallowed]
    · simp [hempty, mt List.contains_iff_mem.2 hallowed]

/-- The account that a session with these parameters runs under. -/
def shellAccount (os : OperatingSystem) (params : SessionParameters) : Bytes :=
  if params.privilege = ascii "low" then
    if params.user = [] then ascii "centrald" else params.user
  else brokerAccount os

section Command

variable {os : OperatingSystem} {params : SessionParameters} {frame : OpenFrame}
  {command : ShellCommand}

/-- What a shell command runs as: the account that the parameters name. -/
theorem shellCommand_spec (h : shellCommand os (sessionSpec params frame) = .ok command) :
    AsksAllowedShell os params ∧ command.account os = shellAccount os params ∧
      (params.privilege = ascii "low" → os = .linux ∧ params.user ≠ ascii "root") := by
  unfold shellCommand at h
  cases hshell : requestedShell os params.shell with
  | error e =>
    rw [show (sessionSpec params frame).shell = params.shell from rfl, hshell] at h
    cases h
  | ok shell =>
    rw [show (sessionSpec params frame).shell = params.shell from rfl, hshell] at h
    refine ⟨requestedShell_ok_iff.1 ⟨shell, hshell⟩, ?_⟩
    unfold shellAccount
    by_cases hlow : params.privilege = ascii "low"
    · have hprivilege : (sessionSpec params frame).privilege = .low := if_pos hlow
      rw [hprivilege] at h
      cases os with
      | windows => cases h
      | linux =>
        simp only [show (sessionSpec params frame).user = params.user from rfl] at h
        by_cases hroot : (if params.user = [] then ascii "centrald" else params.user) = ascii "root"
        · grind
        · rw [if_neg hroot] at h
          rw [if_pos hlow]
          cases h
          refine ⟨rfl, fun _ => ⟨rfl, fun huser => hroot ?_⟩⟩
          rw [huser]
          decide
    · have hprivilege : (sessionSpec params frame).privilege = .elevated := if_neg hlow
      rw [hprivilege] at h
      cases h
      rw [if_neg hlow]
      exact ⟨rfl, fun heq => (hlow heq).elim⟩

theorem exists_shellCommand (hshell : AsksAllowedShell os params)
    (hlow : params.privilege = ascii "low" → os = .linux ∧ params.user ≠ ascii "root") :
    ∃ command, shellCommand os (sessionSpec params frame) = .ok command := by
  obtain ⟨shell, hshell⟩ := requestedShell_ok_iff.2 hshell
  unfold shellCommand
  rw [show (sessionSpec params frame).shell = params.shell from rfl, hshell]
  by_cases hprivilege : params.privilege = ascii "low"
  · obtain ⟨rfl, huser⟩ := hlow hprivilege
    rw [show (sessionSpec params frame).privilege = .low from if_pos hprivilege]
    refine ⟨_, if_neg ?_⟩
    rw [show (sessionSpec params frame).user = params.user from rfl]
    split_ifs
    · decide
    · exact huser
  · rw [show (sessionSpec params frame).privilege = .elevated from if_neg hprivilege]
    exact ⟨_, rfl⟩

end Command

variable {credentials : Option Bytes}

/-- What is checked between the credentials and the shell. -/
theorem checkAccount_eq_ok_iff {params : SessionParameters} {accountUser : Bytes} :
    checkAccount env params accountUser credentials = .ok () ↔
      (params.privilege = ascii "elevated" → credentials ≠ none) ∧
      (params.privilege = ascii "low" → namedUser params accountUser ≠ [] →
        namedUser params accountUser ≠ ascii "centrald" → credentials ≠ none) ∧
      (params.privilege = ascii "elevated" → namedUser params accountUser ≠ ascii "root" →
        env.os = .windows) := by
  unfold checkAccount
  simp only
  split_ifs with helevated hlow hroot
  · simp only [false_iff]
    exact fun h => h.1 helevated.1 helevated.2
  · simp only [false_iff]
    exact fun h => h.2.1 hlow.1 hlow.2.1 hlow.2.2.1 hlow.2.2.2
  · simp only [false_iff]
    exact fun h => hroot.2.2 (h.2.2 hroot.1 hroot.2.1)
  · simp only [true_iff]
    refine ⟨fun h hnone => helevated ⟨h, hnone⟩, fun h hne hcentrald hnone =>
      hlow ⟨h, hne, hcentrald, hnone⟩, fun h hne => ?_⟩
    by_contra hos
    exact hroot ⟨h, hne, hos⟩

theorem privilege_of_validate {params : SessionParameters} (h : params.validate = .ok ()) :
    params.privilege = ascii "low" ∨ params.privilege = ascii "elevated" := by
  unfold SessionParameters.validate at h
  grind

variable {json : Bytes}

theorem validate_of_sessionParameters {params : SessionParameters}
    (h : sessionParameters json = .ok params) :
    (Json.parse json).bind SessionParameters.ofJson = some params ∧ params.validate = .ok () := by
  unfold sessionParameters at h
  cases hparse : (Json.parse json).bind SessionParameters.ofJson with
  | none => rw [hparse] at h; cases h
  | some decoded =>
    rw [hparse] at h
    cases hvalid : decoded.validate with
    | error e => simp [hvalid, Except.map] at h
    | ok done =>
      simp only [hvalid, Except.map, Except.ok.injEq] at h
      subst h
      exact ⟨rfl, hvalid⟩

/-- The parameters come back from their text. -/
theorem sessionParameters_print {params : SessionParameters} (h : params.validate = .ok ()) :
    sessionParameters params.toJson.print = .ok params := by
  have hbounds := h
  unfold SessionParameters.validate at hbounds
  split_ifs at hbounds with hprivilege hframe hidle habsolute
  have hdecoded : SessionParameters.ofJson params.toJson = some params := by
    show (asU32 (.num params.maxFrameBytes)).bind (fun maxFrameBytes =>
      (asU32 (.num params.idleTimeoutSeconds)).bind fun idleTimeoutSeconds =>
      (asU32 (.num params.absoluteTimeoutSeconds)).bind fun absoluteTimeoutSeconds =>
      some (SessionParameters.mk params.privilege params.user params.shell maxFrameBytes
        idleTimeoutSeconds absoluteTimeoutSeconds params.credentialsSha256)) = some params
    simp only [asU32, Json.asIntIn]
    rw [if_pos (by omega), if_pos (by omega), if_pos (by omega)]
    rfl
  unfold sessionParameters
  rw [parse_print, Option.bind_some, hdecoded]
  simp only [h, Except.map]

/-- A session that has started a shell has openable parameters. -/
theorem Admitted.openable {frame : OpenFrame} {params : SessionParameters}
    {command : ShellCommand} {h : SessionHistory}
    (hadmitted : Admitted env frame json params command h) (hvalid : params.validate = .ok ()) :
    Openable env params frame.accountUser := by
  obtain ⟨hshell, -, hlow⟩ := shellCommand_spec hadmitted.command
  refine ⟨hvalid, hshell, ?_⟩
  obtain ⟨credentials, hcheck, haccepted⟩ := hadmitted.account
  obtain ⟨helevated, hnamed, hroot⟩ := checkAccount_eq_ok_iff.1 hcheck
  have hpassword : credentials ≠ none →
      HasPassword env params (namedUser params frame.accountUser) ∧
        namedUser params frame.accountUser ≠ [] := by
    intro hsome
    obtain ⟨password, rfl⟩ := Option.ne_none_iff_exists'.1 hsome
    have h := haccepted password rfl
    exact ⟨⟨_, password, h.decoded, h.signed, h.valid⟩, h.named⟩
  unfold AccountAdmits
  rcases privilege_of_validate hvalid with hprivilege | hprivilege
  · obtain ⟨hos, huser⟩ := hlow hprivilege
    rw [hos]
    refine .inl ⟨hprivilege, huser, ?_⟩
    by_cases hservice : namedUser params frame.accountUser ∈ [[], ascii "centrald"]
    · exact .inl hservice
    · rw [List.mem_cons, List.mem_singleton, not_or] at hservice
      exact .inr (hpassword (hnamed hprivilege hservice.1 hservice.2)).1
  · obtain ⟨hhas, hne⟩ := hpassword (helevated hprivilege)
    cases hos : env.os with
    | windows => exact ⟨hprivilege, hne, hhas⟩
    | linux =>
      have huser : namedUser params frame.accountUser = ascii "root" := by
        by_contra hother
        rw [hroot hprivilege hother] at hos
        cases hos
      exact .inr ⟨hprivilege, huser, huser ▸ hhas⟩

/-! ### A run that opens a session -/

section Run

variable {s s' : SessionState env} {h : SessionHistory}

/-- An operation that succeeds while no other connection does anything. -/
theorem exec_session_act {op : SessionOp} (hop : op.Effect s s' .done) :
    Exec (sessionSem env).traced (SessionM.act op).run (s, h)
      (.done (.ok ()) (s', h ++ [(op, .done)])) := by
  have heffect : (sessionSem env).traced.effect op (s, h) (s', h ++ [(op, .done)]) .done :=
    ⟨⟨s, ⟨rfl, rfl⟩, hop⟩, rfl⟩
  exact .call heffect (.ret _ _)

theorem exec_session_utcNow : Exec (sessionSem env).traced SessionM.utcNow.run (s, h)
      (.done (.ok s.clock) (s, h ++ [(.utcNow, .time s.clock)])) :=
  .call ⟨⟨s, ⟨rfl, rfl⟩, rfl, rfl⟩, rfl⟩ (.ret _ _)

theorem exec_session_ask {op : SessionOp} {b : Bool} (hop : op.Effect s s' (.flag b)) :
    Exec (sessionSem env).traced (SessionM.ask op).run (s, h)
      (.done (.ok b) (s', h ++ [(op, .flag b)])) := by
  have heffect : (sessionSem env).traced.effect op (s, h) (s', h ++ [(op, .flag b)]) (.flag b) :=
    ⟨⟨s, ⟨rfl, rfl⟩, hop⟩, rfl⟩
  refine .call heffect ?_
  cases b <;> exact .ret _ _

theorem exec_session_result {α : Type} {p : SessionM α} {r : Except String α}
    {t t' : SessionState env × SessionHistory}
    (hp : Exec (sessionSem env).traced p.run t (.done r t')) :
    Exec (sessionSem env).traced (SessionM.result p).run t (.done (.ok r) t') :=
  (exec_bind_iff _ _ _ _).2 (.inl ⟨_, _, hp, .ret _ _⟩)

/-- A broker that has just started, at `now`. -/
def freshSession (env : ShellEnv) (now : Int) : SessionState env where
  clock := now
  verifier := .new env.deviceId env.signingKey
  grants := none
  sessions := []

/-- The operations by which a new grant is consumed at `now`. -/
def consumeTrace (signed : SignedGrant) (now : Int) : SessionHistory :=
  [(.utcNow, .time now), (.grantWasConsumed signed.grant.id now, .flag false),
    (.utcNow, .time now), (.verifyAndConsume signed now, .done),
    (.recordConsumedGrant signed.grant.id signed.grant.expiresAt, .done)]

/-- The broker after this. -/
def consumedSession (env : ShellEnv) (signed : SignedGrant) (now : Int) : SessionState env :=
  { freshSession env now with
    verifier := ((freshSession env now).verifier.verifyAndConsume env.texts signed now).1
    grants := Ledger.recordConsumedGrant env none
      (signed.grant.id, signed.grant.expiresAt) }

theorem exec_consumeGrant {frame : OpenFrame} {now : Int}
    (hdigest : env.sha256Hex json = frame.grant.grant.parametersSha256)
    (hverified : Verifies env.texts env.sigs frame.grant env.signingKey env.deviceId now) :
    Exec (sessionSem env).traced (consumeGrant env frame json).run (freshSession env now, [])
      (.done (.ok ()) (consumedSession env frame.grant now, consumeTrace frame.grant now)) := by
  have hconsume := verifyAndConsume_of_room (v := GrantVerifier.new env.deviceId env.signingKey)
    ((verify_eq_ok_iff env.texts).2 hverified) (Finset.notMem_empty _)
    (show 0 < maxReplayEntries by decide)
  unfold consumeGrant
  simp only
  rw [if_neg (not_not.2 hdigest)]
  refine exec_bind_ok exec_session_utcNow ?_
  refine exec_bind_ok (exec_session_ask (b := false) ⟨rfl, rfl⟩) ?_
  refine exec_bind_ok exec_session_utcNow ?_
  refine exec_bind_ok (exec_session_act ⟨rfl, ?_⟩) ?_
  · rw [show (freshSession env now).verifier = GrantVerifier.new env.deviceId env.signingKey
      from rfl, show (freshSession env now).clock = now from rfl, hconsume]
  · exact exec_session_act (.inl ⟨rfl, rfl⟩)

/-- No account but `user` is checked. -/
def OnlyChecks (h : SessionHistory) (user : Bytes) : Prop :=
  ∀ other password r, (SessionOp.validateAccount other password, r) ∈ h → other = user

/-- What a daemon shows to pass the checks of the account. -/
structure Shows (env : ShellEnv) (params : SessionParameters) (accountUser passwordBase64 : Bytes)
    (credentials : Option Bytes) : Prop where
  decoded : decodePassword env passwordBase64 = .ok credentials
  admits : checkAccount env params accountUser credentials = .ok ()
  accepted : ∀ password, credentials = some password → namedUser params accountUser ≠ [] ∧
    MatchesSigned env params password ∧
    env.validateAccountCredentials (namedUser params accountUser) password = .ok ()

variable {accountUser : Bytes}

/-- For the service account no password is needed. -/
theorem shows_nothing {params : SessionParameters} (hlow : params.privilege = ascii "low")
    (hservice : namedUser params accountUser ∈ [[], ascii "centrald"]) :
    Shows env params accountUser [] none := by
  have hnot : params.privilege ≠ ascii "elevated" := by
    rw [hlow]
    decide
  refine ⟨rfl, checkAccount_eq_ok_iff.2 ⟨fun h => (hnot h).elim, ?_, fun h => (hnot h).elim⟩, nofun⟩
  grind

theorem shows_password {params : SessionParameters}
    (hhas : HasPassword env params (namedUser params accountUser))
    (hne : namedUser params accountUser ≠ [])
    (hroot : params.privilege = ascii "elevated" → namedUser params accountUser ≠ ascii "root" →
      env.os = .windows) :
    ∃ passwordBase64 credentials, Shows env params accountUser passwordBase64 credentials := by
  obtain ⟨passwordBase64, password, hdecoded, hmatches, hvalid⟩ := hhas
  refine ⟨passwordBase64, some password, hdecoded,
    checkAccount_eq_ok_iff.2 ⟨nofun, nofun, hroot⟩, ?_⟩
  grind

theorem Openable.shows {params : SessionParameters} (hopen : Openable env params accountUser) :
    ∃ passwordBase64 credentials, Shows env params accountUser passwordBase64 credentials := by
  have haccount := hopen.account
  unfold AccountAdmits at haccount
  cases hos : env.os with
  | windows =>
    rw [hos] at haccount
    obtain ⟨hprivilege, hne, hhas⟩ := haccount
    exact shows_password hhas hne fun _ _ => hos
  | linux =>
    rw [hos] at haccount
    obtain ⟨hlow, -, haccount⟩ | ⟨hprivilege, huser, hhas⟩ := haccount
    · by_cases hservice : namedUser params accountUser ∈ [[], ascii "centrald"]
      · exact ⟨[], none, shows_nothing hlow hservice⟩
      · refine shows_password (haccount.resolve_left hservice) ?_ fun h => ?_
        · grind
        · rw [hlow] at h
          exact absurd h (by decide)
    · refine shows_password (huser ▸ hhas) ?_ fun _ h => (h huser).elim
      rw [huser]
      decide

/-- Credentials that `Shows` describes are resolved with checks of that
user alone. -/
theorem exec_resolveCredentials {s : SessionState env} {h : SessionHistory}
    {params : SessionParameters} {frame : OpenFrame}
    (hshows : Shows env params frame.accountUser frame.accountPasswordBase64 credentials)
    (hsave : frame.saveCredentials = false) :
    ∃ checks, OnlyChecks checks (namedUser params frame.accountUser) ∧
      Exec (sessionSem env).traced (resolveCredentials env params frame).run (s, h)
        (.done (.ok credentials) (s, h ++ checks)) := by
  unfold resolveCredentials
  rw [hsave, if_neg Bool.false_ne_true, hshows.decoded]
  cases credentials with
  | none =>
    refine ⟨[], nofun, ?_⟩
    rw [List.append_nil]
    split_ifs <;> exact .ret _ _
  | some password =>
    obtain ⟨hne, hmatches, hvalid⟩ := hshows.accepted password rfl
    have hdigest : ¬(params.credentialsSha256 ≠ [] ∧
        env.sha256Hex password ≠ params.credentialsSha256) :=
      fun hboth => hboth.2 (hmatches hboth.1)
    simp only [if_neg hne, if_neg hdigest]
    refine ⟨[(.validateAccount (namedUser params frame.accountUser) password, .done)], ?_,
      exec_bind_ok (exec_session_act ⟨rfl, ?_⟩) (.ret _ _)⟩
    · intro other password' r hmem
      grind
    · rw [hvalid]
      rfl

/-- A slot is free, the credentials are accepted, and the shell starts. -/
theorem exec_startSession (signed : SignedGrant) (now : Int) {params : SessionParameters}
    {frame : OpenFrame} {command : ShellCommand}
    (hshows : Shows env params frame.accountUser frame.accountPasswordBase64 credentials)
    (hsave : frame.saveCredentials = false)
    (hcommand : shellCommand env.os (sessionSpec params frame) = .ok command) :
    ∃ checks s', OnlyChecks checks (namedUser params frame.accountUser) ∧
      Exec (sessionSem env).traced (startSession env frame params).run
        (consumedSession env signed now, h) (.crashed (s', h ++ checks ++
          [(.openPty command (terminalSize frame.columns) (terminalSize frame.rows), .done)])) := by
  let reserve : SessionOp × SessionReply := (.reserve frame.grant.grant.jobOrSessionId, .done)
  let s' : SessionState env :=
    { consumedSession env signed now with sessions := [frame.grant.grant.jobOrSessionId] }
  obtain ⟨checks, honly, hresolve⟩ :=
    exec_resolveCredentials (s := s') (h := h ++ [reserve]) hshows hsave
  refine ⟨reserve :: checks, s', ?_, ?_⟩
  · intro other password r hmem
    rcases List.mem_cons.1 hmem with heq | hmem
    · grind
    · exact honly other password r hmem
  · have hreserve : reserve.1.Effect (consumedSession env signed now) s' .done := by
      have hfree : ¬maxConcurrentSessions ≤ (consumedSession env signed now).sessions.length := by
        show ¬maxConcurrentSessions ≤ 0
        decide
      rw [show reserve.1 = .reserve frame.grant.grant.jobOrSessionId from rfl, SessionOp.Effect,
        if_neg hfree]
      exact ⟨rfl, rfl⟩
    unfold startSession
    refine exec_bind_ok (exec_session_act hreserve) ?_
    refine exec_bind_ok (exec_session_result hresolve) ?_
    simp only [hshows.admits, hcommand]
    refine exec_bind_ok (exec_session_result (exec_session_act ⟨rfl, .inl rfl⟩)) ?_
    refine .crash _ ⟨rfl, ?_⟩
    grind

end Run

/-- With a signed grant for openable parameters, a daemon gets its shell,
and no account is checked but the one it names. -/
theorem startsShell_of_openable {signed : SignedGrant} {now : Int} {accountUser : Bytes}
    {params : SessionParameters} (hterminal : env.terminalEnabled = true)
    (hbase64 : ∃ text, env.sigs.decode text = some json)
    (hparams : sessionParameters json = .ok params)
    (hdigest : env.sha256Hex json = signed.grant.parametersSha256)
    (hverified : Verifies env.texts env.sigs signed env.signingKey env.deviceId now)
    (hopen : Openable env params accountUser) :
    ∃ openBytes frame before command, Presents env openBytes frame json params ∧
      frame.grant = signed ∧ frame.accountUser = accountUser ∧
      StartsShell env openBytes before command ∧
      OnlyChecks before (namedUser params accountUser) := by
  obtain ⟨text, hdecode⟩ := hbase64
  obtain ⟨passwordBase64, credentials, hshows⟩ := hopen.shows
  let frame : OpenFrame := ⟨signed, text, 80, 24, accountUser, passwordBase64, false⟩
  obtain ⟨command, hcommand⟩ :
      ∃ command, shellCommand env.os (sessionSpec params frame) = .ok command :=
    exists_shellCommand hopen.shell hopen.account.low
  obtain ⟨checks, s', honly, hstart⟩ :=
    exec_startSession (h := consumeTrace signed now) signed now hshows rfl hcommand
  have hframe : (Json.parse (frame.toJson env.texts).print).bind
      (SessionWireFrame.ofJson env.texts) = some (.open frame) := by
    rw [parse_print]
    exact wireFrame_ofJson_open env.texts (show (0 : Int) ≤ 80 ∧ (80 : Int) ≤ _ by decide)
      (show (0 : Int) ≤ 24 ∧ (24 : Int) ≤ _ by decide)
  refine ⟨(frame.toJson env.texts).print, frame, consumeTrace signed now ++ checks, command,
    ⟨hframe, hdecode, hparams⟩, rfl, rfl, ⟨isSessionOpen_toJson _ _, freshSession env now,
      .crashed (s', _), terminalSize 80, terminalSize 24, [], ⟨rfl, rfl⟩, ?_, rfl⟩, ?_⟩
  · unfold serveSession
    simp only [hterminal, Bool.true_eq_false, if_false, hframe]
    rw [show env.sigs.decode frame.parametersBase64 = some json from hdecode]
    simp only [hparams]
    exact exec_bind_ok (exec_consumeGrant hdigest hverified) hstart
  · intro other password r hmem
    rcases List.mem_append.1 hmem with hmem | hmem
    · simp [consumeTrace] at hmem
    · exact honly other password r hmem

end Centrald.Proofs
