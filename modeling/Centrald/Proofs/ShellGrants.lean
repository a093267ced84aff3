import Centrald.Proofs.OpenSession
import Centrald.Proofs.JobExpiry
import Centrald.Server.Audit

/-!
# `Centrald.Proofs.ShellGrants`: what opens a shell, and as whom

`serve_session` does not look at two things.

The operation of the grant: the grant of a job opens a session if the
parameters of the job can be read as parameters of a session. Only
without such jobs do only the grants of `create_shell_session` open
shells (`onlyShellGrantsOpen_iff`).

The account that the frame names: the password is checked for it, but
the shell runs under the signed account, or on Windows under that of the
broker. The password of the shell's account is checked when the two are
the same (`checksShellAccount_iff`).
-/

set_option autoImplicit false

namespace Centrald.Proofs

open Durable Common Platform Client Server

/-- The sessions of the broker of `env`, with the terminal feature on. -/
def shellEnvOf (env : ControlEnv) (os : OperatingSystem)
    (validate : Bytes → Bytes → Except String Unit) : ShellEnv where
  toBrokerEnv := env.toBrokerEnv
  os := os
  terminalEnabled := true
  validateAccountCredentials := validate

variable {env : ControlEnv} {os : OperatingSystem}
  {validate : Bytes → Bytes → Except String Unit}

/-! ### Grants of shells and of jobs -/

variable {params : SessionParameters} {settings : ShellSettings}

/-- The parameters of a planned session are for its privilege. -/
theorem privilege_of_sessionParametersJson {privilege user digest : Bytes}
    (h : sessionParameters (sessionParametersJson settings privilege user digest).print =
      .ok params) : params.privilege = privilege := by
  have hparse := (validate_of_sessionParameters h).1
  rw [parse_print] at hparse
  have hfields : (asU32 (.num settings.maxFrameBytes)).bind (fun maxFrameBytes =>
      (asU32 (.num settings.idleTimeoutSeconds)).bind fun idleTimeoutSeconds =>
      (asU32 (.num shellAbsoluteTimeoutSeconds)).bind fun absoluteTimeoutSeconds =>
      some (SessionParameters.mk privilege user [] maxFrameBytes idleTimeoutSeconds
        absoluteTimeoutSeconds digest)) = some params := hparse
  obtain ⟨_, -, hfields⟩ := Option.bind_eq_some_iff.1 hfields
  obtain ⟨_, -, hfields⟩ := Option.bind_eq_some_iff.1 hfields
  obtain ⟨_, -, hfields⟩ := Option.bind_eq_some_iff.1 hfields
  cases hfields
  rfl

theorem ok_of_ite_error {ε α : Type} {c : Prop} [Decidable c] {e : ε} {a : α}
    {rest : Except ε α} (h : (if c then .error e else rest) = .ok a) : rest = .ok a := by
  grind

theorem plan_of_validateShellOpen {sha256Hex : Bytes → Bytes}
    {typedJobs : Option Bool} {online : Bool} {challenge : Except String Unit}
    {request : ShellOpen} {sessionId : Nat} {plan : ShellOpenPlan}
    (h : validateShellOpen sha256Hex settings typedJobs online challenge request sessionId =
      .ok plan) :
    ∃ privilege, shellPrivilegeName request.privilege = some privilege ∧
      plan = shellOpenPlan sha256Hex settings request privilege sessionId ∧
      (privilege = ascii "elevated" → challenge = .ok ()) := by
  unfold validateShellOpen at h
  cases hprivilege : shellPrivilegeName request.privilege with
  | none =>
    rw [hprivilege] at h
    cases h
  | some privilege =>
    rw [hprivilege] at h
    -- every check but the last leaves only the error
    iterate 10 replace h := ok_of_ite_error h
    grind

theorem shellPrivilegeName_cases {n : Int} {privilege : Bytes}
    (h : shellPrivilegeName n = some privilege) :
    privilege = ascii "low" ∨ privilege = ascii "elevated" := by
  unfold shellPrivilegeName at h
  grind

/-- The grant of a job is not for a shell. -/
theorem grantOperation_ne (kind : JobKind) :
    grantOperation kind ≠ .openLowShell ∧ grantOperation kind ≠ .openElevatedShell := by
  cases kind <;> decide

/-- The grant is for a shell of the privilege that the parameters ask
for, and not the grant of a job. -/
structure IsShellGrant (env : ControlEnv) (params : SessionParameters) (grant : PrivilegedGrant) :
    Prop where
  low : params.privilege = ascii "low" → grant.operation = .openLowShell
  elevated : params.privilege = ascii "elevated" → grant.operation = .openElevatedShell
  notJob : ∀ row now deliveryId grantId, grant ≠ jobGrantOf env row now deliveryId grantId

/-- Whatever a daemon sends, with grants out of those in `signed`, only
shell grants open shells. -/
def OnlyShellGrantsOpen (env : ControlEnv) (os : OperatingSystem)
    (validate : Bytes → Bytes → Except String Unit) (signed : Set PrivilegedGrant) : Prop :=
  ∀ openBytes frame json params before command,
    Presents (shellEnvOf env os validate) openBytes frame json params →
    Unforged env.texts env.sigs env.signingKey signed frame.grant →
    StartsShell (shellEnvOf env os validate) openBytes before command →
    IsShellGrant env params frame.grant.grant

/-- The grant of a planned session is a shell grant for its parameters. -/
theorem isShellGrant_shellGrant {typedJobs : Option Bool}
    {online : Bool} {challenge : Except String Unit} {request : ShellOpen} {sessionId : Nat}
    {plan : ShellOpenPlan} (actor grantId : Nat)
    (issueTime expiryTime : Int)
    (hplan : validateShellOpen env.sha256Hex settings typedJobs online challenge request
      sessionId = .ok plan)
    (hparams : sessionParameters plan.parametersJson = .ok params) :
    IsShellGrant env params
      (shellGrant env.sha256Hex env.texts.uuid plan actor grantId issueTime expiryTime) := by
  obtain ⟨privilege, hname, rfl, -⟩ := plan_of_validateShellOpen hplan
  obtain rfl := privilege_of_sessionParametersJson hparams
  refine ⟨fun hlow => if_pos hlow, fun helevated => if_neg ?_, fun row now _ _ heq => ?_⟩
  · rw [helevated]
    decide
  · have hoperation := congrArg PrivilegedGrant.operation heq
    obtain ⟨hlow, helevated⟩ := grantOperation_ne row.kind
    rcases shellPrivilegeName_cases hname with hprivilege | hprivilege
    · exact hlow (hoperation.symm.trans (if_pos hprivilege))
    · refine helevated (hoperation.symm.trans (if_neg ?_))
      rw [hprivilege]
      decide

/-- What the server has just signed verifies. -/
theorem verifies_sign {grant : PrivilegedGrant} {now : Int}
    (hdevice : grant.deviceId = env.deviceId) (hissued : grant.issuedAt = now - 5 * second)
    (hexpires : grant.expiresAt = now + 960 * second) :
    Verifies env.texts env.sigs (env.sign grant) env.signingKey env.deviceId now := by
  have hlifetime : grant.expiresAt - grant.issuedAt = 965 * second := by omega
  have hsecond : (0 : Int) ≤ second := by decide
  refine ⟨hdevice, ?_, ?_, ?_, ?_, env.signature_verifies grant⟩
  · show 0 < numSeconds (grant.expiresAt - grant.issuedAt)
    rw [hlifetime]
    decide
  · show numSeconds (grant.expiresAt - grant.issuedAt) ≤ maxGrantLifetimeSeconds
    rw [hlifetime]
    decide
  · show grant.issuedAt ≤ now
    omega
  · show now ≤ grant.expiresAt
    omega

/-- A daemon opens a session with the grant of a job, if the parameters
of the job allow it. -/
theorem startsShell_of_job {row : JobRow env.Value} (now : Int) (deliveryId grantId : Nat)
    {accountUser : Bytes} (hbase64 : ∀ bytes, ∃ text, env.sigs.decode text = some bytes)
    (hdevice : row.targetId = env.deviceId)
    (hparams : sessionParameters (env.toVec row.parameters) = .ok params)
    (hopen : Openable (shellEnvOf env os validate) params accountUser) :
    ∃ openBytes frame before command,
      Presents (shellEnvOf env os validate) openBytes frame (env.toVec row.parameters) params ∧
      frame.grant = env.sign (jobGrantOf env row now deliveryId grantId) ∧
      StartsShell (shellEnvOf env os validate) openBytes before command := by
  obtain ⟨openBytes, frame, before, command, hpresents, hgrant, -, hstarts, -⟩ :=
    startsShell_of_openable rfl (hbase64 _) hparams
      (show env.sha256Hex _ = (env.sign (jobGrantOf env row now deliveryId
        grantId)).grant.parametersSha256 from rfl)
      (verifies_sign hdevice rfl rfl) hopen
  exact ⟨openBytes, frame, before, command, hpresents, hgrant, hstarts⟩

/-- Only shell grants open shells if and only if no job was granted to
this device with parameters that a session can be opened with. -/
theorem onlyShellGrantsOpen_iff (hsha : Function.Injective env.sha256Hex)
    (hbase64 : ∀ bytes, ∃ text, env.sigs.decode text = some bytes)
    {signed : Set PrivilegedGrant} (hsigned : ∀ grant ∈ signed, ServerSigns env grant) :
    OnlyShellGrantsOpen env os validate signed ↔
      ∀ row now deliveryId grantId, jobGrantOf env row now deliveryId grantId ∈ signed →
        row.targetId = env.deviceId →
        ∀ params accountUser, sessionParameters (env.toVec row.parameters) = .ok params →
          ¬Openable (shellEnvOf env os validate) params accountUser := by
  constructor
  · intro honly row now deliveryId grantId hmem hdevice params accountUser hparams hopen
    obtain ⟨openBytes, frame, before, command, hpresents, hgrant, hstarts⟩ :=
      startsShell_of_job now deliveryId grantId hbase64 hdevice hparams hopen
    have hunforged : Unforged env.texts env.sigs env.signingKey signed frame.grant := by
      intro raw _ _
      rw [hgrant]
      exact ⟨_, hmem, rfl⟩
    have hshell := honly openBytes frame _ params before command hpresents hunforged hstarts
    exact hshell.notJob row now deliveryId grantId (congrArg SignedGrant.grant hgrant)
  · intro hjobs openBytes frame json params before command hpresents hunforged hstarts
    have hadmitted := admitted_of_startsShell hpresents hstarts
    have hvalid := (validate_of_sessionParameters hpresents.valid).2
    obtain ⟨now', hverified⟩ := hadmitted.verified
    have hmem : frame.grant.grant ∈ signed := hverified.mem_issued hunforged
    have hdigest := hadmitted.digest
    have hdevice := hverified.device
    generalize frame.grant.grant = grant at hmem hdigest hdevice ⊢
    cases hsigned grant hmem with
    | job row now deliveryId grantId =>
      -- the digest is that of the job's parameters
      obtain rfl : json = env.toVec row.parameters := hsha hdigest
      exact (hjobs row now deliveryId grantId hmem hdevice params frame.accountUser
        hpresents.valid (hadmitted.openable hvalid)).elim
    | shell actor grantId issueTime expiryTime hplan =>
      obtain rfl := hsha hdigest
      exact isShellGrant_shellGrant actor grantId issueTime expiryTime hplan hpresents.valid

/-- The client 7 and its broker. Parameters of jobs are JSON texts, and
the digest of some bytes is their hexadecimal text. -/
def textControl : ControlEnv where
  texts := decimalTexts
  sha256Hex bytes := utf8Bytes (hexEncode bytes)
  sigs := plainSignatures
  deviceId := 7
  signingKey := ()
  enabled := true
  Value := Bytes
  jsonb := id
  toVec := id
  signature := signingPayload decimalTexts
  signature_verifies _ := ⟨_, rfl, rfl, beq_self_eq_true _⟩

theorem textControl_sha256Hex_injective : Function.Injective textControl.sha256Hex := by
  intro a b h
  have htext := congrArg utf8Text (show utf8Bytes (hexEncode a) = utf8Bytes (hexEncode b) from h)
  rw [utf8Text_utf8Bytes, utf8Text_utf8Bytes] at htext
  exact hexEncode_injective (Option.some.inj htext)

theorem textControl_base64 : ∀ bytes, ∃ text, textControl.sigs.decode text = some bytes :=
  fun bytes => ⟨bytes, rfl⟩

/-- A job for the client 7 with the given parameters. -/
def restartJob (parameters : Bytes) : JobRow textControl.Value where
  id := 5
  requestId := 1
  targetId := 7
  actorId := 3
  kind := .restartMachine
  state := .queued
  parameters := parameters
  reason := "restart"
  idempotencyKey := 1
  deliveryId := none
  deliveryLeaseExpiresAt := none
  executionStartExpiresAt := none
  expiresAt := 900 * second
  createdAt := 0

/-- A request for a low shell of the client 7. -/
def sampleShellOpen : ShellOpen where
  targetId := 7
  privilege := 1
  columns := 80
  rows := 24
  reason := "look at the logs"
  accountUser := ""
  accountPassword := []
  saveCredentials := false

def sampleShellPlan : ShellOpenPlan :=
  shellOpenPlan textControl.sha256Hex ⟨65536, 900⟩ sampleShellOpen (ascii "low") 8

/-- A job without parameters and a shell session were granted. -/
def sampleSigned : Set PrivilegedGrant :=
  {jobGrantOf textControl (restartJob (Json.obj []).print) 0 20 30,
    shellGrant textControl.sha256Hex textControl.texts.uuid sampleShellPlan 3 31 0 0}

theorem sampleSigned_serverSigns : ∀ grant ∈ sampleSigned, ServerSigns textControl grant := by
  intro grant hgrant
  rcases hgrant with rfl | rfl
  · exact .job _ _ _ _
  · have hplan : validateShellOpen textControl.sha256Hex ⟨65536, 900⟩ (some true) true (.ok ())
        sampleShellOpen 8 = .ok sampleShellPlan := by decide +kernel
    exact .shell 3 31 0 0 hplan

/-- With a restart without parameters and a planned session among the
signed grants, only the session's grant opens a shell. -/
theorem onlyShellGrantsOpen_sample :
    OnlyShellGrantsOpen textControl .linux (fun _ _ => .ok ()) sampleSigned := by
  refine (onlyShellGrantsOpen_iff textControl_sha256Hex_injective textControl_base64
    sampleSigned_serverSigns).2 ?_
  intro row now deliveryId grantId hmem _ params _ hparams _
  rcases hmem with heq | heq
  · have hdigest := congrArg PrivilegedGrant.parametersSha256 heq
    have hparameters : row.parameters = (Json.obj []).print :=
      textControl_sha256Hex_injective hdigest
    rw [hparameters] at hparams
    have hnone : (sessionParameters (Json.obj []).print).toBool = false := by decide +kernel
    rw [show sessionParameters (Json.obj []).print = .ok params from hparams] at hnone
    cases hnone
  · have hoperation : grantOperation row.kind = .openLowShell :=
      (congrArg PrivilegedGrant.operation heq).trans (by decide +kernel)
    exact (grantOperation_ne row.kind).1 hoperation

/-- The parameters of a low session for the account `alice`. -/
def aliceParams : SessionParameters where
  privilege := ascii "low"
  user := ascii "alice"
  shell := []
  maxFrameBytes := 65536
  idleTimeoutSeconds := 900
  absoluteTimeoutSeconds := 28800
  credentialsSha256 := []

/-- They can be opened without any password. -/
theorem aliceParams_openable {validate : Bytes → Bytes → Except String Unit} :
    Openable (shellEnvOf env .linux validate) aliceParams (ascii "centrald") :=
  ⟨by decide, .inl rfl, .inl ⟨rfl, by decide, .inl (by decide)⟩⟩

/-- A restart with parameters that read as those opens a shell. -/
theorem restart_opens_shell {json : Bytes} (hjson : sessionParameters json = .ok aliceParams) :
    ¬OnlyShellGrantsOpen textControl .linux (fun _ _ => .error "authentication failed")
      {jobGrantOf textControl (restartJob json) 0 20 30} := by
  intro honly
  obtain ⟨openBytes, frame, before, command, hpresents, hgrant, hstarts⟩ :=
    startsShell_of_job 0 20 30 textControl_base64 rfl
      (show sessionParameters (textControl.toVec (restartJob _).parameters) = .ok aliceParams
        from hjson) aliceParams_openable
  have hshell := honly openBytes frame _ _ before command hpresents
    (fun _ _ _ => ⟨_, rfl, congrArg _ (congrArg SignedGrant.grant hgrant).symm⟩) hstarts
  exact hshell.notJob _ _ _ _ (congrArg SignedGrant.grant hgrant)

/-- The same parameters as an array in the order of the fields. -/
def aliceItems : Json :=
  .arr [.str (ascii "low"), .str (ascii "alice"), .str [], .num 65536, .num 900, .num 28800,
    .str []]

/-- The grant of a restart opens a shell, whether its parameters are an
object with the fields of a session or an array with their values. -/
theorem job_grant_opens_shell :
    ¬OnlyShellGrantsOpen textControl .linux (fun _ _ => .error "authentication failed")
        {jobGrantOf textControl (restartJob aliceParams.toJson.print) 0 20 30} ∧
      ¬OnlyShellGrantsOpen textControl .linux (fun _ _ => .error "authentication failed")
        {jobGrantOf textControl (restartJob aliceItems.print) 0 20 30} :=
  ⟨restart_opens_shell (sessionParameters_print (by decide)),
    restart_opens_shell (by decide +kernel)⟩

/-! ### The account of a shell -/

/-- A shell under an account other than `centrald` is started only after
the system has accepted, in the same call, a password of this account
that goes with the signed parameters. -/
def ChecksShellAccount (env : ShellEnv) (params : SessionParameters) (openBytes : Bytes) : Prop :=
  ∀ before command, StartsShell env openBytes before command →
    command.account env.os ≠ ascii "centrald" →
    ∃ password, PasswordChecked before (command.account env.os) password ∧
      env.validateAccountCredentials (command.account env.os) password = .ok () ∧
      MatchesSigned env params password

/-- If the daemon has named the account of the shell, then its password
was checked. -/
theorem checked_of_admitted {env : ShellEnv} {json : Bytes} {frame : OpenFrame}
    {command : ShellCommand} {before : SessionHistory}
    (hadmitted : Admitted env frame json params command before) (hvalid : params.validate = .ok ())
    (hsame : namedUser params frame.accountUser = command.account env.os)
    (hother : command.account env.os ≠ ascii "centrald") :
    ∃ password, PasswordChecked before (command.account env.os) password ∧
      env.validateAccountCredentials (command.account env.os) password = .ok () ∧
      MatchesSigned env params password := by
  obtain ⟨-, haccount, -⟩ := shellCommand_spec hadmitted.command
  obtain ⟨credentials, hcheck, haccepted⟩ := hadmitted.account
  obtain ⟨helevated, hnamed, -⟩ := checkAccount_eq_ok_iff.1 hcheck
  have hsome : credentials ≠ none := by
    rcases privilege_of_validate hvalid with hlow | hprivilege
    · refine hnamed hlow (fun hempty => ?_) (hsame ▸ hother)
      -- without a name the shell is that of `centrald`
      rw [hempty, haccount, shellAccount, if_pos hlow] at hsame
      split_ifs at hsame with huser
      · cases hsame
      · exact huser hsame.symm
    · exact helevated hprivilege
  obtain ⟨password, rfl⟩ := Option.ne_none_iff_exists'.1 hsome
  have h := haccepted password rfl
  exact ⟨password, hsame ▸ h.checked, hsame ▸ h.valid, h.signed⟩

/-- A grant of this device for given session parameters. -/
def sessionGrant (env : ControlEnv) (json : Bytes) : PrivilegedGrant :=
  shellGrant env.sha256Hex env.texts.uuid ⟨0, env.deviceId, [], json, .openLowShell⟩ 0 0 0 0

/-- A session runs under the account that the parameters sign, whichever
account the daemon names and has checked. -/
theorem startsShell_as_signed {accountUser : Bytes}
    (hbase64 : ∀ bytes, ∃ text, env.sigs.decode text = some bytes)
    (hopen : Openable (shellEnvOf env os validate) params accountUser) :
    ∃ openBytes frame json before command,
      Presents (shellEnvOf env os validate) openBytes frame json params ∧
      frame.accountUser = accountUser ∧
      StartsShell (shellEnvOf env os validate) openBytes before command ∧
      command.account os = shellAccount os params ∧
      OnlyChecks before (namedUser params accountUser) := by
  obtain ⟨openBytes, frame, before, command, hpresents, -, huser, hstarts, honly⟩ :=
    startsShell_of_openable rfl (hbase64 _) (sessionParameters_print hopen.valid)
      (show env.sha256Hex _ = (env.sign (sessionGrant env _)).grant.parametersSha256 from rfl)
      (verifies_sign rfl (show (0 : Int) - _ = 0 - _ from rfl) rfl) hopen
  have hadmitted := admitted_of_startsShell hpresents hstarts
  exact ⟨openBytes, frame, _, before, command, hpresents, huser, hstarts,
    (shellCommand_spec hadmitted.command).2.1, honly⟩

/-- The password of the shell's account is checked if and only if the
session cannot be opened, or runs as `centrald`, or the daemon names the
account of the shell. -/
theorem checksShellAccount_iff (hbase64 : ∀ bytes, ∃ text, env.sigs.decode text = some bytes)
    (params : SessionParameters) (accountUser : Bytes) :
    (∀ openBytes frame json, Presents (shellEnvOf env os validate) openBytes frame json params →
      frame.accountUser = accountUser →
      ChecksShellAccount (shellEnvOf env os validate) params openBytes) ↔
    (Openable (shellEnvOf env os validate) params accountUser →
      shellAccount os params = ascii "centrald" ∨
        namedUser params accountUser = shellAccount os params) := by
  constructor
  · intro hchecks hopen
    by_contra hne
    rw [not_or] at hne
    obtain ⟨openBytes, frame, json, before, command, hpresents, huser, hstarts, haccount, honly⟩ :=
      startsShell_as_signed hbase64 hopen
    obtain ⟨password, hchecked, -⟩ :=
      hchecks openBytes frame json hpresents huser before command hstarts
        (show command.account os ≠ _ from haccount ▸ hne.1)
    exact hne.2 ((honly _ _ _ hchecked).symm.trans haccount)
  · rintro hcondition openBytes frame json hpresents rfl before command hstarts hother
    have hadmitted := admitted_of_startsShell hpresents hstarts
    have hvalid := (validate_of_sessionParameters hpresents.valid).2
    obtain ⟨-, haccount, -⟩ := shellCommand_spec hadmitted.command
    have hsame := (hcondition (hadmitted.openable hvalid)).resolve_left
      (fun hcentrald => hother (haccount.trans hcentrald))
    exact checked_of_admitted hadmitted hvalid (hsame.trans haccount.symm) hother

/-- With `alice` in the frame, the password of `alice` is checked. -/
theorem checksShellAccount_alice : ∃ openBytes frame json,
    Presents (shellEnvOf textControl .linux fun _ _ => .ok ()) openBytes frame json aliceParams ∧
      frame.accountUser = ascii "alice" ∧
      ChecksShellAccount (shellEnvOf textControl .linux fun _ _ => .ok ()) aliceParams
        openBytes := by
  have hpassword : HasPassword (shellEnvOf textControl .linux fun _ _ => .ok ()) aliceParams
      (ascii "alice") := ⟨[65], [65], by decide, fun h => absurd rfl h, rfl⟩
  have hopen : Openable (shellEnvOf textControl .linux fun _ _ => .ok ()) aliceParams
      (ascii "alice") := ⟨by decide, .inl rfl, .inl ⟨rfl, by decide, .inr hpassword⟩⟩
  obtain ⟨openBytes, frame, json, -, -, hpresents, huser, -⟩ :=
    startsShell_as_signed textControl_base64 hopen
  exact ⟨openBytes, frame, json, hpresents, huser, (checksShellAccount_iff textControl_base64
    aliceParams (ascii "alice")).2 (fun _ => .inr (by decide)) openBytes frame json hpresents huser⟩

/-- With `centrald` in the frame, a shell runs as `alice` although no
password of `alice` is ever accepted. -/
theorem shell_as_unchecked_account : ¬∀ openBytes frame json,
      Presents (shellEnvOf textControl .linux fun _ _ => .error "authentication failed")
        openBytes frame json aliceParams →
      frame.accountUser = ascii "centrald" →
      ChecksShellAccount (shellEnvOf textControl .linux fun _ _ => .error "authentication failed")
        aliceParams openBytes := by
  intro hchecks
  obtain ⟨openBytes, frame, json, before, command, hpresents, huser, hstarts, haccount, -⟩ :=
    startsShell_as_signed textControl_base64 aliceParams_openable
  obtain ⟨password, -, hvalid, -⟩ := hchecks openBytes frame json hpresents huser before command
    hstarts (show command.account .linux ≠ _ from haccount ▸ by decide)
  cases hvalid

end Centrald.Proofs
