import Centrald.Client.BrokerSession
import Centrald.Server.ControlStream

/-!
# `Centrald.Server.Shell`: the grants of shell sessions

The model of `validate_shell_open` and of the grant that
`create_shell_session` signs (`shell.rs` of `centrald-server`). What the
database and the registry of streams say about the target, and the check
of the elevation challenge, are arguments.

Together with `jobGrant`, `shellGrant` gives all grants that the server
signs (`ServerSigns`).
-/

set_option autoImplicit false

namespace Centrald.Server

open Durable Common
open Client (SessionParameters)

def shellAbsoluteTimeoutSeconds : Int := 28800

/-- `ShellPrivilege`, from the number of the message. -/
def shellPrivilegeName : Int → Option Bytes
  | 1 => some (ascii "low")
  | 2 => some (ascii "elevated")
  | _ => none

/-- The fields of `ShellOpen` that are looked at. -/
structure ShellOpen where
  targetId : Nat
  privilege : Int
  columns : Nat
  rows : Nat
  reason : String
  accountUser : String
  accountPassword : Bytes
  saveCredentials : Bool

/-- A shell that the server has decided to open. -/
structure ShellOpenPlan where
  sessionId : Nat
  targetId : Nat
  privilege : Bytes
  parametersJson : Bytes
  operation : GrantOperation
  deriving DecidableEq

/-- What the configuration says about shells. -/
structure ShellSettings where
  maxFrameBytes : Int
  idleTimeoutSeconds : Int

section

variable (sha256Hex : Bytes → Bytes) (settings : ShellSettings)

/-- The serialized `SessionParameters` of the server. The shell is left
to the client. -/
def sessionParametersJson (privilege user credentialsSha256 : Bytes) : Json :=
  SessionParameters.toJson
    { privilege := privilege
      user := user
      shell := []
      maxFrameBytes := settings.maxFrameBytes
      idleTimeoutSeconds := settings.idleTimeoutSeconds
      absoluteTimeoutSeconds := shellAbsoluteTimeoutSeconds
      credentialsSha256 := credentialsSha256 }

/-- The plan of a request that passes the checks. -/
def shellOpenPlan (request : ShellOpen) (privilege : Bytes) (sessionId : Nat) : ShellOpenPlan :=
  let user := if isBlankText request.accountUser then ascii "centrald"
    else utf8Bytes request.accountUser
  let credentialsSha256 := if request.accountPassword = [] then []
    else sha256Hex request.accountPassword
  { sessionId := sessionId
    targetId := request.targetId
    privilege := privilege
    parametersJson := (sessionParametersJson settings privilege user credentialsSha256).print
    operation := if privilege = ascii "low" then .openLowShell else .openElevatedShell }

/-- `validate_shell_open`. `typedJobs` is the column of the target's row,
if there is one, and `challenge` the result of
`verify_elevation_challenge`. -/
def validateShellOpen (typedJobs : Option Bool) (online : Bool) (challenge : Except String Unit)
    (request : ShellOpen) (sessionId : Nat) : Except String ShellOpenPlan :=
  match shellPrivilegeName request.privilege with
  | none => .error "unsupported shell privilege"
  | some privilege =>
    if request.columns < 2 ∨ 500 < request.columns ∨ request.rows < 2 ∨ 500 < request.rows then
      .error "shell size must be 2-500 columns and rows"
    else if request.reason = "" ∨ 512 < (utf8Bytes request.reason).length ∨
        request.reason.toList.any isControl then
      .error "shell reason is invalid"
    else if 128 < (utf8Bytes request.accountUser).length ∨
        request.accountUser.toList.any isControl then
      .error "shell OS account is invalid"
    else if 4096 < request.accountPassword.length then
      .error "shell OS account password is too large"
    else if request.saveCredentials ∧ request.accountPassword = [] then
      .error "credential saving requires a password to save"
    else if privilege = ascii "elevated" ∧ isBlankText request.accountUser then
      .error "elevated shells require an OS account"
    else if privilege = ascii "low" ∧ request.accountUser = "root" then
      .error "a low shell must not run as root"
    else if typedJobs = none then
      .error "target client does not exist"
    else if typedJobs = some false then
      .error "target client does not support typed operations"
    else if online = false then
      .error "target client is offline"
    else
      match if privilege = ascii "elevated" then challenge else .ok () with
      | .error e => .error e
      | .ok () => .ok (shellOpenPlan sha256Hex settings request privilege sessionId)

/-- The grant of a session. The clock is read twice. -/
def shellGrant (uuidText : Nat → Bytes) (plan : ShellOpenPlan) (actor grantId : Nat)
    (issueTime expiryTime : Int) : PrivilegedGrant where
  id := grantId
  deviceId := plan.targetId
  jobOrSessionId := plan.sessionId
  adminId := actor
  operation := plan.operation
  parametersSha256 := sha256Hex plan.parametersJson
  issuedAt := issueTime - 5 * second
  expiresAt := expiryTime + 960 * second
  nonce := uuidText plan.sessionId

end

/-- The grant of a job of any client: `jobGrant`, which is about one
client, for the job's own target. -/
def jobGrantOf (env : ControlEnv) (row : JobRow env.Value) (now : Int)
    (deliveryId grantId : Nat) : PrivilegedGrant :=
  { jobGrant env row now deliveryId grantId with deviceId := row.targetId }

/-- The grants that `claim_next_job` and `create_shell_session` sign. -/
inductive ServerSigns (env : ControlEnv) : PrivilegedGrant → Prop where
  | job (row : JobRow env.Value) (now : Int) (deliveryId grantId : Nat) :
      ServerSigns env (jobGrantOf env row now deliveryId grantId)
  | shell {settings : ShellSettings} {typedJobs : Option Bool} {online : Bool}
      {challenge : Except String Unit} {request : ShellOpen} {sessionId : Nat}
      {plan : ShellOpenPlan} (actor grantId : Nat) (issueTime expiryTime : Int)
      (hplan : validateShellOpen env.sha256Hex settings typedJobs online challenge request
        sessionId = .ok plan) :
      ServerSigns env (shellGrant env.sha256Hex env.texts.uuid plan actor grantId issueTime
        expiryTime)

end Centrald.Server
