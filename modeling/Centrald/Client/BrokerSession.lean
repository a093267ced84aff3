import Centrald.Client.Broker
import Centrald.Common.Text

/-!
# `Centrald.Client.BrokerSession`: the broker's shell sessions

The model of `serve_session` in `broker_session.rs` of `centrald-client`,
with `shell_command` of `ptys.rs` and the branch of `dispatch_connection`
(`broker.rs`) that leads to it.

A session is a program that asks for operations: the clock, the sections
that the locks of the verifier, the ledger and the session registry
guard, the check of an account's password by the operating system, and
the start of the shell. Between two operations the other connections of
the broker go on (`Interferes`), so nothing is known of the shared state
but the device and the key. `run_session`, which relays frames once the
shell runs, is one operation.

Texts are their UTF-8 bytes.
-/

set_option autoImplicit false

namespace Centrald.Client

open Durable Common Platform Client.Ledger

/-- The operating system of the build. -/
inductive OperatingSystem where
  | linux
  | windows
  deriving DecidableEq

/-- What sessions take from elsewhere. `terminalEnabled` is
`TERMINAL_SESSIONS_ENABLED`, and `validateAccountCredentials` asks PAM or
`LogonUserW`. -/
structure ShellEnv extends BrokerEnv where
  os : OperatingSystem
  terminalEnabled : Bool
  validateAccountCredentials : Bytes → Bytes → Except String Unit

instance : Coe ShellEnv BrokerEnv := ⟨ShellEnv.toBrokerEnv⟩

/-! ### Frames and parameters -/

/-- `SessionWireFrame::Open`. -/
structure OpenFrame where
  grant : SignedGrant
  parametersBase64 : Bytes
  columns : Int
  rows : Int
  accountUser : Bytes
  accountPasswordBase64 : Bytes
  saveCredentials : Bool
  deriving DecidableEq

/-- The frames between the daemon and the broker on the socket of one
shell session. -/
inductive SessionWireFrame where
  | open (frame : OpenFrame)
  | opened (sessionId : Nat) (warning : Bytes)
  | error (message : Bytes)
  | data (dataBase64 : Bytes)
  | resize (columns rows : Int)
  | close (reason : Bytes) (exitCode : Int)
  deriving DecidableEq

/-- A `u32`. -/
def asU32 (v : Json) : Option Int := v.asIntIn 0 4294967295

/-- The fields of an open frame. -/
def OpenFrame.ofJson (texts : Texts) (v : Json) : Option OpenFrame := do
  let fields ← v.recordFields [ascii "kind", ascii "grant", ascii "parameters_base64",
    ascii "columns", ascii "rows", ascii "account_user", ascii "account_password_base64",
    ascii "save_credentials"]
  let grant ← SignedGrant.ofJson texts (← fields.lookup (ascii "grant"))
  let parametersBase64 ← (← fields.lookup (ascii "parameters_base64")).asStr
  let columns ← asU32 (← fields.lookup (ascii "columns"))
  let rows ← asU32 (← fields.lookup (ascii "rows"))
  let accountUser ← (← fields.lookup (ascii "account_user")).asStr
  let accountPasswordBase64 ← (← fields.lookup (ascii "account_password_base64")).asStr
  let saveCredentials ← (← fields.lookup (ascii "save_credentials")).asBool
  return ⟨grant, parametersBase64, columns, rows, accountUser, accountPasswordBase64,
    saveCredentials⟩

/-- The open frame that a daemon sends. -/
def OpenFrame.toJson (texts : Texts) (frame : OpenFrame) : Json :=
  .obj [(ascii "kind", .str (ascii "open")), (ascii "grant", frame.grant.toJson texts),
    (ascii "parameters_base64", .str frame.parametersBase64),
    (ascii "columns", .num frame.columns), (ascii "rows", .num frame.rows),
    (ascii "account_user", .str frame.accountUser),
    (ascii "account_password_base64", .str frame.accountPasswordBase64),
    (ascii "save_credentials", .bool frame.saveCredentials)]

/-- A frame: the tag `kind` says which one, and the other fields are
those of its kind. -/
def SessionWireFrame.ofJson (texts : Texts) (v : Json) : Option SessionWireFrame := do
  let kind ← (← v.tag (ascii "kind")).asStr
  if kind = ascii "open" then
    return .open (← OpenFrame.ofJson texts v)
  else if kind = ascii "opened" then
    let fields ← v.recordFields [ascii "kind", ascii "session_id", ascii "warning"]
    return .opened (← texts.parseUuid (← (← fields.lookup (ascii "session_id")).asStr))
      (← (← fields.lookup (ascii "warning")).asStr)
  else if kind = ascii "error" then
    let fields ← v.recordFields [ascii "kind", ascii "message"]
    return .error (← (← fields.lookup (ascii "message")).asStr)
  else if kind = ascii "data" then
    let fields ← v.recordFields [ascii "kind", ascii "data_base64"]
    return .data (← (← fields.lookup (ascii "data_base64")).asStr)
  else if kind = ascii "resize" then
    let fields ← v.recordFields [ascii "kind", ascii "columns", ascii "rows"]
    return .resize (← asU32 (← fields.lookup (ascii "columns")))
      (← asU32 (← fields.lookup (ascii "rows")))
  else if kind = ascii "close" then
    let fields ← v.recordFields [ascii "kind", ascii "reason", ascii "exit_code"]
    return .close (← (← fields.lookup (ascii "reason")).asStr)
      (← (← fields.lookup (ascii "exit_code")).asIntIn (-2147483648) 2147483647)
  else none

/-- The parameters of a shell that the grant signs through their digest.
-/
structure SessionParameters where
  privilege : Bytes
  user : Bytes
  shell : Bytes
  maxFrameBytes : Int
  idleTimeoutSeconds : Int
  absoluteTimeoutSeconds : Int
  credentialsSha256 : Bytes
  deriving DecidableEq

def SessionParameters.ofJson (v : Json) : Option SessionParameters := do
  let fields ← v.recordFields [ascii "privilege", ascii "user", ascii "shell",
    ascii "max_frame_bytes", ascii "idle_timeout_seconds", ascii "absolute_timeout_seconds",
    ascii "credentials_sha256"]
  let privilege ← (← fields.lookup (ascii "privilege")).asStr
  let user ← (← fields.lookup (ascii "user")).asStr
  let shell ← (← fields.lookup (ascii "shell")).asStr
  let maxFrameBytes ← asU32 (← fields.lookup (ascii "max_frame_bytes"))
  let idleTimeoutSeconds ← asU32 (← fields.lookup (ascii "idle_timeout_seconds"))
  let absoluteTimeoutSeconds ← asU32 (← fields.lookup (ascii "absolute_timeout_seconds"))
  let credentialsSha256 ← (← fields.lookup (ascii "credentials_sha256")).asStr
  return ⟨privilege, user, shell, maxFrameBytes, idleTimeoutSeconds, absoluteTimeoutSeconds,
    credentialsSha256⟩

/-- The serialized parameters. -/
def SessionParameters.toJson (params : SessionParameters) : Json :=
  .obj [(ascii "privilege", .str params.privilege), (ascii "user", .str params.user),
    (ascii "shell", .str params.shell), (ascii "max_frame_bytes", .num params.maxFrameBytes),
    (ascii "idle_timeout_seconds", .num params.idleTimeoutSeconds),
    (ascii "absolute_timeout_seconds", .num params.absoluteTimeoutSeconds),
    (ascii "credentials_sha256", .str params.credentialsSha256)]

def isSha256Hex (value : Bytes) : Bool :=
  value.length = 64 && value.all fun b => (hexValue b).isSome

/-- `SessionParameters::validate`. -/
def SessionParameters.validate (params : SessionParameters) : Except String Unit :=
  if params.privilege ≠ ascii "low" ∧ params.privilege ≠ ascii "elevated" then
    .error "session privilege must be 'low' or 'elevated'"
  else if params.maxFrameBytes < 1024 ∨ 1024 * 1024 < params.maxFrameBytes then
    .error "session max_frame_bytes must be between 1024 and 1048576"
  else if params.idleTimeoutSeconds < 30 ∨ 86400 < params.idleTimeoutSeconds then
    .error "session idle timeout must be between 30 and 86400 seconds"
  else if params.absoluteTimeoutSeconds < 300 ∨ 86400 < params.absoluteTimeoutSeconds then
    .error "session absolute timeout must be between 300 and 86400 seconds"
  else if params.credentialsSha256 ≠ [] ∧ isSha256Hex params.credentialsSha256 = false then
    .error "session credentials_sha256 must be a SHA-256 hex digest or empty"
  else if 128 < params.user.length then
    .error "session user must be at most 128 characters"
  else if 256 < params.shell.length then
    .error "session shell must be at most 256 characters"
  else .ok ()

/-- The parameters in some bytes, if they decode and are valid. -/
def sessionParameters (parametersJson : Bytes) : Except String SessionParameters :=
  match (Json.parse parametersJson).bind SessionParameters.ofJson with
  | none => .error "decode session parameters"
  | some params => params.validate.map fun _ => params

/-! ### The shell -/

/-- Whether the shell runs as a user or elevated. -/
inductive SessionPrivilege where
  | low
  | elevated
  deriving DecidableEq

/-- What the broker hands to the platform to start a shell. -/
structure PtySessionSpec where
  privilege : SessionPrivilege
  user : Bytes
  shell : Bytes
  columns : Int
  rows : Int

/-- The commands of `shell_command`: a shell under the account of the
broker, or `/usr/bin/runuser -u user -- shell`. -/
inductive ShellCommand where
  | direct (shell : Bytes)
  | runuser (user shell : Bytes)
  deriving DecidableEq

/-- The account of the broker: `User=root` of the unit file, or the
`LocalSystem` of the service. -/
def brokerAccount : OperatingSystem → Bytes
  | .linux => ascii "root"
  | .windows => ascii "SYSTEM"

/-- The account that a command runs under. -/
def ShellCommand.account (os : OperatingSystem) : ShellCommand → Bytes
  | .direct _ => brokerAccount os
  | .runuser user _ => user

/-- `LINUX_ALLOWED_SHELLS` and `WINDOWS_ALLOWED_SHELLS`. -/
def allowedShells : OperatingSystem → List Bytes
  | .linux => [ascii "/bin/bash", ascii "/bin/sh"]
  | .windows => [ascii "cmd.exe", ascii "powershell.exe"]

/-- The program that a session asks for, the first one by default. On
Windows `resolve_shell_executable` adds the path of the system
directory. -/
def requestedShell (os : OperatingSystem) (shell : Bytes) : Except String Bytes :=
  if shell = [] then .ok ((allowedShells os).headD [])
  else if (allowedShells os).contains shell then .ok shell
  else .error ("requested shell " ++ debugText ((utf8Text shell).getD "") ++
    " is not in the broker allowlist")

def shellCommand (os : OperatingSystem) (spec : PtySessionSpec) : Except String ShellCommand :=
  match requestedShell os spec.shell with
  | .error e => .error e
  | .ok shell =>
    match spec.privilege, os with
    | .elevated, _ => .ok (.direct shell)
    | .low, .linux =>
      let user := if spec.user = [] then ascii "centrald" else spec.user
      if user = ascii "root" then
        .error "a low shell must not run as root; request an elevated shell instead"
      else .ok (.runuser user shell)
    | .low, .windows => .error
        ("low-privilege shells are not supported on this platform in this build; " ++
          "request an elevated shell instead")

/-- The size of the terminal: a `u16` between 2 and 500. -/
def terminalSize (n : Int) : Int := max 2 (min 500 (min n 65535))

/-! ### The program of a session -/

/-- What a session asks for. -/
inductive SessionOp where
  /-- `Utc::now()`. -/
  | utcNow
  /-- `BrokerLedger::grant_was_consumed`. -/
  | grantWasConsumed (grantId : Nat) (now : Int)
  /-- `GrantVerifier::verify_and_consume`. -/
  | verifyAndConsume (grant : SignedGrant) (now : Int)
  /-- `BrokerLedger::record_consumed_grant`. -/
  | recordConsumedGrant (grantId : Nat) (expiresAt : Int)
  /-- `SessionManager::reserve`. -/
  | reserve (sessionId : Nat)
  /-- `SessionManager::release`. -/
  | release (sessionId : Nat)
  /-- `validate_account_credentials`. -/
  | validateAccount (user password : Bytes)
  /-- `PtySession::open`, once its command is chosen. -/
  | openPty (command : ShellCommand) (columns rows : Int)
  | writeFrame (frame : SessionWireFrame)
  | runSession (params : SessionParameters) (sessionId : Nat)

/-- The replies to the operations of a session. -/
inductive SessionReply where
  | done
  | time (now : Int)
  | flag (b : Bool)
  | failed (error : String)
  deriving DecidableEq

/-- Programs of a session. -/
abbrev SessionM (α : Type) := ExceptT String (Prog SessionOp SessionReply) α

namespace SessionM

/-- An operation that may fail. -/
def act (op : SessionOp) : SessionM Unit :=
  ExceptT.mk (.call op fun r => .ret (match r with
    | .failed e => .error e
    | _ => .ok ()))

/-- A question that may fail. -/
def ask (op : SessionOp) : SessionM Bool :=
  ExceptT.mk (.call op fun r => .ret (match r with
    | .failed e => .error e
    | r => .ok (r == .flag true)))

/-- `Utc::now()`. -/
def utcNow : SessionM Int :=
  ExceptT.mk (.call .utcNow fun r => .ret (match r with
    | .time now => .ok now
    | _ => .error "clock"))

/-- Run a part and return its result, error or not. -/
def result {α : Type} (p : SessionM α) : SessionM (Except String α) :=
  ExceptT.mk (p.run >>= fun r => .ret (.ok r))

end SessionM

variable (env : ShellEnv)

def decodePassword (accountPasswordBase64 : Bytes) : Except String (Option Bytes) :=
  if accountPasswordBase64 = [] then .ok none
  else
    match env.sigs.decode accountPasswordBase64 with
    | none => .error "decode account password"
    | some decoded =>
      if (utf8Text decoded).isNone then .error "account password is not valid text"
      else .ok (some decoded)

/-- The account that the password is checked for: the one the frame
names, or else the signed one. -/
def namedUser (params : SessionParameters) (accountUser : Bytes) : Bytes :=
  if accountUser = [] then params.user else accountUser

/-- `resolve_credentials`: the password, once the system has accepted it
for the named account. -/
def resolveCredentials (params : SessionParameters) (frame : OpenFrame) :
    SessionM (Option Bytes) := do
  if frame.saveCredentials then
    throw "saved terminal credentials are unavailable in this alpha release"
  else if namedUser params frame.accountUser = [] then return none
  else
    match decodePassword env frame.accountPasswordBase64 with
    | .error e => throw e
    | .ok none => return none
    | .ok (some password) =>
      if params.credentialsSha256 ≠ [] ∧ env.sha256Hex password ≠ params.credentialsSha256 then
        throw "account password does not match the signed session parameters"
      else
        SessionM.act (.validateAccount (namedUser params frame.accountUser) password)
        return some password

/-- The checks between the credentials and the shell. -/
def checkAccount (params : SessionParameters) (accountUser : Bytes) (credentials : Option Bytes) :
    Except String Unit :=
  let user := namedUser params accountUser
  if params.privilege = ascii "elevated" ∧ credentials = none then
    .error "elevated shells require OS account credentials"
  else if params.privilege = ascii "low" ∧ user ≠ [] ∧ user ≠ ascii "centrald" ∧
      credentials = none then
    .error "low shells for a named OS account require a password"
  else if params.privilege = ascii "elevated" ∧ user ≠ ascii "root" ∧ env.os ≠ .windows then
    .error "elevated Linux shells require the root OS account"
  else .ok ()

/-- `PtySessionSpec` of a session. The account is the signed one. -/
def sessionSpec (params : SessionParameters) (frame : OpenFrame) : PtySessionSpec where
  privilege := if params.privilege = ascii "low" then .low else .elevated
  user := params.user
  shell := params.shell
  columns := frame.columns
  rows := frame.rows

/-- Give the slot back and report an error to the other side. -/
def refuseSession (sessionId : Nat) (message : String) : SessionM Unit := do
  SessionM.act (.release sessionId)
  SessionM.act (.writeFrame (.error (utf8Bytes message)))

/-- The end of `serve_session`: the shell is started, and its frames are
relayed. -/
def runShell (frame : OpenFrame) (params : SessionParameters) (command : ShellCommand) :
    SessionM Unit := do
  let sessionId := frame.grant.grant.jobOrSessionId
  let opened ← SessionM.result (SessionM.act
    (.openPty command (terminalSize frame.columns) (terminalSize frame.rows)))
  match opened with
  | .error e => refuseSession sessionId e
  | .ok () =>
    match ← SessionM.result (SessionM.act (.writeFrame (.opened sessionId []))) with
    | .error e =>
      SessionM.act (.release sessionId)
      throw e
    | .ok () =>
      let result ← SessionM.result (SessionM.act (.runSession params sessionId))
      SessionM.act (.release sessionId)
      match result with
      | .error e => throw e
      | .ok () => return ()

/-- `serve_session` from the reservation of a slot on. -/
def startSession (frame : OpenFrame) (params : SessionParameters) : SessionM Unit := do
  let sessionId := frame.grant.grant.jobOrSessionId
  SessionM.act (.reserve sessionId)
  match ← SessionM.result (resolveCredentials env params frame) with
  | .error e => refuseSession sessionId e
  | .ok credentials =>
    match checkAccount env params frame.accountUser credentials with
    | .error e => refuseSession sessionId e
    | .ok () =>
      match shellCommand env.os (sessionSpec params frame) with
      | .error e => refuseSession sessionId e
      | .ok command => runShell frame params command

/-- The checks of the grant: its parameters, and that it is new. -/
def consumeGrant (frame : OpenFrame) (parametersJson : Bytes) : SessionM Unit := do
  let grant := frame.grant.grant
  if env.sha256Hex parametersJson ≠ grant.parametersSha256 then
    throw "session parameters do not match the signed grant"
  else
    if ← SessionM.ask (.grantWasConsumed grant.id (← SessionM.utcNow)) then
      throw "grant was already consumed"
    else
      SessionM.act (.verifyAndConsume frame.grant (← SessionM.utcNow))
      SessionM.act (.recordConsumedGrant grant.id grant.expiresAt)

def serveSession (openBytes : Bytes) : SessionM Unit := do
  if env.terminalEnabled = false then
    throw "interactive terminal is unavailable in this alpha release"
  else
    match (Json.parse openBytes).bind (SessionWireFrame.ofJson env.texts) with
    | none => throw "decode session open frame"
    | some (.open frame) =>
      match env.sigs.decode frame.parametersBase64 with
      | none => throw "decode session parameters"
      | some parametersJson =>
        match sessionParameters parametersJson with
        | .error e => throw e
        | .ok params =>
          consumeGrant env frame parametersJson
          startSession env frame params
    | some _ => throw "the first session frame must be an open frame"

/-- The test of `dispatch_connection`: whether a connection is a session. -/
def isSessionOpen (firstFrame : Bytes) : Bool :=
  match Json.parse firstFrame with
  | none => false
  | some v => ((v.toValue.get (ascii "kind")).bind Json.asStr) == some (ascii "open")

/-! ### What the operations do -/

/-- The state that the connections of the broker share. -/
structure SessionState where
  clock : Int
  verifier : GrantVerifier env.sigs
  grants : Option Bytes
  sessions : List Nat

def maxConcurrentSessions : Nat := 8

variable {env}

/-- The other connections go on: they may consume grants, record them,
and open and close sessions. -/
structure Interferes (s t : SessionState env) : Prop where
  deviceId : t.verifier.deviceId = s.verifier.deviceId
  signingKey : t.verifier.signingKey = s.verifier.signingKey

/-- An answer of the operating system, a file or a connection. -/
def replyOf {α : Type} (f : α → SessionReply) : Except String α → SessionReply
  | .ok a => f a
  | .error e => .failed e

/-- The effect of an operation. -/
def SessionOp.Effect (s s' : SessionState env) (r : SessionReply) : SessionOp → Prop
  | .utcNow => s' = s ∧ r = .time s.clock
  | .grantWasConsumed grantId now => s' = s ∧
      r = replyOf (fun grants => .flag (grants.any fun g => g.1 == grantId))
        (loadConsumedGrants env s.grants now)
  | .verifyAndConsume grant now =>
    s' = { s with verifier := (s.verifier.verifyAndConsume env.texts grant now).1 } ∧
      r = match (s.verifier.verifyAndConsume env.texts grant now).2 with
        | .ok () => .done
        | .error e => .failed e.text
  | .recordConsumedGrant grantId expiresAt =>
    (s' = { s with
      grants := Ledger.recordConsumedGrant env s.grants (grantId, expiresAt) } ∧
      r = .done) ∨
      (s' = s ∧ ∃ e, r = .failed e)
  | .reserve sessionId =>
    if maxConcurrentSessions ≤ s.sessions.length then
      s' = s ∧
        r = .failed "the machine session limit was reached; close another terminal first"
    else s' = { s with sessions := s.sessions ++ [sessionId] } ∧ r = .done
  | .release sessionId =>
    s' = { s with sessions := s.sessions.filter fun other => other ≠ sessionId } ∧ r = .done
  | .validateAccount user password => s' = s ∧
      r = replyOf (fun _ => .done) (env.validateAccountCredentials user password)
  | .openPty _ _ _ | .writeFrame _ | .runSession _ _ =>
    s' = s ∧ (r = .done ∨ ∃ e, r = .failed e)

variable (env) in
/-- Sessions among the other connections. A session may stop at any
point, when its connection or the broker is gone. -/
def sessionSem : Sem SessionOp SessionReply (SessionState env) where
  effect op s s' r := ∃ t, Interferes s t ∧ op.Effect t s' r
  torn _ _ _ := False
  survives s s' := s' = s

end Centrald.Client
