import Centrald.Server.Shell

/-!
# `Centrald.Server.Elevation`: elevation challenges

The model of `begin_elevation`, `verify_elevation_challenge` and
`create_shell_session` (`shell.rs` of `centrald-server`) and of the
challenges that `shell_housekeeping` deletes (`services.rs`), for many
calls at once.

No call opens a transaction. Every statement is a transaction of its own,
and so a step: the check of a challenge and its consumption are two
steps of a call, and the session row and the grant are two more. The
clock of the server and `NOW()` are in the labels, and nothing relates
them. A call can end at any point.

An identity is inserted once and its elevation key is never updated. The
identifiers of challenges are new. The columns of `shell_sessions` that
are written when a session ends, and the audit records, are left out.
-/

set_option autoImplicit false

namespace Centrald.Server.Elevation

open Durable Common

/-! ### Rows and requests -/

def elevationChallengeTtlSeconds : Int := 300

def elevationDomain : Bytes := ascii "centrald-elevation-v1" ++ [0]

/-- A row of `elevation_challenges`. -/
structure ChallengeRow where
  id : Nat
  adminId : Nat
  targetId : Nat
  operation : String
  nonce : Bytes
  contextHash : Bytes
  expiresAt : Int
  consumedAt : Option Int
  deriving DecidableEq

/-- What an Admin asks a challenge for. -/
structure BeginElevationRequest where
  targetId : Nat
  operation : String
  reason : String

/-- `ShellOpen` with the fields of an elevated shell. The identifier is
`none` if its text is not a UUID. -/
structure ElevatedOpen extends ShellOpen where
  challengeId : Option Nat
  challengeSignature : Bytes

/-- A row of `shell_sessions`. -/
structure SessionRow where
  id : Nat
  targetId : Nat
  actorId : Nat
  privilege : Bytes
  reason : String

/-- What the configuration and other crates give: SHA-256, the two forms
of a UUID, and Ed25519 on the bytes of a key. -/
structure ElevationEnv where
  settings : ShellSettings
  sha256 : Bytes → Bytes
  sha256Hex : Bytes → Bytes
  uuidBytes : Nat → Bytes
  uuidText : Nat → Bytes
  isSignature : Bytes → Bool
  isKey : Bytes → Bool
  verify : Bytes → Bytes → Bytes → Bool

/-- What the Admin's elevation key signs. -/
def ChallengeRow.payload (row : ChallengeRow) : Bytes :=
  elevationDomain ++ row.nonce ++ row.contextHash

namespace ElevationEnv

variable (env : ElevationEnv)

/-- `begin_elevation`: the row to insert. `typedJobs` is the capability
of the target. -/
def beginElevation (actor : Nat) (request : BeginElevationRequest) (typedJobs : Bool) (now : Int)
    (challengeId : Nat) (nonce : Bytes) : Except String ChallengeRow :=
  if request.operation ≠ "open_shell" then .error "unsupported elevation operation"
  else if request.reason = "" ∨ 512 < (utf8Bytes request.reason).length ∨
      request.reason.toList.any isControl then
    .error "elevation reason is invalid"
  else if typedJobs = false then .error "target client does not support typed operations"
  else .ok
    { id := challengeId
      adminId := actor
      targetId := request.targetId
      operation := request.operation
      nonce := nonce
      contextHash := env.sha256 (env.uuidBytes request.targetId ++ utf8Bytes request.operation ++
        utf8Bytes request.reason)
      expiresAt := now + elevationChallengeTtlSeconds * second
      consumedAt := none }

/-- `verify_elevation_challenge` before its `UPDATE`. `find` is the
query: the row of a challenge with the elevation key of its Admin. -/
def checkElevationChallenge (actor : Nat) (request : ElevatedOpen)
    (find : Nat → Option (ChallengeRow × Option Bytes)) (now : Int) : Except String Unit :=
  match request.challengeId with
  | none => .error "challenge_id is invalid"
  | some challengeId =>
    if request.challengeSignature = [] then .error "elevation challenge signature is missing"
    else
      match find challengeId with
      | none => .error "elevation challenge does not exist"
      | some (row, elevationKey) =>
        if row.adminId ≠ actor ∨ row.targetId ≠ request.targetId then
          .error "elevation challenge is not for this target"
        else if row.expiresAt ≤ now then .error "elevation challenge has expired"
        else
          match elevationKey with
          | none => .error
              "the requesting Admin has no elevation key; re-enroll to enable elevated shells"
          | some key =>
            if key.length ≠ 32 then .error "the Admin elevation key is invalid"
            else if env.isSignature request.challengeSignature = false then
              .error "elevation challenge signature is invalid"
            else if env.isKey key = false then .error "the Admin elevation key is invalid"
            else if env.verify key row.payload request.challengeSignature = false then
              .error "elevation challenge signature does not verify"
            else .ok ()

end ElevationEnv

/-- The condition of the `UPDATE` that consumes a challenge. -/
def ChallengeRow.consumable (challengeId : Nat) (now : Int) (row : ChallengeRow) : Bool :=
  decide (row.id = challengeId ∧ row.consumedAt = none ∧ now < row.expiresAt)

def ChallengeRow.consume (challengeId : Nat) (now : Int) (row : ChallengeRow) : ChallengeRow :=
  if row.consumable challengeId now then { row with consumedAt := some now } else row

/-- The condition of the `DELETE` of `shell_housekeeping`. -/
def ChallengeRow.stale (now : Int) (row : ChallengeRow) : Bool :=
  decide (row.expiresAt ≤ now ∨ ∃ consumedAt ∈ row.consumedAt, consumedAt < now - 86400 * second)

/-! ### The calls -/

/-- Where a call of `open_shell` stands. -/
inductive OpenPc where
  | requested
  /-- The challenge is checked and is to be consumed. -/
  | checked (plan : ShellOpenPlan)
  /-- `validate_shell_open` has returned. -/
  | validated (plan : ShellOpenPlan)
  /-- The session row is inserted. -/
  | recorded (plan : ShellOpenPlan)

/-- A call of `open_shell` under way. -/
structure OpenCall where
  actor : Nat
  request : ElevatedOpen
  pc : OpenPc

/-- A challenge as it was inserted, and the reason of the request. -/
structure IssuedChallenge where
  row : ChallengeRow
  reason : String

/-- The tables and the calls. `issued`, `signatures`, `consumed` and
`grants` record what has happened: the challenges inserted, the payloads
that were signed with each key, the times at which challenges were
consumed, and the grants signed. -/
structure ElevationState where
  identities : Nat → Option (Option Bytes)
  challenges : List ChallengeRow
  sessions : List SessionRow
  calls : Nat → Option OpenCall
  issued : List IssuedChallenge
  signatures : List (Bytes × Bytes)
  consumed : List (Nat × Int)
  grants : List PrivilegedGrant

/-- The calls of Admins, `open_shell` line by line, what is signed with
the keys of Admins, and the housekeeping of the tables. -/
inductive ElevationLabel where
  | enroll (id : Nat) (elevationKey : Option Bytes)
  | sign (key payload : Bytes)
  | beginElevation (actor : Nat) (request : BeginElevationRequest) (typedJobs : Bool) (now : Int)
      (challengeId : Nat) (nonce : Bytes)
  | openShell (t actor : Nat) (request : ElevatedOpen)
  | validate (t : Nat) (typedJobs : Option Bool) (online : Bool) (now : Int) (sessionId : Nat)
  | consume (t : Nat) (now : Int)
  | record (t : Nat)
  | grant (t grantId : Nat) (issueTime expiryTime : Int)
  | fail (t : Nat)
  | housekeeping (now : Int)

namespace ElevationState

/-- No Admin, no challenge and no call. -/
def start : ElevationState where
  identities := fun _ => none
  challenges := []
  sessions := []
  calls := fun _ => none
  issued := []
  signatures := []
  consumed := []
  grants := []

variable (s : ElevationState)

/-- The query of `verify_elevation_challenge`, a left join. -/
def findChallenge (challengeId : Nat) : Option (ChallengeRow × Option Bytes) :=
  (s.challenges.find? fun row => row.id = challengeId).map fun row =>
    (row, (s.identities row.adminId).join)

def setCall (t : Nat) (call : Option OpenCall) : ElevationState :=
  { s with calls := Function.update s.calls t call }

end ElevationState

/-- The statements of all calls. -/
def elevationSystem (env : ElevationEnv) : Machine ElevationState ElevationLabel where
  step s
    | .enroll id elevationKey =>
      if s.identities id = none then
        some { s with identities := Function.update s.identities id (some elevationKey) }
      else none
    | .sign key payload => some { s with signatures := (key, payload) :: s.signatures }
    | .beginElevation actor request typedJobs now challengeId nonce =>
      if challengeId ∈ s.issued.map (·.row.id) then none
      else
        match env.beginElevation actor request typedJobs now challengeId nonce with
        | .error _ => some s
        | .ok row => some { s with
            challenges := row :: s.challenges
            issued := ⟨row, request.reason⟩ :: s.issued }
    | .openShell t actor request =>
      match s.calls t with
      | none => some (s.setCall t (some ⟨actor, request, .requested⟩))
      | some _ => none
    | .validate t typedJobs online now sessionId =>
      match s.calls t with
      | some ⟨actor, request, .requested⟩ =>
        match validateShellOpen env.sha256Hex env.settings typedJobs online
            (env.checkElevationChallenge actor request s.findChallenge now) request.toShellOpen
            sessionId with
        | .error _ => some (s.setCall t none)
        | .ok plan => some (s.setCall t (some ⟨actor, request,
            if plan.privilege = ascii "elevated" then .checked plan else .validated plan⟩))
      | _ => none
    | .consume t now =>
      match s.calls t with
      | some ⟨actor, request, .checked plan⟩ =>
        match request.challengeId with
        | none => none
        | some challengeId =>
          if s.challenges.any (·.consumable challengeId now) then
            some { s.setCall t (some ⟨actor, request, .validated plan⟩) with
              challenges := s.challenges.map (·.consume challengeId now)
              consumed := (challengeId, now) :: s.consumed }
          else some (s.setCall t none)
      | _ => none
    | .record t =>
      match s.calls t with
      | some ⟨actor, request, .validated plan⟩ =>
        if plan.sessionId ∈ s.sessions.map (·.id) then some (s.setCall t none)
        else some { s.setCall t (some ⟨actor, request, .recorded plan⟩) with
          sessions := ⟨plan.sessionId, plan.targetId, actor, plan.privilege, request.reason⟩ ::
            s.sessions }
      | _ => none
    | .grant t grantId issueTime expiryTime =>
      match s.calls t with
      | some ⟨actor, _, .recorded plan⟩ =>
        some { s.setCall t none with
          grants := shellGrant env.sha256Hex env.uuidText plan actor grantId issueTime expiryTime ::
            s.grants }
      | _ => none
    | .fail t => some (s.setCall t none)
    | .housekeeping now =>
      some { s with challenges := s.challenges.filter fun row => !row.stale now }

end Centrald.Server.Elevation
