import Centrald.Client.Broker
import Centrald.Server.Jobs

/-!
# `Centrald.Server.ControlStream`: the server's end of the control stream

The messages of the control stream that carry jobs, and the model of
`handle_client_frame` of `services.rs`. A heartbeat claims the oldest
queued job of the client and answers with a signed grant and the job;
an acknowledgement and an event are one transaction each
(`Centrald.Server.Jobs`). An error ends the stream.

The grant lives for `JOB_GRANT_VALIDITY_SECONDS` from the claim,
whatever the `expires_at` of the job is.

`claim_next_job` first asks whether the client has announced
`typed_jobs`, which the server allows only while
`PRIVILEGED_OPERATIONS_ENABLED` holds. The model is about a client that
has announced it, so `enabled` stands for both. Shell frames and the
contents of heartbeats are left out, as they touch no job.
-/

set_option autoImplicit false

namespace Centrald.Server

open Durable Common Client

/-- What the two ends of the stream take from elsewhere. The client and
the broker hold the public half of the key that signs. -/
structure ControlEnv extends BrokerEnv where
  /-- `serde_json::Value`. -/
  Value : Type
  [decEq : DecidableEq Value]
  /-- The round trip of a value through a `JSONB` column. -/
  jsonb : Value → Value
  /-- `serde_json::to_vec`. -/
  toVec : Value → Bytes
  /-- The Base64 text of the signature of a grant. -/
  signature : PrivilegedGrant → Bytes
  signature_verifies : ∀ grant, ∃ raw, sigs.decode (signature grant) = some raw ∧
    sigs.isSignature raw = true ∧ sigs.verify signingKey (signingPayload texts grant) raw = true

attribute [instance] ControlEnv.decEq

instance : Coe ControlEnv BrokerEnv := ⟨ControlEnv.toBrokerEnv⟩

/-! ### Messages -/

/-- The message `Job`, with the fields that the client reads, and
`expires_at`, which it does not read. -/
structure Job where
  id : Nat
  kind : JobKind
  parametersJson : Bytes
  deliveryId : Nat
  expiresAt : Int
  deriving DecidableEq

/-- The frames of the server on the control stream. -/
inductive ServerFrame where
  | heartbeatAck
  | signedGrant (grant : SignedGrant)
  | job (job : Job)
  deriving DecidableEq

/-- The frames of the client on the control stream. -/
inductive ClientFrame where
  | heartbeat
  | jobDeliveryAck (jobId deliveryId : Nat)
  | jobEvent (event : JobEvent)
  deriving DecidableEq

/-! ### Claims -/

/-- `JOB_GRANT_VALIDITY_SECONDS`: the delivery lease and an allowance for
the execution. -/
def jobGrantValidity : Int := (60 + 900) * second

def grantOperation : JobKind → GrantOperation
  | .restartClientService => .restartClientService
  | .restartMachine => .restartMachine
  | .checkOsUpdates => .checkOsUpdates
  | .applyOsUpdates => .applyOsUpdates
  | .updateClient => .updateClient

variable (env : ControlEnv)

/-- `PrivilegedGrant::sign`. -/
def ControlEnv.sign (grant : PrivilegedGrant) : SignedGrant where
  grant := grant
  signatureBase64 := env.signature grant

/-- The grant of a claimed job. -/
def jobGrant (row : JobRow env.Value) (now : Int) (deliveryId grantId : Nat) :
    PrivilegedGrant where
  id := grantId
  deviceId := env.deviceId
  jobOrSessionId := row.id
  adminId := row.actorId
  operation := grantOperation row.kind
  parametersSha256 := env.sha256Hex (env.toVec row.parameters)
  issuedAt := now - 5 * second
  expiresAt := now + jobGrantValidity
  nonce := env.texts.uuid deliveryId

/-- The message of a claimed job. -/
def jobMessage (row : JobRow env.Value) (deliveryId : Nat) : Job where
  id := row.id
  kind := row.kind
  parametersJson := env.toVec row.parameters
  deliveryId := deliveryId
  expiresAt := row.expiresAt

/-- The frames that follow the acknowledgement of a heartbeat. -/
def claimFrames (now : Int) (deliveryId grantId : Nat) :
    Option (JobRow env.Value) → List ServerFrame
  | none => []
  | some row =>
    [.signedGrant (env.sign (jobGrant env row now deliveryId grantId)),
      .job (jobMessage env row deliveryId)]

/-- `handle_client_frame`: the tables after a frame and the frames it
sends back. `locked` are the rows that other transactions hold, and the
identifiers are the fresh ones of a claim. -/
def handleClientFrame (jobs : JobsDb env.Value) (now : Int) (locked : Nat → Bool)
    (deliveryId grantId : Nat) :
    ClientFrame → Except JobError (JobsDb env.Value × List ServerFrame)
  | .heartbeat =>
    if env.enabled then do
      let (jobs, claimed) ← claimNextJob jobs locked env.deviceId now deliveryId
      return (jobs, .heartbeatAck :: claimFrames env now deliveryId grantId claimed)
    else return (jobs, [.heartbeatAck])
  | .jobDeliveryAck jobId deliveryId => do
    let jobs ← acknowledgeJobDelivery jobs now env.deviceId jobId deliveryId
    return (jobs, [])
  | .jobEvent event => do
    let jobs ← persistJobEvent jobs now env.deviceId event
    return (jobs, [])

end Centrald.Server
