import Centrald.Server.ControlStream

/-!
# `Centrald.Client.ControlStream`: the daemon's end of the control stream

The model of the loop of `connect_once` and of `handle_job`, in
`daemon.rs` of `centrald-client`. A `Session` is what one connection
keeps in memory: the grants that have arrived for jobs to come, and
where `handle_job` stands. `handle_job` runs inside the loop, so nothing
is received while it waits for the broker. It goes on without an answer
to what it sends.

All of it is lost with the connection.
-/

set_option autoImplicit false

namespace Centrald.Client

open Durable Common Platform Server

def maxPendingGrants : Nat := 128

/-- Where `handle_job` stands. -/
inductive JobPc where
  /-- In the loop, between two frames. -/
  | listening
  /-- The job matches its grant. -/
  | matched (job : Job) (grant : SignedGrant)
  /-- The acknowledgement is sent. -/
  | acknowledged (job : Job) (grant : SignedGrant)
  /-- The first event is sent. -/
  | started (job : Job) (grant : SignedGrant)
  /-- The broker has the request, as its call `call`. -/
  | submitted (job : Job) (call : Nat)
  /-- The broker has answered, or could not be asked. -/
  | answered (job : Job) (result : CallResult)
  deriving DecidableEq

/-- What one connection keeps in memory. -/
structure Session where
  connection : Nat
  /-- `grants`, a map from the jobs to their grants. -/
  grants : List SignedGrant
  pc : JobPc

/-- The bytes of a text. -/
def utf8 (text : String) : Bytes := text.toUTF8.data.toList

/-- The event that `send_job_event` sends. -/
def jobEvent (job : Job) (sequence : Nat) (state : JobState) (output : Bytes) (terminal : Bool) :
    JobEvent where
  jobId := job.id
  sequence := sequence
  state := state.toProto
  output := output
  stderr := decide (state = .failed)
  exitCode := if terminal ∧ state = .failed then 1 else 0
  terminal := terminal

/-- The first event. -/
def runningEvent (job : Job) : JobEvent :=
  jobEvent job 1 .running (utf8 "executing via the privileged broker") false

/-- The event of the broker's answer. -/
def resultEvent (job : Job) : CallResult → JobEvent
  | .ok response =>
    if response.success then jobEvent job 2 .succeeded response.output true
    else jobEvent job 2 .failed response.output true
  | .failed error => jobEvent job 2 .failed (utf8 error) true

variable (env : ControlEnv)

/-- A signed grant arrives. Expired ones are dropped first. -/
def Session.keepGrant (session : Session) (now : Int) (signed : SignedGrant) :
    Except String Session :=
  match signed.verify env.texts env.sigs env.signingKey env.deviceId now with
  | .error _ => .error "server sent an invalid signed grant"
  | .ok () =>
    let job := signed.grant.jobOrSessionId
    let pending := session.grants.filter fun existing => now < existing.grant.expiresAt
    if pending.all (fun existing => existing.grant.jobOrSessionId ≠ job) ∧
        maxPendingGrants ≤ pending.length then
      .error "server exceeded the bounded pending signed-grant set"
    else .ok
      { session with
        grants := signed :: pending.filter fun existing => existing.grant.jobOrSessionId ≠ job }

/-- The checks at the head of `handle_job`. The grant of the job is taken
out of the map. -/
def Session.matchJob (session : Session) (job : Job) : Except String Session :=
  if env.texts.uuid job.deliveryId = [] then
    .error "server sent a job without a delivery lease"
  else
    match session.grants.find? fun signed => signed.grant.jobOrSessionId = job.id with
    | none => .error "server did not provide a verified privileged-operation grant"
    | some signed =>
      let grant := signed.grant
      if grant.jobOrSessionId ≠ job.id ∨ grant.operation ≠ grantOperation job.kind ∨
          grant.nonce ≠ env.texts.uuid job.deliveryId ∨
          grant.parametersSha256 ≠ env.sha256Hex job.parametersJson then
        .error "signed grant does not match the delivered job"
      else .ok
        { session with
          grants := session.grants.filter fun other => other.grant.jobOrSessionId ≠ job.id
          pc := .matched job signed }

/-- A frame of the server arrives. An error leaves `connect_once`. -/
def Session.receive (session : Session) (now : Int) : ServerFrame → Except String Session
  | .heartbeatAck => .ok session
  | .signedGrant signed => session.keepGrant env now signed
  | .job job => session.matchJob env job

/-- The frame that `handle_job` sends next, and where it stands then. -/
def JobPc.send : JobPc → Option (ClientFrame × JobPc)
  | .matched job grant =>
    some (.jobDeliveryAck job.id job.deliveryId, .acknowledged job grant)
  | .acknowledged job grant => some (.jobEvent (runningEvent job), .started job grant)
  | .answered job result => some (.jobEvent (resultEvent job result), .listening)
  | .listening | .started _ _ | .submitted _ _ => none

/-- `WireResult`: what the broker writes back when `execute` is over. -/
def Pc.answer : Pc → Option CallResult
  | .returned result => some result
  | .refused error => some (.failed error)
  | _ => none

end Centrald.Client
