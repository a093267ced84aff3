import Centrald.Common.Grant
import Centrald.Durable.Machine
import Mathlib.Algebra.Order.Ring.Int

/-!
# `Centrald.Server.Jobs`: jobs, their leases and their event log

The model of the tables `jobs` and `job_events` and of the functions of
`services.rs` that write them: `start_job`, `claim_next_job`,
`acknowledge_job_delivery`, `persist_job_event` and `maintenance_once`.
Each is one transaction. It fails with a gRPC status, or because a
constraint of the tables refuses a row, and then leaves the tables
alone; or it returns the new tables.

An event belongs to exactly one job (`job_events.job_id`), so a
`JobRecord` is a row of `jobs` with its rows of `job_events`, in the
order they were inserted. The `CHECK` constraints are tests on a row
(`JobRow.checks`, `EventRow.checks`) that every write runs. The columns
`updated_at` and `job_events.created_at` are left out, as nothing
depends on them. Times are in nanoseconds. `π` stands for JSON values.
-/

set_option autoImplicit false

namespace Centrald.Server

open Durable Common

/-! ### Constants -/

def maxJobEventOutputBytes : Nat := 64 * 1024

def maxJobRetainedOutputBytes : Nat := 1024 * 1024

def maxJobEvents : Nat := 4096

/-- `JOB_DELIVERY_LEASE_SECONDS`. -/
def jobDeliveryLease : Int := 60 * second

/-- `JOB_EXECUTION_START_LEASE_SECONDS`. -/
def jobExecutionStartLease : Int := 60 * second

/-! ### States, rows and their checks -/

/-- The jobs that an Admin can start. -/
inductive JobKind where
  | restartClientService
  | restartMachine
  | checkOsUpdates
  | applyOsUpdates
  | updateClient
  deriving DecidableEq

/-- The states of a job, in the order of the protocol. -/
inductive JobState where
  | unspecified
  | queued
  | dispatched
  | acknowledged
  | running
  | succeeded
  | failed
  | canceled
  | timedOut
  deriving DecidableEq

/-- `JobState::try_from`, from the number of the message. -/
def JobState.ofProto : Int → Option JobState
  | 0 => some .unspecified
  | 1 => some .queued
  | 2 => some .dispatched
  | 3 => some .acknowledged
  | 4 => some .running
  | 5 => some .succeeded
  | 6 => some .failed
  | 7 => some .canceled
  | 8 => some .timedOut
  | _ => none

/-- The number of a state in a message. -/
def JobState.toProto : JobState → Int
  | .unspecified => 0
  | .queued => 1
  | .dispatched => 2
  | .acknowledged => 3
  | .running => 4
  | .succeeded => 5
  | .failed => 6
  | .canceled => 7
  | .timedOut => 8

/-- `job_state_name`, which has no name for an unspecified state. -/
def jobStateName : JobState → Option String
  | .unspecified => none
  | .queued => some "queued"
  | .dispatched => some "dispatched"
  | .acknowledged => some "acknowledged"
  | .running => some "running"
  | .succeeded => some "succeeded"
  | .failed => some "failed"
  | .canceled => some "canceled"
  | .timedOut => some "timed_out"

def isTerminalJobState : JobState → Bool
  | .succeeded | .failed | .canceled | .timedOut => true
  | .unspecified | .queued | .dispatched | .acknowledged | .running => false

/-- A row of `jobs`. -/
structure JobRow (π : Type) where
  id : Nat
  requestId : Nat
  targetId : Nat
  actorId : Nat
  kind : JobKind
  state : JobState
  parameters : π
  reason : String
  idempotencyKey : Nat
  deliveryId : Option Nat
  deliveryLeaseExpiresAt : Option Int
  executionStartExpiresAt : Option Int
  expiresAt : Int
  createdAt : Int
  deriving DecidableEq

/-- A row of `job_events`. -/
structure EventRow where
  sequence : Int
  state : JobState
  output : Bytes
  stderr : Bool
  exitCode : Option Int
  terminal : Bool
  deriving DecidableEq

/-- A job with its events. -/
structure JobRecord (π : Type) where
  row : JobRow π
  events : List EventRow
  deriving DecidableEq

abbrev JobsDb (π : Type) := List (JobRecord π)

variable {π : Type}

/-- The `CHECK` constraints of `jobs`. -/
def JobRow.checks (row : JobRow π) : Bool :=
  decide (row.state ≠ .unspecified) &&
    decide (row.state = .dispatched) ==
      (row.deliveryId.isSome && row.deliveryLeaseExpiresAt.isSome) &&
    decide (row.state = .acknowledged) == row.executionStartExpiresAt.isSome

/-- The `CHECK` constraints of `job_events`. -/
def EventRow.checks (event : EventRow) : Bool :=
  decide (0 ≤ event.sequence) && decide (event.state ≠ .unspecified ∧ event.state ≠ .queued) &&
    decide (event.output.length ≤ 65536) && event.terminal == isTerminalJobState event.state

/-! ### Failures -/

/-- The status codes of the calls on jobs. -/
inductive StatusCode where
  | invalidArgument
  | notFound
  | alreadyExists
  | permissionDenied
  | failedPrecondition
  | resourceExhausted
  | deadlineExceeded
  | internal
  deriving DecidableEq

/-- Why a transaction fails. The source reports both kinds of constraint
as an internal error. -/
inductive JobError where
  | status (code : StatusCode) (message : String)
  /-- A `CHECK` refuses a row. -/
  | check
  /-- A key is taken. -/
  | duplicate
  deriving DecidableEq

/-- Go on if the condition holds. -/
def require (condition : Bool) (error : JobError) : Except JobError Unit :=
  if condition then .ok () else .error error

/-- Write a row of `jobs`. -/
def JobRow.write (row : JobRow π) : Except JobError (JobRow π) := do
  require row.checks .check
  return row

/-- Insert a row of `job_events`, whose key is the job and the sequence. -/
def insertEvent (events : List EventRow) (event : EventRow) : Except JobError (List EventRow) := do
  require event.checks .check
  require (!(events.map EventRow.sequence).contains event.sequence) .duplicate
  return events ++ [event]

/-- Change the job `id`, if there is one. -/
def modifyJob (id : Nat) (missing : JobError)
    (change : JobRecord π → Except JobError (JobRecord π)) : JobsDb π → Except JobError (JobsDb π)
  | [] => .error missing
  | record :: rest =>
    if record.row.id = id then do
      let record ← change record
      return record :: rest
    else do
      let rest ← modifyJob id missing change rest
      return record :: rest

/-- One statement over all jobs. -/
def modifyAllJobs (change : JobRecord π → Except JobError (JobRecord π)) :
    JobsDb π → Except JobError (JobsDb π)
  | [] => .ok []
  | record :: rest => do
    let record ← change record
    let rest ← modifyAllJobs change rest
    return record :: rest

/-- `MAX(sequence)`. -/
def lastSequence (events : List EventRow) : Option Int :=
  (events.map EventRow.sequence).max?

/-! ### Starting a job -/

/-- What `start_job` takes from a request that passed its checks. -/
structure StartJobRequest (π : Type) where
  requestId : Nat
  targetId : Nat
  kind : JobKind
  parameters : π
  reason : String
  deriving DecidableEq

/-- The row that `start_job` proposes; `jsonb` is the round trip of the
parameters through the column. -/
def StartJobRequest.row (request : StartJobRequest π) (jsonb : π → π) (id actor : Nat)
    (now expiresAt : Int) : JobRow π where
  id := id
  requestId := request.requestId
  targetId := request.targetId
  actorId := actor
  kind := request.kind
  state := .queued
  parameters := jsonb request.parameters
  reason := request.reason
  idempotencyKey := request.requestId
  deliveryId := none
  deliveryLeaseExpiresAt := none
  executionStartExpiresAt := none
  expiresAt := expiresAt
  createdAt := now

/-- The comparison of the returned row with the request. -/
def StartJobRequest.sameJob [DecidableEq π] (request : StartJobRequest π) (row : JobRow π) :
    Bool :=
  decide (row.targetId = request.targetId ∧ row.kind = request.kind ∧
    row.parameters = request.parameters ∧ row.reason = request.reason ∧
    row.idempotencyKey = request.requestId)

/-- The transaction of `start_job`, for a target that is active and
supports typed jobs. -/
def startJob [DecidableEq π] (jsonb : π → π) (db : JobsDb π) (actor : Nat)
    (request : StartJobRequest π) (id : Nat) (now expiresAt : Int) :
    Except JobError (JobsDb π × JobRow π) := do
  let conflict : JobRecord π → Bool := fun record =>
    decide (record.row.actorId = actor ∧ record.row.requestId = request.requestId)
  let used : JobError := .status .alreadyExists "request_id was already used for a different job"
  match db.find? conflict with
  | some record =>
    -- `ON CONFLICT DO UPDATE SET request_id = EXCLUDED.request_id`
    require (request.sameJob record.row) used
    return (db, record.row)
  | none =>
    require (!(db.map fun record => record.row.id).contains id) .duplicate
    let row ← (request.row jsonb id actor now expiresAt).write
    require (request.sameJob row) used
    return (db ++ [⟨row, []⟩], row)

/-! ### Delivery -/

/-- The event of a dispatch. -/
def dispatchedEvent : EventRow where
  sequence := 0
  state := .dispatched
  output := []
  stderr := false
  exitCode := none
  terminal := false

/-- The two statements of `claim_next_job` on the claimed job. -/
def JobRecord.dispatch (now : Int) (deliveryId : Nat) (record : JobRecord π) :
    Except JobError (JobRecord π) := do
  let row ← { record.row with
    state := .dispatched
    deliveryId := some deliveryId
    deliveryLeaseExpiresAt := some (now + jobDeliveryLease) }.write
  -- `ON CONFLICT DO NOTHING`
  if (record.events.map EventRow.sequence).contains 0 then return ⟨row, record.events⟩
  let events ← insertEvent record.events dispatchedEvent
  return ⟨row, events⟩

/-- The jobs that `claim_next_job` may claim. -/
def JobRecord.claimable (identity : Nat) (now : Int) (record : JobRecord π) : Bool :=
  decide (record.row.targetId = identity ∧ record.row.state = .queued ∧
    now < record.row.expiresAt)

/-- `claim_next_job`: the oldest job of the client that no other
transaction has locked. -/
def claimNextJob (db : JobsDb π) (locked : Nat → Bool) (identity : Nat) (now : Int)
    (deliveryId : Nat) : Except JobError (JobsDb π × Option (JobRow π)) := do
  let free := db.filter fun record =>
    record.claimable identity now && !locked record.row.id
  match free.minOn? fun record => record.row.createdAt with
  | none => return (db, none)
  | some record =>
    let db ← modifyJob record.row.id .duplicate (JobRecord.dispatch now deliveryId) db
    return (db, some record.row)

/-- `acknowledge_job_delivery` on the job. -/
def JobRecord.acknowledge (now : Int) (identity deliveryId : Nat) (record : JobRecord π) :
    Except JobError (JobRecord π) := do
  require (decide (record.row.targetId = identity))
    (.status .permissionDenied "job does not belong to client")
  require (decide (record.row.state = .dispatched ∧ record.row.deliveryId = some deliveryId ∧
      (∃ deadline ∈ record.row.deliveryLeaseExpiresAt, now < deadline) ∧
      now < record.row.expiresAt))
    (.status .failedPrecondition "job delivery lease is not active")
  let row ← { record.row with
    state := .acknowledged
    deliveryId := none
    deliveryLeaseExpiresAt := none
    executionStartExpiresAt := some (now + jobExecutionStartLease) }.write
  return ⟨row, record.events⟩

def acknowledgeJobDelivery (db : JobsDb π) (now : Int) (identity jobId deliveryId : Nat) :
    Except JobError (JobsDb π) :=
  modifyJob jobId (.status .notFound "job does not exist")
    (JobRecord.acknowledge now identity deliveryId) db

/-! ### Events -/

/-- The message `JobEvent`. -/
structure JobEvent where
  jobId : Nat
  sequence : Nat
  state : Int
  output : Bytes
  stderr : Bool
  exitCode : Int
  terminal : Bool
  deriving DecidableEq

def validateJobEventShape (state : JobState) (terminal : Bool) (exitCode : Int) :
    Except JobError Unit := do
  require (terminal == isTerminalJobState state)
    (.status .invalidArgument "terminal flag must exactly match a terminal job state")
  if isTerminalJobState state then
    require (!(decide (state = .succeeded ∧ exitCode ≠ 0)))
      (.status .invalidArgument "a succeeded job must report exit code zero")
  else
    require (decide (exitCode = 0))
      (.status .invalidArgument "non-terminal job events must not report an exit code")

/-- The transitions that an event may make. -/
def allowedTransition : JobState → JobState → Bool
  | .acknowledged, .running | .acknowledged, .succeeded | .acknowledged, .failed
  | .running, .running | .running, .succeeded | .running, .failed => true
  | _, _ => false

def validateJobTransition (current next : JobState) : Except JobError Unit :=
  let currentName := (jobStateName current).getD "unknown"
  let nextName := (jobStateName next).getD "unknown"
  require (allowedTransition current next)
    (.status .failedPrecondition
      s!"invalid job state transition from {currentName} to {nextName}")

/-- The row of an event. -/
def JobEvent.row (event : JobEvent) (state : JobState) : EventRow where
  sequence := event.sequence
  state := state
  output := event.output
  stderr := event.stderr
  exitCode := some event.exitCode
  terminal := event.terminal

/-- The transaction of `persist_job_event` on the job. -/
def JobRecord.persist (now : Int) (identity : Nat) (event : JobEvent) (nextState : JobState)
    (record : JobRecord π) : Except JobError (JobRecord π) := do
  require (decide (record.row.targetId = identity))
    (.status .permissionDenied "job does not belong to client")
  require (decide (now < record.row.expiresAt)) (.status .failedPrecondition "job has expired")
  require (decide (record.row.state = .acknowledged →
      ∃ deadline ∈ record.row.executionStartExpiresAt, now < deadline))
    (.status .failedPrecondition "job execution-start lease expired before the first event")
  validateJobTransition record.row.state nextState
  require (!(record.events.any EventRow.terminal || isTerminalJobState record.row.state))
    (.status .failedPrecondition "job is already terminal")
  let expectedSequence := (lastSequence record.events).getD (-1) + 1
  require (decide ((event.sequence : Int) = expectedSequence))
    (.status .failedPrecondition s!"job event sequence must be {expectedSequence}")
  require (decide (record.events.length < maxJobEvents))
    (.status .resourceExhausted "job event count limit reached")
  require (decide ((record.events.map fun e => e.output.length).sum + event.output.length ≤
      maxJobRetainedOutputBytes))
    (.status .resourceExhausted "job retained output limit reached")
  let events ← insertEvent record.events (event.row nextState)
  let row ← { record.row with state := nextState, executionStartExpiresAt := none }.write
  return ⟨row, events⟩

def persistJobEvent (db : JobsDb π) (now : Int) (identity : Nat) (event : JobEvent) :
    Except JobError (JobsDb π) := do
  require (decide (event.sequence < 2 ^ 63)) (.status .invalidArgument "sequence too large")
  require (decide (event.output.length ≤ maxJobEventOutputBytes))
    (.status .resourceExhausted "job event output exceeds the per-event limit")
  match JobState.ofProto event.state with
  | none => .error (.status .invalidArgument "invalid job state")
  | some nextState =>
    require (jobStateName nextState).isSome (.status .invalidArgument "job state is unsupported")
    validateJobEventShape nextState event.terminal event.exitCode
    modifyJob event.jobId (.status .notFound "job does not exist")
      (JobRecord.persist now identity event nextState) db

/-! ### Maintenance -/

/-- The first statement of `maintenance_once`. -/
def JobRecord.requeueDispatched (now : Int) (record : JobRecord π) :
    Except JobError (JobRecord π) :=
  if record.row.state = .dispatched ∧
      (∃ lease ∈ record.row.deliveryLeaseExpiresAt, lease ≤ now) ∧
      now < record.row.expiresAt then do
    let row ← { record.row with
      state := .queued, deliveryId := none, deliveryLeaseExpiresAt := none }.write
    return ⟨row, record.events⟩
  else .ok record

/-- The second statement. -/
def JobRecord.requeueAcknowledged (now : Int) (record : JobRecord π) :
    Except JobError (JobRecord π) :=
  if record.row.state = .acknowledged ∧
      (∃ lease ∈ record.row.executionStartExpiresAt, lease ≤ now) ∧
      now < record.row.expiresAt then do
    let row ← { record.row with state := .queued, executionStartExpiresAt := none }.write
    return ⟨row, record.events⟩
  else .ok record

/-- The event of a timeout. -/
def timedOutEvent (sequence : Int) : EventRow where
  sequence := sequence
  state := .timedOut
  output := []
  stderr := false
  exitCode := none
  terminal := true

/-- The states that the sweep ends. -/
def isSweptState : JobState → Bool
  | .queued | .dispatched | .acknowledged | .running => true
  | .unspecified | .succeeded | .failed | .canceled | .timedOut => false

/-- The third statement, the sweep of the expired jobs. -/
def JobRecord.timeOut (now : Int) (record : JobRecord π) : Except JobError (JobRecord π) :=
  if isSweptState record.row.state ∧ record.row.expiresAt ≤ now then do
    let row ← { record.row with
      state := .timedOut
      deliveryId := none
      deliveryLeaseExpiresAt := none
      executionStartExpiresAt := none }.write
    let sequence := ((lastSequence record.events).map (· + 1)).getD 0
    let events ← insertEvent record.events (timedOutEvent sequence)
    return ⟨row, events⟩
  else .ok record

/-- `maintenance_once` on the jobs. -/
def maintenanceOnce (db : JobsDb π) (now : Int) : Except JobError (JobsDb π) := do
  let db ← modifyAllJobs (JobRecord.requeueDispatched now) db
  let db ← modifyAllJobs (JobRecord.requeueAcknowledged now) db
  modifyAllJobs (JobRecord.timeOut now) db

/-! ### The interleaved transactions -/

/-- A transaction on the jobs. -/
inductive JobLabel (π : Type) where
  | start (actor : Nat) (request : StartJobRequest π) (id : Nat) (now expiresAt : Int)
  | claim (locked : Nat → Bool) (identity : Nat) (now : Int) (deliveryId : Nat)
  | acknowledge (now : Int) (identity jobId deliveryId : Nat)
  | event (now : Int) (identity : Nat) (event : JobEvent)
  | maintenance (now : Int)

/-- Whether the transaction is one of `start_job`. -/
def JobLabel.isStart : JobLabel π → Bool
  | .start _ _ _ _ _ => true
  | .claim _ _ _ _ | .acknowledge _ _ _ _ | .event _ _ _ | .maintenance _ => false

/-- The time of a transaction. -/
def JobLabel.now : JobLabel π → Int
  | .start _ _ _ now _ | .claim _ _ now _ | .acknowledge now _ _ _ | .event now _ _
  | .maintenance now => now

/-- The client that makes a transaction. -/
def JobLabel.client : JobLabel π → Option Nat
  | .claim _ identity _ _ | .acknowledge _ identity _ _ | .event _ identity _ => some identity
  | .start _ _ _ _ _ | .maintenance _ => none

/-- What a transaction does. -/
def performJob [DecidableEq π] (jsonb : π → π) (db : JobsDb π) :
    JobLabel π → Except JobError (JobsDb π)
  | .start actor request id now expiresAt =>
    Prod.fst <$> startJob jsonb db actor request id now expiresAt
  | .claim locked identity now deliveryId =>
    Prod.fst <$> claimNextJob db locked identity now deliveryId
  | .acknowledge now identity jobId deliveryId =>
    acknowledgeJobDelivery db now identity jobId deliveryId
  | .event now identity event => persistJobEvent db now identity event
  | .maintenance now => maintenanceOnce db now

/-- The transactions, in any order and at any times. -/
def jobTransactions [DecidableEq π] (jsonb : π → π) : Machine (JobsDb π) (JobLabel π) where
  step db label := (performJob jsonb db label).toOption

end Centrald.Server
