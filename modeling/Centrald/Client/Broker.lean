import Centrald.Client.Ledger
import Centrald.Durable.Machine

/-!
# `Centrald.Client.Broker`: the broker's executor

The model of `BrokerExecutor` in `centrald-client`, `broker.rs`. Every
connection runs `execute` on a thread of its own; the threads share the
verifier, the ledger and the lock `execution`. A section that a mutex
guards is one step of `executor`, and `Pc` names the points between the
sections. The clock is a step of its own, so any time may pass between
two sections, in particular while a call waits for the lock and while
an operation runs.

The state also keeps, for each start of `runner.run`, when it happened,
for which call, and how it ended (`Execution`), and when each job was
first marked. No step depends on these records.
-/

set_option autoImplicit false

namespace Centrald.Client

open Durable Common Platform Client.Ledger

/-- What the executor takes from elsewhere. `enabled` is
`PRIVILEGED_OPERATIONS_ENABLED`. -/
structure BrokerEnv extends LedgerEnv where
  sigs : Signatures
  deviceId : Nat
  signingKey : sigs.Key
  enabled : Bool

instance : Coe BrokerEnv LedgerEnv := ⟨BrokerEnv.toLedgerEnv⟩

/-- Run a ledger program on a file. -/
def runLedger {α : Type} (m : LedgerM α) (file : Option Bytes) :
    Except String α × Option Bytes :=
  (ExceptT.run m).run file

/-- `build_executor`: a verifier that knows the grants the journal holds. -/
def buildVerifier (env : BrokerEnv) (grantsFile : Option Bytes) (now : Int) :
    Except String (GrantVerifier env.sigs) :=
  match loadConsumedGrants env grantsFile now with
  | .error e => .error e
  | .ok grants =>
    .ok (grants.foldl (fun v g => v.restore g.1 g.2 now) (.new env.deviceId env.signingKey))

/-- What `execute` returns. -/
inductive CallResult where
  | ok (response : BrokerResponse)
  | failed (error : String)
  deriving DecidableEq

/-- Where a call of `execute` stands. -/
inductive Pc where
  /-- Before the verifier. -/
  | entered
  /-- The grant is consumed. -/
  | verified
  /-- The consumed grant is on disk. -/
  | recorded
  /-- The first lookup found nothing: the call waits for the lock. -/
  | waiting
  /-- The call holds the lock. -/
  | locked
  /-- The second lookup found nothing. -/
  | cleared
  /-- The marker is on disk. -/
  | marked
  /-- The operation runs. -/
  | running
  /-- The operation has returned. -/
  | ran (response : BrokerResponse)
  /-- The grant or the parameters were refused. -/
  | refused (error : String)
  | returned (result : CallResult)
  deriving DecidableEq

/-- One call of `execute`; `now` is the time at its entry. -/
structure Call where
  request : BrokerRequest
  now : Int
  pc : Pc
  deriving DecidableEq

def Call.grant (c : Call) : PrivilegedGrant := c.request.signedGrant.grant

/-- The job a call is for. -/
def Call.job (c : Call) : Nat := c.grant.jobOrSessionId

/-- How a started operation ended. -/
inductive ExecutionOutcome where
  | running
  | recorded (response : BrokerResponse)
  | failed
  deriving DecidableEq

/-- A start of `runner.run`. -/
structure Execution where
  job : Nat
  /-- The `now` of the call. -/
  now : Int
  grantExpiresAt : Int
  startedAt : Int
  outcome : ExecutionOutcome
  deriving DecidableEq

/-- The broker: its files, and its process while it is up. -/
structure BrokerState (env : BrokerEnv) where
  clock : Int
  ledger : Option Bytes
  grants : Option Bytes
  up : Bool
  verifier : GrantVerifier env.sigs
  /-- The call that holds `execution`. -/
  execution : Option Nat
  calls : Nat → Option Call
  /-- All starts of operations so far, newest first. -/
  executions : List Execution
  /-- For each job, the time its first durable marker carries. -/
  firstMarker : Nat → Option Int

/-- What can happen to the broker: each label carries one connection over
one line of `execute`, or is the crash or the restart of the process. -/
inductive BrokerLabel where
  /-- Time passes. -/
  | tick (clock : Int)
  /-- A connection enters `execute`. -/
  | call (i : Nat) (request : BrokerRequest)
  | verify (i : Nat)
  | record (i : Nat)
  | lookup (i : Nat)
  | acquire (i : Nat)
  | lookupAgain (i : Nat)
  | mark (i : Nat) (order : HashOrder)
  | run (i : Nat)
  /-- `runner.run` returns. -/
  | finish (i : Nat) (outcome : CallResult)
  | complete (i : Nat) (order : HashOrder)
  /-- The process or the machine dies between two appends. -/
  | crash
  /-- It dies inside an append, of which some first bytes are on disk. -/
  | crashRecord (i : Nat) (written : Nat)
  | crashMark (i : Nat) (order : HashOrder) (written : Nat)
  | crashComplete (i : Nat) (order : HashOrder) (written : Nat)
  | restart

namespace BrokerState

variable {env : BrokerEnv}

/-- Move a call. -/
def setPc (s : BrokerState env) (i : Nat) (c : Call) (pc : Pc) : BrokerState env :=
  { s with calls := Function.update s.calls i (some { c with pc }) }

/-- A call returns and gives back the lock if it holds it. -/
def finishCall (s : BrokerState env) (i : Nat) (c : Call) (result : CallResult) :
    BrokerState env :=
  { s.setPc i c (.returned result) with
    execution := if s.execution = some i then none else s.execution }

/-- The outcome of the operation that was started last. -/
def setOutcome (s : BrokerState env) (outcome : ExecutionOutcome) : BrokerState env :=
  { s with
    executions := match s.executions with
      | [] => []
      | e :: rest => { e with outcome } :: rest }

/-- The process is gone. What it wrote stays. -/
def halted (s : BrokerState env) : BrokerState env :=
  { s with up := false, execution := none, calls := fun _ => none }

/-- A marker of a job is on disk. -/
def noteMarker (s : BrokerState env) (job : Nat) (now : Int) : BrokerState env :=
  { s with
    firstMarker := if s.firstMarker job = none then
      Function.update s.firstMarker job (some now) else s.firstMarker }

end BrokerState

/-! ### The sections of `execute` -/

section Steps

variable (env : BrokerEnv) (s : BrokerState env) (i : Nat) (c : Call)

def inProgressText : String :=
  "job execution is already recorded as in progress; outcome unknown"

def interruptedText : String :=
  "job execution was interrupted and its outcome is unknown; " ++
    "verify the machine and resubmit if needed"

/-- The check of `PRIVILEGED_OPERATIONS_ENABLED` and `verify_and_consume`. -/
def verifyStep : BrokerState env :=
  if env.enabled = false then
    s.setPc i c (.refused "privileged operations are unavailable in this alpha release")
  else
    match s.verifier.verifyAndConsume env.texts c.request.signedGrant c.now with
    | (verifier, .ok ()) => { s with verifier }.setPc i c .verified
    | (verifier, .error e) => { s with verifier }.setPc i c (.refused e.text)

/-- `record_consumed_grant`. -/
def recordStep : BrokerState env :=
  { s with
    grants := recordConsumedGrant env s.grants (c.grant.id, c.grant.expiresAt)
  }.setPc i c .recorded

/-- The comparison of the parameters with the grant, and the first lookup. -/
def lookupStep : BrokerState env :=
  if env.sha256Hex c.request.parametersJson ≠ c.grant.parametersSha256 then
    s.setPc i c (.refused "operation parameters do not match the signed grant")
  else
    match runLedger (Ledger.lookup env c.job c.now) s.ledger with
    | (.error e, ledger) => { s with ledger }.finishCall i c (.failed e)
    | (.ok none, ledger) => { s with ledger }.setPc i c .waiting
    | (.ok (some (.completed r)), ledger) => { s with ledger }.finishCall i c (.ok r)
    | (.ok (some (.executing false)), ledger) =>
      { s with ledger }.finishCall i c (.failed inProgressText)
    | (.ok (some (.executing true)), ledger) =>
      { s with ledger }.finishCall i c (.failed interruptedText)

/-- The second lookup, under the lock. -/
def lookupAgainStep : BrokerState env :=
  match runLedger (Ledger.lookup env c.job c.now) s.ledger with
  | (.error e, ledger) => { s with ledger }.finishCall i c (.failed e)
  | (.ok none, ledger) => { s with ledger }.setPc i c .cleared
  | (.ok (some (.completed r)), ledger) => { s with ledger }.finishCall i c (.ok r)
  | (.ok (some (.executing _)), ledger) =>
    { s with ledger }.finishCall i c (.failed interruptedText)

/-- `mark_executing`, with its append given. -/
def markLedger (app : LedgerRecord → LedgerM Unit) : Except String Unit × Option Bytes :=
  runLedger (markExecutingWith env c.job c.grant.operation c.now app) s.ledger

def markStep (order : HashOrder) : BrokerState env :=
  match markLedger env s c (append env s.clock order) with
  | (.ok (), ledger) => ({ s with ledger }.noteMarker c.job c.now).setPc i c .marked
  | (.error e, ledger) => { s with ledger }.finishCall i c (.failed e)

/-- A crash inside the append of the marker. The marker is durable when
all of its line is on disk. -/
def crashMarkStep (order : HashOrder) (written : Nat) : BrokerState env :=
  match markLedger env s c fun r => appendCut env s.clock order r written with
  | (.ok (), ledger) =>
    let marker := executingMarker c.job c.grant.operation c.now
    if (recordLine env marker).length ≤ written then
      ({ s with ledger }.noteMarker c.job c.now).halted
    else { s with ledger }.halted
  | (.error _, ledger) => { s with ledger }.halted

/-- The start of `runner.run`. -/
def runStep : BrokerState env :=
  { s with
    executions :=
      { job := c.job, now := c.now, grantExpiresAt := c.grant.expiresAt,
        startedAt := s.clock, outcome := .running } :: s.executions
  }.setPc i c .running

/-- The end of `runner.run`. -/
def finishStep (outcome : CallResult) : BrokerState env :=
  match outcome with
  | .ok r => s.setPc i c (.ran r)
  | .failed e => (s.setOutcome .failed).finishCall i c (.failed e)

/-- `record_completed`, with its append given. -/
def completeLedger (r : BrokerResponse) (app : LedgerRecord → LedgerM Unit) :
    Except String Unit × Option Bytes :=
  runLedger (recordCompletedWith env c.job r c.now app) s.ledger

def completeStep (r : BrokerResponse) (order : HashOrder) : BrokerState env :=
  match completeLedger env s c r (append env s.clock order) with
  | (.ok (), ledger) => ({ s with ledger }.setOutcome (.recorded r)).finishCall i c (.ok r)
  | (.error e, ledger) => ({ s with ledger }.setOutcome .failed).finishCall i c (.failed e)

/-- A crash inside the append of the completed record. -/
def crashCompleteStep (r : BrokerResponse) (order : HashOrder) (written : Nat) :
    BrokerState env :=
  { s with
    ledger := (completeLedger env s c r fun record =>
      appendCut env s.clock order record written).2 }.halted

/-- A crash inside the append of the consumed grant. -/
def crashRecordStep (written : Nat) : BrokerState env :=
  { s with
    grants := some (s.grants.getD [] ++
      (consumedGrantLine env (c.grant.id, c.grant.expiresAt)).take written) }.halted

end Steps

/-- A step of the call `i`, which must stand at `pc`. -/
def BrokerState.atPc {env : BrokerEnv} (s : BrokerState env) (i : Nat) (pc : Pc)
    (f : Call → BrokerState env) : Option (BrokerState env) :=
  match s.calls i with
  | none => none
  | some c => if s.up = true ∧ c.pc = pc then some (f c) else none

/-- A step of the call `i`, whose operation must have returned. -/
def BrokerState.atRan {env : BrokerEnv} (s : BrokerState env) (i : Nat)
    (f : Call → BrokerResponse → BrokerState env) : Option (BrokerState env) :=
  match s.calls i with
  | none => none
  | some c =>
    match c.pc with
    | .ran r => if s.up = true then some (f c r) else none
    | _ => none

/-- The executor, step by step. -/
def executor (env : BrokerEnv) : Machine (BrokerState env) BrokerLabel where
  step s
    | .tick clock => if s.clock ≤ clock then some { s with clock } else none
    | .call i request =>
      if s.up = true ∧ s.calls i = none then
        some { s with calls := Function.update s.calls i (some ⟨request, s.clock, .entered⟩) }
      else none
    | .verify i => s.atPc i .entered (verifyStep env s i)
    | .record i => s.atPc i .verified (recordStep env s i)
    | .lookup i => s.atPc i .recorded (lookupStep env s i)
    | .acquire i =>
      if s.execution = none then
        s.atPc i .waiting fun c => { s with execution := some i }.setPc i c .locked
      else none
    | .lookupAgain i => s.atPc i .locked (lookupAgainStep env s i)
    | .mark i order => s.atPc i .cleared fun c => markStep env s i c order
    | .run i => s.atPc i .marked (runStep env s i)
    | .finish i outcome => s.atPc i .running fun c => finishStep env s i c outcome
    | .complete i order => s.atRan i fun c r => completeStep env s i c r order
    | .crash => if s.up = true then some s.halted else none
    | .crashRecord i written => s.atPc i .verified fun c => crashRecordStep env s c written
    | .crashMark i order written =>
      s.atPc i .cleared fun c => crashMarkStep env s c order written
    | .crashComplete i order written =>
      s.atRan i fun c r => crashCompleteStep env s c r order written
    | .restart =>
      if s.up = true then none
      else
        match buildVerifier env s.grants s.clock with
        | .error _ => none
        | .ok verifier => some { s with verifier, up := true }

/-- A broker that starts for the first time. -/
def BrokerState.fresh (env : BrokerEnv) (clock : Int) (ledger : Option Bytes) :
    BrokerState env where
  clock := clock
  ledger := ledger
  grants := none
  up := true
  verifier := .new env.deviceId env.signingKey
  execution := none
  calls := fun _ => none
  executions := []
  firstMarker := fun _ => none

end Centrald.Client
