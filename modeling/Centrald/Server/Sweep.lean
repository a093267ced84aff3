import Centrald.Server.Jobs

/-!
# `Centrald.Server.Sweep`: maintenance and events under READ COMMITTED

`maintenance_once` and `persist_job_event` on one job, statement by
statement. `persist_job_event` locks the row of the job with its first
statement, so it then reads and writes the latest version.
`maintenance_once` updates the row in three statements of one
transaction. Such a statement works on the snapshot taken when it
starts. If its condition holds there, it waits for the lock of the row.
Then it checks the condition again, on the latest version of the row,
and updates that version.

The third statement also inserts an event. Its sequence comes from a
subquery of the same statement, which reads `job_events` in the
snapshot. The unique index on `(job_id, sequence)` sees the latest
version.
-/

set_option autoImplicit false

namespace Centrald.Server

open Durable Common

variable {π : Type}

/-! ### The statements of the maintenance pass -/

/-- The three updates of one sweep, in their order. -/
inductive SweepStatement where
  | requeueDispatched
  | requeueAcknowledged
  | timeOut
  deriving DecidableEq

/-- The `WHERE` clause of a statement. -/
def SweepStatement.selects (now : Int) (row : JobRow π) : SweepStatement → Bool
  | .requeueDispatched => decide (row.state = .dispatched ∧
      (∃ lease ∈ row.deliveryLeaseExpiresAt, lease ≤ now) ∧ now < row.expiresAt)
  | .requeueAcknowledged => decide (row.state = .acknowledged ∧
      (∃ lease ∈ row.executionStartExpiresAt, lease ≤ now) ∧ now < row.expiresAt)
  | .timeOut => decide (isSweptState row.state ∧ row.expiresAt ≤ now)

/-- The sweep of a job, with the sequence taken from the events that the
statement sees. -/
def JobRecord.timeOutSeeing (seen : List EventRow) (now : Int) (record : JobRecord π) :
    Except JobError (JobRecord π) :=
  if isSweptState record.row.state ∧ record.row.expiresAt ≤ now then do
    let row ← { record.row with
      state := .timedOut
      deliveryId := none
      deliveryLeaseExpiresAt := none
      executionStartExpiresAt := none }.write
    let sequence := ((lastSequence seen).map (· + 1)).getD 0
    let events ← insertEvent record.events (timedOutEvent sequence)
    return ⟨row, events⟩
  else .ok record

/-- A statement on the latest version of the job. -/
def SweepStatement.apply (now : Int) (seen : List EventRow) (record : JobRecord π) :
    SweepStatement → Except JobError (JobRecord π)
  | .requeueDispatched => record.requeueDispatched now
  | .requeueAcknowledged => record.requeueAcknowledged now
  | .timeOut => record.timeOutSeeing seen now

/-! ### The transactions -/

/-- A transaction of `persist_job_event`. -/
inductive PersistPc (π : Type) where
  | idle
  /-- The row is locked and its checks have passed, at the time `now`. -/
  | checked (now : Int) (identity : Nat) (event : JobEvent) (nextState : JobState)
  /-- Both writes are made. -/
  | written (new : JobRecord π)

/-- Where the maintenance transaction stands. `now` is `NOW()`, the time
it began; `draft` is its own version of the job, if it has changed it. -/
inductive SweepPc (π : Type) where
  | idle
  | ready (now : Int) (statement : SweepStatement) (draft : Option (JobRecord π))
  /-- The snapshot satisfies the condition; the row is to be locked. -/
  | waiting (now : Int) (statement : SweepStatement) (snapshot : JobRecord π)
  | finished (draft : Option (JobRecord π))
  /-- A statement failed on the unique index. -/
  | aborted

/-- Who holds the lock of the row. -/
inductive LockHolder where
  | persist (t : Nat)
  | sweep
  deriving DecidableEq

/-- A job with the transactions on it. -/
structure SweepSystem (π : Type) where
  record : JobRecord π
  rowLock : Option LockHolder
  persists : Nat → PersistPc π
  sweep : SweepPc π

/-- A job that no transaction works on. -/
def SweepSystem.quiet (record : JobRecord π) : SweepSystem π where
  record := record
  rowLock := none
  persists := fun _ => .idle
  sweep := .idle

/-- What `persist_job_event` checks before its transaction. -/
def JobEvent.accepted (event : JobEvent) (nextState : JobState) : Bool :=
  decide (event.sequence < 2 ^ 63) && decide (event.output.length ≤ maxJobEventOutputBytes) &&
    decide (JobState.ofProto event.state = some nextState) && (jobStateName nextState).isSome &&
    (validateJobEventShape nextState event.terminal event.exitCode).toBool

/-- The checks on the locked row. -/
def JobRow.admits (row : JobRow π) (now : Int) (identity : Nat) (nextState : JobState) : Bool :=
  decide (row.targetId = identity) && decide (now < row.expiresAt) &&
    decide (row.state = .acknowledged → ∃ deadline ∈ row.executionStartExpiresAt, now < deadline) &&
    allowedTransition row.state nextState

/-- The state behind a statement. -/
def SweepPc.after (now : Int) (draft : Option (JobRecord π)) : SweepStatement → SweepPc π
  | .requeueDispatched => .ready now .requeueAcknowledged draft
  | .requeueAcknowledged => .ready now .timeOut draft
  | .timeOut => .finished draft

/-- A step of `persist_job_event` in the transaction `t`, or of the
maintenance transaction. -/
inductive SweepLabel where
  | lock (t : Nat) (now : Int) (identity : Nat) (event : JobEvent) (nextState : JobState)
  | write (t : Nat)
  | commit (t : Nat)
  | rollback (t : Nat)
  | begin (now : Int)
  | statement
  | take
  | commitSweep
  | rollbackSweep

namespace SweepSystem

/-- The end of the transaction `t`. -/
def release (s : SweepSystem π) (t : Nat) : SweepSystem π :=
  { s with
    rowLock := if s.rowLock = some (.persist t) then none else s.rowLock
    persists := Function.update s.persists t .idle }

/-- The end of the maintenance transaction. -/
def releaseSweep (s : SweepSystem π) : SweepSystem π :=
  { s with
    rowLock := if s.rowLock = some .sweep then none else s.rowLock
    sweep := .idle }

/-- A statement on the transaction's own version of the job. -/
def applyDraft (s : SweepSystem π) (now : Int) (statement : SweepStatement)
    (draft : JobRecord π) : SweepSystem π :=
  match statement.apply now draft.events draft with
  | .ok new => { s with sweep := .after now (some new) statement }
  | .error _ => { s with sweep := .aborted }

/-- A statement that has got the lock of the row. -/
def applyLatest (s : SweepSystem π) (now : Int) (statement : SweepStatement)
    (snapshot : JobRecord π) : SweepSystem π :=
  if statement.selects now s.record.row then
    match statement.apply now snapshot.events s.record with
    | .ok new => { s with rowLock := some .sweep, sweep := .after now (some new) statement }
    | .error _ => { s with sweep := .aborted }
  else { s with rowLock := some .sweep, sweep := .after now none statement }

end SweepSystem

/-- The transactions on a job. -/
def sweepSystem (π : Type) : Machine (SweepSystem π) SweepLabel where
  step s
    | .lock t now identity event nextState =>
      match s.persists t with
      | .idle =>
        if s.rowLock = none ∧ event.accepted nextState ∧
            s.record.row.admits now identity nextState then
          some { s with
            rowLock := some (.persist t)
            persists := Function.update s.persists t (.checked now identity event nextState) }
        else none
      | _ => none
    | .write t =>
      match s.persists t with
      | .checked now identity event nextState =>
        match s.record.persist now identity event nextState with
        | .ok new => some { s with persists := Function.update s.persists t (.written new) }
        | .error _ => some (s.release t)
      | _ => none
    | .commit t =>
      match s.persists t with
      | .written new => some { s.release t with record := new }
      | _ => none
    | .rollback t =>
      match s.persists t with
      | .idle => none
      | _ => some (s.release t)
    | .begin now =>
      match s.sweep with
      | .idle => some { s with sweep := .ready now .requeueDispatched none }
      | _ => none
    | .statement =>
      match s.sweep with
      | .ready now statement draft =>
        if statement.selects now (draft.getD s.record).row then
          match draft with
          | none => some { s with sweep := .waiting now statement s.record }
          | some draft => some (s.applyDraft now statement draft)
        else some { s with sweep := .after now draft statement }
      | _ => none
    | .take =>
      match s.sweep with
      | .waiting now statement snapshot =>
        if s.rowLock = none ∨ s.rowLock = some .sweep then
          some (s.applyLatest now statement snapshot)
        else none
      | _ => none
    | .commitSweep =>
      match s.sweep with
      | .finished draft => some { s.releaseSweep with record := draft.getD s.record }
      | _ => none
    | .rollbackSweep => some s.releaseSweep

end Centrald.Server
