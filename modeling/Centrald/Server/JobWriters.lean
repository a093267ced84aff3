import Centrald.Server.Sweep

/-!
# `Centrald.Server.JobWriters`: all transactions on one job

Every transaction that writes a job or its events, statement by
statement and any number of each at a time: `claim_next_job`,
`acknowledge_job_delivery`, `persist_job_event` and `maintenance_once`.

The first statement of the first three locks the row. What they read
afterwards, the aggregates of `persist_job_event` included, is what is
committed when the statement runs. The statements of `maintenance_once`
are those of `SweepStatement`. A transaction can end at any point.
-/

set_option autoImplicit false

namespace Centrald.Server

open Durable Common

variable {π : Type}

/-- A transaction on the job. -/
inductive JobWriter where
  | claim (now : Int) (identity deliveryId : Nat)
  | acknowledge (now : Int) (identity deliveryId : Nat)
  | event (now : Int) (identity : Nat) (sent : JobEvent) (nextState : JobState)
  | maintenance (now : Int)

/-- Whether the first statement locks the row. `SKIP LOCKED` and the
checks before the transaction are in the steps that are not taken. -/
def JobWriter.locks (record : JobRecord π) : JobWriter → Bool
  | .claim now identity _ => record.claimable identity now
  | .acknowledge _ _ _ => true
  | .event _ _ sent nextState => sent.accepted nextState
  | .maintenance _ => false

/-- What is written behind the lock. -/
def JobWriter.write (record : JobRecord π) : JobWriter → Except JobError (JobRecord π)
  | .claim now _ deliveryId => record.dispatch now deliveryId
  | .acknowledge now identity deliveryId => record.acknowledge now identity deliveryId
  | .event now identity sent nextState => record.persist now identity sent nextState
  | .maintenance _ => .ok record

/-- Where a transaction stands. The maintenance transaction is `ready` for
a statement with its own version of the job, if it has changed it. -/
inductive WriterPc (π : Type) where
  | begun
  | locked
  | written (new : JobRecord π)
  | ready (statement : SweepStatement) (draft : Option (JobRecord π))
  | waiting (statement : SweepStatement) (snapshot : JobRecord π)
  | finished (draft : Option (JobRecord π))

def JobWriter.start : JobWriter → WriterPc π
  | .maintenance _ => .ready .requeueDispatched none
  | _ => .begun

/-- The state behind a statement of the maintenance transaction. -/
def WriterPc.after (draft : Option (JobRecord π)) : SweepStatement → WriterPc π
  | .requeueDispatched => .ready .requeueAcknowledged draft
  | .requeueAcknowledged => .ready .timeOut draft
  | .timeOut => .finished draft

/-- The committed version of the job, the transaction that has locked its
row, and all transactions. -/
structure JobWriters (π : Type) where
  record : JobRecord π
  rowLock : Option Nat
  writers : Nat → Option (JobWriter × WriterPc π)

/-- Transactions on one job begin, take their next statement, and roll
back. -/
inductive WriterLabel where
  | begin (t : Nat) (writer : JobWriter)
  | step (t : Nat)
  | rollback (t : Nat)

namespace JobWriters

variable (s : JobWriters π)

def goto (t : Nat) (writer : JobWriter) (pc : WriterPc π) : JobWriters π :=
  { s with writers := Function.update s.writers t (some (writer, pc)) }

def take (t : Nat) : JobWriters π := { s with rowLock := some t }

/-- The end of a transaction. -/
def release (t : Nat) : JobWriters π :=
  { s with
    rowLock := if s.rowLock = some t then none else s.rowLock
    writers := Function.update s.writers t none }

def commit (t : Nat) (record : JobRecord π) : JobWriters π := { s.release t with record }

end JobWriters

/-- The transactions on a job. -/
def jobWriters (π : Type) : Machine (JobWriters π) WriterLabel where
  step s
    | .begin t writer =>
      match s.writers t with
      | none => some (s.goto t writer writer.start)
      | some _ => none
    | .step t =>
      match s.writers t with
      | some (writer, .begun) =>
        if s.rowLock = none ∧ writer.locks s.record then some ((s.take t).goto t writer .locked)
        else none
      | some (writer, .locked) =>
        match writer.write s.record with
        | .ok new => some (s.goto t writer (.written new))
        | .error _ => some (s.release t)
      | some (_, .written new) => some (s.commit t new)
      | some (.maintenance now, .ready statement draft) =>
        if statement.selects now (draft.getD s.record).row then
          match draft with
          | none => some (s.goto t (.maintenance now) (.waiting statement s.record))
          | some draft =>
            match statement.apply now draft.events draft with
            | .ok new => some (s.goto t (.maintenance now) (.after (some new) statement))
            | .error _ => some (s.release t)
        else some (s.goto t (.maintenance now) (.after draft statement))
      | some (.maintenance now, .waiting statement snapshot) =>
        if s.rowLock = none ∨ s.rowLock = some t then
          -- the condition is checked again on the latest version
          if statement.selects now s.record.row then
            match statement.apply now snapshot.events s.record with
            | .ok new => some ((s.take t).goto t (.maintenance now) (.after (some new) statement))
            | .error _ => some (s.release t)
          else some ((s.take t).goto t (.maintenance now) (.after none statement))
        else none
      | some (.maintenance _, .finished draft) => some (s.commit t (draft.getD s.record))
      | _ => none
    | .rollback t => some (s.release t)

end Centrald.Server
