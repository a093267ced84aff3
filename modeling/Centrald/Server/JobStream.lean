import Centrald.Server.Jobs
import Mathlib.Data.List.Sort

/-!
# `Centrald.Server.JobStream`: reading the log of a job

The model of `stream_job` of `services.rs`. A request opens a stream
with a cursor, the next sequence to read. The stream then polls: it
checks its lifetime, reads at most 128 events from the cursor on, sends
them and moves the cursor behind them. It stops after a terminal event,
or after the first poll if the request does not follow.

A poll reads one snapshot of the log, so it is one step. The
transactions on the jobs run between the polls. An authorization or
query error, or a client that goes away in the middle of a batch, ends
the stream early.
-/

set_option autoImplicit false

namespace Centrald.Server

open Durable Common

/-- The message `StreamJobRequest`. -/
structure StreamJobRequest where
  jobId : Nat
  fromSequence : Nat
  follow : Bool

/-- How a stream ends. -/
inductive StreamEnd where
  | finished
  | error (code : StatusCode) (message : String)
  | disconnected
  deriving DecidableEq

/-- A stream: what it reads, how far it is and what it has sent. -/
structure JobStream where
  jobId : Nat
  follow : Bool
  deadline : Int
  next : Int
  delivered : List JobEvent
  outcome : Option StreamEnd
  deriving DecidableEq

/-- `i64::saturating_add(1)`. -/
def saturatingSucc (n : Int) : Int := min (n + 1) (2 ^ 63 - 1)

/-- `LIMIT 128`. -/
def streamBatch : Nat := 128

/-- The query of a poll: the first events from `next` on. -/
def selectEvents (next : Int) (events : List EventRow) : List EventRow :=
  ((events.filter fun event => decide (next ≤ event.sequence)).insertionSort
    fun a b => a.sequence ≤ b.sequence).take streamBatch

/-- The message of an event. -/
def EventRow.message (jobId : Nat) (event : EventRow) : JobEvent where
  jobId := jobId
  sequence := event.sequence.toNat
  state := event.state.toProto
  output := event.output
  stderr := event.stderr
  exitCode := event.exitCode.getD 0
  terminal := event.terminal

/-- `stream_job` up to its loop, for an authenticated admin. -/
def openStream {π : Type} (db : JobsDb π) (request : StreamJobRequest) :
    Except JobError JobStream := do
  require (decide (request.fromSequence < 2 ^ 63))
    (.status .invalidArgument "from_sequence is too large")
  match db.find? fun record => decide (record.row.id = request.jobId) with
  | none => .error (.status .notFound "job does not exist")
  | some record =>
    return {
      jobId := request.jobId
      follow := request.follow
      deadline := record.row.expiresAt + 5 * 60 * second
      next := request.fromSequence
      delivered := []
      outcome := none }

namespace JobStream

/-- Send one event and move the cursor behind it. -/
def send (stream : JobStream) (event : EventRow) : JobStream :=
  { stream with
    next := saturatingSucc event.sequence
    delivered := stream.delivered ++ [event.message stream.jobId] }

/-- One turn of the loop. -/
def poll (stream : JobStream) (now : Int) (events : List EventRow) : JobStream :=
  if stream.deadline < now then
    { stream with outcome := some (.error .deadlineExceeded "job stream lifetime ended") }
  else
    let rows := selectEvents stream.next events
    let stream := rows.foldl send stream
    if rows.any EventRow.terminal || !stream.follow then
      { stream with outcome := some .finished }
    else stream

/-- A turn of the loop in which the client goes away after `sent` events
of the batch. -/
def cut (stream : JobStream) (sent : Nat) (events : List EventRow) : JobStream :=
  { ((selectEvents stream.next events).take sent).foldl send stream with
    outcome := some .disconnected }

end JobStream

/-- The events of a job. -/
def eventsOf {π : Type} (db : JobsDb π) (jobId : Nat) : List EventRow :=
  match db.find? fun record => decide (record.row.id = jobId) with
  | none => []
  | some record => record.events

/-- The jobs and a stream over one of them. -/
structure StreamSystem (π : Type) where
  db : JobsDb π
  stream : JobStream

/-- A step: a transaction on the jobs, or a turn of the stream. -/
inductive StreamLabel (π : Type) where
  | job (label : JobLabel π)
  | poll (now : Int)
  | fail (code : StatusCode) (message : String)
  | disconnect (sent : Nat)

/-- A stream among the transactions. -/
def streamSystem {π : Type} [DecidableEq π] (jsonb : π → π) :
    Machine (StreamSystem π) (StreamLabel π) where
  step s
    | .job label => (performJob jsonb s.db label).toOption.map fun db => { s with db }
    | .poll now =>
      if s.stream.outcome = none then
        some { s with stream := s.stream.poll now (eventsOf s.db s.stream.jobId) }
      else none
    | .fail code message =>
      if s.stream.outcome = none then
        some { s with stream := { s.stream with outcome := some (.error code message) } }
      else none
    | .disconnect sent =>
      if s.stream.outcome = none then
        some { s with stream := s.stream.cut sent (eventsOf s.db s.stream.jobId) }
      else none

end Centrald.Server
