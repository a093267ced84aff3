import Centrald.Proofs.JobSteps
import Centrald.Server.Sweep

/-!
# `Centrald.Proofs.TimeoutSweep`: the sweep and concurrent events

The sweep takes the next sequence from the snapshot of its statement and
inserts it into the latest version. So it is safe as long as the events
of the job do not change between the two. `sweep_appends_next` proves
this under `SweepUncontended`: when the statement starts on an expired
job, no `persist_job_event` with a non-terminal event holds the row, and
while it waits none gets it. A terminal event in between does no harm.
It changes the state of the row, so the check of the latest version then
leaves the job alone.

`running_event_aborts_sweep` is a run without the condition. An event
holds the row when the statement starts and commits before the statement
gets the row. The job is still swept, with the number of that event.
-/

set_option autoImplicit false

namespace Centrald.Proofs

open Durable Server Common

variable {π : Type}

/-! ### What the operations return -/

section Operations

variable {record : JobRecord π} {now : Int}

/-- A requeued job is open and has its old events. -/
theorem requeueDispatched_eq (h : SweepStatement.requeueDispatched.selects now record.row = true) :
    Ends (fun _ => True) (fun new => isSweptState new.row.state = true ∧
      new.events = record.events) (record.requeueDispatched now) := by
  rw [JobRecord.requeueDispatched, if_pos (of_decide_eq_true h)]
  refine Ends.bind (write_eq _) ?_
  rintro row rfl
  exact ⟨rfl, rfl⟩

theorem requeueAcknowledged_eq
    (h : SweepStatement.requeueAcknowledged.selects now record.row = true) :
    Ends (fun _ => True) (fun new => isSweptState new.row.state = true ∧
      new.events = record.events) (record.requeueAcknowledged now) := by
  rw [JobRecord.requeueAcknowledged, if_pos (of_decide_eq_true h)]
  refine Ends.bind (write_eq _) ?_
  rintro row rfl
  exact ⟨rfl, rfl⟩

/-- The number of the next event of a job. -/
def nextSequence (events : List EventRow) : Int := (lastSequence events).getD (-1) + 1

theorem nextSequence_eq (events : List EventRow) :
    ((lastSequence events).map (· + 1)).getD 0 = nextSequence events := by
  rw [nextSequence]
  cases lastSequence events with
  | none => rfl
  | some last => rfl

theorem timeOut_eq (h : SweepStatement.timeOut.selects now record.row = true) :
    Ends (fun _ => True) (fun new => new.row.state = .timedOut ∧
      new.events = record.events ++ [timedOutEvent (nextSequence record.events)])
      (record.timeOut now) := by
  rw [JobRecord.timeOut, if_pos (of_decide_eq_true h)]
  refine Ends.bind (write_eq _) ?_
  rintro row rfl
  dsimp only
  rw [nextSequence_eq]
  refine Ends.bind (insertEvent_eq _ _) ?_
  rintro events rfl
  exact ⟨rfl, rfl⟩

/-- An event that passed the checks before the transaction. -/
theorem persist_keeps_of_accepted (h : RecordInv record) (now : Int) {event : JobEvent}
    {nextState : JobState} (haccepted : event.accepted nextState = true) (identity : Nat) :
    KeepsRecord record (record.persist now identity event nextState) := by
  rw [JobEvent.accepted] at haccepted
  obtain ⟨⟨⟨⟨-, houtput⟩, -⟩, -⟩, hshape⟩ := by simpa only [Bool.and_eq_true] using haccepted
  refine persist_keeps h now identity (of_decide_eq_true houtput) ?_
  cases hresult : validateJobEventShape nextState event.terminal event.exitCode with
  | error e =>
    rw [hresult] at hshape
    cases hshape
  | ok _ =>
    exact (ends_validateJobEventShape nextState event.terminal event.exitCode).of_ok hresult

end Operations

/-! ### The maintenance transaction's own version -/

/-- What the maintenance transaction has made of the committed job: it
is open with the same events, or timed out with the next event. -/
structure Drafted (record new : JobRecord π) : Prop where
  inv : RecordInv new
  change : (isSweptState new.row.state = true ∧ new.events = record.events) ∨
    (new.row.state = .timedOut ∧
      new.events = record.events ++ [timedOutEvent (nextSequence record.events)])

/-- A statement that sees all events of the job never fails. -/
theorem apply_drafts {record : JobRecord π} (h : RecordInv record) {now : Int}
    {statement : SweepStatement} (hselects : statement.selects now record.row = true) :
    ∃ new, statement.apply now record.events record = .ok new ∧ Drafted record new := by
  cases statement with
  | requeueDispatched =>
    obtain ⟨new, hnew, ⟨hinv, -⟩, hchange⟩ :=
      ((requeueDispatched_keeps h now).and (requeueDispatched_eq hselects)).exists_ok
    exact ⟨new, hnew, hinv, .inl hchange⟩
  | requeueAcknowledged =>
    obtain ⟨new, hnew, ⟨hinv, -⟩, hchange⟩ :=
      ((requeueAcknowledged_keeps h now).and (requeueAcknowledged_eq hselects)).exists_ok
    exact ⟨new, hnew, hinv, .inl hchange⟩
  | timeOut =>
    obtain ⟨new, hnew, ⟨hinv, -⟩, hchange⟩ :=
      ((timeOut_keeps h now).and (timeOut_eq hselects)).exists_ok
    exact ⟨new, hnew, hinv, .inr hchange⟩

/-- The statements only select open jobs. -/
theorem selects_swept {statement : SweepStatement} {now : Int} {row : JobRow π}
    (h : statement.selects now row = true) : isSweptState row.state = true := by
  cases statement with
  | requeueDispatched =>
    rw [(of_decide_eq_true h).1]
    rfl
  | requeueAcknowledged =>
    rw [(of_decide_eq_true h).1]
    rfl
  | timeOut => exact (of_decide_eq_true h).1

/-- A later statement on the transaction's own version. -/
theorem Drafted.apply {record draft : JobRecord π} (h : Drafted record draft) {now : Int}
    {statement : SweepStatement} (hselects : statement.selects now draft.row = true) :
    ∃ new, statement.apply now draft.events draft = .ok new ∧ Drafted record new := by
  obtain ⟨new, hnew, hdrafted⟩ := apply_drafts h.inv hselects
  refine ⟨new, hnew, hdrafted.inv, ?_⟩
  rcases h.change with ⟨-, hevents⟩ | ⟨hstate, -⟩
  · rw [← hevents]
    exact hdrafted.change
  · have hswept := selects_swept hselects
    rw [hstate] at hswept
    cases hswept

/-! ### The condition -/

/-- Whether the event of a transaction ends the job. -/
def PersistPc.isTerminal : PersistPc π → Bool
  | .idle => true
  | .checked _ _ _ nextState => isTerminalJobState nextState
  | .written new => isTerminalJobState new.row.state

/-- No event gets between the snapshot of the sweep and the row: when
the sweep finds the job expired, the transaction that holds the row ends
the job; while the sweep waits, a transaction that gets the row ends the
job or finds it expired. -/
def SweepUncontended (s : SweepSystem π) : SweepLabel → Prop
  | .statement => ∀ now, s.sweep = .ready now .timeOut none →
      SweepStatement.timeOut.selects now s.record.row = true →
      ∀ t, s.rowLock = some (.persist t) → PersistPc.isTerminal (s.persists t) = true
  | .lock _ now _ _ nextState => ∀ began snapshot, s.sweep = .waiting began .timeOut snapshot →
      isTerminalJobState nextState = true ∨ s.record.row.expiresAt ≤ now
  | _ => True

/-! ### The invariant -/

/-- The snapshot of the sweep still has all events of the job, unless
the job is over. -/
structure Undisturbed (s : SweepSystem π) (snapshot : JobRecord π) : Prop where
  events : isSweptState s.record.row.state = true → s.record.events = snapshot.events
  holder : ∀ t, s.rowLock = some (.persist t) → PersistPc.isTerminal (s.persists t) = true

/-- A version of the job that only its transaction sees. -/
def OwnDraft (s : SweepSystem π) (draft : Option (JobRecord π)) : Prop :=
  ∀ new, draft = some new → s.rowLock = some .sweep ∧ Drafted s.record new

/-- The invariant of the maintenance transaction. -/
def SweepPcInv (s : SweepSystem π) : SweepPc π → Prop
  | .idle => True
  | .ready _ _ draft => OwnDraft s draft
  | .waiting _ statement snapshot => statement = .timeOut → Undisturbed s snapshot
  | .finished draft => OwnDraft s draft
  | .aborted => False

/-- The invariant of the event transaction `t`, which holds the row. -/
def PersistPcInv (rowLock : Option LockHolder) (t : Nat) : PersistPc π → Prop
  | .idle => True
  | .checked _ _ event nextState =>
    rowLock = some (.persist t) ∧ event.accepted nextState = true
  | .written new => rowLock = some (.persist t) ∧ RecordInv new

/-- The record is sound, the transactions hold the lock of the row where
they have to, and the sweep is not aborted. -/
structure SweepInv (s : SweepSystem π) : Prop where
  record : RecordInv s.record
  persists : ∀ t, PersistPcInv s.rowLock t (s.persists t)
  sweep : SweepPcInv s s.sweep

theorem sweepInv_quiet {record : JobRecord π} (h : RecordInv record) :
    SweepInv (SweepSystem.quiet record) :=
  ⟨h, fun _ => trivial, trivial⟩

/-! ### Every run -/

theorem persistPcInv_iff {rowLock : Option LockHolder} {t : Nat} {pc : PersistPc π} :
    PersistPcInv rowLock t pc ↔ (pc ≠ .idle → rowLock = some (.persist t)) ∧
      (∀ now identity event nextState, pc = .checked now identity event nextState →
        event.accepted nextState = true) ∧ ∀ new, pc = .written new → RecordInv new := by
  cases pc <;> grind [PersistPcInv]

theorem sweepPcInv_iff {s : SweepSystem π} {pc : SweepPc π} : SweepPcInv s pc ↔ pc ≠ .aborted ∧
      (∀ now statement new, pc = .ready now statement (some new) →
        s.rowLock = some .sweep ∧ Drafted s.record new) ∧
      (∀ new, pc = .finished (some new) → s.rowLock = some .sweep ∧ Drafted s.record new) ∧
      ∀ now snapshot, pc = .waiting now .timeOut snapshot → Undisturbed s snapshot := by
  cases pc <;> grind [SweepPcInv, OwnDraft]

theorem SweepInv.step {s s' : SweepSystem π} {label : SweepLabel} (h : SweepInv s)
    (hG : SweepUncontended s label) (hstep : (sweepSystem π).step s label = some s') :
    SweepInv s' := by
  obtain ⟨hrecord, hpersists, hsweep⟩ := h
  have hdrafts := @apply_drafts π s.record hrecord
  have hagain := @Drafted.apply π s.record
  have hswept := @selects_swept π
  have hopen := @isTerminalJobState_of_swept
  have hkeeps (now : Int) (event : JobEvent) (nextState : JobState) (identity : Nat)
      (haccepted : event.accepted nextState = true) (new : JobRecord π)
      (hnew : s.record.persist now identity event nextState = .ok new) :
      RecordInv new ∧ new.row.state = nextState := by
    have hinv := ((persist_keeps_of_accepted hrecord now haccepted identity).of_ok hnew).1
    obtain ⟨-, -, -, -, -, -, -, rfl⟩ := persist_ok hnew
    exact ⟨hinv, rfl⟩
  have hafter (now : Int) (draft : Option (JobRecord π)) (statement : SweepStatement) :
      (∃ next, SweepPc.after now draft statement = .ready now next draft) ∨
        SweepPc.after now draft statement = .finished draft := by
    cases statement <;> simp [SweepPc.after]
  simp only [persistPcInv_iff] at hpersists
  rw [sweepPcInv_iff] at hsweep
  -- a statement that has waited sees all events of the job
  have hseen (now : Int) (statement : SweepStatement) (snapshot : JobRecord π)
      (hwaiting : s.sweep = .waiting now statement snapshot)
      (hselects : statement.selects now s.record.row = true) :
      statement.apply now snapshot.events s.record =
        statement.apply now s.record.events s.record := by
    cases statement with
    | timeOut => rw [(hsweep.2.2.2 now snapshot hwaiting).events (selects_swept hselects)]
    | _ => rfl
  have hdraft (draft : Option (JobRecord π)) : draft = none ∧ draft.getD s.record = s.record ∨
      ∃ new, draft = some new ∧ draft.getD s.record = new := by
    cases draft <;> simp
  cases label <;>
    dsimp only [sweepSystem, SweepSystem.applyDraft, SweepSystem.applyLatest] at hstep <;>
    repeat' (split at hstep)
  all_goals cases hstep
  all_goals
    constructor <;>
      dsimp only [SweepSystem.release, SweepSystem.releaseSweep] at * <;>
      try simp only [persistPcInv_iff, sweepPcInv_iff]
  all_goals
    grind [Undisturbed, SweepUncontended, PersistPc.isTerminal, JobRow.admits, Drafted]

/-- The sweep of any reachable job, beside any events that meet the
condition, never fails on the unique index. The event it adds has the
number after the largest committed one. -/
theorem sweep_appends_next [DecidableEq π] {jsonb : π → π} {db : JobsDb π}
    {record : JobRecord π} {s : SweepSystem π} (hdb : JobsReach jsonb [] db)
    (hrecord : record ∈ db)
    (hs : (sweepSystem π).Reaches SweepUncontended (SweepSystem.quiet record) s) :
    s.sweep ≠ .aborted ∧ ∀ draft, s.sweep = .finished (some draft) → draft.row.state = .timedOut →
        draft.events =
          s.record.events ++ [timedOutEvent ((lastSequence s.record.events).getD (-1) + 1)] := by
  have hstart : RecordInv record := (hdb.grows jobsInv_nil).1.records record hrecord
  have hinv : SweepInv s := hs.invariant (sweepInv_quiet hstart) fun _ _ _ => SweepInv.step
  have hsweep := hinv.sweep
  constructor
  · intro haborted
    rw [haborted] at hsweep
    exact hsweep
  · intro draft hfinished hstate
    rw [hfinished] at hsweep
    rcases (hsweep draft rfl).2.change with ⟨hswept, -⟩ | ⟨-, hevents⟩
    · rw [hstate] at hswept
      cases hswept
    · exact hevents

/-- The sample job while it runs, with its events 0 and 1. -/
def sampleRunning : JobRecord Nat where
  row := { sampleStart.row id 5 3 0 (900 * second) with state := .running }
  events := [dispatchedEvent, (sampleEvent 1 4 false).row .running]

theorem sampleRunning_reached : JobsReach id [] [sampleRunning] := by
  have hrun : (jobTransactions id).run (fun _ _ => true) ([] : JobsDb Nat)
      (sampleJobLabels.take 6) = some [sampleRunning] := by decide +kernel
  exact Machine.reaches_of_run hrun

/-- A check that is stronger than the condition: a statement starts on a
free row, and an event gets the row between two passes. -/
def sweepsAlone (s : SweepSystem π) : SweepLabel → Bool
  | .statement => decide (s.rowLock = none)
  | .lock _ _ _ _ _ =>
    match s.sweep with
    | .idle => true
    | _ => false
  | _ => true

theorem uncontended_of_sweepsAlone {s : SweepSystem π} {label : SweepLabel}
    (h : sweepsAlone s label = true) : SweepUncontended s label := by
  cases label with
  | statement =>
    intro now _ _ t hlock
    rw [of_decide_eq_true h] at hlock
    cases hlock
  | lock t now identity event nextState =>
    intro began snapshot hwaiting
    rw [sweepsAlone, hwaiting] at h
    cases h
  | _ => exact trivial

/-- The sweep has timed the job out, and the last event is number 2. -/
def timesOutAfterTwo (s : SweepSystem Nat) : Bool :=
  match s.sweep with
  | .finished (some draft) =>
    draft.row.state = .timedOut ∧ lastSequence s.record.events = some 2
  | _ => false

/-- Event 2 is stored in time. The sweep of the expired job adds event 3. -/
theorem sweep_appends_next_sample : ∃ s : SweepSystem Nat,
      (sweepSystem Nat).Reaches SweepUncontended (SweepSystem.quiet sampleRunning) s ∧
      ∃ draft, s.sweep = .finished (some draft) ∧ draft.row.state = .timedOut ∧
        draft.events = s.record.events ++ [timedOutEvent 3] := by
  have hrun : ((sweepSystem Nat).run sweepsAlone (SweepSystem.quiet sampleRunning)
      [.lock 0 (800 * second) 7 (sampleEvent 2 4 false) .running, .write 0, .commit 0,
        .begin (900 * second), .statement, .statement, .statement, .take]).map
      timesOutAfterTwo = some true := by decide +kernel
  obtain ⟨s, hreach, hend⟩ := Machine.reached_of_view (fun _ _ _ => uncontended_of_sweepsAlone) hrun
  obtain ⟨-, happends⟩ :=
    sweep_appends_next sampleRunning_reached (List.mem_singleton_self _) hreach
  refine ⟨s, hreach, ?_⟩
  unfold timesOutAfterTwo at hend
  split at hend
  case h_2 => cases hend
  case h_1 draft hfinished =>
    obtain ⟨hstate, hlast⟩ := of_decide_eq_true hend
    have hevents := happends draft hfinished hstate
    rw [hlast] at hevents
    exact ⟨draft, hfinished, hstate, hevents⟩

deriving instance DecidableEq for SweepPc

/-- Event 2 has the row before the job expires and is stored after the
sweep has started. The sweep then takes the number 2 as well. -/
theorem running_event_aborts_sweep : JobsReach id [] [sampleRunning] ∧ ∃ s : SweepSystem Nat,
      (sweepSystem Nat).Reaches (fun _ _ => True) (SweepSystem.quiet sampleRunning) s ∧
      s.sweep = .aborted :=
  ⟨sampleRunning_reached, Machine.exists_of_view (g := fun _ _ => true)
    (L := [.lock 0 (899 * second) 7 (sampleEvent 2 4 false) .running, .begin (900 * second),
      .statement, .statement, .statement, .write 0, .commit 0, .take]) (by decide +kernel)⟩

end Centrald.Proofs
