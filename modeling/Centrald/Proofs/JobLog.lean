import Centrald.Durable.Fallible
import Centrald.Server.Jobs
import Mathlib.Data.List.Nodup

/-!
# `Centrald.Proofs.JobLog`: the event log of a job

Every transaction on the jobs changes single records, one after the
other, so the invariant is one of records. `LogInv` is about the events
alone: they are numbered from 0 without a gap, and only the last one may
be terminal. `RecordInv` ties the state of the job to its events and to
the lease columns.

The lease columns are what makes the invariant inductive. A `CHECK`
compares each of them with the new state, and most updates write only
some of the columns, so the others must already be what the new state
asks for.

Each operation on a record has one spec lemma. It says that the
operation keeps the invariant and only extends the record
(`Extends`: the log grows at its end, a terminal state stays), and that
it never fails on a `CHECK`.
-/

set_option autoImplicit false

namespace Centrald.Proofs

open Durable Server Common

variable {π : Type}

/-! ### Logs -/

/-- The events are numbered from 0, and only the last may be terminal. -/
structure LogInv (events : List EventRow) : Prop where
  sequences : events.map EventRow.sequence = (List.range events.length).map Nat.cast
  terminalLast : ∀ event ∈ events.dropLast, event.terminal = false

theorem logInv_nil : LogInv [] := ⟨rfl, nofun⟩

variable {events : List EventRow}

section

variable (h : LogInv events)
include h

/-- A log without a terminal event grows by the next number. -/
theorem LogInv.concat {event : EventRow} (hopen : ∀ e ∈ events, e.terminal = false)
    (hsequence : event.sequence = events.length) :
    LogInv (events ++ [event]) := by
  constructor
  · rw [List.map_append, h.sequences, List.length_append, List.length_singleton, List.range_succ,
      List.map_append, List.map_singleton, List.map_singleton, hsequence]
  · grind

/-- The largest number of a log with events is one below its length. -/
theorem LogInv.lastSequence :
    lastSequence events = if events = [] then none else some (events.length - 1 : Int) := by
  rw [Server.lastSequence, h.sequences]
  split_ifs with hnil
  · subst hnil
    rfl
  · have hpos : 0 < events.length := List.length_pos_iff.2 hnil
    rw [List.max?_eq_some_iff]
    constructor
    · refine List.mem_map.2 ⟨events.length - 1, List.mem_range.2 (by omega), by omega⟩
    · grind

/-- The number that `persist_job_event` expects. -/
theorem LogInv.expected : (Server.lastSequence events).getD (-1) + 1 = events.length := by
  rw [h.lastSequence]
  grind

/-- The number that the sweep uses. -/
theorem LogInv.swept :
    ((Server.lastSequence events).map (· + 1)).getD 0 = (events.length : Int) := by
  rw [h.lastSequence]
  grind

/-- The next number is free. -/
theorem LogInv.fresh : (events.map EventRow.sequence).contains (events.length : Int) = false := by
  rw [h.sequences]
  grind

end

/-! ### Records -/

/-- A job between its start and its first event. -/
def isEarlyState : JobState → Bool
  | .queued | .dispatched | .acknowledged => true
  | .unspecified | .running | .succeeded | .failed | .canceled | .timedOut => false

/-- A job that a client has received at least once. -/
def isDeliveredState : JobState → Bool
  | .dispatched | .acknowledged | .running => true
  | .unspecified | .queued | .succeeded | .failed | .canceled | .timedOut => false

/-- The lease columns are set in the one state that needs them. -/
structure ColumnsInv (row : JobRow π) : Prop where
  specified : row.state ≠ .unspecified
  delivery : row.deliveryId.isSome = decide (row.state = .dispatched)
  lease : row.deliveryLeaseExpiresAt.isSome = decide (row.state = .dispatched)
  started : row.executionStartExpiresAt.isSome = decide (row.state = .acknowledged)

section

variable {row : JobRow π} (h : ColumnsInv row)
include h

theorem ColumnsInv.checks : row.checks = true := by
  rw [JobRow.checks, h.delivery, h.lease, h.started, Bool.and_self]
  simp [h.specified]

theorem ColumnsInv.no_delivery (hstate : row.state ≠ .dispatched) :
    row.deliveryId = none ∧ row.deliveryLeaseExpiresAt = none := by
  have hdelivery := h.delivery
  have hlease := h.lease
  rw [decide_eq_false hstate, Option.isSome_eq_false_iff, Option.isNone_iff_eq_none]
    at hdelivery hlease
  exact ⟨hdelivery, hlease⟩

theorem ColumnsInv.no_start (hstate : row.state ≠ .acknowledged) :
    row.executionStartExpiresAt = none := by
  have hstarted := h.started
  rw [decide_eq_false hstate, Option.isSome_eq_false_iff, Option.isNone_iff_eq_none] at hstarted
  exact hstarted

end

/-- The invariant of a job and its events. -/
structure RecordInv (record : JobRecord π) : Prop where
  columns : ColumnsInv record.row
  log : LogInv record.events
  flags : ∀ event ∈ record.events, event.terminal = isTerminalJobState event.state
  terminal : record.events.any EventRow.terminal = isTerminalJobState record.row.state
  sameState : ∀ event ∈ record.events, event.terminal = true → event.state = record.row.state
  early : isEarlyState record.row.state = true → record.events.length ≤ 1
  delivered : isDeliveredState record.row.state = true → 1 ≤ record.events.length
  room : isTerminalJobState record.row.state = false → record.events.length ≤ maxJobEvents
  bounded : record.events.length ≤ maxJobEvents + 1

/-- The updates of a job write the state and the lease columns only. -/
abbrev SameJob (old new : JobRow π) : Prop :=
  new = { old with
    state := new.state
    deliveryId := new.deliveryId
    deliveryLeaseExpiresAt := new.deliveryLeaseExpiresAt
    executionStartExpiresAt := new.executionStartExpiresAt }

theorem SameJob.trans {a b c : JobRow π} (hab : SameJob a b) (hbc : SameJob b c) : SameJob a c := by
  rw [hab] at hbc
  exact hbc

section

variable {old new : JobRow π} (h : SameJob old new)
include h

theorem SameJob.id : new.id = old.id := by
  rw [h]

theorem SameJob.targetId : new.targetId = old.targetId := by
  rw [h]

theorem SameJob.expiresAt : new.expiresAt = old.expiresAt := by
  rw [h]

end

/-- What no operation changes or takes back. -/
structure Extends (old new : JobRecord π) : Prop where
  same : SameJob old.row new.row
  terminal : isTerminalJobState old.row.state = true → new.row.state = old.row.state
  events : old.events <+: new.events

variable {old new : JobRecord π}

theorem Extends.id (h : Extends old new) : new.row.id = old.row.id :=
  h.same.id

theorem Extends.target (h : Extends old new) : new.row.targetId = old.row.targetId :=
  h.same.targetId

theorem Extends.expiresAt (h : Extends old new) : new.row.expiresAt = old.row.expiresAt :=
  h.same.expiresAt

theorem Extends.refl (record : JobRecord π) : Extends record record :=
  ⟨rfl, fun _ => rfl, List.prefix_rfl⟩

theorem Extends.trans {a b c : JobRecord π} (hab : Extends a b) (hbc : Extends b c) :
    Extends a c where
  same := hab.same.trans hbc.same
  terminal h := by
    have hb := hab.terminal h
    rw [hbc.terminal (by rw [hb]; exact h), hb]
  events := hab.events.trans hbc.events

/-- No operation fails on a `CHECK`. -/
abbrev NotCheck (error : JobError) : Prop := error ≠ .check

/-- An operation on a record does what all of them do. -/
def KeepsRecord (record : JobRecord π) (result : Except JobError (JobRecord π)) : Prop :=
  Ends NotCheck (fun new => RecordInv new ∧ Extends record new) result

variable {E : JobError → Prop}

theorem ends_require {condition : Bool} {error : JobError} (h : E error) :
    Ends E (fun _ => condition = true) (require condition error) := by
  cases condition with
  | true => exact rfl
  | false => exact h

theorem ends_write {row : JobRow π} (h : ColumnsInv row) :
    Ends E (fun new => new = row) row.write := by
  rw [JobRow.write, require, if_pos h.checks]
  exact rfl

/-- An event with the next number is accepted. -/
theorem ends_insertEvent {event : EventRow} (hlog : LogInv events) (hchecks : event.checks = true)
    (hsequence : event.sequence = events.length) :
    Ends E (fun new => new = events ++ [event]) (insertEvent events event) := by
  have hfresh : (!(events.map EventRow.sequence).contains event.sequence) = true := by
    rw [hsequence, hlog.fresh]
    rfl
  rw [insertEvent, require, if_pos hchecks, require, if_pos hfresh]
  exact rfl

/-- A log of a job that is not over has no terminal event. -/
theorem RecordInv.open {record : JobRecord π} (h : RecordInv record)
    (hstate : isTerminalJobState record.row.state = false) :
    ∀ event ∈ record.events, event.terminal = false := by
  intro event hevent
  have hany := h.terminal
  grind

section Change

variable {record : JobRecord π} {row : JobRow π}

section

variable (h : RecordInv record) (hcolumns : ColumnsInv row) (hsame : SameJob record.row row)
  (hold : isTerminalJobState record.row.state = false)
include h hcolumns hsame hold

/-- A change of state that is not the end of the job and adds no event. -/
theorem RecordInv.move (hnew : isTerminalJobState row.state = false)
    (hearly : isEarlyState row.state = true → record.events.length ≤ 1)
    (hdelivered : isDeliveredState row.state = true → 1 ≤ record.events.length) :
    RecordInv ⟨row, record.events⟩ ∧ Extends record ⟨row, record.events⟩ := by
  refine ⟨⟨hcolumns, h.log, h.flags, ?_, ?_, hearly, hdelivered, fun _ => h.room hold, h.bounded⟩,
    hsame, ?_, List.prefix_rfl⟩
  · rw [h.terminal, hold, hnew]
  · intro event hevent hterminal
    rw [h.open hold event hevent] at hterminal
    cases hterminal
  · intro hterminal
    rw [hold] at hterminal
    cases hterminal

/-- An event that brings the job to its own state. -/
theorem RecordInv.record_event {event : EventRow}
    (hsequence : event.sequence = record.events.length)
    (hterminal : event.terminal = isTerminalJobState event.state)
    (hstate : row.state = event.state)
    (hearly : isEarlyState row.state = true → record.events = [])
    (hroom : isTerminalJobState row.state = false → record.events.length < maxJobEvents) :
    RecordInv ⟨row, record.events ++ [event]⟩ ∧ Extends record ⟨row, record.events ++ [event]⟩ := by
  have hopen := h.open hold
  have hlength : (record.events ++ [event]).length = record.events.length + 1 := by
    rw [List.length_append, List.length_singleton]
  refine ⟨⟨hcolumns, h.log.concat hopen hsequence, ?_, ?_, ?_, ?_, ?_, ?_, ?_⟩,
    hsame, ?_, List.prefix_append _ _⟩
  · intro e he
    rcases List.mem_append.1 he with he | he
    · exact h.flags e he
    · obtain rfl := List.mem_singleton.1 he
      exact hterminal
  · show (record.events ++ [event]).any EventRow.terminal = isTerminalJobState row.state
    rw [List.any_append, h.terminal, hold, hstate, ← hterminal]
    simp
  · intro e he hend
    rcases List.mem_append.1 he with he | he
    · grind
    · grind
  · intro hstate'
    rw [hearly hstate']
    exact le_rfl
  · grind
  · grind
  · have hle := h.room hold
    show (record.events ++ [event]).length ≤ maxJobEvents + 1
    omega
  · intro hend
    rw [hold] at hend
    cases hend

end

end Change

/-! ### The operations on a record -/

section Operations

variable {record : JobRecord π}

variable {E : JobError → Prop}

section

variable (h : RecordInv record)
include h

/-- A claim finds no event, or the event 0 of an earlier dispatch. -/
theorem dispatch_keeps (hqueued : record.row.state = .queued) (now : Int) (deliveryId : Nat) :
    Ends E (fun new => RecordInv new ∧ Extends record new) (record.dispatch now deliveryId) := by
  have hstart := h.columns.no_start (by rw [hqueued]; decide)
  have hold : isTerminalJobState record.row.state = false := by rw [hqueued]; rfl
  have hlength := h.early (by rw [hqueued]; rfl)
  have hcolumns : ColumnsInv { record.row with
      state := .dispatched
      deliveryId := some deliveryId
      deliveryLeaseExpiresAt := some (now + jobDeliveryLease) } :=
    ⟨nofun, rfl, rfl, by rw [hstart]; rfl⟩
  rw [JobRecord.dispatch]
  refine Ends.bind (ends_write hcolumns) ?_
  rintro row rfl
  refine Ends.ite (fun hzero => Ends.pure ?_) fun hzero => ?_
  · have hpos : record.events ≠ [] := by
      grind
    exact h.move hcolumns rfl hold rfl (fun _ => hlength) fun _ => List.length_pos_iff.2 hpos
  · -- with one event its number would be 0
    have hnil : record.events = [] := by
      by_contra hne
      have hone : record.events.length = 1 := by
        have := List.length_pos_iff.2 hne
        omega
      rw [h.log.sequences, hone] at hzero
      exact hzero rfl
    have hsequence : dispatchedEvent.sequence = record.events.length := by
      rw [hnil]
      rfl
    refine Ends.bind (ends_insertEvent h.log rfl hsequence) ?_
    rintro events rfl
    exact h.record_event hcolumns rfl hold hsequence rfl rfl (fun _ => hnil)
      fun _ => by rw [hnil]; decide

theorem acknowledge_keeps (now : Int) (identity deliveryId : Nat) :
    KeepsRecord record (record.acknowledge now identity deliveryId) := by
  rw [JobRecord.acknowledge]
  refine Ends.bind (ends_require nofun) fun _ _ => ?_
  refine Ends.bind (ends_require nofun) fun _ hlease => ?_
  obtain ⟨hdispatched, -⟩ := of_decide_eq_true hlease
  have hcolumns : ColumnsInv { record.row with
      state := .acknowledged
      deliveryId := none
      deliveryLeaseExpiresAt := none
      executionStartExpiresAt := some (now + jobExecutionStartLease) } :=
    ⟨nofun, rfl, rfl, rfl⟩
  refine Ends.bind (ends_write hcolumns) ?_
  rintro row rfl
  refine h.move hcolumns rfl (by rw [hdispatched]; rfl) rfl (fun _ => ?_) fun _ => ?_
  · exact h.early (by rw [hdispatched]; rfl)
  · exact h.delivered (by rw [hdispatched]; rfl)

/-- The statements of the maintenance pass never fail. -/
theorem requeueDispatched_keeps (now : Int) :
    Ends E (fun new => RecordInv new ∧ Extends record new) (record.requeueDispatched now) := by
  rw [JobRecord.requeueDispatched]
  refine Ends.ite (fun hlease => ?_) fun _ => Ends.pure ⟨h, .refl record⟩
  have hdispatched := hlease.1
  have hstart := h.columns.no_start (by rw [hdispatched]; decide)
  have hcolumns : ColumnsInv { record.row with
      state := .queued, deliveryId := none, deliveryLeaseExpiresAt := none } :=
    ⟨nofun, rfl, rfl, by rw [hstart]; rfl⟩
  refine Ends.bind (ends_write hcolumns) ?_
  rintro row rfl
  refine h.move hcolumns rfl (by rw [hdispatched]; rfl) rfl (fun _ => ?_) nofun
  exact h.early (by rw [hdispatched]; rfl)

theorem requeueAcknowledged_keeps (now : Int) :
    Ends E (fun new => RecordInv new ∧ Extends record new) (record.requeueAcknowledged now) := by
  rw [JobRecord.requeueAcknowledged]
  refine Ends.ite (fun hlease => ?_) fun _ => Ends.pure ⟨h, .refl record⟩
  have hacknowledged := hlease.1
  obtain ⟨hdelivery, hdeadline⟩ := h.columns.no_delivery (by rw [hacknowledged]; decide)
  have hcolumns : ColumnsInv { record.row with
      state := .queued, executionStartExpiresAt := none } :=
    ⟨nofun, by rw [hdelivery]; rfl, by rw [hdeadline]; rfl, rfl⟩
  refine Ends.bind (ends_write hcolumns) ?_
  rintro row rfl
  refine h.move hcolumns rfl (by rw [hacknowledged]; rfl) rfl (fun _ => ?_) nofun
  exact h.early (by rw [hacknowledged]; rfl)

end

theorem isTerminalJobState_of_swept {state : JobState} (h : isSweptState state = true) :
    isTerminalJobState state = false := by
  cases state with
  | queued | dispatched | acknowledged | running => rfl
  | unspecified | succeeded | failed | canceled | timedOut => cases h

/-- A timeout extends the log by its terminal event. -/
theorem timeOut_keeps (h : RecordInv record) (now : Int) :
    Ends E (fun new => RecordInv new ∧ Extends record new) (record.timeOut now) := by
  rw [JobRecord.timeOut]
  refine Ends.ite (fun hexpired => ?_) fun _ => Ends.pure ⟨h, .refl record⟩
  have hold := isTerminalJobState_of_swept hexpired.1
  have hcolumns : ColumnsInv { record.row with
      state := .timedOut
      deliveryId := none
      deliveryLeaseExpiresAt := none
      executionStartExpiresAt := none } :=
    ⟨nofun, rfl, rfl, rfl⟩
  refine Ends.bind (ends_write hcolumns) ?_
  rintro row rfl
  have hsequence : (timedOutEvent (((lastSequence record.events).map (· + 1)).getD 0)).sequence =
      record.events.length := h.log.swept
  have hchecks : (timedOutEvent (((lastSequence record.events).map (· + 1)).getD 0)).checks =
      true := by
    rw [EventRow.checks, hsequence]
    simp [timedOutEvent, isTerminalJobState]
  refine Ends.bind (ends_insertEvent h.log hchecks hsequence) ?_
  rintro events rfl
  exact h.record_event hcolumns rfl hold hsequence rfl rfl nofun nofun

variable {current : JobState}

/-- An event takes a job that was acknowledged to one that runs or is
over. -/
theorem allowedTransition_cases {next : JobState}
    (h : allowedTransition current next = true) :
    current ≠ .dispatched ∧ isEarlyState next = false ∧ next ≠ .unspecified := by
  revert h
  cases current <;> cases next <;> decide

/-- What the checks of `persist_job_event` say about the event. -/
theorem ends_validateJobEventShape (state : JobState) (terminal : Bool) (exitCode : Int) :
    Ends NotCheck (fun _ => terminal = isTerminalJobState state)
      (validateJobEventShape state terminal exitCode) := by
  rw [validateJobEventShape]
  refine Ends.bind (ends_require nofun) fun _ hterminal => ?_
  have hshape : terminal = isTerminalJobState state := beq_iff_eq.1 hterminal
  split_ifs
  · exact Ends.imp (ends_require (by exact nofun)) fun _ _ => hshape
  · exact Ends.imp (ends_require (by exact nofun)) fun _ _ => hshape

/-- The state that an event brings is none of a job that waits. -/
theorem ne_of_allowedTransition {next state : JobState}
    (h : allowedTransition current next = true) (hearly : isEarlyState state = true) :
    next ≠ state := by
  intro heq
  have hnext := (allowedTransition_cases h).2.1
  rw [heq, hearly] at hnext
  cases hnext

variable {nextState : JobState}

/-- The row of an event that may come passes its checks. -/
theorem checks_event {event : JobEvent}
    (h : allowedTransition current nextState = true)
    (houtput : event.output.length ≤ maxJobEventOutputBytes)
    (hterminal : event.terminal = isTerminalJobState nextState) :
    (event.row nextState).checks = true := by
  simp only [EventRow.checks, Bool.and_eq_true, decide_eq_true_eq, beq_iff_eq]
  exact ⟨⟨⟨Int.natCast_nonneg _, (allowedTransition_cases h).2.2, ne_of_allowedTransition h rfl⟩,
    houtput⟩, hterminal⟩

/-- An event leaves no lease. -/
theorem ColumnsInv.event {row : JobRow π} (h : ColumnsInv row)
    (hallowed : allowedTransition row.state nextState = true) :
    ColumnsInv { row with state := nextState, executionStartExpiresAt := none } := by
  obtain ⟨hcurrent, -, hspecified⟩ := allowedTransition_cases hallowed
  obtain ⟨hdelivery, hdeadline⟩ := h.no_delivery hcurrent
  have hdispatched : nextState ≠ .dispatched := ne_of_allowedTransition hallowed rfl
  have hacknowledged : nextState ≠ .acknowledged := ne_of_allowedTransition hallowed rfl
  refine ⟨hspecified, ?_, ?_, (decide_eq_false hacknowledged).symm⟩
  · grind
  · grind

/-- An accepted event extends the log and keeps its bounds. -/
theorem persist_keeps (h : RecordInv record) (now : Int) (identity : Nat) {event : JobEvent}
    (houtput : event.output.length ≤ maxJobEventOutputBytes)
    (hterminal : event.terminal = isTerminalJobState nextState) :
    KeepsRecord record (record.persist now identity event nextState) := by
  rw [JobRecord.persist]
  refine Ends.bind (ends_require nofun) fun _ _ => ?_
  refine Ends.bind (ends_require nofun) fun _ _ => ?_
  refine Ends.bind (ends_require nofun) fun _ _ => ?_
  refine Ends.bind (ends_require nofun) fun _ htransition => ?_
  refine Ends.bind (ends_require nofun) fun _ hopen => ?_
  refine Ends.bind (ends_require nofun) fun _ hsequence => ?_
  refine Ends.bind (ends_require nofun) fun _ hcount => ?_
  refine Ends.bind (ends_require nofun) fun _ _ => ?_
  have hsequence' : (event.row nextState).sequence = record.events.length := by
    rw [← h.log.expected]
    exact of_decide_eq_true hsequence
  have hchecks := checks_event htransition houtput hterminal
  refine Ends.bind (ends_insertEvent h.log hchecks hsequence') ?_
  rintro events rfl
  have hcolumns := h.columns.event htransition
  refine Ends.bind (ends_write hcolumns) ?_
  rintro row rfl
  have hold : isTerminalJobState record.row.state = false := by
    grind
  refine h.record_event hcolumns rfl hold hsequence' hterminal rfl (fun hearly => ?_)
    fun _ => of_decide_eq_true hcount
  rw [(allowedTransition_cases htransition).2.1] at hearly
  cases hearly

end Operations

/-! ### The operations on the tables -/

/-- Each job is extended, and no job comes or goes. -/
abbrev Evolves (db new : JobsDb π) : Prop :=
  List.Forall₂ (fun old new => RecordInv new ∧ Extends old new) db new

theorem Evolves.trans {a b c : JobsDb π} (hab : Evolves a b) (hbc : Evolves b c) : Evolves a c :=
  forall₂_comp (fun _ _ _ hxy hyz => ⟨hyz.1, hxy.2.trans hyz.2⟩) hab hbc

/-- Every job is there, once, with its invariant. -/
structure JobsInv (db : JobsDb π) : Prop where
  ids : (db.map fun record => record.row.id).Nodup
  records : ∀ record ∈ db, RecordInv record

/-- Every job of the old tables is in the new ones, extended. -/
def Grows (old new : JobsDb π) : Prop :=
  ∀ record ∈ old, ∃ extended ∈ new, Extends record extended

theorem Grows.refl (db : JobsDb π) : Grows db db :=
  fun record hrecord => ⟨record, hrecord, .refl record⟩

theorem Grows.trans {a b c : JobsDb π} (hab : Grows a b) (hbc : Grows b c) : Grows a c := by
  intro record hrecord
  obtain ⟨mid, hmid, hextends⟩ := hab record hrecord
  obtain ⟨last, hlast, hextends'⟩ := hbc mid hmid
  exact ⟨last, hlast, hextends.trans hextends'⟩

/-- A transaction does what all of them do. -/
def KeepsJobs (db : JobsDb π) (result : Except JobError (JobsDb π)) : Prop :=
  Ends NotCheck (fun new => JobsInv new ∧ Grows db new) result

/-- Tables whose records are extended one by one. -/
theorem jobsInv_of_forall₂ {db new : JobsDb π} (h : JobsInv db)
    (hall : Evolves db new) : JobsInv new ∧ Grows db new := by
  have hids : db.map (fun record => record.row.id) = new.map fun record => record.row.id := by
    have hmap : List.Forall₂ (· = ·) (db.map fun record => record.row.id)
        (new.map fun record => record.row.id) :=
      List.forall₂_map_left_iff.2 (List.forall₂_map_right_iff.2
        (hall.imp fun _ _ hnew => hnew.2.id.symm))
    rwa [List.forall₂_eq_eq_eq] at hmap
  refine ⟨⟨hids ▸ h.ids, fun record hrecord => ?_⟩, fun record hrecord => ?_⟩
  · obtain ⟨old, -, hinv, -⟩ := exists_left_of_forall₂ hall hrecord
    exact hinv
  · obtain ⟨new, hnew, -, hextends⟩ := exists_right_of_forall₂ hall hrecord
    exact ⟨new, hnew, hextends⟩

variable {change : JobRecord π → Except JobError (JobRecord π)}

theorem ends_modifyJob {db : JobsDb π} {id : Nat} {missing : JobError} (hmissing : NotCheck missing)
    (hrecords : ∀ record ∈ db, RecordInv record)
    (hchange : ∀ record ∈ db, record.row.id = id → KeepsRecord record (change record)) :
    Ends NotCheck (Evolves db) (modifyJob id missing change db) := by
  -- the list is walked up to the job; what stands before and behind it is kept
  induction db with
  | nil => exact hmissing
  | cons record rest ih =>
    have hself := fun r (hr : r ∈ rest) => hrecords r (List.mem_cons_of_mem _ hr)
    rw [modifyJob]
    refine Ends.ite (fun hid => ?_) fun hid => ?_
    · refine Ends.bind (hchange record List.mem_cons_self hid) fun new hnew => ?_
      exact Ends.pure (.cons hnew (List.forall₂_same.2 fun r hr => ⟨hself r hr, .refl r⟩))
    · refine Ends.bind (ih hself fun r hr => hchange r (List.mem_cons_of_mem _ hr))
        fun new hnew => ?_
      exact Ends.pure (.cons ⟨hrecords record List.mem_cons_self, .refl record⟩ hnew)

theorem ends_modifyAllJobs {db : JobsDb π} (hchange : ∀ record ∈ db,
      Ends E (fun new => RecordInv new ∧ Extends record new) (change record)) :
    Ends E (Evolves db) (modifyAllJobs change db) := by
  induction db with
  | nil => exact List.Forall₂.nil
  | cons record rest ih =>
    rw [modifyAllJobs]
    refine Ends.bind (hchange record List.mem_cons_self) fun new hnew => ?_
    refine Ends.bind (ih fun r hr => hchange r (List.mem_cons_of_mem _ hr)) fun news hnews => ?_
    exact Ends.pure (.cons hnew hnews)

section Transactions

variable {db : JobsDb π}

section

variable (h : JobsInv db)
include h

theorem acknowledgeJobDelivery_evolves (now : Int) (identity jobId deliveryId : Nat) :
    Ends NotCheck (Evolves db) (acknowledgeJobDelivery db now identity jobId deliveryId) := by
  rw [acknowledgeJobDelivery]
  refine ends_modifyJob nofun h.records fun record hrecord _ => ?_
  exact acknowledge_keeps (h.records record hrecord) now identity deliveryId

theorem persistJobEvent_evolves (now : Int) (identity : Nat) (event : JobEvent) :
    Ends NotCheck (Evolves db) (persistJobEvent db now identity event) := by
  rw [persistJobEvent]
  refine Ends.bind (ends_require nofun) fun _ _ => ?_
  refine Ends.bind (ends_require nofun) fun _ houtput => ?_
  cases JobState.ofProto event.state with
  | none => exact nofun
  | some nextState =>
    refine Ends.bind (ends_require nofun) fun _ _ => ?_
    refine Ends.bind (ends_validateJobEventShape nextState event.terminal event.exitCode)
      fun _ hterminal => ?_
    refine ends_modifyJob nofun h.records fun record hrecord _ => ?_
    exact persist_keeps (h.records record hrecord) now identity (of_decide_eq_true houtput)
      hterminal

/-- A maintenance pass never fails. -/
theorem maintenanceOnce_evolves {E : JobError → Prop} (now : Int) :
    Ends E (Evolves db) (maintenanceOnce db now) := by
  rw [maintenanceOnce]
  refine Ends.bind (ends_modifyAllJobs fun record hrecord =>
    requeueDispatched_keeps (h.records record hrecord) now) fun first hfirst => ?_
  have h1 := (jobsInv_of_forall₂ h hfirst).1
  refine Ends.bind (ends_modifyAllJobs fun record hrecord =>
    requeueAcknowledged_keeps (h1.records record hrecord) now) fun second hsecond => ?_
  have h2 := (jobsInv_of_forall₂ h1 hsecond).1
  refine Ends.imp (ends_modifyAllJobs fun record hrecord =>
    timeOut_keeps (h2.records record hrecord) now) fun third hthird => ?_
  exact (hfirst.trans hsecond).trans hthird

/-- Two jobs of the tables with the same identifier are the same. -/
theorem JobsInv.eq_of_id {a b : JobRecord π} (ha : a ∈ db) (hb : b ∈ db)
    (hid : a.row.id = b.row.id) : a = b :=
  List.inj_on_of_nodup_map h.ids ha hb hid

theorem claimNextJob_evolves (locked : Nat → Bool) (identity : Nat) (now : Int) (deliveryId : Nat) :
    Ends NotCheck (fun result => Evolves db result.1)
      (claimNextJob db locked identity now deliveryId) := by
  rw [claimNextJob]
  split
  · exact Ends.pure (List.forall₂_same.2 fun record hrecord =>
      ⟨h.records record hrecord, .refl record⟩)
  · rename_i record hnext
    obtain ⟨hmem, hfree⟩ := List.mem_filter.1 (List.minOn?_mem hnext)
    obtain ⟨hclaimable, -⟩ := Bool.and_eq_true_iff.1 hfree
    obtain ⟨-, hqueued, -⟩ := of_decide_eq_true hclaimable
    refine Ends.bind (ends_modifyJob nofun h.records fun other hother hid => ?_)
      fun new hnew => Ends.pure hnew
    obtain rfl := h.eq_of_id hother hmem hid
    exact dispatch_keeps (h.records other hother) hqueued now deliveryId

theorem JobsInv.concat {row : JobRow π} (hcolumns : ColumnsInv row) (hqueued : row.state = .queued)
    (hfresh : ∀ record ∈ db, record.row.id ≠ row.id) :
    JobsInv (db ++ [⟨row, []⟩]) := by
  constructor
  · rw [List.map_append]
    refine h.ids.append (List.nodup_singleton _) ?_
    intro taken htaken hnew
    grind
  · intro record hrecord
    rcases List.mem_append.1 hrecord with hrecord | hrecord
    · exact h.records record hrecord
    · obtain rfl := List.mem_singleton.1 hrecord
      have hopen : isTerminalJobState row.state = false := by rw [hqueued]; rfl
      have hearly : isDeliveredState row.state = false := by rw [hqueued]; rfl
      refine ⟨hcolumns, logInv_nil, fun event hevent => absurd hevent List.not_mem_nil, hopen.symm,
        fun event hevent => absurd hevent List.not_mem_nil, fun _ => Nat.zero_le _, ?_,
        fun _ => Nat.zero_le _, Nat.zero_le _⟩
      grind

end

theorem columnsInv_row (jsonb : π → π) (request : StartJobRequest π) (id actor : Nat)
    (now expiresAt : Int) : ColumnsInv (request.row jsonb id actor now expiresAt) :=
  ⟨nofun, rfl, rfl, rfl⟩

theorem startJob_keeps [DecidableEq π] (jsonb : π → π) (h : JobsInv db) (actor : Nat)
    (request : StartJobRequest π) (id : Nat) (now expiresAt : Int) :
    Ends NotCheck (fun result => JobsInv result.1 ∧ Grows db result.1)
      (startJob jsonb db actor request id now expiresAt) := by
  rw [startJob]
  split
  · refine Ends.bind (ends_require nofun) fun _ _ => ?_
    exact Ends.pure ⟨h, .refl db⟩
  · refine Ends.bind (ends_require nofun) fun _ hfresh => ?_
    have hcolumns := columnsInv_row jsonb request id actor now expiresAt
    refine Ends.bind (ends_write hcolumns) ?_
    rintro row rfl
    refine Ends.bind (ends_require nofun) fun _ _ => Ends.pure ⟨h.concat hcolumns rfl ?_, ?_⟩
    · intro record hrecord htaken
      rw [Bool.not_eq_true', ← Bool.not_eq_true, List.contains_iff_mem] at hfresh
      exact hfresh (List.mem_map.2 ⟨record, hrecord, htaken⟩)
    · exact fun record hrecord => ⟨record, List.mem_append_left _ hrecord, .refl record⟩

/-- Only `start_job` adds a job. -/
theorem performJob_evolves [DecidableEq π] (jsonb : π → π) (h : JobsInv db) {label : JobLabel π}
    (hlabel : label.isStart = false) :
    Ends NotCheck (Evolves db) (performJob jsonb db label) := by
  cases label with
  | start actor request id now expiresAt => cases hlabel
  | claim locked identity now deliveryId =>
    exact Ends.map (claimNextJob_evolves h locked identity now deliveryId)
  | acknowledge now identity jobId deliveryId =>
    exact acknowledgeJobDelivery_evolves h now identity jobId deliveryId
  | event now identity event => exact persistJobEvent_evolves h now identity event
  | maintenance now => exact maintenanceOnce_evolves h now

theorem performJob_keeps [DecidableEq π] (jsonb : π → π) (h : JobsInv db) (label : JobLabel π) :
    KeepsJobs db (performJob jsonb db label) := by
  cases label with
  | start actor request id now expiresAt =>
    exact Ends.map (startJob_keeps jsonb h actor request id now expiresAt)
  | _ => exact (performJob_evolves jsonb h rfl).imp fun _ => jobsInv_of_forall₂ h

end Transactions

/-! ### Every run -/

/-- What the log of a job looks like. -/
structure JobLog (record : JobRecord π) : Prop where
  /-- The events are numbered 0, 1, …, n-1. -/
  sequences : record.events.map EventRow.sequence =
    (List.range record.events.length).map Nat.cast
  /-- At most one event is terminal, and it is the last. -/
  terminalLast : ∀ event ∈ record.events.dropLast, event.terminal = false
  flags : ∀ event ∈ record.events, event.terminal = isTerminalJobState event.state
  /-- The job is over exactly when it has a terminal event, with that
  event's state. -/
  terminal : isTerminalJobState record.row.state = true ↔
    ∃ event ∈ record.events, event.terminal = true
  sameState : ∀ event ∈ record.events, event.terminal = true → event.state = record.row.state
  /-- Before the first event of the client there is only the event 0. -/
  early : isEarlyState record.row.state = true → ∀ event ∈ record.events, event.sequence = 0
  /-- A client that has the job and sends its event 1 sends the one that
  is expected. -/
  expected : record.row.state = .dispatched ∨ record.row.state = .acknowledged →
    (lastSequence record.events).getD (-1) + 1 = 1

/-- The invariant implies what is promised of a job's log. -/
theorem RecordInv.jobLog {record : JobRecord π} (h : RecordInv record) : JobLog record := by
  refine ⟨h.log.sequences, h.log.terminalLast, h.flags, ?_, h.sameState, ?_, ?_⟩
  · rw [← h.terminal, List.any_eq_true]
  · intro hearly event hevent
    have hlength := h.early hearly
    have hmem : event.sequence ∈ record.events.map EventRow.sequence := List.mem_map_of_mem hevent
    rw [h.log.sequences] at hmem
    grind
  · intro hstate
    have hmost : record.events.length ≤ 1 := h.early (by
      rcases hstate with hstate | hstate
      · rw [hstate]; rfl
      · rw [hstate]; rfl)
    have hleast : 1 ≤ record.events.length := h.delivered (by
      rcases hstate with hstate | hstate
      · rw [hstate]; rfl
      · rw [hstate]; rfl)
    rw [h.log.expected]
    omega

/-- The tables that transactions reach from `db`, in any order and at any
times. -/
abbrev JobsReach [DecidableEq π] (jsonb : π → π) : JobsDb π → JobsDb π → Prop :=
  (jobTransactions jsonb).Reaches fun _ _ => True

theorem jobsInv_nil : JobsInv ([] : JobsDb π) :=
  ⟨List.nodup_nil, fun _ hrecord => absurd hrecord List.not_mem_nil⟩

section Runs

variable [DecidableEq π] {jsonb : π → π} {db later : JobsDb π}

theorem JobsReach.grows (h : JobsReach jsonb db later) (hdb : JobsInv db) :
    JobsInv later ∧ Grows db later := by
  refine h.invariant (I := fun s => JobsInv s ∧ Grows db s) ⟨hdb, .refl db⟩ ?_
  rintro s label s' ⟨hs, hgrows⟩ - hstep
  have hok : performJob jsonb s label = .ok s' := eq_ok_of_toOption hstep
  obtain ⟨hs', hgrows'⟩ := (performJob_keeps jsonb hs label).of_ok hok
  exact ⟨hs', hgrows.trans hgrows'⟩

/-- The job log invariant: in every reachable state the log of every job
is in order, a job that is over stays as it is, and no transaction
attempts an update that a `CHECK` refuses. -/
theorem job_log_invariant (jsonb : π → π) (db : JobsDb π) (h : JobsReach jsonb [] db) :
    (∀ record ∈ db, JobLog record) ∧
    (∀ later, JobsReach jsonb db later → ∀ record ∈ db, isTerminalJobState record.row.state = true →
        ∃ after ∈ later, after.row.id = record.row.id ∧ after.row.state = record.row.state ∧
          ∀ other ∈ later, other.row.id = record.row.id → other = after) ∧
    ∀ label, performJob jsonb db label ≠ .error .check := by
  have hdb : JobsInv db := (h.grows jobsInv_nil).1
  refine ⟨fun record hrecord => (hdb.records record hrecord).jobLog, ?_, ?_⟩
  · intro later hlater record hrecord hterminal
    obtain ⟨hinv, hgrows⟩ := hlater.grows hdb
    obtain ⟨after, hafter, hextends⟩ := hgrows record hrecord
    refine ⟨after, hafter, hextends.id, hextends.terminal hterminal, fun other hother hid => ?_⟩
    exact hinv.eq_of_id hother hafter (hid.trans hextends.id.symm)
  · intro label hcheck
    exact (performJob_keeps jsonb hdb label).of_error hcheck rfl

end Runs

/-- Client 7 is asked to check for updates by the admin 3. -/
def sampleStart : StartJobRequest Nat where
  requestId := 1
  targetId := 7
  kind := .checkOsUpdates
  parameters := 0
  reason := "weekly check"

/-- The event `sequence` of the job 5, with the given state. -/
def sampleEvent (sequence : Nat) (state : Int) (terminal : Bool) : JobEvent where
  jobId := 5
  sequence := sequence
  state := state
  output := [111, 107]
  stderr := false
  exitCode := 0
  terminal := terminal

/-- The job is delivered, lost and delivered again. Then it runs and
succeeds. -/
def sampleJobLabels : List (JobLabel Nat) :=
  [.start 3 sampleStart 5 0 (900 * second), .claim (fun _ => false) 7 second 20,
    .maintenance (70 * second), .claim (fun _ => false) 7 (71 * second) 21,
    .acknowledge (72 * second) 7 5 21, .event (73 * second) 7 (sampleEvent 1 4 false),
    .event (80 * second) 7 (sampleEvent 2 5 true), .maintenance (1000 * second)]

theorem job_log_invariant_sample : ∃ db : JobsDb Nat, JobsReach id [] db ∧
      db.map (fun record => (record.row.state, record.events.length)) = [(.succeeded, 3)] ∧
      (∀ record ∈ db, JobLog record) ∧
      ∀ label, performJob id db label ≠ .error .check := by
  have hrun : ((jobTransactions id).run (fun _ _ => true) ([] : JobsDb Nat) sampleJobLabels).map
      (fun db => db.map fun record => (record.row.state, record.events.length)) =
        some [(.succeeded, 3)] := by decide +kernel
  obtain ⟨db, hreach, hstates⟩ := Machine.exists_of_view hrun
  obtain ⟨hlogs, -, hchecks⟩ := job_log_invariant id db hreach
  exact ⟨db, hreach, hstates, hlogs, hchecks⟩

/-- A job is never removed, what was asked for never changes, and its log
only grows at its end, over every run. -/
theorem job_log_append_only [DecidableEq π] (jsonb : π → π) {db later : JobsDb π}
    (h : JobsReach jsonb [] db) (h' : JobsReach jsonb db later) {record : JobRecord π}
    (hrecord : record ∈ db) : ∃ after ∈ later, SameJob record.row after.row ∧
      record.events <+: after.events ∧
      ∀ other ∈ later, other.row.id = record.row.id → other = after := by
  obtain ⟨hinv, hgrows⟩ := h'.grows (h.grows jobsInv_nil).1
  obtain ⟨after, hafter, hextends⟩ := hgrows record hrecord
  refine ⟨after, hafter, hextends.same, hextends.events, fun other hother hid => ?_⟩
  exact hinv.eq_of_id hother hafter (hid.trans hextends.id.symm)

theorem job_log_append_only_sample : ∃ (db : JobsDb Nat) (record : JobRecord Nat),
    JobsReach id [] db ∧ record.events.length = 3 ∧
      ∀ later, JobsReach id db later → ∃ after ∈ later, record.events <+: after.events := by
  have hrun : ((jobTransactions id).run (fun _ _ => true) ([] : JobsDb Nat) sampleJobLabels).map
      (fun db => db.map (·.events.length)) = some [3] := by decide +kernel
  obtain ⟨db, hreach, hview⟩ := Machine.exists_of_view hrun
  obtain ⟨record, rfl, hlength⟩ := List.map_eq_singleton_iff.1 hview
  refine ⟨_, record, hreach, hlength, fun later h' => ?_⟩
  obtain ⟨after, hafter, -, hevents, -⟩ :=
    job_log_append_only id hreach h' (List.mem_singleton_self record)
  exact ⟨after, hafter, hevents⟩

end Centrald.Proofs
