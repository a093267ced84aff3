import Centrald.Proofs.JobLog

/-!
# `Centrald.Proofs.JobSteps`: what a transaction does to a job

`JobStep` says once what a transaction on the tables can do to one job:
nothing, a dispatch, an acknowledgement, an event, a return to the queue
or the timeout. Each case names the transactions that do it, with the
times they compare. `performJob_steps` shows that every transaction but
`start_job` changes every job by such a step.

The other direction is here too: the transactions on a job that is at a
known place of the tables (`modifyJob_append`), and what they return
when they are accepted.
-/

set_option autoImplicit false

namespace Centrald.Proofs

open Durable Server Common

variable {π : Type}

/-- The lease of a job that is with a client. -/
def leaseEnd (row : JobRow π) : Option Int :=
  match row.state with
  | .dispatched => row.deliveryLeaseExpiresAt
  | .acknowledged => row.executionStartExpiresAt
  | _ => none

/-- The row of a dispatched job. -/
def dispatchedRow (row : JobRow π) (now : Int) (deliveryId : Nat) : JobRow π :=
  { row with
    state := .dispatched
    deliveryId := some deliveryId
    deliveryLeaseExpiresAt := some (now + jobDeliveryLease) }

/-- The row of an acknowledged job. -/
def acknowledgedRow (row : JobRow π) (now : Int) : JobRow π :=
  { row with
    state := .acknowledged
    deliveryId := none
    deliveryLeaseExpiresAt := none
    executionStartExpiresAt := some (now + jobExecutionStartLease) }

/-- What a transaction does to a job. -/
inductive JobStep : JobLabel π → JobRecord π → JobRecord π → Prop where
  | same (label : JobLabel π) (record : JobRecord π) : JobStep label record record
  | dispatched {record : JobRecord π} {locked : Nat → Bool} {identity deliveryId : Nat} {now : Int}
      {events : List EventRow} (hqueued : record.row.state = .queued)
      (hevents : events = record.events ∨ events = record.events ++ [dispatchedEvent]) :
      JobStep (.claim locked identity now deliveryId) record
        ⟨dispatchedRow record.row now deliveryId, events⟩
  | acknowledged {record : JobRecord π} {identity deliveryId : Nat} {now : Int} :
      JobStep (.acknowledge now identity record.row.id deliveryId) record
        ⟨acknowledgedRow record.row now, record.events⟩
  | event {record : JobRecord π} {identity : Nat} {now : Int} {event : JobEvent}
      {nextState : JobState} (hjob : event.jobId = record.row.id)
      (hallowed : allowedTransition record.row.state nextState = true)
      (houtput : event.output.length ≤ maxJobEventOutputBytes) :
      JobStep (.event now identity event) record
        ⟨{ record.row with state := nextState, executionStartExpiresAt := none },
          record.events ++ [event.row nextState]⟩
  | requeued {record : JobRecord π} {row : JobRow π} {now lease : Int}
      (hlease : leaseEnd record.row = some lease) (hended : lease ≤ now)
      (hsame : SameJob record.row row) (hqueued : row.state = .queued) :
      JobStep (.maintenance now) record ⟨row, record.events⟩
  | timedOut {record : JobRecord π} {row : JobRow π} {now sequence : Int}
      (hexpired : record.row.expiresAt ≤ now) (hsame : SameJob record.row row)
      (hstate : row.state = .timedOut) :
      JobStep (.maintenance now) record ⟨row, record.events ++ [timedOutEvent sequence]⟩

/-! ### The operations on a record -/

theorem write_eq (row : JobRow π) : Ends (fun _ => True) (fun new => new = row) row.write := by
  rw [JobRow.write]
  exact Ends.bind Ends.any fun _ _ => Ends.pure rfl

theorem insertEvent_eq (events : List EventRow) (event : EventRow) :
    Ends (fun _ => True) (fun new => new = events ++ [event]) (insertEvent events event) := by
  rw [insertEvent]
  refine Ends.bind Ends.any fun _ _ => ?_
  exact Ends.bind Ends.any fun _ _ => Ends.pure rfl

theorem require_bind {α : Type} {condition : Bool} {error : JobError}
    {f : Unit → Except JobError α} {x : α} :
    (require condition error >>= f) = .ok x ↔ condition = true ∧ f () = .ok x := by
  cases condition <;> simp [require, bind, Except.bind]

variable {identity : Nat} {event : JobEvent}

/-- What a client's event has passed, and what it leaves. -/
theorem persist_ok {record new : JobRecord π} {now : Int}
    {next : JobState} (h : record.persist now identity event next = .ok new) :
    record.row.targetId = identity ∧ now < record.row.expiresAt ∧
      allowedTransition record.row.state next = true ∧
      isTerminalJobState record.row.state = false ∧
      record.events.length < maxJobEvents ∧
      (record.events.map fun e => e.output.length).sum + event.output.length ≤
        maxJobRetainedOutputBytes ∧
      event.output.length ≤ maxJobEventOutputBytes ∧
      new = ⟨{ record.row with state := next, executionStartExpiresAt := none },
        record.events ++ [event.row next]⟩ := by
  simp only [JobRecord.persist, validateJobTransition, insertEvent, JobRow.write, bind_assoc,
    require_bind, pure_bind, EventRow.checks, JobEvent.row] at h
  simp only [Bool.and_eq_true, Bool.not_eq_true', Bool.or_eq_false_iff, decide_eq_true_eq] at h
  obtain ⟨htarget, hlive, -, hallowed, ⟨-, hopen⟩, -, hcount, hbytes, ⟨⟨-, houtput⟩, -⟩, -, -,
    hnew⟩ := h
  exact ⟨htarget, hlive, hallowed, hopen, hcount, hbytes, of_decide_eq_true houtput,
    (Except.ok.inj hnew).symm⟩

section Operations

variable (record : JobRecord π)

theorem dispatch_eq (now : Int) (deliveryId : Nat) : Ends (fun _ => True) (fun new => ∃ events,
      new = ⟨dispatchedRow record.row now deliveryId, events⟩ ∧
      (events = record.events ∨ events = record.events ++ [dispatchedEvent]))
      (record.dispatch now deliveryId) := by
  rw [JobRecord.dispatch]
  refine Ends.bind (write_eq _) ?_
  rintro row rfl
  refine Ends.ite (fun _ => Ends.pure ⟨_, rfl, .inl rfl⟩) fun _ => ?_
  refine Ends.bind (insertEvent_eq _ _) ?_
  rintro events rfl
  exact Ends.pure ⟨_, rfl, .inr rfl⟩

theorem dispatch_step (hqueued : record.row.state = .queued) (locked : Nat → Bool)
    (identity deliveryId : Nat) (now : Int) :
    Ends (fun _ => True) (JobStep (.claim locked identity now deliveryId) record)
      (record.dispatch now deliveryId) := by
  refine (dispatch_eq record now deliveryId).imp ?_
  rintro new ⟨events, rfl, hevents⟩
  exact JobStep.dispatched hqueued hevents

theorem acknowledge_step (now : Int) (identity deliveryId : Nat) :
    Ends (fun _ => True) (JobStep (.acknowledge now identity record.row.id deliveryId) record)
      (record.acknowledge now identity deliveryId) := by
  rw [JobRecord.acknowledge]
  refine Ends.bind Ends.any fun _ _ => ?_
  refine Ends.bind Ends.any fun _ _ => ?_
  refine Ends.bind (write_eq _) ?_
  rintro row rfl
  exact JobStep.acknowledged

theorem persist_step (now : Int) (identity : Nat)
    (hjob : record.row.id = event.jobId) (nextState : JobState) :
    Ends (fun _ => True) (JobStep (.event now identity event) record)
      (record.persist now identity event nextState) := by
  refine .of_forall_ok fun new hok => ?_
  obtain ⟨-, -, hallowed, -, -, -, houtput, rfl⟩ := persist_ok hok
  exact JobStep.event hjob.symm hallowed houtput

/-- The three statements of a maintenance pass on one job. -/
def maintain (now : Int) (record : JobRecord π) : Except JobError (JobRecord π) := do
  let record ← record.requeueDispatched now
  let record ← record.requeueAcknowledged now
  record.timeOut now

variable {record} {now : Int}

theorem requeueDispatched_of_ne (h : record.row.state ≠ .dispatched) :
    record.requeueDispatched now = .ok record := by
  rw [JobRecord.requeueDispatched, if_neg fun hlease => h hlease.1]

theorem requeueAcknowledged_of_ne (h : record.row.state ≠ .acknowledged) :
    record.requeueAcknowledged now = .ok record := by
  rw [JobRecord.requeueAcknowledged, if_neg fun hlease => h hlease.1]

theorem timeOut_of_live (h : now < record.row.expiresAt) : record.timeOut now = .ok record := by
  rw [JobRecord.timeOut, if_neg fun hexpired => absurd hexpired.2 (not_le.2 h)]

theorem timeOut_step :
    Ends (fun _ => True) (JobStep (.maintenance now) record) (record.timeOut now) := by
  rw [JobRecord.timeOut]
  refine Ends.ite (fun hexpired => ?_) fun _ => Ends.pure (.same _ record)
  refine Ends.bind (write_eq _) ?_
  rintro row rfl
  refine Ends.bind (insertEvent_eq _ _) ?_
  rintro events rfl
  exact JobStep.timedOut hexpired.2 rfl rfl

/-- A written row with the events it had. -/
theorem writeRow_eq (row : JobRow π) (events : List EventRow) :
    Ends (fun _ => True) (fun new => new = ⟨row, events⟩)
      (do let row ← row.write; return (⟨row, events⟩ : JobRecord π)) := by
  refine Ends.bind (write_eq row) ?_
  rintro row rfl
  exact Ends.pure rfl

/-- The statement that returns a job to the queue leaves nothing to do for
the others. -/
theorem maintain_requeues {lease : Int} (hlease : leaseEnd record.row = some lease)
    (hended : lease ≤ now) (hlive : now < record.row.expiresAt) :
    ∃ row, SameJob record.row row ∧ row.state = .queued ∧
      Ends (fun _ => True) (fun new => new = ⟨row, record.events⟩) (maintain now record) := by
  cases hstate : record.row.state with
  | dispatched =>
    rw [leaseEnd, hstate] at hlease
    refine ⟨{ record.row with
        state := .queued
        deliveryId := none
        deliveryLeaseExpiresAt := none },
      rfl, rfl, ?_⟩
    rw [maintain, JobRecord.requeueDispatched, if_pos ⟨hstate, ⟨lease, hlease, hended⟩, hlive⟩]
    refine Ends.bind (writeRow_eq _ _) ?_
    rintro new rfl
    rw [requeueAcknowledged_of_ne (show JobState.queued ≠ .acknowledged by decide)]
    show Ends _ _ (JobRecord.timeOut now _)
    rw [timeOut_of_live (by exact hlive)]
    exact rfl
  | acknowledged =>
    rw [leaseEnd, hstate] at hlease
    refine ⟨{ record.row with state := .queued, executionStartExpiresAt := none }, rfl, rfl, ?_⟩
    rw [maintain, requeueDispatched_of_ne (by rw [hstate]; decide)]
    show Ends _ _ (record.requeueAcknowledged now >>= _)
    rw [JobRecord.requeueAcknowledged, if_pos ⟨hstate, ⟨lease, hlease, hended⟩, hlive⟩]
    refine Ends.bind (writeRow_eq _ _) ?_
    rintro new rfl
    rw [timeOut_of_live (by exact hlive)]
    exact rfl
  | unspecified | queued | running | succeeded | failed | canceled | timedOut =>
    rw [leaseEnd, hstate] at hlease
    cases hlease

/-- A pass does one thing to a job. -/
theorem maintain_step :
    Ends (fun _ => True) (JobStep (.maintenance now) record) (maintain now record) := by
  by_cases hlease : ∃ lease, leaseEnd record.row = some lease ∧ lease ≤ now ∧
      now < record.row.expiresAt
  · obtain ⟨lease, hlease, hended, hlive⟩ := hlease
    obtain ⟨row, hsame, hqueued, hends⟩ := maintain_requeues hlease hended hlive
    refine hends.imp ?_
    rintro new rfl
    exact JobStep.requeued hlease hended hsame hqueued
  · have hdispatched : ¬ (record.row.state = .dispatched ∧
        (∃ lease ∈ record.row.deliveryLeaseExpiresAt, lease ≤ now) ∧
        now < record.row.expiresAt) := by
      rintro ⟨hstate, ⟨lease, hsome, hended⟩, hlive⟩
      exact hlease ⟨lease, by rw [leaseEnd, hstate]; exact hsome, hended, hlive⟩
    have hacknowledged : ¬ (record.row.state = .acknowledged ∧
        (∃ lease ∈ record.row.executionStartExpiresAt, lease ≤ now) ∧
        now < record.row.expiresAt) := by
      rintro ⟨hstate, ⟨lease, hsome, hended⟩, hlive⟩
      exact hlease ⟨lease, by rw [leaseEnd, hstate]; exact hsome, hended, hlive⟩
    rw [maintain, JobRecord.requeueDispatched, if_neg hdispatched]
    show Ends _ _ (record.requeueAcknowledged now >>= _)
    rw [JobRecord.requeueAcknowledged, if_neg hacknowledged]
    exact timeOut_step

end Operations

/-! ### The tables -/

section Tables

variable {id : Nat} {missing : JobError} {change : JobRecord π → Except JobError (JobRecord π)}
  {db new : JobsDb π}

/-- A change of the job `id`, whose place is known. -/
theorem modifyJob_append {front back : JobsDb π} {record changed : JobRecord π}
    (hfront : ∀ other ∈ front, other.row.id ≠ id) (hid : record.row.id = id)
    (hchange : change record = .ok changed) :
    modifyJob id missing change (front ++ record :: back) = .ok (front ++ changed :: back) := by
  induction front with
  | nil =>
    rw [List.nil_append, modifyJob, if_pos hid, hchange]
    rfl
  | cons first rest ih =>
    rw [List.cons_append, modifyJob, if_neg (hfront first List.mem_cons_self),
      ih fun other hother => hfront other (List.mem_cons_of_mem _ hother)]
    rfl

theorem modifyJob_eq_ok (h : modifyJob id missing change db = .ok new) :
    ∃ front record back changed, db = front ++ record :: back ∧ record.row.id = id ∧
      change record = .ok changed ∧ new = front ++ changed :: back := by
  induction db generalizing new with
  | nil => cases h
  | cons first rest ih =>
    rw [modifyJob] at h
    by_cases hid : first.row.id = id
    · rw [if_pos hid] at h
      obtain ⟨changed, hchanged, h⟩ := bind_eq_ok.1 h
      cases h
      exact ⟨[], first, rest, changed, rfl, hid, hchanged, rfl⟩
    · rw [if_neg hid] at h
      obtain ⟨rest', hrest, h⟩ := bind_eq_ok.1 h
      cases h
      grind

theorem modifyAllJobs_eq_ok (h : modifyAllJobs change db = .ok new) :
    List.Forall₂ (fun old new => change old = .ok new) db new := by
  induction db generalizing new with
  | nil =>
    cases h
    exact .nil
  | cons first rest ih =>
    rw [modifyAllJobs] at h
    obtain ⟨first', hfirst, h⟩ := bind_eq_ok.1 h
    obtain ⟨rest', hrest, h⟩ := bind_eq_ok.1 h
    cases h
    exact .cons hfirst (ih hrest)

theorem maintenanceOnce_eq_ok {now : Int} (h : maintenanceOnce db now = .ok new) :
    List.Forall₂ (fun old new => maintain now old = .ok new) db new := by
  rw [maintenanceOnce] at h
  obtain ⟨first, hfirst, h⟩ := bind_eq_ok.1 h
  obtain ⟨second, hsecond, hthird⟩ := bind_eq_ok.1 h
  have hpair : List.Forall₂ (fun old new =>
      (old.requeueDispatched now >>= fun record => record.requeueAcknowledged now) = .ok new)
      db second := by
    refine forall₂_comp ?_ (modifyAllJobs_eq_ok hfirst) (modifyAllJobs_eq_ok hsecond)
    intro old mid new hold hnew
    exact bind_eq_ok.2 ⟨mid, hold, hnew⟩
  refine forall₂_comp ?_ hpair (modifyAllJobs_eq_ok hthird)
  intro old mid new hold hnew
  obtain ⟨requeued, hrequeued, hmid⟩ := bind_eq_ok.1 hold
  exact bind_eq_ok.2 ⟨requeued, hrequeued, bind_eq_ok.2 ⟨mid, hmid, hnew⟩⟩

/-- The tables with one job changed. -/
theorem forall₂_replace {R : JobRecord π → JobRecord π → Prop} (hrefl : ∀ record, R record record)
    {record changed : JobRecord π} (h : R record changed) (front back : JobsDb π) :
    List.Forall₂ R (front ++ record :: back) (front ++ changed :: back) :=
  List.rel_append (List.forall₂_same.2 fun r _ => hrefl r)
    (.cons h (List.forall₂_same.2 fun r _ => hrefl r))

theorem modifyJob_steps {label : JobLabel π} (h : modifyJob id missing change db = .ok new)
    (hchange : ∀ record ∈ db, record.row.id = id →
      Ends (fun _ => True) (JobStep label record) (change record)) :
    List.Forall₂ (JobStep label) db new := by
  obtain ⟨front, record, back, changed, rfl, hid, hchanged, rfl⟩ := modifyJob_eq_ok h
  have hmem : record ∈ front ++ record :: back := List.mem_append_right _ List.mem_cons_self
  exact forall₂_replace (JobStep.same label) ((hchange record hmem hid).of_ok hchanged) front back

/-- The job that `claim_next_job` claims. -/
def nextJob (db : JobsDb π) (locked : Nat → Bool) (identity : Nat) (now : Int) :
    Option (JobRecord π) :=
  (db.filter fun record => record.claimable identity now && !locked record.row.id).minOn?
    fun record => record.row.createdAt

variable {locked : Nat → Bool}

theorem nextJob_eq_some {now : Int} {record : JobRecord π}
    (h : nextJob db locked identity now = some record) :
    record ∈ db ∧ record.claimable identity now = true := by
  obtain ⟨hmem, hfree⟩ := List.mem_filter.1 (List.minOn?_mem h)
  exact ⟨hmem, (Bool.and_eq_true_iff.1 hfree).1⟩

theorem claimNextJob_eq_ok {deliveryId : Nat} {now : Int} {claimed : Option (JobRow π)}
    (h : claimNextJob db locked identity now deliveryId = .ok (new, claimed)) :
    claimed = (nextJob db locked identity now).map JobRecord.row ∧
      match nextJob db locked identity now with
      | none => new = db
      | some record =>
        modifyJob record.row.id .duplicate (JobRecord.dispatch now deliveryId) db = .ok new := by
  rw [claimNextJob] at h
  rw [nextJob]
  split at h
  next hnone =>
    cases h
    rw [hnone]
    exact ⟨rfl, rfl⟩
  next record hsome =>
    obtain ⟨db', hdb', h⟩ := bind_eq_ok.1 h
    cases h
    rw [hsome]
    exact ⟨rfl, hdb'⟩

theorem claimNextJob_of_next {deliveryId : Nat} {now : Int}
    {record : JobRecord π} (hnext : nextJob db locked identity now = some record)
    (hdb : modifyJob record.row.id .duplicate (JobRecord.dispatch now deliveryId) db = .ok new) :
    claimNextJob db locked identity now deliveryId = .ok (new, some record.row) := by
  rw [nextJob] at hnext
  rw [claimNextJob, hnext]
  show (modifyJob record.row.id .duplicate (JobRecord.dispatch now deliveryId) db >>= _) = _
  rw [hdb]
  rfl

/-- The jobs before a job are others. -/
theorem JobsInv.front_ne {front back : JobsDb π} {record : JobRecord π}
    (h : JobsInv (front ++ record :: back)) : ∀ other ∈ front, other.row.id ≠ record.row.id := by
  intro other hother
  have hids := h.ids
  grind

end Tables

/-- An event that passes the checks before the transaction. -/
theorem persistJobEvent_ok {db new : JobsDb π} {now : Int}
    (h : persistJobEvent db now identity event = .ok new) :
    ∃ nextState, JobState.ofProto event.state = some nextState ∧
      modifyJob event.jobId (.status .notFound "job does not exist")
        (JobRecord.persist now identity event nextState) db = .ok new := by
  simp only [persistJobEvent, require_bind] at h
  obtain ⟨-, -, h⟩ := h
  split at h
  next => cases h
  next nextState hproto =>
    obtain ⟨-, -, h⟩ := bind_eq_ok.1 h
    obtain ⟨-, -, h⟩ := bind_eq_ok.1 h
    exact ⟨nextState, hproto, h⟩

variable {jsonb : π → π}

/-- Every transaction but `start_job` changes every job by a step. -/
theorem performJob_steps [DecidableEq π] {db new : JobsDb π} {label : JobLabel π}
    (hdb : JobsInv db) (h : performJob jsonb db label = .ok new)
    (hlabel : label.isStart = false) : List.Forall₂ (JobStep label) db new := by
  cases label with
  | start actor request id now expiresAt => cases hlabel
  | claim locked identity now deliveryId =>
    obtain ⟨⟨new, claimed⟩, hclaim, rfl⟩ := map_eq_ok.1 h
    obtain ⟨-, hnext⟩ := claimNextJob_eq_ok hclaim
    cases hrecord : nextJob db locked identity now with
    | none =>
      rw [hrecord] at hnext
      rw [show new = db from hnext]
      exact List.forall₂_same.2 fun record _ => .same _ record
    | some record =>
      rw [hrecord] at hnext
      obtain ⟨hmem, hclaimable⟩ := nextJob_eq_some hrecord
      obtain ⟨-, hqueued, -⟩ := of_decide_eq_true hclaimable
      refine modifyJob_steps hnext fun other hother hid => ?_
      obtain rfl := hdb.eq_of_id hother hmem hid
      exact dispatch_step other hqueued locked identity deliveryId now
  | acknowledge now identity jobId deliveryId =>
    refine modifyJob_steps h fun record _ hid => ?_
    subst hid
    exact acknowledge_step record now identity deliveryId
  | event now identity event =>
    obtain ⟨nextState, -, h⟩ := persistJobEvent_ok h
    exact modifyJob_steps h fun record _ hid => persist_step record now identity hid _
  | maintenance now =>
    exact (maintenanceOnce_eq_ok h).imp fun _ _ hmaintain => maintain_step.of_ok hmaintain

/-! ### Invariants of the tables -/

section

variable {new record : JobRecord π} {label : JobLabel π} (h : JobStep label record new)
include h

/-- A job is timed out by a pass that sees it expired. -/
theorem JobStep.timedOut_iff (hstate : new.row.state = .timedOut) :
    record.row.state = .timedOut ∨ record.row.expiresAt ≤ label.now := by
  cases h with
  | same => exact .inl hstate
  | dispatched => cases hstate
  | acknowledged => cases hstate
  | @event _ identity now event nextState hjob hallowed houtput =>
    have hnext : nextState = .timedOut := hstate
    rw [hnext] at hallowed
    revert hallowed
    cases record.row.state <;> nofun
  | requeued hlease hended hsame hqueued =>
    grind
  | timedOut hexpired => exact .inr hexpired

theorem JobStep.expiresAt : new.row.expiresAt = record.row.expiresAt := by
  cases h with
  | same | dispatched | acknowledged | event => rfl
  | requeued hlease hended hsame hqueued => exact hsame.expiresAt
  | timedOut hexpired hsame hstate => exact hsame.expiresAt

end

/-- An event fits the limit of one event. -/
def SmallOutputs (events : List EventRow) : Prop :=
  ∀ event ∈ events, event.output.length ≤ maxJobEventOutputBytes

theorem SmallOutputs.concat {events : List EventRow} (h : SmallOutputs events) {event : EventRow}
    (hevent : event.output.length ≤ maxJobEventOutputBytes) : SmallOutputs (events ++ [event]) := by
  intro e he
  rcases List.mem_append.1 he with he | he
  · exact h e he
  · grind

theorem JobStep.smallOutputs {label : JobLabel π} {record new : JobRecord π}
    (h : JobStep label record new) (hsmall : SmallOutputs record.events) :
    SmallOutputs new.events := by
  cases h with
  | same | acknowledged | requeued => exact hsmall
  | dispatched hqueued hevents =>
    rcases hevents with rfl | rfl
    · exact hsmall
    · exact hsmall.concat (Nat.zero_le _)
  | event hjob hallowed houtput => exact hsmall.concat houtput
  | timedOut => exact hsmall.concat (Nat.zero_le _)

/-- The tables at a time. -/
structure TablesInv (clock : Int) (db : JobsDb π) : Prop where
  jobs : JobsInv db
  timedOut : ∀ record ∈ db, record.row.state = .timedOut → record.row.expiresAt ≤ clock
  outputs : ∀ record ∈ db, SmallOutputs record.events

theorem startJob_eq_ok [DecidableEq π] {db : JobsDb π} {actor id : Nat}
    {request : StartJobRequest π} {now expiresAt : Int} {result : JobsDb π × JobRow π}
    (h : startJob jsonb db actor request id now expiresAt = .ok result) :
    result.1 = db ∨ ∃ row, row.state = .queued ∧ result.1 = db ++ [⟨row, []⟩] := by
  rw [startJob] at h
  split at h
  next =>
    obtain ⟨-, -, h⟩ := bind_eq_ok.1 h
    cases h
    exact .inl rfl
  next =>
    obtain ⟨-, -, h⟩ := bind_eq_ok.1 h
    obtain ⟨row, hrow, h⟩ := bind_eq_ok.1 h
    obtain ⟨-, -, h⟩ := bind_eq_ok.1 h
    cases h
    refine .inr ⟨row, ?_, rfl⟩
    rw [(write_eq _).of_ok hrow]
    rfl

/-- Every transaction on jobs keeps the tables sound. -/
theorem TablesInv.perform [DecidableEq π] {clock : Int} {db new : JobsDb π}
    {label : JobLabel π} (h : TablesInv clock db) (hnow : label.now = clock)
    (hok : performJob jsonb db label = .ok new) : TablesInv clock new := by
  have hjobs := ((performJob_keeps jsonb h.jobs label).of_ok hok).1
  cases hlabel : label.isStart with
  | false =>
    have hsteps := performJob_steps h.jobs hok hlabel
    refine ⟨hjobs, fun record hrecord hstate => ?_, fun record hrecord => ?_⟩
    · obtain ⟨old, hold, hstep⟩ := exists_left_of_forall₂ hsteps hrecord
      rw [hstep.expiresAt]
      rcases hstep.timedOut_iff hstate with hbefore | hexpired
      · exact h.timedOut old hold hbefore
      · exact hnow ▸ hexpired
    · obtain ⟨old, hold, hstep⟩ := exists_left_of_forall₂ hsteps hrecord
      exact hstep.smallOutputs (h.outputs old hold)
  | true =>
    cases label with
    | start actor request id now expiresAt =>
      obtain ⟨result, hstart, rfl⟩ := map_eq_ok.1 hok
      rcases startJob_eq_ok hstart with hsame | ⟨row, hqueued, hnew⟩
      · rw [hsame]
        exact h
      · rw [hnew] at hjobs ⊢
        refine ⟨hjobs, fun record hrecord hstate => ?_, fun record hrecord => ?_⟩
        · rcases List.mem_append.1 hrecord with hrecord | hrecord
          · exact h.timedOut record hrecord hstate
          · grind
        · rcases List.mem_append.1 hrecord with hrecord | hrecord
          · exact h.outputs record hrecord
          · rw [List.mem_singleton.1 hrecord]
            exact fun _ hevent => absurd hevent List.not_mem_nil
    | _ => cases hlabel

theorem TablesInv.later {clock later : Int} {db : JobsDb π} (h : TablesInv clock db)
    (hle : clock ≤ later) : TablesInv later db :=
  ⟨h.jobs, fun record hrecord hstate => (h.timedOut record hrecord hstate).trans hle, h.outputs⟩

end Centrald.Proofs
