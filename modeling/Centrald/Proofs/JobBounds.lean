import Centrald.Proofs.JobSteps
import Centrald.Server.JobWriters

/-!
# `Centrald.Proofs.JobBounds`: what a job stores is bounded

The lock of the row makes the transactions on a job take turns, so what a
transaction has checked holds until it commits. `Bounded` is what every
write keeps: of the events of a client, because `persist_job_event`
checks the aggregates; of the event of a dispatch, because it comes
before all others; and of the event of the sweep, because a job that has
ended is not swept again.
-/

set_option autoImplicit false

namespace Centrald.Proofs.JobBounds

open Durable Common Server

variable {π : Type} {record new : JobRecord π} {now : Int} {identity : Nat}

/-! ### What a job stores -/

def outputBytes (events : List EventRow) : Nat := (events.map fun e => e.output.length).sum

def isTimeout (event : EventRow) : Bool := decide (event.state = .timedOut)

/-- The bounds of a job, and what its state says about its events. -/
structure Bounded (record : JobRecord π) : Prop where
  bytes : outputBytes record.events ≤ maxJobRetainedOutputBytes
  each : ∀ e ∈ record.events, e.output.length ≤ maxJobEventOutputBytes
  count : (record.events.filter fun e => !isTimeout e).length ≤ maxJobEvents
  timeouts : (record.events.filter isTimeout).length ≤ 1
  live : record.row.state ≠ .timedOut → record.events.filter isTimeout = []
  early : record.row.state = .queued ∨ record.row.state = .dispatched ∨
    record.row.state = .acknowledged → record.events = [] ∨ record.events = [dispatchedEvent]

/-- What a statement of the maintenance pass does to a job: nothing, the
return to the queue of a job that is with its client, or the timeout of a
job that is open and has expired. -/
inductive SweepOutcome (now : Int) (record : JobRecord π) : JobRecord π → Prop where
  | same : SweepOutcome now record record
  | requeued (row : JobRow π)
      (hstate : record.row.state = .dispatched ∨ record.row.state = .acknowledged)
      (hexpiry : row.expiresAt = record.row.expiresAt) :
      SweepOutcome now record ⟨row, record.events⟩
  | timedOut (row : JobRow π) (sequence : Int) (hswept : isSweptState record.row.state = true)
      (hexpired : record.row.expiresAt ≤ now) (hstate : row.state = .timedOut)
      (hexpiry : row.expiresAt = record.row.expiresAt) :
      SweepOutcome now record ⟨row, record.events ++ [timedOutEvent sequence]⟩

variable {statement : SweepStatement} {seen : List EventRow}

/-- Every statement that does not fail has one of these outcomes, whatever
events it sees. -/
theorem sweepOutcome_of_apply
    (hok : statement.apply now seen record = .ok new) : SweepOutcome now record new := by
  cases statement with
  | requeueDispatched =>
    simp only [SweepStatement.apply, JobRecord.requeueDispatched] at hok
    split at hok
    next hselected =>
      obtain rfl := (writeRow_eq _ _).of_ok hok
      exact .requeued _ (.inl hselected.1) rfl
    next =>
      cases hok
      exact .same
  | requeueAcknowledged =>
    simp only [SweepStatement.apply, JobRecord.requeueAcknowledged] at hok
    split at hok
    next hselected =>
      obtain rfl := (writeRow_eq _ _).of_ok hok
      exact .requeued _ (.inr hselected.1) rfl
    next =>
      cases hok
      exact .same
  | timeOut =>
    simp only [SweepStatement.apply, JobRecord.timeOutSeeing] at hok
    split at hok
    next hswept =>
      obtain ⟨row, hrow, hok⟩ := bind_eq_ok.1 hok
      obtain ⟨events, hinsert, hok⟩ := bind_eq_ok.1 hok
      obtain rfl := (write_eq _).of_ok hrow
      obtain rfl := (insertEvent_eq _ _).of_ok hinsert
      cases hok
      exact .timedOut _ _ hswept.1 hswept.2 rfl rfl
    next =>
      cases hok
      exact .same

section

variable (h : Bounded record)
include h

theorem Bounded.persist {event : JobEvent} {next : JobState}
    (hok : record.persist now identity event next = .ok new) : Bounded new := by
  obtain ⟨-, -, hallowed, hopen, hcount, hbytes, houtput, rfl⟩ := persist_ok hok
  obtain ⟨-, heach, -, -, hlive, -⟩ := h
  have hle := List.length_filter_le (fun e => !isTimeout e) record.events
  have hnone := hlive fun heq => by rw [heq] at hopen; cases hopen
  have hnext : next = .running ∨ next = .succeeded ∨ next = .failed := by
    revert hallowed
    cases record.row.state <;> cases next <;> simp [allowedTransition]
  have htimeout : isTimeout (event.row next) = false := by
    rcases hnext with rfl | rfl | rfl <;> rfl
  have hsize : (event.row next).output = event.output := rfl
  constructor <;> grind [outputBytes]

theorem Bounded.dispatch (hqueued : record.row.state = .queued) {deliveryId : Nat}
    (hok : record.dispatch now deliveryId = .ok new) : Bounded new := by
  obtain ⟨row, hrow, hok⟩ := bind_eq_ok.1 hok
  obtain rfl := (write_eq _).of_ok hrow
  -- the job has no event, or the one of an earlier dispatch
  rcases h.early (.inl hqueued) with hevents | hevents <;> rw [hevents] at hok <;> cases hok <;>
    constructor <;> simp [outputBytes, isTimeout, dispatchedEvent, maxJobEvents]

/-- A change of the row that leaves the events. -/
theorem Bounded.early_row {row : JobRow π}
    (hstate : record.row.state = .dispatched ∨ record.row.state = .acknowledged) :
    Bounded ⟨row, record.events⟩ := by
  rcases h.early (.inr hstate) with hevents | hevents <;> rw [hevents] <;>
    constructor <;> simp [outputBytes, isTimeout, dispatchedEvent, maxJobEvents]

theorem Bounded.acknowledge {deliveryId : Nat}
    (hok : record.acknowledge now identity deliveryId = .ok new) : Bounded new := by
  simp only [JobRecord.acknowledge, require_bind, decide_eq_true_eq] at hok
  obtain ⟨-, ⟨hstate, -⟩, hok⟩ := hok
  obtain ⟨row, hrow, hok⟩ := bind_eq_ok.1 hok
  cases hok
  exact h.early_row (.inl hstate)

/-- A statement of the maintenance pass leaves the bounds. -/
theorem Bounded.apply
    (hok : statement.apply now seen record = .ok new) : Bounded new := by
  cases sweepOutcome_of_apply hok with
  | same => exact h
  | requeued row hstate _ => exact h.early_row hstate
  | timedOut row sequence hswept _ hstate _ =>
    have hnone := h.live fun heq => by rw [heq] at hswept; cases hswept
    obtain ⟨hbytes, heach, hcount, -⟩ := h
    have htimeout : isTimeout (timedOutEvent sequence) = true := rfl
    have hsize : (timedOutEvent sequence).output = [] := rfl
    constructor <;> grind [outputBytes]

theorem Bounded.write {writer : JobWriter} (hlocks : writer.locks record = true)
    (hok : writer.write record = .ok new) :
    Bounded new := by
  cases writer with
  | claim now identity deliveryId => exact h.dispatch (of_decide_eq_true hlocks).2.1 hok
  | acknowledge now identity deliveryId => exact h.acknowledge hok
  | event now identity sent nextState => exact h.persist hok
  | maintenance now => cases hlocks

end

/-! ### Transactions -/

variable {s s' : JobWriters π} {t : Nat}

/-- The version of the job that a maintenance transaction at `now` has
made of the committed one. An event that it adds is that of a timeout, and
then the committed job is open and has expired. -/
structure Drafted (now : Int) (record draft : JobRecord π) : Prop where
  bounded : Bounded draft
  expiry : draft.row.expiresAt = record.row.expiresAt
  swept : isSweptState draft.row.state = true → isSweptState record.row.state = true
  events : ∀ e ∈ draft.events, e ∈ record.events ∨
    (isTimeout e = true ∧ isSweptState record.row.state = true ∧ record.row.expiresAt ≤ now)

/-- The committed version, before a statement has changed it. -/
theorem Bounded.drafted (h : Bounded record) : Drafted now record record :=
  ⟨h, rfl, fun h => h, fun _ he => .inl he⟩

/-- A further statement of the same transaction. -/
theorem Drafted.apply {draft : JobRecord π} (h : Drafted now record draft)
    (hok : statement.apply now seen draft = .ok new) : Drafted now record new := by
  have hbounded := h.bounded.apply hok
  cases sweepOutcome_of_apply hok with
  | same => exact h
  | requeued row hstate hexpiry =>
    refine ⟨hbounded, hexpiry.trans h.expiry, fun _ => h.swept ?_, h.events⟩
    rcases hstate with hstate | hstate <;> rw [hstate] <;> rfl
  | timedOut row sequence hswept hexpired hstate hexpiry =>
    refine ⟨hbounded, hexpiry.trans h.expiry, fun hnew => ?_, fun e he => ?_⟩
    · rw [hstate] at hnew
      cases hnew
    · rcases List.mem_append.1 he with he | he
      · exact h.events e he
      · cases List.mem_singleton.1 he
        exact .inr ⟨rfl, h.swept hswept, h.expiry ▸ hexpired⟩

/-- What is known of the transaction `t`, by where it stands. Whoever has
changed the job has the lock of its row, and what it has written is made
of what is committed. -/
def WriterOk (s : JobWriters π) (t : Nat) : JobWriter × WriterPc π → Prop
  | (writer, .locked) => s.rowLock = some t ∧ writer.locks s.record = true
  | (writer, .written new) =>
    s.rowLock = some t ∧ writer.locks s.record = true ∧ writer.write s.record = .ok new
  | (writer, .ready _ draft) | (writer, .finished draft) =>
    ∀ new, draft = some new →
      s.rowLock = some t ∧ ∃ now, writer = .maintenance now ∧ Drafted now s.record new
  | _ => True

/-- What is known of a transaction stays true while nobody else gets its
lock and commits. -/
theorem WriterOk.frame {entry : JobWriter × WriterPc π} (h : WriterOk s t entry)
    (hlock : s.rowLock = some t → s'.rowLock = some t ∧ s'.record = s.record) :
    WriterOk s' t entry := by
  obtain ⟨writer, pc⟩ := entry
  cases pc with
  | begun => trivial
  | waiting statement snapshot => trivial
  | locked =>
    obtain ⟨hheld, hrecord⟩ := hlock h.1
    exact ⟨hheld, by rw [hrecord]; exact h.2⟩
  | written new =>
    obtain ⟨hheld, hrecord⟩ := hlock h.1
    exact ⟨hheld, by rw [hrecord]; exact h.2⟩
  | ready statement draft | finished draft =>
    intro new hdraft
    obtain ⟨hheld, hrecord⟩ := hlock (h new hdraft).1
    exact ⟨hheld, by rw [hrecord]; exact (h new hdraft).2⟩

/-- Behind a statement the transaction has its draft. -/
theorem writerOk_after {now : Int} {draft : Option (JobRecord π)} (statement : SweepStatement)
    (h : ∀ new, draft = some new → s.rowLock = some t ∧ Drafted now s.record new) :
    WriterOk s t (.maintenance now, .after draft statement) := by
  have hready : ∀ new, draft = some new →
      s.rowLock = some t ∧ ∃ clock, JobWriter.maintenance now = .maintenance clock ∧
        Drafted clock s.record new :=
    fun new hnew => ⟨(h new hnew).1, now, rfl, (h new hnew).2⟩
  cases statement <;> exact hready

/-- A transaction that has begun knows nothing yet. -/
theorem writerOk_start (s : JobWriters π) (t : Nat) (writer : JobWriter) :
    WriterOk s t (writer, writer.start) := by
  cases writer with
  | maintenance now =>
    intro new hnew
    cases hnew
  | _ => trivial

/-- The committed job is bounded, and every transaction is as `WriterOk`
says. -/
structure WritersInv (s : JobWriters π) : Prop where
  bounded : Bounded s.record
  writers : ∀ t entry, s.writers t = some entry → WriterOk s t entry

section

variable (h : WritersInv s)
include h

/-- One transaction goes on and nothing else changes. -/
theorem WritersInv.goto {writer : JobWriter} {pc : WriterPc π} (hok : WriterOk s t (writer, pc)) :
    WritersInv (s.goto t writer pc) := by
  refine ⟨h.bounded, fun t' entry ht' => ?_⟩
  by_cases heq : t' = t
  · subst heq
    simp only [JobWriters.goto, Function.update_self, Option.some.injEq] at ht'
    subst ht'
    exact hok.frame fun hlock => ⟨hlock, rfl⟩
  · have hold : s.writers t' = some entry := (Function.update_of_ne heq ..).symm.trans ht'
    exact (h.writers t' entry hold).frame fun hlock => ⟨hlock, rfl⟩

/-- A transaction gets the lock of the row when nobody else has it. -/
theorem WritersInv.take (hfree : s.rowLock = none ∨ s.rowLock = some t) :
    WritersInv (s.take t) := by
  refine ⟨h.bounded, fun t' entry ht' => (h.writers t' entry ht').frame fun hlock => ⟨?_, rfl⟩⟩
  rcases hfree with hfree | hfree
  · rw [hfree] at hlock
    cases hlock
  · exact hfree.symm.trans hlock

/-- A transaction ends, with its changes in `new` if it had the lock. -/
theorem WritersInv.commit {new : JobRecord π} (hnew : Bounded new)
    (hlock : s.rowLock = some t ∨ new = s.record) : WritersInv (s.commit t new) := by
  refine ⟨hnew, fun t' entry ht' => ?_⟩
  have hne : t' ≠ t := by
    rintro rfl
    cases (Function.update_self ..).symm.trans ht'
  have hold : s.writers t' = some entry := (Function.update_of_ne hne ..).symm.trans ht'
  refine (h.writers t' entry hold).frame fun hheld => ?_
  have hother : s.rowLock ≠ some t := by
    grind
  exact ⟨(if_neg hother).trans hheld, hlock.resolve_left hother⟩

end

/-! ### Runs -/

/-- The steps of a transaction that has begun. -/
inductive WriterStep (s : JobWriters π) (t : Nat) : JobWriters π → Prop where
  | lock {writer : JobWriter} (ht : s.writers t = some (writer, .begun))
      (hfree : s.rowLock = none) (hlocks : writer.locks s.record = true) :
      WriterStep s t ((s.take t).goto t writer .locked)
  | write {writer : JobWriter} {new : JobRecord π} (ht : s.writers t = some (writer, .locked))
      (hok : writer.write s.record = .ok new) : WriterStep s t (s.goto t writer (.written new))
  | commit {writer : JobWriter} {new : JobRecord π}
      (ht : s.writers t = some (writer, .written new)) : WriterStep s t (s.commit t new)
  /-- The snapshot satisfies the condition of the statement. -/
  | wait {now : Int} {statement : SweepStatement} :
      WriterStep s t (s.goto t (.maintenance now) (.waiting statement s.record))
  /-- A statement on the version that the transaction has made. -/
  | draft {now : Int} {statement : SweepStatement} {draft new : JobRecord π}
      (ht : s.writers t = some (.maintenance now, .ready statement (some draft)))
      (hok : statement.apply now draft.events draft = .ok new) :
      WriterStep s t (s.goto t (.maintenance now) (.after (some new) statement))
  /-- The condition of the statement does not hold. -/
  | skip {now : Int} {statement : SweepStatement} {draft : Option (JobRecord π)}
      (ht : s.writers t = some (.maintenance now, .ready statement draft)) :
      WriterStep s t (s.goto t (.maintenance now) (.after draft statement))
  /-- A statement on the latest version, once the row is locked. -/
  | sweep {now : Int} {statement : SweepStatement} {snapshot new : JobRecord π}
      (hfree : s.rowLock = none ∨ s.rowLock = some t)
      (hok : statement.apply now snapshot.events s.record = .ok new) :
      WriterStep s t ((s.take t).goto t (.maintenance now) (.after (some new) statement))
  /-- The latest version does not satisfy the condition. -/
  | pass {now : Int} {statement : SweepStatement}
      (hfree : s.rowLock = none ∨ s.rowLock = some t) :
      WriterStep s t ((s.take t).goto t (.maintenance now) (.after none statement))
  | finish {now : Int} {draft : Option (JobRecord π)}
      (ht : s.writers t = some (.maintenance now, .finished draft)) :
      WriterStep s t (s.commit t (draft.getD s.record))
  /-- A statement fails, and the transaction is rolled back. -/
  | fail : WriterStep s t (s.commit t s.record)

/-- A step of the machine is one of these. -/
theorem writerStep_of_step (hstep : (jobWriters π).step s (.step t) = some s') :
    WriterStep s t s' := by
  dsimp only [jobWriters] at hstep
  split at hstep
  next writer ht =>
    split at hstep
    next hfree =>
      cases hstep
      exact .lock ht hfree.1 hfree.2
    next => cases hstep
  next writer ht =>
    split at hstep
    next new hok =>
      cases hstep
      exact .write ht hok
    next =>
      cases hstep
      exact .fail
  next writer new ht =>
    cases hstep
    exact .commit ht
  next now statement draft ht =>
    split at hstep
    next =>
      split at hstep
      next =>
        cases hstep
        exact .wait
      next draft =>
        split at hstep
        next new hok =>
          cases hstep
          exact .draft ht hok
        next =>
          cases hstep
          exact .fail
    next =>
      cases hstep
      exact .skip ht
  next now statement snapshot ht =>
    split at hstep
    next hfree =>
      split at hstep
      next =>
        split at hstep
        next new hok =>
          cases hstep
          exact .sweep hfree hok
        next =>
          cases hstep
          exact .fail
      next =>
        cases hstep
        exact .pass hfree
    next => cases hstep
  next now draft ht =>
    cases hstep
    exact .finish ht
  next => cases hstep

/-- One step of a transaction keeps the invariant. -/
theorem WritersInv.writerStep (h : WritersInv s) (hstep : WriterStep s t s') : WritersInv s' := by
  cases hstep with
  | lock ht hfree hlocks => exact (h.take (.inl hfree)).goto ⟨rfl, hlocks⟩
  | write ht hok =>
    obtain ⟨hlock, hlocks⟩ := h.writers t _ ht
    exact h.goto ⟨hlock, hlocks, hok⟩
  | commit ht =>
    obtain ⟨hlock, hlocks, hok⟩ := h.writers t _ ht
    exact h.commit (h.bounded.write hlocks hok) (.inl hlock)
  | wait => exact h.goto trivial
  | draft ht hok =>
    obtain ⟨hlock, now, hwriter, hdraft⟩ := h.writers t _ ht _ rfl
    cases hwriter
    refine h.goto (writerOk_after _ fun new hnew => ?_)
    cases hnew
    exact ⟨hlock, hdraft.apply hok⟩
  | skip ht =>
    refine h.goto (writerOk_after _ fun new hnew => ?_)
    obtain ⟨hlock, now, hwriter, hdraft⟩ := h.writers t _ ht new hnew
    grind
  | sweep hfree hok =>
    refine (h.take hfree).goto (writerOk_after _ fun new hnew => ?_)
    cases hnew
    exact ⟨rfl, h.bounded.drafted.apply hok⟩
  | pass hfree =>
    refine (h.take hfree).goto (writerOk_after _ fun new hnew => ?_)
    cases hnew
  | @finish now draft ht =>
    cases draft with
    | none => exact h.commit h.bounded (.inr rfl)
    | some draft =>
      obtain ⟨hlock, now, -, hdraft⟩ := h.writers t _ ht draft rfl
      exact h.commit hdraft.bounded (.inl hlock)
  | fail => exact h.commit h.bounded (.inr rfl)

/-- Every step of the machine keeps the invariant. -/
theorem WritersInv.step (h : WritersInv s) {l : WriterLabel}
    (hstep : (jobWriters π).step s l = some s') : WritersInv s' := by
  cases l with
  | begin t writer =>
    dsimp only [jobWriters] at hstep
    split at hstep
    next =>
      cases hstep
      exact h.goto (writerOk_start s t writer)
    next => cases hstep
  | step t => exact h.writerStep (writerStep_of_step hstep)
  | rollback t =>
    cases hstep
    exact h.commit h.bounded (.inr rfl)

/-- How an event gets into the tables: a client's, for a job of its own that
has neither expired nor ended; the one of a dispatch, for a job that can be
claimed; or the one of a timeout, by a maintenance transaction and for a
job that is open and has expired. -/
def Inserted (s s' : JobWriters π) (e : EventRow) : Prop :=
  (∃ t now identity sent next,
    s.writers t = some (.event now identity sent next, .written s'.record) ∧ e = sent.row next ∧
      s.record.row.targetId = identity ∧ now < s.record.row.expiresAt ∧
      isTerminalJobState s.record.row.state = false) ∨
  (∃ t now identity deliveryId,
    s.writers t = some (.claim now identity deliveryId, .written s'.record) ∧
      e = dispatchedEvent ∧ s.record.claimable identity now = true) ∨
  (∃ t now, s.writers t = some (.maintenance now, .finished (some s'.record)) ∧
    isTimeout e = true ∧ isSweptState s.record.row.state = true ∧
    isTerminalJobState s.record.row.state = false ∧ s.record.row.expiresAt ≤ now)

variable {e : EventRow}

theorem mem_of_dispatch {deliveryId : Nat} (hok : record.dispatch now deliveryId = .ok new)
    (he : e ∈ new.events) : e ∈ record.events ∨ e = dispatchedEvent := by
  obtain ⟨events, rfl, rfl | rfl⟩ := (dispatch_eq record now deliveryId).of_ok hok
  · exact .inl he
  · simpa using he

/-- The event that a transaction behind the lock has inserted. -/
theorem WritersInv.inserted_written (h : WritersInv s) {writer : JobWriter}
    (ht : s.writers t = some (writer, .written s'.record))
    (he : e ∈ s'.record.events) (hnew : e ∉ s.record.events) : Inserted s s' e := by
  obtain ⟨-, hlocks, hok⟩ := h.writers t _ ht
  cases writer with
  | claim now identity deliveryId =>
    have hmem := (mem_of_dispatch hok he).resolve_left hnew
    exact .inr (.inl ⟨t, now, identity, deliveryId, ht, hmem, hlocks⟩)
  | acknowledge now identity deliveryId =>
    simp only [JobWriter.write, JobRecord.acknowledge, require_bind] at hok
    obtain ⟨row, -, hok⟩ := bind_eq_ok.1 hok.2.2
    rw [← Except.ok.inj hok] at he
    exact absurd he hnew
  | event now identity sent next =>
    obtain ⟨htarget, hlive, -, hopen, -, -, -, hrecord⟩ := persist_ok hok
    rw [hrecord] at he
    have hrow := (List.mem_append.1 he).resolve_left hnew
    exact .inl ⟨t, now, identity, sent, next, ht, List.mem_singleton.1 hrow, htarget, hlive,
      hopen⟩
  | maintenance now => cases hlocks

/-- Every new event of a step is inserted in one of the three ways. Only
the two kinds of commits change the committed events. -/
theorem WritersInv.inserted (h : WritersInv s) {l : WriterLabel}
    (hstep : (jobWriters π).step s l = some s') (he : e ∈ s'.record.events)
    (hnew : e ∉ s.record.events) : Inserted s s' e := by
  cases l with
  | begin t writer =>
    dsimp only [jobWriters] at hstep
    split at hstep
    next =>
      cases hstep
      exact absurd he hnew
    next => cases hstep
  | rollback t =>
    cases hstep
    exact absurd he hnew
  | step t =>
    cases writerStep_of_step hstep with
    | commit ht => exact h.inserted_written ht he hnew
    | @finish now draft ht =>
      cases draft with
      | none => exact absurd he hnew
      | some draft =>
        obtain ⟨-, now', hwriter, hdraft⟩ := h.writers t _ ht draft rfl
        cases hwriter
        obtain ⟨htimeout, hswept, hexpired⟩ := (hdraft.events e he).resolve_left hnew
        exact .inr (.inr ⟨t, now, ht, htimeout, hswept, isTerminalJobState_of_swept hswept,
          hexpired⟩)
    | _ => exact absurd he hnew

/-- A job as `start_job` inserts it, with no transaction on it. -/
def JobWriters.started (row : JobRow π) : JobWriters π := ⟨⟨row, []⟩, none, fun _ => none⟩

end Centrald.Proofs.JobBounds
