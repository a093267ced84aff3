import Centrald.Proofs.LostClient

/-!
# `Centrald.Proofs.ReportedOutcome`: the stored outcome is the recorded one

The result of a job is in three places on its way to the tables: at
`handle_job` (`answered`), on a control stream, and in the tables
(`Reports`). It gets there by an answer of the broker only. A response is
the one that the ledger holds for the job. An error says nothing about the
ledger: `submit_request` gives up after `BROKER_ROUND_TRIP_TIMEOUT` while
the operation runs, and then the job is stored as failed although the
ledger will hold its success (`timeout_stored_as_failed`).

`reported_outcome_recorded` is what holds. When the daemon takes an error
for its answer, nothing is recorded for the job and no call for it is
under way. A job is not submitted while a result of it is stored or on its
way, as can be with two streams of one client. No operation is started for
a job that was started before.
-/

set_option autoImplicit false

namespace Centrald.Proofs

open Durable Common Platform Client Client.Ledger Server

variable {env : ControlEnv} {s s' : ControlState env} {l : ControlLabel env.Value}

/-! ### The result of an answer -/

/-- The state that an answer of the broker brings a job to. -/
def resultState : CallResult → JobState
  | .ok response => if response.success then .succeeded else .failed
  | .failed _ => .failed

def resultOutput : CallResult → Bytes
  | .ok response => response.output
  | .failed error => utf8 error

theorem resultEvent_eq_jobEvent (job : Job) (result : CallResult) :
    resultEvent job result = jobEvent job 2 (resultState result) (resultOutput result) true := by
  cases result with
  | ok response =>
    rw [resultEvent, resultState, resultOutput]
    split_ifs <;> rfl
  | failed error => rfl

/-- The states that the answers bring jobs to. -/
def IsResult (state : JobState) : Prop := state = .succeeded ∨ state = .failed

theorem toProto_of_ofProto {n : Int} {state : JobState} (h : JobState.ofProto n = some state) :
    n = state.toProto := by
  unfold JobState.ofProto at h
  split at h <;> cases h <;> rfl

theorem IsResult.toProto_ne_running {state : JobState} (h : IsResult state) :
    JobState.running.toProto ≠ state.toProto := by
  rcases h with rfl | rfl <;> decide

/-! ### Where the result of a job is -/

/-- A result of the job `j` for the tables. -/
inductive Reports (s : ControlState env) (j : Nat) (state : JobState) (output : Bytes) : Prop where
  | answered {n : Nat} {grants : List SignedGrant} {job : Job} {result : CallResult}
      (hsession : s.session = some ⟨n, grants, .answered job result⟩) (hjob : job.id = j)
      (hstate : resultState result = state) (houtput : resultOutput result = output)
  | inFlight {n : Nat} {event : JobEvent} (hserving : (s.links n).serving = true)
      (h : .jobEvent event ∈ (s.links n).toServer) (hjob : event.jobId = j)
      (hstate : event.state = state.toProto) (houtput : event.output = output)
  | stored {record : JobRecord env.Value} {event : EventRow} (hrecord : record ∈ s.jobs)
      (htarget : record.row.targetId = env.deviceId) (hjob : record.row.id = j)
      (hevent : event ∈ record.events) (hstate : event.state = state)
      (houtput : event.output = output)

section Stored

variable {π : Type} {record new : JobRecord π} {now : Int} {identity : Nat} {sent : JobEvent}

/-- The event that the tables hold was there before, or was sent by the
client of the job. -/
theorem stored_of_persist {db db' : JobsDb π} (h : persistJobEvent db now identity sent = .ok db')
    (hrecord : record ∈ db') {event : EventRow} (hevent : event ∈ record.events) :
    (∃ old ∈ db, old.row.id = record.row.id ∧ old.row.targetId = record.row.targetId ∧
      event ∈ old.events) ∨
    (record.row.targetId = identity ∧ sent.jobId = record.row.id ∧
      sent.state = event.state.toProto ∧ sent.output = event.output) := by
  obtain ⟨nextState, hproto, h⟩ := persistJobEvent_ok h
  obtain ⟨front, old, back, changed, rfl, hid, hchanged, rfl⟩ := modifyJob_eq_ok h
  obtain ⟨htarget, -, -, -, -, -, -, rfl⟩ := persist_ok hchanged
  rcases List.mem_append.1 hrecord with hfront | hrest
  · grind
  · rcases List.mem_cons.1 hrest with rfl | hback
    · rcases List.mem_append.1 hevent with hevent | hnew
      · grind
      · obtain rfl := List.mem_singleton.1 hnew
        exact .inr ⟨htarget, hid.symm, toProto_of_ofProto hproto, rfl⟩
    · grind

/-- Only an event of the client brings a result into the tables. -/
theorem stored_of_perform [DecidableEq π] {jsonb : π → π} {db db' : JobsDb π} {label : JobLabel π}
    (hdb : JobsInv db) (h : performJob jsonb db label = .ok db') (hrecord : record ∈ db')
    {event : EventRow} (hevent : event ∈ record.events) (hresult : IsResult event.state) :
    (∃ old ∈ db, old.row.id = record.row.id ∧ old.row.targetId = record.row.targetId ∧
      event ∈ old.events) ∨
    ∃ now sent, label = .event now record.row.targetId sent ∧ sent.jobId = record.row.id ∧
      sent.state = event.state.toProto ∧ sent.output = event.output := by
  cases hstart : label.isStart with
  | true =>
    cases label with
    | start actor request id now expiresAt =>
      obtain ⟨result, hok, rfl⟩ := map_eq_ok.1 h
      rcases startJob_eq_ok hok with hsame | ⟨row, -, hnew⟩
      · grind
      · grind
    | _ => cases hstart
  | false =>
    obtain ⟨old, hold, hstep⟩ := exists_left_of_forall₂ (performJob_steps hdb h hstart) hrecord
    cases hstep with
    | same => exact .inl ⟨record, hold, rfl, rfl, hevent⟩
    | dispatched hqueued hevents =>
      rcases hevents with rfl | rfl
      · exact .inl ⟨old, hold, rfl, rfl, hevent⟩
      · rcases List.mem_append.1 hevent with hevent | hevent
        · exact .inl ⟨old, hold, rfl, rfl, hevent⟩
        · cases List.mem_singleton.1 hevent
          exact hresult.elim nofun nofun
    | acknowledged => exact .inl ⟨old, hold, rfl, rfl, hevent⟩
    | @event _ identity now sent nextState hjob hallowed houtput =>
      refine (stored_of_persist h hrecord hevent).imp_right ?_
      grind
    | requeued hlease hended hsame hqueued =>
      grind
    | timedOut hexpired hsame hstate =>
      rcases List.mem_append.1 hevent with hevent | hevent
      · grind
      · cases List.mem_singleton.1 hevent
        exact hresult.elim nofun nofun

end Stored

/-! ### Answers -/

/-- The daemon takes an answer for the job. -/
inductive TakesAnswer (s : ControlState env) (job : Job) :
    ControlLabel env.Value → CallResult → Prop where
  | fails {n : Nat} {grants : List SignedGrant} {pc : JobPc} (error : String)
      (hsession : s.session = some ⟨n, grants, pc⟩) (hpc : jobOfPc pc = some job) :
      TakesAnswer s job (.submitFails error) (.failed error)
  | broker {n i : Nat} {grants : List SignedGrant} {c : Call} {result : CallResult}
      (hsession : s.session = some ⟨n, grants, .submitted job i⟩)
      (hc : s.broker.calls i = some c) (hanswer : c.pc.answer = some result) :
      TakesAnswer s job .answer result

/-- Where `handle_job` sends a frame, and where it goes on. -/
@[grind →] theorem sends_of_send {pc pc' : JobPc} {frame : ClientFrame}
    (h : pc.send = some (frame, pc')) :
    (∃ job grant, pc = .matched job grant ∧ pc' = .acknowledged job grant) ∨
      (∃ job grant, pc = .acknowledged job grant ∧ pc' = .started job grant) ∨
      ∃ job result, pc = .answered job result ∧ pc' = .listening := by
  cases pc <;> grind [JobPc.send]

/-- An answer at `handle_job` was there before, or was just taken. -/
theorem takesAnswer_of_step {n : Nat} {grants : List SignedGrant} {job : Job} {result : CallResult}
    (hstep : (control env).step s l = some s')
    (h : s'.session = some ⟨n, grants, .answered job result⟩) :
    s.session = some ⟨n, grants, .answered job result⟩ ∨ TakesAnswer s job l result := by
  cases l with
  | submitFails error =>
    simp only [control] at hstep
    split at hstep <;> cases hstep <;> cases h <;> exact .inr (.fails error ‹_› rfl)
  | answer =>
    simp only [control] at hstep
    split at hstep
    next hsession =>
      obtain ⟨result, hresult, rfl⟩ := Option.map_eq_some_iff.1 hstep
      obtain ⟨c, hc, hanswer⟩ := Option.bind_eq_some_iff.1 hresult
      cases h
      exact .inr (.broker hsession hc hanswer)
    next => cases hstep
  | receive =>
    simp only [control] at hstep
    split at hstep
    next =>
      split at hstep
      next => cases hstep
      next =>
        cases hstep
        cases receives_of_receive (eq_ok_of_toOption h)
    next => cases hstep
  | _ =>
    simp only [control, ControlState.stepBroker, Option.map_eq_some_iff] at hstep
    grind [Option.map_eq_some_iff, ControlState.handle, ControlState.push, ControlState.setPc]

/-! ### Reports after a step -/

/-- The events of `handle_job` that carry a result are those of answers. -/
theorem answered_of_send {pc pc' : JobPc} {event : JobEvent} {state : JobState}
    (h : pc.send = some (.jobEvent event, pc')) (hstate : event.state = state.toProto)
    (hresult : IsResult state) :
    ∃ job result, pc = .answered job result ∧ event.jobId = job.id ∧
      resultState result = state ∧ event.output = resultOutput result := by
  cases pc with
  | answered job result =>
    cases h
    rw [resultEvent_eq_jobEvent] at hstate ⊢
    refine ⟨job, result, rfl, rfl, ?_, rfl⟩
    have hproto : (resultState result).toProto = state.toProto := hstate
    have hkind : IsResult (resultState result) := by
      cases result <;> grind [resultState, IsResult]
    rcases hkind with hkind | hkind <;> rcases hresult with rfl | rfl <;>
      rw [hkind] at hproto ⊢ <;> cases hproto
  | _ =>
    cases h
    try exact (hresult.toProto_ne_running hstate).elim

section Reported

variable {j : Nat} {state : JobState} {output : Bytes}

theorem ControlStep.inFlightReport (hstep : ControlStep s l s') (hresult : IsResult state) {n : Nat}
    {event : JobEvent} (hserving : (s'.links n).serving = true)
    (h : .jobEvent event ∈ (s'.links n).toServer) (hjob : event.jobId = j)
    (hstate : event.state = state.toProto) (houtput : event.output = output) :
    Reports s j state output := by
  have hbefore : ∀ {m}, (s.links m).serving = true ∧ .jobEvent event ∈ (s.links m).toServer →
      Reports s j state output :=
    fun hlink => .inFlight hlink.1 hlink.2 hjob hstate houtput
  cases hstep with
  | @send session frame pc hsession hsend =>
    obtain ⟨m, grants, pc⟩ := session
    have hanswered := @answered_of_send pc
    dsimp only [ControlState.push, ControlState.setPc] at *
    grind [Reports]
  | _ =>
    dsimp only [ControlState.push, ControlState.setPc, ControlState.receiveFrame] at *
    grind

/-- A result in the tables was there before or on its way. -/
theorem ControlStep.storedReport (hstep : ControlStep s l s') (hinv : ControlInv s)
    (hresult : IsResult state) {record : JobRecord env.Value} {event : EventRow}
    (hrecord : record ∈ s'.jobs) (htarget : record.row.targetId = env.deviceId)
    (hjob : record.row.id = j) (hevent : event ∈ record.events) (hstate : event.state = state)
    (houtput : event.output = output) : Reports s j state output := by
  have hbefore : ∀ old ∈ s.jobs, old.row.id = record.row.id →
      old.row.targetId = record.row.targetId → event ∈ old.events → Reports s j state output :=
    fun old hold hid hsame hevent =>
      .stored hold (hsame.trans htarget) (hid.trans hjob) hevent hstate houtput
  cases hstep with
  | server hnow hclient hok =>
    rcases stored_of_perform hinv.tables.jobs hok hrecord hevent (hstate ▸ hresult) with
      ⟨old, hold, hid, hsame, hevent⟩ | ⟨now, sent, rfl, -⟩
    · exact hbefore old hold hid hsame hevent
    · exact (hclient (congrArg some htarget)).elim
  | @handled n locked deliveryId grantId frame rest jobs replies hserving hframe hok =>
    cases frame with
    | jobEvent sent =>
      obtain ⟨jobs, hpersist, hok⟩ := bind_eq_ok.1 hok
      cases hok
      rcases stored_of_persist hpersist hrecord hevent with
        ⟨old, hold, hid, hsame, hevent⟩ | ⟨-, hid, hproto, hout⟩
      · exact hbefore old hold hid hsame hevent
      · exact .inFlight hserving (by rw [hframe]; exact List.mem_cons_self) (hid.trans hjob)
          (hstate ▸ hproto) (hout.trans houtput)
    | heartbeat =>
      rcases handleClientFrame_perform hok with hsame | ⟨label, -, -, hlabel, hperform⟩
      · grind
      · rcases stored_of_perform hinv.tables.jobs hperform hrecord hevent (hstate ▸ hresult) with
          ⟨old, hold, hid, hsame, hevent⟩ | ⟨now, sent, rfl, -⟩
        · exact hbefore old hold hid hsame hevent
        · cases hlabel
    | jobDeliveryAck jobId delivery =>
      obtain ⟨jobs, hack, hok⟩ := bind_eq_ok.1 hok
      cases hok
      have hperform : performJob env.jsonb s.jobs
        (.acknowledge s.broker.clock env.deviceId jobId delivery) = .ok jobs := hack
      rcases stored_of_perform hinv.tables.jobs hperform hrecord hevent (hstate ▸ hresult) with
        ⟨old, hold, hid, hsame, hevent⟩ | ⟨now, sent, hlabel, -⟩
      · exact hbefore old hold hid hsame hevent
      · cases hlabel
  | _ => exact hbefore record hrecord rfl rfl hevent

/-- A result was where it is now, or is the answer that was just taken. -/
theorem reports_of_step (hinv : ControlInv s) (hstep : (control env).step s l = some s')
    (hresult : IsResult state) (h : Reports s' j state output) :
    Reports s j state output ∨ ∃ job result, TakesAnswer s job l result ∧ job.id = j ∧
      resultState result = state ∧ resultOutput result = output := by
  cases h with
  | answered hsession hjob hstate houtput =>
    rcases takesAnswer_of_step hstep hsession with hbefore | hanswer
    · exact .inl (.answered hbefore hjob hstate houtput)
    · exact .inr ⟨_, _, hanswer, hjob, hstate, houtput⟩
  | inFlight hserving h hjob hstate houtput =>
    exact .inl ((controlStep_of_step hstep).inFlightReport hresult hserving h hjob hstate houtput)
  | stored hrecord htarget hjob hevent hstate houtput =>
    exact .inl ((controlStep_of_step hstep).storedReport hinv hresult hrecord htarget hjob hevent
      hstate houtput)

end Reported

/-! ### The job of a session and its call -/

/-- `handle_job` has the grant of its job, and its call is for the job. -/
structure SessionInv (s : ControlState env) : Prop where
  held : ∀ session, s.session = some session → ∀ job grant, jobOfPc session.pc = some job →
    grantOfPc session.pc = some grant → grant.grant.jobOrSessionId = job.id
  submitted : ∀ n grants job i, s.session = some ⟨n, grants, .submitted job i⟩ →
    ∀ c, s.broker.calls i = some c → c.job = job.id

/-- A job that is matched has the identifier of its grant. -/
theorem held_of_receive {session session' : Session} {now : Int} {frame : ServerFrame}
    {job : Job} {grant : SignedGrant} (hpc : session.pc = .listening)
    (h : session.receive env now frame = .ok session') (hjob : jobOfPc session'.pc = some job)
    (hgrant : grantOfPc session'.pc = some grant) : grant.grant.jobOrSessionId = job.id := by
  cases frame with
  | job job' => grind [Session.receive, Session.matchJob, jobOfPc, grantOfPc]
  | signedGrant signed =>
    cases receives_of_receive h
    grind [jobOfPc]
  | heartbeatAck => grind [Session.receive, jobOfPc]

/-- A step keeps the grant and the call of `handle_job` on its job. -/
theorem SessionInv.step (h : SessionInv s) (hinv : ControlInv s)
    (hstep : (control env).step s l = some s') : SessionInv s' := by
  obtain ⟨rs, hrep⟩ := hinv.ledger
  cases controlStep_of_step hstep with
  | @broker l label broker hl hbroker =>
    refine ⟨h.held, fun n grants job i hsession c hc => ?_⟩
    cases callFrom_of_step hrep hbroker hc with
    | same hc => exact h.submitted n grants job i hsession c hc
    | entered request hcall hd =>
      subst hcall
      rcases hl with ⟨-, hinternal⟩ | ⟨clock, -, htick⟩
      · cases hinternal
      · cases htick
    | moved hc hsame => exact hsame.symm.trans (h.submitted n grants job i hsession _ hc)
  | @receive n grants frame rest hsession hframe =>
    refine ⟨fun session hnew job grant hjob hgrant => ?_, fun m grants job i hnew => ?_⟩
    · exact held_of_receive rfl (eq_ok_of_toOption hnew) hjob hgrant
    · cases receives_of_receive (eq_ok_of_toOption hnew)
  | @submit n i grants job grant broker hsession hbroker =>
    have hheld := h.held _ hsession job grant rfl rfl
    obtain ⟨hup, hfree⟩ : s.broker.up = true ∧ s.broker.calls i = none :=
      (Option.ite_none_right_eq_some.1 hbroker).1
    refine ⟨by grind [grantOfPc], fun m grants' job' k hnew c hc => ?_⟩
    cases hnew
    cases callFrom_of_step hrep hbroker hc <;> grind
  | _ =>
    obtain ⟨hheld, hsubmitted⟩ := h
    constructor <;> grind [jobOfPc, grantOfPc, ControlState.push, ControlState.setPc]

/-! ### The jobs of the client -/

/-- The job is in the tables, for this client. -/
def OwnJob (s : ControlState env) (j : Nat) : Prop :=
  ∃ record ∈ s.jobs, record.row.id = j ∧ record.row.targetId = env.deviceId

theorem OwnJob.step {j : Nat} (h : OwnJob s j) (hinv : ControlInv s)
    (hstep : ControlStep s l s') : OwnJob s' j := by
  obtain ⟨record, hrecord, hid, htarget⟩ := h
  obtain ⟨new, hnew, hextends⟩ := hstep.grows hinv record hrecord
  exact ⟨new, hnew, hextends.id.trans hid, hextends.target.trans htarget⟩

theorem ownJob_of_issues {signed : SignedGrant} (h : Issues s signed l) :
    OwnJob s signed.grant.jobOrSessionId := by
  cases l with
  | deliver n locked deliveryId grantId =>
    obtain ⟨-, record, hnext, rfl⟩ := h
    obtain ⟨hrecord, hclaimable⟩ := nextJob_eq_some hnext
    exact ⟨record, hrecord, rfl, (of_decide_eq_true hclaimable).1⟩
  | _ => exact h.elim

/-- Grants and completed records are for jobs of the client. -/
structure OwnJobs (rs : List LedgerRecord) (s : ControlState env) : Prop where
  grants : ∀ signed, Present s signed → OwnJob s signed.grant.jobOrSessionId
  records : ∀ q ∈ rs, q.state = .completed → OwnJob s q.jobId

/-! ### Whole runs -/

/-- What an outcome in the tables says about the ledger: its records of the
job carry this outcome, or there are none. -/
def Accounted (rs : List LedgerRecord) (s : ControlState env) (j : Nat) (state : JobState)
    (output : Bytes) : Prop :=
  (∃ r, Settled rs s.broker j r ∧ resultState (.ok r) = state ∧ r.output = output) ∨
    Unanswered rs s.broker j

/-- Nothing is recorded for the job, and no call for it is under way. -/
def NothingKnown (s : ControlState env) (j : Nat) : Prop :=
  ∀ rs, Represents env s.broker.ledger rs → Unanswered rs s.broker j

/-- The condition. An error is taken for an answer only if nothing is
recorded for the job and no call for it is under way. A job is submitted
only if no result of it is stored or on its way. An operation is started
only for a job that was not started before. -/
def ReportsKnown (s : ControlState env) (l : ControlLabel env.Value) : Prop :=
  (∀ job error, TakesAnswer s job l (.failed error) → NothingKnown s job.id) ∧
  (∀ i session job, l = .submit i → s.session = some session → jobOfPc session.pc = some job →
    ∀ state output, IsResult state → ¬Reports s job.id state output) ∧
  ∀ label, l = .broker label → StartsOnce s.broker label

/-- The invariants of the parties, and: every result that is reported is
accounted for by the ledger. -/
structure OutcomesInv (rs : List LedgerRecord) (s : ControlState env) : Prop where
  system : ControlInv s
  session : SessionInv s
  own : OwnJobs rs s
  outcome : OutcomeInv rs s.broker
  reports : ∀ j state output, IsResult state → Reports s j state output →
    Accounted rs s j state output

/-- A step of the broker in a run that meets the condition. -/
structure BrokerMoves (s : ControlState env) (l : ControlLabel env.Value) (label : BrokerLabel)
    (broker : BrokerState env) : Prop where
  step : (executor env).step s.broker label = some broker
  startsOnce : StartsOnce s.broker label
  calls : ∀ i request, label = .call i request → ∀ state output, IsResult state →
    ¬Reports s request.signedGrant.grant.jobOrSessionId state output
  noAnswer : ∀ job result, ¬TakesAnswer s job l result

theorem brokerMoves_of_step (h : SessionInv s) (hG : ReportsKnown s l)
    (hstep : (control env).step s l = some s') :
    s'.broker = s.broker ∨ ∃ label, BrokerMoves s l label s'.broker := by
  cases controlStep_of_step hstep with
  | @broker l label broker hl hbroker =>
    rcases hl with ⟨rfl, hinternal⟩ | ⟨clock, rfl, rfl⟩
    · refine .inr ⟨label, hbroker, hG.2.2 label rfl, ?_, nofun⟩
      rintro i request rfl
      cases hinternal
    · exact .inr ⟨_, hbroker, trivial, nofun, nofun⟩
  | @submit n i grants job grant broker hsession hbroker =>
    refine .inr ⟨_, hbroker, trivial, ?_, nofun⟩
    intro k request hcall
    cases hcall
    rw [h.held _ hsession job grant rfl rfl]
    exact hG.2.1 i _ job rfl hsession rfl
  | _ => exact .inl rfl

section Steps

variable {rs rs' : List LedgerRecord}

/-- The answer that was just taken is accounted for. -/
theorem OutcomesInv.taken (h : OutcomesInv rs s)
    (hrep : Represents env s.broker.ledger rs) (hG : ReportsKnown s l) {job : Job}
    {result : CallResult} (htaken : TakesAnswer s job l result) :
    Accounted rs s job.id (resultState result) (resultOutput result) := by
  cases result with
  | failed error => exact .inr (hG.1 job error htaken rs hrep)
  | ok r =>
    cases htaken with
    | broker hsession hc hanswer =>
      rename_i c
      have hpc : c.pc = .returned (.ok r) := by
        cases hpc : c.pc with
        | returned result =>
          rw [hpc] at hanswer
          cases hanswer
          rfl
        | refused e =>
          rw [hpc] at hanswer
          cases hanswer
        | _ =>
          rw [hpc] at hanswer
          cases hanswer
      have hsettled := h.outcome.returned _ c r hc hpc
      rw [h.session.submitted _ _ _ _ hsession c hc] at hsettled
      exact .inl ⟨r, hsettled, rfl, rfl⟩

theorem OwnJobs.step (h : OwnJobs rs s) (hinv : ControlInv s) (hstep : ControlStep s l s')
    (hrecords : ∀ q ∈ rs', q.state = .completed → q ∈ rs ∨
      ∃ i c, s.broker.calls i = some c ∧ q.jobId = c.job) : OwnJobs rs' s' where
  grants signed hpresent := by
    rcases present_of_step hinv hstep hpresent with hbefore | hissued
    · exact (h.grants signed hbefore).step hinv hstep
    · exact (ownJob_of_issues hissued).step hinv hstep
  records q hq hstate := by
    rcases hrecords q hq hstate with hq | ⟨i, c, hc, hjob⟩
    · exact (h.records q hq hstate).step hinv hstep
    · rw [hjob]
      exact (h.grants _ (.called hc rfl)).step hinv hstep

/-- A step keeps every reported result accounted for. -/
theorem OutcomesInv.step (h : OutcomesInv rs s)
    (hrep : Represents env s.broker.ledger rs) (hG : ReportsKnown s l)
    (hstep : (control env).step s l = some s') :
    ∃ rs', Represents env s'.broker.ledger rs' ∧ OutcomesInv rs' s' := by
  have hcontrol := controlStep_of_step hstep
  rcases brokerMoves_of_step h.session hG hstep with hsame | ⟨label, hmoves⟩
  · refine ⟨rs, hsame ▸ hrep, h.system.step hcontrol, h.session.step h.system hstep,
      h.own.step h.system hcontrol fun q hq _ => .inl hq, hsame ▸ h.outcome, ?_⟩
    intro j state output hresult hreport
    rw [Accounted, hsame]
    rcases reports_of_step h.system hstep hresult hreport with
      hbefore | ⟨job, result, htaken, rfl, rfl, rfl⟩
    · exact h.reports j state output hresult hbefore
    · exact h.taken hrep hG htaken
  · obtain ⟨rs', hrep', hexec⟩ := executorStep_of_step hrep hmoves.step
    refine ⟨rs', hrep', h.system.step hcontrol, h.session.step h.system hstep,
      h.own.step h.system hcontrol ?_, h.outcome.step hrep hmoves.startsOnce hmoves.step hexec, ?_⟩
    · intro q hq hstate
      rcases completed_of_step hexec hq hstate with hq | ⟨i, c, hnew⟩
      · exact .inl hq
      · exact .inr ⟨i, c, hnew.call, hnew.jobId⟩
    · intro j state output hresult hreport
      rcases reports_of_step h.system hstep hresult hreport with
        hbefore | ⟨job, result, htaken, -⟩
      · rcases h.reports j state output hresult hbefore with ⟨r, hsettled, hmatch⟩ | hunanswered
        · exact .inl ⟨r, hsettled.step hrep hmoves.startsOnce hmoves.step hexec, hmatch⟩
        · -- a call for the job would be made while this result is about
          refine .inr (hunanswered.step hrep ?_ hmoves.step hexec)
          rintro i request rfl rfl
          exact hmoves.calls i request rfl state output hresult hbefore
      · exact (hmoves.noAnswer job result htaken).elim

end Steps

theorem outcomesInv_fresh (clock : Int) : OutcomesInv [] (.fresh env clock) where
  system := controlInv_fresh clock
  session := by constructor <;> nofun
  own := by
    refine ⟨fun signed hpresent => ?_, fun q hq => by cases hq⟩
    cases hpresent with
    | inFlight h => cases h
    | inSession hsession => cases hsession
    | called hc => cases hc
  outcome := outcomeInv_fresh clock
  reports j state output _ hreport := by
    cases hreport with
    | answered hsession => cases hsession
    | inFlight hserving => cases hserving
    | stored hrecord => cases hrecord

section

variable {clock : Int} (h : (control env).Reaches ReportsKnown (.fresh env clock) s)
include h

theorem outcomesInv_of_reaches :
    ∃ rs, Represents env s.broker.ledger rs ∧ OutcomesInv rs s :=
  h.invariant (I := fun s => ∃ rs, Represents env s.broker.ledger rs ∧
      OutcomesInv rs s) ⟨[], represents_none.2 rfl, outcomesInv_fresh clock⟩
    fun _ _ _ ⟨_, hrep, hinv⟩ hG hstep => hinv.step hrep hG hstep

/-- The tables only grow. -/
theorem grows_of_reaches (h' : (control env).Reaches ReportsKnown s s') : Grows s.jobs s'.jobs := by
  have hgrows : ControlInv s' ∧ Grows s.jobs s'.jobs :=
    h'.invariant (I := fun t => ControlInv t ∧ Grows s.jobs t.jobs)
      ⟨controlInv_of_reaches h, .refl _⟩ fun _ _ _ ⟨hinv, hgrows⟩ _ hstep =>
        ⟨hinv.step (controlStep_of_step hstep),
          hgrows.trans ((controlStep_of_step hstep).grows hinv)⟩
  exact hgrows.2

end

/-- In every run that meets the condition, if a job is stored as succeeded
or failed, and the ledger holds a completed record of it then or later,
then the stored state and output are those of the recorded response. -/
theorem reported_outcome_recorded {clock : Int}
    (h : (control env).Reaches ReportsKnown (.fresh env clock) s)
    (h' : (control env).Reaches ReportsKnown s s') {record : JobRecord env.Value}
    (hrecord : record ∈ s.jobs)
    (hstate : record.row.state = .succeeded ∨ record.row.state = .failed) {event : EventRow}
    (hevent : event ∈ record.events) (hterminal : event.terminal = true)
    {rs : List LedgerRecord} (hrep : Represents env s'.broker.ledger rs)
    {q : LedgerRecord} (hq : q ∈ rs) (hjob : q.jobId = record.row.id)
    (hcompleted : q.state = .completed) :
    ∃ r, q.response = some r ∧ (record.row.state = .succeeded ↔ r.success = true) ∧
      event.output = r.output := by
  obtain ⟨rs', hrep', hinv⟩ := outcomesInv_of_reaches (h.trans h')
  obtain rfl := hrep.unique hrep'
  -- the job is still stored, and it is one of this client
  obtain ⟨new, hnew, hextends⟩ := grows_of_reaches h h' record hrecord
  obtain ⟨own, hown, hid, htarget⟩ := hinv.own.records q hq hcompleted
  obtain rfl : own = new :=
    hinv.system.tables.jobs.eq_of_id hown hnew ((hid.trans hjob).trans hextends.id.symm)
  have hsame : event.state = record.row.state :=
    ((controlInv_of_reaches h).tables.jobs.records record hrecord).sameState event hevent hterminal
  have hreport : Reports s' record.row.id record.row.state event.output :=
    .stored hnew htarget hextends.id (hextends.events.subset hevent) hsame rfl
  rcases hinv.reports _ _ _ hstate hreport with ⟨r, hsettled, hresult, houtput⟩ | hunanswered
  · refine ⟨r, hsettled.records q hq ⟨hjob, hcompleted⟩, ?_, houtput.symm⟩
    rw [← hresult, resultState]
    cases r.success <;> simp
  · exact (hunanswered.records q hq ⟨hjob, hcompleted⟩).elim

/-! ### Concrete runs -/

/-- A check that is enough for the condition on the link 0. -/
def reportsKnown (s : ControlState env) : ControlLabel env.Value → Bool
  | .submitFails _ => false
  | .answer => s.session.all fun session =>
    match session.pc with
    | .submitted _ i => (s.broker.calls i).all fun c =>
      match c.pc.answer with
      | some (.failed _) => false
      | _ => true
    | _ => true
  | .submit _ =>
    (s.session.all fun session =>
      match session.pc with
      | .answered _ _ => false
      | _ => true) &&
    ((s.links 0).toServer.all fun frame =>
      match frame with
      | .jobEvent event => event.state != JobState.succeeded.toProto &&
        event.state != JobState.failed.toProto
      | _ => true) &&
    s.jobs.all fun record => record.events.all fun event =>
      event.state != .succeeded && event.state != .failed
  | .broker (.run _) => s.broker.executions.isEmpty
  | l => usesFirstLink l

theorem not_reports_of_check {i j : Nat} {state : JobState} {output : Bytes}
    (h : reportsKnown s (.submit i) = true) (hlinks : ∀ n, n ≠ 0 → (s.links n).serving = false)
    (hresult : IsResult state) : ¬Reports s j state output := by
  simp only [reportsKnown, Bool.and_eq_true] at h
  obtain ⟨⟨hsession, hframes⟩, hevents⟩ := h
  intro hreport
  cases hreport with
  | answered hs =>
    rw [hs] at hsession
    cases hsession
  | @inFlight n event hserving hmem _ hstate =>
    by_cases hn : n = 0
    · subst hn
      have hevent := List.all_eq_true.1 hframes _ hmem
      rcases hresult with rfl | rfl <;> simp [hstate] at hevent
    · grind
  | @stored record event hrecord _ _ hmem hstate =>
    have hevent := List.all_eq_true.1 (List.all_eq_true.1 hevents _ hrecord) _ hmem
    rcases hresult with rfl | rfl <;> simp [hstate] at hevent

theorem reportsKnown_of_check {clock : Int}
    (hs : (control env).Reaches (fun s l => ReportsKnown s l ∧ usesFirstLink l = true)
      (.fresh env clock) s) (h : reportsKnown s l = true) :
    ReportsKnown s l ∧ usesFirstLink l = true := by
  have hlinks := serving_of_usesFirstLink (hs.mono fun _ _ hG => hG.2)
  refine ⟨⟨?_, ?_, ?_⟩, ?_⟩
  · intro job error htaken
    cases htaken with
    | fails => cases h
    | broker hsession hc hanswer =>
      simp [reportsKnown, hsession, hc, hanswer] at h
  · rintro i session job rfl - - state output hresult
    exact not_reports_of_check h hlinks hresult
  · rintro label rfl
    cases label with
    | run i =>
      rintro c - ⟨e, he, -⟩
      rw [List.isEmpty_iff.1 h] at he
      cases he
    | _ => trivial
  · cases l with
    | connect n => exact h
    | _ => rfl

/-- The records of the job 5 after its operation. -/
def sampleRecords (operation : GrantOperation) : List LedgerRecord :=
  [⟨5, operation, .executing, none, 1800 * second, 0⟩,
    ⟨5, operation, .completed, some ⟨true, [111], 0⟩, 604800 * second, 0⟩]

/-- The tables hold an end of the job 5, and the ledger a success. -/
abbrev StoredAs (operation : GrantOperation) (state : JobState) (s : ControlState sampleControl) :
    Prop :=
  committedPart (s.broker.ledger.getD []) =
      encodeLedger sampleControl (sampleRecords operation) ∧
    ∃ record ∈ s.jobs, record.row.id = 5 ∧ record.row.state = state ∧
      ∃ event ∈ record.events, event.terminal = true

/-- The daemon waits for the answer: the success that is stored is the one
that is recorded. -/
theorem reported_outcome_recorded_success :
    ∃ (s : ControlState sampleControl) (record : JobRecord sampleControl.Value)
      (event : EventRow) (q : LedgerRecord) (r : BrokerResponse),
      (control sampleControl).Reaches ReportsKnown (.fresh sampleControl 0) s ∧
      record ∈ s.jobs ∧ record.row.state = .succeeded ∧ event ∈ record.events ∧
      q.jobId = record.row.id ∧ q.response = some r ∧
      (record.row.state = .succeeded ↔ r.success = true) ∧ event.output = r.output := by
  have hrun : ((control sampleControl).run reportsKnown (.fresh sampleControl 0)
      (acknowledgeLabels ++ completeLabels ++
        [.answer, .send, .deliver 0 (fun _ => false) 0 0])).map
      (fun s => decide (StoredAs .checkOsUpdates .succeeded s)) = some true := by
    decide +kernel
  obtain ⟨s, hs, hview⟩ := Option.map_eq_some_iff.1 hrun
  obtain ⟨hrep, record, hrecord, hid, hstate, event, hevent, hterminal⟩ := of_decide_eq_true hview
  have hreach : (control sampleControl).Reaches ReportsKnown (.fresh sampleControl 0) s :=
    (Machine.Reaches.refl.of_run (fun _ _ => reportsKnown_of_check) hs).mono fun _ _ hG => hG.1
  have hq := List.mem_of_getElem? (l := sampleRecords .checkOsUpdates) (i := 1) rfl
  obtain ⟨r, hr, hmatch⟩ := reported_outcome_recorded hreach .refl hrecord (.inl hstate) hevent
    hterminal hrep hq hid.symm rfl
  exact ⟨s, record, _, _, r, hreach, hrecord, hstate, hevent, hid.symm, hr, hmatch⟩

/-- As `acknowledgeLabels`, for an update of the client. -/
def updateLabels : List (ControlLabel sampleControl.Value) :=
  .server (.start 3 { sampleStart with kind := .updateClient } 5 0 (1800 * second)) ::
    acknowledgeLabels.tail

/-- The daemon gives up on the broker before the operation ends. -/
def timeoutLabels : List (ControlLabel sampleControl.Value) :=
  [.tick (1200 * second), .submitFails "broker round trip timed out", .send,
    .deliver 0 (fun _ => false) 0 0]

/-- An update of the client takes 1300 s: its download may last for 600 s
and its installation for 900 s. The daemon waits for 1200 s. The job is
stored as failed, and then the ledger records its success. -/
theorem timeout_stored_as_failed :
    ∃ (s : ControlState sampleControl) (record : JobRecord sampleControl.Value)
      (rs : List LedgerRecord) (q : LedgerRecord) (r : BrokerResponse),
      (control sampleControl).Reaches (fun _ _ => True) (.fresh sampleControl 0) s ∧
      record ∈ s.jobs ∧ record.row.state = .failed ∧
      Represents sampleControl s.broker.ledger rs ∧ q ∈ rs ∧
      q.jobId = record.row.id ∧ q.operation = .updateClient ∧ q.state = .completed ∧
      q.response = some r ∧ r.success = true := by
  have hrun : ((control sampleControl).run (fun _ _ => true) (.fresh sampleControl 0)
      (updateLabels ++ completeLabels.take 10 ++ timeoutLabels ++
        .tick (1300 * second) :: completeLabels.drop 10)).map
      (fun s => decide (StoredAs .updateClient .failed s)) = some true := by
    decide +kernel
  obtain ⟨s, hreach, hview⟩ := Machine.exists_of_view hrun
  obtain ⟨hrep, record, hrecord, hid, hstate, -⟩ := of_decide_eq_true hview
  have hq := List.mem_of_getElem? (l := sampleRecords .updateClient) (i := 1) rfl
  exact ⟨s, record, _, _, _, hreach, hrecord, hstate, hrep, hq, hid.symm, rfl, rfl, rfl, rfl⟩

end Centrald.Proofs
