import Centrald.Proofs.JobSteps
import Centrald.Proofs.LiveGrant
import Centrald.System

/-!
# `Centrald.Proofs.Control`: the steps of the system

`ControlStep` says once what a step of `control` can do.
`controlStep_of_step` shows that every step is one of its cases.

Each step makes at most one transaction on the tables
(`ControlStep.jobs`) and at most one step of the broker
(`ControlStep.broker_step`). So the broker runs as `executor` does
(`broker_reaches`), and what is proved about it holds in every run of
the system.
-/

set_option autoImplicit false

namespace Centrald.Proofs

open Durable Common Client Server

variable {env : ControlEnv}

/-- What a step does. -/
inductive ControlStep (s : ControlState env) :
    ControlLabel env.Value → ControlState env → Prop where
  | broker {l : ControlLabel env.Value} {label : BrokerLabel}
      {broker : BrokerState env}
      (hl : l = .broker label ∧ label.isInternal = true ∨
        ∃ clock, l = .tick clock ∧ label = .tick clock)
      (hstep : (executor env).step s.broker label = some broker) :
      ControlStep s l { s with broker }
  | server {transaction : JobLabel env.Value} {jobs : JobsDb env.Value}
      (hnow : transaction.now = s.broker.clock)
      (hclient : transaction.client ≠ some env.deviceId)
      (hok : performJob env.jsonb s.jobs transaction = .ok jobs) :
      ControlStep s (.server transaction) { s with jobs }
  | connect {n : Nat} (hsession : s.session = none) (hfree : (s.links n).serving = false) :
      ControlStep s (.connect n) { s with
        links := Function.update s.links n ⟨true, [], []⟩
        session := some ⟨n, [], .listening⟩ }
  | heartbeat {n : Nat} {grants : List SignedGrant}
      (hsession : s.session = some ⟨n, grants, .listening⟩) :
      ControlStep s .heartbeat (s.push n .heartbeat)
  | refused {n : Nat} {locked : Nat → Bool} {deliveryId grantId : Nat} {frame : ClientFrame}
      {rest : List ClientFrame} (hserving : (s.links n).serving = true)
      (hframe : (s.links n).toServer = frame :: rest) :
      ControlStep s (.deliver n locked deliveryId grantId) { s with
        links := Function.update s.links n
          { s.links n with serving := false, toServer := rest } }
  | handled {n : Nat} {locked : Nat → Bool} {deliveryId grantId : Nat} {frame : ClientFrame}
      {rest : List ClientFrame} {jobs : JobsDb env.Value} {replies : List ServerFrame}
      (hserving : (s.links n).serving = true) (hframe : (s.links n).toServer = frame :: rest)
      (hok : handleClientFrame env s.jobs s.broker.clock locked deliveryId grantId frame =
        .ok (jobs, replies)) :
      ControlStep s (.deliver n locked deliveryId grantId) { s with
        jobs
        links := Function.update s.links n
          { s.links n with toServer := rest, toClient := (s.links n).toClient ++ replies } }
  | hangUp (n : Nat) :
      ControlStep s (.hangUp n)
        { s with links := Function.update s.links n { s.links n with serving := false } }
  | receive {n : Nat} {grants : List SignedGrant} {frame : ServerFrame}
      {rest : List ServerFrame} (hsession : s.session = some ⟨n, grants, .listening⟩)
      (hframe : (s.links n).toClient = frame :: rest) :
      ControlStep s .receive (s.receiveFrame ⟨n, grants, .listening⟩ frame rest)
  | send {session : Session} {frame : ClientFrame} {pc : JobPc}
      (hsession : s.session = some session) (hsend : session.pc.send = some (frame, pc)) :
      ControlStep s .send ((s.push session.connection frame).setPc session pc)
  | submit {n i : Nat} {grants : List SignedGrant} {job : Job} {grant : SignedGrant}
      {broker : BrokerState env}
      (hsession : s.session = some ⟨n, grants, .started job grant⟩)
      (hstep : (executor env).step s.broker (.call i ⟨grant, job.parametersJson⟩) =
        some broker) :
      ControlStep s (.submit i) { s with
        broker
        session := some ⟨n, grants, .submitted job i⟩ }
  | answered {l : ControlLabel env.Value} {n : Nat} {grants : List SignedGrant} {pc : JobPc}
      {job : Job} {result : CallResult} (hsession : s.session = some ⟨n, grants, pc⟩)
      (hpc : (∃ grant, pc = .started job grant) ∨ ∃ i, pc = .submitted job i) :
      ControlStep s l { s with session := some ⟨n, grants, .answered job result⟩ }
  | disconnect : ControlStep s .disconnect { s with session := none }

variable {s s' : ControlState env} {l : ControlLabel env.Value}

variable {label : BrokerLabel}

theorem stepBroker_eq_some (h : s.stepBroker label = some s') :
    ∃ broker, (executor env).step s.broker label = some broker ∧
      s' = { s with broker } := by
  obtain ⟨broker, hstep, rfl⟩ := Option.map_eq_some_iff.1 h
  exact ⟨broker, hstep, rfl⟩

theorem step_broker {broker : BrokerState env} (hinternal : label.isInternal = true)
    (hstep : (executor env).step s.broker label = some broker) :
    (control env).step s (.broker label) = some { s with broker } := by
  show (if label.isInternal then s.stepBroker label else none) = _
  rw [if_pos hinternal, ControlState.stepBroker, hstep]
  rfl

theorem controlStep_of_deliver {n : Nat} {locked : Nat → Bool} {deliveryId grantId : Nat}
    (h : (control env).step s (.deliver n locked deliveryId grantId) = some s') :
    ControlStep s (.deliver n locked deliveryId grantId) s' := by
  simp only [control] at h
  split at h
  next frame rest toClient hlink =>
    have hserving : (s.links n).serving = true := by rw [hlink]
    have hframe : (s.links n).toServer = frame :: rest := by rw [hlink]
    cases h
    rw [ControlState.handle]
    cases hresult : handleClientFrame env s.jobs s.broker.clock locked deliveryId grantId frame with
    | error e => exact .refused hserving hframe
    | ok result => exact .handled hserving hframe hresult
  next => cases h

/-- Each step of the system is one of the cases of `ControlStep`. -/
theorem controlStep_of_step (h : (control env).step s l = some s') : ControlStep s l s' := by
  cases l with
  | tick clock =>
    obtain ⟨broker, hstep, rfl⟩ := stepBroker_eq_some h
    exact .broker (.inr ⟨clock, rfl, rfl⟩) hstep
  | server transaction =>
    obtain ⟨⟨hnow, hclient, -⟩, h⟩ := Option.ite_none_right_eq_some.1 h
    obtain ⟨jobs, hjobs, rfl⟩ := Option.map_eq_some_iff.1 h
    exact .server hnow hclient (eq_ok_of_toOption hjobs)
  | connect n =>
    obtain ⟨⟨hsession, hfree⟩, h⟩ := Option.ite_none_right_eq_some.1 h
    cases h
    exact .connect hsession hfree
  | heartbeat =>
    simp only [control] at h
    split at h
    next n grants hsession =>
      cases h
      exact .heartbeat hsession
    next => cases h
  | deliver n locked deliveryId grantId => exact controlStep_of_deliver h
  | hangUp n =>
    cases h
    exact .hangUp n
  | receive =>
    simp only [control] at h
    split at h
    next n grants hsession =>
      split at h
      next => cases h
      next frame rest hframe =>
        cases h
        exact .receive hsession hframe
    next => cases h
  | send =>
    simp only [control] at h
    split at h
    next => cases h
    next session hsession =>
      obtain ⟨⟨frame, pc⟩, hsend, rfl⟩ := Option.map_eq_some_iff.1 h
      exact .send hsession hsend
  | submit i =>
    simp only [control] at h
    split at h
    next n grants job grant hsession =>
      obtain ⟨t, ht, rfl⟩ := Option.map_eq_some_iff.1 h
      obtain ⟨broker, hstep, rfl⟩ := stepBroker_eq_some ht
      exact .submit hsession hstep
    next => cases h
  | submitFails error =>
    simp only [control] at h
    split at h
    next n grants job grant hsession =>
      cases h
      exact .answered hsession (.inl ⟨grant, rfl⟩)
    next n grants job i hsession =>
      cases h
      exact .answered hsession (.inr ⟨i, rfl⟩)
    next => cases h
  | answer =>
    simp only [control] at h
    split at h
    next n grants job i hsession =>
      obtain ⟨result, -, rfl⟩ := Option.map_eq_some_iff.1 h
      exact .answered hsession (.inr ⟨i, rfl⟩)
    next => cases h
  | disconnect =>
    obtain ⟨-, h⟩ := Option.ite_none_left_eq_some.1 h
    cases h
    exact .disconnect
  | broker label =>
    obtain ⟨hinternal, h⟩ := Option.ite_none_right_eq_some.1 h
    obtain ⟨broker, hstep, rfl⟩ := stepBroker_eq_some h
    exact .broker (.inl ⟨rfl, hinternal⟩) hstep

/-! ### The tables -/

theorem handleClientFrame_heartbeat {jobs jobs' : JobsDb env.Value} {now : Int}
    {locked : Nat → Bool} {deliveryId grantId : Nat} {replies : List ServerFrame}
    (h : handleClientFrame env jobs now locked deliveryId grantId .heartbeat =
      .ok (jobs', replies)) :
    (jobs' = jobs ∧ replies = [.heartbeatAck]) ∨
    ∃ claimed, claimNextJob jobs locked env.deviceId now deliveryId = .ok (jobs', claimed) ∧
      replies = .heartbeatAck :: claimFrames env now deliveryId grantId claimed := by
  simp only [handleClientFrame] at h
  split at h
  next =>
    obtain ⟨⟨jobs'', claimed⟩, hclaim, h⟩ := bind_eq_ok.1 h
    cases h
    exact .inr ⟨claimed, hclaim, rfl⟩
  next =>
    cases h
    exact .inl ⟨rfl, rfl⟩

/-- The job that a frame names. -/
def frameJob : ClientFrame → Option Nat
  | .heartbeat => none
  | .jobDeliveryAck jobId _ => some jobId
  | .jobEvent event => some event.jobId

/-- The job that a transaction names. -/
def labelJob {π : Type} : JobLabel π → Option Nat
  | .start _ _ _ _ _ | .claim _ _ _ _ | .maintenance _ => none
  | .acknowledge _ _ jobId _ => some jobId
  | .event _ _ event => some event.jobId

section

variable {jobs jobs' : JobsDb env.Value} {now : Int} {replies : List ServerFrame}
  {deliveryId grantId : Nat} {frame : ClientFrame} {locked : Nat → Bool}
  (h : handleClientFrame env jobs now locked deliveryId grantId frame = .ok (jobs', replies))
include h

/-- A handled frame is a transaction of the client, or nothing. -/
theorem handleClientFrame_perform :
    jobs' = jobs ∨ ∃ label, label.isStart = false ∧ label.now = now ∧
      labelJob label = frameJob frame ∧ performJob env.jsonb jobs label = .ok jobs' := by
  cases frame with
  | heartbeat =>
    rcases handleClientFrame_heartbeat h with ⟨hsame, -⟩ | ⟨claimed, hclaim, -⟩
    · exact .inl hsame
    · exact .inr ⟨.claim locked env.deviceId now deliveryId, rfl, rfl, rfl,
        map_eq_ok.2 ⟨_, hclaim, rfl⟩⟩
  | jobDeliveryAck jobId deliveryId =>
    obtain ⟨jobs'', hok, h⟩ := bind_eq_ok.1 h
    cases h
    exact .inr ⟨.acknowledge now env.deviceId jobId deliveryId, rfl, rfl, rfl, hok⟩
  | jobEvent event =>
    obtain ⟨jobs'', hok, h⟩ := bind_eq_ok.1 h
    cases h
    exact .inr ⟨.event now env.deviceId event, rfl, rfl, rfl, hok⟩

/-- The frames that a handled frame is answered with. -/
theorem handleClientFrame_replies : (∀ reply ∈ replies, reply = .heartbeatAck) ∨
    frame = .heartbeat ∧ ∃ record, nextJob jobs locked env.deviceId now = some record ∧
      replies = .heartbeatAck :: claimFrames env now deliveryId grantId (some record.row) := by
  cases frame with
  | heartbeat =>
    rcases handleClientFrame_heartbeat h with ⟨-, rfl⟩ | ⟨claimed, hclaim, rfl⟩
    · exact .inl fun reply hreply => List.mem_singleton.1 hreply
    · obtain ⟨rfl, -⟩ := claimNextJob_eq_ok hclaim
      cases hnext : nextJob jobs locked env.deviceId now with
      | none => exact .inl fun reply hreply => List.mem_singleton.1 hreply
      | some record => exact .inr ⟨rfl, record, rfl, rfl⟩
  | jobDeliveryAck jobId deliveryId =>
    obtain ⟨_, -, h⟩ := bind_eq_ok.1 h
    cases h
    exact .inl fun reply hreply => absurd hreply List.not_mem_nil
  | jobEvent event =>
    obtain ⟨_, -, h⟩ := bind_eq_ok.1 h
    cases h
    exact .inl fun reply hreply => absurd hreply List.not_mem_nil

end

/-- A step leaves the tables alone or makes one transaction at its time. -/
theorem ControlStep.jobs (h : ControlStep s l s') :
    s'.jobs = s.jobs ∨ ∃ label : JobLabel env.Value, label.now = s.broker.clock ∧
      performJob env.jsonb s.jobs label = .ok s'.jobs := by
  cases h with
  | server hnow hclient hok => exact .inr ⟨_, hnow, hok⟩
  | handled hserving hframe hok =>
    rcases handleClientFrame_perform hok with hsame | ⟨label, -, hnow, -, hperform⟩
    · exact .inl hsame
    · exact .inr ⟨label, hnow, hperform⟩
  | _ => exact .inl rfl

/-! ### The session -/

/-- What a frame of the server does to a session. -/
inductive Receives (session : Session) : ServerFrame → Session → Prop where
  | heartbeatAck : Receives session .heartbeatAck session
  | signedGrant {signed : SignedGrant} {grants : List SignedGrant}
      (hgrants : grants ⊆ session.grants) :
      Receives session (.signedGrant signed) { session with grants := signed :: grants }
  | job {job : Job} {signed : SignedGrant} {grants : List SignedGrant}
      (hsigned : signed ∈ session.grants) (hgrants : grants ⊆ session.grants) :
      Receives session (.job job) { session with grants, pc := .matched job signed }

/-- What a frame does to the session of the daemon. -/
theorem receives_of_receive {session session' : Session} {now : Int} {frame : ServerFrame}
    (h : session.receive env now frame = .ok session') : Receives session frame session' := by
  cases frame with
  | heartbeatAck =>
    cases h
    exact .heartbeatAck
  | signedGrant signed =>
    rw [Session.receive, Session.keepGrant] at h
    split at h
    next => cases h
    next =>
      dsimp only at h
      split_ifs at h
      cases h
      exact .signedGrant fun grant hgrant => List.mem_of_mem_filter (List.mem_of_mem_filter hgrant)
  | job job =>
    rw [Session.receive, Session.matchJob] at h
    split_ifs at h
    split at h
    next => cases h
    next signed hfound =>
      dsimp only at h
      split_ifs at h
      cases h
      exact .job (List.mem_of_find?_eq_some hfound) fun grant hgrant =>
        List.mem_of_mem_filter hgrant

/-! ### The broker -/

/-- A step leaves the broker alone or is one step of it. Only a step of
the clock moves its clock. -/
theorem ControlStep.broker_step (h : ControlStep s l s') :
    s'.broker = s.broker ∨ ∃ label, (∀ clock, label = .tick clock → l = .tick clock) ∧
      (executor env).step s.broker label = some s'.broker := by
  cases h with
  | @broker l label broker hl hstep =>
    refine .inr ⟨label, fun clock hclock => ?_, hstep⟩
    rcases hl with ⟨rfl, hinternal⟩ | ⟨clock', rfl, rfl⟩
    · rw [hclock] at hinternal
      cases hinternal
    · cases hclock
      rfl
  | submit hsession hstep => exact .inr ⟨_, (fun _ hclock => by cases hclock), hstep⟩
  | _ => exact .inl rfl

variable {G : ControlState env → ControlLabel env.Value → Prop}

/-- The broker runs as `executor` does. -/
theorem broker_reaches {H : BrokerState env → BrokerLabel → Prop} {clock : Int}
    (hGH : ∀ s label l, (∀ clock, label = .tick clock → l = .tick clock) → G s l → H s.broker label)
    (h : (control env).Reaches G (.fresh env clock) s) :
    (executor env).Reaches H (.fresh env clock none) s.broker := by
  refine h.project (f := ControlState.broker) fun s l s' hG hstep => ?_
  rcases (controlStep_of_step hstep).broker_step with hsame | ⟨label, htick, hbroker⟩
  · exact .inl hsame
  · exact .inr ⟨label, hGH s label l htick hG, hbroker⟩

theorem clock_le_of_step {env : BrokerEnv} {s s' : BrokerState env}
    {rs : List Ledger.LedgerRecord} (hrep : Represents env s.ledger rs)
    (h : (executor env).step s label = some s') : s.clock ≤ s'.clock := by
  obtain ⟨rs', -, hstep⟩ := executorStep_of_step hrep h
  exact hstep.clock_le

theorem ControlStep.clock_le (hstep : ControlStep s l s')
    (hledger : ∃ rs, Represents env s.broker.ledger rs) :
    s.broker.clock ≤ s'.broker.clock := by
  obtain ⟨rs, hrep⟩ := hledger
  rcases hstep.broker_step with hsame | ⟨label, -, hbroker⟩
  · rw [hsame]
  · exact clock_le_of_step hrep hbroker

/-- What holds in every run: the ledger can be read, and the tables are in
order. -/
structure ControlInv (s : ControlState env) : Prop where
  ledger : ∃ rs, Represents env s.broker.ledger rs
  tables : TablesInv s.broker.clock s.jobs

theorem ControlInv.step (h : ControlInv s) (hstep : ControlStep s l s') : ControlInv s' := by
  have htables : TablesInv s.broker.clock s'.jobs := by
    rcases hstep.jobs with hsame | ⟨label, hnow, hok⟩
    · rw [hsame]
      exact h.tables
    · exact h.tables.perform hnow hok
  refine ⟨?_, htables.later (hstep.clock_le h.ledger)⟩
  rcases hstep.broker_step with hsame | ⟨label, -, hbroker⟩
  · rw [hsame]
    exact h.ledger
  · obtain ⟨rs, hrep⟩ := h.ledger
    obtain ⟨rs', hrep', -⟩ := executorStep_of_step hrep hbroker
    exact ⟨rs', hrep'⟩

theorem ControlStep.grows (hstep : ControlStep s l s') (hinv : ControlInv s) :
    Grows s.jobs s'.jobs := by
  rcases hstep.jobs with hsame | ⟨label, -, hok⟩
  · rw [hsame]
    exact .refl _
  · exact ((performJob_keeps env.jsonb hinv.tables.jobs label).of_ok hok).2

theorem controlInv_fresh (clock : Int) : ControlInv (.fresh env clock) where
  ledger := ⟨[], represents_none.2 rfl⟩
  tables :=
    ⟨jobsInv_nil, fun _ hrecord => absurd hrecord List.not_mem_nil,
      fun _ hrecord => absurd hrecord List.not_mem_nil⟩

theorem controlInv_of_reaches {clock : Int}
    (h : (control env).Reaches G (.fresh env clock) s) : ControlInv s :=
  h.invariant (controlInv_fresh clock) fun _ _ _ hinv _ hstep =>
    hinv.step (controlStep_of_step hstep)

end Centrald.Proofs
