import Centrald.Proofs.BrokerAnswers
import Centrald.Proofs.Control
import Mathlib.Algebra.Order.BigOperators.Group.List
import Mathlib.Algebra.Order.Ring.Nat

/-!
# `Centrald.Proofs.Serving`: a claimed job can come to its end

A client that listens on an idle link can be served the next job of its
queue to the end, without time passing and without a step of anybody
else (`serves`): the claim, the grant and the job, the acknowledgement,
the first event, the answer of the broker (`Centrald.Proofs.BrokerAnswers`)
and the terminal event. `Stands` describes the states on the way, and
each step has a lemma that says how it changes them.
-/

set_option autoImplicit false

namespace Centrald.Proofs

open Durable Common Platform Client Server Function

/-! ### Accepted operations on a job -/

section Records

variable {π : Type} {record : JobRecord π} {now : Int}

/-- A requirement that is met. -/
theorem ends_met {E : JobError → Prop} {α : Type} {R : α → Prop} {condition : Bool}
    {error : JobError} {f : Unit → Except JobError α} (h : condition = true)
    (hf : Ends E R (f ())) :
    Ends E R (require condition error >>= f) := by
  rw [require, if_pos h]
  exact hf

variable {identity : Nat}

theorem acknowledge_accepted {deliveryId : Nat} {deadline : Int}
    (htarget : record.row.targetId = identity) (hdispatched : record.row.state = .dispatched)
    (hdelivery : record.row.deliveryId = some deliveryId)
    (hdeadline : record.row.deliveryLeaseExpiresAt = some deadline) (hlease : now < deadline)
    (hlive : now < record.row.expiresAt) :
    record.acknowledge now identity deliveryId =
      .ok ⟨acknowledgedRow record.row now, record.events⟩ := by
  refine Ends.eq_ok ?_
  rw [JobRecord.acknowledge]
  refine ends_met (decide_eq_true htarget) ?_
  refine ends_met (decide_eq_true
    ⟨hdispatched, hdelivery, ⟨deadline, hdeadline, hlease⟩, hlive⟩) ?_
  refine Ends.bind (ends_write ⟨by simp, rfl, rfl, rfl⟩) ?_
  rintro row rfl
  exact Ends.pure rfl

theorem SmallOutputs.sum_le {events : List EventRow} (h : SmallOutputs events) :
    (events.map fun event => event.output.length).sum ≤ events.length * maxJobEventOutputBytes := by
  have hsum := List.sum_le_card_nsmul (events.map fun event => event.output.length)
    maxJobEventOutputBytes fun length hlength => by
      obtain ⟨event, hevent, rfl⟩ := List.mem_map.1 hlength
      exact h event hevent
  simpa using hsum

/-- The job takes an event of the client that leads to `nextState`. -/
structure Takes (record : JobRecord π) (now : Int) (identity : Nat) (nextState : JobState) :
    Prop where
  target : record.row.targetId = identity
  live : now < record.row.expiresAt
  lease : record.row.state = .acknowledged →
    ∃ deadline ∈ record.row.executionStartExpiresAt, now < deadline
  allowed : allowedTransition record.row.state nextState = true
  length : record.events.length ≤ 2

/-- An event that the transaction accepts. -/
theorem persist_accepted {event : JobEvent} {nextState : JobState}
    (h : RecordInv record) (hsmall : SmallOutputs record.events)
    (h' : Takes record now identity nextState) (hsequence : event.sequence = record.events.length)
    (houtput : event.output.length ≤ maxJobEventOutputBytes)
    (hterminal : event.terminal = isTerminalJobState nextState) :
    record.persist now identity event nextState = .ok
      ⟨{ record.row with state := nextState, executionStartExpiresAt := none },
        record.events ++ [event.row nextState]⟩ := by
  have hopen : isTerminalJobState record.row.state = false := by
    have hallowed := h'.allowed
    revert hallowed
    cases record.row.state <;> cases nextState <;> decide
  have hexpected : (event.sequence : Int) = (lastSequence record.events).getD (-1) + 1 := by
    rw [h.log.expected, hsequence]
  have hretained : (record.events.map fun e => e.output.length).sum + event.output.length ≤
      maxJobRetainedOutputBytes := by
    have hsum := hsmall.sum_le
    have hproduct : record.events.length * maxJobEventOutputBytes ≤ 2 * maxJobEventOutputBytes :=
      Nat.mul_le_mul_right _ h'.length
    simp only [maxJobEventOutputBytes, maxJobRetainedOutputBytes] at *
    omega
  refine Ends.eq_ok ?_
  rw [JobRecord.persist]
  refine ends_met (decide_eq_true h'.target) ?_
  refine ends_met (decide_eq_true h'.live) ?_
  refine ends_met (decide_eq_true h'.lease) ?_
  refine ends_met h'.allowed ?_
  refine ends_met (by rw [h.terminal, hopen]; rfl) ?_
  refine ends_met (decide_eq_true hexpected) ?_
  refine ends_met (decide_eq_true (lt_of_le_of_lt h'.length (by decide))) ?_
  refine ends_met (decide_eq_true hretained) ?_
  refine Ends.bind (ends_insertEvent h.log (checks_event h'.allowed houtput hterminal)
    (congrArg Nat.cast hsequence)) ?_
  rintro events rfl
  refine Ends.bind (ends_write (h.columns.event h'.allowed)) ?_
  rintro row rfl
  exact Ends.pure rfl

/-- The exit code of `send_job_event` is one that the state may have. -/
theorem ends_validateJobEventShape_sent {E : JobError → Prop} (nextState : JobState) :
    Ends E (fun _ => True) (validateJobEventShape nextState (isTerminalJobState nextState)
      (if isTerminalJobState nextState = true ∧ nextState = .failed then 1 else 0)) := by
  cases nextState <;> exact trivial

/-- An event of `send_job_event` on a job whose place is known. -/
theorem persistJobEvent_append {front back : JobsDb π} {sequence : Nat} {job : Job}
    {nextState : JobState} {output : Bytes}
    (hfront : ∀ other ∈ front, other.row.id ≠ job.id) (hid : record.row.id = job.id)
    (h : RecordInv record) (hsmall : SmallOutputs record.events)
    (h' : Takes record now identity nextState) (hsequence : sequence = record.events.length)
    (houtput : output.length ≤ maxJobEventOutputBytes) :
    persistJobEvent (front ++ record :: back) now identity
      (jobEvent job sequence nextState output (isTerminalJobState nextState)) = .ok (front ++
      ⟨{ record.row with state := nextState, executionStartExpiresAt := none }, record.events ++
        [(jobEvent job sequence nextState output (isTerminalJobState nextState)).row nextState]⟩
        :: back) := by
  have hproto : JobState.ofProto nextState.toProto = some nextState := by
    cases nextState <;> rfl
  have hname : (jobStateName nextState).isSome = true := by
    have hallowed := h'.allowed
    revert hallowed
    cases record.row.state <;> cases nextState <;> first | exact fun _ => rfl | nofun
  have hlength := h'.length
  refine Ends.eq_ok ?_
  rw [persistJobEvent]
  refine ends_met (decide_eq_true (show sequence < 2 ^ 63 by omega)) ?_
  refine ends_met (decide_eq_true houtput) ?_
  rw [show (jobEvent job sequence nextState output _).state = nextState.toProto from rfl, hproto]
  refine ends_met hname ?_
  refine Ends.bind (ends_validateJobEventShape_sent nextState) fun _ _ => ?_
  exact Ends.of_eq_ok (modifyJob_append hfront hid
    (persist_accepted h hsmall h' hsequence houtput rfl)) rfl

end Records

/-! ### The states on the way -/

variable {env : ControlEnv} {s s' : ControlState env} {jobs jobs' : JobsDb env.Value}
  {broker broker' : BrokerState env} {n : Nat} {grants : List SignedGrant} {pc : JobPc}
  {toServer : List ClientFrame} {toClient : List ServerFrame}

/-- The steps of a recovery: maintenance passes, and the client with its
connections and its broker. Nobody holds a lock on a job, the broker does
not die, and it can be asked while it runs. -/
def Recovers (s : ControlState env) : ControlLabel env.Value → Prop
  | .server transaction => ∃ now, transaction = .maintenance now
  | .deliver _ locked _ _ => locked = fun _ => false
  | .submitFails _ => s.broker.up = false
  | .broker label => isCrash label = false
  | _ => True

/-- The states that a recovery reaches. -/
abbrev RecoversTo : ControlState env → ControlState env → Prop :=
  (control env).Reaches Recovers

theorem RecoversTo.then {s'' : ControlState env} {l : ControlLabel env.Value} (h : RecoversTo s s')
    (hstep : (control env).step s' l = some s'') (hl : Recovers s' l) : RecoversTo s s'' :=
  h.tail hl hstep

/-- The daemon is connected by the link `n`, which is served. -/
structure Stands (s : ControlState env) (jobs : JobsDb env.Value)
    (broker : BrokerState env) (n : Nat) (grants : List SignedGrant) (pc : JobPc)
    (toServer : List ClientFrame) (toClient : List ServerFrame) : Prop where
  jobs : s.jobs = jobs
  broker : s.broker = broker
  session : s.session = some ⟨n, grants, pc⟩
  link : s.links n = ⟨true, toServer, toClient⟩

theorem stands_connect (hsession : s.session = none) (hfree : (s.links n).serving = false) :
    ∃ s', (control env).step s (.connect n) = some s' ∧
      Stands s' s.jobs s.broker n [] .listening [] [] :=
  ⟨_, if_pos ⟨hsession, hfree⟩, rfl, rfl, rfl, update_self ..⟩

namespace Stands

theorem heartbeat (h : Stands s jobs broker n grants .listening toServer toClient) :
    ∃ s', (control env).step s .heartbeat = some s' ∧
      Stands s' jobs broker n grants .listening (toServer ++ [.heartbeat]) toClient := by
  refine ⟨s.push n .heartbeat, ?_, h.jobs, h.broker, h.session, ?_⟩
  · simp only [control, h.session]
  · show update s.links n _ n = _
    rw [update_self, h.link]

theorem deliver {frame : ClientFrame} {replies : List ServerFrame}
    (h : Stands s jobs broker n grants pc (frame :: toServer) toClient) (deliveryId grantId : Nat)
    (hok : handleClientFrame env jobs broker.clock (fun _ => false) deliveryId grantId frame =
      .ok (jobs', replies)) :
    ∃ s', (control env).step s (.deliver n (fun _ => false) deliveryId grantId) = some s' ∧
      Stands s' jobs' broker n grants pc toServer (toClient ++ replies) := by
  refine ⟨s.handle n (fun _ => false) deliveryId grantId frame toServer, ?_, ?_⟩
  · simp only [control, h.link]
  · rw [ControlState.handle, h.jobs, h.broker, hok]
    refine ⟨rfl, rfl, h.session, ?_⟩
    show update s.links n _ n = _
    rw [update_self, h.link]

theorem receive {frame : ServerFrame} {session : Session}
    (h : Stands s jobs broker n grants .listening toServer (frame :: toClient))
    (hok : Session.receive env ⟨n, grants, .listening⟩ broker.clock frame = .ok session)
    (hconnection : session.connection = n) :
    ∃ s', (control env).step s .receive = some s' ∧
      Stands s' jobs broker n session.grants session.pc toServer toClient := by
  subst hconnection
  refine ⟨s.receiveFrame ⟨session.connection, grants, .listening⟩ frame toClient, ?_, h.jobs,
    h.broker, ?_, ?_⟩
  · simp only [control, h.session, h.link]
  · show (Session.receive env _ s.broker.clock frame).toOption = _
    rw [h.broker, hok]
    rfl
  · show update s.links session.connection _ session.connection = _
    rw [update_self, h.link]

theorem send {frame : ClientFrame} {pc' : JobPc}
    (h : Stands s jobs broker n grants pc toServer toClient) (hsend : pc.send = some (frame, pc')) :
    ∃ s', (control env).step s .send = some s' ∧
      Stands s' jobs broker n grants pc' (toServer ++ [frame]) toClient := by
  refine ⟨(s.push n frame).setPc ⟨n, grants, pc⟩ pc', ?_, h.jobs, h.broker, rfl, ?_⟩
  · simp only [control, h.session, hsend]
    rfl
  · show update s.links n _ n = _
    rw [update_self, h.link]

variable {job : Job} {i : Nat}

theorem submit {grant : SignedGrant}
    (h : Stands s jobs broker n grants (.started job grant) toServer toClient)
    (hstep : (executor env).step broker (.call i ⟨grant, job.parametersJson⟩) =
      some broker') :
    ∃ s', (control env).step s (.submit i) = some s' ∧
      Stands s' jobs broker' n grants (.submitted job i) toServer toClient := by
  refine ⟨{ s with broker := broker', session := some ⟨n, grants, .submitted job i⟩ }, ?_, h.jobs,
    rfl, rfl, h.link⟩
  simp only [control, h.session, ControlState.stepBroker, h.broker, hstep]
  rfl

theorem submitFails {grant : SignedGrant} (error : String)
    (h : Stands s jobs broker n grants (.started job grant) toServer toClient) :
    ∃ s', (control env).step s (.submitFails error) = some s' ∧
      Stands s' jobs broker n grants (.answered job (.failed error)) toServer toClient := by
  refine ⟨s.setPc ⟨n, grants, .started job grant⟩ (.answered job (.failed error)), ?_, h.jobs,
    h.broker, rfl, h.link⟩
  simp only [control, h.session]

theorem answer {c : Call} {result : CallResult}
    (h : Stands s jobs broker n grants (.submitted job i) toServer toClient)
    (hc : broker.calls i = some c) (hanswer : c.pc.answer = some result) :
    ∃ s', (control env).step s .answer = some s' ∧
      Stands s' jobs broker n grants (.answered job result) toServer toClient := by
  refine ⟨s.setPc ⟨n, grants, .submitted job i⟩ (.answered job result), ?_, h.jobs, h.broker, rfl,
    h.link⟩
  simp only [control, h.session, h.broker, hc, Option.bind_some, hanswer]
  rfl

/-- The steps of one call of the broker. -/
theorem callReaches (h : Stands s jobs broker n grants pc toServer toClient)
    (hreach : CallReaches i broker broker') :
    ∃ s', RecoversTo s s' ∧ Stands s' jobs broker' n grants pc toServer toClient := by
  induction hreach with
  | refl => exact ⟨s, .refl, h⟩
  | @tail b b' label _ hlabel hstep ih =>
    obtain ⟨t, ht, hstands⟩ := ih
    have hcrash : isCrash label = false := by
      cases label <;> first | rfl | cases hlabel
    have hinternal : label.isInternal = true := by
      cases label <;> first | rfl | cases hlabel
    have hbroker : (executor env).step t.broker label = some b' := by
      rw [hstands.broker]
      exact hstep
    exact ⟨{ t with broker := b' }, ht.tail (l := .broker label) hcrash
      (step_broker hinternal hbroker), hstands.jobs, rfl, hstands.session, hstands.link⟩

end Stands

/-! ### Reachable states -/

/-- A state of some run. -/
def Reachable (s : ControlState env) : Prop :=
  ∃ clock, (control env).Reaches (fun _ _ => True) (.fresh env clock) s

theorem Reachable.step {l : ControlLabel env.Value} (h : Reachable s)
    (hstep : (control env).step s l = some s') : Reachable s' := by
  obtain ⟨clock, hreach⟩ := h
  exact ⟨clock, hreach.tail trivial hstep⟩

theorem Reachable.recoversTo (h : Reachable s) (hreach : RecoversTo s s') : Reachable s' := by
  obtain ⟨clock, hs⟩ := h
  exact ⟨clock, hs.trans (hreach.mono fun _ _ _ => trivial)⟩

theorem Reachable.tables (h : Reachable s) : TablesInv s.broker.clock s.jobs := by
  obtain ⟨clock, hreach⟩ := h
  exact (controlInv_of_reaches hreach).tables

theorem Reachable.ready (h : Reachable s) : ReadyInv s.broker := by
  obtain ⟨clock, hreach⟩ := h
  exact readyInv_of_reaches (broker_reaches (H := fun _ _ => True)
    (fun _ _ _ _ _ => trivial) hreach)

/-! ### The stages of a job -/

section Stages

variable {front back : JobsDb env.Value} {record : JobRecord env.Value} {row : JobRow env.Value}
  {deliveryId grantId : Nat}

/-- What the tables guarantee about a job at a known place. -/
theorem Stands.recordInv
    (h : Stands s (front ++ record :: back) broker n grants pc toServer toClient)
    (hs : Reachable s) :
    RecordInv record ∧ SmallOutputs record.events ∧
      ∀ other ∈ front, other.row.id ≠ record.row.id := by
  have htables := hs.tables
  rw [h.jobs] at htables
  exact ⟨htables.jobs.records record List.mem_append_cons_self,
    htables.outputs record List.mem_append_cons_self, htables.jobs.front_ne⟩

/-- The heartbeat claims the next job. -/
theorem Stands.claims (h : Stands s (front ++ record :: back) broker n grants pc
      (.heartbeat :: toServer) toClient)
    (hs : Reachable s) (henabled : env.enabled = true)
    (hnext : nextJob (front ++ record :: back) (fun _ => false) env.deviceId broker.clock =
      some record) (deliveryId grantId : Nat) :
    ∃ s' events, (control env).step s (.deliver n (fun _ => false) deliveryId grantId) = some s' ∧
      Stands s' (front ++ ⟨dispatchedRow record.row broker.clock deliveryId, events⟩ :: back) broker
        n grants pc toServer (toClient ++
          .heartbeatAck :: claimFrames env broker.clock deliveryId grantId (some record.row)) := by
  obtain ⟨hrecord, -, hfront⟩ := h.recordInv hs
  obtain ⟨-, hqueued, -⟩ := of_decide_eq_true (nextJob_eq_some hnext).2
  obtain ⟨new, hdispatch, -⟩ := (dispatch_keeps hrecord hqueued broker.clock deliveryId).exists_ok
  obtain ⟨events, rfl, -⟩ := (dispatch_eq record broker.clock deliveryId).of_ok hdispatch
  have hclaim := claimNextJob_of_next hnext (modifyJob_append hfront rfl hdispatch)
  have hok : handleClientFrame env (front ++ record :: back) broker.clock (fun _ => false)
      deliveryId grantId .heartbeat =
      .ok (front ++ ⟨dispatchedRow record.row broker.clock deliveryId, events⟩ :: back,
        .heartbeatAck :: claimFrames env broker.clock deliveryId grantId (some record.row)) := by
    rw [handleClientFrame, if_pos henabled, hclaim]
    rfl
  obtain ⟨s', hstep, hstands⟩ := h.deliver deliveryId grantId hok
  exact ⟨s', events, hstep, hstands⟩

/-- The grant of a claim verifies while it is fresh. -/
theorem verify_jobGrant (row : JobRow env.Value) (now : Int) (deliveryId grantId : Nat) :
    (env.sign (jobGrant env row now deliveryId grantId)).verify env.texts env.sigs env.signingKey
      env.deviceId now = .ok () := by
  obtain ⟨raw, hdecode, hsignature, hverify⟩ :=
    env.signature_verifies (jobGrant env row now deliveryId grantId)
  have hlifetime : numSeconds (now + jobGrantValidity - (now - 5 * second)) = 965 := by
    rw [show now + jobGrantValidity - (now - 5 * second) = 965 * second by
      simp only [jobGrantValidity, second]
      omega]
    rfl
  refine SignedGrant.verify_eq_ok rfl ?_ ?_ ?_ ?_ hdecode hsignature hverify
  · show 0 < numSeconds (now + jobGrantValidity - (now - 5 * second))
    rw [hlifetime]
    decide
  · show numSeconds (now + jobGrantValidity - (now - 5 * second)) ≤ maxGrantLifetimeSeconds
    rw [hlifetime]
    decide
  · show now - 5 * second ≤ now
    simp only [second]
    omega
  · show now ≤ now + jobGrantValidity
    simp only [jobGrantValidity, second]
    omega

theorem keepGrant_jobGrant (row : JobRow env.Value) (now : Int) (deliveryId grantId : Nat) :
    Session.keepGrant env ⟨n, [], pc⟩ now (env.sign (jobGrant env row now deliveryId grantId)) =
      .ok ⟨n, [env.sign (jobGrant env row now deliveryId grantId)], pc⟩ := by
  rw [Session.keepGrant, verify_jobGrant]
  rfl

variable {signed : SignedGrant}

variable {job : Job}

theorem matchJob_eq_ok {session : Session} (htext : env.texts.uuid job.deliveryId ≠ [])
    (hfind : session.grants.find? (fun signed => signed.grant.jobOrSessionId = job.id) =
      some signed)
    (hjob : signed.grant.jobOrSessionId = job.id)
    (hoperation : signed.grant.operation = grantOperation job.kind)
    (hnonce : signed.grant.nonce = env.texts.uuid job.deliveryId)
    (hparameters : signed.grant.parametersSha256 = env.sha256Hex job.parametersJson) :
    session.matchJob env job = .ok { session with
      grants := session.grants.filter fun other => other.grant.jobOrSessionId ≠ job.id
      pc := .matched job signed } := by
  rw [Session.matchJob, if_neg htext, hfind]
  grind

/-- The job of a claim matches its grant. -/
theorem matchJob_jobMessage (row : JobRow env.Value) (now : Int) {deliveryId : Nat} (grantId : Nat)
    (htext : env.texts.uuid deliveryId ≠ []) :
    Session.matchJob env ⟨n, [env.sign (jobGrant env row now deliveryId grantId)], pc⟩
      (jobMessage env row deliveryId) =
      .ok ⟨n, [], .matched (jobMessage env row deliveryId)
        (env.sign (jobGrant env row now deliveryId grantId))⟩ := by
  have hfind : [env.sign (jobGrant env row now deliveryId grantId)].find? (fun signed =>
      signed.grant.jobOrSessionId = row.id) =
      some (env.sign (jobGrant env row now deliveryId grantId)) :=
    List.find?_cons_of_pos (decide_eq_true rfl)
  have hfilter : [env.sign (jobGrant env row now deliveryId grantId)].filter (fun signed =>
      signed.grant.jobOrSessionId ≠ row.id) = [] :=
    List.filter_cons_of_neg (by simp [ControlEnv.sign, jobGrant])
  refine (matchJob_eq_ok htext hfind rfl rfl rfl rfl).trans ?_
  exact congrArg (fun grants => Except.ok (Session.mk n grants _)) hfilter

/-- The answer to the heartbeat brings `handle_job` to its first frame. -/
theorem Stands.matches (h : Stands s jobs broker n [] .listening toServer
      (.heartbeatAck :: claimFrames env broker.clock deliveryId grantId (some row)))
    (htext : env.texts.uuid deliveryId ≠ []) :
    ∃ s', RecoversTo s s' ∧ Stands s' jobs broker n [] (.matched (jobMessage env row deliveryId)
        (env.sign (jobGrant env row broker.clock deliveryId grantId))) toServer [] := by
  obtain ⟨s1, hstep1, h1⟩ := h.receive rfl rfl
  obtain ⟨s2, hstep2, h2⟩ := h1.receive (keepGrant_jobGrant row _ deliveryId grantId) rfl
  obtain ⟨s3, hstep3, h3⟩ := h2.receive (matchJob_jobMessage row _ grantId htext) rfl
  have hreach1 := RecoversTo.then .refl hstep1 trivial
  have hreach2 := hreach1.then hstep2 trivial
  exact ⟨s3, hreach2.then hstep3 trivial, h3⟩

/-- The acknowledgement is accepted. -/
theorem Stands.acknowledges {events : List EventRow}
    (h : Stands s (front ++ ⟨dispatchedRow row broker.clock deliveryId, events⟩ :: back) broker n
      grants (.matched (jobMessage env row deliveryId) signed) [] toClient)
    (hs : Reachable s) (htarget : row.targetId = env.deviceId)
    (hlive : broker.clock < row.expiresAt) :
    ∃ s', RecoversTo s s' ∧
      Stands s' (front ++ ⟨acknowledgedRow (dispatchedRow row broker.clock deliveryId) broker.clock,
          events⟩ :: back) broker n grants
        (.acknowledged (jobMessage env row deliveryId) signed) [] toClient := by
  obtain ⟨-, -, hfront⟩ := h.recordInv hs
  have hlease : broker.clock < broker.clock + jobDeliveryLease := by
    simp only [jobDeliveryLease, second]
    omega
  have haccepted : JobRecord.acknowledge broker.clock env.deviceId deliveryId
      ⟨dispatchedRow row broker.clock deliveryId, events⟩ = .ok _ :=
    acknowledge_accepted htarget rfl rfl rfl hlease hlive
  obtain ⟨s1, hstep1, h1⟩ := h.send rfl
  obtain ⟨s2, hstep2, h2⟩ := h1.deliver 0 0
    (bind_eq_ok.2 ⟨_, modifyJob_append hfront rfl haccepted, rfl⟩)
  rw [List.append_nil] at h2
  exact ⟨s2, (RecoversTo.then .refl hstep1 trivial).then hstep2 rfl, h2⟩

/-- An event of `handle_job` is accepted. -/
theorem Stands.reports {sequence : Nat} {nextState : JobState} {output : Bytes}
    {pc' : JobPc}
    (h : Stands s (front ++ record :: back) broker n grants pc [] toClient) (hs : Reachable s)
    (hsend : pc.send =
      some (.jobEvent (jobEvent job sequence nextState output (isTerminalJobState nextState)), pc'))
    (hid : record.row.id = job.id) (htakes : Takes record broker.clock env.deviceId nextState)
    (hsequence : sequence = record.events.length)
    (houtput : output.length ≤ maxJobEventOutputBytes) :
    ∃ s' reported, RecoversTo s s' ∧
      Stands s' (front ++ reported :: back) broker n grants pc' [] toClient ∧
      SameJob record.row reported.row ∧ reported.row.state = nextState ∧
      reported.events.length = record.events.length + 1 := by
  obtain ⟨hrecord, hsmall, hfront⟩ := h.recordInv hs
  obtain ⟨s1, hstep1, h1⟩ := h.send hsend
  obtain ⟨s2, hstep2, h2⟩ := h1.deliver 0 0 (bind_eq_ok.2 ⟨_, persistJobEvent_append (hid ▸ hfront)
    hid hrecord hsmall htakes hsequence houtput, rfl⟩)
  rw [List.append_nil] at h2
  exact ⟨s2, _, (RecoversTo.then .refl hstep1 trivial).then hstep2 rfl, h2, rfl, rfl,
    List.length_append⟩

/-- The answer of the broker, or the failure to ask it. -/
theorem Stands.asks
    (h : Stands s jobs broker n grants (.started job signed) toServer toClient) (hs : Reachable s)
    (henabled : env.enabled = true)
    (hdigest : env.sha256Hex job.parametersJson = signed.grant.parametersSha256) :
    ∃ s' broker' result, RecoversTo s s' ∧
      Stands s' jobs broker' n grants (.answered job result) toServer toClient ∧
      broker'.clock = broker.clock ∧ SmallResult result := by
  cases hup : broker.up with
  | false =>
    obtain ⟨s', hstep, h'⟩ := h.submitFails
      "connect to /run/centrald/broker.sock; is the privileged broker running?"
    have hdown : s.broker.up = false := by
      rw [h.broker]
      exact hup
    refine ⟨s', broker, _, RecoversTo.then .refl hstep hdown, h', rfl, ?_⟩
    show (utf8 _).length ≤ maxJobEventOutputBytes
    decide +kernel
  | true =>
    -- the call that holds the lock goes first
    obtain ⟨s1, broker1, hreach1, h1, hup1, hfree1, hclock1⟩ : ∃ s1 broker1, RecoversTo s s1 ∧
        Stands s1 jobs broker1 n grants (.started job signed) toServer toClient ∧
        broker1.up = true ∧ broker1.execution = none ∧ broker1.clock = broker.clock := by
      cases hlock : broker.execution with
      | none => exact ⟨s, broker, .refl, h, hup, hlock, rfl⟩
      | some i =>
        obtain ⟨broker1, hcalls, hfree, hup1, hclock⟩ := releases (h.broker ▸ hs.ready) hup hlock
        obtain ⟨s1, hreach, h1⟩ := h.callReaches hcalls
        exact ⟨s1, broker1, hreach, h1, hup1, hfree, hclock⟩
    have hready : ReadyInv broker1 := h1.broker ▸ (hs.recoversTo hreach1).ready
    obtain ⟨rs, hrep, hsmall⟩ := hready.ledger
    obtain ⟨i, hi⟩ := hready.numbers
    obtain ⟨s2, hstep2, h2⟩ := h1.submit (step_call hup1 (hi i le_rfl))
    obtain ⟨broker3, c, result, hcalls, hclock3, hc, hanswer, hresult⟩ : Answers broker1 i
        ⟨signed, job.parametersJson⟩ := answers hup1 hfree1 hrep hsmall henabled hdigest
    obtain ⟨s3, hreach3, h3⟩ := h2.callReaches hcalls
    obtain ⟨s4, hstep4, h4⟩ := h3.answer hc hanswer
    have hreach4 := RecoversTo.then ((hreach1.then hstep2 trivial).trans hreach3) hstep4 trivial
    exact ⟨s4, broker3, result, hreach4, h4, hclock3.trans hclock1, hresult⟩

theorem resultEvent_eq (job : Job) {result : CallResult} (h : SmallResult result) :
    ∃ state output, (state = .succeeded ∨ state = .failed) ∧
      resultEvent job result = jobEvent job 2 state output (isTerminalJobState state) ∧
      output.length ≤ maxJobEventOutputBytes := by
  cases result with
  | ok response =>
    cases hsuccess : response.success with
    | true => exact ⟨.succeeded, response.output, .inl rfl, if_pos hsuccess, h⟩
    | false => exact ⟨.failed, response.output, .inr rfl, if_neg (by simp [hsuccess]), h⟩
  | failed error => exact ⟨.failed, utf8 error, .inr rfl, rfl, h⟩

/-- The broker answers, and the terminal event is accepted. -/
theorem Stands.finishes
    (h : Stands s (front ++ record :: back) broker n grants (.started job signed) [] toClient)
    (hs : Reachable s) (henabled : env.enabled = true)
    (hdigest : env.sha256Hex job.parametersJson = signed.grant.parametersSha256)
    (hid : record.row.id = job.id) (htarget : record.row.targetId = env.deviceId)
    (hlive : broker.clock < record.row.expiresAt) (hrunning : record.row.state = .running)
    (htwo : record.events.length = 2) :
    ∃ s' broker' ended, RecoversTo s s' ∧
      Stands s' (front ++ ended :: back) broker' n grants .listening [] toClient ∧
      broker'.clock = broker.clock ∧ SameJob record.row ended.row ∧
      (ended.row.state = .succeeded ∨ ended.row.state = .failed) := by
  obtain ⟨s1, broker1, result, hreach1, h1, hclock, hresult⟩ := h.asks hs henabled hdigest
  obtain ⟨state, output, hstate, hevent, houtput⟩ := resultEvent_eq job hresult
  have hsend : (JobPc.answered job result).send = some (.jobEvent (jobEvent job 2 state output
      (isTerminalJobState state)), .listening) := by
    rw [← hevent]
    rfl
  have hallowed : allowedTransition record.row.state state = true := by
    rw [hrunning]
    rcases hstate with rfl | rfl
    · rfl
    · rfl
  have hlease : record.row.state = .acknowledged →
      ∃ deadline ∈ record.row.executionStartExpiresAt, broker1.clock < deadline := by
    grind
  obtain ⟨s2, ended, hreach2, h2, hsame, hended, -⟩ := h1.reports (hs.recoversTo hreach1) hsend hid
    ⟨htarget, hclock ▸ hlive, hlease, hallowed, htwo.le⟩ htwo.symm houtput
  exact ⟨s2, broker1, ended, hreach1.trans hreach2, h2, hclock, hsame, hended ▸ hstate⟩

end Stages

/-! ### A whole delivery -/

/-- The job `j` is in the tables with this state. -/
def InState (s : ControlState env) (j : Nat) (state : JobState) : Prop :=
  ∃ record ∈ s.jobs, record.row.id = j ∧ record.row.state = state

/-- A recovery leads from `s` to `s'`, and one of its steps takes the job
`j` from the queue to the client. -/
def Redelivers (s s' : ControlState env) (j : Nat) : Prop :=
  ∃ t l t', RecoversTo s t ∧ Recovers t l ∧ (control env).step t l = some t' ∧
    InState t j .queued ∧ InState t' j .dispatched ∧ RecoversTo t' s'

/-- There is a delivery id with a text. -/
theorem exists_uuid_ne_nil (texts : Texts) : ∃ id, texts.uuid id ≠ [] := by
  by_contra hnone
  have hzero : texts.uuid 0 = [] := by_contra fun h => hnone ⟨0, h⟩
  have hone : texts.uuid 1 = [] := by_contra fun h => hnone ⟨1, h⟩
  have hread := texts.parseUuid_uuid 0
  rw [hzero, ← hone, texts.parseUuid_uuid 1] at hread
  cases hread

/-- A client that listens is served the next job of its queue. -/
theorem serves {front back : JobsDb env.Value} {record : JobRecord env.Value} (hs : Reachable s)
    (henabled : env.enabled = true)
    (h : Stands s (front ++ record :: back) broker n [] .listening [] [])
    (hnext : nextJob (front ++ record :: back) (fun _ => false) env.deviceId broker.clock =
      some record) :
    ∃ s' broker' ended, Redelivers s s' record.row.id ∧
      Stands s' (front ++ ended :: back) broker' n [] .listening [] [] ∧
      broker'.clock = broker.clock ∧ SameJob record.row ended.row ∧
      (ended.row.state = .succeeded ∨ ended.row.state = .failed) := by
  obtain ⟨htarget, hqueued, hlive⟩ := of_decide_eq_true (nextJob_eq_some hnext).2
  obtain ⟨deliveryId, htext⟩ := exists_uuid_ne_nil env.texts
  -- a heartbeat, the claim, the grant and the job, the acknowledgement
  obtain ⟨s1, hstep1, h1⟩ := h.heartbeat
  have hs1 := hs.step hstep1
  obtain ⟨s2, events, hstep2, h2⟩ := h1.claims hs1 henabled hnext deliveryId 0
  obtain ⟨s3, hreach3, h3⟩ := h2.matches htext
  have hs3 := (hs1.step hstep2).recoversTo hreach3
  obtain ⟨s4, hreach4, h4⟩ := h3.acknowledges hs3 htarget hlive
  have hs4 := hs3.recoversTo hreach4
  have hone : events.length = 1 :=
    le_antisymm ((h2.recordInv (hs1.step hstep2)).1.early rfl)
      ((h2.recordInv (hs1.step hstep2)).1.delivered rfl)
  have hstart : broker.clock < broker.clock + jobExecutionStartLease := by
    simp only [jobExecutionStartLease, second]
    omega
  -- the job is reported as running, and then its end
  obtain ⟨s5, running, hreach5, h5, hsame5, hrunning, htwo⟩ := h4.reports hs4 rfl rfl
    ⟨htarget, hlive, fun _ => ⟨_, rfl, hstart⟩, rfl, show events.length ≤ 2 by omega⟩ hone.symm
    (by decide +kernel)
  have hs5 := hs4.recoversTo hreach5
  have hsame : SameJob record.row running.row := SameJob.trans (b := acknowledgedRow _ _) rfl hsame5
  obtain ⟨s6, broker6, ended, hreach6, h6, hclock, hsame6, hended⟩ := h5.finishes hs5 henabled rfl
    hsame.id (hsame.targetId.trans htarget) (hsame.expiresAt.symm ▸ hlive) hrunning
      (htwo.trans (congrArg (· + 1) hone))
  refine ⟨s6, broker6, ended, ?_, h6, hclock, hsame.trans hsame6, hended⟩
  refine ⟨s1, .deliver n (fun _ => false) deliveryId 0, s2, RecoversTo.then .refl hstep1 trivial,
    rfl, hstep2, ?_, ?_,
    ((hreach3.trans hreach4).trans hreach5).trans hreach6⟩
  · exact ⟨record, by rw [h1.jobs]; exact List.mem_append_cons_self, rfl, hqueued⟩
  · exact ⟨⟨dispatchedRow record.row broker.clock deliveryId, events⟩,
      by rw [h2.jobs]; exact List.mem_append_cons_self, rfl, rfl⟩

end Centrald.Proofs
