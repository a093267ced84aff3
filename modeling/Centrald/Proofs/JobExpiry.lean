import Centrald.Proofs.Control
import Centrald.Proofs.ExecutorRuns

/-!
# `Centrald.Proofs.JobExpiry`: operations and the expiry of their jobs

A grant comes into the system by a claim, and from there it is only
handed on: to the daemon, to `handle_job`, to a call of the broker
(`present_of_step`). The grant lives for `jobGrantValidity` from the
claim, and neither `handle_job` nor the broker looks at the `expires_at`
of the job. So the operation of a job that is claimed late may start when
the job is over (`starts_after_timeout`).

`starts_before_expiry` is what holds. It needs that jobs are claimed
early enough for the whole grant, and that no grant expires while its
call is on the way to the start, as in `Centrald.Proofs.LiveGrant`.
-/

set_option autoImplicit false

namespace Centrald.Proofs

open Durable Common Platform Client Server

variable {env : ControlEnv} {s s' : ControlState env} {l : ControlLabel env.Value}
  {signed : SignedGrant}

/-! ### Where grants are -/

/-- The grant that `handle_job` holds. -/
def grantOfPc : JobPc → Option SignedGrant
  | .matched _ grant | .acknowledged _ grant | .started _ grant => some grant
  | .listening | .submitted _ _ | .answered _ _ => none

/-- The grants that a connection keeps. -/
def HasGrant (session : Session) (signed : SignedGrant) : Prop :=
  signed ∈ session.grants ∨ grantOfPc session.pc = some signed

/-- The places of a grant. -/
inductive Present (s : ControlState env) (signed : SignedGrant) : Prop where
  | inFlight {n : Nat} (h : .signedGrant signed ∈ (s.links n).toClient)
  | inSession {session : Session} (hsession : s.session = some session)
      (h : HasGrant session signed)
  | called {i : Nat} {c : Call} (hc : s.broker.calls i = some c)
      (h : c.request.signedGrant = signed)

/-- The step claims a job and signs the grant for it. -/
def Issues (s : ControlState env) (signed : SignedGrant) : ControlLabel env.Value → Prop
  | .deliver n locked deliveryId grantId =>
    (s.links n).toServer.head? = some .heartbeat ∧
    ∃ record, nextJob s.jobs locked env.deviceId s.broker.clock = some record ∧
      signed = env.sign (jobGrant env record.row s.broker.clock deliveryId grantId)
  | _ => False

theorem mem_toClient_update {links : Nat → Link} {n m : Nat} {link : Link} {frame : ServerFrame}
    (h : frame ∈ (Function.update links n link m).toClient) :
    frame ∈ link.toClient ∨ frame ∈ (links m).toClient := by
  grind

/-- The grant among the answers to a frame is that of a claim. -/
theorem issues_of_mem_replies {n : Nat} {locked : Nat → Bool} {deliveryId grantId : Nat}
    {frame : ClientFrame} {rest : List ClientFrame} {jobs : JobsDb env.Value}
    {replies : List ServerFrame} (hframe : (s.links n).toServer = frame :: rest)
    (hok : handleClientFrame env s.jobs s.broker.clock locked deliveryId grantId frame =
      .ok (jobs, replies))
    (h : .signedGrant signed ∈ replies) :
    Issues s signed (.deliver n locked deliveryId grantId) := by
  rcases handleClientFrame_replies hok with hacks | ⟨rfl, record, hnext, rfl⟩
  · cases hacks _ h
  · refine ⟨by rw [hframe]; rfl, record, hnext, ?_⟩
    simpa [claimFrames] using h

/-- A grant on a link was there before, or is issued now. -/
theorem ControlStep.inFlight (hstep : ControlStep s l s') {n : Nat}
    (h : .signedGrant signed ∈ (s'.links n).toClient) : Present s signed ∨ Issues s signed l := by
  cases hstep with
  | connect hsession hfree =>
    rcases mem_toClient_update h with h | h
    · cases h
    · exact .inl (.inFlight h)
  | heartbeat hsession =>
    rcases mem_toClient_update h with h | h
    · exact .inl (.inFlight h)
    · exact .inl (.inFlight h)
  | refused hserving hframe =>
    rcases mem_toClient_update h with h | h
    · exact .inl (.inFlight h)
    · exact .inl (.inFlight h)
  | handled hserving hframe hok =>
    rcases mem_toClient_update h with h | h
    · rcases List.mem_append.1 h with h | h
      · exact .inl (.inFlight h)
      · exact .inr (issues_of_mem_replies hframe hok h)
    · exact .inl (.inFlight h)
  | hangUp n =>
    rcases mem_toClient_update h with h | h
    · exact .inl (.inFlight h)
    · exact .inl (.inFlight h)
  | receive hsession hframe =>
    rcases mem_toClient_update h with h | h
    · exact .inl (.inFlight (by rw [hframe]; exact List.mem_cons_of_mem _ h))
    · exact .inl (.inFlight h)
  | send hsession hsend =>
    rcases mem_toClient_update h with h | h
    · exact .inl (.inFlight h)
    · exact .inl (.inFlight h)
  | _ => exact .inl (.inFlight h)

/-- What a received frame leaves in the session was there, or is the
frame. -/
theorem hasGrant_of_receive {session session' : Session} {now : Int} {frame : ServerFrame}
    (h : session.receive env now frame = .ok session') (hgrant : HasGrant session' signed) :
    HasGrant session signed ∨ frame = .signedGrant signed := by
  cases receives_of_receive h with
  | heartbeatAck => exact .inl hgrant
  | signedGrant hgrants =>
    rcases hgrant with hpending | hheld
    · rcases List.mem_cons.1 hpending with rfl | hpending
      · exact .inr rfl
      · exact .inl (.inl (hgrants hpending))
    · exact .inl (.inr hheld)
  | job hsigned hgrants =>
    rcases hgrant with hpending | hheld
    · exact .inl (.inl (hgrants hpending))
    · cases hheld
      exact .inl (.inl hsigned)

/-- `handle_job` keeps its grant while it sends. -/
theorem grantOfPc_of_send {pc pc' : JobPc} {frame : ClientFrame}
    (h : pc.send = some (frame, pc')) (hgrant : grantOfPc pc' = some signed) :
    grantOfPc pc = some signed := by
  cases pc with
  | matched | acknowledged | answered =>
    cases h
    exact hgrant
  | listening | started | submitted => cases h

/-- A grant that the daemon holds was there before. -/
theorem ControlStep.inSession (hstep : ControlStep s l s') {session : Session}
    (hsession : s'.session = some session) (h : HasGrant session signed) : Present s signed := by
  cases hstep with
  | connect =>
    cases hsession
    rcases h with h | h
    · cases h
    · cases h
  | receive hbefore hframe =>
    rcases hasGrant_of_receive (eq_ok_of_toOption hsession) h with h | rfl
    · exact .inSession hbefore h
    · exact .inFlight (by rw [hframe]; exact List.mem_cons_self)
  | send hbefore hsend =>
    cases hsession
    rcases h with h | h
    · exact .inSession hbefore (.inl h)
    · exact .inSession hbefore (.inr (grantOfPc_of_send hsend h))
  | submit hbefore =>
    cases hsession
    rcases h with h | h
    · exact .inSession hbefore (.inl h)
    · cases h
  | answered hbefore =>
    cases hsession
    rcases h with h | h
    · exact .inSession hbefore (.inl h)
    · cases h
  | disconnect => cases hsession
  | _ => exact .inSession hsession h

/-- The requests of a broker's calls are those it was given. -/
theorem ExecutorStep.requests {env : BrokerEnv} {s s' : BrokerState env} {label : BrokerLabel}
    {rs rs' : List Ledger.LedgerRecord} {P : BrokerRequest → Prop}
    (hstep : ExecutorStep rs s label rs' s')
    (hcall : ∀ i request, label = .call i request → P request)
    (h : ∀ i c, s.calls i = some c → P c.request) : ∀ i c, s'.calls i = some c → P c.request := by
  have hmoved : ∀ {i : Nat} {c : Call}, s.calls i = some c → ∀ pc k d,
      Function.update s.calls i (some { c with pc }) k = some d → P d.request := by
    grind
  cases hstep with
  | tick => exact h
  | call request hfree =>
    grind
  | move hc | acquire hc | answer hc | marked hc | run hc | ended hc => exact hmoved hc _
  | halt =>
    intro k d hd
    cases hd
  | restart => exact h

/-- A grant of a call of the broker was there before. -/
theorem ControlStep.inCalls (hstep : ControlStep s l s') (hinv : ControlInv s) {i : Nat} {c : Call}
    (hc : s'.broker.calls i = some c) : Present s c.request.signedGrant := by
  obtain ⟨rs, hrep⟩ := hinv.ledger
  have hcalls : ∀ i c, s.broker.calls i = some c → Present s c.request.signedGrant :=
    fun _ _ hc => .called hc rfl
  cases hstep with
  | broker hl hbroker =>
    obtain ⟨rs', -, hbroker⟩ := executorStep_of_step hrep hbroker
    refine hbroker.requests (P := fun request => Present s request.signedGrant) ?_ hcalls i c hc
    rintro k request rfl
    rcases hl with ⟨-, hinternal⟩ | ⟨clock, -, htick⟩
    · cases hinternal
    · cases htick
  | submit hsession hbroker =>
    obtain ⟨rs', -, hbroker⟩ := executorStep_of_step hrep hbroker
    refine hbroker.requests (P := fun request => Present s request.signedGrant) ?_ hcalls i c hc
    intro k request hcall
    cases hcall
    exact .inSession hsession (.inr rfl)
  | _ => exact hcalls i c hc

/-- A grant is where it was before, or it is the one of a claim. -/
theorem present_of_step (hinv : ControlInv s) (hstep : ControlStep s l s')
    (h : Present s' signed) : Present s signed ∨ Issues s signed l := by
  cases h with
  | inFlight h => exact hstep.inFlight h
  | inSession hsession h => exact .inl (hstep.inSession hsession h)
  | called hc h => exact .inl (h ▸ hstep.inCalls hinv hc)

/-! ### What a grant says about its job -/

/-- The grant ends before its job does. -/
def Covered (jobs : JobsDb env.Value) (grant : PrivilegedGrant) : Prop :=
  ∃ record ∈ jobs, record.row.id = grant.jobOrSessionId ∧
    grant.expiresAt < record.row.expiresAt

theorem Covered.grows {jobs jobs' : JobsDb env.Value} {grant : PrivilegedGrant}
    (h : Covered jobs grant) (hgrows : Grows jobs jobs') : Covered jobs' grant := by
  obtain ⟨record, hrecord, hid, hexpires⟩ := h
  obtain ⟨new, hnew, hextends⟩ := hgrows record hrecord
  exact ⟨new, hnew, hextends.id.trans hid, by rw [hextends.expiresAt]; exact hexpires⟩

/-- Time does not pass the expiry of a grant whose call is on the way to
its start, and a heartbeat claims a job only while more than the validity
of a grant is left of it. -/
def ClaimsInTime (s : ControlState env) : ControlLabel env.Value → Prop
  | .tick clock => OutlivesWait s.broker (.tick clock)
  | .deliver n locked _ _ => (s.links n).toServer.head? = some .heartbeat →
      ∀ record, nextJob s.jobs locked env.deviceId s.broker.clock = some record →
        s.broker.clock + jobGrantValidity < record.row.expiresAt
  | _ => True

theorem covered_of_issues (hG : ClaimsInTime s l) (h : Issues s signed l) :
    Covered s.jobs signed.grant := by
  cases l with
  | deliver n locked deliveryId grantId =>
    obtain ⟨hframe, record, hnext, rfl⟩ := h
    exact ⟨record, (nextJob_eq_some hnext).1, rfl, hG hframe record hnext⟩
  | _ => exact h.elim

variable {clock : Int}

/-- In every run in which claims are in time, every grant ends before its
job. -/
theorem covered_of_reaches (h : (control env).Reaches ClaimsInTime (.fresh env clock) s) :
    ControlInv s ∧ ∀ signed, Present s signed → Covered s.jobs signed.grant := by
  refine h.invariant (I := fun s => ControlInv s ∧
    ∀ signed, Present s signed → Covered s.jobs signed.grant) ⟨controlInv_fresh clock, ?_⟩ ?_
  · intro signed hpresent
    cases hpresent with
    | inFlight h => cases h
    | inSession hsession => cases hsession
    | called hc => cases hc
  · rintro s l s' ⟨hinv, hcovered⟩ hG hstep
    have hstep := controlStep_of_step hstep
    refine ⟨hinv.step hstep, fun signed hpresent => ?_⟩
    refine Covered.grows ?_ (hstep.grows hinv)
    rcases present_of_step hinv hstep hpresent with hbefore | hissued
    · exact hcovered signed hbefore
    · exact covered_of_issues hG hissued

theorem outlivesWait_of_claimsInTime {label : BrokerLabel}
    (htick : ∀ clock, label = .tick clock → l = .tick clock) (h : ClaimsInTime s l) :
    OutlivesWait s.broker label := by
  cases label with
  | tick clock =>
    rw [htick clock rfl] at h
    exact h
  | _ => trivial

theorem liveInv_of_claimsInTime
    (h : (control env).Reaches ClaimsInTime (.fresh env clock) s) : LiveInv s.broker :=
  liveInv_of_reaches (represents_none.2 rfl)
    (broker_reaches (fun _ _ _ => outlivesWait_of_claimsInTime) h)

/-- In every run in which claims are in time, an operation starts before
its job expires, and so before the server has marked it timed out. -/
theorem starts_before_expiry {clock : Int} {i : Nat}
    (h : (control env).Reaches ClaimsInTime (.fresh env clock) s)
    (hrun : (control env).step s (.broker (.run i)) = some s') :
    ∃ c record, s.broker.calls i = some c ∧ record ∈ s.jobs ∧ record.row.id = c.job ∧
      (∀ other ∈ s.jobs, other.row.id = c.job → other = record) ∧
      s.broker.clock < record.row.expiresAt ∧ record.row.state ≠ .timedOut := by
  obtain ⟨hinv, hcovered⟩ := covered_of_reaches h
  obtain ⟨broker, hstep, -⟩ := stepBroker_eq_some hrun
  obtain ⟨c, hc, hpc, -⟩ := atPc_eq_some hstep
  have hgrant : s.broker.clock ≤ c.grant.expiresAt :=
    ((liveInv_of_claimsInTime h).calls i c hc).expiresAt (by rw [hpc]; rfl) (by rw [hpc]; decide)
  obtain ⟨record, hrecord, hid, hexpires⟩ := hcovered c.request.signedGrant (.called hc rfl)
  have hclock : s.broker.clock < record.row.expiresAt := hgrant.trans_lt hexpires
  refine ⟨c, record, hc, hrecord, hid, fun other hother hid' => ?_, hclock, fun hstate => ?_⟩
  · exact hinv.tables.jobs.eq_of_id hother hrecord (hid'.trans hid.symm)
  · have hexpired := hinv.tables.timedOut record hrecord hstate
    omega

/-- A scheme in which the signature of a payload is the payload. -/
def plainSignatures : Signatures where
  Key := Unit
  decode := some
  isSignature _ := true
  verify _ payload raw := raw == payload

/-- The client 7 with its broker. Job parameters are JSON numbers. -/
def sampleControl : ControlEnv where
  toLedgerEnv := decimalEnv
  sigs := plainSignatures
  deviceId := 7
  signingKey := ()
  enabled := true
  Value := Nat
  jsonb := id
  toVec := printNat
  signature := signingPayload decimalTexts
  signature_verifies _ := ⟨_, rfl, rfl, beq_self_eq_true _⟩

/-- The job 5 of the client 7 is started at time 0, to last half an hour,
and claimed at `now`. -/
def claimLabels (now : Int) : List (ControlLabel sampleControl.Value) :=
  [.server (.start 3 sampleStart 5 0 (1800 * second)), .tick now, .connect 0, .heartbeat,
    .deliver 0 (fun _ => false) 20 30]

/-- `handle_job` comes to the broker, and the call to its marker. -/
def submitLabels : List (ControlLabel sampleControl.Value) :=
  [.receive, .receive, .receive, .send, .send, .submit 0, .broker (.verify 0),
    .broker (.record 0), .broker (.lookup 0), .broker (.acquire 0), .broker (.lookupAgain 0),
    .broker (.mark 0 insertionOrder)]

/-- A check that is enough for the condition. -/
def claimsInTime (s : ControlState env) : ControlLabel env.Value → Bool
  | .tick clock => decide (clock = s.broker.clock)
  | .deliver _ locked _ _ =>
    (nextJob s.jobs locked env.deviceId s.broker.clock).all fun record =>
      decide (s.broker.clock + jobGrantValidity < record.row.expiresAt)
  | _ => true

theorem claimsInTime_of_check (hs : (control env).Reaches ClaimsInTime (.fresh env clock) s)
    (h : claimsInTime s l = true) : ClaimsInTime s l := by
  cases l with
  | tick clock =>
    rw [of_decide_eq_true h]
    exact fun i c hc => ((liveInv_of_claimsInTime hs).calls i c hc).live
  | deliver n locked deliveryId grantId =>
    intro _ record hnext
    simpa [claimsInTime, hnext] using h
  | _ => trivial

/-- A call for the job 5 that has its marker can start its operation. -/
theorem step_run_of_marked {s : ControlState sampleControl} (hup : s.broker.up = true)
    (hcall : (s.broker.calls 0).map (fun c => (c.job, c.pc)) = some (5, .marked)) :
    ∃ s' c, (control sampleControl).step s (.broker (.run 0)) = some s' ∧
      s.broker.calls 0 = some c ∧ c.job = 5 := by
  obtain ⟨c, hc, hcall⟩ := Option.map_eq_some_iff.1 hcall
  injection hcall with hjob hpc
  have hstep : (executor sampleControl).step s.broker (.run 0) =
      some (runStep sampleControl s.broker 0 c) := atPc_eq hup hc hpc _
  exact ⟨_, c, step_broker rfl hstep, hc, hjob⟩

/-- The operation of a job that was claimed at once starts in time. -/
theorem starts_before_expiry_at_once :
    ∃ s s' c record, (control sampleControl).Reaches ClaimsInTime (.fresh sampleControl 0) s ∧
      (control sampleControl).step s (.broker (.run 0)) = some s' ∧
      s.broker.calls 0 = some c ∧ record ∈ s.jobs ∧ record.row.id = c.job ∧
      s.broker.clock < record.row.expiresAt ∧ record.row.state ≠ .timedOut := by
  have hrun : ((control sampleControl).run claimsInTime (.fresh sampleControl 0)
      (claimLabels 0 ++ submitLabels)).map (fun s => (s.broker.up, (s.broker.calls 0).map fun c =>
        (c.job, c.pc))) = some (true, some (5, .marked)) := by decide +kernel
  obtain ⟨s, hreach, hview⟩ := Machine.reached_of_view (fun _ _ => claimsInTime_of_check) hrun
  obtain ⟨hup, hcall⟩ := Prod.mk.inj hview
  obtain ⟨s', -, hstep, -⟩ := step_run_of_marked hup hcall
  obtain ⟨c, record, hc, hrecord, hid, -, hclock, hstate⟩ := starts_before_expiry hreach hstep
  exact ⟨s, s', c, record, hreach, hstep, hc, hrecord, hid, hclock, hstate⟩

/-- A job is claimed 100 s before it expires. The answer reaches the
daemon one second after the expiry, when the job is marked timed out.
The operation starts. -/
theorem starts_after_timeout :
    ∃ s s' c record, (control sampleControl).Reaches (fun _ _ => True) (.fresh sampleControl 0) s ∧
      (control sampleControl).step s (.broker (.run 0)) = some s' ∧
      s.broker.calls 0 = some c ∧ record ∈ s.jobs ∧ record.row.id = c.job ∧
      record.row.expiresAt < s.broker.clock ∧ record.row.state = .timedOut := by
  have hrun : ((control sampleControl).run (fun _ _ => true) (.fresh sampleControl 0)
      (claimLabels (1700 * second) ++
        [.tick (1801 * second), .server (.maintenance (1801 * second))] ++ submitLabels)).map
      (fun s => decide (s.broker.up = true ∧
        (s.broker.calls 0).map (fun c => (c.job, c.pc)) = some (5, .marked) ∧
        ∃ record ∈ s.jobs, record.row.id = 5 ∧ record.row.expiresAt < s.broker.clock ∧
          record.row.state = .timedOut)) = some true := by
    decide +kernel
  obtain ⟨s, hreach, hview⟩ := Machine.exists_of_view hrun
  obtain ⟨hup, hcall, record, hrecord, hid, hlate⟩ := of_decide_eq_true hview
  obtain ⟨s', c, hstep, hc, hjob⟩ := step_run_of_marked hup hcall
  exact ⟨s, s', c, record, hreach, hstep, hc, hrecord, hid.trans hjob.symm, hlate⟩

end Centrald.Proofs
