import Centrald.Proofs.JobExpiry
import Centrald.Proofs.Serving

/-!
# `Centrald.Proofs.LostClient`: the jobs of a client whose stream has died

A maintenance pass returns a job to the queue when its lease has ended,
and then the client can be served it again (`Centrald.Proofs.Serving`).
Only dispatched and acknowledged jobs have a lease. A job whose first
event is stored is running. No pass takes it back, no stream carries it,
and so it waits for its timeout, also when the broker has its result
(`running_job_is_lost`).

`delivers_again_iff` is the exact condition: the job is in the queue, or
its lease ends before it expires. In one direction the queue is served
job by job, and the number of jobs in it falls. In the other, `Lost` is
what a recovery keeps until the lease has ended.
-/

set_option autoImplicit false

namespace Centrald.Proofs

open Durable Common Platform Client Server

variable {env : ControlEnv} {s s' t : ControlState env} {l : ControlLabel env.Value}
  {record : JobRecord env.Value} {j : Nat}

/-- A recovery delivers the job `j` again and brings it to its end in
time. -/
def DeliversAgain (s : ControlState env) (j : Nat) : Prop :=
  ∃ s' record, Redelivers s s' j ∧ record ∈ s'.jobs ∧ record.row.id = j ∧
    (record.row.state = .succeeded ∨ record.row.state = .failed) ∧
    s'.broker.clock < record.row.expiresAt

/-- The job is in the queue, or its lease ends before it expires. -/
def Recoverable (row : JobRow env.Value) : Prop :=
  row.state = .queued ∨ ∃ lease, leaseEnd row = some lease ∧ lease < row.expiresAt

/-! ### The queue is served -/

theorem Redelivers.recoversTo (h : Redelivers s s' j) : RecoversTo s s' := by
  obtain ⟨t, l, t', hbefore, hl, hstep, -, -, hafter⟩ := h
  exact (hbefore.tail hl hstep).trans hafter

theorem DeliversAgain.of_recoversTo (h : RecoversTo s t) (ht : DeliversAgain t j) :
    DeliversAgain s j := by
  obtain ⟨s', record, ⟨t1, l, t2, hbefore, hrest⟩, hended⟩ := ht
  exact ⟨s', record, ⟨t1, l, t2, h.trans hbefore, hrest⟩, hended⟩

variable {now : Int}

theorem exists_nextJob {π : Type} {db : JobsDb π} {record : JobRecord π} {identity : Nat}
    (hrecord : record ∈ db) (hclaimable : record.claimable identity now = true) :
    ∃ next, nextJob db (fun _ => false) identity now = some next := by
  refine Option.isSome_iff_exists.1 (List.isSome_minOn?_of_mem (x := record) ?_)
  grind

variable {n : Nat}

/-- The queue is served until it is the turn of the job. -/
theorem deliversAgain_of_listening (henabled : env.enabled = true) (m : Nat)
    {jobs : JobsDb env.Value} {broker : BrokerState env} (hs : Reachable s)
    (h : Stands s jobs broker n [] .listening [] []) (hrecord : record ∈ jobs)
    (hclaimable : record.claimable env.deviceId broker.clock = true)
    (hcount : jobs.countP (JobRecord.claimable env.deviceId broker.clock) ≤ m) :
    DeliversAgain s record.row.id := by
  induction m generalizing s jobs broker with
  | zero =>
    grind
  | succ m ih =>
    obtain ⟨next, hnext⟩ := exists_nextJob hrecord hclaimable
    obtain ⟨hmem, hfree⟩ := nextJob_eq_some hnext
    obtain ⟨front, back, rfl⟩ := List.append_of_mem hmem
    obtain ⟨s1, broker1, ended, hredelivers, h1, hclock, hsame, hended⟩ :=
      serves hs henabled h hnext
    by_cases hid : next.row.id = record.row.id
    · refine ⟨s1, ended, hid ▸ hredelivers, ?_, hsame.id.trans hid, hended, ?_⟩
      · rw [h1.jobs]
        exact List.mem_append_cons_self
      · obtain ⟨-, -, hlive⟩ := of_decide_eq_true hfree
        rw [h1.broker, hclock, hsame.expiresAt]
        exact hlive
    · -- the served job has left the queue, and the others are where they were
      have hdone : ended.claimable env.deviceId broker.clock = false := by
        refine decide_eq_false ?_
        grind
      have hother : record ∈ front ++ ended :: back := by
        grind
      refine (ih (hs.recoversTo hredelivers.recoversTo) h1 hother ?_ ?_).of_recoversTo
        hredelivers.recoversTo
      · rw [hclock]
        exact hclaimable
      · rw [List.countP_append, List.countP_cons_of_pos hfree] at hcount
        rw [hclock, List.countP_append, List.countP_cons_of_neg (by rw [hdone]; decide)]
        omega

/-! ### The job comes back to the queue -/

theorem step_tick {clock : Int} (h : s.broker.clock ≤ clock) :
    (control env).step s (.tick clock) = some { s with broker := { s.broker with clock } } := by
  show s.stepBroker (.tick clock) = _
  rw [ControlState.stepBroker, show (executor env).step s.broker (.tick clock) =
    some { s.broker with clock } from if_pos h]
  rfl

theorem step_maintenance (hs : Reachable s) :
    ∃ jobs, (control env).step s (.server (.maintenance s.broker.clock)) = some { s with jobs } ∧
      List.Forall₂ (fun old new => maintain s.broker.clock old = .ok new) s.jobs jobs := by
  obtain ⟨jobs, hjobs, -⟩ := (maintenanceOnce_evolves hs.tables.jobs s.broker.clock).exists_ok
  refine ⟨jobs, ?_, maintenanceOnce_eq_ok hjobs⟩
  show (if _ then _ else none) = _
  rw [if_pos ⟨rfl, nofun, nofun⟩, performJob, hjobs]
  rfl

/-- A pass leaves a queued job in the queue, and brings a job there whose
lease has ended. -/
theorem maintain_queued {new : JobRecord env.Value}
    (h : maintain now record = .ok new) (hlive : now < record.row.expiresAt)
    (hstate : record.row.state = .queued ∨ ∃ lease, leaseEnd record.row = some lease ∧
      lease ≤ now) :
    SameJob record.row new.row ∧ new.row.state = .queued := by
  rcases hstate with hqueued | ⟨lease, hlease, hended⟩
  · have hne : ∀ {state}, state ≠ JobState.queued → record.row.state ≠ state :=
      fun hstate heq => hstate (heq.symm.trans hqueued)
    rw [maintain, requeueDispatched_of_ne (hne (by decide))] at h
    change (record.requeueAcknowledged now >>= _) = _ at h
    rw [requeueAcknowledged_of_ne (hne (by decide))] at h
    change record.timeOut now = _ at h
    rw [timeOut_of_live hlive] at h
    cases h
    exact ⟨rfl, hqueued⟩
  · obtain ⟨row, hsame, hqueued, hends⟩ := maintain_requeues hlease hended hlive
    obtain rfl := hends.of_ok h
    exact ⟨hsame, hqueued⟩

/-- The daemon can leave its connection. -/
theorem recoversTo_idle (s : ControlState env) : RecoversTo s { s with session := none } := by
  cases hsession : s.session with
  | none =>
    have hsame : { s with session := none } = s := by rw [← hsession]
    rw [hsame]
    exact .refl
  | some session =>
    refine RecoversTo.then (l := .disconnect) .refl ?_ trivial
    exact if_neg (by rw [hsession]; nofun)

/-- A time at which a pass finds the job in the queue or its lease ended. -/
theorem Recoverable.time (h : Recoverable record.row)
    (hlive : now < record.row.expiresAt) :
    ∃ clock, now ≤ clock ∧ clock < record.row.expiresAt ∧
      (record.row.state = .queued ∨ ∃ lease, leaseEnd record.row = some lease ∧ lease ≤ clock) := by
  rcases h with hqueued | ⟨lease, hlease, hbefore⟩
  · exact ⟨now, le_rfl, hlive, .inl hqueued⟩
  · exact ⟨max now lease, le_max_left _ _, max_lt hlive hbefore,
      .inr ⟨lease, hlease, le_max_right _ _⟩⟩

/-- A recoverable job is in the queue at last, and the queue is served. -/
theorem deliversAgain_of_recoverable (henabled : env.enabled = true) (hs : Reachable s)
    (hdead : ∀ n, (s.links n).serving = false) (hrecord : record ∈ s.jobs)
    (htarget : record.row.targetId = env.deviceId) (hlive : s.broker.clock < record.row.expiresAt)
    (h : Recoverable record.row) : DeliversAgain s record.row.id := by
  obtain ⟨clock, hle, hlive, hstate⟩ := h.time hlive
  have hidle := recoversTo_idle s
  have hlater := hidle.then (step_tick hle) trivial
  obtain ⟨jobs, hmaintenance, hmaintain⟩ := step_maintenance (hs.recoversTo hlater)
  have hmaintained := hlater.then hmaintenance ⟨_, rfl⟩
  obtain ⟨new, hnew, hok⟩ := exists_right_of_forall₂ hmaintain hrecord
  obtain ⟨hsame, hqueued⟩ := maintain_queued hok hlive hstate
  obtain ⟨s1, hconnect, h1⟩ := stands_connect (s := { s with
    session := none
    broker := { s.broker with clock }
    jobs }) rfl (hdead 0)
  have hconnected := hmaintained.then hconnect trivial
  have hclaimable : new.claimable env.deviceId clock = true := by
    refine decide_eq_true ⟨hsame.targetId.trans htarget, hqueued, ?_⟩
    rw [hsame.expiresAt]
    exact hlive
  rw [← hsame.id]
  exact (deliversAgain_of_listening henabled _ (hs.recoversTo hconnected) h1 hnew hclaimable
    le_rfl).of_recoversTo hconnected

/-! ### A job that is lost -/

/-- The job that `handle_job` works on. -/
def jobOfPc : JobPc → Option Job
  | .listening => none
  | .matched job _ | .acknowledged job _ | .started job _ | .submitted job _ | .answered job _ =>
    some job

/-- Nothing on the link is about the job `j`, if it is served. -/
structure SilentLink (j : Nat) (link : Link) : Prop where
  toServer : link.serving = true → ∀ frame ∈ link.toServer, frameJob frame ≠ some j
  toClient : link.serving = true → ∀ job, .job job ∈ link.toClient → job.id ≠ j

/-- No stream that is served is about the job `j`. -/
structure Silent (s : ControlState env) (j : Nat) : Prop where
  links : ∀ n, SilentLink j (s.links n)
  session : ∀ session, s.session = some session → (s.links session.connection).serving = true →
    ∀ job, jobOfPc session.pc = some job → job.id ≠ j

variable {link : Link}

theorem silentLinks_update {links : Nat → Link} (h : ∀ n, SilentLink j (links n))
    (hlink : SilentLink j link) (m : Nat) :
    SilentLink j (Function.update links n link m) := by
  grind

theorem serving_of_update {links : Nat → Link} {m : Nat}
    (h : (Function.update links n link m).serving = true)
    (hlink : link.serving = true → (links n).serving = true) : (links m).serving = true := by
  grind

/-- Only a connection makes a link served. -/
theorem ControlStep.serving (hstep : ControlStep s l s')
    (h : (s'.links n).serving = true) : (s.links n).serving = true ∨ l = .connect n := by
  cases hstep with
  | @connect m hsession hfree =>
    grind
  | refused hserving hframe => exact .inl (serving_of_update h fun _ => hserving)
  | handled hserving hframe hok => exact .inl (serving_of_update h fun _ => hserving)
  | hangUp m => exact .inl (serving_of_update h fun hfalse => by cases hfalse)
  | heartbeat hsession => exact .inl (serving_of_update h id)
  | receive hsession hframe => exact .inl (serving_of_update h id)
  | send hsession hsend => exact .inl (serving_of_update h id)
  | broker | server | submit | answered | disconnect => exact .inl h

variable {frame : ClientFrame}

/-- `handle_job` names its own job, and stays with it. -/
theorem jobOfPc_of_send {pc pc' : JobPc} (h : pc.send = some (frame, pc')) :
    ∃ job, jobOfPc pc = some job ∧ frameJob frame = some job.id ∧
      ∀ job', jobOfPc pc' = some job' → job' = job := by
  cases pc with
  | matched job grant | acknowledged job grant =>
    cases h
    exact ⟨job, rfl, rfl, fun job' hjob => (Option.some.inj hjob).symm⟩
  | answered job result =>
    cases h
    refine ⟨job, rfl, ?_, fun job' hjob => by cases hjob⟩
    cases result with
    | ok response =>
      show frameJob (.jobEvent (if response.success then _ else _)) = _
      split_ifs <;> rfl
    | failed error => rfl
  | listening | started | submitted => cases h

/-- The next job of the queue is not the job `j`. -/
def NotNext (s : ControlState env) (j : Nat) : Prop :=
  ∀ locked record, nextJob s.jobs locked env.deviceId s.broker.clock = some record →
    record.row.id ≠ j

theorem Silent.handled (h : Silent s j) (hnext : NotNext s j) {locked : Nat → Bool}
    {deliveryId grantId : Nat} {rest : List ClientFrame}
    {jobs : JobsDb env.Value} {replies : List ServerFrame}
    (hframe : (s.links n).toServer = frame :: rest)
    (hok : handleClientFrame env s.jobs s.broker.clock locked deliveryId grantId frame =
      .ok (jobs, replies)) :
    SilentLink j { s.links n with
      toServer := rest, toClient := (s.links n).toClient ++ replies } where
  toServer hserving frame' hframe' := by
    refine (h.links n).toServer hserving frame' ?_
    grind
  toClient hserving job hjob := by
    rcases List.mem_append.1 hjob with hjob | hjob
    · exact (h.links n).toClient hserving job hjob
    · rcases handleClientFrame_replies hok with hacks | ⟨-, record, hrecord, rfl⟩
      · cases hacks _ hjob
      · simp only [claimFrames, List.mem_cons, reduceCtorEq, ServerFrame.job.injEq,
          List.not_mem_nil, or_false, false_or] at hjob
        rw [hjob]
        exact hnext locked record hrecord

/-- A frame that is not about the job leaves the link silent. -/
theorem SilentLink.push (h : SilentLink j link)
    (hframe : link.serving = true → frameJob frame ≠ some j) :
    SilentLink j { link with toServer := link.toServer ++ [frame] } where
  toServer hserving frame' hmem := by
    rcases List.mem_append.1 hmem with hmem | hmem
    · exact h.toServer hserving frame' hmem
    · grind
  toClient := h.toClient

/-- A link that is not served is silent. -/
theorem silentLink_of_dead (h : link.serving = false) : SilentLink j link where
  toServer hserving := by
    rw [h] at hserving
    cases hserving
  toClient hserving := by
    rw [h] at hserving
    cases hserving

/-- The links stay silent. -/
theorem ControlStep.silentLinks (hstep : ControlStep s l s') (h : Silent s j)
    (hnext : NotNext s j) : ∀ n, SilentLink j (s'.links n) := by
  cases hstep with
  | connect hsession hfree =>
    refine silentLinks_update h.links ⟨fun _ frame hframe => ?_, fun _ job hjob => ?_⟩
    · cases hframe
    · cases hjob
  | heartbeat hsession =>
    exact silentLinks_update h.links ((h.links _).push fun _ hj => by cases hj)
  | refused hserving hframe => exact silentLinks_update h.links (silentLink_of_dead rfl)
  | handled hserving hframe hok => exact silentLinks_update h.links (h.handled hnext hframe hok)
  | hangUp n => exact silentLinks_update h.links (silentLink_of_dead rfl)
  | @receive n grants frame rest hsession hframe =>
    refine silentLinks_update h.links ⟨(h.links n).toServer, fun hserving job hjob => ?_⟩
    refine (h.links n).toClient hserving job ?_
    grind
  | @send session frame pc hsession hsend =>
    obtain ⟨job, hjob, hframe, -⟩ := jobOfPc_of_send hsend
    refine silentLinks_update h.links ((h.links _).push fun hserving hj => ?_)
    rw [hframe] at hj
    exact h.session session hsession hserving job hjob (Option.some.inj hj)
  | broker | server | submit | answered | disconnect => exact h.links

/-- The session of a served link does not come to the job. -/
theorem ControlStep.silentSession (hstep : ControlStep s l s') (h : Silent s j)
    {session : Session} (hsession : s'.session = some session)
    (hserving : (s'.links session.connection).serving = true) {job : Job}
    (hjob : jobOfPc session.pc = some job) : job.id ≠ j := by
  have hbefore := hstep.serving hserving
  cases hstep with
  | connect hnone hfree =>
    cases hsession
    cases hjob
  | @receive n grants frame rest hlistening hframe =>
    have hserved := hbefore.resolve_right (by intro heq; cases heq)
    cases receives_of_receive (eq_ok_of_toOption hsession) with
    | heartbeatAck => cases hjob
    | signedGrant => cases hjob
    | job hsigned hgrants =>
      cases hjob
      exact (h.links n).toClient hserved job (by rw [hframe]; exact List.mem_cons_self)
  | @send session0 frame pc hsession0 hsend =>
    have hserved := hbefore.resolve_right (by intro heq; cases heq)
    cases hsession
    obtain ⟨job0, hjob0, -, hsame⟩ := jobOfPc_of_send hsend
    rw [hsame job hjob]
    exact h.session session0 hsession0 hserved job0 hjob0
  | submit hstarted hcall =>
    cases hsession
    exact h.session _ hstarted hserving job hjob
  | answered hasked hpc =>
    cases hsession
    refine h.session _ hasked hserving job ?_
    rcases hpc with ⟨grant, rfl⟩ | ⟨i, rfl⟩
    · exact hjob
    · exact hjob
  | disconnect => cases hsession
  | broker | server => exact h.session session hsession hserving job hjob
  | heartbeat | refused | handled | hangUp =>
    exact h.session session hsession (hbefore.resolve_right (by intro heq; cases heq)) job hjob

theorem Silent.step (h : Silent s j) (hnext : NotNext s j) (hstep : ControlStep s l s') :
    Silent s' j :=
  ⟨hstep.silentLinks h hnext, fun _ hsession hserving _ => hstep.silentSession h hsession hserving⟩

/-- The job is where it was and no stream is about it, or its lease has
ended, or it has expired. -/
inductive Lost (record : JobRecord env.Value) (s : ControlState env) : Prop where
  | waiting (hrecord : record ∈ s.jobs) (hsilent : Silent s record.row.id)
  | leaseEnded {lease : Int} (hlease : leaseEnd record.row = some lease)
      (hended : lease ≤ s.broker.clock)
  | expired (hexpired : record.row.expiresAt ≤ s.broker.clock)

/-- What a transaction on another job, a claim or a pass can do to a job
that is not in the queue. -/
theorem JobStep.of_other {π : Type} {label : JobLabel π} {record new : JobRecord π}
    (h : JobStep label record new) (hstate : record.row.state ≠ .queued)
    (hjob : labelJob label ≠ some record.row.id) :
    new = record ∨ (∃ lease, leaseEnd record.row = some lease ∧ lease ≤ label.now) ∨
      record.row.expiresAt ≤ label.now := by
  cases h with
  | same => exact .inl rfl
  | dispatched hqueued => exact absurd hqueued hstate
  | acknowledged => exact absurd rfl hjob
  | event hid => exact absurd (congrArg some hid) hjob
  | requeued hlease hended => exact .inr (.inl ⟨_, hlease, hended⟩)
  | timedOut hexpired => exact .inr (.inr hexpired)

/-- The transaction of a recovery step, if it makes one. -/
theorem ControlStep.recoveryLabel (hstep : ControlStep s l s') (hl : Recovers s l)
    (hsilent : Silent s j) :
    s'.jobs = s.jobs ∨ ∃ label : JobLabel env.Value, label.isStart = false ∧
      label.now = s.broker.clock ∧ labelJob label ≠ some j ∧
      performJob env.jsonb s.jobs label = .ok s'.jobs := by
  cases hstep with
  | server hnow hclient hok =>
    obtain ⟨now, rfl⟩ := hl
    exact .inr ⟨.maintenance now, rfl, hnow, nofun, hok⟩
  | @handled n locked deliveryId grantId frame rest jobs replies hserving hframe hok =>
    rcases handleClientFrame_perform hok with hsame | ⟨label, hstart, hnow, hjob, hperform⟩
    · exact .inl hsame
    · refine .inr ⟨label, hstart, hnow, ?_, hperform⟩
      rw [hjob]
      exact (hsilent.links n).toServer hserving frame (by rw [hframe]; exact List.mem_cons_self)
  | _ => exact .inl rfl

/-- During a recovery a job that is not in the queue stays as it is until
its lease ends or it expires. -/
theorem Lost.step (h : Lost record s) (hinv : ControlInv s) (hstate : record.row.state ≠ .queued)
    (hl : Recovers s l) (hstep : ControlStep s l s') : Lost record s' := by
  have hclock := hstep.clock_le hinv.ledger
  cases h with
  | leaseEnded hlease hended => exact .leaseEnded hlease (hended.trans hclock)
  | expired hexpired => exact .expired (hexpired.trans hclock)
  | waiting hrecord hsilent =>
    have hnext : NotNext s record.row.id := by
      intro locked other hother hid
      obtain ⟨hmem, hclaimable⟩ := nextJob_eq_some hother
      obtain ⟨-, hqueued, -⟩ := of_decide_eq_true hclaimable
      rw [hinv.tables.jobs.eq_of_id hmem hrecord hid] at hqueued
      exact hstate hqueued
    rcases hstep.recoveryLabel hl hsilent with hsame | ⟨label, hstart, hnow, hjob, hok⟩
    · exact .waiting (by rw [hsame]; exact hrecord) (hsilent.step hnext hstep)
    · have hsteps := performJob_steps hinv.tables.jobs hok hstart
      obtain ⟨new, hnew, hrecordStep⟩ := exists_right_of_forall₂ hsteps hrecord
      rw [← hnow] at hclock
      rcases hrecordStep.of_other hstate hjob with rfl | ⟨lease, hlease, hended⟩ | hexpired
      · exact .waiting hnew (hsilent.step hnext hstep)
      · exact .leaseEnded hlease (hended.trans hclock)
      · exact .expired (hexpired.trans hclock)

/-- What a recovery keeps of every state. -/
theorem Reachable.later (hs : Reachable s) (h : RecoversTo s s') :
    Grows s.jobs s'.jobs ∧ s.broker.clock ≤ s'.broker.clock := by
  obtain ⟨clock, hreach⟩ := hs
  have hinv := controlInv_of_reaches hreach
  refine (h.invariant (I := fun t => ControlInv t ∧ Grows s.jobs t.jobs ∧
    s.broker.clock ≤ t.broker.clock) ⟨hinv, .refl _, le_rfl⟩ ?_).2
  rintro t l t' ⟨ht, hgrows, hle⟩ - hstep
  have hstep := controlStep_of_step hstep
  exact ⟨ht.step hstep, hgrows.trans (hstep.grows ht), hle.trans (hstep.clock_le ht.ledger)⟩

section

variable (hs : Reachable s) (hdead : ∀ n, (s.links n).serving = false) (hrecord : record ∈ s.jobs)
include hs hdead hrecord

theorem lost_of_recoversTo (hstate : record.row.state ≠ .queued) (h : RecoversTo s t) :
    Lost record t := by
  obtain ⟨clock, hreach⟩ := hs
  have hsilent : Silent s record.row.id := by
    refine ⟨fun n => silentLink_of_dead (hdead n), fun session _ hserving => ?_⟩
    grind
  refine (h.invariant (I := fun t => ControlInv t ∧ Lost record t)
    ⟨controlInv_of_reaches hreach, .waiting hrecord hsilent⟩ ?_).2
  rintro t l t' ⟨ht, hlost⟩ hl hstep
  have hstep := controlStep_of_step hstep
  exact ⟨ht.step hstep, hlost.step ht hstate hl hstep⟩

/-- Only a recoverable job is delivered again. -/
theorem recoverable_of_deliversAgain (h : DeliversAgain s record.row.id) :
    Recoverable record.row := by
  by_cases hstate : record.row.state = .queued
  · exact .inl hstate
  obtain ⟨s', ended, hredelivers, hended, hid, -, hbefore⟩ := h
  have hexpires : ended.row.expiresAt = record.row.expiresAt := by
    have hreach := hredelivers.recoversTo
    obtain ⟨later, hlater, hextends⟩ := (hs.later hreach).1 record hrecord
    rw [(hs.recoversTo hreach).tables.jobs.eq_of_id hended hlater (hid.trans hextends.id.symm)]
    exact hextends.expiresAt
  obtain ⟨t, l, t', ht, hl, hstep, ⟨queued, hqueued, hid', hstate'⟩, -, hafter⟩ := hredelivers
  have hclock := (hs.recoversTo ht).later (Machine.Reaches.head hl hstep hafter)
  cases lost_of_recoversTo hs hdead hrecord hstate ht with
  | waiting hmem hsilent =>
    rw [(hs.recoversTo ht).tables.jobs.eq_of_id hqueued hmem hid'] at hstate'
    exact absurd hstate' hstate
  | leaseEnded hlease hended => exact .inr ⟨_, hlease, by omega⟩
  | expired hexpired => omega

end

/-- In every state that a run reaches, with every stream of the client
dead, an unexpired job of the client can be delivered again and come to
its end in time exactly when it is in the queue or its lease ends before
it expires. -/
theorem delivers_again_iff {clock : Int} (henabled : env.enabled = true)
    (h : (control env).Reaches (fun _ _ => True) (.fresh env clock) s)
    (hdead : ∀ n, (s.links n).serving = false) (hrecord : record ∈ s.jobs)
    (htarget : record.row.targetId = env.deviceId)
    (hlive : s.broker.clock < record.row.expiresAt) :
    DeliversAgain s record.row.id ↔ Recoverable record.row :=
  ⟨recoverable_of_deliversAgain ⟨clock, h⟩ hdead hrecord,
    deliversAgain_of_recoverable henabled ⟨clock, h⟩ hdead hrecord htarget hlive⟩

/-- The daemon uses no link but the first. -/
def usesFirstLink : ControlLabel env.Value → Bool
  | .connect n => n == 0
  | _ => true

theorem serving_of_usesFirstLink {clock : Int}
    (h : (control env).Reaches (fun _ l => usesFirstLink l = true) (.fresh env clock) s) :
    ∀ n, n ≠ 0 → (s.links n).serving = false := by
  refine h.invariant (I := fun s => ∀ n, n ≠ 0 → (s.links n).serving = false)
    (fun _ _ => rfl) fun t l t' ht hl hstep n hn => ?_
  rw [← Bool.not_eq_true]
  intro hserving
  rcases (controlStep_of_step hstep).serving hserving with hbefore | rfl
  · grind
  · exact hn (beq_iff_eq.1 hl)

/-- The job 5 is claimed at time 0 and acknowledged. -/
def acknowledgeLabels : List (ControlLabel sampleControl.Value) :=
  claimLabels 0 ++ [.receive, .receive, .receive, .send, .deliver 0 (fun _ => false) 0 0]

/-- Its first event is stored, and the broker runs it to the end. -/
def completeLabels : List (ControlLabel sampleControl.Value) :=
  [.send, .deliver 0 (fun _ => false) 0 0, .submit 0, .broker (.verify 0), .broker (.record 0),
    .broker (.lookup 0), .broker (.acquire 0), .broker (.lookupAgain 0),
    .broker (.mark 0 insertionOrder), .broker (.run 0), .broker (.finish 0 (.ok ⟨true, [111], 0⟩)),
    .broker (.complete 0 insertionOrder)]

/-- The daemon is destroyed, and the server ends its stream. -/
def dieLabels : List (ControlLabel sampleControl.Value) := [.disconnect, .hangUp 0]

/-- A run that ends with the stream dead and a job as it is wanted. -/
theorem lost_of_run (L : List (ControlLabel sampleControl.Value))
    {P : ControlState sampleControl → JobRecord sampleControl.Value → Prop}
    [∀ s record, Decidable (P s record)]
    (hrun : ((control sampleControl).run (fun _ => usesFirstLink) (.fresh sampleControl 0)
      L).map (fun s => decide ((s.links 0).serving = false ∧ ∃ record ∈ s.jobs,
        P s record)) = some true) :
    ∃ s record, (control sampleControl).Reaches (fun _ _ => True) (.fresh sampleControl 0) s ∧
      (∀ n, (s.links n).serving = false) ∧ record ∈ s.jobs ∧ P s record := by
  obtain ⟨s, hreach, hview⟩ := Machine.reached_of_view (fun _ _ _ hl => hl) hrun
  obtain ⟨hserving, record, hrecord, hP⟩ := of_decide_eq_true hview
  refine ⟨s, record, hreach.mono fun _ _ _ => trivial, fun n => ?_, hrecord, hP⟩
  by_cases hn : n = 0
  · rw [hn]
    exact hserving
  · exact serving_of_usesFirstLink hreach n hn

/-- The daemon is lost after the acknowledgement. The job is delivered
again. -/
theorem delivers_again_acknowledged :
    ∃ s record, (control sampleControl).Reaches (fun _ _ => True) (.fresh sampleControl 0) s ∧
      (∀ n, (s.links n).serving = false) ∧ record ∈ s.jobs ∧
      record.row.state = .acknowledged ∧ DeliversAgain s record.row.id := by
  obtain ⟨s, record, hreach, hdead, hrecord, htarget, hstate, hlive, hlease, hexpires⟩ :=
    lost_of_run (acknowledgeLabels ++ dieLabels) (P := fun s record =>
      record.row.targetId = 7 ∧ record.row.state = .acknowledged ∧
        s.broker.clock < record.row.expiresAt ∧ leaseEnd record.row = some (60 * second) ∧
        60 * second < record.row.expiresAt) (by decide +kernel)
  exact ⟨s, record, hreach, hdead, hrecord, hstate,
    (delivers_again_iff rfl hreach hdead hrecord htarget hlive).2 (.inr ⟨_, hlease, hexpires⟩)⟩

/-- The daemon is lost after its first event is stored. The broker has the
result of the job, and nothing brings it to the server. -/
theorem running_job_is_lost :
    ∃ s record, (control sampleControl).Reaches (fun _ _ => True) (.fresh sampleControl 0) s ∧
      (∀ n, (s.links n).serving = false) ∧ record ∈ s.jobs ∧
      record.row.targetId = sampleControl.deviceId ∧
      isTerminalJobState record.row.state = false ∧ s.broker.clock < record.row.expiresAt ∧
      (s.broker.calls 0).bind (fun c => c.pc.answer) = some (.ok ⟨true, [111], 0⟩) ∧
      ¬ DeliversAgain s record.row.id := by
  obtain ⟨s, record, hreach, hdead, hrecord, htarget, hstate, hlive, hlease, hanswer⟩ :=
    lost_of_run (acknowledgeLabels ++ completeLabels ++ dieLabels)
      (P := fun s record => record.row.targetId = 7 ∧ record.row.state = .running ∧
        s.broker.clock < record.row.expiresAt ∧ leaseEnd record.row = none ∧
        (s.broker.calls 0).bind (fun c => c.pc.answer) = some (.ok ⟨true, [111], 0⟩))
      (by decide +kernel)
  refine ⟨s, record, hreach, hdead, hrecord, htarget, by rw [hstate]; rfl, hlive, hanswer, ?_⟩
  intro hdelivers
  rcases recoverable_of_deliversAgain ⟨0, hreach⟩ hdead hrecord hdelivers with
    hqueued | ⟨lease, hsome, -⟩
  · grind
  · rw [hlease] at hsome
    cases hsome

end Centrald.Proofs
