import Centrald.Client.ControlStream
import Centrald.Proofs.ExecutorRuns
import Centrald.Proofs.LiveGrant
import Centrald.Proofs.RecordedOutcome

/-!
# `Centrald.Proofs.BrokerAnswers`: the broker can always answer

From every state that the broker reaches, the call that holds the lock
can go on by its own steps and release it (`releases`). When the lock is
free, a new call can go on by its own steps to an answer (`answers`): its
grant is refused, the ledger has a record of its job, or its operation
runs. No time has to pass.

The answer fits a job event. What an operation returns is recorded only
up to `MAX_RECORDED_OUTPUT_BYTES`, so the responses in the ledger are
that small (`ReadyInv.outputs`), and the texts of the errors are short.
-/

set_option autoImplicit false

namespace Centrald.Proofs

open Durable Common Platform Client Client.Ledger Server Function

variable {env : BrokerEnv} {s s' : BrokerState env} {rs rs' : List LedgerRecord} {i : Nat}
  {c : Call} {label : BrokerLabel}

/-! ### Small responses -/

/-- The responses of the records fit a job event. -/
def SmallResponses (rs : List LedgerRecord) : Prop :=
  ∀ record ∈ rs, ∀ response, record.response = some response →
    response.output.length ≤ maxRecordedOutputBytes

theorem SmallResponses.compacted (h : SmallResponses rs) (env : LedgerEnv) (clock : Int)
    (order : HashOrder) : SmallResponses (compacted env clock order rs) :=
  fun record hrecord => h record (mem_of_mem_compacted hrecord)

theorem SmallResponses.append (h : SmallResponses rs) (h' : SmallResponses rs') :
    SmallResponses (rs ++ rs') := by
  intro record hrecord
  rcases List.mem_append.1 hrecord with hrecord | hrecord
  · exact h record hrecord
  · exact h' record hrecord

theorem smallResponses_completed {response : BrokerResponse} (job : Nat)
    (operation : GrantOperation) (now : Int)
    (hsize : response.output.length ≤ maxRecordedOutputBytes) :
    SmallResponses [completedRecord job operation response now] := by
  intro record hrecord response' hresponse
  grind

/-- A completion records small responses only. -/
theorem completeLedger_small (hrep : Represents env s.ledger rs)
    (hsmall : SmallResponses rs) (order : HashOrder) (r : BrokerResponse)
    (written : LedgerRecord → Nat) :
    ∃ rs', Represents env (completeLedger env s c r fun record =>
      appendCut env s.clock order record (written record)).2 rs' ∧
      SmallResponses rs' := by
  rcases runLedger_recordCompleted_cases hrep c.job r c.now s.clock order written with
    ⟨operation, file, hrun, hfile, hsize⟩ | ⟨e, file, hrun, hfile⟩
  · rw [completeLedger, hrun]
    refine ⟨_, hfile, (hsmall.compacted _ _ _).append ?_⟩
    split_ifs
    · exact smallResponses_completed _ _ _ hsize
    · exact fun _ hrecord => absurd hrecord List.not_mem_nil
  · rw [completeLedger, hrun]
    exact ⟨rs, hfile, hsmall⟩

theorem completeStep_ledger (r : BrokerResponse) (order : HashOrder) :
    (completeStep env s i c r order).ledger =
      (completeLedger env s c r (append env s.clock order)).2 := by
  rw [completeStep]
  rcases completeLedger env s c r (append env s.clock order) with ⟨_ | _, ledger⟩
  · rfl
  · rfl

/-- A step that does not complete an execution adds markers only. -/
theorem ExecutorStep.smallResponses (hstep : ExecutorStep rs s label rs' s')
    (hcomplete : ∀ i order, label ≠ .complete i order)
    (hcrash : ∀ i order written, label ≠ .crashComplete i order written)
    (h : SmallResponses rs) : SmallResponses rs' := by
  cases hstep <;> grind [SmallResponses]

/-- The ledger can be read, and its responses are small. -/
theorem smallResponses_step (hrep : Represents env s.ledger rs)
    (h : SmallResponses rs) (hstep : (executor env).step s label = some s') :
    ∃ rs', Represents env s'.ledger rs' ∧ SmallResponses rs' := by
  cases label with
  | complete i order =>
    obtain ⟨c, r, -, -, rfl⟩ := atRan_eq_some hstep
    rw [completeStep_ledger]
    exact completeLedger_small hrep h order r fun record =>
      (recordLine env record).length
  | crashComplete i order written =>
    obtain ⟨c, r, -, -, rfl⟩ := atRan_eq_some hstep
    exact completeLedger_small hrep h order r fun _ => written
  | _ =>
    obtain ⟨rs', hrep', hstep⟩ := executorStep_of_step hrep hstep
    exact ⟨rs', hrep', hstep.smallResponses nofun nofun h⟩

/-! ### What holds in every run -/

/-- The lock is held by a call that has not released it, the calls have
numbers below a bound, and the ledger is readable and small. -/
structure ReadyInv (s : BrokerState env) : Prop where
  ledger : ∃ rs, Represents env s.ledger rs ∧ SmallResponses rs
  lock : ∀ i, s.execution = some i → ∃ c, s.calls i = some c ∧ holdsLock c.pc = true
  numbers : ∃ bound, ∀ i, bound ≤ i → s.calls i = none

/-- A step leaves the lock and what its holder needs alone, hands it to a
call, or releases it. -/
theorem ExecutorStep.lock (hstep : ExecutorStep rs s label rs' s') (h : ReadyInv s) :
    ∀ i, s'.execution = some i → ∃ c, s'.calls i = some c ∧ holdsLock c.pc = true := by
  intro i hi
  have hheld := h.lock i
  cases hstep <;>
    dsimp at * <;>
    grind [holdsLock]

theorem ExecutorStep.numbers (hstep : ExecutorStep rs s label rs' s')
    (h : ∃ bound, ∀ i, bound ≤ i → s.calls i = none) :
    ∃ bound, ∀ i, bound ≤ i → s'.calls i = none := by
  obtain ⟨bound, hbound⟩ := h
  have hupdate : ∀ (k : Nat) (d : Call), ∃ bound, ∀ i, bound ≤ i →
      update s.calls k (some d) i = none := by
    intro k d
    refine ⟨max bound (k + 1), fun i hi => ?_⟩
    grind
  cases hstep with
  | tick | restart => exact ⟨bound, hbound⟩
  | call | move | acquire | answer | marked | run | ended => exact hupdate _ _
  | halt => exact ⟨0, fun _ _ => rfl⟩

theorem readyInv_of_reaches {G : BrokerState env → BrokerLabel → Prop} {clock : Int}
    (h : (executor env).Reaches G (.fresh env clock none) s) : ReadyInv s := by
  refine h.invariant ⟨⟨[], represents_none.2 rfl, ?_⟩, ?_, ⟨0, fun _ _ => rfl⟩⟩ ?_
  · exact fun _ hrecord => absurd hrecord List.not_mem_nil
  · intro i hi
    cases hi
  · intro s l s' hinv _ hstep
    obtain ⟨rs, hrep, hsmall⟩ := hinv.ledger
    obtain ⟨rs', -, hexecutor⟩ := executorStep_of_step hrep hstep
    exact ⟨smallResponses_step hrep hsmall hstep, hexecutor.lock hinv,
      hexecutor.numbers hinv.numbers⟩

/-! ### The lock can be released -/

/-- The call `i` can release the lock by its own steps. -/
def Releases (s : BrokerState env) (i : Nat) : Prop :=
  ∃ s', CallReaches i s s' ∧ s'.execution = none ∧ s'.up = true ∧ s'.clock = s.clock

/-- What the sections of a call leave alone. -/
structure SameProcess (s t : BrokerState env) : Prop where
  up : t.up = s.up
  clock : t.clock = s.clock
  execution : t.execution = s.execution
  calls : t.calls = s.calls

variable {t : BrokerState env}

theorem Releases.of_move {pc : Pc} (hstep : (executor env).step s label = some (t.setPc i c pc))
    (hlabel : isOfCall i label = true) (ht : SameProcess s t)
    (h : Releases (t.setPc i c pc) i) : Releases s i := by
  obtain ⟨s', hreach, hfree, hup, hclock⟩ := h
  exact ⟨s', .head hlabel hstep hreach, hfree, hup, hclock.trans ht.clock⟩

theorem Releases.of_finish {result : CallResult}
    (hstep : (executor env).step s label = some (t.finishCall i c result))
    (hlabel : isOfCall i label = true) (ht : SameProcess s t) (hup : s.up = true)
    (hlock : s.execution = some i) : Releases s i := by
  refine ⟨_, .tail .refl hlabel hstep, ?_, ht.up.trans hup, ht.clock⟩
  show (if t.execution = some i then none else t.execution) = none
  rw [if_pos (ht.execution.trans hlock)]

/-- A section of the call ends at `pc`, or the call returns. -/
def EndsAt (s : BrokerState env) (i : Nat) (c : Call) (pc : Pc) (u : BrokerState env) : Prop :=
  ∃ t, SameProcess s t ∧ (u = t.setPc i c pc ∨ ∃ result, u = t.finishCall i c result)

theorem Releases.of_section {l : BrokerLabel} {pc : Pc} {u : BrokerState env}
    (hstep : (executor env).step s l = some u) (hlabel : isOfCall i l = true)
    (hu : EndsAt s i c pc u) (hup : s.up = true) (hlock : s.execution = some i)
    (hnext : ∀ t, SameProcess s t → Releases (t.setPc i c pc) i) : Releases s i := by
  obtain ⟨t, ht, rfl | ⟨result, rfl⟩⟩ := hu
  · exact .of_move hstep hlabel ht (hnext t ht)
  · exact .of_finish hstep hlabel ht hup hlock

theorem completeStep_finish (r : BrokerResponse) (order : HashOrder) :
    ∃ t result, completeStep env s i c r order = t.finishCall i c result ∧ SameProcess s t := by
  rw [completeStep]
  rcases completeLedger env s c r (append env s.clock order) with ⟨_ | _, ledger⟩
  · exact ⟨_, _, rfl, rfl, rfl, rfl, rfl⟩
  · exact ⟨_, _, rfl, rfl, rfl, rfl, rfl⟩

theorem markStep_endsAt (order : HashOrder) : EndsAt s i c .marked (markStep env s i c order) := by
  rw [markStep]
  rcases markLedger env s c (append env s.clock order) with ⟨_ | _, ledger⟩
  · exact ⟨{ s with ledger }, ⟨rfl, rfl, rfl, rfl⟩, .inr ⟨_, rfl⟩⟩
  · exact ⟨{ s with ledger }.noteMarker c.job c.now, ⟨rfl, rfl, rfl, rfl⟩, .inl rfl⟩

theorem lookupAgainStep_endsAt : EndsAt s i c .cleared (lookupAgainStep env s i c) := by
  rw [lookupAgainStep]
  rcases runLedger (Ledger.lookup env c.job c.now) s.ledger with
    ⟨_ | _ | _ | _, ledger⟩
  · exact ⟨{ s with ledger }, ⟨rfl, rfl, rfl, rfl⟩, .inr ⟨_, rfl⟩⟩
  · exact ⟨{ s with ledger }, ⟨rfl, rfl, rfl, rfl⟩, .inl rfl⟩
  · exact ⟨{ s with ledger }, ⟨rfl, rfl, rfl, rfl⟩, .inr ⟨_, rfl⟩⟩
  · exact ⟨{ s with ledger }, ⟨rfl, rfl, rfl, rfl⟩, .inr ⟨_, rfl⟩⟩

section Release

variable (hup : s.up = true) (hlock : s.execution = some i) (hc : s.calls i = some c)

include hup hlock hc

theorem releases_of_ran {r : BrokerResponse} (hpc : c.pc = .ran r) : Releases s i := by
  obtain ⟨t, result, hcomplete, ht⟩ := completeStep_finish (s := s) (i := i) (c := c) r
    insertionOrder
  have hstep : (executor env).step s (.complete i insertionOrder) =
      some (t.finishCall i c result) := by
    rw [← hcomplete]
    exact atRan_eq hup hc hpc _
  exact .of_finish hstep (beq_self_eq_true i) ht hup hlock

theorem releases_of_running (hpc : c.pc = .running) : Releases s i := by
  have hstep : (executor env).step s (.finish i (.ok ⟨true, [], 0⟩)) =
      some (s.setPc i c (.ran ⟨true, [], 0⟩)) := atPc_eq hup hc hpc _
  refine .of_move hstep (beq_self_eq_true i) ⟨rfl, rfl, rfl, rfl⟩ ?_
  exact releases_of_ran hup hlock (update_self ..) rfl

theorem releases_of_marked (hpc : c.pc = .marked) : Releases s i := by
  have hstep : (executor env).step s (.run i) = some (runStep env s i c) := atPc_eq hup hc hpc _
  refine .of_move hstep (beq_self_eq_true i) ⟨rfl, rfl, rfl, rfl⟩ ?_
  exact releases_of_running hup hlock (update_self ..) rfl

theorem releases_of_cleared (hpc : c.pc = .cleared) : Releases s i := by
  refine .of_section (l := .mark i insertionOrder) (atPc_eq hup hc hpc _)
    (beq_self_eq_true i) (markStep_endsAt insertionOrder) hup hlock fun t ht => ?_
  exact releases_of_marked (ht.up.trans hup) (ht.execution.trans hlock) (update_self ..) rfl

theorem releases_of_locked (hpc : c.pc = .locked) : Releases s i := by
  refine .of_section (l := .lookupAgain i) (atPc_eq hup hc hpc _) (beq_self_eq_true i)
    lookupAgainStep_endsAt hup hlock fun t ht => ?_
  exact releases_of_cleared (ht.up.trans hup) (ht.execution.trans hlock) (update_self ..) rfl

end Release

/-- The call that holds the lock can release it. -/
theorem releases (h : ReadyInv s) (hup : s.up = true) (hlock : s.execution = some i) :
    Releases s i := by
  obtain ⟨c, hc, hholds⟩ := h.lock i hlock
  cases hpc : c.pc with
  | locked => exact releases_of_locked hup hlock hc hpc
  | cleared => exact releases_of_cleared hup hlock hc hpc
  | marked => exact releases_of_marked hup hlock hc hpc
  | running => exact releases_of_running hup hlock hc hpc
  | ran r => exact releases_of_ran hup hlock hc hpc
  | entered | verified | recorded | waiting | refused | returned =>
    rw [hpc] at hholds
    cases hholds

/-! ### A call can be answered -/

/-- The answer fits a job event. -/
def SmallResult : CallResult → Prop
  | .ok response => response.output.length ≤ maxJobEventOutputBytes
  | .failed error => (utf8 error).length ≤ maxJobEventOutputBytes

/-- The call `i` for `request` can be answered by its own steps. -/
def Answers (s : BrokerState env) (i : Nat) (request : BrokerRequest) : Prop :=
  ∃ s' c result, CallReaches i (entered s i request) s' ∧ s'.clock = s.clock ∧
    s'.calls i = some c ∧ c.pc.answer = some result ∧ SmallResult result

theorem smallResult_refused (error : BrokerError) : SmallResult (.failed error.text) := by
  show (utf8 error.text).length ≤ maxJobEventOutputBytes
  rcases error with error | _ | _
  · cases error <;> decide +kernel
  · decide +kernel
  · decide +kernel

theorem lookupIn_error {job : Nat} {now : Int} {error : String}
    (h : lookupIn rs job now = .error error) :
    error = "completed ledger record is missing its response" := by
  rw [lookupIn] at h
  split at h
  next => cases h
  next record _ =>
    rw [lookupRecord] at h
    split at h
    next => cases h
    next =>
      split at h
      next => cases h
      next =>
        cases h
        rfl

/-- A first lookup that finds a record answers. -/
theorem lookupStep_answers (hrep : Represents env s.ledger rs)
    (hsmall : SmallResponses rs)
    (hdigest : env.sha256Hex c.request.parametersJson = c.grant.parametersSha256)
    (hfound : lookupIn rs c.job c.now ≠ .ok none) :
    ∃ result, lookupStep env s i c = (recoverLedger s rs).finishCall i c result ∧
      SmallResult result := by
  rw [lookupStep, if_neg (not_not.2 hdigest), runLedger_lookup hrep]
  cases hlookup : lookupIn rs c.job c.now with
  | error error =>
    refine ⟨.failed error, rfl, ?_⟩
    rw [lookupIn_error hlookup]
    show (utf8 _).length ≤ maxJobEventOutputBytes
    decide +kernel
  | ok found =>
    rcases found with _ | (_ | _) | response
    · exact absurd hlookup hfound
    · exact ⟨.failed inProgressText, rfl, show (utf8 inProgressText).length ≤ _ by decide +kernel⟩
    · exact ⟨.failed interruptedText, rfl, show (utf8 interruptedText).length ≤ _ by decide +kernel⟩
    · obtain ⟨record, hrecord, -, hresponse⟩ := completed_of_lookupIn hlookup
      exact ⟨.ok response, rfl, hsmall record hrecord response hresponse⟩

theorem answers_of_recorded {request : BrokerRequest}
    (hreach : CallReaches i (entered s i request) t) (hclock : t.clock = s.clock)
    (hup : t.up = true) (hc : t.calls i = some c) (hpc : c.pc = .recorded)
    (hrep : Represents env t.ledger rs) (hsmall : SmallResponses rs)
    (hdigest : env.sha256Hex c.request.parametersJson = c.grant.parametersSha256)
    (hfound : lookupIn rs c.job c.now ≠ .ok none) : Answers s i request := by
  obtain ⟨result, hlookup, hresult⟩ := lookupStep_answers (i := i) hrep hsmall hdigest hfound
  have hstep : (executor env).step t (.lookup i) =
      some ((recoverLedger t rs).finishCall i c result) := by
    rw [← hlookup]
    exact atPc_eq hup hc hpc _
  exact ⟨_, _, result, hreach.then hstep, hclock, update_self .., rfl, hresult⟩

/-- A call that enters while the lock is free can be answered. -/
theorem answers {request : BrokerRequest} (hup : s.up = true) (hfree : s.execution = none)
    (hrep : Represents env s.ledger rs) (hsmall : SmallResponses rs)
    (henabled : env.enabled = true)
    (hdigest : env.sha256Hex request.parametersJson =
      request.signedGrant.grant.parametersSha256) : Answers s i request := by
  cases hvalid : (s.verifier.verifyAndConsume env.texts request.signedGrant s.clock).2 with
  | error error =>
    have hstep : (executor env).step (entered s i request) (.verify i) =
        some (verifyStep env (entered s i request) i ⟨request, s.clock, .entered⟩) :=
      atPc_inCall hup rfl _
    rw [verifyStep_eq (s := entered s i request) (c := ⟨request, s.clock, .entered⟩) henabled
      hvalid] at hstep
    exact ⟨_, _, _, CallReaches.then .refl hstep, rfl, update_self .., rfl,
      smallResult_refused error⟩
  | ok _ =>
    by_cases hnone : lookupIn rs request.signedGrant.grant.jobOrSessionId s.clock = .ok none
    · obtain ⟨s', operation, hreach, hperformed⟩ := performs_completed (i := i) hup hfree hrep
        henabled hvalid hdigest hnone insertionOrder (r := ⟨true, [], 0⟩) (Nat.zero_le _)
      have hc := congrFun hperformed.calls i
      rw [update_self] at hc
      exact ⟨s', _, _, hreach, hperformed.clock, hc, rfl, Nat.zero_le _⟩
    · obtain ⟨grants, hrecorded⟩ := reaches_recorded (i := i) hup henabled hvalid
      exact answers_of_recorded hrecorded rfl hup calls_inCall rfl hrep hsmall hdigest hnone

/-- In every run, with crashes anywhere: at most one call is between the
acquisition and the release of the lock, and a lock that is held has such
a call. The holder can release it and a new call can then be answered, by
their own steps and at once. -/
theorem execution_lock_live {clock : Int} {G : BrokerState env → BrokerLabel → Prop}
    (h : (executor env).Reaches G (.fresh env clock none) s) :
    (∀ i c k d, s.calls i = some c → s.calls k = some d → holdsLock c.pc = true →
      holdsLock d.pc = true → i = k) ∧
    (∀ i, s.execution = some i → ∃ c, s.calls i = some c ∧ holdsLock c.pc = true) ∧
    (s.up = true → env.enabled = true → ∀ request : BrokerRequest,
      env.sha256Hex request.parametersJson = request.signedGrant.grant.parametersSha256 →
      ∃ k s1 i, CallReaches k s s1 ∧ s1.clock = s.clock ∧ s1.calls i = none ∧
        Answers s1 i request) := by
  have hready := readyInv_of_reaches h
  refine ⟨fun i c k d hc hd hpc hpd => ?_, hready.lock, fun hup henabled request hdigest => ?_⟩
  · obtain ⟨-, -, hcalls⟩ := ledger_invariant (I := fun _ s => CallInv s) h (represents_none.2 rfl)
      ⟨fun _ _ hnone => (by cases hnone), fun _ _ hnone => (by cases hnone)⟩
      fun _ _ _ _ _ _ hI _ hstep => hI.step hstep
    exact (hcalls.eq_of_holdsLock hd hpd hc hpc).1
  · have hfree : ∃ k, Releases s k := by
      cases hlock : s.execution with
      | none => exact ⟨0, s, .refl, hlock, hup, rfl⟩
      | some k => exact ⟨k, releases hready hup hlock⟩
    obtain ⟨k, s1, hreach, hnone, hup1, hclock⟩ := hfree
    -- the ledger may have grown since, so the invariant is that of `s1`
    have hready1 := readyInv_of_reaches ((h.mono fun _ _ _ => trivial).trans
      (hreach.mono (H := fun _ _ => True) fun _ _ _ => trivial))
    obtain ⟨rs, hrep, hsmall⟩ := hready1.ledger
    obtain ⟨bound, hbound⟩ := hready1.numbers
    exact ⟨k, s1, bound, hreach, hclock, hbound bound le_rfl,
      answers hup1 hnone hrep hsmall henabled hdigest⟩

/-- The operation of a call runs, so the lock is held. It can be released,
and a call for another job can then be answered. -/
theorem execution_lock_live_sample : ∃ s, (executor sampleEnv).Reaches (fun _ _ => True)
      (.fresh sampleEnv 0 none) s ∧ s.execution = some 0 ∧
    ∃ k s1 i, CallReaches k s s1 ∧ s1.clock = s.clock ∧ s1.calls i = none ∧
      Answers s1 i (sampleRequest 6 10 0) := by
  have hrun : ((executor sampleEnv).run (fun _ _ => true) (.fresh sampleEnv 0 none)
      [.call 0 (sampleRequest 5 9 0), .verify 0, .record 0, .lookup 0, .acquire 0,
        .lookupAgain 0, .mark 0 insertionOrder, .run 0]).any
      (fun s => decide (s.execution = some 0 ∧ s.up = true)) = true := by decide +kernel
  obtain ⟨s, hs, hheld⟩ := (Option.any_eq_true _ _).1 hrun
  obtain ⟨hlock, hup⟩ := of_decide_eq_true hheld
  have hreach := Machine.reaches_of_run hs
  exact ⟨s, hreach, hlock, (execution_lock_live hreach).2.2 hup rfl _ rfl⟩

end Centrald.Proofs
