import Centrald.Proofs.Executor

/-!
# `Centrald.Proofs.ExecutorRuns`: steps that a call can take

`ExecutorStep` says what a step may do. Here are the steps themselves,
for runs that have to exist: the state after each section of `execute`,
from what a lookup reads in the records.
-/

set_option autoImplicit false

namespace Centrald.Proofs

open Durable Common Platform Client Client.Ledger

variable {env : BrokerEnv} {s : BrokerState env} {rs : List LedgerRecord} {i : Nat} {c : Call}

theorem atPc_eq {pc : Pc} (hup : s.up = true) (hc : s.calls i = some c) (hpc : c.pc = pc)
    (f : Call → BrokerState env) : s.atPc i pc f = some (f c) := by
  rw [BrokerState.atPc]
  grind

variable {r : BrokerResponse}

theorem atRan_eq (hup : s.up = true) (hc : s.calls i = some c)
    (hpc : c.pc = .ran r) (f : Call → BrokerResponse → BrokerState env) :
    s.atRan i f = some (f c r) := by
  rw [BrokerState.atRan]
  simp only [hc, hpc]
  exact if_pos hup

theorem step_acquire_of_free (hup : s.up = true) (hfree : s.execution = none)
    (hc : s.calls i = some c) (hpc : c.pc = .waiting) :
    (executor env).step s (.acquire i) =
      some ({ s with execution := some i }.setPc i c .locked) := by
  show (if s.execution = none then s.atPc i .waiting _ else none) = _
  rw [if_pos hfree, atPc_eq hup hc hpc]

/-- The ledger after a lookup. -/
def recoverLedger (s : BrokerState env) (rs : List LedgerRecord) : BrokerState env :=
  { s with ledger := recoveredFile env rs s.ledger }

/-- Where the verification of its grant brings a call. -/
def verifiedPc : Except BrokerError Unit → Pc
  | .ok () => .verified
  | .error e => .refused e.text

theorem verifyStep_eq {result : Except BrokerError Unit} (henabled : env.enabled = true)
    (h : (s.verifier.verifyAndConsume env.texts c.request.signedGrant c.now).2 = result) :
    verifyStep env s i c = { s with
      verifier := (s.verifier.verifyAndConsume env.texts c.request.signedGrant c.now).1
    }.setPc i c (verifiedPc result) := by
  subst h
  rw [verifyStep, if_neg (by simp [henabled])]
  rcases s.verifier.verifyAndConsume env.texts c.request.signedGrant c.now with ⟨verifier, _ | _⟩
  · rfl
  · rfl

section Lookup

variable (hrep : Represents env s.ledger rs)

include hrep

section

variable (hdigest : env.sha256Hex c.request.parametersJson = c.grant.parametersSha256)
include hdigest

theorem lookupStep_replay
    (h : lookupIn rs c.job c.now = .ok (some (.completed r))) :
    lookupStep env s i c = (recoverLedger s rs).finishCall i c (.ok r) := by
  rw [lookupStep, if_neg (not_not.2 hdigest), runLedger_lookup hrep, h]
  rfl

theorem lookupStep_none (h : lookupIn rs c.job c.now = .ok none) :
    lookupStep env s i c = (recoverLedger s rs).setPc i c .waiting := by
  rw [lookupStep, if_neg (not_not.2 hdigest), runLedger_lookup hrep, h]
  rfl

end

theorem lookupAgainStep_replay
    (h : lookupIn rs c.job c.now = .ok (some (.completed r))) :
    lookupAgainStep env s i c = (recoverLedger s rs).finishCall i c (.ok r) := by
  rw [lookupAgainStep, runLedger_lookup hrep, h]
  rfl

theorem lookupAgainStep_none (h : lookupIn rs c.job c.now = .ok none) :
    lookupAgainStep env s i c = (recoverLedger s rs).setPc i c .cleared := by
  rw [lookupAgainStep, runLedger_lookup hrep, h]
  rfl

end Lookup

/-! ### An undisturbed call -/

/-- `s` with the call `i` at `c` and the other shared state as given. -/
def inCall (s : BrokerState env) (i : Nat) (c : Call) (execution : Option Nat)
    (verifier : GrantVerifier env.sigs) (ledger grants : Option Bytes) : BrokerState env :=
  { s with execution, verifier, ledger, grants, calls := Function.update s.calls i (some c) }

section Undisturbed

variable {lock : Option Nat} {verifier : GrantVerifier env.sigs} {ledger grants : Option Bytes}

theorem calls_inCall : (inCall s i c lock verifier ledger grants).calls i = some c :=
  Function.update_self ..

section

variable (hup : s.up = true)
include hup

theorem atPc_inCall {pc : Pc} (hpc : c.pc = pc) (f : Call → BrokerState env) :
    (inCall s i c lock verifier ledger grants).atPc i pc f = some (f c) :=
  atPc_eq (s := inCall s i c lock verifier ledger grants) hup calls_inCall hpc f

theorem step_verify (hpc : c.pc = .entered) (henabled : env.enabled = true)
    (hvalid : (verifier.verifyAndConsume env.texts c.request.signedGrant c.now).2 = .ok ()) :
    (executor env).step (inCall s i c lock verifier ledger grants) (.verify i) =
      some (inCall s i { c with pc := .verified } lock
        (verifier.verifyAndConsume env.texts c.request.signedGrant c.now).1 ledger grants) := by
  refine (atPc_inCall hup hpc _).trans (congrArg some ?_)
  rw [verifyStep_eq (s := inCall s i c lock verifier ledger grants) henabled hvalid]
  simp [inCall, BrokerState.setPc, verifiedPc]

theorem step_record (hpc : c.pc = .verified) :
    (executor env).step (inCall s i c lock verifier ledger grants) (.record i) =
      some (inCall s i { c with pc := .recorded } lock verifier ledger
        (recordConsumedGrant env grants (c.grant.id, c.grant.expiresAt))) := by
  refine (atPc_inCall hup hpc _).trans (congrArg some ?_)
  simp [recordStep, inCall, BrokerState.setPc]

theorem step_lookup (hpc : c.pc = .recorded) (hrep : Represents env ledger rs)
    (hdigest : env.sha256Hex c.request.parametersJson = c.grant.parametersSha256)
    (hnone : lookupIn rs c.job c.now = .ok none) :
    (executor env).step (inCall s i c lock verifier ledger grants) (.lookup i) =
      some (inCall s i { c with pc := .waiting } lock verifier
        (recoveredFile env rs ledger) grants) := by
  refine (atPc_inCall hup hpc _).trans (congrArg some ?_)
  rw [lookupStep_none (s := inCall s i c lock verifier ledger grants) hrep hdigest hnone]
  simp [recoverLedger, inCall, BrokerState.setPc]

theorem step_acquire (hpc : c.pc = .waiting) :
    (executor env).step (inCall s i c none verifier ledger grants) (.acquire i) =
      some (inCall s i { c with pc := .locked } (some i) verifier ledger grants) := by
  rw [step_acquire_of_free (s := inCall s i c none verifier ledger grants) hup rfl calls_inCall hpc]
  simp [inCall, BrokerState.setPc]

theorem step_lookupAgain (hpc : c.pc = .locked) (hrep : Represents env ledger rs)
    (hnone : lookupIn rs c.job c.now = .ok none) :
    (executor env).step (inCall s i c lock verifier ledger grants) (.lookupAgain i) =
      some (inCall s i { c with pc := .cleared } lock verifier
        (recoveredFile env rs ledger) grants) := by
  refine (atPc_inCall hup hpc _).trans (congrArg some ?_)
  rw [lookupAgainStep_none (s := inCall s i c lock verifier ledger grants) hrep hnone]
  simp [recoverLedger, inCall, BrokerState.setPc]

/-- The marker is written behind the lookup that found nothing. -/
theorem step_mark (hpc : c.pc = .cleared) (hrep : Represents env ledger rs)
    (hnone : lookupIn rs c.job c.now = .ok none) (order : HashOrder) :
    ∃ file, (executor env).step (inCall s i c lock verifier ledger grants) (.mark i order) =
        some (inCall (s.noteMarker c.job c.now) i { c with pc := .marked } lock verifier file
          grants) ∧
      Represents env file (compacted env s.clock order rs ++
        [executingMarker c.job c.grant.operation c.now]) := by
  obtain ⟨file, hrun, hfile⟩ := markLedger_ok (s := inCall s i c lock verifier ledger grants) hrep
    hnone order fun r => (recordLine env r).length
  rw [appended_whole] at hfile
  refine ⟨file, (atPc_inCall hup hpc _).trans (congrArg some ?_), hfile⟩
  have happend : markLedger env (inCall s i c lock verifier ledger grants) c
    (append env (inCall s i c lock verifier ledger grants).clock order) =
      (.ok (), file) := hrun
  rw [markStep, happend]
  simp only [inCall, BrokerState.noteMarker, BrokerState.setPc, Function.update_idem]
  rfl

theorem step_run (hpc : c.pc = .marked) :
    (executor env).step (inCall s i c lock verifier ledger grants) (.run i) =
      some (inCall { s with executions :=
          ⟨c.job, c.now, c.grant.expiresAt, s.clock, .running⟩ :: s.executions } i
        { c with pc := .running } lock verifier ledger grants) := by
  refine (atPc_inCall hup hpc _).trans (congrArg some ?_)
  simp [runStep, inCall, BrokerState.setPc]

end

/-- The call returns and releases the lock. -/
theorem finishCall_inCall (result : CallResult) :
    (inCall s i c (some i) verifier ledger grants).finishCall i c result =
      inCall s i { c with pc := .returned result } none verifier ledger grants := by
  simp [inCall, BrokerState.finishCall, BrokerState.setPc]

theorem step_finish_failed {e : Execution} {rest : List Execution} (hup : s.up = true)
    (hpc : c.pc = .running) (hexec : s.executions = e :: rest) (error : String) :
    (executor env).step (inCall s i c (some i) verifier ledger grants) (.finish i (.failed error)) =
      some (inCall { s with executions := { e with outcome := .failed } :: rest } i
        { c with pc := .returned (.failed error) } none verifier ledger grants) := by
  refine (atPc_inCall hup hpc _).trans (congrArg some ?_)
  rw [← finishCall_inCall]
  simp [finishStep, inCall, BrokerState.setOutcome, hexec]

theorem step_finish_ok (hup : s.up = true) (hpc : c.pc = .running) (r : BrokerResponse) :
    (executor env).step (inCall s i c lock verifier ledger grants) (.finish i (.ok r)) =
      some (inCall s i { c with pc := .ran r } lock verifier ledger grants) := by
  refine (atPc_inCall hup hpc _).trans (congrArg some ?_)
  simp [finishStep, inCall, BrokerState.setPc]

/-- The response is recorded behind the marker, and the call returns it.
-/
theorem step_complete {e : Execution} {rest : List Execution}
    {found : LedgerLookup} (hup : s.up = true) (hpc : c.pc = .ran r)
    (hexec : s.executions = e :: rest) (hrep : Represents env ledger rs)
    (hsize : r.output.length ≤ maxRecordedOutputBytes)
    (hfound : lookupIn rs c.job c.now = .ok (some found)) (order : HashOrder) :
    ∃ file operation, (executor env).step (inCall s i c (some i) verifier ledger grants)
        (.complete i order) =
        some (inCall { s with executions := { e with outcome := .recorded r } :: rest } i
          { c with pc := .returned (.ok r) } none verifier file grants) ∧
      Represents env file (compacted env s.clock order rs ++
        [completedRecord c.job operation r c.now]) := by
  obtain ⟨operation, hrun⟩ := runLedger_recordCompleted hrep hsize hfound
    (append env s.clock order)
  obtain ⟨file, happend, hfile⟩ := runLedger_appendCut (clean_recoveredFile hrep) s.clock order
    (completedRecord c.job operation r c.now) _
  rw [appended_whole] at hfile
  have hcomplete : completeLedger env (inCall s i c (some i) verifier ledger grants) c r
    (append env (inCall s i c (some i) verifier ledger grants).clock order) =
      (.ok (), file) := hrun.trans happend
  refine ⟨file, operation, ?_, hfile⟩
  refine (atRan_eq (s := inCall s i c (some i) verifier ledger grants) hup calls_inCall hpc
    _).trans (congrArg some ?_)
  rw [completeStep, hcomplete, ← finishCall_inCall]
  simp [inCall, BrokerState.setOutcome, hexec]

end Undisturbed

/-- The steps of the call `i`. -/
def isOfCall (i : Nat) : BrokerLabel → Bool
  | .verify k | .record k | .lookup k | .acquire k | .lookupAgain k | .mark k _ | .run k
  | .finish k _ | .complete k _ => k == i
  | _ => false

/-- The states that the call `i` reaches by its own steps. -/
abbrev CallReaches (i : Nat) : BrokerState env → BrokerState env → Prop :=
  (executor env).Reaches fun _ label => isOfCall i label = true

/-- A step of the call `i` after others. -/
theorem CallReaches.then {s' s'' : BrokerState env} {label : BrokerLabel}
    (h : CallReaches i s s') (hstep : (executor env).step s' label = some s'')
    (hlabel : isOfCall i label = true := by exact beq_self_eq_true i) : CallReaches i s s'' :=
  h.tail hlabel hstep

/-- The call `i` has entered. -/
def entered (s : BrokerState env) (i : Nat) (request : BrokerRequest) : BrokerState env :=
  inCall s i ⟨request, s.clock, .entered⟩ s.execution s.verifier s.ledger s.grants

theorem step_call {request : BrokerRequest} (hup : s.up = true) (hnew : s.calls i = none) :
    (executor env).step s (.call i request) = some (entered s i request) :=
  if_pos ⟨hup, hnew⟩

theorem CallReaches.of_entered {s' : BrokerState env} {request : BrokerRequest}
    (h : CallReaches i (entered s i request) s') (hup : s.up = true) (hnew : s.calls i = none) :
    (executor env).Reaches (fun _ _ => True) s s' :=
  .head trivial (step_call hup hnew) (h.mono fun _ _ _ => trivial)

/-- A call whose grant is accepted comes to the first lookup. -/
theorem reaches_recorded {request : BrokerRequest} (hup : s.up = true)
    (henabled : env.enabled = true)
    (hvalid : (s.verifier.verifyAndConsume env.texts request.signedGrant s.clock).2 = .ok ()) :
    ∃ grants, CallReaches i (entered s i request)
      (inCall s i ⟨request, s.clock, .recorded⟩ s.execution
        (s.verifier.verifyAndConsume env.texts request.signedGrant s.clock).1
        s.ledger grants) := by
  have hstart : CallReaches i (entered s i request) (entered s i request) := .refl
  exact ⟨_, (hstart.then (step_verify hup rfl henabled hvalid)).then (step_record hup rfl)⟩

/-- What an undisturbed call leaves behind: its own return, its grant in
the verifier, its execution and the marker in the ledger. -/
structure Performed (s s' : BrokerState env) (i : Nat) (request : BrokerRequest)
    (result : CallResult) (rs' : List LedgerRecord) : Prop where
  clock : s'.clock = s.clock
  up : s'.up = true
  free : s'.execution = none
  calls : s'.calls = Function.update s.calls i (some ⟨request, s.clock, .returned result⟩)
  verifier : s'.verifier =
    (s.verifier.verifyAndConsume env.texts request.signedGrant s.clock).1
  executions : ∃ outcome, s'.executions =
    ⟨request.signedGrant.grant.jobOrSessionId, s.clock, request.signedGrant.grant.expiresAt,
      s.clock, outcome⟩ :: s.executions
  firstMarker : s'.firstMarker =
    (s.noteMarker request.signedGrant.grant.jobOrSessionId s.clock).firstMarker
  records : Represents env s'.ledger rs'

section Performs

variable {request : BrokerRequest} (hup : s.up = true) (hfree : s.execution = none)
  (hrep : Represents env s.ledger rs) (henabled : env.enabled = true)
  (hvalid : (s.verifier.verifyAndConsume env.texts request.signedGrant s.clock).2 = .ok ())
  (hdigest : env.sha256Hex request.parametersJson = request.signedGrant.grant.parametersSha256)
  (hnone : lookupIn rs request.signedGrant.grant.jobOrSessionId s.clock = .ok none)

include hup hfree hrep henabled hvalid hdigest hnone

/-- A call that finds the lock free comes to the marker, if its grant is
accepted, its parameters match and its job has no record. -/
theorem reaches_cleared :
    ∃ ledger grants, Represents env ledger rs ∧ CallReaches i (entered s i request)
        (inCall s i ⟨request, s.clock, .cleared⟩ (some i)
          (s.verifier.verifyAndConsume env.texts request.signedGrant s.clock).1
          ledger grants) := by
  obtain ⟨grants, hrecorded⟩ := reaches_recorded (i := i) hup henabled hvalid
  rw [hfree] at hrecorded
  have hlooked := hrecorded.then (step_lookup hup rfl hrep hdigest hnone)
  have hrep' := (clean_recoveredFile hrep).represents
  have hlocked := hlooked.then (step_acquire hup rfl)
  have hcleared := hlocked.then (step_lookupAgain hup rfl hrep' hnone)
  exact ⟨_, grants, (clean_recoveredFile hrep').represents, hcleared⟩

/-- An undisturbed call whose operation fails leaves its marker. -/
theorem performs_failed (order : HashOrder) (error : String) :
    ∃ s', CallReaches i (entered s i request) s' ∧ Performed s s' i request (.failed error)
        (compacted env s.clock order rs ++ [executingMarker
          request.signedGrant.grant.jobOrSessionId request.signedGrant.grant.operation
          s.clock]) := by
  obtain ⟨ledger, grants, hrep, hcleared⟩ :=
    reaches_cleared (i := i) hup hfree hrep henabled hvalid hdigest hnone
  obtain ⟨file, hmark, hfile⟩ := step_mark (s := s) (i := i)
    (c := ⟨request, s.clock, .cleared⟩) hup rfl hrep hnone order
  have hrunning := (hcleared.then hmark).then (step_run (by exact hup) rfl)
  have hfailed := hrunning.then (step_finish_failed (by exact hup) rfl rfl error)
  exact ⟨_, hfailed,
    { clock := rfl
      up := hup
      free := rfl
      calls := rfl
      verifier := rfl
      executions := ⟨_, rfl⟩
      firstMarker := rfl
      records := hfile }⟩

/-- An undisturbed call whose operation succeeds leaves its marker and its
completed record. -/
theorem performs_completed (order : HashOrder)
    (hsize : r.output.length ≤ maxRecordedOutputBytes) :
    ∃ s' operation, CallReaches i (entered s i request) s' ∧ Performed s s' i request (.ok r)
        (compacted env s.clock order (compacted env s.clock order rs ++
          [executingMarker request.signedGrant.grant.jobOrSessionId
            request.signedGrant.grant.operation s.clock]) ++
          [completedRecord request.signedGrant.grant.jobOrSessionId operation r s.clock]) := by
  obtain ⟨ledger, grants, hrep, hcleared⟩ :=
    reaches_cleared (i := i) hup hfree hrep henabled hvalid hdigest hnone
  obtain ⟨file, hmark, hfile⟩ := step_mark (s := s) (i := i)
    (c := ⟨request, s.clock, .cleared⟩) hup rfl hrep hnone order
  have hrunning := (hcleared.then hmark).then (step_run (by exact hup) rfl)
  have hran := hrunning.then (step_finish_ok (by exact hup) rfl r)
  -- the marker that was just written is what the completion finds
  have hlatest := latestRecord_append_self (compacted env s.clock order rs)
    (executingMarker request.signedGrant.grant.jobOrSessionId
      request.signedGrant.grant.operation s.clock)
  have hkept : retained s.clock (executingMarker request.signedGrant.grant.jobOrSessionId
      request.signedGrant.grant.operation s.clock) = true := by
    simp [retained, executingMarker]
  have hfound := lookupIn_of_latest hlatest hkept
  obtain ⟨file', operation, hcomplete, hfile'⟩ := step_complete
    (s := { s.noteMarker request.signedGrant.grant.jobOrSessionId s.clock with
      executions := ⟨request.signedGrant.grant.jobOrSessionId, s.clock,
        request.signedGrant.grant.expiresAt, s.clock, .running⟩ :: s.executions })
    (i := i) (c := ⟨request, s.clock, .ran r⟩) hup rfl rfl hfile hsize hfound order
  exact ⟨_, operation, hran.then hcomplete,
    { clock := rfl
      up := hup
      free := rfl
      calls := rfl
      verifier := rfl
      executions := ⟨_, rfl⟩
      firstMarker := rfl
      records := hfile' }⟩

end Performs

end Centrald.Proofs
