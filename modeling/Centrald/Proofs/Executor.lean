import Centrald.Proofs.Compaction
import Centrald.Proofs.GrantVerifier

/-!
# `Centrald.Proofs.Executor`: the steps of the executor over records

`ExecutorStep` says once what a step of `executor` can do, with the
ledger as the list of its records and without the contents of the other
files. Its cases are grouped by their effect:

* `move`: one call goes on, and nothing else changes;
* `answer`: a call returns without an execution of its own;
* `marked`, `run`, `ended`: the life of an execution;
* `halt`: the process dies, at any point of an append.

`executorStep_of_step` shows that every step is one of these, and
`ledger_invariant` turns an invariant of these steps into an invariant
of every run. `Exclusive` is the first one: the calls between the
acquisition and the release of `execution` hold it, so there is at most
one.
-/

set_option autoImplicit false

namespace Centrald.Proofs

open Durable Common Platform Client Client.Ledger

/-! ### Steps -/

/-- One call goes on. -/
inductive Move (rs : List LedgerRecord) (i : Nat) (c : Call) : BrokerLabel → Pc → Prop where
  | verified (hpc : c.pc = .entered) (hlive : c.now ≤ c.grant.expiresAt) :
      Move rs i c (.verify i) .verified
  | refusedGrant (hpc : c.pc = .entered) (e : String) : Move rs i c (.verify i) (.refused e)
  | recorded (hpc : c.pc = .verified) : Move rs i c (.record i) .recorded
  | refusedParameters (hpc : c.pc = .recorded) (e : String) :
      Move rs i c (.lookup i) (.refused e)
  | waiting (hpc : c.pc = .recorded) (hnone : lookupIn rs c.job c.now = .ok none) :
      Move rs i c (.lookup i) .waiting
  | cleared (hpc : c.pc = .locked) (hnone : lookupIn rs c.job c.now = .ok none) :
      Move rs i c (.lookupAgain i) .cleared
  | ran (hpc : c.pc = .running) (r : BrokerResponse) : Move rs i c (.finish i (.ok r)) (.ran r)

/-- A lookup found a record, and the call returns. A completed record is
replayed. -/
inductive Answer (rs : List LedgerRecord) (i : Nat) (c : Call) :
    BrokerLabel → CallResult → Prop where
  | first {result : CallResult} (hpc : c.pc = .recorded)
      (hsome : lookupIn rs c.job c.now ≠ .ok none)
      (hreplay : ∀ r, lookupIn rs c.job c.now = .ok (some (.completed r)) → result = .ok r) :
      Answer rs i c (.lookup i) result
  | second {result : CallResult} (hpc : c.pc = .locked)
      (hsome : lookupIn rs c.job c.now ≠ .ok none)
      (hreplay : ∀ r, lookupIn rs c.job c.now = .ok (some (.completed r)) → result = .ok r) :
      Answer rs i c (.lookupAgain i) result
  | unmarked (hpc : c.pc = .cleared) (hsome : lookupIn rs c.job c.now ≠ .ok none)
      (order : HashOrder) (e : String) : Answer rs i c (.mark i order) (.failed e)

section

variable (env : BrokerEnv)

/-- An execution ends: with an outcome, a result of its call, and the
records after it. -/
inductive Ended (clock : Int) (rs : List LedgerRecord) (i : Nat) (c : Call) :
    BrokerLabel → ExecutionOutcome → CallResult → List LedgerRecord → Prop where
  | failed (hpc : c.pc = .running) (e : String) :
      Ended clock rs i c (.finish i (.failed e)) .failed (.failed e) rs
  | recorded {r : BrokerResponse} (hpc : c.pc = .ran r) (order : HashOrder)
      (operation : GrantOperation) :
      Ended clock rs i c (.complete i order) (.recorded r) (.ok r)
        (compacted env clock order rs ++ [completedRecord c.job operation r c.now])
  | unrecorded {r : BrokerResponse} (hpc : c.pc = .ran r) (order : HashOrder) (e : String) :
      Ended clock rs i c (.complete i order) .failed (.failed e) rs

/-- Labels that append to the job ledger. -/
def appendsToLedger : BrokerLabel → Bool
  | .mark _ _ | .complete _ _ | .crashMark _ _ _ | .crashComplete _ _ _ => true
  | _ => false

/-- Labels of crashes. -/
def isCrash : BrokerLabel → Bool
  | .crash | .crashRecord _ _ | .crashMark _ _ _ | .crashComplete _ _ _ => true
  | _ => false

/-- The process dies: the records on disk, and the marker that has just
become durable. -/
inductive Halt (s : BrokerState env) (rs : List LedgerRecord) :
    BrokerLabel → List LedgerRecord → Option Call → Prop where
  | unchanged {l : BrokerLabel} (hl : isCrash l = true) : Halt s rs l rs none
  | compacted {l : BrokerLabel} (hl : isCrash l = true) (hl' : appendsToLedger l = true)
      (order : HashOrder) :
      Halt s rs l (Proofs.compacted env s.clock order rs) none
  | marked {i : Nat} {order : HashOrder} {written : Nat} {c : Call} (hc : s.calls i = some c)
      (hpc : c.pc = .cleared) (hnone : lookupIn rs c.job c.now = .ok none) :
      Halt s rs (.crashMark i order written)
        (Proofs.compacted env s.clock order rs ++
          [executingMarker c.job c.grant.operation c.now]) (some c)
  | completed {i : Nat} {order : HashOrder} {written : Nat} {c : Call} {r : BrokerResponse}
      (hc : s.calls i = some c) (hpc : c.pc = .ran r) (operation : GrantOperation) :
      Halt s rs (.crashComplete i order written)
        (Proofs.compacted env s.clock order rs ++
          [completedRecord c.job operation r c.now]) none

variable {env}

/-- The same executor with other files and another verifier. -/
def withFiles (s : BrokerState env) (ledger grants : Option Bytes)
    (verifier : GrantVerifier env.sigs) : BrokerState env :=
  { s with ledger, grants, verifier }

/-- The marker of a call is on disk. -/
def noteCall (s : BrokerState env) : Option Call → BrokerState env
  | none => s
  | some c => s.noteMarker c.job c.now

attribute [simp] withFiles BrokerState.setPc BrokerState.finishCall runStep BrokerState.halted
  BrokerState.setOutcome BrokerState.noteMarker
attribute [grind cases] Move Answer Ended Halt
attribute [grind =] Call.job Call.grant executingMarker completedRecord

/-- What a step does. The files and the verifier of the state after it
are left open. -/
inductive ExecutorStep (rs : List LedgerRecord) (s : BrokerState env) :
    BrokerLabel → List LedgerRecord → BrokerState env → Prop where
  | tick {clock : Int} (h : s.clock ≤ clock) :
      ExecutorStep rs s (.tick clock) rs { s with clock }
  | call {i : Nat} (request : BrokerRequest) (hfree : s.calls i = none) :
      ExecutorStep rs s (.call i request) rs
        { s with calls := Function.update s.calls i (some ⟨request, s.clock, .entered⟩) }
  | move {l : BrokerLabel} {i : Nat} {c : Call} {pc : Pc} (hc : s.calls i = some c)
      (h : Move rs i c l pc) (ledger grants : Option Bytes)
      (verifier : GrantVerifier env.sigs) :
      ExecutorStep rs s l rs (withFiles (s.setPc i c pc) ledger grants verifier)
  | acquire {i : Nat} {c : Call} (hc : s.calls i = some c) (hpc : c.pc = .waiting)
      (hfree : s.execution = none) :
      ExecutorStep rs s (.acquire i) rs ({ s with execution := some i }.setPc i c .locked)
  | answer {l : BrokerLabel} {i : Nat} {c : Call} {result : CallResult}
      (hc : s.calls i = some c) (h : Answer rs i c l result) (ledger : Option Bytes) :
      ExecutorStep rs s l rs
        (withFiles (s.finishCall i c result) ledger s.grants s.verifier)
  | marked {i : Nat} {c : Call} (hc : s.calls i = some c) (hpc : c.pc = .cleared)
      (hnone : lookupIn rs c.job c.now = .ok none) (order : HashOrder) (ledger : Option Bytes) :
      ExecutorStep rs s (.mark i order)
        (compacted env s.clock order rs ++
          [executingMarker c.job c.grant.operation c.now])
        (withFiles ((s.noteMarker c.job c.now).setPc i c .marked) ledger s.grants s.verifier)
  | run {i : Nat} {c : Call} (hc : s.calls i = some c) (hpc : c.pc = .marked) :
      ExecutorStep rs s (.run i) rs (runStep env s i c)
  | ended {l : BrokerLabel} {i : Nat} {c : Call} {outcome : ExecutionOutcome}
      {result : CallResult} {rs' : List LedgerRecord} (hc : s.calls i = some c)
      (h : Ended env s.clock rs i c l outcome result rs') (ledger : Option Bytes) :
      ExecutorStep rs s l rs'
        (withFiles ((s.setOutcome outcome).finishCall i c result) ledger s.grants s.verifier)
  | halt {l : BrokerLabel} {rs' : List LedgerRecord} {c : Option Call}
      (h : Halt env s rs l rs' c) (ledger grants : Option Bytes) :
      ExecutorStep rs s l rs' (withFiles (noteCall s c).halted ledger grants s.verifier)
  | restart (verifier : GrantVerifier env.sigs) :
      ExecutorStep rs s .restart rs { s with verifier, up := true }

end

/-! ### Every step is one of them -/

section

variable {env : BrokerEnv} {s s' : BrokerState env} {rs : List LedgerRecord} {i : Nat}

theorem atPc_eq_some {pc : Pc} {f : Call → BrokerState env} (h : s.atPc i pc f = some s') :
    ∃ c, s.calls i = some c ∧ c.pc = pc ∧ s' = f c := by
  grind [BrokerState.atPc]

theorem atRan_eq_some {f : Call → BrokerResponse → BrokerState env} (h : s.atRan i f = some s') :
    ∃ c r, s.calls i = some c ∧ c.pc = .ran r ∧ s' = f c r := by
  grind [BrokerState.atRan]

/-- A state whose ledger holds `rs'` after a step. -/
def Explained (rs : List LedgerRecord) (s : BrokerState env) (l : BrokerLabel)
    (s' : BrokerState env) : Prop :=
  ∃ rs', Represents env s'.ledger rs' ∧ ExecutorStep rs s l rs' s'

variable {c : Call}

section

variable (hrep : Represents env s.ledger rs)
include hrep

theorem verifyStep_explained (hc : s.calls i = some c) (hpc : c.pc = .entered) :
    Explained rs s (.verify i) (verifyStep env s i c) := by
  rw [verifyStep]
  split
  next => exact ⟨rs, hrep, .move hc (.refusedGrant hpc _) s.ledger s.grants s.verifier⟩
  next =>
    rcases verifyAndConsume_cases env.texts s.verifier c.request.signedGrant c.now with
      ⟨e, h⟩ | ⟨e, h⟩ | ⟨h, hverify, -⟩
    · rw [h]
      exact ⟨rs, hrep, .move hc (.refusedGrant hpc _) s.ledger s.grants _⟩
    · rw [h]
      exact ⟨rs, hrep, .move hc (.refusedGrant hpc _) s.ledger s.grants _⟩
    · rw [h]
      have hlive : c.now ≤ c.grant.expiresAt := (SignedGrant.verify_ok hverify).2
      exact ⟨rs, hrep, .move hc (.verified hpc hlive) s.ledger s.grants _⟩

theorem lookupStep_explained (hc : s.calls i = some c) (hpc : c.pc = .recorded) :
    Explained rs s (.lookup i) (lookupStep env s i c) := by
  have hclean := (clean_recoveredFile hrep).represents
  rw [lookupStep]
  split
  next => exact ⟨rs, hrep, .move hc (.refusedParameters hpc _) s.ledger s.grants s.verifier⟩
  next =>
    rw [runLedger_lookup hrep c.job c.now]
    rcases hfound : lookupIn rs c.job c.now with e | _ | b | r
    · exact ⟨rs, hclean, .answer hc (.first hpc (by simp [hfound]) (by simp [hfound])) _⟩
    · exact ⟨rs, hclean, .move hc (.waiting hpc hfound) _ s.grants s.verifier⟩
    · cases b <;>
        exact ⟨rs, hclean, .answer hc (.first hpc (by simp [hfound]) (by simp [hfound])) _⟩
    · exact ⟨rs, hclean, .answer hc (.first hpc (by simp [hfound]) (by simp [hfound])) _⟩

theorem lookupAgainStep_explained (hc : s.calls i = some c) (hpc : c.pc = .locked) :
    Explained rs s (.lookupAgain i) (lookupAgainStep env s i c) := by
  have hclean := (clean_recoveredFile hrep).represents
  rw [lookupAgainStep, runLedger_lookup hrep c.job c.now]
  rcases hfound : lookupIn rs c.job c.now with e | _ | b | r
  · exact ⟨rs, hclean, .answer hc (.second hpc (by simp [hfound]) (by simp [hfound])) _⟩
  · exact ⟨rs, hclean, .move hc (.cleared hpc hfound) _ s.grants s.verifier⟩
  · exact ⟨rs, hclean, .answer hc (.second hpc (by simp [hfound]) (by simp [hfound])) _⟩
  · exact ⟨rs, hclean, .answer hc (.second hpc (by simp [hfound]) (by simp [hfound])) _⟩

/-- The file after a marker of which `written` bytes reached it. -/
theorem markLedger_ok (hnone : lookupIn rs c.job c.now = .ok none) (order : HashOrder)
    (written : LedgerRecord → Nat) :
    ∃ file, markLedger env s c (fun r =>
        appendCut env s.clock order r (written r)) = (.ok (), file) ∧
      Represents env file (appended env s.clock order
        (executingMarker c.job c.grant.operation c.now)
        (written (executingMarker c.job c.grant.operation c.now)) rs) := by
  rw [markLedger, runLedger_markExecuting hrep hnone]
  exact runLedger_appendCut (clean_recoveredFile hrep) s.clock order _ _

theorem markStep_explained (hc : s.calls i = some c) (hpc : c.pc = .cleared) (order : HashOrder) :
    Explained rs s (.mark i order) (markStep env s i c order) := by
  rw [markStep]
  by_cases hnone : lookupIn rs c.job c.now = .ok none
  · obtain ⟨file, hrun, hfile⟩ := markLedger_ok hrep hnone order
      fun r => (recordLine env r).length
    have happend : markLedger env s c (append env s.clock order) = (.ok (), file) :=
      hrun
    rw [happend]
    rw [appended_whole] at hfile
    exact ⟨_, hfile, .marked hc hpc hnone order file⟩
  · obtain ⟨e, hrun⟩ := runLedger_markExecuting_error hrep hnone c.grant.operation
      (append env s.clock order)
    rw [markLedger, hrun]
    exact ⟨rs, (clean_recoveredFile hrep).represents, .answer hc (.unmarked hpc hnone order e) _⟩

/-- A crash inside the marker: the marker is durable when all of its line
is on disk, and else nothing is added. -/
theorem crashMarkStep_explained (hc : s.calls i = some c) (hpc : c.pc = .cleared)
    (order : HashOrder) (written : Nat) :
    Explained rs s (.crashMark i order written) (crashMarkStep env s c order written) := by
  rw [crashMarkStep]
  by_cases hnone : lookupIn rs c.job c.now = .ok none
  · obtain ⟨file, hrun, hfile⟩ := markLedger_ok hrep hnone order fun _ => written
    rw [hrun]
    by_cases hwhole : (recordLine env
        (executingMarker c.job c.grant.operation c.now)).length ≤ written
    · rw [appended, if_pos hwhole] at hfile
      simp only [if_pos hwhole]
      exact ⟨_, hfile, .halt (.marked hc hpc hnone) file s.grants⟩
    · rw [appended, if_neg hwhole, List.append_nil] at hfile
      simp only [if_neg hwhole]
      exact ⟨_, hfile, .halt (.compacted rfl rfl order) file s.grants⟩
  · obtain ⟨e, hrun⟩ := runLedger_markExecuting_error hrep hnone c.grant.operation
      fun r => appendCut env s.clock order r written
    rw [markLedger, hrun]
    exact ⟨rs, (clean_recoveredFile hrep).represents, .halt (.unchanged rfl) _ s.grants⟩

end

variable {r : BrokerResponse}

section

variable (hrep : Represents env s.ledger rs) (hc : s.calls i = some c)
  (hpc : c.pc = .ran r) (order : HashOrder)
include hrep hc hpc order

theorem completeStep_explained :
    Explained rs s (.complete i order) (completeStep env s i c r order) := by
  rw [completeStep]
  rcases runLedger_recordCompleted_cases hrep c.job r c.now s.clock order
    (fun record => (recordLine env record).length) with
    ⟨operation, file, hrun, hfile, -⟩ | ⟨e, file, hrun, hfile⟩
  · have happend : completeLedger env s c r (append env s.clock order) =
      (.ok (), file) := hrun
    rw [happend]
    rw [appended_whole] at hfile
    exact ⟨_, hfile, .ended hc (.recorded hpc order operation) file⟩
  · have happend : completeLedger env s c r (append env s.clock order) =
      (.error e, file) := hrun
    rw [happend]
    exact ⟨rs, hfile, .ended hc (.unrecorded hpc order e) file⟩

theorem crashCompleteStep_explained (written : Nat) :
    Explained rs s (.crashComplete i order written)
      (crashCompleteStep env s c r order written) := by
  rw [crashCompleteStep]
  rcases runLedger_recordCompleted_cases hrep c.job r c.now s.clock order (fun _ => written) with
    ⟨operation, file, hrun, hfile, -⟩ | ⟨e, file, hrun, hfile⟩
  · rw [completeLedger, hrun]
    by_cases hwhole : (recordLine env
        (completedRecord c.job operation r c.now)).length ≤ written
    · rw [appended, if_pos hwhole] at hfile
      exact ⟨_, hfile, .halt (.completed hc hpc operation) file s.grants⟩
    · rw [appended, if_neg hwhole, List.append_nil] at hfile
      exact ⟨_, hfile, .halt (.compacted rfl rfl order) file s.grants⟩
  · rw [completeLedger, hrun]
    exact ⟨rs, hfile, .halt (.unchanged rfl) file s.grants⟩

end

variable {l : BrokerLabel}

/-- A step from a state with the records `rs` is a step over records. -/
theorem executorStep_of_step (hrep : Represents env s.ledger rs)
    (h : (executor env).step s l = some s') : Explained rs s l s' := by
  cases l with
  | tick clock =>
    obtain ⟨hle, h⟩ := Option.ite_none_right_eq_some.1 h
    cases h
    exact ⟨rs, hrep, .tick hle⟩
  | call i request =>
    obtain ⟨hfree, h⟩ := Option.ite_none_right_eq_some.1 h
    cases h
    exact ⟨rs, hrep, .call request hfree.2⟩
  | verify i =>
    obtain ⟨c, hc, hpc, rfl⟩ := atPc_eq_some h
    exact verifyStep_explained hrep hc hpc
  | record i =>
    obtain ⟨c, hc, hpc, rfl⟩ := atPc_eq_some h
    exact ⟨rs, hrep, .move hc (.recorded hpc) s.ledger _ s.verifier⟩
  | lookup i =>
    obtain ⟨c, hc, hpc, rfl⟩ := atPc_eq_some h
    exact lookupStep_explained hrep hc hpc
  | acquire i =>
    obtain ⟨hfree, h⟩ := Option.ite_none_right_eq_some.1 h
    obtain ⟨c, hc, hpc, rfl⟩ := atPc_eq_some h
    exact ⟨rs, hrep, .acquire hc hpc hfree⟩
  | lookupAgain i =>
    obtain ⟨c, hc, hpc, rfl⟩ := atPc_eq_some h
    exact lookupAgainStep_explained hrep hc hpc
  | mark i order =>
    obtain ⟨c, hc, hpc, rfl⟩ := atPc_eq_some h
    exact markStep_explained hrep hc hpc order
  | run i =>
    obtain ⟨c, hc, hpc, rfl⟩ := atPc_eq_some h
    exact ⟨rs, hrep, .run hc hpc⟩
  | finish i outcome =>
    obtain ⟨c, hc, hpc, rfl⟩ := atPc_eq_some h
    cases outcome with
    | ok r => exact ⟨rs, hrep, .move hc (.ran hpc r) s.ledger s.grants s.verifier⟩
    | failed e => exact ⟨rs, hrep, .ended hc (.failed hpc e) s.ledger⟩
  | complete i order =>
    obtain ⟨c, r, hc, hpc, rfl⟩ := atRan_eq_some h
    exact completeStep_explained hrep hc hpc order
  | crash =>
    obtain ⟨-, h⟩ := Option.ite_none_right_eq_some.1 h
    cases h
    exact ⟨rs, hrep, .halt (.unchanged rfl) s.ledger s.grants⟩
  | crashRecord i written =>
    obtain ⟨c, hc, hpc, rfl⟩ := atPc_eq_some h
    exact ⟨rs, hrep, .halt (.unchanged rfl) s.ledger _⟩
  | crashMark i order written =>
    obtain ⟨c, hc, hpc, rfl⟩ := atPc_eq_some h
    exact crashMarkStep_explained hrep hc hpc order written
  | crashComplete i order written =>
    obtain ⟨c, r, hc, hpc, rfl⟩ := atRan_eq_some h
    exact crashCompleteStep_explained hrep hc hpc order written
  | restart =>
    obtain ⟨-, h⟩ := Option.ite_none_left_eq_some.1 h
    split at h
    next => cases h
    next verifier _ =>
      cases h
      exact ⟨rs, hrep, .restart verifier⟩

/-- An invariant of the steps over records holds in every state reached. -/
theorem ledger_invariant {G : BrokerState env → BrokerLabel → Prop} {s0 : BrokerState env}
    {rs0 : List LedgerRecord} {I : List LedgerRecord → BrokerState env → Prop}
    (h : (executor env).Reaches G s0 s) (hrep : Represents env s0.ledger rs0)
    (h0 : I rs0 s0)
    (hstep : ∀ rs s l rs' s', Represents env s.ledger rs → I rs s → G s l →
      ExecutorStep rs s l rs' s' → I rs' s') :
    ∃ rs, Represents env s.ledger rs ∧ I rs s := by
  refine h.invariant (I := fun s => ∃ rs, Represents env s.ledger rs ∧ I rs s)
    ⟨rs0, hrep, h0⟩ ?_
  rintro s l s' ⟨rs, hrep, hI⟩ hG hs
  obtain ⟨rs', hrep', hs⟩ := executorStep_of_step hrep hs
  exact ⟨rs', hrep', hstep rs s l rs' s' hrep hI hG hs⟩

/-! ### The lock -/

/-- The calls that hold `execution`. -/
def holdsLock : Pc → Bool
  | .locked | .cleared | .marked | .running | .ran _ => true
  | _ => false

/-- What holds of the calls in every run: those between the acquisition
and the release hold the lock, and none entered in the future. -/
structure CallInv (s : BrokerState env) : Prop where
  exclusive : ∀ i c, s.calls i = some c → holdsLock c.pc = true → s.execution = some i
  now_le : ∀ i c, s.calls i = some c → c.now ≤ s.clock

/-- The calls after one of them was set. -/
theorem update_eq_some {calls : Nat → Option Call} {i k : Nat} {c d : Call}
    (h : Function.update calls i (some c) k = some d) :
    (k = i ∧ d = c) ∨ (k ≠ i ∧ calls k = some d) := by
  grind

variable {rs' : List LedgerRecord}

theorem Ended.holdsLock {outcome : ExecutionOutcome} {result : CallResult}
    {clock : Int} (h : Ended env clock rs i c l outcome result rs') :
    Proofs.holdsLock c.pc = true := by
  cases h <;> simp_all [Proofs.holdsLock]

/-- A call behind the lock is the only one there. -/
theorem CallInv.eq_of_holdsLock (h : CallInv s) {k : Nat} {d : Call} (hc : s.calls i = some c)
    (hpc : Proofs.holdsLock c.pc = true) (hd : s.calls k = some d)
    (hpd : Proofs.holdsLock d.pc = true) : k = i ∧ d = c := by
  have hlock := h.exclusive i c hc hpc
  have hki : k = i := Option.some.inj ((h.exclusive k d hd hpd).symm.trans hlock)
  grind

theorem ExecutorStep.clock_le (hstep : ExecutorStep rs s l rs' s') : s.clock ≤ s'.clock := by
  cases hstep with
  | tick hle => exact hle
  | @halt l rs' c hhalt => cases c <;> exact le_rfl
  | _ => exact le_rfl

theorem CallInv.step (h : CallInv s) (hstep : ExecutorStep rs s l rs' s') : CallInv s' := by
  cases hstep <;> constructor <;>
    dsimp <;>
    grind [CallInv, Proofs.holdsLock]

end

end Centrald.Proofs
