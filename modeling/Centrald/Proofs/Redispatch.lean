import Centrald.Proofs.ExecutorRuns
import Centrald.Proofs.LiveGrant

/-!
# `Centrald.Proofs.Redispatch`: calls for a job that is already running

A second call for a job that is running is to wait for the execution and
to replay its recorded result. The first lookup of a call does not wait:
it reports the marker of the running execution as an error
(`redispatch_fails_in_flight`). A call that has passed its first lookup
before the marker, or makes it after the completion, does replay
(`redispatch_replays`).

The proof follows one job through its phases (`JobPhase`): no record
yet, in flight, recorded, or spoiled by a failure or a second execution.
The lock makes the phase of a job depend on one call at a time.
-/

set_option autoImplicit false

namespace Centrald.Proofs

open Durable Common Platform Client Client.Ledger

variable {env : BrokerEnv} {s s' : BrokerState env} {rs rs' : List LedgerRecord} {i j : Nat}
  {c : Call} {l : BrokerLabel}

/-! ### The condition -/

/-- The marker of the call is on disk, and its execution has not ended. -/
def inFlight : Pc → Bool
  | .marked | .running | .ran _ => true
  | _ => false

/-- The retention of the job's executions has not run out. -/
def WithinRetention (j : Nat) (s : BrokerState env) : Prop :=
  ∀ e ∈ s.executions, e.job = j → s.clock < e.now + recordRetention

/-- A call for `j` makes its lookups within the retention, and the first
one not while `j` is in flight. -/
def LooksUpOutside (j : Nat) (s : BrokerState env) : BrokerLabel → Prop
  | .lookup i => ∀ c, s.calls i = some c → c.job = j → WithinRetention j s ∧
      ∀ k d, s.calls k = some d → d.job = j → inFlight d.pc = false
  | .lookupAgain i => ∀ c, s.calls i = some c → c.job = j → WithinRetention j s
  | _ => True

/-! ### The execution that runs -/

/-- The operation of the call has started and is not recorded. -/
def isRunning : Pc → Bool
  | .running | .ran _ => true
  | _ => false

variable {pc : Pc}

theorem holdsLock_of_isRunning (h : isRunning pc = true) : holdsLock pc = true := by
  cases pc <;> first | rfl | cases h

/-- The latest execution is the one of this call, and it runs. -/
def HeadRuns (s : BrokerState env) (c : Call) : Prop :=
  ∃ e rest, s.executions = e :: rest ∧ e.job = c.job ∧ e.now = c.now ∧ e.outcome = .running

/-- The call whose operation runs started the latest execution. -/
def RunningInv (s : BrokerState env) : Prop :=
  ∀ i c, s.calls i = some c → isRunning c.pc = true → HeadRuns s c

theorem RunningInv.step (h : RunningInv s) (hinv : CallInv s)
    (hstep : ExecutorStep rs s l rs' s') : RunningInv s' := by
  intro k d hd hpd
  -- at the start and at the end of an execution, its call has the lock
  have honly {m : Nat} {c : Call} (hc : s.calls m = some c) (hlock : holdsLock c.pc = true)
      (hk : s.calls k = some d) : k = m :=
    (hinv.eq_of_holdsLock hc hlock hk (holdsLock_of_isRunning hpd)).1
  have hhead (hk : s.calls k = some d) : HeadRuns s d := h k d hk hpd
  cases hstep <;>
    dsimp at hd hhead ⊢ <;>
    grind [isRunning, holdsLock, Call.job, Call.grant, RunningInv, HeadRuns]

/-! ### The executions of one job -/

/-- The executions of a job, newest first. -/
def jobExecutions (s : BrokerState env) (j : Nat) : List Execution :=
  s.executions.filter fun e => e.job == j

/-- The end of an execution changes its outcome. -/
theorem jobExecutions_setOutcome_self (h : HeadRuns s c) (outcome : ExecutionOutcome) :
    ∃ e rest, jobExecutions s c.job = e :: rest ∧ e.outcome = .running ∧ e.now = c.now ∧
      jobExecutions (s.setOutcome outcome) c.job = { e with outcome } :: rest := by
  obtain ⟨e, rest, hlist, hjob, hnow, hout⟩ := h
  refine ⟨e, rest.filter fun e => e.job == c.job, ?_, hout, hnow, ?_⟩
  · simp [jobExecutions, hlist, hjob]
  · simp [jobExecutions, BrokerState.setOutcome, hlist, hjob]

/-! ### Phases of a job -/

/-- Where the calls for a job stand. -/
def CallsOn (j : Nat) (s : BrokerState env) (P : Pc → Prop) : Prop :=
  ∀ i c, s.calls i = some c → c.job = j → P c.pc

attribute [local simp] jobExecutions CallsOn HeadRuns

/-- No marker was written, and no call has returned. -/
def Unmarked : Pc → Prop
  | .marked | .running | .ran _ | .returned _ => False
  | _ => True

def Unreturned : Pc → Prop
  | .returned _ => False
  | _ => True

/-- No call is on the way to a second execution, and those that returned
replayed `r`. -/
def Replays (r : BrokerResponse) : Pc → Prop
  | .cleared | .marked | .running | .ran _ => False
  | .returned result => result = .ok r
  | _ => True

@[grind →] theorem Unmarked.unreturned (h : Unmarked pc) : Unreturned pc := by
  cases pc <;> trivial

@[grind →] theorem Replays.not_isRunning {r : BrokerResponse} (h : Replays r pc) :
    isRunning pc = false := by
  cases pc <;> first | rfl | exact h.elim

/-- A call before the lock has nothing to replay yet. -/
theorem Unreturned.replays {r : BrokerResponse} (h : Unreturned pc)
    (hfree : holdsLock pc = false) : Replays r pc := by
  cases pc <;> trivial

/-- How far a job is. -/
inductive JobPhase (j : Nat) (rs : List LedgerRecord) (s : BrokerState env) : Prop where
  | untouched (hexec : jobExecutions s j = []) (hrecords : ∀ r ∈ rs, r.jobId ≠ j)
      (hcalls : CallsOn j s Unmarked)
  | flying {i : Nat} {c : Call} (hc : s.calls i = some c) (hjob : c.job = j)
      (hpc : inFlight c.pc = true)
      (hexec : (jobExecutions s j).length = if c.pc = .marked then 0 else 1)
      (hcalls : CallsOn j s Unreturned)
  | recorded {e : Execution} {r : BrokerResponse} (hexec : jobExecutions s j = [e])
      (hout : e.outcome = .recorded r)
      (hrecord : s.clock < e.now + recordRetention →
        ∃ operation, latestRecord rs j = some (completedRecord j operation r e.now))
      (hcalls : CallsOn j s (Replays r))
  | spoiled (h : 2 ≤ (jobExecutions s j).length ∨
      ∃ e, jobExecutions s j = [e] ∧ e.outcome = .failed)

theorem Halt.isCrash {l : BrokerLabel} {c : Option Call} (h : Halt env s rs l rs' c) :
    Proofs.isCrash l = true := by
  cases h <;> first | assumption | rfl

variable {result : CallResult}

theorem Ended.isRunning {clock : Int} {outcome : ExecutionOutcome}
    (h : Ended env clock rs i c l outcome result rs') : Proofs.isRunning c.pc = true := by
  cases h <;> simp_all [Proofs.isRunning]

/-- A job without a record stays untouched, or its marker is written. -/
theorem untouched_step (hrun : RunningInv s) (hexec : jobExecutions s j = [])
    (hrecords : ∀ r ∈ rs, r.jobId ≠ j) (hcalls : CallsOn j s Unmarked)
    (hstep : ExecutorStep rs s l rs' s') (hcrash : isCrash l = false) : JobPhase j rs' s' := by
  -- there is no record that a lookup could find
  have hnone (now : Int) : lookupIn rs j now = .ok none := lookupIn_of_no_record hrecords now
  cases hstep with
  | @marked i c hc hpc hnone' order =>
    by_cases hjob : c.job = j
    · refine .flying (i := i) (Function.update_self ..) hjob rfl (congrArg _ hexec) ?_
      dsimp at *
      grind [Unreturned]
    · refine .untouched hexec ?_ ?_ <;>
        dsimp at * <;>
        grind [Call.job, executingMarker]
  | _ =>
    refine .untouched ?_ ?_ ?_ <;>
      dsimp at * <;>
      grind [Unmarked, RunningInv, HeadRuns, isRunning, isCrash, Call.job, completedRecord]

theorem holdsLock_of_inFlight (h : inFlight pc = true) : holdsLock pc = true := by
  cases pc <;> first | rfl | cases h

/-- A job in flight stays so until its response is recorded. -/
theorem flying_step (hinv : CallInv s) (hrun : RunningInv s) (hG : LooksUpOutside j s l)
    (hc : s.calls i = some c) (hjob : c.job = j) (hpc : inFlight c.pc = true)
    (hexec : (jobExecutions s j).length = if c.pc = .marked then 0 else 1)
    (hcalls : CallsOn j s Unreturned) (hstep : ExecutorStep rs s l rs' s')
    (hcrash : isCrash l = false) : JobPhase j rs' s' := by
  have hlock : holdsLock c.pc = true := holdsLock_of_inFlight hpc
  -- a call behind the lock is the one in flight
  have honly {k : Nat} {d : Call} (hd : s.calls k = some d) (hpd : holdsLock d.pc = true) :
      k = i ∧ d = c := hinv.eq_of_holdsLock hc hlock hd hpd
  have hheld := hinv.exclusive i c hc hlock
  by_cases hflying : ∃ d, s'.calls i = some d ∧ d.job = j ∧ inFlight d.pc = true ∧
      (jobExecutions s' j).length = if d.pc = .marked then 0 else 1
  · obtain ⟨d, hd, hdj, hat, hlength⟩ := hflying
    refine .flying hd hdj hat hlength ?_
    cases hstep <;>
      dsimp at * <;>
      grind [LooksUpOutside, Unreturned, inFlight, holdsLock, Call.job, isCrash]
  cases hstep with
  | @ended l k d outcome result rs' hd hended =>
    obtain ⟨rfl, rfl⟩ := honly hd hended.holdsLock
    have hrunning := hended.isRunning
    subst hjob
    obtain ⟨e, rest, hbefore, -, hnow, hafter⟩ :=
      jobExecutions_setOutcome_self (hrun k d hd hrunning) outcome
    have hrest : rest = [] := by grind [isRunning]
    subst hrest
    cases hended with
    | failed hat e => exact .spoiled (.inr ⟨_, hafter, rfl⟩)
    | unrecorded hat order e => exact .spoiled (.inr ⟨_, hafter, rfl⟩)
    | @recorded r hat order operation =>
      refine .recorded hafter rfl (fun _ => ⟨operation, ?_⟩) ?_
      · show latestRecord (_ ++ [completedRecord d.job operation r d.now]) d.job = _
        rw [hnow]
        exact latestRecord_append_self _ _
      · intro m f hf hfj
        rcases update_eq_some hf with ⟨rfl, rfl⟩ | ⟨hm, hf⟩
        · rfl
        · -- the others are not behind the lock, and have not returned
          have hf : s.calls m = some f := hf
          exact (hcalls m f hf hfj).replays (by grind)
  | _ =>
    refine absurd ?_ hflying
    dsimp at *
    grind [LooksUpOutside, inFlight, holdsLock, Call.job, isCrash]

/-- Within the retention, a lookup finds the recorded response. -/
theorem lookupIn_completed {operation : GrantOperation} {r : BrokerResponse} {n now : Int}
    (h : latestRecord rs j = some (completedRecord j operation r n))
    (hnow : now < n + recordRetention) : lookupIn rs j now = .ok (some (.completed r)) := by
  have hretained : retained now (completedRecord j operation r n) = true := by
    simp [retained, completedRecord, hnow]
  rw [lookupIn_of_latest h hretained]
  rfl

/-- A recorded response is replayed to every later call. -/
theorem recorded_step {e : Execution} {r : BrokerResponse} (hinv : CallInv s)
    (hrun : RunningInv s) (hG : LooksUpOutside j s l) (hexec : jobExecutions s j = [e])
    (hout : e.outcome = .recorded r)
    (hrecord : s.clock < e.now + recordRetention →
      ∃ operation, latestRecord rs j = some (completedRecord j operation r e.now))
    (hcalls : CallsOn j s (Replays r)) (hstep : ExecutorStep rs s l rs' s')
    (hcrash : isCrash l = false) : JobPhase j rs' s' := by
  -- within the retention every lookup of the job replays `r`
  have hlookup {k : Nat} {d : Call} (hd : s.calls k = some d) (hdj : d.job = j)
      (hwithin : WithinRetention j s) :
      lookupIn rs d.job d.now = .ok (some (.completed r)) := by
    have hmem : e ∈ jobExecutions s j := by rw [hexec]; exact List.mem_singleton_self e
    obtain ⟨hmem, hjob⟩ := List.mem_filter.1 hmem
    have hclock := hwithin e hmem (by simpa using hjob)
    have hnow := hinv.now_le k d hd
    obtain ⟨operation, hlatest⟩ := hrecord hclock
    rw [hdj]
    exact lookupIn_completed hlatest (by omega)
  have hclock := hstep.clock_le
  refine .recorded (e := e) ?_ hout (fun hwithin => ?_) ?_
  case refine_2 =>
    obtain ⟨operation, hlatest⟩ := hrecord (by omega)
    -- an append for another job leaves the record
    have hkept {r' : LedgerRecord} (hne : r'.jobId ≠ j) (order : HashOrder) :
        latestRecord (compacted env s.clock order rs ++ [r']) j =
          some (completedRecord j operation r e.now) :=
      latestRecord_compacted_append hne hlatest
        (by simp [retained, completedRecord]; omega) (.inl nofun)
    refine ⟨operation, ?_⟩
    cases hstep <;>
      dsimp at * <;>
      grind [Replays, isCrash]
  all_goals
    cases hstep <;>
      dsimp at * <;>
      grind [Replays, RunningInv, HeadRuns, isRunning, isCrash, LooksUpOutside]

theorem spoiled_step (hrun : RunningInv s)
    (h : 2 ≤ (jobExecutions s j).length ∨ ∃ e, jobExecutions s j = [e] ∧ e.outcome = .failed)
    (hstep : ExecutorStep rs s l rs' s') (hcrash : isCrash l = false) : JobPhase j rs' s' := by
  refine .spoiled ?_
  cases hstep <;>
    dsimp at * <;>
    grind [RunningInv, HeadRuns, isRunning, isCrash]

/-! ### Runs -/

/-- One process, whose calls for `j` look it up outside its flight. -/
def Redispatched (j : Nat) (s : BrokerState env) (l : BrokerLabel) : Prop :=
  isCrash l = false ∧ LooksUpOutside j s l

/-- The broker runs, and the job `j` is in one of its phases. -/
structure RedispatchInv (j : Nat) (rs : List LedgerRecord) (s : BrokerState env) : Prop where
  up : s.up = true
  calls : CallInv s
  running : RunningInv s
  phase : JobPhase j rs s

theorem ExecutorStep.up (hstep : ExecutorStep rs s l rs' s') (hcrash : isCrash l = false)
    (hup : s.up = true) : s'.up = true := by
  cases hstep with
  | halt hhalt =>
    rw [hhalt.isCrash] at hcrash
    cases hcrash
  | restart => rfl
  | _ => exact hup

theorem RedispatchInv.step (h : RedispatchInv j rs s) (hG : Redispatched j s l)
    (hstep : ExecutorStep rs s l rs' s') : RedispatchInv j rs' s' where
  up := hstep.up hG.1 h.up
  calls := h.calls.step hstep
  running := h.running.step h.calls hstep
  phase := by
    cases h.phase with
    | untouched hexec hrecords hcalls =>
      exact untouched_step h.running hexec hrecords hcalls hstep hG.1
    | flying hc hjob hpc hexec hcalls =>
      exact flying_step h.calls h.running hG.2 hc hjob hpc hexec hcalls hstep hG.1
    | recorded hexec hout hrecord hcalls =>
      exact recorded_step h.calls h.running hG.2 hexec hout hrecord hcalls hstep hG.1
    | spoiled hspoiled => exact spoiled_step h.running hspoiled hstep hG.1

theorem redispatchInv_of_reaches {clock : Int} {ledger : Option Bytes}
    (hledger : Represents env ledger rs) (hj : ∀ r ∈ rs, r.jobId ≠ j)
    (h : (executor env).Reaches (Redispatched j) (.fresh env clock ledger) s) :
    ∃ rs, Represents env s.ledger rs ∧ RedispatchInv j rs s := by
  have hfresh : RedispatchInv j rs (.fresh env clock ledger) :=
    { up := rfl
      calls := ⟨fun _ _ hc => (nomatch hc), fun _ _ hc => (nomatch hc)⟩
      running := fun _ _ hc => (nomatch hc)
      phase := .untouched rfl hj fun _ _ hc => (nomatch hc) }
  exact ledger_invariant h hledger hfresh fun _ _ _ _ _ _ hinv hG hstep => hinv.step hG hstep

/-- When the one execution of a job is recorded, the job is in the phase
that says so. -/
theorem RedispatchInv.recorded (h : RedispatchInv j rs s) {e : Execution} {r : BrokerResponse}
    (hexec : jobExecutions s j = [e]) (hout : e.outcome = .recorded r) :
    (s.clock < e.now + recordRetention →
      ∃ operation, latestRecord rs j = some (completedRecord j operation r e.now)) ∧
    CallsOn j s (Replays r) := by
  cases h.phase with
  | @flying i c hc hjob hpc hlength hcalls =>
    have hhead := h.running i c hc
    cases hat : c.pc <;> grind [isRunning, inFlight, HeadRuns, jobExecutions]
  | _ => grind

/-! ### A call can return -/

/-- The call `i` can go on to return `result`. -/
def CanReturn (j : Nat) (s : BrokerState env) (i : Nat) (result : CallResult) : Prop :=
  ∃ s', (executor env).Reaches (Redispatched j) s s' ∧
    ∃ c, s'.calls i = some c ∧ c.pc = .returned result

theorem CanReturn.of_step (hG : Redispatched j s l)
    (hstep : (executor env).step s l = some s') (h : CanReturn j s' i result) :
    CanReturn j s i result := by
  obtain ⟨t, hreach, hcall⟩ := h
  exact ⟨t, .head hG hstep hreach, hcall⟩

theorem canReturn_of_finishCall {t : BrokerState env}
    (hG : Redispatched j s l) (hstep : (executor env).step s l = some (t.finishCall i c result)) :
    CanReturn j s i result :=
  ⟨_, .tail .refl hG hstep, _, Function.update_self .., rfl⟩

section Progress

variable {clock : Int} {ledger : Option Bytes} {e : Execution} {r : BrokerResponse}
  (hledger : Represents env ledger rs) (hj : ∀ r ∈ rs, r.jobId ≠ j)
  (h : (executor env).Reaches (Redispatched j) (.fresh env clock ledger) s)
  (hexec : jobExecutions s j = [e]) (hout : e.outcome = .recorded r)
  (hclock : s.clock < e.now + recordRetention)
  (hc : s.calls i = some c) (hjob : c.job = j)

include hledger hj h hexec hout hclock hc hjob

/-- What a lookup of a call for the job finds. -/
theorem lookup_recorded : ∃ rs, Represents env s.ledger rs ∧ s.up = true ∧
    lookupIn rs c.job c.now = .ok (some (.completed r)) ∧ CallsOn j s (Replays r) := by
  obtain ⟨rs, hrep, hinv⟩ := redispatchInv_of_reaches hledger hj h
  obtain ⟨hrecord, hcalls⟩ := hinv.recorded hexec hout
  obtain ⟨operation, hlatest⟩ := hrecord hclock
  have hnow := hinv.calls.now_le i c hc
  refine ⟨rs, hrep, hinv.up, ?_, hcalls⟩
  rw [hjob]
  exact lookupIn_completed hlatest (by omega)

omit hledger hj h hout hc hjob in
theorem withinRetention_of_execution : WithinRetention j s := by
  intro e' he' hjob'
  have hmem : e' ∈ jobExecutions s j := List.mem_filter.2 ⟨he', by simpa using hjob'⟩
  grind

theorem canReturn_of_recorded (hpc : c.pc = .recorded)
    (hdigest : env.sha256Hex c.request.parametersJson = c.grant.parametersSha256) :
    CanReturn j s i (.ok r) := by
  obtain ⟨rs, hrep, hup, hlookup, hcalls⟩ :=
    lookup_recorded hledger hj h hexec hout hclock hc hjob
  have hG : Redispatched j s (.lookup i) := by
    refine ⟨rfl, fun _ _ _ => ⟨withinRetention_of_execution hexec hclock, fun k d hd hdj => ?_⟩⟩
    have hreplays := hcalls k d hd hdj
    cases hat : d.pc <;> rw [hat] at hreplays <;> trivial
  have hstep : (executor env).step s (.lookup i) =
      some ((recoverLedger s rs).finishCall i c (.ok r)) := by
    rw [← lookupStep_replay hrep hdigest hlookup]
    exact atPc_eq hup hc hpc _
  exact canReturn_of_finishCall hG hstep

theorem canReturn_of_locked (hpc : c.pc = .locked) : CanReturn j s i (.ok r) := by
  obtain ⟨rs, hrep, hup, hlookup, -⟩ := lookup_recorded hledger hj h hexec hout hclock hc hjob
  have hG : Redispatched j s (.lookupAgain i) :=
    ⟨rfl, fun _ _ _ => withinRetention_of_execution hexec hclock⟩
  have hstep : (executor env).step s (.lookupAgain i) =
      some ((recoverLedger s rs).finishCall i c (.ok r)) := by
    rw [← lookupAgainStep_replay hrep hlookup]
    exact atPc_eq hup hc hpc _
  exact canReturn_of_finishCall hG hstep

theorem canReturn_of_waiting (hpc : c.pc = .waiting) (hfree : s.execution = none) :
    CanReturn j s i (.ok r) := by
  obtain ⟨-, -, hup, -⟩ := lookup_recorded hledger hj h hexec hout hclock hc hjob
  have hstep : (executor env).step s (.acquire i) =
      some ({ s with execution := some i }.setPc i c .locked) :=
    (if_pos hfree).trans (atPc_eq hup hc hpc _)
  have hG : Redispatched j s (.acquire i) := ⟨rfl, trivial⟩
  refine .of_step hG hstep ?_
  exact canReturn_of_locked hledger hj (h.tail hG hstep) hexec hout hclock
    (Function.update_self ..) hjob rfl

theorem canReturn_of_verified (hpc : c.pc = .verified)
    (hdigest : env.sha256Hex c.request.parametersJson = c.grant.parametersSha256) :
    CanReturn j s i (.ok r) := by
  obtain ⟨-, -, hup, -⟩ := lookup_recorded hledger hj h hexec hout hclock hc hjob
  have hstep : (executor env).step s (.record i) = some (recordStep env s i c) :=
    atPc_eq hup hc hpc _
  have hG : Redispatched j s (.record i) := ⟨rfl, trivial⟩
  refine .of_step hG hstep ?_
  exact canReturn_of_recorded hledger hj (h.tail hG hstep) hexec hout hclock
    (Function.update_self ..) hjob rfl hdigest

theorem canReturn_of_entered (hpc : c.pc = .entered) (henabled : env.enabled = true)
    (hvalid : (s.verifier.verifyAndConsume env.texts c.request.signedGrant c.now).2 = .ok ())
    (hdigest : env.sha256Hex c.request.parametersJson = c.grant.parametersSha256) :
    CanReturn j s i (.ok r) := by
  obtain ⟨-, -, hup, -⟩ := lookup_recorded hledger hj h hexec hout hclock hc hjob
  have hstep : (executor env).step s (.verify i) = some (verifyStep env s i c) :=
    atPc_eq hup hc hpc _
  rw [verifyStep_eq henabled hvalid] at hstep
  have hG : Redispatched j s (.verify i) := ⟨rfl, trivial⟩
  refine .of_step hG hstep ?_
  exact canReturn_of_verified hledger hj (h.tail hG hstep) hexec hout hclock
    (Function.update_self ..) hjob rfl hdigest

end Progress

/-- The call is not refused, and nothing but its own steps is missing
for its return: its grant is accepted, its parameters match, and the lock
is free when it waits for it. -/
def Proceeds (s : BrokerState env) (c : Call) : Prop :=
  env.sha256Hex c.request.parametersJson = c.grant.parametersSha256 ∧
  match c.pc with
  | .entered => env.enabled = true ∧
      (s.verifier.verifyAndConsume env.texts c.request.signedGrant c.now).2 = .ok ()
  | .waiting => s.execution = none
  | .refused _ => False
  | _ => True

/-- In every run of one process whose calls for a job look it up outside
its flight and within the retention: once the one execution of the job
is recorded, every call for the job that has returned returned the
recorded response, and every other one that proceeds can return it. -/
theorem redispatch_replays {clock : Int} {ledger : Option Bytes}
    (hledger : Represents env ledger rs) (hj : ∀ r ∈ rs, r.jobId ≠ j)
    (h : (executor env).Reaches (Redispatched j) (.fresh env clock ledger) s)
    {e : Execution} {r : BrokerResponse} (hexec : jobExecutions s j = [e])
    (hout : e.outcome = .recorded r) :
    (∀ i c result, s.calls i = some c → c.job = j → c.pc = .returned result → result = .ok r) ∧
    ∀ i c, s.calls i = some c → c.job = j → Proceeds s c →
      s.clock < e.now + recordRetention → CanReturn j s i (.ok r) := by
  obtain ⟨rs', hrep, hinv⟩ := redispatchInv_of_reaches hledger hj h
  have hcalls := (hinv.recorded hexec hout).2
  constructor
  · intro i c result hc hjob hpc
    have hreplays := hcalls i c hc hjob
    rw [hpc] at hreplays
    exact hreplays
  · rintro i c hc hjob ⟨hdigest, hproceeds⟩ hclock
    have hreplays := hcalls i c hc hjob
    -- each place before the lock goes on to the next one; behind it the record is found
    cases hpc : c.pc with
    | entered =>
      rw [hpc] at hproceeds
      exact canReturn_of_entered hledger hj h hexec hout hclock hc hjob hpc hproceeds.1
        hproceeds.2 hdigest
    | verified => exact canReturn_of_verified hledger hj h hexec hout hclock hc hjob hpc hdigest
    | recorded => exact canReturn_of_recorded hledger hj h hexec hout hclock hc hjob hpc hdigest
    | waiting =>
      rw [hpc] at hproceeds
      exact canReturn_of_waiting hledger hj h hexec hout hclock hc hjob hpc hproceeds
    | locked => exact canReturn_of_locked hledger hj h hexec hout hclock hc hjob hpc
    | returned result =>
      rw [hpc] at hreplays
      exact ⟨s, .refl, c, hc, by rw [hpc, show result = .ok r from hreplays]⟩
    | refused error =>
      grind
    | cleared | marked | running | ran response =>
      rw [hpc] at hreplays
      exact hreplays.elim

/-- A check that is enough for the condition: lookups are made within the
retention of every execution, first ones while the lock is free. -/
def looksUpUnlocked (s : BrokerState env) (l : BrokerLabel) : Bool :=
  !isCrash l && match l with
  | .lookup _ => s.execution.isNone && s.executions.all fun e => s.clock < e.now + recordRetention
  | .lookupAgain _ => s.executions.all fun e => s.clock < e.now + recordRetention
  | _ => true

theorem redispatched_of_check {clock : Int} {ledger : Option Bytes}
    (hledger : Represents env ledger rs) (hj : ∀ r ∈ rs, r.jobId ≠ j)
    (h : (executor env).Reaches (Redispatched j) (.fresh env clock ledger) s)
    (hcheck : looksUpUnlocked s l = true) : Redispatched j s l := by
  obtain ⟨rs', -, hinv⟩ := redispatchInv_of_reaches hledger hj h
  obtain ⟨hcrash, hl⟩ := Bool.and_eq_true_iff.1 hcheck
  refine ⟨by simpa using hcrash, ?_⟩
  have hwithin (hall : s.executions.all (fun e => s.clock < e.now + recordRetention) = true) :
      WithinRetention j s := fun e he _ => by simpa using List.all_eq_true.1 hall e he
  cases l with
  | lookup i =>
    obtain ⟨hfree, hall⟩ := Bool.and_eq_true_iff.1 hl
    refine fun _ _ _ => ⟨hwithin hall, fun k d hd _ => ?_⟩
    by_contra hflight
    have hheld := hinv.calls.exclusive k d hd (holdsLock_of_inFlight (by simpa using hflight))
    rw [hheld] at hfree
    cases hfree
  | lookupAgain i => exact fun _ _ _ => hwithin hl
  | _ => trivial

def sampleResponse : BrokerResponse := ⟨true, [7], 0⟩

/-- Where two calls for one job stand, and the executions of the job. -/
def redispatchView (s : BrokerState sampleEnv) : List Execution × Option Pc × Option Pc :=
  (jobExecutions s 9, (s.calls 0).map Call.pc, (s.calls 1).map Call.pc)

/-- Both calls pass the first lookup, and the second waits and replays. -/
theorem redispatch_replays_waiting :
    ∃ s, (executor sampleEnv).Reaches (Redispatched 9) (.fresh sampleEnv 0 none) s ∧
      redispatchView s = ([⟨9, 0, 60 * second, 0, .recorded sampleResponse⟩],
        some (.returned (.ok sampleResponse)), some (.returned (.ok sampleResponse))) ∧
      ∀ i c result, s.calls i = some c → c.job = 9 → c.pc = .returned result →
        result = .ok sampleResponse := by
  have hrun : ((executor sampleEnv).run looksUpUnlocked (.fresh sampleEnv 0 none)
      ([.call 0 (sampleRequest 5 9 0), .call 1 (sampleRequest 6 9 0), .verify 1, .record 1,
        .lookup 1] ++ startLabels 0 ++ [.finish 0 (.ok sampleResponse),
        .complete 0 insertionOrder, .acquire 1, .lookupAgain 1])).map redispatchView =
      some ([⟨9, 0, 60 * second, 0, .recorded sampleResponse⟩],
        some (.returned (.ok sampleResponse)), some (.returned (.ok sampleResponse))) := by
    decide +kernel
  have hledger : Represents sampleEnv none [] := represents_none.2 rfl
  obtain ⟨s, hreach, hview⟩ :=
    Machine.reached_of_view (fun _ _ h => redispatched_of_check hledger nofun h) hrun
  have hexec : jobExecutions s 9 = [⟨9, 0, 60 * second, 0, .recorded sampleResponse⟩] :=
    (Prod.mk.inj hview).1
  exact ⟨s, hreach, hview, (redispatch_replays hledger nofun hreach hexec rfl).1⟩

/-- The second call makes its first lookup while the first one runs, and
fails, although the first one is recorded. -/
theorem redispatch_fails_in_flight :
    ∃ s, (executor sampleEnv).Reaches (fun _ l => isCrash l = false) (.fresh sampleEnv 0 none) s ∧
      redispatchView s = ([⟨9, 0, 60 * second, 0, .recorded sampleResponse⟩],
        some (.returned (.ok sampleResponse)), some (.returned (.failed inProgressText))) := by
  exact Machine.reached_of_view (g := fun _ l => !isCrash l)
    (L := [.call 0 (sampleRequest 5 9 0)] ++ startLabels 0 ++ [.call 1 (sampleRequest 6 9 0),
      .verify 1, .record 1, .lookup 1, .finish 0 (.ok sampleResponse),
      .complete 0 insertionOrder]) (fun _ _ _ h => by simpa using h) (by decide +kernel)

end Centrald.Proofs
