import Centrald.Proofs.Executor

/-!
# `Centrald.Proofs.RecordedOutcome`: the one response that is recorded for a job

If no job is started twice, then the completed records of a job all carry
one response, and it is the response that the calls for the job return
(`OutcomeInv`).

Two facts about a job stay true from the moment they hold. `Settled`: the
job was started, none of its calls is executing, and its completed records
carry the response `r`. `Unanswered`: no call for it is under way and it
has no completed record; this one ends with the next call for the job.
-/

set_option autoImplicit false

namespace Centrald.Proofs

open Durable Common Platform Client Client.Ledger

variable {env : BrokerEnv} {s s' : BrokerState env} {rs rs' : List LedgerRecord}
  {l : BrokerLabel} {j : Nat}

/-- The call is over. -/
def isFinished : Pc → Bool
  | .returned _ | .refused _ => true
  | _ => false

/-- The operation runs, or its response is not on disk yet. -/
def isExecuting : Pc → Bool
  | .running | .ran _ => true
  | _ => false

/-- The operation of the job was started at some time. -/
def Started (s : BrokerState env) (j : Nat) : Prop :=
  ∃ e ∈ s.executions, e.job = j

/-- The record is a completed one of the job. -/
structure IsCompleted (j : Nat) (q : LedgerRecord) : Prop where
  jobId : q.jobId = j
  state : q.state = .completed

/-- The job has its response: nothing can be recorded for it any more. -/
structure Settled (rs : List LedgerRecord) (s : BrokerState env) (j : Nat) (r : BrokerResponse) :
    Prop where
  started : Started s j
  idle : ∀ i c, s.calls i = some c → c.job = j → isExecuting c.pc = false
  records : ∀ q ∈ rs, IsCompleted j q → q.response = some r

/-- Nothing is recorded for the job, and no call for it is under way. -/
structure Unanswered (rs : List LedgerRecord) (s : BrokerState env) (j : Nat) : Prop where
  calls : ∀ i c, s.calls i = some c → c.job = j → isFinished c.pc = true
  records : ∀ q ∈ rs, ¬IsCompleted j q

/-- No operation is started for a job that was started before. -/
def StartsOnce (s : BrokerState env) : BrokerLabel → Prop
  | .run i => ∀ c, s.calls i = some c → ¬Started s c.job
  | _ => True

/-! ### What a step does to the outcome of a job -/

attribute [local grind =] isFinished isExecuting

/-- The response that a lookup replays is recorded. -/
theorem completed_of_lookupIn {now : Int} {r : BrokerResponse}
    (h : lookupIn rs j now = .ok (some (.completed r))) :
    ∃ q ∈ rs, IsCompleted j q ∧ q.response = some r := by
  unfold lookupIn at h
  cases hlatest : latestRecord (rs.filter (retained now)) j with
  | none =>
    rw [hlatest] at h
    cases h
  | some q =>
    obtain ⟨hmem, hjob⟩ := mem_of_latestRecord hlatest
    simp only [hlatest, lookupRecord] at h
    refine ⟨q, List.mem_of_mem_filter hmem, ?_⟩
    cases hstate : q.state with
    | executing =>
      rw [hstate] at h
      cases h
    | completed =>
      cases hresponse : q.response with
      | none =>
        rw [hstate, hresponse] at h
        cases h
      | some response =>
        rw [hstate, hresponse] at h
        cases h
        exact ⟨⟨hjob, hstate⟩, rfl⟩

section Replay

variable {i : Nat} {c d : Call} {r : BrokerResponse}

theorem pc_of_update {calls : Nat → Option Call} {pc : Pc}
    (hd : Function.update calls i (some { c with pc }) i = some d) : pc = d.pc := by
  grind

theorem lookupIn_of_lookupStep (hrep : Represents env s.ledger rs)
    (hd : (lookupStep env s i c).calls i = some d) (hpc : d.pc = .returned (.ok r)) :
    lookupIn rs c.job c.now = .ok (some (.completed r)) := by
  unfold lookupStep at hd
  split at hd
  next => cases (pc_of_update hd).trans hpc
  next =>
    rw [runLedger_lookup hrep] at hd
    split at hd
    next => cases (pc_of_update hd).trans hpc
    next => cases (pc_of_update hd).trans hpc
    next r' ledger hfound =>
      cases (pc_of_update hd).trans hpc
      exact congrArg Prod.fst hfound
    next => cases (pc_of_update hd).trans hpc
    next => cases (pc_of_update hd).trans hpc

theorem lookupIn_of_lookupAgainStep (hrep : Represents env s.ledger rs)
    (hd : (lookupAgainStep env s i c).calls i = some d) (hpc : d.pc = .returned (.ok r)) :
    lookupIn rs c.job c.now = .ok (some (.completed r)) := by
  unfold lookupAgainStep at hd
  rw [runLedger_lookup hrep] at hd
  split at hd
  next => cases (pc_of_update hd).trans hpc
  next => cases (pc_of_update hd).trans hpc
  next r' ledger hfound =>
    cases (pc_of_update hd).trans hpc
    exact congrArg Prod.fst hfound
  next => cases (pc_of_update hd).trans hpc

end Replay

/-- Where a call after a step comes from. -/
inductive CallFrom (rs : List LedgerRecord) (s : BrokerState env) (l : BrokerLabel) (k : Nat)
    (d : Call) : Prop where
  | same (h : s.calls k = some d)
  | entered (request : BrokerRequest) (hl : l = .call k request)
      (hd : d = ⟨request, s.clock, .entered⟩)
  | moved {c : Call} (hc : s.calls k = some c) (hjob : c.job = d.job)
      (hopen : isFinished c.pc = false)
      (hexec : isExecuting d.pc = true → isExecuting c.pc = true ∨ l = .run k)
      (hok : ∀ r, d.pc = .returned (.ok r) →
        c.pc = .ran r ∨ lookupIn rs c.job c.now = .ok (some (.completed r)))

/-- Where a call stood before the step that it has taken. -/
theorem callFrom_of_step (hrep : Represents env s.ledger rs)
    (h : (executor env).step s l = some s') {k : Nat} {d : Call} (hd : s'.calls k = some d) :
    CallFrom rs s l k d := by
  obtain ⟨rs', -, hstep⟩ := executorStep_of_step hrep h
  by_cases hsame : s.calls k = some d
  · exact .same hsame
  -- a response that a call returns now was looked up or has just been recorded
  have hlooked : ∀ i c r, l = .lookup i ∨ l = .lookupAgain i → s.calls i = some c →
      s'.calls i = some d → d.pc = .returned (.ok r) →
      lookupIn rs c.job c.now = .ok (some (.completed r)) := by
    rintro i c r (rfl | rfl) hc hd hpc <;> obtain ⟨c', hc', -, rfl⟩ := atPc_eq_some h <;>
      obtain rfl : c = c' := Option.some.inj (hc.symm.trans hc')
    · exact lookupIn_of_lookupStep hrep hd hpc
    · exact lookupIn_of_lookupAgainStep hrep hd hpc
  cases hc : s.calls k with
  | none =>
    have hentered : ∃ request, l = .call k request ∧ d = ⟨request, s.clock, .entered⟩ := by
      cases hstep <;> dsimp at * <;> grind
    obtain ⟨request, hl, hd⟩ := hentered
    exact .entered request hl hd
  | some c =>
    refine .moved hc ?_ ?_ ?_ ?_ <;> cases hstep <;>
      dsimp at * <;> grind

/-- The record carries the response of a call that was executing and is
not any more. -/
structure RecordsCall (s s' : BrokerState env) (i : Nat) (c : Call) (q : LedgerRecord) : Prop where
  call : s.calls i = some c
  ran : ∃ r, c.pc = .ran r ∧ q.response = some r
  jobId : q.jobId = c.job
  ended : ∀ d, s'.calls i = some d → isExecuting d.pc = false

variable {q : LedgerRecord}

theorem RecordsCall.executing {i : Nat} {c : Call}
    (h : RecordsCall s s' i c q) : isExecuting c.pc = true := by
  obtain ⟨r, hpc, -⟩ := h.ran
  rw [hpc]
  rfl

/-- A new completed record is the one of a call that was executing. -/
theorem completed_of_step (hstep : ExecutorStep rs s l rs' s') (hq : q ∈ rs')
    (hstate : q.state = .completed) : q ∈ rs ∨ ∃ i c, RecordsCall s s' i c q := by
  by_cases hold : q ∈ rs
  · exact .inl hold
  cases hstep with
  | @ended l i c outcome result rs' hc hended ledger =>
    obtain ⟨r, hpc, hjob, hresponse⟩ :
        ∃ r, c.pc = .ran r ∧ q.jobId = c.job ∧ q.response = some r := by grind
    refine .inr ⟨i, c, hc, ⟨r, hpc, hresponse⟩, hjob, fun d hd => ?_⟩
    rcases update_eq_some hd with ⟨-, rfl⟩ | ⟨hne, -⟩
    · rfl
    · exact absurd rfl hne
  | halt hhalt ledger grants =>
    obtain ⟨i, c, r, hc, hpc, hjob, hresponse⟩ : ∃ i c r, s.calls i = some c ∧ c.pc = .ran r ∧
        q.jobId = c.job ∧ q.response = some r := by grind
    exact .inr ⟨i, c, hc, ⟨r, hpc, hresponse⟩, hjob, nofun⟩
  | _ => grind

theorem started_setOutcome (outcome : ExecutionOutcome) (h : Started s j) :
    Started (s.setOutcome outcome) j := by
  obtain ⟨e, he, hjob⟩ := h
  cases hexec : s.executions with
  | nil =>
    rw [hexec] at he
    cases he
  | cons first rest =>
    have hset : (s.setOutcome outcome).executions = { first with outcome } :: rest := by
      simp only [BrokerState.setOutcome, hexec]
    rw [hexec] at he
    rcases List.mem_cons.1 he with rfl | he
    · exact ⟨{ e with outcome }, hset ▸ List.mem_cons_self, hjob⟩
    · exact ⟨e, hset ▸ List.mem_cons_of_mem _ he, hjob⟩

/-- Starts are not taken back. -/
theorem Started.step (h : Started s j) (hstep : ExecutorStep rs s l rs' s') : Started s' j := by
  cases hstep with
  | run hc hpc =>
    obtain ⟨e, he, hjob⟩ := h
    exact ⟨e, List.mem_cons_of_mem _ he, hjob⟩
  | ended hc hended ledger => exact started_setOutcome _ h
  | @halt l rs' c hhalt ledger grants => cases c <;> exact h
  | _ => exact h

theorem started_of_run {k : Nat} {c : Call} (hstep : ExecutorStep rs s (.run k) rs' s')
    (hc : s.calls k = some c) : Started s' c.job := by
  cases hstep with
  | @run i c' hc' hpc =>
    obtain rfl : c = c' := Option.some.inj (hc.symm.trans hc')
    exact ⟨_, List.mem_cons_self, rfl⟩
  | _ => grind [isCrash]

/-! ### The two facts stay true -/

/-- What is settled stays settled: no later record of the job says
anything else. -/
theorem Settled.step {r : BrokerResponse} (h : Settled rs s j r)
    (hrep : Represents env s.ledger rs) (hG : StartsOnce s l)
    (hstep : (executor env).step s l = some s') (hexec : ExecutorStep rs s l rs' s') :
    Settled rs' s' j r where
  started := h.started.step hexec
  idle k d hd hjob := by
    cases callFrom_of_step hrep hstep hd with
    | same hd => exact h.idle k d hd hjob
    | entered request hl hd =>
      rw [hd]
      rfl
    | @moved c hc hsame hopen hexecuting hok =>
      rw [← Bool.not_eq_true]
      intro hpc
      rcases hexecuting hpc with hbefore | rfl
      · rw [h.idle k c hc (hsame.trans hjob)] at hbefore
        cases hbefore
      · exact hG c hc (hsame.trans hjob ▸ h.started)
  records q hq hcompleted := by
    rcases completed_of_step hexec hq hcompleted.state with hq | ⟨i, c, hnew⟩
    · exact h.records q hq hcompleted
    · have hidle := h.idle i c hnew.call (hnew.jobId.symm.trans hcompleted.jobId)
      rw [hnew.executing] at hidle
      cases hidle

/-- A job with no record and no call gets none without a new call. -/
theorem Unanswered.step (h : Unanswered rs s j) (hrep : Represents env s.ledger rs)
    (hcall : ∀ i request, l = .call i request → request.signedGrant.grant.jobOrSessionId ≠ j)
    (hstep : (executor env).step s l = some s') (hexec : ExecutorStep rs s l rs' s') :
    Unanswered rs' s' j where
  calls k d hd hjob := by
    cases callFrom_of_step hrep hstep hd with
    | same hd => exact h.calls k d hd hjob
    | entered request hl hd =>
      grind
    | moved hc hsame hopen hexecuting hok =>
      rw [h.calls k _ hc (hsame.trans hjob)] at hopen
      cases hopen
  records q hq hcompleted := by
    rcases completed_of_step hexec hq hcompleted.state with hq | ⟨i, c, hnew⟩
    · exact h.records q hq hcompleted
    · have hfinished := h.calls i c hnew.call (hnew.jobId.symm.trans hcompleted.jobId)
      obtain ⟨r, hpc, -⟩ := hnew.ran
      grind

/-! ### The response of a job -/

/-- The completed records of a job agree, are only there after it was
started and not while it executes, and a call that has returned has
returned what they say. -/
structure OutcomeInv (rs : List LedgerRecord) (s : BrokerState env) : Prop where
  calls : CallInv s
  started : ∀ q ∈ rs, q.state = .completed → Started s q.jobId
  executing : ∀ i c, s.calls i = some c → isExecuting c.pc = true →
    Started s c.job ∧ ∀ q ∈ rs, ¬IsCompleted c.job q
  unique : ∀ j, ∀ q ∈ rs, ∀ q' ∈ rs, IsCompleted j q → IsCompleted j q' →
    q.response = q'.response
  returned : ∀ i c r, s.calls i = some c → c.pc = .returned (.ok r) → Settled rs s c.job r

theorem holdsLock_of_isExecuting {pc : Pc} (h : isExecuting pc = true) : holdsLock pc = true := by
  cases pc with
  | running | ran => rfl
  | _ => cases h

/-- A response that was recorded settles its job. -/
theorem OutcomeInv.settled (h : OutcomeInv rs s) (hq : q ∈ rs)
    (hcompleted : IsCompleted j q) {r : BrokerResponse} (hr : q.response = some r) :
    Settled rs s j r where
  started := hcompleted.jobId ▸ h.started q hq hcompleted.state
  idle i c hc hjob := by
    rw [← Bool.not_eq_true]
    intro hpc
    exact (h.executing i c hc hpc).2 q hq (hjob ▸ hcompleted)
  records q' hq' hcompleted' := (h.unique j q' hq' q hq hcompleted' hcompleted).trans hr

/-- While a call holds the lock, no other call is executing after a step. -/
theorem CallInv.eq_of_executing (h : CallInv s) (hrep : Represents env s.ledger rs)
    (hstep : (executor env).step s l = some s') {i k : Nat} {c d : Call}
    (hc : s.calls k = some c) (hlock : holdsLock c.pc = true) (hd : s'.calls i = some d)
    (hpc : isExecuting d.pc = true) : i = k := by
  cases callFrom_of_step hrep hstep hd with
  | same hd => exact (h.eq_of_holdsLock hc hlock hd (holdsLock_of_isExecuting hpc)).1
  | entered request hl hd =>
    subst hd
    cases hpc
  | moved hc' hsame hopen hexecuting hok =>
    rcases hexecuting hpc with hbefore | rfl
    · exact (h.eq_of_holdsLock hc hlock hc' (holdsLock_of_isExecuting hbefore)).1
    · obtain ⟨c'', hc'', hmarked, -⟩ := atPc_eq_some hstep
      exact (h.eq_of_holdsLock hc hlock hc'' (by rw [hmarked]; rfl)).1

/-- A completed record of a job with an executing call is a new one. -/
theorem OutcomeInv.recordsCall (h : OutcomeInv rs s) (hexec : ExecutorStep rs s l rs' s')
    {i : Nat} {c : Call} (hc : s.calls i = some c) (hpc : isExecuting c.pc = true) (hq : q ∈ rs')
      (hcompleted : IsCompleted c.job q) :
    RecordsCall s s' i c q := by
  rcases completed_of_step hexec hq hcompleted.state with hq | ⟨i', c', hnew⟩
  · exact ((h.executing i c hc hpc).2 q hq hcompleted).elim
  · obtain ⟨rfl, rfl⟩ := h.calls.eq_of_holdsLock hc (holdsLock_of_isExecuting hpc) hnew.call
      (holdsLock_of_isExecuting hnew.executing)
    exact hnew

/-- The call that records its response settles its job. -/
theorem OutcomeInv.settled_of_ran (h : OutcomeInv rs s)
    (hrep : Represents env s.ledger rs) (hstep : (executor env).step s l = some s')
    (hexec : ExecutorStep rs s l rs' s') {k : Nat} {c d : Call} {r : BrokerResponse}
    (hc : s.calls k = some c) (hpc : c.pc = .ran r) (hd : s'.calls k = some d)
    (hover : isExecuting d.pc = false) : Settled rs' s' c.job r := by
  have hrunning : isExecuting c.pc = true := by
    rw [hpc]
    rfl
  constructor
  · exact (h.executing k c hc hrunning).1.step hexec
  · intro i e he hjob
    rw [← Bool.not_eq_true]
    intro hpe
    obtain rfl := h.calls.eq_of_executing hrep hstep hc (holdsLock_of_isExecuting hrunning) he hpe
    grind
  · intro q hq hcompleted
    obtain ⟨r', hpc', hresponse⟩ := (h.recordsCall hexec hc hrunning hq hcompleted).ran
    grind

/-- A step keeps the invariant. Only the call that holds the lock records.
-/
theorem OutcomeInv.step (h : OutcomeInv rs s) (hrep : Represents env s.ledger rs)
    (hG : StartsOnce s l) (hstep : (executor env).step s l = some s')
    (hexec : ExecutorStep rs s l rs' s') : OutcomeInv rs' s' where
  calls := h.calls.step hexec
  started q hq hstate := by
    rcases completed_of_step hexec hq hstate with hq | ⟨i, c, hnew⟩
    · exact (h.started q hq hstate).step hexec
    · rw [hnew.jobId]
      exact (h.executing i c hnew.call hnew.executing).1.step hexec
  executing k d hd hpc := by
    have hgoes : ∀ c, s.calls k = some c → c.job = d.job → isExecuting c.pc = true →
        Started s' d.job ∧ ∀ q ∈ rs', ¬IsCompleted d.job q := by
      intro c hc hsame hbefore
      rw [← hsame]
      refine ⟨(h.executing k c hc hbefore).1.step hexec, fun q hq hcompleted => ?_⟩
      have hended := (h.recordsCall hexec hc hbefore hq hcompleted).ended d hd
      rw [hpc] at hended
      cases hended
    cases callFrom_of_step hrep hstep hd with
    | same hd => exact hgoes d hd rfl hpc
    | entered request hl hd =>
      subst hd
      cases hpc
    | @moved c hc hsame hopen hexecuting hok =>
      rcases hexecuting hpc with hbefore | rfl
      · exact hgoes c hc hsame hbefore
      · -- the job is started for the first time, so nothing is recorded for it
        obtain ⟨c', hc', hmarked, -⟩ := atPc_eq_some hstep
        obtain rfl : c = c' := Option.some.inj (hc.symm.trans hc')
        rw [← hsame]
        refine ⟨started_of_run hexec hc, fun q hq hcompleted => ?_⟩
        rcases completed_of_step hexec hq hcompleted.state with hq | ⟨i, e, hnew⟩
        · exact hG c hc (hcompleted.jobId ▸ h.started q hq hcompleted.state)
        · have hsecond := (h.calls.eq_of_holdsLock hc (by rw [hmarked]; rfl) hnew.call
            (holdsLock_of_isExecuting hnew.executing)).2
          have hrunning := hnew.executing
          rw [hsecond, hmarked] at hrunning
          cases hrunning
  unique j q hq q' hq' hcompleted hcompleted' := by
    rcases completed_of_step hexec hq hcompleted.state with hold | ⟨i, c, hnew⟩
    · rcases completed_of_step hexec hq' hcompleted'.state with hold' | ⟨i, c, hnew⟩
      · exact h.unique j q hold q' hold' hcompleted hcompleted'
      · obtain rfl := hnew.jobId.symm.trans hcompleted'.jobId
        exact ((h.executing i c hnew.call hnew.executing).2 q hold hcompleted).elim
    · obtain rfl := hnew.jobId.symm.trans hcompleted.jobId
      obtain ⟨r, hpc, hresponse⟩ := hnew.ran
      obtain ⟨r', hpc', hresponse'⟩ :=
        (h.recordsCall hexec hnew.call hnew.executing hq' hcompleted').ran
      grind
  returned k d r hd hpc := by
    cases callFrom_of_step hrep hstep hd with
    | same hd => exact (h.returned k d r hd hpc).step hrep hG hstep hexec
    | entered request hl hd =>
      subst hd
      cases hpc
    | @moved c hc hsame hopen hexecuting hok =>
      rw [← hsame]
      rcases hok r hpc with hran | hreplayed
      · exact h.settled_of_ran hrep hstep hexec hc hran hd (by rw [hpc]; rfl)
      · obtain ⟨q, hq, hcompleted, hresponse⟩ := completed_of_lookupIn hreplayed
        exact (h.settled hq hcompleted hresponse).step hrep hG hstep hexec

theorem outcomeInv_fresh (clock : Int) : OutcomeInv [] (.fresh env clock none) where
  calls := ⟨fun _ _ hc => (by cases hc), fun _ _ hc => (by cases hc)⟩
  started q hq := by cases hq
  executing i c hc := by cases hc
  unique j q hq := by cases hq
  returned i c r hc := by cases hc

end Centrald.Proofs
