import Centrald.Client.ResultMap
import Centrald.Proofs.ExactlyOnce

/-!
# `Centrald.Proofs.ResultMap`: recorded results are stable

`completed_results_stable` says that the ledger file stands for a map from
a job to its result. From the return of `record_completed` on, and as
long as no append looks at a clock past the retention of the record, a
lookup of the job finds exactly the recorded response, and a call of
`execute` with a new valid grant returns it and starts nothing.

The records that the newline-terminated part of the file encodes carry
the proof (`StandsFor`). A lookup cuts the torn tail, which is no record.
A compaction keeps the latest record of a job if it has not expired.
-/

set_option autoImplicit false

namespace Centrald.Proofs

open Durable Common Platform Client Client.Ledger Function

/-- The call appends nothing for the job, and no time it uses is past
`bound`. A marker for the job is allowed, for it is refused. -/
def WithinWindow (j : Nat) (bound : Int) : LedgerCall → Prop
  | .reopen | .lookup _ _ => True
  | .markExecuting job _ now clock _ _ => clock < bound ∧ (job = j → now < bound)
  | .recordCompleted job _ _ clock _ _ => clock < bound ∧ job ≠ j

instance (j : Nat) (bound : Int) : DecidablePred (WithinWindow j bound) := fun call => by
  cases call <;> unfold WithinWindow <;> infer_instance

/-- While the job has a result, the calls are within its retention. -/
def KeepsWindow (j : Nat) (s : LedgerResults) (call : LedgerCall) : Prop :=
  ∀ r t, s.results j = some (r, t) → WithinWindow j (t + recordRetention) call

/-- The result of the job is its latest record. -/
def StandsFor (env : LedgerEnv) (j : Nat) (s : LedgerResults) : Prop :=
  ∃ rs, Represents env s.file rs ∧ ∀ r t, s.results j = some (r, t) →
    ∃ operation, latestRecord rs j = some (completedRecord j operation r t)

section

variable {env : LedgerEnv} {j : Nat} {rs : List LedgerRecord} {s s' : LedgerResults}
  {call : LedgerCall}

/-- An append for another job, whole or cut, leaves a completed record
that has not expired. -/
theorem latestRecord_appended {record : LedgerRecord} {operation : GrantOperation}
    {r : BrokerResponse} {t clock : Int} {order : HashOrder} {written : Nat}
    (h : latestRecord rs j = some (completedRecord j operation r t))
    (hne : record.jobId ≠ j) (hclock : clock < t + recordRetention) :
    latestRecord (appended env clock order record written rs) j =
      some (completedRecord j operation r t) := by
  have hretained : retained clock (completedRecord j operation r t) = true := by
    simp [retained, completedRecord, hclock]
  rw [appended]
  split
  · exact latestRecord_compacted_append hne h hretained (.inl (by simp [completedRecord]))
  · rw [List.append_nil]
    exact latestRecord_compacted h hretained (.inl (by simp [completedRecord]))

theorem StandsFor.markExecuting {job : Nat} {operation : GrantOperation} {now clock : Int}
    {order : HashOrder} {cut : Option Nat} (h : StandsFor env j s)
    (hG : KeepsWindow j s (.markExecuting job operation now clock order cut)) :
    StandsFor env j { s with
      file := (runLedger (markExecutingWith env job operation now
        (appendUpTo env clock order cut)) s.file).2 } := by
  obtain ⟨rs, hrep, hresult⟩ := h
  by_cases hnone : lookupIn rs job now = .ok none
  · rw [runLedger_markExecuting hrep hnone]
    obtain ⟨file, hrun, hfile⟩ := runLedger_appendCut (clean_recoveredFile hrep) clock order
      (executingMarker job operation now) (cut.getD _)
    rw [appendUpTo, hrun]
    refine ⟨_, hfile, fun r t hr => ?_⟩
    obtain ⟨operation', hlatest⟩ := hresult r t hr
    obtain ⟨hclock, hnow⟩ := hG r t hr
    refine ⟨operation', latestRecord_appended hlatest (fun hjob => ?_) hclock⟩
    -- within the retention the lookup would have found the result
    obtain rfl : job = j := hjob
    rw [lookupIn_completed hlatest (hnow rfl)] at hnone
    cases hnone
  · obtain ⟨e, hrun⟩ := runLedger_markExecuting_error hrep hnone operation
      (appendUpTo env clock order cut)
    rw [hrun]
    exact ⟨rs, (clean_recoveredFile hrep).represents, hresult⟩

theorem StandsFor.step (h : StandsFor env j s) (hG : KeepsWindow j s call)
    (hstep : (ledgerResults env).step s call = some s') : StandsFor env j s' := by
  cases call with
  | reopen =>
    cases hstep
    exact h
  | lookup job now =>
    cases hstep
    obtain ⟨rs, hrep, hresult⟩ := h
    refine ⟨rs, ?_, hresult⟩
    rw [runLedger_lookup hrep]
    exact (clean_recoveredFile hrep).represents
  | markExecuting job operation now clock order cut =>
    cases hstep
    exact h.markExecuting hG
  | recordCompleted job response now clock order cut =>
    obtain ⟨rs, hrep, hresult⟩ := h
    rcases runLedger_recordCompleted_cases hrep job response now clock order
        fun record => cut.getD (recordLine env record).length with
      ⟨operation, file, hrun, hfile, -⟩ | ⟨e, file, hrun, hfile⟩
    · have happend : runLedger (recordCompletedWith env job response now
        (appendUpTo env clock order cut)) s.file = (.ok (), file) := hrun
      simp only [ledgerResults, happend, Option.some.injEq] at hstep
      subst hstep
      refine ⟨_, hfile, fun r t hr => ?_⟩
      dsimp only at hr
      by_cases hnew : job = j ∧ cut = none
      · -- the record that was appended last is the result
        obtain ⟨rfl, rfl⟩ := hnew
        rw [if_pos ⟨rfl, rfl⟩, update_self] at hr
        cases hr
        refine ⟨operation, ?_⟩
        rw [Option.getD_none, appended_whole]
        exact latestRecord_append_self _ _
      · have hold : s.results j = some (r, t) := by
          grind
        obtain ⟨operation', hlatest⟩ := hresult r t hold
        obtain ⟨hclock, hne⟩ := hG r t hold
        exact ⟨operation', latestRecord_appended hlatest hne hclock⟩
    · have hrefused : runLedger (recordCompletedWith env job response now
        (appendUpTo env clock order cut)) s.file = (.error e, file) := hrun
      simp only [ledgerResults, hrefused, Option.some.injEq] at hstep
      subst hstep
      exact ⟨rs, hfile, hresult⟩

end

/-! ### The broker's file -/

section Broker

variable {env : BrokerEnv} {b : BrokerState env}

/-- A call of `execute` that looks up the response `r` returns it and
starts nothing. -/
theorem execute_replays {rs : List LedgerRecord} {i : Nat} {request : BrokerRequest}
    {r : BrokerResponse} (hrep : Represents env b.ledger rs) (hup : b.up = true)
    (hfree : b.calls i = none) (hvalid : Proceeds b ⟨request, b.clock, .entered⟩)
    (hlookup : lookupIn rs request.signedGrant.grant.jobOrSessionId b.clock =
      .ok (some (.completed r))) :
    ∃ b', (executor env).run (fun _ _ => true) b
        [.call i request, .verify i, .record i, .lookup i] = some b' ∧
      b'.calls i = some ⟨request, b.clock, .returned (.ok r)⟩ ∧
      b'.executions = b.executions := by
  obtain ⟨hdigest, henabled, hverify⟩ := hvalid
  let c : Call := ⟨request, b.clock, .entered⟩
  let entered : BrokerState env := { b with calls := update b.calls i (some c) }
  let verified : BrokerState env := { entered with
    verifier := (b.verifier.verifyAndConsume env.texts request.signedGrant b.clock).1
    }.setPc i c .verified
  let recorded := recordStep env verified i { c with pc := .verified }
  have hcall : (executor env).step b (.call i request) = some entered := if_pos ⟨hup, hfree⟩
  have hverified : (executor env).step entered (.verify i) = some verified :=
    (atPc_eq (s := entered) hup (update_self ..) rfl _).trans
      (congrArg some (verifyStep_eq (s := entered) henabled hverify))
  have hrecorded : (executor env).step verified (.record i) = some recorded :=
    atPc_eq (s := verified) hup (update_self ..) rfl _
  have hanswered : (executor env).step recorded (.lookup i) =
      some ((recoverLedger recorded rs).finishCall i { c with pc := .recorded } (.ok r)) :=
    (atPc_eq (s := recorded) hup (update_self ..) rfl _).trans
      (congrArg some (lookupStep_replay (s := recorded)
        (c := { c with pc := .recorded }) hrep hdigest hlookup))
  refine ⟨(recoverLedger recorded rs).finishCall i { c with pc := .recorded } (.ok r), ?_,
    update_self .., rfl⟩
  simp only [Machine.run, if_true, hcall, hverified, hrecorded, hanswered, Option.bind_some]

end Broker

/-- In every run of calls of the ledger from a file that it has written:
while the calls stay within the retention of a job's result, a lookup of
the job finds it, and `execute` returns it and starts nothing. -/
theorem completed_results_stable {env : BrokerEnv} {rs : List LedgerRecord}
    {start s : LedgerResults} {j : Nat} {r : BrokerResponse} {t : Int}
    (hfile : Represents env start.file rs) (hnew : start.results j = none)
    (h : (ledgerResults env).Reaches (KeepsWindow j) start s)
    (hresult : s.results j = some (r, t)) :
    (∀ now, now < t + recordRetention →
      (runLedger (Ledger.lookup env j now) s.file).1 = .ok (some (.completed r))) ∧
    ∀ (b : BrokerState env) (i : Nat) (request : BrokerRequest), b.ledger = s.file →
      b.clock < t + recordRetention → b.up = true → b.calls i = none →
      request.signedGrant.grant.jobOrSessionId = j →
      Proceeds b ⟨request, b.clock, .entered⟩ →
      ∃ b', (executor env).run (fun _ _ => true) b
          [.call i request, .verify i, .record i, .lookup i] = some b' ∧
        b'.calls i = some ⟨request, b.clock, .returned (.ok r)⟩ ∧
        b'.executions = b.executions := by
  have hstart : StandsFor env j start :=
    ⟨rs, hfile, fun r t hr => by rw [hnew] at hr; cases hr⟩
  obtain ⟨rs', hrep, hlatest⟩ := h.invariant hstart fun _ _ _ hs hG hstep => hs.step hG hstep
  obtain ⟨operation, hlatest⟩ := hlatest r t hresult
  constructor
  · intro now hnow
    rw [runLedger_lookup hrep, lookupIn_completed hlatest hnow]
  · intro b i request hledger hclock hup hfree hjob hvalid
    subst hjob
    exact execute_replays (hledger ▸ hrep) hup hfree hvalid (lookupIn_completed hlatest hclock)

/-- A job is completed, other jobs are marked and completed with a torn
tail between, the broker restarts, and a new grant for the job is
answered from the ledger. -/
theorem completed_results_stable_sample :
    ∃ s, (ledgerResults decimalEnv).Reaches (KeepsWindow 9) ⟨none, fun _ => none⟩ s ∧
      s.results 9 = some (sampleResponse, 1) ∧
      (runLedger (Ledger.lookup decimalEnv 9 (100 * second)) s.file).1 =
        .ok (some (.completed sampleResponse)) ∧
      ∃ b', (executor sampleEnv).run (fun _ _ => true) (.fresh sampleEnv (100 * second) s.file)
          [.call 0 (sampleRequest 5 9 (100 * second)), .verify 0, .record 0, .lookup 0] = some b' ∧
        b'.calls 0 = some ⟨sampleRequest 5 9 (100 * second), 100 * second,
          .returned (.ok sampleResponse)⟩ ∧ b'.executions = [] := by
  have hrun : ((ledgerResults decimalEnv).run (fun s call => (s.results 9).all fun result =>
        decide (WithinWindow 9 (result.2 + recordRetention) call)) ⟨none, fun _ => none⟩
      [.markExecuting 9 .restartMachine 0 0 insertionOrder none,
        .recordCompleted 9 sampleResponse 1 1 insertionOrder none,
        .markExecuting 4 .restartMachine 2 2 insertionOrder (some 30), .reopen, .lookup 4 3,
        .markExecuting 4 .restartMachine 4 4 insertionOrder none,
        .recordCompleted 4 sampleResponse 5 5 insertionOrder none]).any
      (fun s => decide (s.results 9 = some (sampleResponse, 1))) = true := by decide +kernel
  obtain ⟨s, hs, hresult⟩ := (Option.any_eq_true _ _).1 hrun
  have hresult := of_decide_eq_true hresult
  have hreach : (ledgerResults decimalEnv).Reaches (KeepsWindow 9) ⟨none, fun _ => none⟩ s := by
    refine Machine.Reaches.refl.of_run (fun s call _ hall r t hr => ?_) hs
    grind
  have hstable := @completed_results_stable sampleEnv _ _ _ _ _ _ (represents_none.2 rfl) rfl hreach
    hresult
  refine ⟨s, hreach, hresult, hstable.1 _ (by decide), ?_⟩
  have hclock : 100 * second < 1 + recordRetention := by decide
  have haccepted : ((BrokerState.fresh sampleEnv (100 * second) none).verifier.verifyAndConsume
      sampleEnv.texts (sampleGrant 5 9 (100 * second)) (100 * second)).2 = .ok () := by
    decide +kernel
  exact hstable.2 (.fresh sampleEnv (100 * second) s.file) 0 (sampleRequest 5 9 (100 * second))
    rfl hclock rfl rfl rfl ⟨rfl, rfl, haccepted⟩

/-- A compaction is invisible: a lookup after it answers as one before it
would, as long as the latest record that the compaction kept of the job is
retained. -/
theorem lookup_after_compaction {env : LedgerEnv} {file : Option Bytes} (rs : List LedgerRecord)
    {clock now : Int} {job : Nat} (h : Clean env file rs) (hfit : MarkersFit env clock rs)
    (hle : clock ≤ now)
    (hlatest : ∀ r ∈ latestRecord (rs.filter (retained clock)) job, retained now r = true)
    (order : HashOrder) :
    (runLedger (compactIfNeeded env clock order >>= fun _ => Ledger.lookup env job now) file).1 =
      (runLedger (Ledger.lookup env job now) file).1 := by
  obtain ⟨file', hcompact, hclean⟩ := runLedger_compactIfNeeded h clock order
  rw [runLedger_bind_ok hcompact, runLedger_lookup hclean.represents, runLedger_lookup h.represents]
  show lookupIn (compacted env clock order rs) job now = lookupIn rs job now
  rw [compacted]
  split
  next => rfl
  next hlarge =>
    have hfilter : lookupIn rs job now = lookupIn (rs.filter (retained clock)) job now := by
      have hretained : ∀ r, retained now r = (retained now r && retained clock r) := by
        grind [retained]
      rw [lookupIn, lookupIn, List.filter_filter, ← funext hretained]
    rw [hfilter]
    cases hr : latestRecord (rs.filter (retained clock)) job with
    | none =>
      have hother := latestRecord_eq_none.1 hr
      rw [lookupIn_of_no_record hother, lookupIn_of_no_record]
      exact fun r hmem => hother r (mem_of_latestRecord (mem_compactRecords.1 hmem).1).1
    | some r =>
      have hkept := @latestRecord_compactRecords _ _ _ order hr (.inr (hfit.resolve_left hlarge))
      rw [lookupIn_of_latest hr (hlatest r hr), lookupIn_of_latest hkept (hlatest r hr)]

/-- Sixteen jobs with the largest recorded output, each behind its
marker, and the marker of a seventeenth. -/
def largeLedger : List LedgerRecord :=
  (List.range 16).flatMap (fun j => [executingMarker j .restartMachine 5,
    completedRecord j .restartMachine largeResponse 6]) ++ [executingMarker 16 .restartMachine 6]

theorem countP_largeLedger : largeLedger.countP hasLargeResponse = 16 := by
  simp [largeLedger, hasLargeResponse, executingMarker, completedRecord, List.range_succ]

/-- The ledger is above the bound, and a compaction drops the markers in
front of a result. The result of the job 3 and the marker of the job 16
are found as before. -/
theorem lookup_after_compaction_large :
    maxLedgerBytes < (encodeLedger decimalEnv largeLedger).length ∧
      (compacted decimalEnv 7 insertionOrder largeLedger).length < largeLedger.length ∧
      ∀ job ∈ [3, 16],
        (runLedger (compactIfNeeded decimalEnv 7 insertionOrder >>= fun _ =>
            Ledger.lookup decimalEnv job 8) (some (encodeLedger decimalEnv largeLedger))).1 =
          (runLedger (Ledger.lookup decimalEnv job 8)
            (some (encodeLedger decimalEnv largeLedger))).1 := by
  have hlarge := encodeLedger_large countP_largeLedger.ge decimalEnv
  refine ⟨hlarge, ?_, fun job hjob => ?_⟩
  · have hlatest : (latestPerJob (largeLedger.filter (retained 7))).length <
        largeLedger.length := by decide
    rw [compacted, if_neg (Nat.not_le.2 hlarge)]
    exact (List.length_filter_le ..).trans_lt hlatest
  · refine lookup_after_compaction largeLedger (by rfl) (.inr (by decide)) (by decide) ?_ _
    rcases List.mem_cons.1 hjob with rfl | hjob
    · decide
    · rw [List.mem_singleton.1 hjob]
      decide

end Centrald.Proofs
