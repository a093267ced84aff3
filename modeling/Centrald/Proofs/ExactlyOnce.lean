import Centrald.Proofs.Redispatch

/-!
# `Centrald.Proofs.ExactlyOnce`: one execution per job

The marker of a job is durable before its operation starts. While the
marker, or the completed record that follows it, is the latest record of
the job, every lookup finds it, and the job is not started again. The
completed record is dropped seven days after the entry of its call; the
marker is dropped by a compaction that finds more than 32 jobs with a
marker as their latest record.

So within seven days of the time that the first marker of a job carries,
the job is started at most once, in every run in which no compaction
drops a marker (`started_at_most_once`): a crash may come at any point
between and within the appends, and calls interleave in any way. With
33 jobs that failed, a job can be started twice (`dropped_marker_reruns`).
-/

set_option autoImplicit false

namespace Centrald.Proofs

open Durable Common Platform Client Client.Ledger

variable {env : BrokerEnv} {s s' : BrokerState env} {rs rs' : List LedgerRecord} {i j : Nat}
  {c : Call} {l : BrokerLabel} {n : Int}

/-! ### The condition -/

/-- A compaction of the ledger now would keep all markers. -/
def compactionFits (s : BrokerState env) : Bool :=
  decide ((committedPart (s.ledger.getD [])).length ≤ maxLedgerBytes) ||
    match (runLedger (readCommitted env s.clock) s.ledger).1 with
    | .ok records => decide (openMarkers records ≤ maxRetainedInterruptedMarkers)
    | .error _ => false

/-- No append drops a marker. -/
def KeepsMarkers (s : BrokerState env) (l : BrokerLabel) : Prop :=
  appendsToLedger l = true → compactionFits s = true

theorem markersFit_of_compactionFits (hrep : Represents env s.ledger rs)
    (h : compactionFits s = true) : MarkersFit env s.clock rs := by
  rcases Bool.or_eq_true_iff.1 h with hsmall | hfew
  · rw [hrep] at hsmall
    exact .inl (of_decide_eq_true hsmall)
  · cases hfile : s.ledger with
    | none =>
      rw [hfile] at hrep
      rw [represents_none.1 hrep]
      exact .inl (Nat.zero_le _)
    | some raw =>
      rw [hfile] at hrep hfew
      rw [runLedger_readCommitted hrep] at hfew
      exact .inr (of_decide_eq_true hfew)

/-! ### What is kept of a job -/

/-- A record that every reader before `n` and the retention retains. -/
def Lasts (n : Int) (r : LedgerRecord) : Prop :=
  r.state = .executing ∨ n + recordRetention ≤ r.expiresAt

variable {r : LedgerRecord}

theorem Lasts.retained (h : Lasts n r) {now : Int}
    (hnow : now < n + recordRetention) : Ledger.retained now r = true := by
  rcases h with h | h
  · simp [Ledger.retained, h]
  · have hlater : now < r.expiresAt := Int.lt_of_lt_of_le hnow h
    simp [Ledger.retained, hlater]

theorem lookupIn_ne_none (h : latestRecord rs j = some r) (hlasts : Lasts n r)
    {now : Int} (hnow : now < n + recordRetention) : lookupIn rs j now ≠ .ok none := by
  rw [lookupIn_of_latest h (hlasts.retained hnow)]
  cases lookupRecord now r <;> nofun

/-- The executions of a job within the retention of `n`. -/
def startsWithin (s : BrokerState env) (j : Nat) (n : Int) : List Execution :=
  (jobExecutions s j).filter fun e => e.startedAt < n + recordRetention

attribute [local simp] noteCall startsWithin jobExecutions CallsOn

/-- How a job stands to its first marker: it has none, the retention of
the marker has not run out, or it has. -/
inductive MarkerPhase (j : Nat) (rs : List LedgerRecord) (s : BrokerState env) : Prop where
  | unmarked (hfirst : s.firstMarker j = none) (hexec : jobExecutions s j = [])
      (hcalls : CallsOn j s fun pc => inFlight pc = false)
  | live {n : Int} (hfirst : s.firstMarker j = some n) (hclock : s.clock < n + recordRetention)
      (hrecord : ∃ r, latestRecord rs j = some r ∧ Lasts n r)
      (hcalls : ∀ i c, s.calls i = some c → c.job = j → inFlight c.pc = true →
        c.now = n ∧ (c.pc = .marked → startsWithin s j n = []))
      (honce : (startsWithin s j n).length ≤ 1)
  | past {n : Int} (hfirst : s.firstMarker j = some n) (hclock : n + recordRetention ≤ s.clock)
      (honce : (startsWithin s j n).length ≤ 1)

theorem firstMarker_noteMarker_of_ne (hne : c.job ≠ j) :
    (s.noteMarker c.job c.now).firstMarker j = s.firstMarker j := by
  simp only [BrokerState.noteMarker]
  grind

theorem firstMarker_noteMarker_of_some {job : Nat} {now : Int} (h : s.firstMarker j = some n) :
    (s.noteMarker job now).firstMarker j = some n := by
  simp only [BrokerState.noteMarker]
  grind

theorem firstMarker_noteMarker_self (h : s.firstMarker c.job = none) :
    (s.noteMarker c.job c.now).firstMarker c.job = some c.now := by
  simp only [BrokerState.noteMarker]
  grind

/-! ### One step -/

/-- The first marker of a job is on disk. -/
theorem MarkerPhase.of_marked (hfirst : s.firstMarker j = some n) (hexec : jobExecutions s j = [])
    (hrecord : ∃ r, latestRecord rs j = some r ∧ Lasts n r)
    (hcalls : ∀ i c, s.calls i = some c → c.job = j → inFlight c.pc = true → c.now = n) :
    MarkerPhase j rs s := by
  have hstarts : startsWithin s j n = [] := by rw [startsWithin, hexec]; rfl
  have honce : (startsWithin s j n).length ≤ 1 := by rw [hstarts]; exact Nat.zero_le _
  by_cases hclock : s.clock < n + recordRetention
  · exact .live hfirst hclock hrecord
      (fun i c hc hjob hpc => ⟨hcalls i c hc hjob hpc, fun _ => hstarts⟩) honce
  · exact .past hfirst (by omega) honce

/-- The record that makes a job marked. -/
theorem latestRecord_marker (rs : List LedgerRecord) (c : Call) :
    ∃ r, latestRecord (rs ++ [executingMarker c.job c.grant.operation c.now]) c.job = some r ∧
      Lasts c.now r :=
  ⟨_, latestRecord_append_self _ _, .inl rfl⟩

/-- A job without a marker stays so, or its first marker is written now.
-/
theorem unmarked_step (hrun : RunningInv s) (hfirst : s.firstMarker j = none)
    (hexec : jobExecutions s j = []) (hcalls : CallsOn j s fun pc => inFlight pc = false)
    (hstep : ExecutorStep rs s l rs' s') : MarkerPhase j rs' s' := by
  by_cases hmarked : s'.firstMarker j = none
  · refine .unmarked hmarked ?_ ?_ <;> cases hstep with
    | @halt l rs' d hhalt =>
      cases d <;>
        dsimp at * <;>
        grind
    | _ =>
      dsimp at *
      grind [RunningInv, HeadRuns, isRunning, inFlight]
  · -- the step has written the marker
    cases hstep with
    | @halt l rs' d hhalt =>
      cases hhalt with
      | @marked i order written c hc hpc hnone =>
        obtain rfl : c.job = j := by_contra fun hne => hmarked
          ((firstMarker_noteMarker_of_ne hne).trans hfirst)
        exact .of_marked (firstMarker_noteMarker_self hfirst) hexec (latestRecord_marker _ c)
          fun _ _ hd => by cases hd
      | _ => exact absurd hfirst hmarked
    | @marked i c hc hpc hnone order =>
      obtain rfl : c.job = j := by_contra fun hne => hmarked
        ((firstMarker_noteMarker_of_ne hne).trans hfirst)
      refine .of_marked (firstMarker_noteMarker_self hfirst) hexec (latestRecord_marker _ c) ?_
      dsimp at *
      grind
    | _ => exact absurd hfirst hmarked

theorem past_step (hrun : RunningInv s) (hfirst : s.firstMarker j = some n)
    (hclock : n + recordRetention ≤ s.clock) (honce : (startsWithin s j n).length ≤ 1)
    (hstep : ExecutorStep rs s l rs' s') : MarkerPhase j rs' s' := by
  have hlater := hstep.clock_le
  refine .past (n := n) ?_ (by omega) ?_ <;> cases hstep with
  | @halt l rs' d hhalt =>
    cases d <;>
      dsimp at * <;>
      grind
  | _ =>
    dsimp at *
    grind [RunningInv, HeadRuns, isRunning]

/-- While the first marker of a job is retained the ledger holds it back
from a second start. -/
theorem live_step (hinv : CallInv s) (hrun : RunningInv s)
    (hfit : appendsToLedger l = true → MarkersFit env s.clock rs)
    (hfirst : s.firstMarker j = some n) (hclock : s.clock < n + recordRetention)
    (hrecord : ∃ r, latestRecord rs j = some r ∧ Lasts n r)
    (hcalls : ∀ i c, s.calls i = some c → c.job = j → inFlight c.pc = true →
      c.now = n ∧ (c.pc = .marked → startsWithin s j n = []))
    (honce : (startsWithin s j n).length ≤ 1) (hstep : ExecutorStep rs s l rs' s') :
    MarkerPhase j rs' s' := by
  obtain ⟨r, hlatest, hlasts⟩ := hrecord
  -- every lookup of the job finds its record
  have hfound {k : Nat} {d : Call} (hd : s.calls k = some d) (hdj : d.job = j) :
      lookupIn rs d.job d.now ≠ .ok none := by
    have hnow := hinv.now_le k d hd
    rw [hdj]
    exact lookupIn_ne_none hlatest hlasts (by omega)
  -- which stays, whatever is appended for other jobs
  have hkept {r' : LedgerRecord} (happends : appendsToLedger l = true) (order : HashOrder)
      (hne : r'.jobId ≠ j) :
      latestRecord (compacted env s.clock order rs ++ [r']) j = some r :=
    latestRecord_compacted_append hne hlatest (hlasts.retained hclock) (.inr (hfit happends))
  have hcompacted (happends : appendsToLedger l = true) (order : HashOrder) :
      latestRecord (compacted env s.clock order rs) j = some r :=
    latestRecord_compacted hlatest (hlasts.retained hclock) (.inr (hfit happends))
  -- and is followed by the completed record of the call that wrote the marker
  have hown (rs : List LedgerRecord) (r' : LedgerRecord) (hr' : r'.jobId = j) :
      latestRecord (rs ++ [r']) j = some r' := by
    rw [← hr']
    exact latestRecord_append_self _ _
  have honly := @CallInv.eq_of_holdsLock env s
  have hlock {pc : Pc} (hpc : inFlight pc = true) := holdsLock_of_inFlight hpc
  have hrecord : ∃ r, latestRecord rs' j = some r ∧ Lasts n r := by
    cases hstep <;>
      dsimp at * <;>
      grind [Lasts, appendsToLedger, inFlight]
  have honce' : (startsWithin s' j n).length ≤ 1 := by
    cases hstep with
    | @halt l rs' d hhalt => cases d <;> exact honce
    | _ =>
      dsimp at *
      grind [RunningInv, HeadRuns, isRunning, inFlight]
  have hfirst' : s'.firstMarker j = some n := by
    cases hstep with
    | @halt l rs' d hhalt =>
      cases d with
      | none => exact hfirst
      | some d => exact firstMarker_noteMarker_of_some hfirst
    | marked => exact firstMarker_noteMarker_of_some hfirst
    | _ => exact hfirst
  by_cases hlater : s'.clock < n + recordRetention
  · refine .live hfirst' hlater hrecord ?_ honce'
    cases hstep <;>
      dsimp at * <;>
      grind [inFlight, holdsLock]
  · exact .past hfirst' (Int.not_lt.1 hlater) honce'

/-! ### Runs -/

/-- The invariant behind one execution while the first marker of a job is
retained: every job is in a phase. -/
structure OnceInv (rs : List LedgerRecord) (s : BrokerState env) : Prop where
  calls : CallInv s
  running : RunningInv s
  phase : ∀ j, MarkerPhase j rs s

theorem OnceInv.step (h : OnceInv rs s) (hrep : Represents env s.ledger rs)
    (hG : KeepsMarkers s l) (hstep : ExecutorStep rs s l rs' s') : OnceInv rs' s' where
  calls := h.calls.step hstep
  running := h.running.step h.calls hstep
  phase j := by
    cases h.phase j with
    | unmarked hfirst hexec hcalls => exact unmarked_step h.running hfirst hexec hcalls hstep
    | live hfirst hclock hrecord hcalls honce =>
      exact live_step h.calls h.running
        (fun happends => markersFit_of_compactionFits hrep (hG happends))
        hfirst hclock hrecord hcalls honce hstep
    | past hfirst hclock honce => exact past_step h.running hfirst hclock honce hstep

/-- In every run in which no append drops a marker, an operation that was
never marked has not started, and one that was started at most once
within the retention of its first marker. -/
theorem started_at_most_once {clock : Int} {ledger : Option Bytes}
    (hledger : Represents env ledger rs)
    (h : (executor env).Reaches KeepsMarkers (.fresh env clock ledger) s) (j : Nat) :
    (s.firstMarker j = none → jobExecutions s j = []) ∧
    ∀ n, s.firstMarker j = some n → (startsWithin s j n).length ≤ 1 := by
  have hfresh : OnceInv rs (.fresh env clock ledger) :=
    { calls := ⟨fun _ _ hc => (nomatch hc), fun _ _ hc => (nomatch hc)⟩
      running := fun _ _ hc => (nomatch hc)
      phase := fun _ => .unmarked rfl rfl fun _ _ hc => (nomatch hc) }
  obtain ⟨rs', -, hinv⟩ := ledger_invariant h hledger hfresh
    fun _ _ _ _ _ hrep hinv hG hstep => hinv.step hrep hG hstep
  cases hinv.phase j <;> grind

/-- A job is marked, the broker dies and starts again, and the job is
refused from then on. -/
theorem started_at_most_once_crash :
    ∃ s, (executor sampleEnv).Reaches KeepsMarkers (.fresh sampleEnv 0 none) s ∧
      s.firstMarker 9 = some 0 ∧
      (s.calls 1).map Call.pc = some (.returned (.failed inProgressText)) ∧
      (startsWithin s 9 0).length ≤ 1 := by
  have hrun : ((executor sampleEnv).run (fun s l => !appendsToLedger l || compactionFits s)
      (.fresh sampleEnv 0 none) ([.call 0 (sampleRequest 5 9 0)] ++ startLabels 0 ++
        [.crash, .restart, .call 1 (sampleRequest 6 9 0), .verify 1, .record 1, .lookup 1])).map
      (fun s => (s.firstMarker 9, (s.calls 1).map Call.pc)) =
      some (some 0, some (.returned (.failed inProgressText))) := by decide +kernel
  obtain ⟨s, hs, hview⟩ := Option.map_eq_some_iff.1 hrun
  obtain ⟨hfirst, hcall⟩ := Prod.mk.inj hview
  have hreach : (executor sampleEnv).Reaches KeepsMarkers (.fresh sampleEnv 0 none) s := by
    refine Machine.Reaches.refl.of_run (fun s l _ hguard happends => ?_) hs
    simpa [happends] using hguard
  exact ⟨s, hreach, hfirst, hcall,
    (started_at_most_once (represents_none.2 rfl) hreach 9).2 0 hfirst⟩

/-! ### A marker that is dropped

Sixteen jobs complete with a large output, so that every further append
compacts the ledger. Of the next 33 jobs, whose operations fail, the
append of one more marker drops one, and this job starts again. -/

/-- The largest output that is recorded, in the longest bytes. -/
def largeResponse : BrokerResponse := ⟨true, List.replicate maxRecordedOutputBytes 255, 0⟩

/-- A printed array of `k` times the byte 255. -/
theorem length_print_output (k : Nat) :
    4 * k + 1 ≤ (Json.print (.arr ((List.replicate k (255 : UInt8)).map fun b =>
      .num b.toNat))).length := by
  have hnum : (Json.print (.num (255 : UInt8).toNat)).length = 3 := by decide
  have hmore (k : Nat) : (printMoreItems ((List.replicate k (255 : UInt8)).map fun b =>
      .num b.toNat)).length = 4 * k + 1 := by
    induction k with
    | zero => rfl
    | succ k ih =>
      rw [List.replicate_succ, List.map_cons, printMoreItems, List.length_cons,
        List.length_append, ih, hnum]
      omega
  cases k with
  | zero => decide
  | succ k =>
    rw [List.replicate_succ, List.map_cons, Json.print, List.length_cons, List.length_append,
      hmore, hnum]
    omega

theorem length_output_le_recordLine {env : LedgerEnv}
    {response : BrokerResponse} (h : r.response = some response) :
    (Json.print (.arr (response.output.map fun b => .num b.toNat))).length ≤
      (recordLine env r).length := by
  simp only [recordLine, envelopeToJson, recordToJson, responseToJson, h, Json.print,
    printMoreFields, List.length_append, List.length_cons]
  omega

theorem length_recordLine_large {env : LedgerEnv} (h : r.response = some largeResponse) :
    4 * maxRecordedOutputBytes + 1 ≤ (recordLine env r).length := by
  have hline : _ ≤ (recordLine env r).length := length_output_le_recordLine h
  have houtput : largeResponse.output = List.replicate maxRecordedOutputBytes 255 := rfl
  rw [houtput] at hline
  exact (length_print_output maxRecordedOutputBytes).trans hline

theorem length_encodeLedger_ge {env : LedgerEnv} {p : LedgerRecord → Bool} {k : Nat}
    (hp : ∀ r, p r = true → k ≤ (recordLine env r).length) (rs : List LedgerRecord) :
    rs.countP p * k ≤ (encodeLedger env rs).length := by
  induction rs with
  | nil => simp
  | cons r rest ih =>
    rw [encodeLedger, List.flatMap_cons, List.length_append, List.countP_cons, Nat.add_mul]
    by_cases hr : p r = true
    · have hline := hp r hr
      rw [if_pos hr, Nat.one_mul]
      exact (Nat.add_comm _ _).le.trans (Nat.add_le_add hline ih)
    · rw [if_neg hr, Nat.zero_mul]
      exact ih.trans (Nat.le_add_left ..)

def hasLargeResponse (r : LedgerRecord) : Bool := decide (r.response = some largeResponse)

/-- Sixteen of the largest outputs are above the bound of the ledger. -/
theorem encodeLedger_large (h : 16 ≤ rs.countP hasLargeResponse) (env : LedgerEnv) :
    maxLedgerBytes < (encodeLedger env rs).length := by
  have hbytes : rs.countP hasLargeResponse * (4 * maxRecordedOutputBytes + 1) ≤
      (encodeLedger env rs).length :=
    length_encodeLedger_ge (fun r hr => length_recordLine_large (of_decide_eq_true hr)) rs
  have hmul := Nat.mul_le_mul_right (4 * maxRecordedOutputBytes + 1) h
  have hmax : maxLedgerBytes < 16 * (4 * maxRecordedOutputBytes + 1) := by decide
  omega

/-- The records after `k` jobs, when those below `m` have a record. -/
structure Filled (k m : Nat) (rs : List LedgerRecord) : Prop where
  jobs : ∀ r ∈ rs, r.jobId < m
  outputs : ∀ j < k, j < 16 → ∃ operation,
    latestRecord rs j = some (completedRecord j operation largeResponse 0)
  markers : ∀ r ∈ rs, 16 ≤ r.jobId → r.state = .executing

theorem Filled.large {k m : Nat} (h : Filled k m rs) (hk : 16 ≤ k) (env : LedgerEnv) :
    maxLedgerBytes < (encodeLedger env rs).length := by
  have hsubset : List.range 16 ⊆ (rs.filter hasLargeResponse).map LedgerRecord.jobId := by
    intro j hj
    have hj := List.mem_range.1 hj
    obtain ⟨operation, hlatest⟩ := h.outputs j (by omega) hj
    refine List.mem_map.2 ⟨_, List.mem_filter.2 ⟨(mem_of_latestRecord hlatest).1, ?_⟩, rfl⟩
    exact decide_eq_true rfl
  have hcount := (List.subperm_of_subset List.nodup_range hsubset).length_le
  rw [List.length_range, List.length_map, ← List.countP_eq_length_filter] at hcount
  exact encodeLedger_large hcount env

/-- The append of a record for the job `k`. -/
theorem Filled.append {k m : Nat} (h : Filled k m rs) (hm : m ≤ k + 1) (env : LedgerEnv)
    (order : HashOrder) (r : LedgerRecord) (hjob : r.jobId = k)
    (hstate : 16 ≤ k → r.state = .executing) :
    Filled k (k + 1) (compacted env 0 order rs ++ [r]) where
  jobs r' hr' := by
    rcases List.mem_append.1 hr' with hr' | hr'
    · have := h.jobs r' (mem_of_mem_compacted hr')
      omega
    · grind
  outputs j hj hsmall := by
    obtain ⟨operation, hlatest⟩ := h.outputs j hj hsmall
    refine ⟨operation, latestRecord_compacted_append (by omega) hlatest ?_ (.inl nofun)⟩
    rfl
  markers r' hr' hlarge := by
    rcases List.mem_append.1 hr' with hr' | hr'
    · exact h.markers r' (mem_of_mem_compacted hr') hlarge
    · grind

/-- The verifier after `k` calls, one for each of the first `k` jobs. -/
def verifierAfter : Nat → GrantVerifier sampleEnv.sigs
  | 0 => .new sampleEnv.deviceId sampleEnv.signingKey
  | k + 1 => ((verifierAfter k).verifyAndConsume sampleEnv.texts (sampleGrant k k 0) 0).1

theorem verifierAfter_room : ∀ k ≤ 50, (verifierAfter k).deviceId = 1 ∧
    k ∉ (verifierAfter k).consumed ∧ (verifierAfter k).order.len < maxReplayEntries := by
  decide +kernel

/-- A broker with nothing in flight after those calls, all at time 0. -/
structure Idle (k : Nat) (s : BrokerState sampleEnv) : Prop where
  clock : s.clock = 0
  up : s.up = true
  free : s.execution = none
  calls : ∀ i, k ≤ i → s.calls i = none
  verifier : s.verifier = verifierAfter k
  unmarked : ∀ j, k ≤ j → s.firstMarker j = none
  started : ∀ j < k, s.firstMarker j = some 0 ∧ ∃ e ∈ s.executions, e.job = j ∧ e.startedAt = 0

section Calls

variable {k : Nat} {s s' : BrokerState sampleEnv}

section

variable (h : Idle k s)
include h

theorem Idle.next {result : CallResult}
    (hperformed : Performed s s' k (sampleRequest k k 0) result rs) : Idle (k + 1) s' where
  clock := hperformed.clock.trans h.clock
  up := hperformed.up
  free := hperformed.free
  calls i hi := by
    rw [hperformed.calls, Function.update_of_ne (by omega)]
    exact h.calls i (by omega)
  verifier := by
    rw [hperformed.verifier, h.verifier, h.clock]
    rfl
  unmarked j hj := by
    rw [hperformed.firstMarker]
    have hne : (⟨sampleRequest k k 0, s.clock, .entered⟩ : Call).job ≠ j := by
      show k ≠ j
      omega
    exact (firstMarker_noteMarker_of_ne hne).trans (h.unmarked j (by omega))
  started j hj := by
    obtain ⟨outcome, hexec⟩ := hperformed.executions
    rw [hperformed.firstMarker, hexec]
    rcases Nat.lt_succ_iff_lt_or_eq.1 hj with hj | rfl
    · obtain ⟨hfirst, e, he, hstart⟩ := h.started j hj
      exact ⟨firstMarker_noteMarker_of_some hfirst, e, List.mem_cons_of_mem _ he, hstart⟩
    · have hfirst : (s.noteMarker j s.clock).firstMarker j = some s.clock :=
        firstMarker_noteMarker_self (c := ⟨sampleRequest j j 0, s.clock, .entered⟩)
          (h.unmarked j (Nat.le_refl j))
      rw [h.clock] at hfirst
      refine ⟨?_, _, List.mem_cons_self, rfl, h.clock⟩
      rw [h.clock]
      exact hfirst

theorem Idle.accepts (hk : k ≤ 50) (j : Nat) :
    (s.verifier.verifyAndConsume sampleEnv.texts (sampleRequest k j 0).signedGrant s.clock).2 =
      .ok () := by
  obtain ⟨hdevice, hid, hroom⟩ := verifierAfter_room k hk
  have hverify : (sampleGrant k j 0).verify sampleEnv.texts sampleEnv.sigs
      (verifierAfter k).signingKey (verifierAfter k).deviceId 0 = .ok () := by
    rw [hdevice]
    rfl
  rw [h.verifier, h.clock]
  exact congrArg Prod.snd (verifyAndConsume_of_room hverify hid hroom)

/-- A call for a job without a record, whose operation fails. -/
theorem Idle.fails (hrep : Represents sampleEnv s.ledger rs) {j : Nat}
    (hk : k ≤ 50) (hj : ∀ r ∈ rs, r.jobId ≠ j) :
    ∃ s', (executor sampleEnv).Reaches (fun _ _ => True) s s' ∧
      Performed s s' k (sampleRequest k j 0) (.failed "exit status 1")
        (compacted sampleEnv 0 insertionOrder rs ++
          [executingMarker j .restartMachine 0]) := by
  have hvalid := h.accepts hk j
  obtain ⟨s', hreach, hperformed⟩ := performs_failed (i := k) h.up h.free hrep rfl hvalid rfl
    (lookupIn_of_no_record hj s.clock) insertionOrder "exit status 1"
  rw [h.clock] at hperformed
  exact ⟨s', hreach.of_entered h.up (h.calls k (Nat.le_refl k)), hperformed⟩

/-- The first jobs complete, the later ones fail. -/
theorem Idle.proceeds (hk : k < 50) (hrep : Represents sampleEnv s.ledger rs)
    (hfilled : Filled k k rs) :
    ∃ s' rs', (executor sampleEnv).Reaches (fun _ _ => True) s s' ∧
      Represents sampleEnv s'.ledger rs' ∧ Idle (k + 1) s' ∧
      Filled (k + 1) (k + 1) rs' := by
  have hnew : ∀ r ∈ rs, r.jobId ≠ k := fun r hr => (hfilled.jobs r hr).ne
  by_cases hsmall : k < 16
  · have hvalid := h.accepts hk.le k
    obtain ⟨s', operation, hreach, hperformed⟩ := performs_completed (i := k) h.up h.free hrep rfl
      hvalid rfl (lookupIn_of_no_record hnew s.clock) insertionOrder (r := largeResponse)
      (List.length_replicate ..).le
    rw [h.clock] at hperformed
    refine ⟨s', _, hreach.of_entered h.up (h.calls k (Nat.le_refl k)), hperformed.records,
      h.next hperformed, ?_⟩
    have hmarked := hfilled.append (Nat.le_succ k) sampleEnv insertionOrder
      (executingMarker k .restartMachine 0) rfl fun _ => rfl
    have happended := hmarked.append (Nat.le_refl _) sampleEnv insertionOrder
      (completedRecord k operation largeResponse 0) rfl fun hlarge => absurd hlarge (by omega)
    refine ⟨happended.jobs, fun j hj hj' => ?_, happended.markers⟩
    rcases Nat.lt_succ_iff_lt_or_eq.1 hj with hj | rfl
    · exact happended.outputs j hj hj'
    · exact ⟨operation, latestRecord_append_self _ _⟩
  · obtain ⟨s', hreach, hperformed⟩ := h.fails hrep hk.le hnew
    refine ⟨s', _, hreach, hperformed.records, h.next hperformed, ?_⟩
    have happended := hfilled.append (Nat.le_succ k) sampleEnv insertionOrder
      (executingMarker k .restartMachine 0) rfl fun _ => rfl
    exact ⟨happended.jobs, fun j hj hj' => happended.outputs j (by omega) hj', happended.markers⟩

end

/-- The first `k` of fifty jobs with a large response, run one after the
other. -/
theorem reaches_idle (hk : k ≤ 50) :
    ∃ s rs, (executor sampleEnv).Reaches (fun _ _ => True) (.fresh sampleEnv 0 none) s ∧
      Represents sampleEnv s.ledger rs ∧ Idle k s ∧ Filled k k rs := by
  induction k with
  | zero =>
    refine ⟨_, [], .refl, represents_none.2 rfl, ?_, ⟨nofun, nofun, nofun⟩⟩
    exact
      { clock := rfl
        up := rfl
        free := rfl
        calls := fun _ _ => rfl
        verifier := rfl
        unmarked := fun _ _ => rfl
        started := nofun }
  | succ k ih =>
    obtain ⟨s, rs, hreach, hrep, hidle, hfilled⟩ := ih (by omega)
    obtain ⟨s', rs', hstep, hrep', hidle', hfilled'⟩ := hidle.proceeds hk hrep hfilled
    exact ⟨s', rs', hreach.trans hstep, hrep', hidle', hfilled'⟩

end Calls

/-- Two starts of one job in the same instant, and its first marker then. -/
theorem dropped_marker_reruns :
    ∃ s, (executor sampleEnv).Reaches (fun _ _ => True) (.fresh sampleEnv 0 none) s ∧
      ∃ j, s.firstMarker j = some 0 ∧ 2 ≤ (startsWithin s j 0).length := by
  obtain ⟨s, rs, hreach, hrep, hidle, hfilled⟩ := reaches_idle (k := 49) (by decide)
  have hnew : ∀ r ∈ rs, r.jobId ≠ 49 := fun r hr => (hfilled.jobs r hr).ne
  obtain ⟨s1, hreach1, hperformed⟩ := hidle.fails hrep (by decide) hnew
  have hidle1 := hidle.next hperformed
  -- the marker of job 49 made the ledger drop the marker of a job `j`
  have hlarge := Nat.not_le.2 (hfilled.large (by decide) sampleEnv)
  obtain ⟨j, hj, hdropped⟩ := exists_unmarked_of_compactRecords (rs.filter (retained 0))
    insertionOrder (show ((List.range 33).map (16 + ·)).Nodup by decide) (by decide)
  have hjobs : 16 ≤ j ∧ j < 49 := by
    grind
  have hnone : ∀ r ∈ compacted sampleEnv 0 insertionOrder rs ++
      [executingMarker 49 .restartMachine 0], r.jobId ≠ j := by
    intro r hr hrj
    rcases List.mem_append.1 hr with hr | hr
    · have hstate := hfilled.markers r (mem_of_mem_compacted hr) (by omega)
      rw [compacted, if_neg hlarge] at hr
      exact hdropped r hr hstate hrj
    · grind
  obtain ⟨s2, hreach2, hagain⟩ := hidle1.fails hperformed.records (by decide) hnone
  obtain ⟨hfirst, e, he, hjob, hstart⟩ := hidle1.started j (by omega)
  refine ⟨s2, (hreach.trans hreach1).trans hreach2, j, ?_, ?_⟩
  · rw [hagain.firstMarker]
    exact firstMarker_noteMarker_of_some hfirst
  · obtain ⟨outcome, hexec⟩ := hagain.executions
    have hmem : e ∈ startsWithin s1 j 0 := by
      simp only [startsWithin, jobExecutions, List.mem_filter]
      exact ⟨⟨he, by simpa using hjob⟩, by rw [hstart]; decide⟩
    have hjob' : (j == j) = true := beq_self_eq_true j
    have hwithin : decide (s1.clock < 0 + recordRetention) = true := by rw [hidle1.clock]; decide
    have hearlier : 0 < (startsWithin s1 j 0).length := List.length_pos_of_mem hmem
    rw [startsWithin, jobExecutions, hexec, List.filter_cons_of_pos (by exact hjob'),
      List.filter_cons_of_pos (by exact hwithin), List.length_cons]
    exact Nat.succ_le_succ hearlier

end Centrald.Proofs
