import Centrald.Proofs.Ledger
import Mathlib.Data.List.Perm.Basic

/-!
# `Centrald.Proofs.Compaction`: the latest record of a job

A lookup answers from the latest record of a job that it retains, so
what has to survive an append and a compaction is the latest record.
A compaction keeps the latest record of every job, in the order of a
hash map, except that of the jobs whose latest record is an execution
marker only the newest 32 stay (`latestRecord_compactRecords`).
-/

set_option autoImplicit false

namespace Centrald.Proofs

open Durable Client Client.Ledger

variable {rs : List LedgerRecord} {r : LedgerRecord} {j : Nat}

/-! ### The latest record -/

theorem latestRecord_append (rs rs' : List LedgerRecord) (j : Nat) :
    latestRecord (rs ++ rs') j = (latestRecord rs' j).or (latestRecord rs j) := by
  rw [latestRecord, List.reverse_append, List.find?_append]
  rfl

theorem latestRecord_singleton (r : LedgerRecord) (j : Nat) :
    latestRecord [r] j = if r.jobId = j then some r else none := by
  by_cases h : r.jobId = j <;> simp [latestRecord, h]

theorem latestRecord_append_self (rs : List LedgerRecord) (r : LedgerRecord) :
    latestRecord (rs ++ [r]) r.jobId = some r := by
  rw [latestRecord_append, latestRecord_singleton, if_pos rfl]
  rfl

theorem latestRecord_append_of_ne (rs : List LedgerRecord) (h : r.jobId ≠ j) :
    latestRecord (rs ++ [r]) j = latestRecord rs j := by
  rw [latestRecord_append, latestRecord_singleton, if_neg h]
  rfl

theorem latestRecord_eq_none : latestRecord rs j = none ↔ ∀ r ∈ rs, r.jobId ≠ j := by
  simp [latestRecord]

theorem mem_of_latestRecord (h : latestRecord rs j = some r) : r ∈ rs ∧ r.jobId = j := by
  have hmem := List.mem_of_find?_eq_some h
  have hjob := List.find?_some h
  exact ⟨List.mem_reverse.1 hmem, by simpa using hjob⟩

/-- The latest record is still the latest among those a filter keeps. -/
theorem latestRecord_filter {p : LedgerRecord → Bool} (h : latestRecord rs j = some r)
    (hp : p r = true) : latestRecord (rs.filter p) j = some r := by
  have hjob : r.jobId = j := (mem_of_latestRecord h).2
  obtain ⟨-, later, earlier, hsplit, hlater⟩ := List.find?_eq_some_iff_append.1 h
  rw [latestRecord, ← List.filter_reverse, List.find?_filter, List.find?_eq_some_iff_append]
  grind

/-- A record that is the only one of its job is its latest. -/
theorem latestRecord_of_unique (hmem : r ∈ rs)
    (hunique : ∀ r' ∈ rs, r'.jobId = r.jobId → r' = r) : latestRecord rs r.jobId = some r := by
  cases h : latestRecord rs r.jobId with
  | none => exact absurd rfl (latestRecord_eq_none.1 h r hmem)
  | some r' =>
    obtain ⟨hmem', hjob⟩ := mem_of_latestRecord h
    rw [hunique r' hmem' hjob]

/-! ### Compaction -/

/-- The map of a compaction holds the latest record of every job. -/
theorem mem_latestPerJob : r ∈ latestPerJob rs ↔ latestRecord rs r.jobId = some r := by
  induction rs with
  | nil => simp [latestPerJob, latestRecord]
  | cons first rest ih =>
    have hcons : latestRecord (first :: rest) r.jobId =
        (latestRecord rest r.jobId).or (if first.jobId = r.jobId then some first else none) := by
      rw [← latestRecord_singleton, ← latestRecord_append]
      rfl
    rw [hcons, latestPerJob]
    by_cases hlater : rest.any (fun r' => r'.jobId == first.jobId) = true
    · -- a later record of the same job takes the place of `first`
      rw [if_pos hlater, ih]
      constructor
      · intro h
        rw [h]
        rfl
      · intro h
        cases hrest : latestRecord rest r.jobId with
        | some r' =>
          rw [hrest] at h
          exact h
        | none =>
          rw [hrest] at h
          have hjob : first.jobId = r.jobId := by
            grind
          obtain ⟨r', hr', heq⟩ := List.any_eq_true.1 hlater
          have heq' : r'.jobId = r.jobId := (by simpa using heq : r'.jobId = first.jobId).trans hjob
          exact absurd heq' (latestRecord_eq_none.1 hrest r' hr')
    · rw [if_neg hlater, List.mem_cons, ih]
      have hfirst : latestRecord rest first.jobId = none := by
        rw [latestRecord_eq_none]
        intro r' hr' heq
        exact hlater (List.any_eq_true.2 ⟨r', hr', by simp [heq]⟩)
      by_cases hjob : first.jobId = r.jobId
      · rw [if_pos hjob, ← hjob, hfirst]
        constructor
        · rintro (rfl | h)
          · rfl
          · cases h
        · intro h
          exact .inl (Option.some.inj h).symm
      · rw [if_neg hjob, Option.or_none]
        constructor
        · rintro (rfl | h)
          · exact absurd rfl hjob
          · exact h
        · exact .inr

/-- How many jobs have an execution marker as their latest record. -/
def openMarkers (rs : List LedgerRecord) : Nat :=
  (latestPerJob rs).countP fun r => r.state == .executing

/-- Up to the bound, every marker is retained. -/
theorem mem_retainedMarkers {order : HashOrder}
    (hfit : openMarkers rs ≤ maxRetainedInterruptedMarkers) (hmem : r ∈ latestPerJob rs)
    (hstate : r.state = .executing) :
    r ∈ retainedMarkers (order.arrange (latestPerJob rs)) := by
  have hlength : ((order.arrange (latestPerJob rs)).filter fun r => r.state == .executing).length =
      openMarkers rs := by
    rw [((order.perm _).filter _).length_eq, openMarkers, List.countP_eq_length_filter]
  rw [retainedMarkers, List.take_of_length_le]
  · rw [List.mem_reverse, List.mem_mergeSort, List.mem_filter, (order.perm _).mem_iff]
    exact ⟨hmem, by rw [hstate]; rfl⟩
  · rw [List.length_reverse, List.length_mergeSort, hlength]
    exact hfit

theorem mem_compactRecords {order : HashOrder} : r ∈ compactRecords order rs ↔
    latestRecord rs r.jobId = some r ∧ (r.state ≠ .executing ∨
      r.jobId ∈ (retainedMarkers (order.arrange (latestPerJob rs))).map LedgerRecord.jobId) := by
  rw [compactRecords, List.mem_filter, (order.perm _).mem_iff, mem_latestPerJob]
  simp

/-- The latest record of a job stays, unless it is one of too many
execution markers. -/
theorem latestRecord_compactRecords {order : HashOrder} (h : latestRecord rs j = some r)
    (hkeep : r.state ≠ .executing ∨ openMarkers rs ≤ maxRetainedInterruptedMarkers) :
    latestRecord (compactRecords order rs) j = some r := by
  have hjob : r.jobId = j := (mem_of_latestRecord h).2
  subst hjob
  have hmem : r ∈ compactRecords order rs := by
    refine mem_compactRecords.2 ⟨h, ?_⟩
    by_cases hstate : r.state = .executing
    · have hfit := hkeep.resolve_left (absurd hstate)
      exact .inr (List.mem_map_of_mem (mem_retainedMarkers hfit (mem_latestPerJob.2 h) hstate))
    · exact .inl hstate
  refine latestRecord_of_unique hmem fun r' hr' hjob => ?_
  have hlatest := (mem_compactRecords.1 hr').1
  grind

/-- A compaction leaves at most 32 jobs with a marker, so of any 33 jobs
one has none. -/
theorem exists_unmarked_of_compactRecords (rs : List LedgerRecord) (order : HashOrder)
    {jobs : List Nat} (hnodup : jobs.Nodup) (hmany : maxRetainedInterruptedMarkers < jobs.length) :
    ∃ j ∈ jobs, ∀ r ∈ compactRecords order rs, r.state = .executing → r.jobId ≠ j := by
  by_contra hall
  push Not at hall
  have hsubset : jobs ⊆
      (retainedMarkers (order.arrange (latestPerJob rs))).map LedgerRecord.jobId := by
    intro j hj
    obtain ⟨r, hr, hstate, rfl⟩ := hall j hj
    exact (mem_compactRecords.1 hr).2.resolve_left (absurd hstate)
  have hbound : jobs.length ≤ maxRetainedInterruptedMarkers := by
    have hle := (List.subperm_of_subset hnodup hsubset).length_le
    rw [List.length_map] at hle
    exact hle.trans (List.length_take_le ..)
  omega

variable {env : LedgerEnv} {clock : Int} {order : HashOrder}

@[grind →] theorem mem_of_mem_compacted (h : r ∈ compacted env clock order rs) : r ∈ rs := by
  rw [compacted] at h
  split at h
  · exact h
  · have hlatest := (mem_compactRecords.1 h).1
    exact List.mem_of_mem_filter (mem_of_latestRecord hlatest).1

/-- The markers fit if the ledger is compacted at `clock`. -/
def MarkersFit (env : LedgerEnv) (clock : Int) (rs : List LedgerRecord) : Prop :=
  (encodeLedger env rs).length ≤ maxLedgerBytes ∨
    openMarkers (rs.filter (retained clock)) ≤ maxRetainedInterruptedMarkers

/-- The latest record of a job that a reader at `clock` retains is also
the latest after a compaction at `clock`. -/
theorem latestRecord_compacted (h : latestRecord rs j = some r)
    (hretained : retained clock r = true) (hkeep : r.state ≠ .executing ∨ MarkersFit env clock rs) :
    latestRecord (compacted env clock order rs) j = some r := by
  rw [compacted]
  split
  next => exact h
  next hlarge =>
    refine latestRecord_compactRecords (latestRecord_filter h hretained) ?_
    exact hkeep.imp_right fun hfit => hfit.resolve_left hlarge

/-- An append for another job leaves the latest record, also when it
compacts first. -/
theorem latestRecord_compacted_append {r' : LedgerRecord} (hne : r'.jobId ≠ j)
    (h : latestRecord rs j = some r) (hretained : retained clock r = true)
    (hkeep : r.state ≠ .executing ∨ MarkersFit env clock rs) :
    latestRecord (compacted env clock order rs ++ [r']) j = some r := by
  rw [latestRecord_append_of_ne _ hne, latestRecord_compacted h hretained hkeep]

/-! ### Lookups -/

theorem lookupIn_of_no_record (h : ∀ r ∈ rs, r.jobId ≠ j) (now : Int) :
    lookupIn rs j now = .ok none := by
  have hnone : latestRecord (rs.filter (retained now)) j = none :=
    latestRecord_eq_none.2 fun r hr => h r (List.mem_of_mem_filter hr)
  rw [lookupIn, hnone]

/-- A lookup answers from the latest record, if it retains it. -/
theorem lookupIn_of_latest {now : Int} (h : latestRecord rs j = some r)
    (hretained : retained now r = true) : lookupIn rs j now = (lookupRecord now r).map some := by
  rw [lookupIn, latestRecord_filter h hretained]

end Centrald.Proofs
