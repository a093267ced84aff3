import Centrald.Durable.AtomicPointer
import Centrald.Proofs.ActivePointer

/-!
# `Centrald.Proofs.AtomicPointer`: the pointer files refine an atomic pointer

`AtomicPointer` is what the pointer is for: one committed value and at
most one pending publication, changed by each operation at once.
`PointerRun` is a history of operations of any processes on the files,
each one completed or stopped by a crash.

Three kinds of step leave the atomic pointer, and the runs here are
those without them (`Permits`, `WritesWhole`):

* a published name that does not read back as itself, since `read_value`
  trims;
* a `rollback` of a publication that another process has finalized in
  the meantime, which removes the committed value;
* a crash while the very first value is written, since `recover_locked`
  then moves the unfinished file into place.

`pointer_refines_atomic` proves the refinement and the laws of the
pointer for every other run. `first_publication_crash` is a run that the
third kind breaks.
-/

set_option autoImplicit false

namespace Centrald.Proofs

open Durable Common

/-! ### The operations of the atomic pointer -/

/-- What an operation answers, and the pointer after it. -/
def applyOp (A : AtomicPointer Bytes) :
    PointerOp → Except PointerError PointerReply × AtomicPointer Bytes
  | .read =>
    match A.value with
    | some v => (.ok (.value v), A)
    | none => (.error .missing, A)
  | .previous => (.ok (.previous A.previous), A)
  | .publish v =>
    if validateValue v then
      if A.previous.isSome then (.error .pendingPublication, A)
      else (.ok .unit, A.publish v)
    else (.error .invalidValue, A)
  | .commit | .commitRecovered => (.ok .unit, A.commit)
  | .rollback => (.ok .unit, A.rollback)
  | .rollbackRecoveredIfPrevious =>
    if A.previous.isSome then (.ok (.rolledBack true), A.rollback)
    else (.ok (.rolledBack false), A)

section

variable {A : AtomicPointer Bytes} {v : Bytes}

theorem applyOp_publish_invalid (hv : ¬ validateValue v = true) :
    applyOp A (.publish v) = (.error .invalidValue, A) := by
  simp only [applyOp, if_neg hv]

theorem applyOp_publish_pending (hv : validateValue v = true)
    (hprevious : A.previous.isSome = true) :
    applyOp A (.publish v) = (.error .pendingPublication, A) := by
  simp only [applyOp, if_pos hv, if_pos hprevious]

theorem applyOp_publish_ok (hv : validateValue v = true) (hprevious : ¬ A.previous.isSome = true) :
    applyOp A (.publish v) = (.ok .unit, A.publish v) := by
  simp only [applyOp, if_pos hv, if_neg hprevious]

/-- What an operation leaves of the pointer. -/
theorem applyOp_cases (A : AtomicPointer Bytes) (op : PointerOp) :
    (applyOp A op).2 = A ∨ (∃ v, op = .publish v ∧ (applyOp A op).2 = A.publish v) ∨
      (applyOp A op).2 = A.commit ∨ (applyOp A op).2 = A.rollback := by
  cases op with
  | read =>
    simp only [applyOp]
    split <;> exact .inl rfl
  | previous => exact .inl rfl
  | publish v =>
    by_cases hv : validateValue v = true
    · by_cases hprevious : A.previous.isSome = true
      · rw [applyOp_publish_pending hv hprevious]
        exact .inl rfl
      · rw [applyOp_publish_ok hv hprevious]
        exact .inr (.inl ⟨v, rfl, rfl⟩)
    · rw [applyOp_publish_invalid hv]
      exact .inl rfl
  | commit => exact .inr (.inr (.inl rfl))
  | commitRecovered => exact .inr (.inr (.inl rfl))
  | rollback => exact .inr (.inr (.inr rfl))
  | rollbackRecoveredIfPrevious =>
    simp only [applyOp]
    grind

/-- A committed value may be replaced, never lost. -/
theorem committed_applyOp (op : PointerOp) (h : A.committed.isSome = true) :
    (applyOp A op).2.committed.isSome = true := by
  have hvalue := AtomicPointer.value_of_committed h
  rcases applyOp_cases A op with hA | ⟨w, -, hA⟩ | hA | hA <;> rw [hA]
  · exact h
  · exact hvalue
  · exact hvalue
  · exact h

/-- The values of a pointer after an operation are old ones or published
by it. -/
theorem values_applyOp {op : PointerOp}
    (h : (applyOp A op).2.committed = some v ∨ (applyOp A op).2.pending = some v) :
    A.committed = some v ∨ A.pending = some v ∨ op = .publish v := by
  rcases applyOp_cases A op with hA | ⟨w, rfl, hA⟩ | hA | hA <;> rw [hA] at h
  · exact h.imp_right .inl
  · rcases h with h | h
    · exact (AtomicPointer.committed_or_pending h).imp_right .inl
    · have hw : w = v := Option.some.inj h
      rw [hw]
      exact .inr (.inr rfl)
  · rcases h with h | h
    · exact (AtomicPointer.committed_or_pending h).imp_right .inl
    · cases h
  · rcases h with h | h
    · exact .inl h
    · cases h

end

/-! ### Histories -/

/-- An operation with its answer, or `none` when its process died in it. -/
structure PointerEvent where
  op : PointerOp
  result : Option (Except PointerError PointerReply)

/-- The files, and whether the last publication completed and has not
been finalized since. -/
structure PointerState where
  fs : Fs PointerFile Bytes
  unfinalized : Bool

/-- No file is there. -/
def PointerState.empty : PointerState := ⟨files none none none, false⟩

/-- Whether a completed publication is left to finalize after an event. -/
def unfinalizedAfter (before : Bool) (ev : PointerEvent) : Bool :=
  match ev.op, ev.result with
  | .publish _, some (.ok _) => true
  | .publish _, _ | .read, _ | .previous, _ => before
  | _, _ => false

/-- One operation on the files. -/
inductive PointerStep (text : Bytes → Option Bytes) (s : PointerState) :
    PointerEvent → PointerState → Prop where
  | done {op : PointerOp} {r : Except PointerError PointerReply} {fs : Fs PointerFile Bytes}
      (h : Exec (crashSem PointerFile) (op.program text).run s.fs (.done r fs)) :
      PointerStep text s ⟨op, some r⟩ ⟨fs, unfinalizedAfter s.unfinalized ⟨op, some r⟩⟩
  | crashed {op : PointerOp} {fs : Fs PointerFile Bytes}
      (h : Exec (crashSem PointerFile) (op.program text).run s.fs (.crashed fs)) :
      PointerStep text s ⟨op, none⟩ ⟨fs, unfinalizedAfter s.unfinalized ⟨op, none⟩⟩

/-- A published name reads back as itself, and a rollback is of the
publication that is not yet finalized. -/
def Permits (text : Bytes → Option Bytes) (s : PointerState) : PointerOp → Prop
  | .publish v => validateValue v = true → text (v ++ [newline]) = some v
  | .rollback => s.unfinalized = true
  | _ => True

/-- Where no file was there, a crash leaves no staged file or a complete
one. -/
def WritesWhole (text : Bytes → Option Bytes) (before after : Fs PointerFile Bytes) :
    PointerOp → Prop
  | .publish v => before = files none none none → ∀ w, after .next = some w → text w = some v
  | _ => True

/-- A history from `s0`. -/
inductive PointerRun (text : Bytes → Option Bytes) (s0 : PointerState) :
    List PointerEvent → PointerState → Prop where
  | nil : PointerRun text s0 [] s0
  | snoc {evs : List PointerEvent} {s s' : PointerState} {ev : PointerEvent}
      (h : PointerRun text s0 evs s) (hstep : PointerStep text s ev s')
      (hpermits : Permits text s ev.op)
      (hwhole : ev.result = none → WritesWhole text s.fs s'.fs ev.op) :
      PointerRun text s0 (evs ++ [ev]) s'

/-- An event of the atomic pointer: the answer and the effect of the
operation, or a crash before or after it. -/
inductive AtomicStep (A : AtomicPointer Bytes) : PointerEvent → AtomicPointer Bytes → Prop where
  | done (op : PointerOp) : AtomicStep A ⟨op, some (applyOp A op).1⟩ (applyOp A op).2
  | lost (op : PointerOp) : AtomicStep A ⟨op, none⟩ A
  | crashed (op : PointerOp) : AtomicStep A ⟨op, none⟩ (applyOp A op).2

/-- The histories of the atomic pointer that starts as `A0`. -/
inductive AtomicRun (A0 : AtomicPointer Bytes) :
    List PointerEvent → AtomicPointer Bytes → Prop where
  | nil : AtomicRun A0 [] A0
  | snoc {evs : List PointerEvent} {A A' : AtomicPointer Bytes} {ev : PointerEvent}
      (h : AtomicRun A0 evs A) (hstep : AtomicStep A ev A') : AtomicRun A0 (evs ++ [ev]) A'

/-! ### The simulation -/

/-- The files hold the values of `A`. -/
def Rep (text : Bytes → Option Bytes) (s : Fs PointerFile Bytes) (A : AtomicPointer Bytes) : Prop :=
  Reads text (view (s .current) (s .next) (s .previous)).1 A.value ∧
    Reads text (view (s .current) (s .next) (s .previous)).2 A.previous

section

variable {text : Bytes → Option Bytes} {c n p : Option Bytes} {A : AtomicPointer Bytes}

theorem view_view (c n p : Option Bytes) :
    view (view c n p).1 none (view c n p).2 = view c n p := by
  cases c with
  | some b => rfl
  | none =>
    cases n with
    | some b => rfl
    | none => cases p <;> rfl

/-- Only an empty directory has no value. -/
theorem view_fst_eq_none (h : (view c n p).1 = none) : files c n p = files none none none := by
  cases c with
  | some b => cases h
  | none =>
    cases n with
    | some b => cases h
    | none =>
      have hp : p = none := h
      rw [hp]

/-- A recovery does not change what the files hold. -/
theorem rep_recovered (h : Rep text (files c n p) A) :
    Rep text (files (view c n p).1 none (view c n p).2) A := by
  show Reads text (view (view c n p).1 none (view c n p).2).1 A.value ∧
    Reads text (view (view c n p).1 none (view c n p).2).2 A.previous
  rw [view_view]
  exact h

variable {file value : Option Bytes}

/-- A current value alone is a committed one. -/
theorem rep_current (h : Reads text file value) :
    Rep text (files file none none) ⟨value, none⟩ := by
  cases file with
  | none => exact ⟨h, trivial⟩
  | some b => exact ⟨h, trivial⟩

/-- A previous value alone is recovered as the committed one. -/
theorem rep_previous (h : Reads text file value) : Rep text (files none none file) ⟨value, none⟩ :=
  ⟨h, trivial⟩

section

variable {b v : Bytes} (hb : Reads text (some b) (some v)) (h : Reads text file value)
include hb h

/-- A current and a previous value. -/
theorem rep_pending : Rep text (files (some b) none file) ⟨value, some v⟩ :=
  ⟨hb, h⟩

/-- A staged and a previous value. -/
theorem rep_staged : Rep text (files none (some b) file) ⟨value, some v⟩ :=
  ⟨hb, h⟩

end

/-- The states that a crash of `op` may leave, where `s` held `A`. -/
def CrashRep (text : Bytes → Option Bytes) (s : Fs PointerFile Bytes) (op : PointerOp)
    (A : AtomicPointer Bytes) (t : Fs PointerFile Bytes) : Prop :=
  WritesWhole text s t op → Rep text t A ∨ Rep text t (applyOp A op).2

/-- The program of `op` answers as the atomic pointer does and leaves
files that hold its new values. -/
def Simulates (text : Bytes → Option Bytes) (s : Fs PointerFile Bytes) (op : PointerOp)
    (A : AtomicPointer Bytes) : Prop :=
  ∃ s', RunsTo s (op.program text) (applyOp A op).1 s' (CrashRep text s op A) ∧
    Rep text s' (applyOp A op).2

section

variable (h : Rep text (files c n p) A)
include h

theorem simulates_read : Simulates text (files c n p) .read A := by
  have hrun := runsTo_readPointer (C := CrashRep text (files c n p) .read A)
    (fun _ => .inl h) (fun _ => .inl (rep_recovered h)) h.1
  cases hvalue : A.value with
  | some v =>
    have happly : applyOp A .read = (.ok (.value v), A) := by simp only [applyOp, hvalue]
    rw [hvalue] at hrun
    rw [Simulates, happly]
    exact ⟨_, .bind hrun (.pure fun _ => .inl (rep_recovered h)), rep_recovered h⟩
  | none =>
    have happly : applyOp A .read = (.error .missing, A) := by
      simp only [applyOp, hvalue]
    rw [hvalue] at hrun
    rw [Simulates, happly]
    exact ⟨_, .bind_error hrun, rep_recovered h⟩

theorem simulates_previous : Simulates text (files c n p) .previous A := by
  have hcrash : CrashRep text (files c n p) .previous A
      (files (view c n p).1 none (view c n p).2) := fun _ => .inl (rep_recovered h)
  have hrun := runsTo_previousPointer (fun _ => .inl h) hcrash h.2
  exact ⟨_, .bind hrun (.pure hcrash), rep_recovered h⟩

theorem simulates_commit : ∃ s', (∀ C : Fs PointerFile Bytes → Prop,
      (∀ t, Rep text t A ∨ Rep text t A.commit → C t) →
        RunsTo (files c n p) (do commitPointer; return PointerReply.unit) (.ok .unit) s' C) ∧
      Rep text s' A.commit := by
  have hcommitted : Rep text (files (view c n p).1 none none) A.commit := rep_current h.1
  refine ⟨_, fun C hC => ?_, hcommitted⟩
  exact .bind (runsTo_commitPointer (hC _ (.inl h)) (hC _ (.inl (rep_recovered h)))
    (hC _ (.inr hcommitted))) (.pure (hC _ (.inr hcommitted)))

theorem simulates_rollback (hpending : A.pending.isSome = true) :
    Simulates text (files c n p) .rollback A := by
  have hprevious : Reads text (view c n p).2 A.committed := by
    have h2 := h.2
    rwa [AtomicPointer.previous_of_isSome hpending] at h2
  have hmoved : CrashRep text (files c n p) .rollback A (files (view c n p).2 none none) :=
    fun _ => .inr (rep_current hprevious)
  exact ⟨_, .bind (runsTo_rollbackPointer (fun _ => .inl h) (fun _ => .inl (rep_recovered h))
    (fun _ => .inr (rep_previous hprevious)) hmoved) (.pure hmoved), rep_current hprevious⟩

/-- The call rolls back exactly when a publication is pending. -/
theorem simulates_rollbackRecovered :
    Simulates text (files c n p) .rollbackRecoveredIfPrevious A := by
  have hsome : (view c n p).2.isSome = A.previous.isSome := h.2.isSome_eq
  by_cases hprevious : A.previous.isSome = true
  · have happly : applyOp A .rollbackRecoveredIfPrevious =
        (.ok (.rolledBack true), A.rollback) := if_pos hprevious
    have hreads : Reads text (view c n p).2 A.committed := by
      have h2 := h.2
      rwa [AtomicPointer.previous_of_isSome (AtomicPointer.pending_of_previous hprevious)] at h2
    have hcrash {t : Fs PointerFile Bytes} (ht : Rep text t A ∨ Rep text t A.rollback) :
        CrashRep text (files c n p) .rollbackRecoveredIfPrevious A t := by
      intro _
      rwa [happly]
    rw [Simulates, happly]
    exact ⟨_, .bind (runsTo_rollbackRecovered (hcrash (.inl h))
      (hcrash (.inl (rep_recovered h))) (hsome.trans hprevious)
      (hcrash (.inr (rep_previous hreads))) (hcrash (.inr (rep_current hreads))))
      (.pure (hcrash (.inr (rep_current hreads)))), rep_current hreads⟩
  · have happly : applyOp A .rollbackRecoveredIfPrevious = (.ok (.rolledBack false), A) :=
      if_neg hprevious
    have hnone : (view c n p).2 = none := by
      rw [← Option.not_isSome_iff_eq_none, hsome]
      exact hprevious
    have hrecovered : CrashRep text (files c n p) .rollbackRecoveredIfPrevious A
        (files (view c n p).1 none (view c n p).2) := fun _ => .inl (rep_recovered h)
    rw [Simulates, happly]
    exact ⟨_, .bind (runsTo_rollbackRecovered_none (fun _ => .inl h) hrecovered hnone)
      (.pure hrecovered), rep_recovered h⟩

/-- A crash of an accepted publication leaves the old or the new value. -/
theorem crashRep_publish {v : Bytes} {t : Fs PointerFile Bytes} (hnone : A.previous = none)
    (hv : validateValue v = true) (htext : text (v ++ [newline]) = some v)
    (ht : PublishCrash v (view c n p).1 t)
    (hwhole : WritesWhole text (files c n p) t (.publish v)) :
    Rep text t A ∨ Rep text t (A.publish v) := by
  have hsome : (view c n p).2.isSome = A.previous.isSome := h.2.isSome_eq
  have hview : (view c n p).2 = none := by
    rw [← Option.not_isSome_iff_eq_none, hsome, hnone]
    exact Bool.false_ne_true
  have hnew : Reads text (some (v ++ [newline])) (some v) := ⟨htext, hv⟩
  rcases ht with rfl | ⟨w, -, rfl⟩ | rfl | rfl
  · have hrec := rep_recovered h
    rw [hview] at hrec
    exact .inl hrec
  · cases hcur : (view c n p).1 with
    | none =>
      -- the first publication: the staged file is whole by assumption
      rw [hcur] at hwhole
      have hw : text w = some v := hwhole (view_fst_eq_none hcur) w rfl
      have hvalue : Reads text (view c n p).1 A.value := h.1
      rw [hcur] at hvalue
      exact .inr (rep_staged ⟨hw, hv⟩ hvalue)
    | some b =>
      have hrec := rep_recovered h
      rw [hview, hcur] at hrec
      exact .inl hrec
  · exact .inr (rep_staged hnew h.1)
  · exact .inr (rep_pending hnew h.1)

/-- A publication, with its crashes at any point, is one step of the
atomic pointer or none. -/
theorem simulates_publish {v : Bytes}
    (htext : validateValue v = true → text (v ++ [newline]) = some v) :
    Simulates text (files c n p) (.publish v) A := by
  have hsome : (view c n p).2.isSome = A.previous.isSome := h.2.isSome_eq
  by_cases hv : validateValue v = true
  · by_cases hprevious : A.previous.isSome = true
    · rw [Simulates, applyOp_publish_pending hv hprevious]
      exact ⟨_, .bind_error (runsTo_publishPointer_pending (fun _ => .inl h)
        (fun _ => .inl (rep_recovered h)) hv (hsome.trans hprevious)), rep_recovered h⟩
    · have happly := applyOp_publish_ok hv hprevious
      have hnone : A.previous = none := by simpa using hprevious
      have hview : (view c n p).2 = none := by
        rw [← Option.not_isSome_iff_eq_none, hsome]
        exact hprevious
      have hcrash (t : Fs PointerFile Bytes) (ht : PublishCrash v (view c n p).1 t) :
          CrashRep text (files c n p) (.publish v) A t := by
        intro hwhole
        rw [happly]
        exact crashRep_publish h hnone hv (htext hv) ht hwhole
      rw [Simulates, happly]
      exact ⟨_, .bind (runsTo_publishPointer hv hview (fun _ => .inl h) hcrash)
        (.pure (hcrash _ (.inr (.inr (.inr rfl))))), rep_pending ⟨htext hv, hv⟩ h.1⟩
  · rw [Simulates, applyOp_publish_invalid hv]
    exact ⟨_, .bind_error (runsTo_publishPointer_invalid (Bool.eq_false_iff.2 hv)
      (fun _ => .inl h)), h⟩

end

/-- Every permitted operation simulates the atomic one. -/
theorem simulates_of_permits {s : PointerState} {op : PointerOp} (h : Rep text s.fs A)
    (hpending : s.unfinalized = true → A.pending.isSome = true) (hpermits : Permits text s op) :
    Simulates text s.fs op A := by
  rw [← files_eta s.fs] at h ⊢
  cases op with
  | read => exact simulates_read h
  | previous => exact simulates_previous h
  | publish v => exact simulates_publish h hpermits
  | rollback => exact simulates_rollback h (hpending hpermits)
  | rollbackRecoveredIfPrevious => exact simulates_rollbackRecovered h
  | commit =>
    obtain ⟨s', hrun, hrep⟩ := simulates_commit h
    exact ⟨s', hrun _ fun t ht _ => ht, hrep⟩
  | commitRecovered =>
    obtain ⟨s', hrun, hrep⟩ := simulates_commit h
    exact ⟨s', hrun _ fun t ht _ => ht, hrep⟩

/-! ### Whole histories -/

variable {A' : AtomicPointer Bytes} {ev : PointerEvent}

/-- A publication that is left to finalize is pending in the atomic
pointer. -/
theorem pending_of_unfinalized {before : Bool}
    (h : AtomicStep A ev A') (hbefore : before = true → A.pending.isSome = true)
    (hafter : unfinalizedAfter before ev = true) : A'.pending.isSome = true := by
  have hread : (applyOp A .read).2 = A := by
    simp only [applyOp]
    split <;> rfl
  have hpublish (v : Bytes) (hrefused : ∀ e, (applyOp A (.publish v)).1 = .error e →
      before = true) : (applyOp A (.publish v)).2.pending.isSome = true := by
    by_cases hv : validateValue v = true
    · by_cases hprevious : A.previous.isSome = true
      · rw [applyOp_publish_pending hv hprevious] at hrefused ⊢
        exact hbefore (hrefused _ rfl)
      · rw [applyOp_publish_ok hv hprevious]
        rfl
    · rw [applyOp_publish_invalid hv] at hrefused ⊢
      exact hbefore (hrefused _ rfl)
  cases h with
  | done op =>
    cases op with
    | read => exact hread.symm ▸ hbefore hafter
    | previous => exact hbefore hafter
    | publish v =>
      refine hpublish v fun e he => ?_
      rwa [he] at hafter
    | _ => cases hafter
  | lost op => cases op <;> first | exact hbefore hafter | cases hafter
  | crashed op =>
    cases op with
    | read => exact hread.symm ▸ hbefore hafter
    | previous => exact hbefore hafter
    | publish v => exact hpublish v fun _ _ => hafter
    | _ => cases hafter

/-- One event on the files is one event of the atomic pointer. -/
theorem exists_atomicStep {s s' : PointerState} (h : Rep text s.fs A)
    (hpending : s.unfinalized = true → A.pending.isSome = true)
    (hstep : PointerStep text s ev s') (hpermits : Permits text s ev.op)
    (hwhole : ev.result = none → WritesWhole text s.fs s'.fs ev.op) :
    ∃ A', AtomicStep A ev A' ∧ Rep text s'.fs A' ∧
      (s'.unfinalized = true → A'.pending.isSome = true) := by
  cases hstep with
  | @done op r fs hexec =>
    obtain ⟨t, hrun, hrep⟩ : Simulates text s.fs op A :=
      simulates_of_permits h hpending hpermits
    obtain ⟨rfl, rfl⟩ := hrun.done hexec
    exact ⟨_, .done _, hrep, pending_of_unfinalized (.done _) hpending⟩
  | @crashed op fs hexec =>
    obtain ⟨t, hrun, -⟩ : Simulates text s.fs op A :=
      simulates_of_permits h hpending hpermits
    rcases hrun.crashed hexec (hwhole rfl) with hold | hnew
    · exact ⟨_, .lost _, hold, pending_of_unfinalized (.lost _) hpending⟩
    · exact ⟨_, .crashed _, hnew, pending_of_unfinalized (.crashed _) hpending⟩

variable {evs : List PointerEvent}

/-- Every history on the files is a history of the atomic pointer. -/
theorem exists_atomicRun {s0 s : PointerState} {A0 : AtomicPointer Bytes}
    (h0 : Rep text s0.fs A0) (hpending0 : s0.unfinalized = true → A0.pending.isSome = true)
    (h : PointerRun text s0 evs s) :
    ∃ A, AtomicRun A0 evs A ∧ Rep text s.fs A ∧
      (s.unfinalized = true → A.pending.isSome = true) := by
  induction h with
  | nil => exact ⟨A0, .nil, h0, hpending0⟩
  | snoc _ hstep hpermits hwhole ih =>
    obtain ⟨A, hA, hrep, hpending⟩ := ih
    obtain ⟨A', hA', hrep', hpending'⟩ := exists_atomicStep hrep hpending hstep hpermits hwhole
    exact ⟨A', hA.snoc hA', hrep', hpending'⟩

theorem AtomicRun.committed {A A' : AtomicPointer Bytes}
    (h : AtomicRun A evs A') (hA : A.committed.isSome = true) : A'.committed.isSome = true := by
  induction h with
  | nil => exact hA
  | snoc _ hstep ih =>
    cases hstep with
    | done op => exact committed_applyOp op ih
    | lost op => exact ih
    | crashed op => exact committed_applyOp op ih

/-- Every value of the atomic pointer was published. -/
theorem AtomicRun.published {v : Bytes}
    (h : AtomicRun .empty evs A) (hv : A.committed = some v ∨ A.pending = some v) :
    ∃ ev ∈ evs, ev.op = .publish v := by
  induction h with
  | nil => rcases hv with hv | hv <;> cases hv
  | @snoc evs A A' ev _ hstep ih =>
    have hold (hA : A.committed = some v ∨ A.pending = some v) :
        ∃ ev' ∈ evs ++ [ev], ev'.op = .publish v := by
      grind
    have hnew (hop : ev.op = .publish v) : ∃ ev' ∈ evs ++ [ev], ev'.op = .publish v :=
      ⟨ev, by simp, hop⟩
    cases hstep with
    | lost op => exact hold hv
    | done op | crashed op =>
      rcases values_applyOp hv with hA | hA | hop
      · exact hold (.inl hA)
      · exact hold (.inr hA)
      · exact hnew hop

theorem AtomicRun.append {A0 A' : AtomicPointer Bytes} {evs evs' : List PointerEvent}
    (h : AtomicRun A0 evs A) (h' : AtomicRun A evs' A') : AtomicRun A0 (evs ++ evs') A' := by
  induction h' with
  | nil => simpa using h
  | snoc _ hstep ih =>
    rw [← List.append_assoc]
    exact ih.snoc hstep

theorem AtomicRun.eq_of_nil (h : AtomicRun A evs A') (hevs : evs = []) : A' = A := by
  cases h with
  | nil => rfl
  | snoc _ _ => simp at hevs

/-- A run of one event is a step. -/
theorem AtomicRun.step (h : AtomicRun A evs A') (hevs : evs = [ev]) : AtomicStep A ev A' := by
  cases h with
  | nil => cases hevs
  | snoc h hstep =>
    rw [← List.nil_append [ev]] at hevs
    obtain ⟨hnil, hev⟩ := List.append_inj' hevs rfl
    rw [h.eq_of_nil hnil] at hstep
    rwa [List.cons.inj hev |>.1] at hstep

/-! ### The laws of the pointer -/

variable {s : Fs PointerFile Bytes}

/-- The files are read as `A`. -/
theorem returns_read (h : Rep text s A) :
    Returns s (readPointer text) (A.value.elim (.error .missing) .ok) := by
  have hrun := runsTo_readPointer (C := fun _ => True) trivial trivial h.1
  rw [files_eta] at hrun
  exact ⟨_, hrun⟩

theorem returns_publish {w : Bytes} (h : Rep text s A)
    (hprevious : A.previous = none) (hw : validateValue w = true) :
    Returns s (publishPointer w) (.ok ()) := by
  have hnone : (view (s .current) (s .next) (s .previous)).2 = none := by
    rw [← Option.not_isSome_iff_eq_none, h.2.isSome_eq, hprevious]
    exact Bool.false_ne_true
  have hrun := runsTo_publishPointer (C := fun _ => True) hw hnone trivial fun _ _ => trivial
  rw [files_eta] at hrun
  exact ⟨_, hrun⟩

/-- A rollback of the pending publication restores the value before it. -/
theorem rollback_restores (h : Rep text s A) (hpending : A.pending.isSome = true) :
    ∃ t, RunsTo s rollbackPointer (.ok ()) t (fun _ => True) ∧
      Returns t (readPointer text) (A.committed.elim (.error .missing) .ok) := by
  have hrun := runsTo_rollbackPointer (c := s .current) (n := s .next) (p := s .previous)
    (C := fun _ => True) trivial trivial trivial trivial
  rw [files_eta] at hrun
  have hprevious := h.2
  rw [AtomicPointer.previous_of_isSome hpending] at hprevious
  exact ⟨_, hrun, returns_read (rep_current hprevious)⟩

end

/-- The files `s` after the events `evs`, as the atomic pointer `A`. -/
structure PointerLaws (text : Bytes → Option Bytes) (evs : List PointerEvent)
    (s : PointerState) (A : AtomicPointer Bytes) : Prop where
  /-- A read answers the pending value, else the committed one. -/
  read : Returns s.fs (readPointer text) (A.value.elim (.error .missing) .ok)
  /-- Both were passed to `publish`. -/
  published : ∀ v, A.committed = some v ∨ A.pending = some v → ∃ ev ∈ evs, ev.op = .publish v
  /-- A rollback restores what was current before the publication. -/
  rollback : s.unfinalized = true → ∃ t, RunsTo s.fs rollbackPointer (.ok ()) t (fun _ => True) ∧
    Returns t (readPointer text) (A.committed.elim (.error .missing) .ok)

/-- The pointer files refine an atomic pointer with one pending
publication. A value once committed is followed by values only. A crash
of the first publication leaves no value or the published one, and the
next publication succeeds. -/
theorem pointer_refines_atomic (text : Bytes → Option Bytes) {evs evs' : List PointerEvent}
    {s s' : PointerState} (h : PointerRun text .empty evs s) (h' : PointerRun text s evs' s') :
    ∃ A A' : AtomicPointer Bytes, AtomicRun .empty evs A ∧ AtomicRun A evs' A' ∧
      PointerLaws text (evs ++ evs') s' A' ∧
      (A.committed.isSome = true → A'.value.isSome = true) ∧
      (∀ v, A.value = none → evs' = [⟨.publish v, none⟩] → (A'.value = none ∨ A'.value = some v) ∧
        ∀ w, validateValue w = true → Returns s'.fs (publishPointer w) (.ok ())) := by
  have hstart : Rep text PointerState.empty.fs .empty := ⟨trivial, trivial⟩
  obtain ⟨A, hA, hrep, hpending⟩ := exists_atomicRun hstart (fun h => by cases h) h
  obtain ⟨A', hA', hrep', hpending'⟩ := exists_atomicRun hrep hpending h'
  refine ⟨A, A', hA, hA', ⟨returns_read hrep', fun v => (hA.append hA').published, fun hun =>
    rollback_restores hrep' (hpending' hun)⟩,
    fun hcommitted => AtomicPointer.value_of_committed (hA'.committed hcommitted), ?_⟩
  rintro v hvalue rfl
  -- of the empty pointer, the crashed publication leaves two states
  have hempty : A = .empty := AtomicPointer.eq_empty_of_value hvalue
  have hafter : A' = .empty ∨ A' = ⟨none, some v⟩ := by
    subst hempty
    cases hA'.step rfl with
    | lost => exact .inl rfl
    | crashed =>
      by_cases hv : validateValue v = true
      · exact .inr (congrArg Prod.snd (applyOp_publish_ok hv (by decide)))
      · exact .inl (congrArg Prod.snd (applyOp_publish_invalid hv))
  rcases hafter with rfl | rfl
  · exact ⟨.inl rfl, fun w hw => returns_publish hrep' rfl hw⟩
  · exact ⟨.inr rfl, fun w hw => returns_publish hrep' rfl hw⟩

/-- Text of ASCII bytes, trimmed. -/
def asciiText (bytes : Bytes) : Option Bytes :=
  if bytes.all (· < 128) then
    some ((bytes.dropWhile isAsciiWhitespace).reverse.dropWhile isAsciiWhitespace).reverse
  else none

/-- A completed operation: its event and the state after it. -/
def perform (text : Bytes → Option Bytes) (s : PointerState) (op : PointerOp) :
    PointerEvent × PointerState :=
  let out := (op.program text).run.runWith FileOp.run s.fs
  (⟨op, some out.1⟩, ⟨out.2, unfinalizedAfter s.unfinalized ⟨op, some out.1⟩⟩)

theorem PointerRun.perform {text : Bytes → Option Bytes} {s0 s : PointerState}
    {evs : List PointerEvent} (h : PointerRun text s0 evs s) (op : PointerOp)
    (hop : Permits text s op) :
    PointerRun text s0 (evs ++ [(perform text s op).1]) (Proofs.perform text s op).2 :=
  h.snoc (.done (exec_runWith (fun _ _ => Or.inl rfl) _ _)) hop fun hr => by cases hr

/-- The laws after a committed publication of `a` and a publication of
`b`. -/
theorem pointer_refines_atomic_two_values : ∃ (evs evs' : List PointerEvent) (s s' : PointerState),
      evs.map (·.op) = [.publish (ascii "a"), .commit] ∧
      evs'.map (·.op) = [.publish (ascii "b")] ∧
      PointerRun asciiText .empty evs s ∧ PointerRun asciiText s evs' s' ∧
      ∃ A A' : AtomicPointer Bytes, AtomicRun .empty evs A ∧ AtomicRun A evs' A' ∧
        PointerLaws asciiText (evs ++ evs') s' A' := by
  have h : PointerRun asciiText .empty _ _ :=
    (PointerRun.nil.perform (.publish (ascii "a")) fun _ => by decide).perform .commit trivial
  have h' (s : PointerState) : PointerRun asciiText s _ _ :=
    PointerRun.nil.perform (.publish (ascii "b")) fun _ => by decide
  obtain ⟨A, A', hA, hA', hlaws, -⟩ := pointer_refines_atomic asciiText h (h' _)
  exact ⟨_, _, _, _, rfl, rfl, h, h' _, A, A', hA, hA', hlaws⟩

/-- The first publication dies right after `next` is created. The next
read moves the empty file into place and refuses it. -/
theorem first_publication_crash :
    ∃ s : PointerState, PointerStep asciiText .empty ⟨.publish (ascii "ab"), none⟩ s ∧
      Returns s.fs (readPointer asciiText) (.error .invalidValue) := by
  refine ⟨_, .crashed (exec_crash_after (f := FileOp.run) (fun _ _ => Or.inl rfl) _ 7 _ _ rfl),
    returns_of_runWith ?_⟩
  decide

end Centrald.Proofs
