import Centrald.Common.ActivePointer
import Centrald.Durable.ProcessCrash

/-!
# `Centrald.Proofs.ActivePointer`: the runs of the pointer's operations

Each operation of the pointer is a file program on three files. This
module computes its run from every state, with the states a crash may
leave on the way. What counts of a state is its `view`: the two files
that `recoverLocked` would leave.
-/

set_option autoImplicit false

namespace Centrald.Proofs

open Durable Common Function

/-- The three files of a pointer. -/
def files (c n p : Option Bytes) : Fs PointerFile Bytes
  | .current => c
  | .next => n
  | .previous => p

theorem files_eta (s : Fs PointerFile Bytes) : files (s .current) (s .next) (s .previous) = s := by
  funext x
  cases x <;> rfl

@[simp] theorem update_files_current (c n p x : Option Bytes) :
    update (files c n p) .current x = files x n p := by
  funext y
  cases y <;> simp [files]

@[simp] theorem update_files_next (c n p x : Option Bytes) :
    update (files c n p) .next x = files c x p := by
  funext y
  cases y <;> simp [files]

@[simp] theorem update_files_previous (c n p x : Option Bytes) :
    update (files c n p) .previous x = files c n x := by
  funext y
  cases y <;> simp [files]

/-- The current and the previous file after a recovery. -/
def view (c n p : Option Bytes) : Option Bytes × Option Bytes :=
  match c, n with
  | some b, _ => (some b, p)
  | none, some b => (some b, p)
  | none, none => (p, none)

/-! ### Single operations -/

variable {C : Fs PointerFile Bytes → Prop} {c n p : Option Bytes} {e : PointerError}

theorem runsTo_metadata (hC : C (files c n p)) :
    RunsTo (files c n p) (FileM.act .metadata e) (.ok ()) (files c n p) C :=
  .act rfl hC hC fun _ ht => ht.elim

variable {b : Bytes}

theorem runsTo_rename_next (hC : C (files c (some b) p))
    (hC' : C (files (some b) none p)) :
    RunsTo (files c (some b) p) (FileM.act (.rename .next .current) e) (.ok ())
      (files (some b) none p) C :=
  .act (by simp [FileOp.run, files]) hC hC' fun _ ht => ht.elim

theorem runsTo_rename_previous (hC : C (files c n (some b)))
    (hC' : C (files (some b) n none)) :
    RunsTo (files c n (some b)) (FileM.act (.rename .previous .current) e) (.ok ())
      (files (some b) n none) C :=
  .act (by simp [FileOp.run, files]) hC hC' fun _ ht => ht.elim

theorem runsTo_rename_current (hC : C (files (some b) n p))
    (hC' : C (files none n (some b))) :
    RunsTo (files (some b) n p) (FileM.act (.rename .current .previous) e) (.ok ())
      (files none n (some b)) C :=
  .act (by simp [FileOp.run, files]) hC hC' fun _ ht => ht.elim

variable {s : Fs PointerFile Bytes}

theorem runsTo_removeIfExists {s' : Fs PointerFile Bytes} {x : PointerFile}
    (hs' : update s x none = s') (hC : C s) (hC' : C s') :
    RunsTo s (removeIfExists x) (.ok ()) s' C := by
  refine .bind (.stat hC) ?_
  cases hx : s x with
  | none =>
    rw [← hx, update_eq_self] at hs'
    exact hs' ▸ .pure hC
  | some b => exact .act (by simp [FileOp.run, hx, hs']) hC hC' fun _ ht => ht.elim

/-! ### Recovery -/

/-- A recovery leaves the view and no staged value. A crash leaves the
state before or after it. -/
theorem runsTo_recoverLocked (hC : C (files c n p))
    (hC' : C (files (view c n p).1 none (view c n p).2)) :
    RunsTo (files c n p) recoverLocked (.ok ()) (files (view c n p).1 none (view c n p).2) C := by
  refine .bind (.stat hC) (.bind (.stat hC) (.bind (.stat hC) ?_))
  cases c with
  | some b =>
    cases n with
    | some w =>
      exact .bind (runsTo_removeIfExists (update_files_next ..) hC hC') (runsTo_metadata hC')
    | none => exact .pure hC
  | none =>
    cases n with
    | some w => exact .bind (runsTo_rename_next hC hC') (runsTo_metadata hC')
    | none =>
      cases p with
      | some b => exact .bind (runsTo_rename_previous hC hC') (runsTo_metadata hC')
      | none => exact .pure hC

/-! ### The operations -/

variable {text : Bytes → Option Bytes}

/-- `file` holds the text `value`, a simple file name, or neither is there. -/
def Reads (text : Bytes → Option Bytes) : Option Bytes → Option Bytes → Prop
  | none, none => True
  | some bytes, some value => text bytes = some value ∧ validateValue value = true
  | _, _ => False

theorem Reads.isSome_eq {file value : Option Bytes} (h : Reads text file value) :
    file.isSome = value.isSome := by
  cases file <;> cases value <;> first | rfl | exact h.elim

variable {value : Option Bytes}

theorem runsTo_readValue {x : PointerFile}
    (hx : Reads text (s x) value) (hC : C s) :
    RunsTo s (readValue text x) (.ok value) s C := by
  refine .bind (.stat hC) ?_
  cases hfile : s x with
  | none =>
    rw [hfile] at hx
    cases value with
    | none => exact .pure hC
    | some v => exact hx.elim
  | some bytes =>
    rw [hfile] at hx
    cases value with
    | none => exact hx.elim
    | some v =>
      refine .bind (.read hfile hC) ?_
      simp only [hx.1, hx.2, if_true]
      exact .pure hC

/-- A crash inside a write leaves a first part of its data. -/
theorem runsTo_write_next {data : Bytes} (hC : ∀ k, C (files c (some (b ++ data.take k)) p)) :
    RunsTo (files c (some b) p) (FileM.act (.write .next data) e) (.ok ())
      (files c (some (b ++ data)) p) C := by
  have hwrite (d : Bytes) : (FileOp.write .next d).run (files c (some b) p) =
      (files c (some (b ++ d)) p, .done) := by
    show (update (files c (some b) p) .next (some (b ++ d)), FileReply.done) = _
    simp
  refine .act (hwrite data) ?_ ?_ ?_
  · simpa using hC 0
  · simpa using hC data.length
  · rintro t ⟨k, rfl⟩
    rw [hwrite]
    exact hC k

variable {v : Bytes}

/-- Staging a value writes it and a newline. A crash leaves a prefix. -/
theorem runsTo_writeNewPointer (hC : C (files c none p))
    (hC' : ∀ w, w <+: v ++ [newline] → C (files c (some w) p)) :
    RunsTo (files c none p) (writeNewPointer v) (.ok ()) (files c (some (v ++ [newline])) p) C := by
  have hempty : C (files c (some []) p) := hC' [] List.nil_prefix
  have hwhole : C (files c (some (v ++ [newline])) p) := hC' _ (List.prefix_refl _)
  have hcreate : RunsTo (files c none p) (FileM.act (.createNew .next) .io : PointerM Unit)
      (.ok ()) (files c (some []) p) C :=
    .act (by simp [FileOp.run, files, FileData.empty]) hC hempty fun _ ht => ht.elim
  have hvalue : RunsTo (files c (some []) p) (FileM.act (.write .next v) .io : PointerM Unit)
      (.ok ()) (files c (some v) p) C :=
    runsTo_write_next fun k => hC' _ ((List.take_prefix k v).trans (List.prefix_append _ _))
  have hline : RunsTo (files c (some v) p) (FileM.act (.write .next [newline]) .io : PointerM Unit)
      (.ok ()) (files c (some (v ++ [newline])) p) C :=
    runsTo_write_next fun k =>
      hC' _ ((List.prefix_append_right_inj v).2 (List.take_prefix k [newline]))
  have hsync : RunsTo (files c (some (v ++ [newline])) p)
      (FileM.act (.sync .next) .io : PointerM Unit)
      (.ok ()) (files c (some (v ++ [newline])) p) C :=
    .act (by simp [FileOp.run, files, FileData.flush]) hwhole hwhole fun _ ht => ht.elim
  exact .bind (runsTo_removeIfExists (update_files_next ..) hC hC)
    (.bind hcreate (.bind hvalue (.bind hline hsync)))

/-- Moving the staged value into place succeeds at once. -/
theorem runsTo_moveNext (hadCurrent : Bool) (hC : C (files none (some b) p))
    (hC' : C (files (some b) none p)) :
    RunsTo (files none (some b) p) (moveNext hadCurrent) (.ok ()) (files (some b) none p) C := by
  have hrename : RunsTo (files none (some b) p)
      (FileM.attempt (.rename .next .current) : PointerM FileReply) (.ok .done)
      (files (some b) none p) C :=
    .attempt (by simp [FileOp.run, files]) hC hC' fun _ ht => ht.elim
  have hsync : RunsTo (files (some b) none p)
      (FileM.attempt .metadata : PointerM FileReply) (.ok .done) (files (some b) none p) C :=
    .attempt rfl hC' hC' fun _ ht => ht.elim
  exact .bind hrename (.bind hsync (.pure hC'))

/-- The states a crash of a publication leaves after the recovery: the
staged value in part, the old value moved aside, or the new value in
place. -/
def PublishCrash (v : Bytes) (c : Option Bytes) (s : Fs PointerFile Bytes) : Prop :=
  s = files c none none ∨
  (∃ w, w <+: v ++ [newline] ∧ s = files c (some w) none) ∨
  s = files none (some (v ++ [newline])) c ∨
  s = files (some (v ++ [newline])) none c

/-- A publication with no other one pending. -/
theorem runsTo_publishPointer (hv : validateValue v = true)
    (hprevious : (view c n p).2 = none) (hC : C (files c n p))
    (hC' : ∀ s, PublishCrash v (view c n p).1 s → C s) :
    RunsTo (files c n p) (publishPointer v) (.ok ())
      (files (some (v ++ [newline])) none (view c n p).1) C := by
  rw [publishPointer, if_pos hv]
  have hrecover := runsTo_recoverLocked hC (by rw [hprevious]; exact hC' _ (.inl rfl))
  rw [hprevious] at hrecover
  generalize (view c n p).1 = c' at *
  have hstart : C (files c' none none) := hC' _ (.inl rfl)
  have hstaged : C (files none (some (v ++ [newline])) c') := hC' _ (.inr (.inr (.inl rfl)))
  have hplaced : C (files (some (v ++ [newline])) none c') := hC' _ (.inr (.inr (.inr rfl)))
  have hwrite := runsTo_writeNewPointer hstart fun w hw => hC' _ (.inr (.inl ⟨w, hw, rfl⟩))
  have hwritten : C (files c' (some (v ++ [newline])) none) :=
    hC' _ (.inr (.inl ⟨_, List.prefix_refl _, rfl⟩))
  refine .bind hrecover (.bind (.stat hstart) (.bind (.stat hstart) (.bind hwrite
    (.bind (.stat hwritten) ?_))))
  cases c' with
  | none => exact runsTo_moveNext false hwritten hplaced
  | some b =>
    exact .bind (runsTo_rename_current hwritten hstaged) (runsTo_moveNext true hstaged hplaced)

theorem runsTo_publishPointer_invalid (hv : validateValue v = false)
    (hC : C s) :
    RunsTo s (publishPointer v) (.error .invalidValue) s C := by
  rw [publishPointer, hv]
  exact .throw hC

section

variable (hC : C (files c n p)) (hC' : C (files (view c n p).1 none (view c n p).2))
include hC hC'

/-- `read` answers the current value of the view. -/
theorem runsTo_readPointer (hv : Reads text (view c n p).1 value) :
    RunsTo (files c n p) (readPointer text) (value.elim (.error .missing) .ok)
      (files (view c n p).1 none (view c n p).2) C := by
  refine .bind (runsTo_recoverLocked hC hC') (.bind (runsTo_readValue hv hC') ?_)
  cases value with
  | some v => exact .pure hC'
  | none => exact .throw hC'

/-- `previous` answers the previous value of the view. -/
theorem runsTo_previousPointer (hv : Reads text (view c n p).2 value) :
    RunsTo (files c n p) (previousPointer text) (.ok value)
      (files (view c n p).1 none (view c n p).2) C :=
  .bind (runsTo_recoverLocked hC hC') (runsTo_readValue hv hC')

/-- A publication over a pending one is refused. -/
theorem runsTo_publishPointer_pending (hv : validateValue v = true)
    (hprevious : (view c n p).2.isSome = true) :
    RunsTo (files c n p) (publishPointer v) (.error .pendingPublication)
      (files (view c n p).1 none (view c n p).2) C := by
  rw [publishPointer, if_pos hv]
  refine .bind (runsTo_recoverLocked hC hC') (.bind (.stat hC') (.bind (.stat hC') ?_))
  simp only [files, hprevious, Bool.true_or, if_true]
  exact .throw hC'

/-- A commit forgets the previous value. -/
theorem runsTo_commitPointer (hC'' : C (files (view c n p).1 none none)) :
    RunsTo (files c n p) commitPointer (.ok ()) (files (view c n p).1 none none) C :=
  .bind (runsTo_recoverLocked hC hC')
    (.bind (runsTo_removeIfExists (update_files_previous ..) hC' hC'')
    (.bind (runsTo_removeIfExists (update_files_next ..) hC'' hC'') (runsTo_metadata hC'')))

/-- A rollback of a publication leaves the previous value, if any. -/
theorem runsTo_rollbackPointer (hremoved : C (files none none (view c n p).2))
    (hmoved : C (files (view c n p).2 none none)) :
    RunsTo (files c n p) rollbackPointer (.ok ()) (files (view c n p).2 none none) C := by
  refine .bind (runsTo_recoverLocked hC hC')
    (.bind (runsTo_removeIfExists (update_files_current ..) hC' hremoved)
    (.bind (.stat hremoved) ?_))
  generalize (view c n p).2 = p' at *
  cases p' with
  | none =>
    exact .bind (runsTo_removeIfExists (update_files_next ..) hmoved hmoved)
      (runsTo_metadata hmoved)
  | some b =>
    exact .bind (runsTo_rename_previous hremoved hmoved)
      (.bind (runsTo_removeIfExists (update_files_next ..) hmoved hmoved) (runsTo_metadata hmoved))

/-- A rollback after a restart, with a previous value. -/
theorem runsTo_rollbackRecovered (hprevious : (view c n p).2.isSome = true)
    (hremoved : C (files none none (view c n p).2))
    (hmoved : C (files (view c n p).2 none none)) :
    RunsTo (files c n p) rollbackRecovered (.ok true) (files (view c n p).2 none none) C := by
  refine .bind (runsTo_recoverLocked hC hC') (.bind (.stat hC') ?_)
  generalize (view c n p).2 = p' at *
  cases p' with
  | none => cases hprevious
  | some b =>
    exact .bind (runsTo_removeIfExists (update_files_current ..) hC' hremoved) (.bind
      (runsTo_rename_previous hremoved hmoved)
      (.bind (runsTo_removeIfExists (update_files_next ..) hmoved hmoved)
        (.bind (runsTo_metadata hmoved) (.pure hmoved))))

/-- A rollback after a restart, without a previous value, does nothing. -/
theorem runsTo_rollbackRecovered_none (hprevious : (view c n p).2 = none) :
    RunsTo (files c n p) rollbackRecovered (.ok false)
      (files (view c n p).1 none (view c n p).2) C := by
  refine .bind (runsTo_recoverLocked hC hC') (.bind (.stat hC') ?_)
  simp only [files, hprevious]
  rw [hprevious] at hC'
  exact .pure hC'

end

end Centrald.Proofs
