import Centrald.Client.Ledger
import Centrald.Proofs.SecureFs
import Centrald.Server.LocalAudit
import Mathlib.Logic.Relation

/-!
# `Centrald.Proofs.TornTail`: what the torn-tail recovery keeps

A recovery that a crash may stop should keep every record that was
complete before it. `KeepsCommitted recover fallible raw` says so for a
journal that holds `raw`, over any number of starts, each of which runs
the recovery and may be stopped at any operation.

The recovery empties the journal before it writes the committed part
back. So the law holds exactly for journals that need no recovery or
have no complete record (`keepsCommitted_recoverTornTail_iff`). In the
one direction the journal is only read. In the other a process that
dies right after the truncating open leaves an empty journal.
-/

set_option autoImplicit false

namespace Centrald.Proofs

open Durable Common

/-- A recovery with the identifiers it generates. -/
abbrev Recovery := Uuid → Uuid → FileM String JournalFile Bytes

/-- One start: the recovery runs, and ends or is stopped. -/
def Restart (recover : Recovery) (fallible : FileOp JournalFile → Prop)
    (s s' : Fs JournalFile File) : Prop :=
  ∃ q t out, Exec (fileSem fallible LosesUnsynced) (recover q t).run s out ∧ s' = out.state

/-- The complete records a reader finds in the journal. -/
def readableRecords (s : Fs JournalFile File) : List Bytes :=
  match s .journal with
  | some f => recordLines (committedPart f.contents)
  | none => []

/-- After any number of starts, the complete records of `raw` are still
readable, in their order. -/
def KeepsCommitted (recover : Recovery) (fallible : FileOp JournalFile → Prop)
    (raw : Bytes) : Prop :=
  ∀ s s', s .journal = some (.durable raw) →
    Relation.ReflTransGen (Restart recover fallible) s s' →
    (recordLines (committedPart raw)).Sublist (readableRecords s')

/-! ### Journals without a torn tail -/

variable {fallible : FileOp JournalFile → Prop}

variable {raw : Bytes}

/-- A journal that ends in a newline is only read. -/
theorem recoverTornTail_terminated (texts : JournalTexts) (display : JournalFile → String)
    (q t : Uuid) (hraw : Terminated raw) :
    ETriple (fileSem fallible LosesUnsynced) (fun s => s .journal = some (.durable raw))
      (recoverTornTail texts display q t)
      (fun bytes s => bytes = raw ∧ s .journal = some (.durable raw))
      (fun _ s => s .journal = some (.durable raw))
      (fun s => s .journal = some (.durable raw)) := by
  unfold recoverTornTail
  refine ETriple.bind (R := fun bytes s => bytes = raw ∧ s .journal = some (.durable raw))
    (ETriple.read ?_ ?_ ?_) ?_
  · intro s s' hs hsurv
    exact hsurv.durable hs
  · intro s f hs hf
    have hfile : f = .durable raw := Option.some.inj (hf.symm.trans hs)
    subst hfile
    exact ⟨rfl, hs⟩
  · intro s hs _
    exact hs
  · intro bytes s hs
    obtain ⟨rfl, hs⟩ := hs
    rw [if_pos hraw]
    refine ETriple.pure (P := fun s => s .journal = some (.durable bytes)) ?_ ?_ s hs
    · intro s hs
      exact ⟨rfl, hs⟩
    · intro s s' hs hsurv
      exact hsurv.durable hs

/-- A start on a journal without a torn tail leaves the journal as it is. -/
theorem restart_terminated {texts : JournalTexts} {display : JournalFile → String}
    (hraw : Terminated raw) {s s' : Fs JournalFile File}
    (h : Restart (recoverTornTail texts display) fallible s s')
    (hs : s .journal = some (.durable raw)) : s' .journal = some (.durable raw) := by
  obtain ⟨q, t, out, hexec, rfl⟩ := h
  have hout := recoverTornTail_terminated texts display q t hraw s hs out hexec
  cases out with
  | done r s' =>
    cases r with
    | ok bytes => exact hout.2
    | error e => exact hout
  | crashed s' => exact hout

/-- So does any number of starts. -/
theorem restarts_terminated {texts : JournalTexts} {display : JournalFile → String}
    (hraw : Terminated raw) {s s' : Fs JournalFile File}
    (h : Relation.ReflTransGen (Restart (recoverTornTail texts display) fallible) s s')
    (hs : s .journal = some (.durable raw)) : s' .journal = some (.durable raw) := by
  induction h with
  | refl => exact hs
  | tail _ hstep ih => exact restart_terminated hraw hstep ih

/-! ### Journals with a torn tail -/

/-- A directory that holds nothing but the journal. -/
def journalOnly (raw : Bytes) : Fs JournalFile File
  | .journal => some (.durable raw)
  | _ => none

/-- A process that dies right after the truncating open leaves an
empty journal. -/
theorem exec_recoverTornTail_truncated (fallible : FileOp JournalFile → Prop)
    (texts : JournalTexts) (display : JournalFile → String) (q t : Uuid)
    (hraw : ¬ Terminated raw) :
    ∃ s', Exec (fileSem fallible LosesUnsynced) (recoverTornTail texts display q t).run
        (journalOnly raw) (.crashed s') ∧
      s' .journal = some ((File.durable raw).edit .truncate) := by
  let s1 := Function.update (journalOnly raw) (.quarantine q) (some (.durable (tornTail raw)))
  let s2 := Function.update s1 .journal (some ((File.durable raw).edit .truncate))
  have hjournal : journalOnly raw .journal = some (.durable raw) := rfl
  have hpreserve : Exec (fileSem fallible LosesUnsynced)
      (writeNewFile (.quarantine q) (.temporary t) (tornTail raw)).run (journalOnly raw)
      (.done (.ok ()) s1) :=
    exec_writeNewFile (tornTail raw) (by simp) rfl rfl
  have htruncate : (FileOp.openTruncate JournalFile.journal).run s1 = (s2, .done) := rfl
  refine ⟨s2, ?_, Function.update_self _ _ _⟩
  refine exec_bind_ok (exec_read hjournal) ?_
  rw [show FileData.contents (File.durable raw) = raw from rfl, if_neg hraw]
  refine exec_bind_ok (exec_adapt_ok _ hpreserve) ?_
  exact exec_bind_ok (exec_act htruncate) (.crash _ (.inl rfl))

/-- The law of the shared routine: it holds exactly when there is no
torn tail to recover from or no complete record to lose. -/
theorem keepsCommitted_recoverTornTail_iff (texts : JournalTexts)
    (display : JournalFile → String) (raw : Bytes) :
    KeepsCommitted (recoverTornTail texts display) fallible raw ↔
      Terminated raw ∨ recordLines (committedPart raw) = [] := by
  constructor
  · intro hkeeps
    by_cases hraw : Terminated raw
    · exact .inl hraw
    · obtain ⟨s', hexec, hs'⟩ :=
        exec_recoverTornTail_truncated fallible texts display 0 0 hraw
      have hsub := hkeeps (journalOnly raw) s' rfl (.single ⟨0, 0, .crashed s', hexec, rfl⟩)
      have hempty : readableRecords s' = [] := by
        simp only [readableRecords, hs', File.contents_edit, Edit.apply]
        rfl
      grind
  · rintro (hraw | hnone) s s' hs hsteps
    · have hs' := restarts_terminated hraw hsteps hs
      simp only [readableRecords, hs', File.contents_durable]
      exact List.Sublist.refl _
    · grind

/-! ### The two journals -/

/-- The broker ledger and the local audit journal keep their committed
records over every crash of the recovery exactly when there is no torn
tail or no committed record. -/
theorem recoverTornFinalRecord_keepsCommitted_iff (fallible : FileOp JournalFile → Prop)
    (display : JournalFile → String) (raw : Bytes) :
    (KeepsCommitted (Client.Ledger.recoverTornFinalRecord display) fallible raw ↔
      Terminated raw ∨ recordLines (committedPart raw) = []) ∧
    (KeepsCommitted (Server.LocalAudit.recoverTornFinalRecord display) fallible raw ↔
      Terminated raw ∨ recordLines (committedPart raw) = []) :=
  ⟨keepsCommitted_recoverTornTail_iff Client.Ledger.ledgerTexts display raw,
    keepsCommitted_recoverTornTail_iff Server.LocalAudit.localAuditTexts display raw⟩

/-- The journal `{}\n{`: one complete record and a torn one. A crash
during its recovery loses the complete record in both journals. -/
theorem recoverTornFinalRecord_loses_record :
    ¬ KeepsCommitted (Client.Ledger.recoverTornFinalRecord fun _ => "journal")
        (fun _ => False) [123, 125, 10, 123] ∧
      ¬ KeepsCommitted (Server.LocalAudit.recoverTornFinalRecord fun _ => "journal")
        (fun _ => False) [123, 125, 10, 123] := by
  have hraw : ¬ (Terminated [123, 125, 10, 123] ∨
      recordLines (committedPart [123, 125, 10, 123]) = []) := by decide
  exact ⟨fun h => hraw ((keepsCommitted_recoverTornTail_iff _ _ _).1 h),
    fun h => hraw ((keepsCommitted_recoverTornTail_iff _ _ _).1 h)⟩

end Centrald.Proofs
