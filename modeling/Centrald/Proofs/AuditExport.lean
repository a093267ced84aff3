import Centrald.Proofs.AuditOrder
import Centrald.Proofs.SecureFs
import Centrald.Server.AuditExport

/-!
# `Centrald.Proofs.AuditExport`: exports partition the audit chain

An export goes on where the newest file of the directory ends. The
directory of a run of exports therefore holds batches of rows that
together are a first part of the table, `Exported` with the list of the
batches. Between the operations of an export rows may be committed, with
sequences above those that are there.

A crash inside `write_new_file` leaves the new file complete or not at
all, and beside it at most a sibling whose name starts with a dot, which
the scan of the directory skips. `export_keeps` is the step: an export
that ends, fails or is stopped leaves the directory with the same
batches or one more. `exports_partition_chain` is the run.
-/

set_option autoImplicit false

namespace Centrald.Proofs

open Durable Common Server Function

/-! ### File names -/

/-- A sequence that a file name can carry. -/
def InRange (n : Int) : Prop := 1 ≤ n ∧ n < 2 ^ 63

theorem parseI64_printInt {n : Int} (h : InRange n) : parseI64 (printInt n) = some n := by
  obtain ⟨hpos, hlt⟩ := h
  obtain ⟨m, rfl⟩ := Int.eq_ofNat_of_zero_le (show 0 ≤ n by omega)
  exact parseI64_printNat (by omega)

theorem minus_not_mem_printInt {n : Int} (h : InRange n) : (45 : UInt8) ∉ printInt n := by
  obtain ⟨hpos, -⟩ := h
  obtain ⟨m, rfl⟩ := Int.eq_ofNat_of_zero_le (show 0 ≤ n by omega)
  exact not_mem_printNat (by decide) m

theorem isExportName_exportFilename (first last : Int) : IsExportName (exportFilename first last) :=
  ⟨⟨_, (List.append_assoc _ _ _).symm⟩, ⟨_, rfl⟩⟩

/-- The range can be cut out of the name again. -/
theorem rangeOf_exportFilename (first last : Int) :
    rangeOf (exportFilename first last) = printInt first ++ 45 :: printInt last := by
  have hlength : (exportFilename first last).length - exportFileSuffix.length -
      exportFilePrefix.length = (printInt first ++ 45 :: printInt last).length := by
    simp only [exportFilename, List.length_append]
    omega
  rw [rangeOf, hlength, exportFilename, List.append_assoc, List.drop_left, List.take_left]

/-- The name of a file reads back. -/
theorem parseExportRange_exportFilename {first last : Int} (hfirst : InRange first)
    (hlast : InRange last) (hle : first ≤ last) :
    parseExportRange (rangeOf (exportFilename first last)) = .ok (first, last) := by
  have hvalid : ¬(last < first ∨ first ≤ 0 ∨ last ≤ 0) := by
    obtain ⟨hfirst, -⟩ := hfirst
    omega
  rw [rangeOf_exportFilename, parseExportRange, splitOnce_append (minus_not_mem_printInt hfirst)]
  simp only [parseI64_printInt hfirst, parseI64_printInt hlast]
  rw [if_neg hvalid]

/-- The sibling of a file starts with a dot. -/
theorem not_isExportName_exportTemporary (env : ExportEnv) (filename : Bytes) (id : Uuid) :
    ¬ IsExportName (exportTemporary env filename id) := by
  rintro ⟨⟨rest, hrest⟩, -⟩
  have hpre : exportFilePrefix = 99 :: ascii "entrald-audit-" := by decide
  have hdot : ascii "." = [46] := by decide
  rw [exportTemporary, hpre, hdot] at hrest
  grind

/-! ### The scan of the directory -/

/-- What the scan returns: nothing when it sees no exported file, else
the largest last sequence. -/
structure Newest (names : List Bytes) (newest out : Option (Int × Bytes)) : Prop where
  /-- The result is one of the files or what was there before. -/
  from_names : ∀ last name, out = some (last, name) → newest = some (last, name) ∨
    name ∈ names ∧ IsExportName name ∧ ∃ first, parseExportRange (rangeOf name) = .ok (first, last)
  /-- No file has a larger sequence. -/
  largest : ∀ name ∈ names, IsExportName name → ∀ first last,
    parseExportRange (rangeOf name) = .ok (first, last) → ∃ best ∈ out, last ≤ best.1
  /-- Nor has what was there before. -/
  grows : ∀ last ∈ newest, ∃ best ∈ out, last.1 ≤ best.1

section

variable {name : Bytes} {names : List Bytes} {entries : Nat} {newest out : Option (Int × Bytes)}

/-- One round of the scan: the file is newer than all before it, or the
result is as before. -/
theorem scanEntry_cases (h : scanEntry entries newest name = .ok out) :
    (∃ first last, IsExportName name ∧ parseExportRange (rangeOf name) = .ok (first, last) ∧
      out = some (last, name) ∧ ∀ best ∈ newest, best.1 ≤ last) ∨
    (out = newest ∧ (IsExportName name → ∀ first last,
      parseExportRange (rangeOf name) = .ok (first, last) → ∃ best ∈ newest, last ≤ best.1)) := by
  rw [scanEntry] at h
  split at h
  · cases h
  split at h
  next hname =>
    cases hparse : parseExportRange (rangeOf name) with
    | error e => simp [hparse] at h
    | ok range =>
      simp only [hparse] at h
      split at h
      next hnewer =>
        cases h
        refine .inl ⟨_, _, hname, rfl, rfl, fun best hbest => ?_⟩
        rw [Option.mem_def] at hbest
        grind
      next hnewer =>
        cases h
        refine .inr ⟨rfl, ?_⟩
        rintro - first last ⟨⟩
        cases newest with
        | none => exact absurd rfl hnewer
        | some best => exact ⟨best, rfl, by simpa using hnewer⟩
  next hname =>
    grind

/-- The scan, by induction on the names that it still has to see. -/
theorem newest_of_scanEntries (h : scanEntries entries newest names = .ok out) :
    Newest names newest out := by
  induction names generalizing entries newest with
  | nil =>
    rw [scanEntries, Except.ok.injEq] at h
    subst h
    exact ⟨fun _ _ h => .inl h, nofun, fun last h => ⟨last, h, le_refl _⟩⟩
  | cons name rest ih =>
    rw [scanEntries] at h
    cases hentry : scanEntry entries newest name with
    | error e =>
      rw [hentry] at h
      cases h
    | ok middle =>
      rw [hentry] at h
      have hrest := ih h
      rcases scanEntry_cases hentry with ⟨first, last, hname, hparse, rfl, hold⟩ | ⟨rfl, hold⟩
      · obtain ⟨best, hbest, hle⟩ := hrest.grows _ rfl
        refine ⟨fun l n hout => ?_, List.forall_mem_cons.2 ⟨fun _ first' last' hrange => ?_,
          hrest.largest⟩, fun before hbefore => ⟨best, hbest, (hold before hbefore).trans hle⟩⟩
        · rcases hrest.from_names l n hout with heq | ⟨hmem, hn⟩
          · grind
          · exact .inr ⟨List.mem_cons_of_mem _ hmem, hn⟩
        · grind
      · refine ⟨fun l n hout => ?_, List.forall_mem_cons.2 ⟨fun hname first last hrange => ?_,
          hrest.largest⟩, hrest.grows⟩
        · exact (hrest.from_names l n hout).imp_right fun hn => ⟨List.mem_cons_of_mem _ hn.1, hn.2⟩
        · obtain ⟨before, hbefore, hle⟩ := hold hname first last hrange
          obtain ⟨best, hbest, hle'⟩ := hrest.grows before hbefore
          exact ⟨best, hbest, hle.trans hle'⟩

end

/-! ### The table and the directory -/

section Batches

variable {μ : Type}

/-- A table in the order of the sequence, which starts at one. -/
structure TableOk (rows : List (AuditRow μ)) : Prop where
  ordered : Ordered rows
  inRange : ∀ row ∈ rows, InRange row.sequence

/-- Rows are committed in the order of the sequence and not modified. -/
def TableGrows (rows rows' : List (AuditRow μ)) : Prop := TableOk rows' ∧ rows <+: rows'

theorem TableGrows.refl {rows : List (AuditRow μ)} (h : TableOk rows) : TableGrows rows rows :=
  ⟨h, List.prefix_refl rows⟩

theorem TableGrows.trans {rows rows' rows'' : List (AuditRow μ)} (h : TableGrows rows rows')
    (h' : TableGrows rows' rows'') : TableGrows rows rows'' :=
  ⟨h'.1, h.2.trans h'.2⟩

/-- The name of the file with a batch of rows. -/
def batchName (batch : List (AuditRow μ)) : Bytes :=
  match batch.head?, batch.getLast? with
  | some first, some last => exportFilename first.sequence last.sequence
  | _, _ => []

/-- The sequence of the last row, or zero. -/
def endSequence (rows : List (AuditRow μ)) : Int := (rows.getLast?.map AuditRow.sequence).getD 0

variable {batch : List (AuditRow μ)}

/-- A batch that is not empty has a first and a last row. -/
theorem exists_ends (h : batch ≠ []) :
    ∃ first ∈ batch, ∃ last ∈ batch, batch.head? = some first ∧ batch.getLast? = some last ∧
      batchName batch = exportFilename first.sequence last.sequence ∧
      endSequence batch = last.sequence := by
  refine ⟨batch.head h, List.head_mem h, batch.getLast h, List.getLast_mem h,
    List.head?_eq_some_head h, List.getLast?_eq_some_getLast h, ?_, ?_⟩
  · simp only [batchName, List.head?_eq_some_head h, List.getLast?_eq_some_getLast h]
  · simp only [endSequence, List.getLast?_eq_some_getLast h, Option.map_some, Option.getD_some]

theorem isExportName_batchName (h : batch ≠ []) :
    IsExportName (batchName batch) := by
  obtain ⟨first, -, last, -, -, -, hname, -⟩ := exists_ends h
  rw [hname]
  exact isExportName_exportFilename _ _

/-- In an ordered batch the last row has the largest sequence. -/
theorem sequence_le_endSequence (h : Ordered batch)
    {row : AuditRow μ} (hrow : row ∈ batch) : row.sequence ≤ endSequence batch := by
  rcases List.eq_nil_or_concat batch with rfl | ⟨init, last, rfl⟩
  · cases hrow
  · rw [List.concat_eq_append] at h hrow ⊢
    have hlast : endSequence (init ++ [last]) = last.sequence := by
      simp [endSequence]
    grind

/-- The name of a batch tells its first and its last sequence. -/
theorem parseExportRange_batchName (h : TableOk batch)
    (hne : batch ≠ []) : ∃ first ∈ batch,
    parseExportRange (rangeOf (batchName batch)) = .ok (first.sequence, endSequence batch) := by
  obtain ⟨first, hfirst, last, hlast, -, -, hname, hseq⟩ := exists_ends hne
  refine ⟨first, hfirst, ?_⟩
  rw [hname, hseq]
  refine parseExportRange_exportFilename (h.inRange first hfirst) (h.inRange last hlast) ?_
  rw [← hseq]
  exact sequence_le_endSequence h.ordered hfirst

theorem TableOk.sublist {rows rows' : List (AuditRow μ)} (h : TableOk rows')
    (hsub : rows.Sublist rows') : TableOk rows :=
  ⟨h.ordered.sublist hsub, fun row hrow => h.inRange row (hsub.subset hrow)⟩

section

variable {rows rest : List (AuditRow μ)} (h : TableOk (rows ++ rest))
include h

/-- The rows behind a first part of the table are those with a larger
sequence. -/
theorem filter_endSequence :
    (rows ++ rest).filter (fun row => decide (endSequence rows < row.sequence)) = rest ∧
    (rows ++ rest).filter (fun row => decide (row.sequence ≤ endSequence rows)) = rows := by
  obtain ⟨hrows, -, hbetween⟩ := List.pairwise_append.1 h.ordered
  have hfront : ∀ row ∈ rows, row.sequence ≤ endSequence rows :=
    fun row hrow => sequence_le_endSequence hrows hrow
  have hback : ∀ row ∈ rest, endSequence rows < row.sequence := by
    intro row hrow
    by_cases hne : rows = []
    · have hpos := (h.inRange row (List.mem_append_right _ hrow)).1
      rw [hne]
      exact hpos
    · obtain ⟨-, -, last, hlast, -, -, -, hseq⟩ := exists_ends hne
      grind
  constructor
  · rw [List.filter_append, List.filter_eq_nil_iff.2, List.filter_eq_self.2, List.nil_append]
    · grind
    · grind
  · rw [List.filter_append, List.filter_eq_self.2, List.filter_eq_nil_iff.2, List.append_nil]
    · grind
    · grind

/-- The window behind a first part of the table. -/
theorem selectWindow_endSequence (limit : Nat) :
    selectWindow (rows ++ rest) (endSequence rows) limit = rest.take limit := by
  have hrest : Ordered rest := (List.pairwise_append.1 h.ordered).2.1
  rw [selectWindow, (filter_endSequence h).1, inSequenceOrder_of_ordered hrest]

end

end Batches

/-- The files of the export directory and the table. -/
abbrev ExportState (μ : Type) := Fs Bytes File × List (AuditRow μ)

variable {env : ExportEnv}

/-- The directory holds the batches, which are a first part of the table
and form a chain. -/
structure Exported (env : ExportEnv) (st : ExportState env.Metadata)
    (batches : List (List (AuditRow env.Metadata))) : Prop where
  table : TableOk st.2
  nonempty : ∀ batch ∈ batches, batch ≠ []
  files : ∀ batch ∈ batches, st.1 (batchName batch) = some (.durable (exportLines env batch))
  only : ∀ name, IsExportName name → st.1 name ≠ none → ∃ batch ∈ batches, name = batchName batch
  rows : batches.flatten <+: st.2
  chained : AuditChain none batches.flatten

namespace Exported

variable {st : ExportState env.Metadata} {batches : List (List (AuditRow env.Metadata))}
  {s : Fs Bytes File} {rows rows' : List (AuditRow env.Metadata)}

section

variable (h : Exported env (s, rows) batches)
include h

theorem grow (hrows : TableGrows rows rows') : Exported env (s, rows') batches :=
  { h with table := hrows.1, rows := h.rows.trans hrows.2 }

/-- Only files with the name of an export matter. -/
theorem of_agree {t : Fs Bytes File} (hagree : ∀ name, IsExportName name → t name = s name) :
    Exported env (t, rows) batches :=
  { h with
    files := fun batch hbatch =>
      (hagree _ (isExportName_batchName (h.nonempty batch hbatch))).trans (h.files batch hbatch)
    only := fun name hname hsome =>
      h.only name hname fun hnone => hsome ((hagree name hname).trans hnone) }

/-- A crash keeps the exported files. -/
theorem survives {t : Fs Bytes File} (hsurv : LosesUnsynced s t) : Exported env (t, rows) batches :=
  { h with
    files := fun batch hbatch => hsurv.durable (h.files batch hbatch)
    only := fun name hname hsome => by
      refine h.only name hname fun hnone => hsome ?_
      rcases hsurv with rfl | hloss
      · exact hnone
      · grind }

end

section

variable (h : Exported env st batches)
include h

theorem tableOk_batch {batch : List (AuditRow env.Metadata)} (hbatch : batch ∈ batches) :
    TableOk batch :=
  h.table.sublist ((List.sublist_flatten_of_mem hbatch).trans h.rows.sublist)

theorem tableOk_flatten : TableOk batches.flatten :=
  h.table.sublist h.rows.sublist

/-- The scan of the directory finds the last batch. -/
theorem newest {names : List Bytes} (hnames : ∀ name, name ∈ names ↔ st.1 name ≠ none)
    {out : Option (Int × Bytes)} (hout : Newest names none out) :
    (out = none ∧ batches = []) ∨ ∃ init batch, batches = init ++ [batch] ∧
      out = some (endSequence batch, batchName batch) := by
  rcases List.eq_nil_or_concat batches with rfl | ⟨init, batch, hconcat⟩
  · refine .inl ⟨?_, rfl⟩
    cases out with
    | none => rfl
    | some best =>
      obtain ⟨last, name⟩ := best
      rcases hout.from_names last name rfl with hnone | ⟨hmem, hname, -⟩
      · cases hnone
      · obtain ⟨batch, hbatch, -⟩ := h.only name hname ((hnames name).1 hmem)
        cases hbatch
  · rw [List.concat_eq_append] at hconcat
    refine .inr ⟨init, batch, hconcat, ?_⟩
    have hbatch : batch ∈ batches := by simp [hconcat]
    have hne := h.nonempty batch hbatch
    -- the file of the last batch is there, so the scan has a result
    obtain ⟨first, -, hrange⟩ := parseExportRange_batchName (h.tableOk_batch hbatch) hne
    have hfile : batchName batch ∈ names := by
      rw [hnames, h.files batch hbatch]
      simp
    obtain ⟨⟨last, name⟩, hbest, hle⟩ :=
      hout.largest _ hfile (isExportName_batchName hne) _ _ hrange
    rw [Option.mem_def] at hbest
    subst hbest
    -- the result is the file of a batch, and of no earlier one
    rcases hout.from_names last name rfl with hnone | ⟨hmem, hname, first', hrange'⟩
    · cases hnone
    obtain ⟨batch', hbatch', rfl⟩ := h.only name hname ((hnames name).1 hmem)
    obtain ⟨_, -, hrange''⟩ :=
      parseExportRange_batchName (h.tableOk_batch hbatch') (h.nonempty batch' hbatch')
    have hlast : last = endSequence batch' := by
      grind
    have hsame : batch' = batch := by
      rcases List.mem_append.1 (hconcat ▸ hbatch') with hinit | hself
      · exfalso
        have hordered := h.tableOk_flatten.ordered
        rw [hconcat, List.flatten_append] at hordered
        obtain ⟨-, -, row', hrow', -, -, -, hrow'eq⟩ := exists_ends (h.nonempty batch' hbatch')
        obtain ⟨-, -, row, hrow, -, -, -, hroweq⟩ := exists_ends hne
        have hlt := (List.pairwise_append.1 hordered).2.2 row'
          (List.mem_flatten.2 ⟨batch', hinit, hrow'⟩) row (by simpa using hrow)
        simp only [hlast, hrow'eq, hroweq] at hle
        omega
      · exact List.mem_singleton.1 hself
    rw [hlast, hsame]

end

section

variable {window : List (AuditRow env.Metadata)} (h : Exported env (s, rows) batches)
  (hne : window ≠ []) (hrows : batches.flatten ++ window <+: rows)
include h hne hrows

/-- The file of a later batch is not there yet. -/
theorem free : s (batchName window) = none := by
  by_contra hsome
  obtain ⟨batch, hbatch, hname⟩ := h.only _ (isExportName_batchName hne) hsome
  have hwindow : TableOk (batches.flatten ++ window) := h.table.sublist hrows.sublist
  -- the two names carry the same first sequence
  obtain ⟨first, hfirst, hrange⟩ :=
    parseExportRange_batchName (hwindow.sublist (List.sublist_append_right _ _)) hne
  obtain ⟨first', hfirst', hrange'⟩ :=
    parseExportRange_batchName (h.tableOk_batch hbatch) (h.nonempty batch hbatch)
  rw [hname, hrange', Except.ok.injEq, Prod.mk.injEq] at hrange
  have hlt := (List.pairwise_append.1 hwindow.ordered).2.2 first'
    (List.mem_flatten.2 ⟨batch, hbatch, hfirst'⟩) first hfirst
  omega

theorem concat (hchain : AuditChain (newestHash batches.flatten) window) :
    Exported env (update s (batchName window)
      (some (.durable (exportLines env window))), rows) (batches ++ [window]) where
  table := h.table
  nonempty batch hbatch := by
    rcases List.mem_append.1 hbatch with hold | hnew
    · exact h.nonempty batch hold
    · exact List.mem_singleton.1 hnew ▸ hne
  files batch hbatch := by
    show update s _ _ _ = _
    rcases List.mem_append.1 hbatch with hold | hnew
    · have hother : batchName batch ≠ batchName window := by
        intro heq
        have hfile := h.files batch hold
        rw [heq] at hfile
        exact absurd (hfile.symm.trans (h.free hne hrows)) (by simp)
      rw [update_of_ne hother]
      exact h.files batch hold
    · rw [List.mem_singleton.1 hnew, update_self]
  only name hname hsome := by
    by_cases heq : name = batchName window
    · exact ⟨window, by simp, heq⟩
    · have hold : s name ≠ none := by
        grind
      obtain ⟨batch, hbatch, hb⟩ := h.only name hname hold
      exact ⟨batch, List.mem_append_left _ hbatch, hb⟩
  rows := by
    grind
  chained := by
    rw [List.flatten_append, List.flatten_singleton]
    refine chained_append.2 ⟨h.chained, ?_⟩
    rwa [endHash_none_eq]

end

end Exported

/-- What the JSON functions do: an exported record is one line that is
not blank, and its `entryHash` reads back. -/
structure LawfulExport (env : ExportEnv) : Prop where
  oneLine : ∀ record hash, newline ∉ env.exportRecord record hash
  notBlank : ∀ record hash, isBlank (env.exportRecord record hash) = false
  readBack : ∀ record hash, env.entryHashOf (env.exportRecord record hash) = some (some hash)

/-- The hash that an export finds in a file is that of its last row. -/
theorem tailHash_exportLines (henv : LawfulExport env) {batch : List (AuditRow env.Metadata)}
    {last : AuditRow env.Metadata} (hlast : batch.getLast? = some last) :
    tailHash env (exportLines env batch) = .ok (hexEncode last.entryHash) := by
  have hlines : recordLines (exportLines env batch) = batch.map fun row =>
      env.exportRecord (canonicalRecord env.toAuditEnv row) (hexEncode row.entryHash) :=
    recordLines_flatMap (fun _ => henv.oneLine _ _) (fun _ => henv.notBlank _ _) batch
  simp only [tailHash, hlines, List.getLast?_map, hlast, Option.map_some, henv.readBack]

/-! ### The steps of an export -/

/-- The operations of an export. Before each of them rows may be
committed. The names of the directory come in any order. The process or
the machine may stop at any operation. -/
def exportSem (μ : Type) : Sem ExportOp (ExportReply μ) (ExportState μ) where
  effect op st st' r := TableGrows st.2 st'.2 ∧
    match op with
    | .file op => ∃ reply, (fileSem (fun _ => False) LosesUnsynced).effect op st.1 st'.1 reply ∧
        r = .file reply
    | .readDir => st'.1 = st.1 ∧ ∃ names, (∀ name, name ∈ names ↔ st.1 name ≠ none) ∧
        r = .entries names
    | .fetchWindow fromSequence limit =>
      st'.1 = st.1 ∧ r = .rows (selectWindow st'.2 fromSequence limit)
  torn op st st' := TableGrows st.2 st'.2 ∧
    match op with
    | .file op => op.Partly st.1 st'.1
    | _ => False
  survives st st' := TableGrows st.2 st'.2 ∧ LosesUnsynced st.1 st'.1

/-- The files are `s`, and the table has grown from `rows`. -/
def FilesAre {μ : Type} (s : Fs Bytes File) (rows : List (AuditRow μ)) (st : ExportState μ) :
    Prop :=
  st.1 = s ∧ TableGrows rows st.2

/-- Some batches are exported. -/
def HasExports (env : ExportEnv) (st : ExportState env.Metadata) : Prop :=
  ∃ batches, Exported env st batches

section Triples

variable {s s' : Fs Bytes File} {rows : List (AuditRow env.Metadata)} {α : Type}

theorem HasExports.of_filesAre (h : HasExports env (s, rows)) {st : ExportState env.Metadata}
    (hst : FilesAre s rows st) : HasExports env st := by
  obtain ⟨batches, hb⟩ := h
  obtain ⟨rfl, hgrows⟩ := hst
  exact ⟨batches, hb.grow hgrows⟩

theorem HasExports.survives {st st' : ExportState env.Metadata} (h : HasExports env st)
    (hsurv : (exportSem env.Metadata).survives st st') : HasExports env st' := by
  obtain ⟨batches, hb⟩ := h
  exact ⟨batches, (hb.grow hsurv.1).survives hsurv.2⟩

/-- Every program leaves the table to grow. -/
theorem triple_tableGrows {μ : Type} (rows : List (AuditRow μ))
    (p : Prog ExportOp (ExportReply μ) α) :
    Triple (exportSem μ) (fun st => TableGrows rows st.2) p (fun _ st => TableGrows rows st.2)
      fun st => TableGrows rows st.2 :=
  Triple.invariant (fun _ _ _ _ hs heff => hs.trans heff.1) (fun _ _ _ hs ht => hs.trans ht.1)
    (fun _ _ hs hsurv => hs.trans hsurv.1) p

/-- A part of an export that begins with the files `s`. However it ends,
some batches are exported. -/
abbrev Exports (env : ExportEnv) (s : Fs Bytes File) (rows : List (AuditRow env.Metadata))
    (p : ExportM env α) (Q : α → ExportState env.Metadata → Prop) : Prop :=
  ETriple (exportSem env.Metadata) (FilesAre s rows) p Q (fun _ => HasExports env) (HasExports env)

/-- A part that tells something (`K`) and knows its files, and the rest. -/
theorem Exports.bind {β : Type} {p : ExportM env α} {f : α → ExportM env β} {K : α → Prop}
    {rows' : List (AuditRow env.Metadata)} {Q : β → ExportState env.Metadata → Prop}
    (hp : Exports env s rows p fun a st => K a ∧ FilesAre s' rows' st)
    (hf : ∀ a, K a → Exports env s' rows' (f a) Q) : Exports env s rows (p >>= f) Q :=
  ETriple.bind hp fun a st hst => hf a hst.1 st hst.2

variable {p : FileM String Bytes α} {r : Except String α}

/-- A part of an export that works on the files only. -/
theorem exports_ofFile {C : Fs Bytes File → Prop}
    (hrun : Undisturbed LosesUnsynced s p r s' C) (hs' : HasExports env (s', rows))
    (hC : ∀ t rows', C t → TableGrows rows rows' → HasExports env (t, rows')) :
    Exports env s rows (ExportM.ofFile p) fun a st => r = .ok a ∧ FilesAre s' rows st := by
  have hlift : Triple (exportSem env.Metadata) (fun st => st.1 = s)
      (p.run.lift ExportOp.file ExportReply.toFile) (fun r' st => r' = r ∧ st.1 = s')
      fun st => C st.1 := by
    refine Triple.lift Prod.fst ?_ ?_ ?_ hrun
    · rintro op st st' reply ⟨-, reply', heff, rfl⟩
      exact heff
    · intro op st st' htorn
      exact htorn.2
    · intro st st' hsurv
      exact hsurv.2
  refine Triple.conseq (hlift.and (triple_tableGrows rows _)) (fun _ h => h) ?_ ?_
  · rintro r' st ⟨⟨rfl, hst⟩, hgrows⟩
    cases r' with
    | ok a => exact ⟨rfl, hst, hgrows⟩
    | error e => exact hs'.of_filesAre ⟨hst, hgrows⟩
  · grind

/-- Such a part when nothing is said about its result. -/
theorem exports_ofFile_any
    {C : Fs Bytes File → Prop}
    (hrun : Undisturbed LosesUnsynced s p r s' C) (hs' : HasExports env (s', rows))
    (hC : ∀ t rows', C t → TableGrows rows rows' → HasExports env (t, rows')) :
    Exports env s rows (ExportM.ofFile p) fun _ => HasExports env :=
  (exports_ofFile hrun hs' hC).conseq (fun _ h => h) (fun _ _ h => hs'.of_filesAre h.2)
    (fun _ _ h => h) fun _ h => h

section

variable (h : HasExports env (s, rows))
include h

theorem exports_pure {a : α} {Q : α → ExportState env.Metadata → Prop}
    (hQ : ∀ st, FilesAre s rows st → Q a st) : Exports env s rows (pure a) Q :=
  ETriple.pure hQ fun _ _ hst hsurv => (h.of_filesAre hst).survives hsurv

/-- A part that leaves the files as they are. -/
theorem exports_ofFile_same
    (hrun : Undisturbed LosesUnsynced s p r s (LosesUnsynced s)) :
    Exports env s rows (ExportM.ofFile p) fun a st => r = .ok a ∧ FilesAre s rows st :=
  exports_ofFile hrun h fun _ _ ht hgrows => h.survives ⟨hgrows, ht⟩

theorem exports_ofExcept :
    Exports env s rows (ExportM.ofFile (.ofExcept r)) fun a st => r = .ok a ∧ FilesAre s rows st :=
  exports_ofFile_same h (.ofExcept fun _ ht => ht)

/-- A part that asks for something else than a file. -/
theorem exports_query {op : ExportOp} {k : ExportReply env.Metadata → Except String α}
    {Q : α → ExportState env.Metadata → Prop}
    (htorn : ∀ st st', ¬ (exportSem env.Metadata).torn op st st')
    (heff : ∀ st st' reply, FilesAre s rows st → (exportSem env.Metadata).effect op st st' reply →
      FilesAre s rows st' ∧ ∃ a, k reply = .ok a ∧ Q a st') :
    Exports env s rows (ExceptT.mk (.call op fun reply => .ret (k reply))) Q := by
  refine ETriple.call (R := fun reply st => FilesAre s rows st ∧ ∃ a, k reply = .ok a ∧ Q a st)
    ?_ (fun st st' st'' _ h => absurd h (htorn st st')) heff ?_ ?_
  · intro st st' hst hsurv
    exact (h.of_filesAre hst).survives hsurv
  · grind
  · rintro reply st st' ⟨hst, -⟩ hsurv
    exact (h.of_filesAre hst).survives hsurv

theorem exports_readDir : Exports env s rows (readDir env) fun names st =>
    (∀ name, name ∈ names ↔ s name ≠ none) ∧ FilesAre s rows st := by
  refine exports_query h (fun st st' => fun ht => ht.2) ?_
  rintro st st' reply ⟨rfl, hgrows⟩ ⟨hgrows', hsame, names, hnames, rfl⟩
  have hst : FilesAre st.1 rows st' := ⟨hsame, hgrows.trans hgrows'⟩
  exact ⟨hst, names, rfl, hnames, hst⟩

/-- The window is read from a table that has grown since. -/
theorem exports_fetchWindow (fromSequence : Int) (limit : Nat) :
    Exports env s rows (fetchWindow env fromSequence limit) fun window st =>
      ∃ rows', TableGrows rows rows' ∧ window = selectWindow rows' fromSequence limit ∧
        FilesAre s rows' st := by
  refine exports_query h (fun st st' => fun ht => ht.2) ?_
  rintro st st' reply ⟨rfl, hgrows⟩ ⟨hgrows', hsame, rfl⟩
  exact ⟨⟨hsame, hgrows.trans hgrows'⟩, _, rfl, st'.2, hgrows.trans hgrows', rfl, hsame,
    .refl hgrows'.1⟩

end

/-- `existing_export_tail` finds the end of the last batch. -/
theorem exports_existingExportTail (henv : LawfulExport env)
    {batches : List (List (AuditRow env.Metadata))} (hb : Exported env (s, rows) batches) :
    Exports env s rows (existingExportTail env) fun tail st => tail =
        (endSequence batches.flatten, (newestHash batches.flatten).map hexEncode) ∧
      FilesAre s rows st := by
  have h : HasExports env (s, rows) := ⟨batches, hb⟩
  unfold existingExportTail
  refine (exports_readDir h).bind fun names hnames => ?_
  refine (exports_ofExcept h).bind fun out hscan => ?_
  rcases hb.newest hnames (newest_of_scanEntries hscan) with
    ⟨rfl, rfl⟩ | ⟨init, batch, hconcat, rfl⟩
  · exact exports_pure h fun st hst => ⟨rfl, hst⟩
  · have hbatch : batch ∈ batches := by simp [hconcat]
    obtain ⟨-, -, last, -, -, hlast, -, hseq⟩ := exists_ends (hb.nonempty batch hbatch)
    have hend : batches.flatten.getLast? = some last := by
      grind
    refine (exports_ofFile_same h (.read (hb.files batch hbatch) fun _ ht => ht)).bind
      fun raw hraw => ?_
    obtain rfl : exportLines env batch = raw := Except.ok.inj hraw
    refine (exports_ofExcept h).bind fun hash hhash => ?_
    rw [tailHash_exportLines henv hlast] at hhash
    obtain rfl := Except.ok.inj hhash
    refine exports_pure h fun st hst => ⟨?_, hst⟩
    rw [hseq, endSequence, newestHash, hend]
    rfl

/-- Writing a batch behind the last one. -/
theorem exports_writeExport {batches : List (List (AuditRow env.Metadata))}
    (hb : Exported env (s, rows) batches) {window : List (AuditRow env.Metadata)}
    (hne : window ≠ []) (hrows : batches.flatten ++ window <+: rows)
    (hchain : AuditChain (newestHash batches.flatten) window) (id : Uuid) :
    Exports env s rows
      (ExportM.ofFile (writeExport env (batchName window) (exportLines env window) id))
      fun _ => HasExports env := by
  have hname := isExportName_batchName hne
  have hsibling := not_isExportName_exportTemporary env (batchName window) id
  have hapart : exportTemporary env (batchName window) id ≠ batchName window := by
    grind
  have hpath : s (batchName window) = none := hb.free hne hrows
  -- apart from the sibling, a crash leaves the files before or after the batch
  have hagree : ∀ {s' t : Fs Bytes File} {batches'}, Exported env (s', rows) batches' →
      AgreeExcept [exportTemporary env (batchName window) id] s' t → ∀ u, LosesUnsynced t u →
      ∀ rows', TableGrows rows rows' → HasExports env (u, rows') := by
    intro s' t batches' hb' hsame u hu rows' hgrows
    have ht : Exported env (t, rows) batches' := hb'.of_agree fun name hn => hsame name fun hmem =>
      hsibling (List.mem_singleton.1 hmem ▸ hn)
    exact ⟨batches', (ht.grow hgrows).survives hu⟩
  have hself : ∀ s' : Fs Bytes File,
      AgreeExcept [exportTemporary env (batchName window) id] s' s' := fun _ _ _ => rfl
  have hb' := hb.concat hne hrows hchain
  have hC : ∀ (t : Fs Bytes File) (rows' : List (AuditRow env.Metadata)),
      (∀ rows', TableGrows rows rows' → HasExports env (t, rows')) → TableGrows rows rows' →
      HasExports env (t, rows') := fun t rows' ht => ht rows'
  by_cases htaken : s (exportTemporary env (batchName window) id) = none
  · have hafter := hagree hb' (hself _)
    refine exports_ofFile_any (r := .ok ()) (.bind ((undisturbed_writeNewFile rfl hapart hpath
      htaken (fun t u ht hu => hagree hb ht u hu) fun t u ht hu => hagree hb' ht u hu).adapt _) ?_)
      ⟨_, hb'⟩ hC
    refine .bind (.act rfl hafter hafter fun _ _ h => h.elim) ?_
    exact .bind (.attempt rfl hafter hafter fun _ _ h => h.elim) (.pure hafter)
  · exact exports_ofFile_any ((undisturbed_writeNewFile_taken hpath htaken
      (hagree hb (hself s))).adapt _).bind_error ⟨_, hb⟩ hC

/-- An export that ends, fails or is stopped leaves the directory in
order. -/
theorem exports_exportAuditChain (henv : LawfulExport env)
    {batches : List (List (AuditRow env.Metadata))} (hb : Exported env (s, rows) batches)
    (maxEntries : Nat) (id : Uuid) :
    Exports env s rows (exportAuditChain env maxEntries id) fun _ => HasExports env := by
  have h : HasExports env (s, rows) := ⟨batches, hb⟩
  unfold exportAuditChain
  refine (exports_ofFile_same h (.act (show _ = (s, FileReply.done) from rfl) (fun _ ht => ht)
    (fun _ ht => ht) fun _ _ => False.elim)).bind fun _ _ => ?_
  refine (exports_existingExportTail henv hb).bind ?_
  rintro _ rfl
  refine ETriple.bind (exports_fetchWindow h _ _) fun window => ?_
  rintro st ⟨rows', hgrows, hwindow, hst⟩
  revert st
  have hb' := hb.grow hgrows
  have h' : HasExports env (s, rows') := ⟨batches, hb'⟩
  obtain ⟨rest, hrest⟩ : batches.flatten <+: rows' := hb'.rows
  -- the window is what stands behind the exported rows
  have htake : window = rest.take (max 1 (min maxEntries maxBatchEntries)) := by
    rw [hwindow, ← hrest]
    exact selectWindow_endSequence (hrest ▸ hb'.table) _
  have hpre : batches.flatten ++ window <+: rows' := by
    rw [← hrest, htake]
    exact (List.prefix_append_right_inj _).2 (List.take_prefix _ _)
  by_cases hne : window = []
  · subst hne
    exact exports_pure h' fun st hst => h'.of_filesAre hst
  · obtain ⟨first, -, last, -, hfirst, hlast, hname, -⟩ := exists_ends hne
    simp only [hfirst, hlast]
    refine (exports_ofExcept h').bind fun _ hok => ?_
    have hchain : AuditChain (newestHash batches.flatten) window := by
      cases hhash : newestHash batches.flatten with
      | none =>
        rw [hhash] at hok
        exact (verifyRows_iff.1 (verifyChain_none_iff.1 hok).2).1
      | some hash =>
        rw [hhash] at hok
        obtain ⟨-, previous, hprevious, hrows⟩ := verifyChain_some_iff.1 hok
        rw [← hexEncode_injective hprevious]
        exact (verifyRows_iff.1 hrows).1
    have hwrite := exports_writeExport hb' hne hpre hchain id
    rw [hname] at hwrite
    exact ETriple.bind hwrite fun _ => .pure (fun _ h => h) fun _ _ h hsurv => h.survives hsurv

end Triples

/-! ### Runs -/

/-- Rows are committed, or an export is called and ends or is stopped. -/
def ExportStep (env : ExportEnv) (st st' : ExportState env.Metadata) : Prop :=
  (st'.1 = st.1 ∧ TableGrows st.2 st'.2) ∨
    ∃ maxEntries id out, Exec (exportSem env.Metadata) (exportAuditChain env maxEntries id).run st
      out ∧ st' = out.state

theorem exported_step (henv : LawfulExport env) {st st' : ExportState env.Metadata}
    (h : HasExports env st) (hstep : ExportStep env st st') : HasExports env st' := by
  obtain ⟨batches, hb⟩ := h
  rcases hstep with ⟨hsame, hgrows⟩ | ⟨maxEntries, id, out, hexec, rfl⟩
  · exact HasExports.of_filesAre ⟨batches, hb⟩ ⟨hsame, hgrows⟩
  · have hout := exports_exportAuditChain henv hb maxEntries id st ⟨rfl, .refl hb.table⟩ out hexec
    cases out with
    | done r st' => cases r <;> exact hout
    | crashed st' => exact hout

/-- The exported files in the order of their ranges: each holds a batch
of rows, and there are no others. -/
structure ExportedFiles (env : ExportEnv) (s : Fs Bytes File)
    (batches : List (List (AuditRow env.Metadata))) : Prop where
  nonempty : ∀ batch ∈ batches, batch ≠ []
  files : ∀ batch ∈ batches, s (batchName batch) = some (.durable (exportLines env batch))
  only : ∀ name, IsExportName name → s name ≠ none → ∃ batch ∈ batches, name = batchName batch
  ordered : batches.Pairwise fun batch later => ∀ row ∈ batch, ∀ row' ∈ later,
    row.sequence < row'.sequence

/-- For every interleaving of commits with exports of any size, one at a
time and with crashes, the exported files together hold exactly the
committed rows up to the last exported sequence, in order. The first row
of a file links to the last row of the file before it. -/
theorem exports_partition_chain (henv : LawfulExport env) {st st' : ExportState env.Metadata}
    (htable : TableOk st.2) (hempty : ∀ name, IsExportName name → st.1 name = none)
    (hrun : Relation.ReflTransGen (ExportStep env) st st') :
    ∃ batches, ExportedFiles env st'.1 batches ∧ batches.flatten = st'.2.filter (fun row =>
        decide (row.sequence ≤ endSequence batches.flatten)) ∧
      ∀ before batch later after, batches = before ++ batch :: later :: after →
        ∃ last ∈ batch.getLast?, ∃ first ∈ later.head?,
          first.previousHash = some last.entryHash := by
  have hstart : HasExports env st := ⟨[], htable, nofun, nofun,
    fun name hname hsome => absurd (hempty name hname) hsome, List.nil_prefix, trivial⟩
  have hall : HasExports env st' := by
    induction hrun with
    | refl => exact hstart
    | tail _ hstep ih => exact exported_step henv ih hstep
  obtain ⟨batches, hb⟩ := hall
  obtain ⟨rest, hrest⟩ := hb.rows
  refine ⟨batches, ⟨hb.nonempty, hb.files, hb.only, ?_⟩, ?_, ?_⟩
  · exact (List.pairwise_flatten.1 hb.tableOk_flatten.ordered).2
  · rw [← hrest]
    exact (filter_endSequence (hrest ▸ hb.table)).2.symm
  · intro before batch later after hsplit
    obtain ⟨-, -, last, -, -, hlast, -, -⟩ := exists_ends (hb.nonempty batch (by simp [hsplit]))
    obtain ⟨first, -, -, -, hfirst, -, -, -⟩ := exists_ends (hb.nonempty later (by simp [hsplit]))
    refine ⟨last, hlast, first, hfirst, ?_⟩
    -- the link across the two batches is one of the chain
    obtain ⟨rows1, rfl⟩ := List.getLast?_eq_some_iff.1 hlast
    obtain ⟨rows2, rfl⟩ := List.head?_eq_some_iff.1 hfirst
    have heq : batches.flatten =
        (before.flatten ++ rows1) ++ last :: first :: (rows2 ++ after.flatten) := by
      simp [hsplit]
    have hchain := hb.chained
    rw [heq] at hchain
    exact hchain.previous_eq

/-! ### Two exports -/

/-- A file program of an export can run as it does on its own. -/
theorem exec_ofFile {env : ExportEnv} {α : Type} {p : FileM String Bytes α} {r : Except String α}
    {s s' : Fs Bytes File} {rows : List (AuditRow env.Metadata)} (htable : TableOk rows)
    (h : Exec (fileSem (fun _ => False) LosesUnsynced) p.run s (.done r s')) :
    Exec (exportSem env.Metadata) (ExportM.ofFile p : ExportM env α).run (s, rows)
      (.done r (s', rows)) := by
  have hlift : ∃ st', Exec (exportSem env.Metadata)
      (p.run.lift ExportOp.file ExportReply.toFile) (s, rows) (.done r st') ∧ st'.1 = s' ∧
      st'.2 = rows := by
    refine exec_lift (π := Prod.fst) (I := fun st => st.2 = rows) ?_ rfl h
    rintro op ⟨t, rows'⟩ t' reply rfl heff
    exact ⟨(t', rows'), .file reply, ⟨.refl htable, reply, heff, rfl⟩, rfl, rfl, rfl⟩
  obtain ⟨⟨t, rows'⟩, hexec, rfl, rfl⟩ := hlift
  exact hexec

/-- A canonical record with its hash, as a JSON object. -/
def exportJson (record : CanonicalRecord Int) (hash : String) : Json :=
  match recordJson record with
  | .obj fields => .obj ((ascii "entryHash", .str (utf8Bytes hash)) :: fields)
  | value => value

/-- The sample audit functions with JSON for the exported records. -/
def sampleExport : ExportEnv where
  toAuditEnv := sampleAudit
  exportRecord record hash := (exportJson record hash).print
  entryHashOf line := (Json.parse line).map fun value =>
    ((value.get (ascii "entryHash")).bind Json.asStr).bind utf8Text
  uuidText := printNat
  directory := "audit"

theorem sampleExport_lawful : LawfulExport sampleExport where
  oneLine _ _ := newline_not_mem_print _
  notBlank _ _ := isBlank_print_obj _
  readBack record hash := by
    show (Json.parse (exportJson record hash).print).map _ = _
    rw [parse_print, Option.map_some]
    have hget : (exportJson record hash).get (ascii "entryHash") =
        some (.str (utf8Bytes hash)) := rfl
    rw [hget]
    simp [Json.asStr, utf8Text_utf8Bytes]

theorem tableOk_sampleRows : TableOk (sampleRows 1 2) where
  ordered := by decide
  inRange row hrow := by
    rcases List.mem_cons.1 hrow with rfl | hrow
    · exact ⟨by decide, by decide⟩
    · rw [List.mem_singleton.1 hrow]
      exact ⟨by decide, by decide⟩

/-- An empty directory beside a table of two rows. -/
def sampleExportState : ExportState sampleExport.Metadata := (fun _ => none, sampleRows 1 2)

/-- The two rows. -/
def startedRow : AuditRow sampleExport.Metadata := startedEntry.row sampleAudit 1 none

def revokedRow : AuditRow sampleExport.Metadata :=
  revokedEntry.row sampleAudit 2 (some startedRow.entryHash)

/-- The directory with a further file that holds `row`. -/
def withExport (st : ExportState sampleExport.Metadata) (row : AuditRow sampleExport.Metadata) :
    ExportState sampleExport.Metadata :=
  (update st.1 (exportFilename row.sequence row.sequence)
    (some (.durable (exportLines sampleExport [row]))), st.2)

/-- The directory with the first of the two rows. -/
def sampleExported : ExportState sampleExport.Metadata := withExport sampleExportState startedRow

/-- The directory with both, in two files. -/
def sampleExportedTwice : ExportState sampleExport.Metadata := withExport sampleExported revokedRow

theorem sampleExported_files : sampleExported.1 = update (fun _ => none) (exportFilename 1 1)
    (some (.durable (exportLines sampleExport [startedRow]))) := rfl

theorem sampleExportedTwice_files : sampleExportedTwice.1 = update sampleExported.1
    (exportFilename 2 2) (some (.durable (exportLines sampleExport [revokedRow]))) := rfl

/-- An export of one row, from where the directory ends, writes its file. -/
theorem exec_exportOne {st : ExportState sampleExport.Metadata} (htable : TableOk st.2)
    {fromSequence : Int} {tail : Option String} {row : AuditRow sampleExport.Metadata}
    (htail : Exec (exportSem sampleExport.Metadata) (existingExportTail sampleExport).run
      st (.done (.ok (fromSequence, tail)) st))
    (hselect : selectWindow st.2 fromSequence 1 = [row])
    (hverify : verifyChain sampleExport.toAuditEnv [row] fromSequence tail = .ok ())
    (hne : exportTemporary sampleExport (exportFilename row.sequence row.sequence) 0 ≠
      exportFilename row.sequence row.sequence)
    (hnew : st.1 (exportFilename row.sequence row.sequence) = none)
    (htemporary : st.1 (exportTemporary sampleExport
      (exportFilename row.sequence row.sequence) 0) = none) :
    ExportStep sampleExport st (withExport st row) := by
  have hfetch : Exec (exportSem sampleExport.Metadata) (fetchWindow sampleExport fromSequence 1).run
      st (.done (.ok [row]) st) := by
    refine .call ⟨.refl htable, rfl, rfl⟩ ?_
    rw [hselect]
    exact .ret _ _
  have hchecked : Exec (exportSem sampleExport.Metadata) (ExportM.ofFile (.ofExcept (verifyChain
      sampleExport.toAuditEnv [row] fromSequence tail)) : ExportM sampleExport _).run
      st (.done (.ok ()) st) := by
    rw [hverify]
    exact exec_ofFile htable (.ret _ _)
  have hwrite : Exec (fileSem (fun _ => False) LosesUnsynced) (writeExport sampleExport
      (exportFilename row.sequence row.sequence) (exportLines sampleExport [row]) 0).run
      st.1 (.done (.ok ()) (withExport st row).1) :=
    exec_bind_ok (exec_adapt_ok _ (exec_writeNewFile _ hne hnew htemporary))
      (exec_bind_ok (exec_act rfl) (exec_bind_ok (exec_attempt rfl) (.ret _ _)))
  have hexec : Exec (exportSem sampleExport.Metadata) (exportAuditChain sampleExport 1 0).run st
      (.done (.ok ⟨fromSequence, row.sequence, 1, hexEncode row.entryHash⟩) (withExport st row)) :=
    exec_bind_ok (exec_ofFile htable (exec_act rfl)) (exec_bind_ok htail (exec_bind_ok hfetch
      (exec_bind_ok hchecked (exec_bind_ok (exec_ofFile htable hwrite) (.ret _ _)))))
  exact .inr ⟨1, 0, _, hexec, rfl⟩

/-- The first export finds no file. -/
theorem exportStep_first : ExportStep sampleExport sampleExportState sampleExported := by
  have htail : Exec (exportSem sampleExport.Metadata) (existingExportTail sampleExport).run
      sampleExportState (.done (.ok (0, none)) sampleExportState) :=
    exec_bind_ok (.call ⟨.refl tableOk_sampleRows, rfl, [], by simp [sampleExportState], rfl⟩
      (.ret _ _)) (exec_bind_ok (exec_ofFile tableOk_sampleRows (.ret _ _)) (.ret _ _))
  exact exec_exportOne tableOk_sampleRows htail
    (selectWindow_endSequence (show TableOk ([] ++ sampleRows 1 2) from tableOk_sampleRows) 1)
    (by decide +kernel) (by decide) rfl rfl

/-- The second export takes the range from the name of the first file and
the hash from its last record. -/
theorem exportStep_second : ExportStep sampleExport sampleExported sampleExportedTwice := by
  have hnames (name : Bytes) : name ∈ [exportFilename 1 1] ↔ sampleExported.1 name ≠ none := by
    rw [List.mem_singleton, sampleExported_files]
    grind
  have hscanned : Exec (exportSem sampleExport.Metadata) (ExportM.ofFile (.ofExcept
      (scanEntries 0 none [exportFilename 1 1])) : ExportM sampleExport _).run
      sampleExported (.done (.ok (some (1, exportFilename 1 1))) sampleExported) := by
    rw [show scanEntries 0 none [exportFilename 1 1] = .ok (some (1, exportFilename 1 1)) by
      decide +kernel]
    exact exec_ofFile tableOk_sampleRows (.ret _ _)
  have hhashed : Exec (exportSem sampleExport.Metadata) (ExportM.ofFile (.ofExcept
      (tailHash sampleExport (exportLines sampleExport [startedRow]))) :
        ExportM sampleExport _).run sampleExported
      (.done (.ok (hexEncode startedRow.entryHash)) sampleExported) := by
    rw [tailHash_exportLines sampleExport_lawful
      (show [startedRow].getLast? = some startedRow from rfl)]
    exact exec_ofFile tableOk_sampleRows (.ret _ _)
  have hread : Exec (fileSem (fun _ => False) LosesUnsynced) (FileM.read (exportFilename 1 1)
      ("read " ++ nameText (exportFilename 1 1))).run sampleExported.1
      (.done (.ok (exportLines sampleExport [startedRow])) sampleExported.1) := by
    have hfile : sampleExported.1 (exportFilename 1 1) =
        some (.durable (exportLines sampleExport [startedRow])) := by
      rw [sampleExported_files, update_self]
    exact File.contents_durable (exportLines sampleExport [startedRow]) ▸ exec_read hfile
  have htail : Exec (exportSem sampleExport.Metadata) (existingExportTail sampleExport).run
      sampleExported (.done (.ok (1, some (hexEncode startedRow.entryHash))) sampleExported) :=
    exec_bind_ok (.call ⟨.refl tableOk_sampleRows, rfl, _, hnames, rfl⟩ (.ret _ _))
      (exec_bind_ok hscanned (exec_bind_ok (exec_ofFile tableOk_sampleRows hread)
        (exec_bind_ok hhashed (.ret _ _))))
  have hnone (name : Bytes) (hname : name ≠ exportFilename 1 1) : sampleExported.1 name = none := by
    rw [sampleExported_files, update_of_ne hname]
  exact exec_exportOne tableOk_sampleRows htail
    (selectWindow_endSequence (show TableOk ([startedRow] ++ [revokedRow]) from
      tableOk_sampleRows) 1)
    (by decide +kernel) (by decide) (hnone _ (by decide)) (hnone _ (by decide))

/-- The two rows are exported one by one, and the second file links to the
first. -/
theorem exports_partition_chain_sample :
    Relation.ReflTransGen (ExportStep sampleExport) sampleExportState sampleExportedTwice ∧
      ∃ batch later rest,
        ExportedFiles sampleExport sampleExportedTwice.1 (batch :: later :: rest) ∧
        (batch :: later :: rest).flatten = sampleExportedTwice.2.filter (fun row =>
          decide (row.sequence ≤ endSequence (batch :: later :: rest).flatten)) ∧
        ∃ last ∈ batch.getLast?, ∃ first ∈ later.head?,
          first.previousHash = some last.entryHash := by
  have hrun : Relation.ReflTransGen (ExportStep sampleExport) sampleExportState
      sampleExportedTwice := .tail (.single exportStep_first) exportStep_second
  obtain ⟨batches, hfiles, hrows, hlink⟩ :=
    exports_partition_chain sampleExport_lawful tableOk_sampleRows (fun _ _ => rfl) hrun
  -- both files are there, so there are two batches
  have hne : exportFilename 1 1 ≠ exportFilename 2 2 := by decide
  have hsome1 : sampleExportedTwice.1 (exportFilename 1 1) ≠ none := by
    rw [sampleExportedTwice_files, update_of_ne hne, sampleExported_files, update_self]
    exact Option.some_ne_none _
  have hsome2 : sampleExportedTwice.1 (exportFilename 2 2) ≠ none := by
    rw [sampleExportedTwice_files, update_self]
    exact Option.some_ne_none _
  obtain ⟨b1, hb1, hname1⟩ := hfiles.only (exportFilename 1 1) (by decide) hsome1
  obtain ⟨b2, hb2, hname2⟩ := hfiles.only (exportFilename 2 2) (by decide) hsome2
  rcases batches with _ | ⟨batch, _ | ⟨later, rest⟩⟩
  · cases hb1
  · grind
  · exact ⟨hrun, batch, later, rest, hfiles, hrows, hlink [] batch later rest rfl⟩

end Centrald.Proofs
