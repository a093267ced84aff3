import Centrald.Common.TornTail
import Centrald.Durable.Decimal
import Centrald.Server.AuditTransactions

/-!
# `Centrald.Server.AuditExport`: exports of the audit chain

The model of `export_audit_chain` and of the functions it calls
(`audit_export.rs` of `centrald-server`), as a program over the files of
the export directory and the table `audit_entries`. `verify_chain` is in
`Centrald.Server.Audit`.

File names are byte strings. `prepare_export_directory` checks the
directory and its owner and is an operation on metadata here. The JSON
text of an exported record and the reader of its `entryHash` belong to
`ExportEnv`.
-/

set_option autoImplicit false

namespace Centrald.Server

open Durable Common

/-- What an export takes from elsewhere, beside the audit functions. -/
structure ExportEnv extends AuditEnv where
  /-- The JSON text of a canonical record with the field `entryHash`. -/
  exportRecord : CanonicalRecord Metadata → String → Bytes
  /-- The field `entryHash` of a JSON text, if it is one. -/
  entryHashOf : Bytes → Option (Option String)
  /-- The text of an identifier. -/
  uuidText : Uuid → Bytes
  /-- The directory as errors show it. -/
  directory : String

/-! ### File names -/

def exportFilePrefix : Bytes := ascii "centrald-audit-"

def exportFileSuffix : Bytes := ascii ".jsonl"

def maxExportDirectoryEntries : Nat := 4096

def maxBatchEntries : Nat := 50000

/-- A name as errors show it. -/
def nameText (name : Bytes) : String := (utf8Text name).getD ""

def parseExportRange (range : Bytes) : Except String (Int × Int) :=
  match splitOnce 45 range with
  | none => .error "invalid audit export filename"
  | some (fromText, toText) =>
    match parseI64 fromText with
    | none => .error "invalid audit export from sequence"
    | some first =>
      match parseI64 toText with
      | none => .error "invalid audit export to sequence"
      | some last =>
        if last < first ∨ first ≤ 0 ∨ last ≤ 0 then
          .error s!"invalid audit export sequence range {first}-{last}"
        else .ok (first, last)

/-- The name of the file with the rows `first` to `last`. -/
def exportFilename (first last : Int) : Bytes :=
  exportFilePrefix ++ (printInt first ++ 45 :: printInt last) ++ exportFileSuffix

/-- A name that the scan of the directory looks at. -/
def IsExportName (name : Bytes) : Prop := exportFilePrefix <+: name ∧ exportFileSuffix <:+ name

instance (name : Bytes) : Decidable (IsExportName name) := inferInstanceAs (Decidable (_ ∧ _))

/-- What stands between the two fixed parts of a name. -/
def rangeOf (name : Bytes) : Bytes :=
  (name.drop exportFilePrefix.length).take
    (name.length - exportFileSuffix.length - exportFilePrefix.length)

/-- One round of the loop of `existing_export_tail`: the largest last
sequence so far and its file, after `entries` other entries. -/
def scanEntry (entries : Nat) (newest : Option (Int × Bytes)) (name : Bytes) :
    Except String (Option (Int × Bytes)) :=
  if entries + 1 > maxExportDirectoryEntries then
    .error s!"audit export directory contains more than {maxExportDirectoryEntries} entries"
  else if IsExportName name then
    match parseExportRange (rangeOf name) with
    | .error _ => .error s!"invalid audit export filename {nameText name}"
    | .ok (_, last) =>
      if newest.all fun best => decide (best.1 < last) then .ok (some (last, name)) else .ok newest
  else .ok newest

/-- The loop over the entries of the directory. -/
def scanEntries : Nat → Option (Int × Bytes) → List Bytes → Except String (Option (Int × Bytes))
  | _, newest, [] => .ok newest
  | entries, newest, name :: rest =>
    match scanEntry entries newest name with
    | .error error => .error error
    | .ok newest => scanEntries (entries + 1) newest rest

/-! ### The program -/

/-- The operations of an export. -/
inductive ExportOp where
  /-- An operation on a file of the directory. -/
  | file (op : FileOp Bytes)
  | readDir
  /-- The query of `fetch_window`. -/
  | fetchWindow (fromSequence : Int) (limit : Nat)

/-- Their replies. -/
inductive ExportReply (μ : Type) where
  | file (reply : FileReply)
  | entries (names : List Bytes)
  | rows (rows : List (AuditRow μ))
  | failed

def ExportReply.toFile {μ : Type} : ExportReply μ → FileReply
  | .file reply => reply
  | _ => .failed .other

variable (env : ExportEnv)

/-- Export programs. -/
abbrev ExportM (α : Type) := ExceptT String (Prog ExportOp (ExportReply env.Metadata)) α

variable {env} in
/-- A file program as a part of an export. -/
def ExportM.ofFile {α : Type} (p : FileM String Bytes α) : ExportM env α :=
  ExceptT.mk (p.run.lift .file ExportReply.toFile)

/-- The names in the directory, in any order. -/
def readDir : ExportM env (List Bytes) :=
  ExceptT.mk (.call .readDir fun reply => .ret (match reply with
    | .entries names => .ok names
    | _ => .error ("read audit export directory " ++ env.directory)))

def fetchWindow (fromSequence : Int) (limit : Nat) : ExportM env (List (AuditRow env.Metadata)) :=
  ExceptT.mk (.call (.fetchWindow fromSequence limit) fun reply => .ret (match reply with
    | .rows rows => .ok rows
    | _ => .error "read audit chain window"))

/-- `SELECT … WHERE sequence > $1 ORDER BY sequence LIMIT $2`. -/
def selectWindow {μ : Type} (rows : List (AuditRow μ)) (fromSequence : Int) (limit : Nat) :
    List (AuditRow μ) :=
  (inSequenceOrder (rows.filter fun row => decide (fromSequence < row.sequence))).take limit

/-- The hash in the last record of an exported file. -/
def tailHash (raw : Bytes) : Except String String :=
  match (recordLines raw).getLast? with
  | none => .error "newest audit export file is empty"
  | some line =>
    match env.entryHashOf line with
    | none => .error "parse newest audit export tail record"
    | some none => .error "newest audit export tail record has no entryHash"
    | some (some hash) => .ok hash

def existingExportTail : ExportM env (Int × Option String) := do
  let names ← readDir env
  match ← ExportM.ofFile (.ofExcept (scanEntries 0 none names)) with
  | none => return (0, none)
  | some (last, path) =>
    let raw ← ExportM.ofFile (.read path ("read " ++ nameText path))
    let hash ← ExportM.ofFile (.ofExcept (tailHash env raw))
    return (last, some hash)

/-- The bytes of an exported file. -/
def exportLines (rows : List (AuditRow env.Metadata)) : Bytes :=
  rows.flatMap fun row =>
    env.exportRecord (canonicalRecord env.toAuditEnv row) (hexEncode row.entryHash) ++ [newline]

/-- The sibling by way of which `write_new_file` creates a file. -/
def exportTemporary (filename : Bytes) (id : Uuid) : Bytes :=
  ascii "." ++ filename ++ ascii ".centrald-tmp-" ++ env.uuidText id

/-- What one export reports of the rows that it wrote. -/
structure AuditExportSummary where
  exportedFrom : Int
  exportedTo : Int
  exportedCount : Nat
  tailHash : String

/-- The file program that writes a batch. -/
def writeExport (filename : Bytes) (contents : Bytes) (id : Uuid) : FileM String Bytes Unit := do
  ExceptT.adapt (fun _ => "write audit export " ++ nameText filename)
    (writeNewFile filename (exportTemporary env filename id) contents)
  -- `set_permissions`
  FileM.act .metadata "set_permissions"
  -- the directory sync, whose result is not looked at
  let _ ← FileM.attempt .metadata

/-- `export_audit_chain`. The identifier is the one that
`write_new_file` draws. -/
def exportAuditChain (maxEntries : Nat) (id : Uuid) : ExportM env AuditExportSummary := do
  let limit := max 1 (min maxEntries maxBatchEntries)
  -- `prepare_export_directory`
  ExportM.ofFile (.act .metadata "prepare audit export directory")
  let (fromSequence, tail) ← existingExportTail env
  let rows ← fetchWindow env fromSequence limit
  match rows.head?, rows.getLast? with
  | some first, some last =>
    ExportM.ofFile (.ofExcept (verifyChain env.toAuditEnv rows fromSequence tail))
    ExportM.ofFile (writeExport env (exportFilename first.sequence last.sequence)
      (exportLines env rows) id)
    return ⟨fromSequence, last.sequence, rows.length, hexEncode last.entryHash⟩
  | _, _ => return ⟨fromSequence, fromSequence, 0, tail.getD ""⟩

end Centrald.Server
