import Centrald.Common.SecureFs

/-!
# `Centrald.Common.TornTail`: the torn-tail recovery of the two journals

The broker ledger (`centrald-client`, `ledger.rs`) and the local audit
journal (`centrald-server`, `local_audit.rs`) each have a function
`recover_torn_final_record`. The two differ in the texts of their
errors and in the name of the quarantine file; this module holds the
routine they share. It reads the journal and returns it when no record
is cut. Otherwise it keeps the torn bytes in a quarantine file, opens
the journal with truncation, writes the committed part back and syncs.
-/

set_option autoImplicit false

namespace Centrald.Common

open Durable

/-- A generated identifier. -/
abbrev Uuid := Nat

/-- The files of a journal's directory. The names of quarantine files
and of temporary files carry a fresh identifier. -/
inductive JournalFile where
  | journal
  | quarantine (id : Uuid)
  | temporary (id : Uuid)
  deriving DecidableEq

/-- The texts in which the two recovery functions differ. -/
structure JournalTexts where
  /-- Context of a failed read. -/
  readContext : String
  /-- Context of a failed write of the quarantine file. -/
  preserveContext : String
  /-- Context of a failed truncating open. -/
  truncateContext : String

/-- The shared body of the two `recover_torn_final_record`. The result
is the journal's bytes after the recovery. -/
def recoverTornTail (texts : JournalTexts) (display : JournalFile → String)
    (quarantineId temporaryId : Uuid) : FileM String JournalFile Bytes := do
  let raw ← FileM.read .journal (texts.readContext ++ display .journal)
  if Terminated raw then
    return raw
  else
    let complete := committedPart raw
    let tail := tornTail raw
    ExceptT.adapt (fun _ => texts.preserveContext ++ display (.quarantine quarantineId))
      (writeNewFile (.quarantine quarantineId) (.temporary temporaryId) tail)
    FileM.act (.openTruncate .journal) (texts.truncateContext ++ display .journal)
    FileM.act (.write .journal complete) "write_all"
    FileM.act (.sync .journal) "sync_all"
    -- the directory sync
    FileM.act .metadata "sync_all"
    return complete

end Centrald.Common
