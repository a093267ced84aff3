import Centrald.Common.TornTail

/-!
# `Centrald.Server.LocalAudit`: the server's local audit journal

Root commands that run without the database append to a journal of
newline-terminated records; the server reads it back when it starts.
The reader first recovers from a torn final record.
-/

set_option autoImplicit false

namespace Centrald.Server.LocalAudit

open Durable Common

/-- The texts of the local audit journal's recovery. -/
def localAuditTexts : JournalTexts where
  readContext := "read local audit journal "
  preserveContext := "preserve torn final local audit record at "
  truncateContext := "truncate torn local audit tail in "

/-- `recover_torn_final_record` of `local_audit.rs`. -/
def recoverTornFinalRecord (display : JournalFile → String) (quarantineId temporaryId : Uuid) :
    FileM String JournalFile Bytes :=
  recoverTornTail localAuditTexts display quarantineId temporaryId

end Centrald.Server.LocalAudit
