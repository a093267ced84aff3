import Centrald.Common.TornTail
import Centrald.Server.Audit

/-!
# `Centrald.Server.ConfigLock`: the settings update transaction

The model of `SettingsUpdateTransaction` and of its recovery
(`config_lock.rs` of `centrald-server`), and of the part of
`update_server_settings` (`services.rs`) that uses them. All of it runs
under the exclusive lock of the configuration, so these programs do not
interleave.

Each function is a file program, operation by operation.
`reject_unsafe_existing` has no counterpart: the file systems of
`Durable.FileSystem` hold regular files only. The functions that create
files take the identifiers that `Uuid::now_v7` returns. The final audit
entry goes to the database, so its result is a parameter of
`updateServerSettings`.
-/

set_option autoImplicit false

namespace Centrald.Server.ConfigLock

open Durable Common

/-- The configuration, the three files of a settings transaction, and
the siblings by way of which files are written. -/
inductive SettingsFile where
  | config
  | journal
  | original
  | published
  | temporary (id : Uuid)
  | replacement (id : Uuid)
  deriving DecidableEq

/-- The journal of a settings update, written before the first file
changes. -/
structure SettingsUpdateJournal where
  version : Nat
  configPath : String
  intendedRevision : String

/-- What these functions take from elsewhere: the path of the
configuration, SHA-256, the JSON text of a journal, and the texts that
errors show. -/
structure SettingsEnv where
  configPath : String
  sha256 : Bytes → Bytes
  encodeJournal : SettingsUpdateJournal → Bytes
  decodeJournal : Bytes → Option SettingsUpdateJournal
  display : SettingsFile → String
  displayParent : String
  displayError : SecureFileError → String

/-- Settings programs. -/
abbrev SettingsM (α : Type) := FileM String SettingsFile α

variable (env : SettingsEnv)

def revision (bytes : Bytes) : String := hexEncode (env.sha256 bytes)

/-- `u8::is_ascii_hexdigit`. -/
def isAsciiHexdigit (b : UInt8) : Bool :=
  (48 ≤ b && b ≤ 57) || (97 ≤ b && b ≤ 102) || (65 ≤ b && b ≤ 70)

def validateRevision (value : String) : Except String Unit :=
  if (utf8Bytes value).length ≠ 64 ∨ (utf8Bytes value).all isAsciiHexdigit = false then
    .error "settings update revision is not a SHA-256 digest"
  else .ok ()

def syncParent : SettingsM Unit :=
  FileM.act .metadata ("sync settings directory " ++ env.displayParent)

def removeIfExists (path : SettingsFile) : SettingsM Unit := do
  match ← FileM.attempt (.remove path) with
  | .done => return ()
  | .failed .notFound => return ()
  | _ => throw ("remove " ++ env.display path)

def cleanupTransactionFiles : SettingsM Unit :=
  [SettingsFile.published, .journal, .original].forM (removeIfExists env)

def readJournal : SettingsM SettingsUpdateJournal := do
  let raw ← FileM.read .journal ("read settings update journal " ++ env.display .journal)
  match env.decodeJournal raw with
  | some journal => return journal
  | none => throw "parse settings update recovery journal"

def restoreOriginal (replacementId temporaryId : Uuid) : SettingsM Unit := do
  let original ← FileM.read .original ("read settings recovery copy " ++ env.display .original)
  ExceptT.adapt (fun _ => "restore server settings " ++ env.display .config)
    (replaceFileAtomically .config (.replacement replacementId) (.temporary temporaryId) original)

/-- The recovery without a journal: a publication marker tells a
committed update whose files are still to be removed. -/
def recoverWithoutJournal : SettingsM Unit := do
  if ← FileM.stat .published then
    let marker ← FileM.readToString .published
      ("read committed settings publication marker " ++ env.display .published)
    FileM.ofExcept (validateRevision marker)
    let current ← FileM.read .config ("read current settings " ++ env.display .config)
    if revision env current ≠ marker then
      throw "committed settings cleanup marker does not match the current configuration"
    else
      removeIfExists env .original
      removeIfExists env .published
      syncParent env
  else if ← FileM.stat .original then
    FileM.act (.remove .original)
      ("remove orphan settings recovery copy " ++ env.display .original)
    syncParent env
  else return ()

/-- The intended bytes are published: the marker names them and the
configuration has them. -/
def isPublished (journal : SettingsUpdateJournal) : SettingsM Bool := do
  if ← FileM.stat .published then
    let marker ← FileM.readToString .published
      ("read settings publication marker " ++ env.display .published)
    let current ← FileM.read .config ("read current settings " ++ env.display .config)
    return marker == journal.intendedRevision &&
      revision env current == journal.intendedRevision
  else return false

def recoverInterruptedSettingsUpdateLocked (replacementId temporaryId : Uuid) :
    SettingsM Unit := do
  if ← FileM.stat .journal then
    let journal ← readJournal env
    if journal.version ≠ 1 ∨ journal.configPath ≠ env.configPath then
      throw "settings update journal does not belong to this server configuration"
    else
      FileM.ofExcept (validateRevision journal.intendedRevision)
      if ← FileM.stat .original then
        if ← isPublished env journal then
          cleanupTransactionFiles env
          syncParent env
        else
          restoreOriginal env replacementId temporaryId
          cleanupTransactionFiles env
          syncParent env
      else
        throw "settings update journal is missing its original configuration copy"
  else recoverWithoutJournal env

/-- A file of an unfinished update stops the next one. -/
def rejectUnfinished (path : SettingsFile) : SettingsM Unit := do
  if ← FileM.stat path then
    throw ("unfinished settings update artifact exists: " ++ env.display path)
  else return ()

/-- `SettingsUpdateTransaction::begin_locked`. It draws four identifiers. -/
def beginLocked (original : Bytes) (intendedRevision : String) (ids : Nat → Uuid) :
    SettingsM Unit := do
  recoverInterruptedSettingsUpdateLocked env (ids 0) (ids 1)
  FileM.ofExcept (validateRevision intendedRevision)
  [SettingsFile.journal, .original, .published].forM (rejectUnfinished env)
  ExceptT.adapt (fun _ => "write settings recovery copy " ++ env.display .original)
    (writeNewFile .original (.temporary (ids 2)) original)
  let journal : SettingsUpdateJournal := ⟨1, env.configPath, intendedRevision⟩
  match ← FileM.result (writeNewFile .journal (.temporary (ids 3)) (env.encodeJournal journal)) with
  | .ok () => syncParent env
  | .error _ =>
    let _ ← FileM.attempt (.remove .original)
    throw ("write settings update journal " ++ env.display .journal)

/-- `SettingsUpdateTransaction::mark_published`. -/
def markPublished (id : Uuid) : SettingsM Unit := do
  let current ← FileM.read .config ("read published settings " ++ env.display .config)
  let journal ← readJournal env
  if revision env current ≠ journal.intendedRevision then
    throw "published settings revision does not match the update journal"
  else
    ExceptT.adapt (fun _ => "write settings publication marker " ++ env.display .published)
      (writeNewFile .published (.temporary id) (utf8Bytes (revision env current)))
    syncParent env

/-- `SettingsUpdateTransaction::complete`. -/
def complete : SettingsM Unit := do
  removeIfExists env .journal
  syncParent env
  removeIfExists env .original
  removeIfExists env .published
  syncParent env

def rollbackSettingsUpdateLocked (replacementId temporaryId : Uuid) : SettingsM Unit := do
  if ← FileM.stat .journal then
    restoreOriginal env replacementId temporaryId
    cleanupTransactionFiles env
    syncParent env
  else throw "settings update rollback journal is missing"

def settingsUpdateFailure (operation error : String) (rollback : Except String Unit) : String :=
  match rollback with
  | .ok () =>
    s!"server settings update failed during {operation} and was rolled back: {error}"
  | .error rollbackError =>
    s!"server settings update failed during {operation}; rollback also failed: {error}; " ++
      rollbackError

/-- Roll back and report what failed. -/
def failSettingsUpdate (operation error : String) (ids : Nat → Uuid) : SettingsM Unit := do
  let rollback ← FileM.result (rollbackSettingsUpdateLocked env (ids 7) (ids 8))
  throw (settingsUpdateFailure operation error rollback)

/-- The text of `internal`. -/
def internalError : String := "internal server error"

/-- The steps of `update_server_settings` from the final audit entry on. -/
def finishSettingsUpdate (finalAudit : Except String Unit) (ids : Nat → Uuid) :
    SettingsM Unit := do
  match finalAudit with
  | .error error => failSettingsUpdate env "append final audit entry" error ids
  | .ok () =>
    match ← FileM.result (complete env) with
    | .ok () => return ()
    | .error error =>
      ExceptT.adapt (fun recoveryError =>
          s!"server settings were committed, but recovery cleanup failed: {error}; " ++
            s!"reconciliation also failed: {recoveryError}")
        (recoverInterruptedSettingsUpdateLocked env (ids 9) (ids 10))

/-- The steps of `update_server_settings` from the read of the current
configuration on. `serialized` is the new configuration and
`finalAudit` the result of appending the final audit entry. -/
def updateServerSettings (serialized : Bytes) (finalAudit : Except String Unit)
    (ids : Nat → Uuid) : SettingsM Unit := do
  let original ← FileM.read .config internalError
  ExceptT.adapt (fun _ => internalError)
    (beginLocked env original (revision env serialized) ids)
  match ← FileM.result (replaceFileAtomically .config (.replacement (ids 4)) (.temporary (ids 5))
      serialized) with
  | .error error => failSettingsUpdate env "publish configuration" (env.displayError error) ids
  | .ok () =>
    match ← FileM.result (markPublished env (ids 6)) with
    | .error error => failSettingsUpdate env "mark configuration published" error ids
    | .ok () => finishSettingsUpdate env finalAudit ids

end Centrald.Server.ConfigLock
