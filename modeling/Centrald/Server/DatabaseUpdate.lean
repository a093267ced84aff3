import Centrald.Server.ConfigLock

/-!
# `Centrald.Server.DatabaseUpdate`: the database update transaction

The model of `DatabaseUpdateTransaction` and of its recovery
(`config_lock.rs` of `centrald-server`). An update gives the environment
file and the configuration new bytes. Both are staged first, then a
journal is written, and from there on `commit` or a recovery publishes
what is staged.

As in `Centrald.Server.ConfigLock`, each function is a file program that
runs under the lock of the configuration, and `reject_unsafe_existing`
has no counterpart. The environment file is known by its path, which the
journal keeps.
-/

set_option autoImplicit false

namespace Centrald.Server.DatabaseUpdate

open Durable Common

/-- The two files of an update, the three files of its transaction, and
the siblings by way of which files are written. -/
inductive DatabaseFile where
  | config
  | environment (path : String)
  | journal
  | environmentStage
  | configStage
  | temporary (id : Uuid)
  deriving DecidableEq

/-- The journal of a database update, which changes two files. -/
structure DatabaseUpdateJournal where
  version : Nat
  configPath : String
  environmentPath : String
  intendedRevision : String

/-- What these functions take from elsewhere: the path of the
configuration, SHA-256, the JSON text of a journal, and the texts that
errors show. -/
structure DatabaseEnv where
  configPath : String
  sha256 : Bytes → Bytes
  encodeJournal : DatabaseUpdateJournal → Bytes
  decodeJournal : Bytes → Option DatabaseUpdateJournal
  display : DatabaseFile → String
  displayParent : DatabaseFile → String
  displayError : SecureFileError → String

/-- Database update programs. -/
abbrev DatabaseM (α : Type) := FileM String DatabaseFile α

variable (env : DatabaseEnv)

def revision (bytes : Bytes) : String := hexEncode (env.sha256 bytes)

def syncParent (path : DatabaseFile) : DatabaseM Unit :=
  FileM.act .metadata ("sync settings directory " ++ env.displayParent path)

def publishDatabaseStage (stage destination : DatabaseFile) : DatabaseM Unit :=
  FileM.act (.rename stage destination)
    ("publish database update " ++ env.display destination ++ " from " ++ env.display stage)

/-- The journal is removed at the end of a commit and of a recovery. -/
def removeJournal : DatabaseM Unit :=
  FileM.act (.remove .journal) ("remove database update journal " ++ env.display .journal)

/-- A stage without a journal is removed. -/
def removeOrphan (stage : DatabaseFile) : DatabaseM Unit := do
  if ← FileM.stat stage then
    FileM.act (.remove stage) ("remove orphan database stage " ++ env.display stage)
  else return ()

/-- The journal, read and parsed. -/
def readJournal : DatabaseM DatabaseUpdateJournal := do
  let raw ← FileM.read .journal ("read database update journal " ++ env.display .journal)
  match env.decodeJournal raw with
  | some journal => return journal
  | none => throw "parse database update journal"

/-- The part of the recovery that publishes the environment file. -/
def recoverEnvironment (journal : DatabaseUpdateJournal) : DatabaseM Unit := do
  if ← FileM.stat .environmentStage then
    publishDatabaseStage env .environmentStage (.environment journal.environmentPath)
    syncParent env (.environment journal.environmentPath)
  else if ← FileM.stat (.environment journal.environmentPath) then return ()
  else throw "database update lost both its staged and published environment file"

/-- The part of the recovery that publishes the configuration. -/
def recoverConfig (journal : DatabaseUpdateJournal) : DatabaseM Unit := do
  if ← FileM.stat .configStage then
    publishDatabaseStage env .configStage .config
    syncParent env .config
  else
    let current ← FileM.read .config ("read recovered configuration " ++ env.display .config)
    if revision env current ≠ journal.intendedRevision then
      throw "database update lost its staged configuration before publication completed"
    else return ()

def recoverInterruptedDatabaseUpdateLocked : DatabaseM Unit := do
  if ← FileM.stat .journal then
    let journal ← readJournal env
    if journal.version ≠ 1 ∨ journal.configPath ≠ env.configPath then
      throw "database update journal does not belong to this server configuration"
    else
      FileM.ofExcept (ConfigLock.validateRevision journal.intendedRevision)
      recoverEnvironment env journal
      recoverConfig env journal
      removeJournal env
      syncParent env .config
  else
    [DatabaseFile.environmentStage, .configStage].forM (removeOrphan env)
    syncParent env .config

/-- A file of an unfinished update stops the next one. -/
def rejectUnfinished (path : DatabaseFile) : DatabaseM Unit := do
  if ← FileM.stat path then
    throw ("unfinished database update artifact exists: " ++ env.display path)
  else return ()

/-- The step of `begin_locked` that stages the configuration. If it fails,
the environment stage is removed. -/
def writeConfigStage (configContents : Bytes) (id : Uuid) : DatabaseM Unit := do
  match ← FileM.result (writeNewFile .configStage (.temporary id) configContents) with
  | .error error =>
    let _ ← FileM.attempt (.remove .environmentStage)
    throw (env.displayError error)
  | .ok () => return ()

/-- The step of `begin_locked` that writes the journal. If it fails, both
stages are removed. -/
def writeJournal (environmentPath : String) (configContents : Bytes) (id : Uuid) :
    DatabaseM Unit := do
  let journal : DatabaseUpdateJournal :=
    ⟨1, env.configPath, environmentPath, revision env configContents⟩
  match ← FileM.result (writeNewFile .journal (.temporary id) (env.encodeJournal journal)) with
  | .error error =>
    let _ ← FileM.attempt (.remove .environmentStage)
    let _ ← FileM.attempt (.remove .configStage)
    throw (env.displayError error)
  | .ok () => return ()

/-- The steps of `begin_locked` that write the files of the transaction. -/
def writeTransactionFiles (environmentPath : String) (environmentContents configContents : Bytes)
    (ids : Nat → Uuid) : DatabaseM Unit := do
  ExceptT.adapt env.displayError
    (writeNewFile .environmentStage (.temporary (ids 0)) environmentContents)
  writeConfigStage env configContents (ids 1)
  writeJournal env environmentPath configContents (ids 2)
  syncParent env .config

/-- `DatabaseUpdateTransaction::begin_locked`. It draws three identifiers. -/
def beginLocked (environmentPath : String) (environmentContents configContents : Bytes)
    (ids : Nat → Uuid) : DatabaseM Unit := do
  recoverInterruptedDatabaseUpdateLocked env
  [DatabaseFile.journal, .environmentStage, .configStage].forM (rejectUnfinished env)
  if ← FileM.stat (.environment environmentPath) then
    writeTransactionFiles env environmentPath environmentContents configContents ids
  else
    throw ("database environment file is missing: " ++ env.display (.environment environmentPath))

/-- `DatabaseUpdateTransaction::commit`. -/
def commit (environmentPath : String) : DatabaseM Unit := do
  publishDatabaseStage env .environmentStage (.environment environmentPath)
  syncParent env (.environment environmentPath)
  publishDatabaseStage env .configStage .config
  syncParent env .config
  removeJournal env
  syncParent env .config

/-- The transaction of an update of the database settings. -/
def updateDatabase (environmentPath : String) (environmentContents configContents : Bytes)
    (ids : Nat → Uuid) : DatabaseM Unit := do
  beginLocked env environmentPath environmentContents configContents ids
  commit env environmentPath

end Centrald.Server.DatabaseUpdate
