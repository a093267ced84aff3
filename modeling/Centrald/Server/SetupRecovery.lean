import Centrald.Common.Text
import Centrald.Durable.Machine

/-!
# `Centrald.Server.SetupRecovery`: an external setup and its clean-up

The model of `setup_recovery.rs` for a setup with an external database,
with the parts of `initial_setup` (`main.rs`), `initialize`
(`setup.rs`) and `ensure_database_and_migrate` (`db.rs`) that it undoes.

One setup runs, with one instance identifier. It may end at any point,
and then any number of clean-ups follow. The setup lock is held while
the setup runs, and so no clean-up of another process meets a live
owner. Of the files, the journal, the configuration and the environment
file are in the state; the other outputs are only removed. The
environment file is given by its two lines. A clean-up that is cut short
is one whose later operations have failed.
-/

set_option autoImplicit false

namespace Centrald.Server.SetupRecovery

open Durable Common

/-- The options of the setup that name its database. -/
structure SetupOptions where
  instanceId : Nat
  databaseUrlEnv : String
  databaseUrl : String

/-- The phase that the recovery journal records. -/
inductive SetupPhase where
  | provisioning
  | committed
  deriving DecidableEq

/-- The journal that outlives a setup which was interrupted. -/
structure SetupRecoveryJournal where
  phase : SetupPhase
  instanceId : Nat
  databaseName : String
  databaseUrlEnv : String

/-- The first line, and the second line split at its first `=`. -/
structure EnvironmentFile where
  marker : String
  name : String
  url : String

/-- Why the database of a failed setup was not dropped. -/
inductive DatabaseAdminError where
  | missingDatabase (name : String)
  | maintenance
  | drop
  | ownership (message : String)

/-- The text of a UUID, and the name in a URL that `parse_target` and
`reject_protected_database` accept. -/
structure SetupEnv where
  uuidText : Nat → String
  databaseNameFromUrl : String → Option String

/-- How the operations of one clean-up end. PostgreSQL may have dropped
the database and the connection may still fail to close. -/
structure CleanupOutcome where
  readsEnvironment : Bool
  /-- No ambient PostgreSQL variable makes the policy refuse the URL. -/
  acceptsUrl : Bool
  verifies : Bool
  drops : Bool
  closes : Bool
  removesEnvironment : Bool
  removesConfig : Bool
  removesOthers : Bool
  removesJournal : Bool

namespace SetupEnv

variable (env : SetupEnv)

def databaseComment (instanceId : Nat) : String :=
  "centrald-instance:" ++ env.uuidText instanceId

def databaseEnvironmentContents (options : SetupOptions) : EnvironmentFile where
  marker := "# centrald-instance:" ++ env.uuidText options.instanceId
  name := options.databaseUrlEnv
  url := options.databaseUrl

/-- What `begin_setup` writes for the options that `validate_options`
accepts. -/
def beginSetup (options : SetupOptions) : Option SetupRecoveryJournal :=
  if options.databaseUrl.toList.any isWhitespace ∨
      ¬ ("postgres://".toList <+: options.databaseUrl.toList ∨
        "postgresql://".toList <+: options.databaseUrl.toList) ∨
      options.databaseUrlEnv ≠ "CENTRALD_DATABASE_URL" then none
  else (env.databaseNameFromUrl options.databaseUrl).map fun name =>
    ⟨.provisioning, options.instanceId, name, options.databaseUrlEnv⟩

/-- `rollback_setup_database`: the result, and the database afterwards.
A database is its comment. -/
def rollbackSetupDatabase (name : String) (instanceId : Nat) (database : Option (Option String))
    (o : CleanupOutcome) : Except DatabaseAdminError String × Option (Option String) :=
  if o.verifies = false then (.error .maintenance, database)
  else
    match database with
    | none => (.error (.missingDatabase name), database)
    | some none =>
      (.error (.ownership "PostgreSQL database has no CentralD ownership comment"), database)
    | some (some comment) =>
      if comment ≠ env.databaseComment instanceId then
        (.error (.ownership "PostgreSQL database comment belongs to another server instance"),
          database)
      else if o.drops = false then (.error .drop, database)
      else if o.closes = false then (.error .maintenance, none)
      else (.ok name, none)

def cleanupExternalDatabase (journal : SetupRecoveryJournal) (environment : Option EnvironmentFile)
    (database : Option (Option String)) (o : CleanupOutcome) :
    Except String Unit × Option (Option String) :=
  match environment with
  | none => (.ok (), database)
  | some file =>
    if o.readsEnvironment = false then
      (.error "read the environment file for external setup recovery", database)
    else if file.marker ≠ "# centrald-instance:" ++ env.uuidText journal.instanceId then
      (.error "external setup database environment file is not bound to this server instance",
        database)
    else if file.name ≠ journal.databaseUrlEnv ∨ file.url = "" ∨
        file.url.toList.any isWhitespace then
      (.error "external setup database environment assignment is invalid", database)
    else if o.acceptsUrl = false ∨
        env.databaseNameFromUrl file.url ≠ some journal.databaseName then
      (.error "external setup database URL no longer matches the recovery journal", database)
    else
      let (result, after) :=
        env.rollbackSetupDatabase journal.databaseName journal.instanceId database o
      (match result with
        | .ok _ | .error (.missingDatabase _) => .ok ()
        | .error _ => .error "recover external setup database", after)

end SetupEnv

/-! ### The setup and the clean-ups -/

/-- Where `initial_setup` stands. -/
inductive SetupPc where
  | preflighted
  /-- The journal is written. -/
  | begun
  | initialized
  | created
  | commented
  | migrated
  | keyed
  | committed
  /-- `setup_failure` is to roll back. -/
  | failed
  | ended
  deriving DecidableEq

/-- The files and the database. `created` says that the database is the
one that this setup has created, and `committed` that the journal has
been marked as committed. -/
structure SetupState where
  pc : SetupPc
  journal : Option SetupRecoveryJournal
  environment : Option EnvironmentFile
  config : Bool
  database : Option (Option String)
  created : Bool
  committed : Bool

/-- PostgreSQL and the file system may apply an operation and still
report an error. `dropped` is the outcome of `cleanup_new_database`. -/
inductive SetupLabel where
  | beginSetup
  | initializeServer (ok environmentLeft configLeft : Bool)
  | createDatabase (applied replied : Bool)
  | comment (applied replied dropped : Bool)
  | migrate (ok dropped : Bool)
  | createKey (ok : Bool)
  | markCommitted (applied replied : Bool)
  | retireCommitted (removed : Bool)
  | crash
  | rollbackCurrentSetup (o : CleanupOutcome)
  | recoverBeforeInitialSetup (o : CleanupOutcome)
  | resetInterruptedSetupForNuke (o : CleanupOutcome)

namespace SetupState

/-- Before the setup. A database of the name may exist. -/
def start (database : Option (Option String)) : SetupState :=
  ⟨.preflighted, none, none, false, database, false, false⟩

variable (s : SetupState)

def cleanupNewDatabase (dropped : Bool) : SetupState :=
  if dropped then { s with database := none, created := false } else s

/-- `cleanup_abandoned_setup`. The files are removed whether or not the
database is gone. -/
def cleanupAbandonedSetup (env : SetupEnv) (journal : SetupRecoveryJournal) (o : CleanupOutcome) :
    SetupState :=
  let (result, after) := env.cleanupExternalDatabase journal s.environment s.database o
  let environment := if o.removesEnvironment then none else s.environment
  let config := s.config && !o.removesConfig
  let clean := result.isOk && environment.isNone && !config && o.removesOthers
  { s with
    journal := if clean && o.removesJournal then none else s.journal
    environment := environment
    config := config
    database := after
    created := s.created && after.isSome }

/-- `recover_before_initial_setup` and `reset_interrupted_setup_for_nuke`
under the setup lock: both retire a committed journal and clean up after
a setup that is not committed. -/
def recover (env : SetupEnv) (o : CleanupOutcome) : SetupState :=
  match s.pc, s.journal with
  | .ended, some journal =>
    match journal.phase with
    | .committed => if s.config && o.removesJournal then { s with journal := none } else s
    | .provisioning => s.cleanupAbandonedSetup env journal o
  | _, _ => s

end SetupState

/-- The steps of one setup and of the clean-ups after it. -/
def setupSystem (env : SetupEnv) (options : SetupOptions) : Machine SetupState SetupLabel where
  step s
    | .beginSetup =>
      match s.pc, s.journal, env.beginSetup options with
      | .preflighted, none, some journal => some { s with pc := .begun, journal := some journal }
      | _, _, _ => none
    | .initializeServer ok environmentLeft configLeft =>
      if s.pc ≠ .begun then none
      else if ok then some { s with
        pc := .initialized
        environment := some (env.databaseEnvironmentContents options)
        config := true }
      else some { s with
        pc := .failed
        environment :=
          if environmentLeft then some (env.databaseEnvironmentContents options) else none
        config := configLeft }
    | .createDatabase applied replied =>
      if s.pc ≠ .initialized then none
      else if s.database.isSome ∨ applied = false then some { s with pc := .failed }
      else some { s with
        pc := if replied then .created else .failed
        database := some none
        created := true }
    | .comment applied replied dropped =>
      if s.pc ≠ .created then none
      else
        let s' := if applied then
          { s with database := some (some (env.databaseComment options.instanceId)) } else s
        if applied && replied then some { s' with pc := .commented }
        else some ({ s' with pc := .failed }.cleanupNewDatabase dropped)
    | .migrate ok dropped =>
      if s.pc ≠ .commented then none
      else if ok then some { s with pc := .migrated }
      else some ({ s with pc := .failed }.cleanupNewDatabase dropped)
    | .createKey ok =>
      if s.pc ≠ .migrated then none
      else some { s with pc := if ok then .keyed else .failed }
    | .markCommitted applied replied =>
      match s.pc, s.journal with
      | .keyed, some journal =>
        if applied then some { s with
          pc := if replied then .committed else .failed
          journal := some { journal with phase := .committed }
          committed := true }
        else some { s with pc := .failed }
      | _, _ => none
    | .retireCommitted removed =>
      if s.pc ≠ .committed then none
      else some { s with pc := .ended, journal := if removed then none else s.journal }
    | .crash => some { s with pc := .ended }
    | .rollbackCurrentSetup o =>
      match s.pc, s.journal with
      | .failed, some journal =>
        if journal.phase = .provisioning then
          some { s.cleanupAbandonedSetup env journal o with pc := .ended }
        else some { s with pc := .ended }
      | _, _ => none
    | .recoverBeforeInitialSetup o => some (s.recover env o)
    | .resetInterruptedSetupForNuke o => some (s.recover env o)

end Centrald.Server.SetupRecovery
