import Centrald.Proofs.ConfigLock
import Centrald.Server.DatabaseUpdate

/-!
# `Centrald.Proofs.DatabaseUpdate`: a database update that crashes

A database update passes through few states of its named files: both
files old with some of the stages, then the journal, then one file after
the other new. A `Stage` is such a state. Before the journal a recovery
removes the stages, and from the journal on it publishes what is still
staged. Which stages are left tells how far the publication has come, so
a recovery may itself be stopped between any two operations.

`steps_recover` says for every stage where a recovery ends and at which
stages a crash may stop it. `database_update_crash_atomic` puts the runs
together: an update that a crash stops, any number of recoveries, and a
recovery that runs to the end. The update may start where an earlier one
was stopped; its old settings are then those that the recovery at its
head leaves.
-/

set_option autoImplicit false

namespace Centrald.Proofs.DatabaseUpdate

open Durable Common Server Server.DatabaseUpdate Function

/-! ### The files of an update -/

/-- The files with a fixed name, for an environment file at `path`. -/
def databaseFiles (path : String) : Set DatabaseFile := fun x =>
  match x with
  | .environment p => p = path
  | .temporary _ => False
  | _ => True

section Files

variable {path : String}

theorem environment_mem : DatabaseFile.environment path ∈ databaseFiles path := rfl
theorem config_mem : DatabaseFile.config ∈ databaseFiles path := trivial
theorem journal_mem : DatabaseFile.journal ∈ databaseFiles path := trivial
theorem environmentStage_mem : DatabaseFile.environmentStage ∈ databaseFiles path := trivial
theorem configStage_mem : DatabaseFile.configStage ∈ databaseFiles path := trivial

end Files

/-- The siblings whose names carry one of the identifiers. -/
def siblingsOf (ids : Set Uuid) : Set DatabaseFile := fun x =>
  match x with
  | .temporary id => id ∈ ids
  | _ => False

/-- `Steps` on the files with a fixed name, where the identifiers `ids` are new. -/
abbrev DatabaseSteps {ε α : Type} (path : String) (ids : Set Uuid) (v : Fs DatabaseFile Bytes)
    (p : FileM ε DatabaseFile α) (r : Except ε α) (v' : Fs DatabaseFile Bytes)
    (C : Fs DatabaseFile Bytes → Prop) : Prop :=
  Steps (databaseFiles path) (siblingsOf ids) v p r v' C

/-- The bytes of the files with a fixed name. -/
def databaseView (path : String) (environment config journal environmentStage
    configStage : Option Bytes) : Fs DatabaseFile Bytes
  | .environment p => if p = path then environment else none
  | .config => config
  | .journal => journal
  | .environmentStage => environmentStage
  | .configStage => configStage
  | .temporary _ => none

section View

variable {path : String} {e c j es cs : Option Bytes} (x : Option Bytes)

@[simp] theorem databaseView_environment : databaseView path e c j es cs (.environment path) = e :=
  if_pos rfl

@[simp] theorem update_view_environment :
    update (databaseView path e c j es cs) (.environment path) x =
      databaseView path x c j es cs := by
  funext y
  cases y with
  | environment p =>
    by_cases hp : p = path
    · subst hp
      simp
    · have hne : DatabaseFile.environment p ≠ .environment path := fun h => hp (by cases h; rfl)
      rw [update_of_ne hne]
      simp only [databaseView, if_neg hp]
  | _ => rfl

@[simp] theorem update_view_config : update (databaseView path e c j es cs) .config x =
      databaseView path e x j es cs := by
  funext y
  cases y <;> rfl

@[simp] theorem update_view_journal : update (databaseView path e c j es cs) .journal x =
      databaseView path e c x es cs := by
  funext y
  cases y <;> rfl

@[simp] theorem update_view_environmentStage :
    update (databaseView path e c j es cs) .environmentStage x = databaseView path e c j x cs := by
  funext y
  cases y <;> rfl

@[simp] theorem update_view_configStage : update (databaseView path e c j es cs) .configStage x =
      databaseView path e c j es x := by
  funext y
  cases y <;> rfl

end View

/-- What the functions outside the model do: SHA-256 gives 32 bytes, and
the JSON text of a journal reads back. -/
structure LawfulDatabase (env : DatabaseEnv) : Prop where
  digest : ∀ bytes, (env.sha256 bytes).length = 32
  readBack : ∀ journal, env.decodeJournal (env.encodeJournal journal) = some journal

variable {env : DatabaseEnv}

theorem LawfulDatabase.validateRevision (henv : LawfulDatabase env) (bytes : Bytes) :
    ConfigLock.validateRevision (revision env bytes) = .ok () :=
  validateRevision_hexEncode (henv.digest bytes)

/-! ### The parts of the programs -/

section Parts

variable {path : String} {ids : Set Uuid} {v v' : Fs DatabaseFile Bytes}
  {C : Fs DatabaseFile Bytes → Prop}

theorem steps_syncParent (x : DatabaseFile) (hC : C v) :
    DatabaseSteps path ids v (syncParent env x) (.ok ()) v C :=
  .metadata hC

section

variable {x : DatabaseFile} (hx : x ∈ databaseFiles path)
include hx

theorem steps_removeOrphan (hx' : x ∉ siblingsOf ids) (hv' : update v x none = v')
    (hC : C v) (hC' : C v') :
    DatabaseSteps path ids v (removeOrphan env x) (.ok ()) v' C := by
  have hstat : DatabaseSteps path ids v (FileM.stat x : DatabaseM Bool)
      (.ok (v x).isSome) v C := .stat hx hC
  unfold removeOrphan
  cases hv : v x with
  | none =>
    rw [hv] at hstat
    rw [← hv, update_eq_self] at hv'
    exact hstat.bind (hv' ▸ .pure hC)
  | some bytes =>
    rw [hv] at hstat
    exact hstat.bind (.remove_act hx hx' hv hv' hC hC')

theorem steps_rejectUnfinished (hv : v x = none) (hC : C v) :
    DatabaseSteps path ids v (rejectUnfinished env x) (.ok ()) v C := by
  have hstat : DatabaseSteps path ids v (FileM.stat x : DatabaseM Bool)
      (.ok (v x).isSome) v C := .stat hx hC
  rw [hv] at hstat
  exact hstat.bind (.pure hC)

end

end Parts

section Views

variable {path : String} {ids : Set Uuid} {C : Fs DatabaseFile Bytes → Prop}
  {e c j es cs : Option Bytes} {bytes : Bytes}

/-- The environment stage moves over the environment file. -/
theorem steps_publishEnvironment (hC : C (databaseView path e c j (some bytes) cs))
    (hC' : C (databaseView path (some bytes) c j none cs)) :
    DatabaseSteps path ids (databaseView path e c j (some bytes) cs)
      (publishDatabaseStage env .environmentStage (.environment path)) (.ok ())
      (databaseView path (some bytes) c j none cs) C :=
  .rename_act environmentStage_mem id id rfl (by simp) hC hC'

/-- The configuration stage moves over the configuration. -/
theorem steps_publishConfig (hC : C (databaseView path e c j es (some bytes)))
    (hC' : C (databaseView path e (some bytes) j es none)) :
    DatabaseSteps path ids (databaseView path e c j es (some bytes))
      (publishDatabaseStage env .configStage .config) (.ok ())
      (databaseView path e (some bytes) j es none) C :=
  .rename_act configStage_mem id id rfl (by simp) hC hC'

theorem steps_removeJournal (hC : C (databaseView path e c (some bytes) es cs))
    (hC' : C (databaseView path e c none es cs)) :
    DatabaseSteps path ids (databaseView path e c (some bytes) es cs)
      (removeJournal env) (.ok ()) (databaseView path e c none es cs) C :=
  .remove_act journal_mem id rfl (update_view_journal none) hC hC'

end Views

/-! ### The stages of an update -/

/-- What is published: the environment file and the configuration. -/
structure Settings where
  environment : Option Bytes
  config : Option Bytes

/-- An update of the settings `old`. -/
structure Update where
  old : Settings
  newEnvironment : Bytes
  newConfig : Bytes

def Update.new (u : Update) : Settings := ⟨some u.newEnvironment, some u.newConfig⟩

/-- The journal of an update. -/
def Update.journal (env : DatabaseEnv) (path : String) (u : Update) : DatabaseUpdateJournal :=
  ⟨1, env.configPath, path, revision env u.newConfig⟩

/-- The files with the journal of an update. -/
abbrev journalView (env : DatabaseEnv) (path : String) (u : Update) (e c es cs : Option Bytes) :
    Fs DatabaseFile Bytes :=
  databaseView path e c (some (env.encodeJournal (u.journal env path))) es cs

/-- What an update or a recovery leaves of the files. -/
inductive Stage where
  /-- The old settings alone. -/
  | idle
  /-- The environment stage is written. -/
  | environmentStaged
  /-- Both stages are written. -/
  | staged
  /-- A recovery has removed the environment stage. -/
  | unstaged
  /-- The journal is written. -/
  | journaled
  /-- The environment file is new. -/
  | environmentPublished
  /-- Both files are new. -/
  | published
  /-- The new settings alone. -/
  | finished
  deriving DecidableEq

/-- The bytes of the files at a stage of the update. -/
def Stage.view (env : DatabaseEnv) (path : String) (u : Update) : Stage → Fs DatabaseFile Bytes :=
  let journal := some (env.encodeJournal (u.journal env path))
  let environment := some u.newEnvironment
  let config := some u.newConfig
  fun stage =>
    match stage with
    | .idle => databaseView path u.old.environment u.old.config none none none
    | .environmentStaged => databaseView path u.old.environment u.old.config none environment none
    | .staged => databaseView path u.old.environment u.old.config none environment config
    | .unstaged => databaseView path u.old.environment u.old.config none none config
    | .journaled => databaseView path u.old.environment u.old.config journal environment config
    | .environmentPublished => databaseView path environment u.old.config journal none config
    | .published => databaseView path environment config journal none none
    | .finished => databaseView path environment config none none none

/-- Where a recovery ends. -/
def Stage.recovered : Stage → Stage
  | .idle | .environmentStaged | .staged | .unstaged => .idle
  | .journaled | .environmentPublished | .published | .finished => .finished

/-- Where a crash may stop a recovery. -/
def Stage.stops : Stage → List Stage
  | .idle => [.idle]
  | .environmentStaged => [.environmentStaged, .idle]
  | .staged => [.staged, .unstaged, .idle]
  | .unstaged => [.unstaged, .idle]
  | .journaled => [.journaled, .environmentPublished, .published, .finished]
  | .environmentPublished => [.environmentPublished, .published, .finished]
  | .published => [.published, .finished]
  | .finished => [.finished]

/-- The settings that a recovery leaves. -/
def Stage.settled (stage : Stage) (u : Update) : Settings :=
  if stage.recovered = .finished then u.new else u.old

/-- The bytes at one of the stages. -/
def AtStage (env : DatabaseEnv) (path : String) (u : Update) (stages : List Stage)
    (w : Fs DatabaseFile Bytes) : Prop :=
  ∃ stage ∈ stages, w = stage.view env path u

variable {path : String} {u : Update}

theorem atStage {stages : List Stage} (stage : Stage) (h : decide (stage ∈ stages) = true) :
    AtStage env path u stages (stage.view env path u) :=
  ⟨stage, of_decide_eq_true h, rfl⟩

/-! ### The recovery -/

section Recovery

variable {ids : Set Uuid} {C : Fs DatabaseFile Bytes → Prop} {e c es cs : Option Bytes}

/-- Without a journal the stages are removed. -/
theorem steps_recover_orphans (h0 : C (databaseView path e c none es cs))
    (h1 : C (databaseView path e c none none cs)) (h2 : C (databaseView path e c none none none)) :
    DatabaseSteps path ids (databaseView path e c none es cs)
      (recoverInterruptedDatabaseUpdateLocked env) (.ok ())
      (databaseView path e c none none none) C := by
  have hstat : DatabaseSteps path ids (databaseView path e c none es cs)
      (FileM.stat .journal : DatabaseM Bool) (.ok false) _ C := .stat journal_mem h0
  have hremove : DatabaseSteps path ids (databaseView path e c none es cs)
      ([DatabaseFile.environmentStage, .configStage].forM (removeOrphan env)) (.ok ()) _ C :=
    (steps_removeOrphan environmentStage_mem id (update_view_environmentStage none) h0 h1).bind <|
      (steps_removeOrphan configStage_mem id (update_view_configStage none) h1 h2).bind (.pure h2)
  unfold recoverInterruptedDatabaseUpdateLocked
  exact hstat.bind (hremove.bind (steps_syncParent _ h2))

/-- A staged environment file is published. -/
theorem steps_recoverEnvironment_staged {j : Option Bytes} {bytes : Bytes}
    (hC : C (databaseView path e c j (some bytes) cs))
    (hC' : C (databaseView path (some bytes) c j none cs)) :
    DatabaseSteps path ids (databaseView path e c j (some bytes) cs)
      (recoverEnvironment env (u.journal env path)) (.ok ())
      (databaseView path (some bytes) c j none cs) C := by
  unfold recoverEnvironment
  exact (Steps.stat environmentStage_mem hC).bind <|
    (steps_publishEnvironment hC hC').bind (steps_syncParent _ hC')

/-- An environment file that is not staged any more is published. -/
theorem steps_recoverEnvironment_done {j : Option Bytes} {bytes : Bytes}
    (hC : C (databaseView path (some bytes) c j none cs)) :
    DatabaseSteps path ids (databaseView path (some bytes) c j none cs)
      (recoverEnvironment env (u.journal env path)) (.ok ())
      (databaseView path (some bytes) c j none cs) C := by
  have hfile : DatabaseSteps path ids (databaseView path (some bytes) c j none cs)
      (FileM.stat (.environment path) : DatabaseM Bool) _ _ C := .stat environment_mem hC
  rw [databaseView_environment] at hfile
  unfold recoverEnvironment
  exact (Steps.stat environmentStage_mem hC).bind (hfile.bind (.pure hC))

/-- A staged configuration is published. -/
theorem steps_recoverConfig_staged {j : Option Bytes} {bytes : Bytes}
    (hC : C (databaseView path e c j es (some bytes)))
    (hC' : C (databaseView path e (some bytes) j es none)) :
    DatabaseSteps path ids (databaseView path e c j es (some bytes))
      (recoverConfig env (u.journal env path)) (.ok ())
      (databaseView path e (some bytes) j es none) C := by
  unfold recoverConfig
  exact (Steps.stat configStage_mem hC).bind <|
    (steps_publishConfig hC hC').bind (steps_syncParent _ hC')

/-- A configuration that is not staged any more has the intended revision. -/
theorem steps_recoverConfig_done {j : Option Bytes} {current : Bytes}
    (hcurrent : revision env current = revision env u.newConfig)
    (hC : C (databaseView path e (some current) j es none)) :
    DatabaseSteps path ids (databaseView path e (some current) j es none)
      (recoverConfig env (u.journal env path)) (.ok ())
      (databaseView path e (some current) j es none) C := by
  have hsame : ¬(revision env current ≠ (u.journal env path).intendedRevision) :=
    fun h => h hcurrent
  unfold recoverConfig
  refine (Steps.stat configStage_mem hC).bind ((Steps.read config_mem rfl hC).bind ?_)
  rw [if_neg hsame]
  exact .pure hC

/-- With the journal of an update, the recovery comes to what is staged. -/
theorem steps_recover_journal {r : Except String Unit} {v' : Fs DatabaseFile Bytes}
    (henv : LawfulDatabase env) (hC : C (journalView env path u e c es cs))
    (hrest : DatabaseSteps path ids (journalView env path u e c es cs)
      (do
        recoverEnvironment env (u.journal env path)
        recoverConfig env (u.journal env path)
        removeJournal env
        syncParent env .config) r v' C) :
    DatabaseSteps path ids (journalView env path u e c es cs)
      (recoverInterruptedDatabaseUpdateLocked env) r v' C := by
  have howner : ¬((u.journal env path).version ≠ 1 ∨
      (u.journal env path).configPath ≠ env.configPath) := by
    simp [Update.journal]
  have hvalid : ConfigLock.validateRevision (u.journal env path).intendedRevision = .ok () :=
    henv.validateRevision u.newConfig
  have hread : DatabaseSteps path ids (journalView env path u e c es cs)
      (readJournal env) (.ok (u.journal env path)) (journalView env path u e c es cs) C := by
    refine (Steps.read journal_mem rfl hC).bind ?_
    rw [henv.readBack]
    exact .pure hC
  unfold recoverInterruptedDatabaseUpdateLocked
  refine (Steps.stat journal_mem hC).bind (hread.bind ?_)
  rw [if_neg howner, hvalid]
  exact (Steps.ofExcept hC).bind hrest

/-- The recovery rolls forward when it can publish both files. -/
theorem steps_recover_forward (henv : LawfulDatabase env)
    (h0 : C (journalView env path u e c es cs))
    (henvironment : DatabaseSteps path ids (journalView env path u e c es cs)
      (recoverEnvironment env (u.journal env path)) (.ok ())
      (journalView env path u (some u.newEnvironment) c none cs) C)
    (hconfig : DatabaseSteps path ids (journalView env path u (some u.newEnvironment) c none cs)
      (recoverConfig env (u.journal env path)) (.ok ()) (Stage.published.view env path u) C)
    (h2 : C (Stage.published.view env path u)) (h3 : C (Stage.finished.view env path u)) :
    DatabaseSteps path ids (journalView env path u e c es cs)
      (recoverInterruptedDatabaseUpdateLocked env) (.ok ()) (Stage.finished.view env path u) C :=
  steps_recover_journal henv h0 <| henvironment.bind <| hconfig.bind <|
    (steps_removeJournal h2 h3).bind (steps_syncParent _ h3)

end Recovery

theorem steps_recover (henv : LawfulDatabase env) (stage : Stage) {ids : Set Uuid} :
    DatabaseSteps path ids (stage.view env path u)
      (recoverInterruptedDatabaseUpdateLocked env) (.ok ()) (stage.recovered.view env path u)
      (AtStage env path u stage.stops) := by
  -- the stage the recovery starts at is the first one a crash may leave
  have hstart : AtStage env path u stage.stops (stage.view env path u) :=
    atStage stage (by cases stage <;> decide)
  cases stage with
  | idle | finished => exact steps_recover_orphans hstart hstart hstart
  | environmentStaged =>
    exact steps_recover_orphans hstart (atStage .idle rfl) (atStage .idle rfl)
  | staged =>
    exact steps_recover_orphans hstart (atStage .unstaged rfl) (atStage .idle rfl)
  | unstaged => exact steps_recover_orphans hstart hstart (atStage .idle rfl)
  | journaled =>
    have hpublished : AtStage env path u Stage.journaled.stops
        (Stage.environmentPublished.view env path u) := atStage .environmentPublished rfl
    exact steps_recover_forward henv hstart (steps_recoverEnvironment_staged hstart hpublished)
      (steps_recoverConfig_staged hpublished (atStage .published rfl))
      (atStage .published rfl) (atStage .finished rfl)
  | environmentPublished =>
    exact steps_recover_forward henv hstart (steps_recoverEnvironment_done hstart)
      (steps_recoverConfig_staged hstart (atStage .published rfl))
      (atStage .published rfl) (atStage .finished rfl)
  | published =>
    exact steps_recover_forward henv hstart (steps_recoverEnvironment_done hstart)
      (steps_recoverConfig_done rfl hstart) hstart (atStage .finished rfl)

/-! ### The update -/

section Update

variable {ids : Nat → Uuid} {C : Fs DatabaseFile Bytes → Prop}

theorem steps_writeConfigStage {unused : Set Uuid} {t : Uuid}
    (ht : .temporary t ∈ siblingsOf unused)
    (hC : C (Stage.environmentStaged.view env path u)) (hC' : C (Stage.staged.view env path u)) :
    Steps (databaseFiles path) (siblingsOf unused) (Stage.environmentStaged.view env path u)
      (writeConfigStage env u.newConfig t) (.ok ()) (Stage.staged.view env path u) C := by
  unfold writeConfigStage
  exact (steps_writeNewFile configStage_mem id ht id rfl
    (update_view_configStage _) hC hC').result.bind (.pure hC')

theorem steps_writeJournal {unused : Set Uuid} {t : Uuid} (ht : .temporary t ∈ siblingsOf unused)
    (hC : C (Stage.staged.view env path u)) (hC' : C (Stage.journaled.view env path u)) :
    Steps (databaseFiles path) (siblingsOf unused) (Stage.staged.view env path u)
      (writeJournal env path u.newConfig t) (.ok ()) (Stage.journaled.view env path u) C := by
  unfold writeJournal
  exact (steps_writeNewFile journal_mem id ht id rfl
    (update_view_journal _) hC hC').result.bind (.pure hC')

/-- The stages and the journal are written. -/
theorem steps_writeTransactionFiles :
    DatabaseSteps path (Set.range ids) (Stage.idle.view env path u)
      (writeTransactionFiles env path u.newEnvironment u.newConfig ids) (.ok ())
      (Stage.journaled.view env path u)
      (AtStage env path u [.idle, .environmentStaged, .staged, .journaled]) := by
  unfold writeTransactionFiles
  have hids (n : Nat) : .temporary (ids n) ∈ siblingsOf (Set.range ids) := ⟨n, rfl⟩
  refine ((steps_writeNewFile environmentStage_mem id (hids 0) id rfl
    (update_view_environmentStage _)
    (atStage .idle rfl) (atStage .environmentStaged rfl)).adapt _).bind ?_
  exact (steps_writeConfigStage (hids 1) (atStage .environmentStaged rfl)
      (atStage .staged rfl)).bind <|
    (steps_writeJournal (hids 2) (atStage .staged rfl)
      (atStage .journaled rfl)).bind (steps_syncParent _ (atStage .journaled rfl))

/-- After the recovery at its head has left the old settings alone,
`begin_locked` comes to the journal, or it fails because there is no
environment file. -/
theorem steps_beginLocked {v : Fs DatabaseFile Bytes}
    (hC : ∀ w, AtStage env path u [.idle, .environmentStaged, .staged, .journaled] w → C w)
    (hrecover : DatabaseSteps path (Set.range ids) v
      (recoverInterruptedDatabaseUpdateLocked env) (.ok ()) (Stage.idle.view env path u) C) :
    DatabaseSteps path (Set.range ids) v
        (beginLocked env path u.newEnvironment u.newConfig ids) (.ok ())
        (Stage.journaled.view env path u) C ∨
      ∃ e, DatabaseSteps path (Set.range ids) v
        (beginLocked env path u.newEnvironment u.newConfig ids) (.error e)
        (Stage.idle.view env path u) C := by
  have h0 : C (Stage.idle.view env path u) := hC _ (atStage .idle rfl)
  have hstat : DatabaseSteps path (Set.range ids)
      (Stage.idle.view env path u) (FileM.stat (.environment path) : DatabaseM Bool)
      (.ok u.old.environment.isSome) (Stage.idle.view env path u) C := by
    have h : DatabaseSteps path (Set.range ids)
        (Stage.idle.view env path u) (FileM.stat (.environment path) : DatabaseM Bool) _ _ C :=
      .stat environment_mem h0
    have hfile : Stage.idle.view env path u (.environment path) = u.old.environment :=
      if_pos rfl
    rwa [hfile] at h
  have hreject : DatabaseSteps path (Set.range ids) (Stage.idle.view env path u)
      ([DatabaseFile.journal, .environmentStage, .configStage].forM (rejectUnfinished env))
      (.ok ()) (Stage.idle.view env path u) C :=
    (steps_rejectUnfinished journal_mem rfl h0).bind <|
      (steps_rejectUnfinished environmentStage_mem rfl h0).bind <|
      (steps_rejectUnfinished configStage_mem rfl h0).bind (.pure h0)
  unfold beginLocked
  cases hold : u.old.environment with
  | none =>
    rw [hold] at hstat
    exact .inr ⟨_, hrecover.bind (hreject.bind (hstat.bind (.throw h0)))⟩
  | some bytes =>
    rw [hold] at hstat
    exact .inl (hrecover.bind (hreject.bind (hstat.bind (steps_writeTransactionFiles.mono hC))))

theorem steps_commit {ids : Set Uuid} :
    DatabaseSteps path ids (Stage.journaled.view env path u)
      (commit env path) (.ok ()) (Stage.finished.view env path u)
      (AtStage env path u Stage.journaled.stops) := by
  have h1 : AtStage env path u Stage.journaled.stops (Stage.environmentPublished.view env path u) :=
    atStage .environmentPublished rfl
  have h2 : AtStage env path u Stage.journaled.stops (Stage.published.view env path u) :=
    atStage .published rfl
  have h3 : AtStage env path u Stage.journaled.stops (Stage.finished.view env path u) :=
    atStage .finished rfl
  exact (steps_publishEnvironment (atStage .journaled rfl) h1).bind <|
    (steps_syncParent _ h1).bind <| (steps_publishConfig h1 h2).bind <|
    (steps_syncParent _ h2).bind <| (steps_removeJournal h2 h3).bind (steps_syncParent _ h3)

end Update

/-! ### Any number of recoveries -/

/-- Operations succeed when they can; the process or the machine may
stop at any of them. -/
def databaseSem : Sem (FileOp DatabaseFile) FileReply (Fs DatabaseFile File) :=
  fileSem (fun _ => False) LosesUnsynced

/-- A recovery ends with the result `r`. -/
def RecoveryEnds (env : DatabaseEnv) (s : Fs DatabaseFile File) (r : Except String Unit)
    (s' : Fs DatabaseFile File) : Prop :=
  Exec databaseSem (recoverInterruptedDatabaseUpdateLocked env).run s (.done r s')

/-- A recovery ends or is stopped. -/
def RecoveryRuns (env : DatabaseEnv) (s s' : Fs DatabaseFile File) : Prop :=
  ∃ out, Exec databaseSem (recoverInterruptedDatabaseUpdateLocked env).run s out ∧ s' = out.state

/-- No stage and no journal is left. -/
def NoTransactionFile (s : Fs DatabaseFile File) : Prop :=
  s .journal = none ∧ s .environmentStage = none ∧ s .configStage = none

/-- Environment file and configuration have the given bytes, and these are
on disk. -/
def HasSettings (path : String) (s : Fs DatabaseFile File) (settings : Settings) : Prop :=
  s (.environment path) = settings.environment.map File.durable ∧
    s .config = settings.config.map File.durable

/-- The journal of an update from `s0` was on disk when a crash left `s1`:
it is there and was not before, or the crash was in `commit`. -/
def JournalWritten (env : DatabaseEnv) (path : String) (u : Update) (ids : Nat → Uuid)
    (s0 s1 : Fs DatabaseFile File) : Prop :=
  (s0 .journal = none ∧ s1 .journal ≠ none) ∨
    ∃ s, Exec databaseSem (beginLocked env path u.newEnvironment u.newConfig ids).run s0
        (.done (.ok ()) s) ∧
      Exec databaseSem (commit env path).run s (.crashed s1)

/-- A recovery leaves the settled settings alone. -/
theorem view_recovered (stage : Stage) : stage.recovered.view env path u =
    databaseView path (stage.settled u).environment (stage.settled u).config none none none := by
  cases stage <;> rfl

section Runs

variable {s s' : Fs DatabaseFile File} {stage : Stage}

theorem unused_empty (s : Fs DatabaseFile File) : Unused (siblingsOf ∅) s := by
  intro x hx
  cases x with
  | temporary id => exact hx.elim
  | _ => exact hx.elim

section

variable (henv : LawfulDatabase env) (hs : OnDisk (databaseFiles path) (stage.view env path u) s)
include henv hs

/-- A recovery goes from stage to stage, and never back over the journal. -/
theorem recoveryRuns_stage (h : RecoveryRuns env s s') :
    ∃ next : Stage, next.recovered = stage.recovered ∧
      OnDisk (databaseFiles path) (next.view env path u) s' := by
  obtain ⟨out, hexec, rfl⟩ := h
  have hout := (steps_recover henv stage).outcome hs (unused_empty s) hexec
  cases out with
  | done r s' => exact ⟨stage.recovered, by cases stage <;> rfl, hout.2.1⟩
  | crashed s' =>
    obtain ⟨w, ⟨next, hnext, rfl⟩, hs'⟩ := hout
    refine ⟨next, ?_, hs'⟩
    revert hnext
    cases stage <;> cases next <;> decide

theorem recoveries_stage (h : Relation.ReflTransGen (RecoveryRuns env) s s') :
    ∃ next : Stage, next.recovered = stage.recovered ∧
      OnDisk (databaseFiles path) (next.view env path u) s' := by
  induction h with
  | refl => exact ⟨stage, rfl, hs⟩
  | tail _ hstep ih =>
    obtain ⟨middle, hmiddle, hs'⟩ := ih
    obtain ⟨next, hnext, hs''⟩ := recoveryRuns_stage henv hs' hstep
    exact ⟨next, hnext.trans hmiddle, hs''⟩

/-- What a recovery that ends leaves. -/
theorem recoveryEnds_stage {r : Except String Unit} (h : RecoveryEnds env s r s') :
    r = .ok () ∧ NoTransactionFile s' ∧ HasSettings path s' (stage.settled u) := by
  obtain ⟨hr, hs', -⟩ := (steps_recover henv stage).outcome hs (unused_empty s) h
  rw [view_recovered] at hs'
  have henvironment := hs' _ environment_mem
  rw [databaseView_environment] at henvironment
  exact ⟨hr, ⟨hs' _ journal_mem, hs' _ environmentStage_mem, hs' _ configStage_mem⟩,
    henvironment, hs' _ config_mem⟩

end

end Runs

/-! ### An update that is stopped -/

section Stopped

variable {u0 : Update} {stage0 : Stage} {ids : Nat → Uuid} {s0 s1 : Fs DatabaseFile File}

/-- Which stages have a journal. -/
theorem view_journal_eq_none_iff (stage : Stage) : stage.view env path u .journal = none ↔
      stage ∉ [Stage.journaled, .environmentPublished, .published] := by
  cases stage <;> simp [Stage.view, databaseView]

/-- A recovery writes no journal. -/
theorem no_journal_of_stops {stage next : Stage} (hnext : next ∈ stage.stops)
    (h : stage ∉ [Stage.journaled, .environmentPublished, .published]) :
    next ∉ [Stage.journaled, .environmentPublished, .published] := by
  revert hnext h
  cases stage <;> cases next <;> decide

/-- The bytes that a crash of the update may leave: those of a stage of the
earlier update, in the recovery at the head, or those of a stage of the
update itself. -/
def Stopped (env : DatabaseEnv) (path : String) (u0 u : Update) (stage0 : Stage)
    (w : Fs DatabaseFile Bytes) : Prop :=
  AtStage env path u0 stage0.stops w ∨
    AtStage env path u [.idle, .environmentStaged, .staged, .journaled, .environmentPublished,
      .published, .finished] w

theorem stopped_of_atStage {stages : List Stage} {w : Fs DatabaseFile Bytes}
    (hstages : .unstaged ∉ stages) (h : AtStage env path u stages w) :
    Stopped env path u0 u stage0 w := by
  obtain ⟨stage, hstage, rfl⟩ := h
  refine .inr (atStage stage (decide_eq_true ?_))
  cases stage with
  | unstaged => exact absurd hstage hstages
  | _ => decide

theorem steps_begin_stopped (ids : Nat → Uuid) (henv : LawfulDatabase env)
    (hold : u.old = stage0.settled u0) :
    DatabaseSteps path (Set.range ids) (stage0.view env path u0)
        (beginLocked env path u.newEnvironment u.newConfig ids) (.ok ())
        (Stage.journaled.view env path u) (Stopped env path u0 u stage0) ∨
      ∃ e, DatabaseSteps path (Set.range ids) (stage0.view env path u0)
        (beginLocked env path u.newEnvironment u.newConfig ids) (.error e)
        (Stage.idle.view env path u) (Stopped env path u0 u stage0) := by
  refine steps_beginLocked (fun w => stopped_of_atStage (by decide)) ?_
  have hidle : stage0.recovered.view env path u0 = Stage.idle.view env path u := by
    rw [view_recovered, ← hold]
    rfl
  rw [← hidle]
  exact (steps_recover henv stage0).mono fun w => .inl

theorem steps_update_stopped (ids : Nat → Uuid) (henv : LawfulDatabase env)
    (hold : u.old = stage0.settled u0) :
    ∃ r stage, DatabaseSteps path (Set.range ids) (stage0.view env path u0)
      (updateDatabase env path u.newEnvironment u.newConfig ids) r (Stage.view env path u stage)
      (Stopped env path u0 u stage0) := by
  rcases steps_begin_stopped ids henv hold with hbegin | ⟨e, hbegin⟩
  · exact ⟨_, .finished, hbegin.bind (steps_commit.mono fun w => stopped_of_atStage (by decide))⟩
  · exact ⟨_, .idle, hbegin.bind_error⟩

/-- When the journal was written, the crash is at a stage with the new
settings to come. -/
theorem stage_of_journalWritten (henv : LawfulDatabase env) (hold : u.old = stage0.settled u0)
    (hstart : OnDisk (databaseFiles path) (stage0.view env path u0) s0)
    (hids : Unused (siblingsOf (Set.range ids)) s0)
    (hcrash : Exec databaseSem (updateDatabase env path u.newEnvironment u.newConfig ids).run s0
      (.crashed s1)) (hjournal : JournalWritten env path u ids s0 s1) :
    ∃ stage : Stage, stage.recovered = .finished ∧
      OnDisk (databaseFiles path) (stage.view env path u) s1 := by
  rcases hjournal with ⟨hbefore, hafter⟩ | ⟨s, hbegin, hcommit⟩
  · obtain ⟨_, _, hupdate⟩ := steps_update_stopped ids henv hold
    obtain ⟨w, hw, hs1⟩ := hupdate.outcome hstart hids hcrash
    rw [hstart _ journal_mem, Option.map_eq_none_iff, view_journal_eq_none_iff] at hbefore
    rw [hs1 _ journal_mem, ne_eq, Option.map_eq_none_iff] at hafter
    rcases hw with ⟨stage, hstage, rfl⟩ | ⟨stage, hstage, rfl⟩
    · exact absurd ((view_journal_eq_none_iff stage).2 (no_journal_of_stops hstage hbefore)) hafter
    · cases stage with
      | journaled | environmentPublished | published | finished => exact ⟨_, rfl, hs1⟩
      | idle | environmentStaged | staged | unstaged => exact absurd rfl hafter
  · have hjournaled : OnDisk (databaseFiles path) (Stage.journaled.view env path u) s ∧
        Unused (siblingsOf (Set.range ids)) s := by
      rcases steps_begin_stopped ids henv hold with hok | ⟨e, herror⟩
      · exact (hok.outcome hstart hids hbegin).2
      · cases (herror.outcome hstart hids hbegin).1
    obtain ⟨w, ⟨stage, hstage, rfl⟩, hs1⟩ :=
      steps_commit.outcome hjournaled.1 hjournaled.2 hcommit
    refine ⟨stage, ?_, hs1⟩
    revert hstage
    cases stage <;> decide

/-- Updates of the database settings that a crash stops, from where an
earlier update was left. Every later recovery that runs to the end
succeeds, leaves no stage and no journal, and leaves both files old or
both new. If the journal was written before the crash, it leaves both
new. -/
theorem database_update_crash_atomic (henv : LawfulDatabase env) (hold : u.old = stage0.settled u0)
    (hstart : OnDisk (databaseFiles path) (stage0.view env path u0) s0)
    (hids : Unused (siblingsOf (Set.range ids)) s0)
    (hcrash : Exec databaseSem (updateDatabase env path u.newEnvironment u.newConfig ids).run s0
      (.crashed s1)) :
    (∀ s, Relation.ReflTransGen (RecoveryRuns env) s1 s → (∃ s', RecoveryEnds env s (.ok ()) s') ∧
      ∀ r s', RecoveryEnds env s r s' → r = .ok () ∧ NoTransactionFile s' ∧
          (HasSettings path s' u.old ∨ HasSettings path s' u.new)) ∧
    (JournalWritten env path u ids s0 s1 → ∀ s r s',
      Relation.ReflTransGen (RecoveryRuns env) s1 s → RecoveryEnds env s r s' →
        HasSettings path s' u.new) := by
  constructor
  · intro s hs
    -- at every stage the recovery ends, with the settings of that stage
    have hends : ∀ (u' : Update) (stage : Stage),
        OnDisk (databaseFiles path) (stage.view env path u') s1 →
        (∃ s', RecoveryEnds env s (.ok ()) s') ∧ ∀ r s', RecoveryEnds env s r s' →
          r = .ok () ∧ NoTransactionFile s' ∧ HasSettings path s' (stage.settled u') := by
      intro u' stage hs1
      obtain ⟨next, hnext, hs'⟩ := recoveries_stage henv hs1 hs
      obtain ⟨s', -, -, hrun⟩ := steps_recover henv next s hs' (unused_empty s)
      refine ⟨⟨s', hrun.exec_done⟩, fun r s'' h => ?_⟩
      obtain ⟨hr, hgone, hhas⟩ := recoveryEnds_stage henv hs' h
      rw [Stage.settled, hnext] at hhas
      exact ⟨hr, hgone, hhas⟩
    obtain ⟨_, _, hupdate⟩ := steps_update_stopped ids henv hold
    obtain ⟨w, hw, hs1⟩ := hupdate.outcome hstart hids hcrash
    rcases hw with ⟨stage, hstage, rfl⟩ | ⟨stage, -, rfl⟩
    · -- the recovery at the head was stopped: it leaves what it would have left
      have hsame : stage.recovered = stage0.recovered := by
        revert hstage
        cases stage0 <;> cases stage <;> decide
      obtain ⟨hexists, hall⟩ := hends u0 stage hs1
      refine ⟨hexists, fun r s' h => ?_⟩
      obtain ⟨hr, hgone, hhas⟩ := hall r s' h
      rw [Stage.settled, hsame] at hhas
      refine ⟨hr, hgone, .inl ?_⟩
      rw [hold]
      exact hhas
    · obtain ⟨hexists, hall⟩ := hends u stage hs1
      refine ⟨hexists, fun r s' h => ?_⟩
      obtain ⟨hr, hgone, hhas⟩ := hall r s' h
      refine ⟨hr, hgone, ?_⟩
      rw [Stage.settled] at hhas
      grind
  · intro hjournal s r s' hs h
    obtain ⟨stage, hfinished, hs1⟩ := stage_of_journalWritten henv hold hstart hids hcrash hjournal
    obtain ⟨next, hnext, hs''⟩ := recoveries_stage henv hs1 hs
    obtain ⟨-, -, hhas⟩ := recoveryEnds_stage henv hs'' h
    rwa [Stage.settled, hnext, if_pos hfinished] at hhas

end Stopped

/-! ### A stopped update -/

/-- A journal as a JSON object. -/
def journalJson (journal : DatabaseUpdateJournal) : Json :=
  .obj [(ascii "version", .num journal.version),
    (ascii "config_path", .str (utf8Bytes journal.configPath)),
    (ascii "environment_path", .str (utf8Bytes journal.environmentPath)),
    (ascii "intended_revision", .str (utf8Bytes journal.intendedRevision))]

/-- The journal of a JSON object. -/
def journalOfJson : Json → Option DatabaseUpdateJournal
  | .obj [(versionKey, .num version), (pathKey, .str path), (environmentKey, .str environment),
      (revisionKey, .str intended)] =>
    if versionKey = ascii "version" ∧ pathKey = ascii "config_path" ∧
        environmentKey = ascii "environment_path" ∧ revisionKey = ascii "intended_revision" then do
      return ⟨version.toNat, ← utf8Text path, ← utf8Text environment, ← utf8Text intended⟩
    else none
  | _ => none

/-- A configuration `server.toml`, with its first bytes as the digest. -/
def sampleDatabase : DatabaseEnv where
  configPath := "server.toml"
  sha256 bytes := (bytes ++ List.replicate 32 0).take 32
  encodeJournal journal := (journalJson journal).print
  decodeJournal bytes := (Json.parse bytes).bind journalOfJson
  display _ := "server.toml"
  displayParent _ := "."
  displayError _ := "filesystem operation failed"

theorem sampleDatabase_lawful : LawfulDatabase sampleDatabase where
  digest bytes := by
    simp only [sampleDatabase, List.length_take, List.length_append, List.length_replicate]
    omega
  readBack journal := by
    show (Json.parse (journalJson journal).print).bind journalOfJson = some journal
    rw [parse_print]
    simp [journalJson, journalOfJson, utf8Text_utf8Bytes]

/-- The environment file `[1]` and the configuration `[2]` are updated. -/
def sampleUpdate : Update := ⟨⟨some [1], some [2]⟩, [3], [4]⟩

/-- A directory with the old settings and nothing else. -/
def oldDatabase : Fs DatabaseFile File
  | .environment "server.env" => some (.durable [1])
  | .config => some (.durable [2])
  | _ => none

theorem onDisk_oldDatabase : OnDisk (databaseFiles "server.env")
    (databaseView "server.env" (some [1]) (some [2]) none none none) oldDatabase := by
  intro x hx
  cases x with
  | environment path =>
    cases (show path = "server.env" from hx)
    rfl
  | _ => rfl

theorem unused_oldDatabase : Unused (siblingsOf (Set.range (id : Nat → Uuid))) oldDatabase := by
  intro x hx
  cases x with
  | temporary => rfl
  | _ => exact hx.elim

/-- The update, stopped when it has published the environment file. -/
def stoppedDatabaseUpdate : Fs DatabaseFile File :=
  (updateDatabase sampleDatabase "server.env" [3] [4] id).run.after FileOp.run 34 oldDatabase

/-- A recovery publishes the configuration too. -/
theorem database_update_crash_atomic_sample : stoppedDatabaseUpdate .config = some (.durable [2]) ∧
      stoppedDatabaseUpdate (.environment "server.env") = some (.durable [3]) ∧
      ∃ s, RecoveryEnds sampleDatabase stoppedDatabaseUpdate (.ok ()) s ∧ NoTransactionFile s ∧
        HasSettings "server.env" s sampleUpdate.new := by
  have hstart : OnDisk _ (Stage.idle.view sampleDatabase _ sampleUpdate) oldDatabase :=
    onDisk_oldDatabase
  have hcrash : Exec databaseSem
      (updateDatabase sampleDatabase "server.env" [3] [4] id).run oldDatabase
      (.crashed stoppedDatabaseUpdate) :=
    exec_crash_after (fun _ _ => Or.inl rfl) _ 34 _ _ (Or.inl rfl)
  obtain ⟨hends, hnew⟩ := database_update_crash_atomic (u := sampleUpdate) sampleDatabase_lawful
    rfl hstart unused_oldDatabase hcrash
  obtain ⟨⟨s, hto⟩, hall⟩ := hends _ .refl
  refine ⟨by decide +kernel, by decide +kernel, s, hto, (hall _ s hto).2.1, ?_⟩
  exact hnew (.inl ⟨rfl, by decide +kernel⟩) _ _ s .refl hto

end Centrald.Proofs.DatabaseUpdate
