import Centrald.Server.SetupRecovery

/-!
# `Centrald.Proofs.SetupRecovery`: clean-ups and the external database

The URL of an external database is in the environment file and nowhere
else. A clean-up that cannot drop the database keeps the journal for the
next attempt, and yet it removes the environment file. The next attempt
takes the missing file for a setup that never reached the database, and
it removes the journal (`rollback_forgets_database`).

`Known` says what is true as long as no clean-up does this: while the
database that the setup created exists, the journal is there and the
environment file is as the setup wrote it. A clean-up keeps this if it
drops the database or leaves the file (`KeepsDatabaseKnown`). So a
journal is then removed without a commit only if the database is gone or
was never created (`setup_database_never_forgotten`).
-/

set_option autoImplicit false

namespace Centrald.Proofs.SetupRecovery

open Durable Server.SetupRecovery

variable {env : SetupEnv} {options : SetupOptions}

/-! ### One clean-up -/

/-- The database of the setup has its comment, and a clean-up with this
outcome reaches it and drops it. -/
def Drops (env : SetupEnv) (options : SetupOptions) (s : SetupState) (o : CleanupOutcome) : Prop :=
  s.database = some (some (env.databaseComment options.instanceId)) ∧ o.readsEnvironment = true ∧
    o.acceptsUrl = true ∧ o.verifies = true ∧ o.drops = true

instance (s : SetupState) (o : CleanupOutcome) : Decidable (Drops env options s o) :=
  inferInstanceAs (Decidable (_ ∧ _))

/-- A clean-up after a setup that has not been committed drops the
database that the setup created, or leaves the environment file. -/
def KeepsDatabaseKnown (env : SetupEnv) (options : SetupOptions) (s : SetupState) :
    SetupLabel → Prop
  | .rollbackCurrentSetup o | .recoverBeforeInitialSetup o | .resetInterruptedSetupForNuke o =>
    s.created = true → s.committed = false → o.removesEnvironment = false ∨ Drops env options s o
  | _ => True

variable {j : SetupRecoveryJournal}

/-- What `begin_setup` writes matches the environment file of the same
options. -/
theorem beginSetup_eq_some (h : env.beginSetup options = some j) :
    j.phase = .provisioning ∧ j.instanceId = options.instanceId ∧
      j.databaseUrlEnv = options.databaseUrlEnv ∧
      env.databaseNameFromUrl options.databaseUrl = some j.databaseName ∧
      options.databaseUrl ≠ "" ∧ ¬ options.databaseUrl.toList.any Common.isWhitespace := by
  unfold SetupEnv.beginSetup at h
  split at h
  · cases h
  · rename_i hvalid
    obtain ⟨name, hname, rfl⟩ := Option.map_eq_some_iff.1 h
    refine ⟨rfl, rfl, rfl, hname, ?_, fun hany => hvalid (.inl hany)⟩
    intro hempty
    rw [hempty] at hvalid
    exact hvalid (.inr (.inl (by decide)))

variable {s : SetupState} {o : CleanupOutcome}

/-- With the environment file of the setup, a clean-up that can drop the
database drops it. -/
theorem cleanupExternalDatabase_drops (hj : env.beginSetup options = some j)
    (hfile : s.environment = some (env.databaseEnvironmentContents options))
    (h : Drops env options s o) :
    (env.cleanupExternalDatabase j s.environment s.database o).2 = none := by
  obtain ⟨-, hid, henv, hname, hurl, hspace⟩ := beginSetup_eq_some hj
  obtain ⟨hdb, hread, haccept, hverify, hdrop⟩ := h
  have hroll : (env.rollbackSetupDatabase j.databaseName options.instanceId
      (some (some (env.databaseComment options.instanceId))) o).2 = none := by
    simp only [SetupEnv.rollbackSetupDatabase, hverify, hdrop]
    cases o.closes <;> simp
  have hassignment : ¬ ((env.databaseEnvironmentContents options).name ≠ j.databaseUrlEnv ∨
      (env.databaseEnvironmentContents options).url = "" ∨
      (env.databaseEnvironmentContents options).url.toList.any Common.isWhitespace) := by
    rintro (h | h | h)
    · exact h henv.symm
    · exact hurl h
    · exact hspace h
  have hmatches : ¬ (o.acceptsUrl = false ∨ env.databaseNameFromUrl
      (env.databaseEnvironmentContents options).url ≠ some j.databaseName) := by
    rintro (h | h)
    · simp [haccept] at h
    · exact h hname
  rw [hfile, hdb]
  unfold SetupEnv.cleanupExternalDatabase
  dsimp only
  rw [if_neg (by simp [hread]), hid, if_neg (fun h => h rfl), if_neg hassignment, if_neg hmatches]
  exact hroll

/-! ### Runs -/

/-- The setup has written its environment file and has not ended. -/
def SetupPc.hasWritten : SetupPc → Bool
  | .initialized | .created | .commented | .migrated | .keyed => true
  | _ => false

/-- The journal and the environment file that the setup has written. -/
def Recorded (env : SetupEnv) (options : SetupOptions) (s : SetupState) : Prop :=
  s.journal.isSome ∧ s.environment = some (env.databaseEnvironmentContents options)

/-- While the database is created and not committed, the journal and the
environment file are there that let a recovery find it. -/
structure Known (env : SetupEnv) (options : SetupOptions) (s : SetupState) : Prop where
  journal : ∀ j, s.journal = some j → env.beginSetup options = some j ∨ s.committed = true
  fresh : s.pc = .preflighted ∨ s.pc = .begun → s.created = false
  begun : s.pc = .begun → s.journal.isSome
  running : SetupPc.hasWritten s.pc → Recorded env options s
  ended : s.pc = .committed → s.committed = true
  created : s.created = true → s.committed = false → Recorded env options s

theorem Known.cleanupAbandonedSetup (h : Known env options s) (hj : s.journal = some j)
    (hguard : s.created = true → s.committed = false →
      o.removesEnvironment = false ∨ Drops env options s o) :
    Known env options { s.cleanupAbandonedSetup env j o with pc := .ended } := by
  refine ⟨fun j' hj' => h.journal j' ?_, by simp, nofun, nofun, nofun,
    fun hcreated hcommitted => ?_⟩
  · exact (Option.ite_none_left_eq_some.1 hj').2
  · simp only [SetupState.cleanupAbandonedSetup, Bool.and_eq_true] at hcreated hcommitted
    obtain ⟨hcreated, hleft⟩ := hcreated
    have hfile := (h.created hcreated hcommitted).2
    rcases hguard hcreated hcommitted with hkeep | hdrops
    · simp [Recorded, SetupState.cleanupAbandonedSetup, hkeep, hfile, hj]
    · have hbegin := (h.journal j hj).resolve_right (by simp [hcommitted])
      simp [cleanupExternalDatabase_drops hbegin hfile hdrops] at hleft

theorem Known.recover (h : Known env options s) (hguard : s.created = true → s.committed = false →
      o.removesEnvironment = false ∨ Drops env options s o) :
    Known env options (s.recover env o) := by
  unfold SetupState.recover
  split
  · rename_i j hpc hj
    split
    · rename_i hphase
      -- The journal that `begin_setup` writes is not committed.
      have hcommitted : s.committed = true := (h.journal j hj).resolve_left fun hbegin => by
        simp [(beginSetup_eq_some hbegin).1] at hphase
      split
      · exact ⟨nofun, by simp [hpc], by simp [hpc], by simp [hpc, SetupPc.hasWritten],
          by simp [hpc], by simp [hcommitted]⟩
      · exact h
    · have hcleaned := h.cleanupAbandonedSetup hj hguard
      rwa [← hpc] at hcleaned
  · exact h

/-- A step keeps the database known. -/
theorem Known.step {s s' : SetupState} {l : SetupLabel} (h : Known env options s)
    (hguard : KeepsDatabaseKnown env options s l)
    (hstep : (setupSystem env options).step s l = some s') : Known env options s' := by
  obtain ⟨hjournal, hfresh, hbegun, hrunning, hended, hcreated⟩ := id h
  cases l
  case rollbackCurrentSetup o =>
    simp only [setupSystem] at hstep
    repeat' split at hstep
    · cases hstep
      exact h.cleanupAbandonedSetup ‹_› hguard
    · cases hstep
      exact ⟨hjournal, by simp, nofun, nofun, nofun, hcreated⟩
    · cases hstep
  case recoverBeforeInitialSetup o =>
    cases hstep
    exact h.recover hguard
  case resetInterruptedSetupForNuke o =>
    cases hstep
    exact h.recover hguard
  all_goals
    simp only [setupSystem, SetupState.cleanupNewDatabase] at hstep
    repeat' split at hstep
    all_goals cases hstep
    all_goals constructor <;> grind -ring -linarith [Recorded, SetupPc.hasWritten]

/-- As long as every clean-up drops the database or leaves the
environment file, a journal is removed without a commit only if the
database that the setup created is gone or was never created. -/
theorem setup_database_never_forgotten {database : Option (Option String)}
    (h : (setupSystem env options).Reaches (KeepsDatabaseKnown env options) (.start database) s)
    (hjournal : s.journal = none) (hcommitted : s.committed = false) : s.created = false := by
  have hknown : Known env options s := h.invariant ⟨nofun, fun _ => rfl, nofun, nofun, nofun, nofun⟩
    fun _ _ _ hI hG hstep => hI.step hG hstep
  refine Bool.eq_false_iff.2 fun hcreated => ?_
  simpa [hjournal] using (hknown.created hcreated hcommitted).1

/-! ### Runs of one setup -/

def sampleSetupEnv : SetupEnv where
  uuidText := Nat.repr
  databaseNameFromUrl url := if url = "postgres://db/centrald" then some "centrald" else none

def sampleSetup : SetupOptions := ⟨7, "CENTRALD_DATABASE_URL", "postgres://db/centrald"⟩

/-- A clean-up, with a database that can be reached or not. -/
def cleanupWith (reachable : Bool) : CleanupOutcome :=
  ⟨true, true, reachable, reachable, reachable, true, true, true, true⟩

/-- A setup that fails after it has created the database, with the
clean-ups that follow. -/
def failedSetup (cleanups : List SetupLabel) : List SetupLabel :=
  [.beginSetup, .initializeServer true true true, .createDatabase true true,
    .comment true true false,
    .migrate true false, .createKey false] ++ cleanups

theorem setup_database_never_forgotten_sample :
    ∃ s, (setupSystem sampleSetupEnv sampleSetup).Reaches
        (KeepsDatabaseKnown sampleSetupEnv sampleSetup) (.start none) s ∧
      s.journal = none ∧ s.committed = false ∧ s.created = false := by
  have hrun : ((setupSystem sampleSetupEnv sampleSetup).run (fun s l => match l with
        | .rollbackCurrentSetup o => decide (Drops sampleSetupEnv sampleSetup s o)
        | .recoverBeforeInitialSetup _ | .resetInterruptedSetupForNuke _ => false
        | _ => true) (.start none)
      (failedSetup [.rollbackCurrentSetup (cleanupWith true)])).any
      (fun s => decide (s.journal = none ∧ s.committed = false)) = true := by decide +kernel
  obtain ⟨s, hs, hgone⟩ := (Option.any_eq_true _ _).1 hrun
  obtain ⟨hjournal, hcommitted⟩ := of_decide_eq_true hgone
  have hreach : (setupSystem sampleSetupEnv sampleSetup).Reaches
      (KeepsDatabaseKnown sampleSetupEnv sampleSetup) (.start none) s := by
    refine Machine.Reaches.refl.of_run (fun s l _ hl => ?_) hs
    cases l <;> simp_all [KeepsDatabaseKnown]
  exact ⟨s, hreach, hjournal, hcommitted, setup_database_never_forgotten hreach hjournal hcommitted⟩

/-- PostgreSQL cannot be reached when the setup rolls back. The next
attempt removes the journal, and the database is still there. -/
theorem rollback_forgets_database :
    ∃ s, (setupSystem sampleSetupEnv sampleSetup).Reaches (fun _ _ => True) (.start none) s ∧
      s.journal = none ∧ s.committed = false ∧ s.created = true ∧
      s.database = some (some (sampleSetupEnv.databaseComment sampleSetup.instanceId)) := by
  have hrun : ((setupSystem sampleSetupEnv sampleSetup).run (fun _ _ => true) (.start none)
      (failedSetup [.rollbackCurrentSetup (cleanupWith false),
        .recoverBeforeInitialSetup (cleanupWith true)])).any
      (fun s => decide (s.journal = none ∧ s.committed = false ∧ s.created = true ∧ s.database =
        some (some (sampleSetupEnv.databaseComment sampleSetup.instanceId)))) = true := by
    decide +kernel
  obtain ⟨s, hs, hforgot⟩ := (Option.any_eq_true _ _).1 hrun
  exact ⟨s, Machine.reaches_of_run hs, of_decide_eq_true hforgot⟩

end Centrald.Proofs.SetupRecovery
