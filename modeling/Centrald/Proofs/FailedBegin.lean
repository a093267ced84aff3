import Centrald.Durable.Faults
import Centrald.Proofs.DatabaseUpdate

/-!
# `Centrald.Proofs.FailedBegin`: a transaction that cannot be begun

One operation of `begin_locked` fails. `write_new_file` reports an error
also when the file is already linked to its name and only the last sync
of the directory fails. The error branches of the two `begin_locked`
remove the files that were written before, but not the one whose write
has failed. For a stage or a recovery copy this does no harm, since the
next recovery removes it. A journal is kept without the files it is about,
and every later recovery refuses it.

After the journal there is one more sync. If it fails, the update of the
database is reported as failed and published by the next recovery.
-/

set_option autoImplicit false

namespace Centrald.Proofs

open Durable Common Function

/-! ### A new file -/

section WriteNewFile

variable {ν : Type} [DecidableEq ν] {k : Nat} {c : Option Nat} {path temporary : ν}
  {contents : Bytes}

/-- What a write in which at most one operation fails makes of the files
`s`, apart from siblings. The failure of the last of its eight operations
leaves the new file, and any other error leaves none. -/
inductive WriteEnds {φ : Type} (path : ν) (file : φ) (c : Option Nat) (s : Fs ν φ) :
    Except SecureFileError Unit → Fs ν φ → Prop where
  | linked (hc : c = some 7) : WriteEnds path file c s (.error .io) (update s path (some file))
  | failed (e : SecureFileError) (hc : c ≠ some 7) (hover : countdown 8 c = none) :
      WriteEnds path file c s (.error e) s
  | written (hc : c ≠ some 7) : WriteEnds path file c s (.ok ()) (update s path (some file))

/-- Neither the file nor its sibling exists. -/
theorem faulted_writeNewFile {φ : Type} [FileData φ] {s : Fs ν φ} {file : φ}
    (hfile : FileData.flush (FileData.edit FileData.empty (.append contents)) = file)
    (hne : temporary ≠ path) (hp : s path = none) (ht : s temporary = none) :
    FaultEnds k c s (writeNewFile path temporary contents) fun r c' s' =>
      c' = countdown 8 c ∧ ∃ w, WriteEnds path file c s r w ∧ AgreeExcept [temporary] w s' := by
  have hearly : ∀ {m : Nat} {s' : Fs ν φ}, m < 7 → AgreeExcept [temporary] s s' → c = some m →
      none = countdown 8 c ∧ ∃ w, WriteEnds path file c s (.error .io) w ∧
        AgreeExcept [temporary] w s' := by
    rintro m s' hm h rfl
    have hover : countdown 8 (some m) = none := if_pos (by omega)
    exact ⟨hover.symm, s, .failed _ (by simp; omega) hover, h⟩
  have h0 : AgreeExcept [temporary] s s := fun x _ => rfl
  unfold writeNewFile
  refine .after (.stat_missing hp) (.act_bind rfl (hearly (by decide) h0) fun _ => ?_)
  -- create, write and sync the temporary sibling; a failed write may leave a first part
  have h1 := h0.update (some FileData.empty)
  refine .act_bind (by simp only [FileOp.run, ht]; rfl) (hearly (by decide) h0) fun _ => ?_
  have h2 := h1.update (some (FileData.edit FileData.empty (.append contents)))
  refine .act_bind (by simp only [FileOp.run, update_self]; rfl) (hearly (by decide) ?_) fun _ => ?_
  · simp only [FileOp.fail, FileOp.run, update_self]
    exact h1.update _
  have h3 := h2.update (some file)
  refine .act_bind (by simp only [FileOp.run, update_self, hfile]; rfl) (hearly (by decide) h2)
    fun _ => ?_
  -- link it into place; if this fails, the sibling is removed
  have h4 := h3.link path (some file)
  refine .attempt_bind (by simp only [FileOp.run, update_self, update_of_ne hne.symm, hp]; rfl)
    (fun hc => ?_) fun _ => ?_
  · exact .remove_bind (by simp only [FileOp.fail, FileOp.run, update_self]; rfl)
      (.ofExcept (hearly (by decide) (h3.update none) hc))
  -- remove the sibling; if this fails, the file is removed again
  refine .attempt_bind (by simp only [FileOp.run, update_self, update_of_ne hne]; rfl)
    (fun hc => ?_) fun _ => ?_
  · refine .remove_bind (by simp only [FileOp.fail, FileOp.run, update_self]; rfl)
      (.ofExcept (hearly (by decide) (fun x hx => ?_) hc))
    grind
  refine .act rfl (fun hc => ?_) fun hc => ⟨rfl, _, .written hc, h4.update none⟩
  exact ⟨by rw [hc]; rfl, _, .linked hc, h4.update none⟩

variable {named : Set ν} {v v' : Fs ν Bytes} {s : Fs ν File}

/-- A new named file, in terms of the bytes of the named files. Other
siblings are left alone. -/
theorem faulted_writeNamed (hpath : path ∈ named) (hfree : temporary ∉ named) (hv : v path = none)
    (hv' : update v path (some contents) = v') (hs : OnDisk named v s) (ht : s temporary = none) :
    FaultEnds k c s (writeNewFile path temporary contents) fun r c' s' => c' = countdown 8 c ∧
      ((c = some 7 ∧ r = .error .io ∧ OnDisk named v' s') ∨
        (c ≠ some 7 ∧ countdown 8 c = none ∧ (∃ e, r = .error e) ∧ OnDisk named v s') ∨
        (c ≠ some 7 ∧ r = .ok () ∧ OnDisk named v' s')) ∧
      ∀ x, x ∉ named → x ≠ temporary → s' x = s x := by
  have hne : temporary ≠ path := fun heq => hfree (heq ▸ hpath)
  have hp : s path = none := by
    rw [hs path hpath, hv]
    rfl
  have hapart : ∀ x ∈ [temporary], x ∉ named := fun x hx => List.mem_singleton.1 hx ▸ hfree
  have hs' := hv' ▸ hs.update path (some contents)
  have hmem : ∀ {x}, x ≠ temporary → x ∉ [temporary] := fun hxt h => hxt (List.mem_singleton.1 h)
  have hother : ∀ {x}, x ∉ named → update s path (some (.durable contents)) x = s x :=
    fun hx => update_of_ne (ne_of_mem_of_not_mem hpath hx).symm _ _
  refine (faulted_writeNewFile rfl hne hp ht).imp ?_
  rintro r c' s' ⟨hc', w, hends, h⟩
  cases hends with
  | linked hc =>
    exact ⟨hc', .inl ⟨hc, rfl, onDisk_of_agreeExcept hapart h hs'⟩,
      fun x hx hxt => (h x (hmem hxt)).trans (hother hx)⟩
  | failed e hc hover =>
    exact ⟨hc', .inr (.inl ⟨hc, hover, ⟨e, rfl⟩, onDisk_of_agreeExcept hapart h hs⟩),
      fun x _ hxt => h x (hmem hxt)⟩
  | written hc =>
    exact ⟨hc', .inr (.inr ⟨hc, rfl, onDisk_of_agreeExcept hapart h hs'⟩),
      fun x hx hxt => (h x (hmem hxt)).trans (hother hx)⟩

/-- Once the failure is over, a named file can be removed. -/
theorem faulted_removeNamed {ε β : Type} {x : ν} {bytes : Bytes} {f : FileReply → FileM ε ν β}
    {Q : Except ε β → Option Nat → Fs ν File → Prop} (hx : x ∈ named) (hv : v x = some bytes)
    (hv' : update v x none = v') (hs : OnDisk named v s)
    (h : OnDisk named v' (update s x none) → FaultEnds k none (update s x none) (f .done) Q) :
    FaultEnds k none s (FileM.attempt (.remove x) >>= f) Q :=
  .remove_bind (Steps.run_remove hs hx hv) (h (hv' ▸ hs.update x none))

/-- The failure comes later. -/
theorem ne_of_countdown {m n : Nat} (hover : countdown m c = none) (hle : m ≤ n) : c ≠ some n := by
  rintro rfl
  rw [countdown, if_neg (by omega)] at hover
  cases hover

end WriteNewFile

end Centrald.Proofs

/-! ### The database update -/

namespace Centrald.Proofs.DatabaseUpdate

open Durable Common Server Server.DatabaseUpdate Function

variable {env : DatabaseEnv} {path : String} {u : Update} {k : Nat} {c : Option Nat}
  {s : Fs DatabaseFile File}

/-- The journal without the stages it is about. -/
def blockedView (env : DatabaseEnv) (path : String) (u : Update) : Fs DatabaseFile Bytes :=
  databaseView path u.old.environment u.old.config (some (env.encodeJournal (u.journal env path)))
    none none

/-- The files are as before, up to stages that the next recovery removes. -/
def Harmless (env : DatabaseEnv) (path : String) (u : Update) (s : Fs DatabaseFile File) : Prop :=
  ∃ stage : Stage, stage.recovered = .idle ∧
    OnDisk (databaseFiles path) (stage.view env path u) s

/-- A step of `begin_locked` that takes `m` operations comes to the stage
`next`, or it fails and does no harm. -/
def StepEnds (env : DatabaseEnv) (path : String) (u : Update) (m : Nat) (c : Option Nat)
    (next : Stage) (r : Except String Unit) (s' : Fs DatabaseFile File) : Prop :=
  (countdown m c = none ∧ (∃ e, r = .error e) ∧ Harmless env path u s') ∨
    (r = .ok () ∧ OnDisk (databaseFiles path) (next.view env path u) s')

theorem temporary_notMem (id : Uuid) : DatabaseFile.temporary id ∉ databaseFiles path := fun h => h

/-- The other siblings are left alone. -/
def KeepsSiblings (id : Uuid) (s s' : Fs DatabaseFile File) : Prop :=
  ∀ id', id' ≠ id → s' (.temporary id') = s (.temporary id')

theorem keepsSiblings_of_others {id : Uuid} {s' : Fs DatabaseFile File}
    (h : ∀ x, x ∉ databaseFiles path → x ≠ .temporary id → s' x = s x) : KeepsSiblings id s s' :=
  fun id' hne => h _ (temporary_notMem id') fun heq => hne (by cases heq; rfl)

theorem faulted_writeEnvironmentStage {id : Uuid}
    (hs : OnDisk (databaseFiles path) (Stage.idle.view env path u) s)
    (hid : s (.temporary id) = none) :
    FaultEnds k c s (ExceptT.adapt env.displayError
        (writeNewFile .environmentStage (.temporary id) u.newEnvironment)) fun r c' s' =>
      c' = countdown 8 c ∧ StepEnds env path u 8 c .environmentStaged r s' ∧
        KeepsSiblings id s s' := by
  refine .adapt ((faulted_writeNamed environmentStage_mem (temporary_notMem id) rfl
    (update_view_environmentStage _) hs hid).imp ?_)
  rintro r c' s' ⟨hc', hends, hothers⟩
  refine ⟨hc', ?_, keepsSiblings_of_others hothers⟩
  rcases hends with ⟨rfl, rfl, h⟩ | ⟨-, hover, ⟨e, rfl⟩, h⟩ | ⟨-, rfl, h⟩
  · exact .inl ⟨rfl, ⟨_, rfl⟩, .environmentStaged, rfl, h⟩
  · exact .inl ⟨hover, ⟨_, rfl⟩, .idle, rfl, h⟩
  · exact .inr ⟨rfl, h⟩

theorem faulted_writeConfigStage {id : Uuid}
    (hs : OnDisk (databaseFiles path) (Stage.environmentStaged.view env path u) s)
    (hid : s (.temporary id) = none) :
    FaultEnds k c s (writeConfigStage env u.newConfig id) fun r c' s' =>
      c' = countdown 8 c ∧ StepEnds env path u 8 c .staged r s' ∧ KeepsSiblings id s s' := by
  refine .result_bind ((faulted_writeNamed configStage_mem (temporary_notMem id) rfl
    (update_view_configStage _) hs hid).imp ?_)
  rintro r c' s' ⟨rfl, hends, hothers⟩
  have hkeeps := keepsSiblings_of_others hothers
  -- if the write fails, the environment stage is removed
  rcases hends with ⟨rfl, rfl, h⟩ | ⟨-, hover, ⟨e, rfl⟩, h⟩ | ⟨-, rfl, h⟩
  · exact faulted_removeNamed environmentStage_mem rfl (update_view_environmentStage _) h fun h' =>
      .ofExcept ⟨rfl, .inl ⟨rfl, ⟨_, rfl⟩, .unstaged, rfl, h'⟩, hkeeps⟩
  · rw [hover]
    exact faulted_removeNamed environmentStage_mem rfl (update_view_environmentStage _) h fun h' =>
      .ofExcept ⟨rfl, .inl ⟨hover, ⟨_, rfl⟩, .idle, rfl, h'⟩, hkeeps⟩
  · exact .ofExcept ⟨rfl, .inr ⟨rfl, h⟩, hkeeps⟩

/-- The journal is the file whose write leaves something that is not
removed. -/
theorem faulted_writeJournal {id : Uuid}
    (hs : OnDisk (databaseFiles path) (Stage.staged.view env path u) s)
    (hid : s (.temporary id) = none) :
    FaultEnds k c s (writeJournal env path u.newConfig id) fun r c' s' => c' = countdown 8 c ∧
      ((c = some 7 ∧ (∃ e, r = .error e) ∧
          OnDisk (databaseFiles path) (blockedView env path u) s') ∨
        (c ≠ some 7 ∧ StepEnds env path u 8 c .journaled r s')) := by
  refine .result_bind ((faulted_writeNamed journal_mem (temporary_notMem id) rfl
    (update_view_journal _) hs hid).imp ?_)
  rintro r c' s' ⟨rfl, hends, -⟩
  -- if the write fails, both stages are removed, but not a journal that is linked
  rcases hends with ⟨rfl, rfl, h⟩ | ⟨hc, hover, ⟨e, rfl⟩, h⟩ | ⟨hc, rfl, h⟩
  · exact faulted_removeNamed environmentStage_mem rfl (update_view_environmentStage _) h fun h' =>
      faulted_removeNamed configStage_mem rfl (update_view_configStage _) h' fun h'' =>
      .ofExcept ⟨rfl, .inl ⟨rfl, ⟨_, rfl⟩, h''⟩⟩
  · rw [hover]
    exact faulted_removeNamed environmentStage_mem rfl (update_view_environmentStage _) h fun h' =>
      faulted_removeNamed configStage_mem rfl (update_view_configStage _) h' fun h'' =>
      .ofExcept ⟨rfl, .inr ⟨hc, .inl ⟨hover, ⟨_, rfl⟩, .idle, rfl, h''⟩⟩⟩
  · exact .ofExcept ⟨rfl, .inr ⟨hc, .inr ⟨rfl, h⟩⟩⟩

section Begin

variable {ids : Nat → Uuid}

section

variable (hs : OnDisk (databaseFiles path) (Stage.idle.view env path u) s)
include hs

/-- A recovery with nothing to recover. Looking for a file that is not there
cannot fail, so only the sync of the directory matters. -/
theorem faulted_recover_idle :
    FaultEnds k c s (recoverInterruptedDatabaseUpdateLocked env) fun r c' s' =>
      s = s' ∧ c' = countdown 4 c ∧ ((c = some 3 ∧ ∃ e, r = .error e) ∨ r = .ok ()) := by
  have horphans : ∀ x ∈ [DatabaseFile.environmentStage, .configStage], s x = none :=
    List.forall_mem_cons.2 ⟨hs _ environmentStage_mem,
      List.forall_mem_singleton.2 (hs _ configStage_mem)⟩
  refine .after (.stat_missing (hs _ journal_mem)) <| .after (.forM fun x hx m =>
    (Faulted.stat_missing_after (horphans x hx)).bind .pure) (.act rfl ?_ ?_)
  · rintro rfl
    exact ⟨rfl, rfl, .inl ⟨rfl, _, rfl⟩⟩
  · exact fun _ => ⟨rfl, rfl, .inr rfl⟩

theorem faulted_rejectAll : Faulted k (countdown 4 c) s
      ([DatabaseFile.journal, .environmentStage, .configStage].forM (rejectUnfinished env))
      (.ok ()) (countdown 7 c) s := by
  have hmissing : ∀ x ∈ [DatabaseFile.journal, .environmentStage, .configStage], s x = none :=
    List.forall_mem_cons.2 ⟨hs _ journal_mem, List.forall_mem_cons.2 ⟨hs _ environmentStage_mem,
      List.forall_mem_singleton.2 (hs _ configStage_mem)⟩⟩
  exact .forM fun x hx m => (Faulted.stat_missing_after (hmissing x hx)).bind .pure

end

/-- What `begin_locked` comes to in which one operation fails. -/
inductive BeginEnds (env : DatabaseEnv) (path : String) (u : Update) (c : Option Nat) :
    Except String Unit → Fs DatabaseFile File → Prop where
  /-- The sync of the directory after the link of the journal fails. -/
  | blocked {s' : Fs DatabaseFile File} (e : String) (hc : c = some 31)
      (h : OnDisk (databaseFiles path) (blockedView env path u) s') :
      BeginEnds env path u c (.error e) s'
  /-- The last operation fails. -/
  | journaled {s' : Fs DatabaseFile File} (e : String) (hc : c = some 32)
      (h : OnDisk (databaseFiles path) (Stage.journaled.view env path u) s') :
      BeginEnds env path u c (.error e) s'
  | failed {s' : Fs DatabaseFile File} (e : String) (hc : c ≠ some 31) (hc' : c ≠ some 32)
      (h : Harmless env path u s') : BeginEnds env path u c (.error e) s'
  | begun {s' : Fs DatabaseFile File} (hc : c ≠ some 31) (hc' : c ≠ some 32) :
      BeginEnds env path u c (.ok ()) s'

section

variable (hs : OnDisk (databaseFiles path) (Stage.idle.view env path u) s)
include hs

/-- The files of the transaction are written after eight operations. -/
theorem faulted_writeTransactionFiles (hids : ∀ i, s (.temporary (ids i)) = none)
    (hinj : Injective ids) :
    FaultEnds k (countdown 8 c) s
      (writeTransactionFiles env path u.newEnvironment u.newConfig ids)
      fun r _ s' => BeginEnds env path u c r s' := by
  have hne : ∀ {i j : Nat}, i ≠ j → ids i ≠ ids j := fun h heq => h (hinj heq)
  -- a stage that fails does so before the journal is written
  have hstage : ∀ {m e s'}, countdown 8 (countdown m c) = none → m < 24 → Harmless env path u s' →
      BeginEnds env path u c (.error e) s' := by
    intro m e s' hover hm h
    rw [countdown_countdown] at hover
    exact .failed e (ne_of_countdown hover (by omega)) (ne_of_countdown hover (by omega)) h
  refine (faulted_writeEnvironmentStage hs (hids 0)).bind ?_ ?_
  · rintro e _ s1 ⟨-, ⟨hover, -, h⟩ | ⟨⟨⟩, -⟩, -⟩
    exact hstage hover (by decide) h
  rintro - _ s1 ⟨rfl, ⟨-, ⟨_, ⟨⟩⟩, -⟩ | ⟨-, hs1⟩, hkeeps1⟩
  rw [countdown_countdown]
  have hid1 : s1 (.temporary (ids 1)) = none := (hkeeps1 _ (hne (by decide))).trans (hids 1)
  refine (faulted_writeConfigStage hs1 hid1).bind ?_ ?_
  · rintro e _ s2 ⟨-, ⟨hover, -, h⟩ | ⟨⟨⟩, -⟩, -⟩
    exact hstage hover (by decide) h
  rintro - _ s2 ⟨rfl, ⟨-, ⟨_, ⟨⟩⟩, -⟩ | ⟨-, hs2⟩, hkeeps2⟩
  rw [countdown_countdown]
  have hid2 : s2 (.temporary (ids 2)) = none :=
    (hkeeps2 _ (hne (by decide))).trans ((hkeeps1 _ (hne (by decide))).trans (hids 2))
  refine (faulted_writeJournal hs2 hid2).bind ?_ ?_
  · rintro e _ s3 ⟨-, ⟨hc, -, h⟩ | ⟨hc, ⟨hover, -, h⟩ | ⟨⟨⟩, -⟩⟩⟩
    · exact .blocked e (countdown_eq_some_iff.1 hc) h
    · rw [countdown_countdown] at hover
      exact .failed e (fun h => hc (countdown_eq_some_iff.2 h)) (ne_of_countdown hover (by omega)) h
  rintro - _ s3 ⟨rfl, ⟨-, ⟨_, ⟨⟩⟩, -⟩ | ⟨hc, ⟨-, ⟨_, ⟨⟩⟩, -⟩ | ⟨-, hs3⟩⟩⟩
  rw [countdown_countdown]
  exact .act rfl (fun hlast => .journaled _ hlast hs3)
    fun hlast => .begun (fun h => hc (countdown_eq_some_iff.2 h)) hlast

/-- The begin of a database update with one failing file operation, at any
place. -/
theorem faulted_beginLocked (henvironment : u.old.environment ≠ none)
    (hids : ∀ i, s (.temporary (ids i)) = none) (hinj : Injective ids) :
    FaultEnds k c s (beginLocked env path u.newEnvironment u.newConfig ids)
      fun r _ s' => BeginEnds env path u c r s' := by
  refine (faulted_recover_idle hs).bind ?_ ?_
  · rintro e _ _ ⟨rfl, -, ⟨rfl, -⟩ | ⟨⟨⟩⟩⟩
    exact .failed e (by decide) (by decide) ⟨.idle, rfl, hs⟩
  rintro - _ _ ⟨rfl, rfl, -⟩
  refine .after (faulted_rejectAll hs) (.stat_bind ?_ fun _ => ?_)
  · -- the environment file cannot be seen
    rintro rfl
    exact .ofExcept (.failed _ (by decide) (by decide) ⟨.idle, rfl, hs⟩)
  · have hfile : (s (.environment path)).isSome = true := by
      rw [hs _ environment_mem, Option.isSome_map]
      simpa [Stage.view, Option.isSome_iff_ne_none] using henvironment
    rw [hfile]
    exact faulted_writeTransactionFiles hs hids hinj

end

end Begin

section Recovery

variable {environment config : Bytes}

section

variable (henv : LawfulDatabase env) (hold : u.old = ⟨some environment, some config⟩)
include henv hold

/-- With the journal alone a recovery succeeds only if the current
configuration happens to have the intended revision. -/
theorem steps_recover_blocked (hrevision : revision env config = revision env u.newConfig) :
    DatabaseSteps path ∅ (blockedView env path u)
      (recoverInterruptedDatabaseUpdateLocked env) (.ok ()) (Stage.idle.view env path u)
      fun _ => True := by
  rw [blockedView, Stage.view, hold]
  refine steps_recover_journal henv trivial ?_
  exact (steps_recoverEnvironment_done trivial).bind <|
    (steps_recoverConfig_done hrevision trivial).bind <|
    (steps_removeJournal trivial trivial).bind (steps_syncParent _ trivial)

theorem steps_recover_blocked_lost (hrevision : revision env config ≠ revision env u.newConfig) :
    DatabaseSteps path ∅ (blockedView env path u) (recoverInterruptedDatabaseUpdateLocked env)
      (.error "database update lost its staged configuration before publication completed")
      (blockedView env path u) fun _ => True := by
  have hconfig : DatabaseSteps path ∅ (blockedView env path u)
      (recoverConfig env (u.journal env path))
      (.error "database update lost its staged configuration before publication completed")
      (blockedView env path u) fun _ => True := by
    rw [blockedView, hold]
    unfold recoverConfig
    refine (Steps.stat configStage_mem trivial).bind ((Steps.read config_mem rfl trivial).bind ?_)
    rw [if_pos (show revision env config ≠ (u.journal env path).intendedRevision from hrevision)]
    exact .throw trivial
  refine steps_recover_journal henv trivial ?_
  rw [blockedView, hold] at hconfig ⊢
  exact (steps_recoverEnvironment_done trivial).bind hconfig.bind_error

end

end Recovery

/-- The next recovery succeeds and leaves the given settings. -/
def RecoversTo (env : DatabaseEnv) (path : String) (settings : Settings)
    (s : Fs DatabaseFile File) : Prop :=
  (∃ s', RecoveryEnds env s (.ok ()) s') ∧
    ∀ r s', RecoveryEnds env s r s' → r = .ok () ∧ HasSettings path s' settings

/-- If `begin_locked` returns an error after its operation `n` has failed,
the next recovery succeeds and leaves the old settings. -/
def FailsSafely (env : DatabaseEnv) (path : String) (u : Update) (ids : Nat → Uuid) (k n : Nat)
    (s : Fs DatabaseFile File) : Prop :=
  ∀ e c' s', Faulted k (some n) s (beginLocked env path u.newEnvironment u.newConfig ids) (.error e)
    c' s' → RecoversTo env path u.old s'

theorem recoversTo_of_steps {v : Fs DatabaseFile Bytes} {environment config : Option Bytes}
    {C : Fs DatabaseFile Bytes → Prop}
    (h : DatabaseSteps path ∅ v (recoverInterruptedDatabaseUpdateLocked env)
      (.ok ()) (databaseView path environment config none none none) C)
    (hs : OnDisk (databaseFiles path) v s) : RecoversTo env path ⟨environment, config⟩ s := by
  obtain ⟨s', -, -, hrun⟩ := h s hs (unused_empty s)
  refine ⟨⟨s', hrun.exec_done⟩, fun r s'' hends => ?_⟩
  obtain ⟨hr, hs'', -⟩ := h.outcome hs (unused_empty s) hends
  refine ⟨hr, ?_, hs'' _ config_mem⟩
  rw [hs'' _ environment_mem, databaseView_environment]

theorem recoversTo_of_stage (henv : LawfulDatabase env) {stage : Stage}
    (hs : OnDisk (databaseFiles path) (stage.view env path u) s) :
    RecoversTo env path (stage.settled u) s := by
  have hrecover : DatabaseSteps path ∅ _ _ _ (stage.recovered.view env path u) _ :=
    steps_recover henv stage
  rw [view_recovered] at hrecover
  exact recoversTo_of_steps hrecover hs

theorem RecoversTo.unique {environment config environment' config' : Bytes}
    (h : RecoversTo env path ⟨some environment, some config⟩ s)
    (h' : RecoversTo env path ⟨some environment', some config'⟩ s) :
    environment = environment' ∧ config = config' := by
  obtain ⟨s', hends⟩ := h.1
  obtain ⟨-, he, hc⟩ := h.2 _ s' hends
  obtain ⟨-, he', hc'⟩ := h'.2 _ s' hends
  exact ⟨congrArg File.synced (Option.some.inj (he.symm.trans he')),
    congrArg File.synced (Option.some.inj (hc.symm.trans hc'))⟩

/-- When the failure of an operation is harmless. -/
theorem failsSafely_iff (henv : LawfulDatabase env) {environment config : Bytes} {ids : Nat → Uuid}
    {n : Nat} (hold : u.old = ⟨some environment, some config⟩)
    (hs : OnDisk (databaseFiles path) (Stage.idle.view env path u) s)
    (hids : ∀ i, s (.temporary (ids i)) = none) (hinj : Injective ids) :
    FailsSafely env path u ids k n s ↔ (n = 31 → revision env config = revision env u.newConfig) ∧
        (n = 32 → environment = u.newEnvironment ∧ config = u.newConfig) := by
  have henvironment : u.old.environment ≠ none := by
    grind
  obtain ⟨r, c', s', hrun, hends⟩ :=
    faulted_beginLocked (k := k) (c := some n) hs henvironment hids hinj
  -- there is one run, so the property is about its end
  rw [FailsSafely, hrun.error_iff]
  cases hends with
  | blocked e hc h =>
    obtain rfl : n = 31 := Option.some.inj hc
    constructor
    · intro hrecovers
      refine ⟨fun _ => ?_, by omega⟩
      by_contra hrevision
      obtain ⟨s'', -, -, hlost⟩ :=
        steps_recover_blocked_lost henv hold hrevision s' h (unused_empty s')
      cases ((hrecovers e rfl).2 _ s'' hlost.exec_done).1
    · rintro ⟨hrevision, -⟩ _ -
      exact recoversTo_of_steps (steps_recover_blocked henv hold (hrevision rfl)) h
  | journaled e hc h =>
    obtain rfl : n = 32 := Option.some.inj hc
    have hnew : RecoversTo env path u.new s' := recoversTo_of_stage henv h
    constructor
    · intro hrecovers
      refine ⟨by omega, fun _ => ?_⟩
      have hboth := hrecovers e rfl
      rw [hold] at hboth
      exact hboth.unique hnew
    · rintro ⟨-, hsame⟩ _ -
      obtain ⟨rfl, rfl⟩ := hsame rfl
      rw [hold]
      exact hnew
  | failed e hc hc' h =>
    obtain ⟨stage, hidle, hstage⟩ := h
    have hrecovers := recoversTo_of_stage henv hstage
    rw [Stage.settled, hidle, if_neg (by decide)] at hrecovers
    grind
  | begun hc hc' =>
    grind

end Centrald.Proofs.DatabaseUpdate

/-! ### The settings update -/

namespace Centrald.Proofs

open Durable Common Server Server.ConfigLock Function

section Settings

variable {env : SettingsEnv} {old new : Bytes} {ids : Nat → Uuid} {k : Nat} {c : Option Nat}
  {s s' : Fs SettingsFile File}

/-- The journal without the recovery copy it is about. -/
def blockedSettings (env : SettingsEnv) (old new : Bytes) : Fs SettingsFile Bytes :=
  settingsView old (some (env.encodeJournal (journalFor env new))) none none

/-- The configuration is as before, and the next recovery keeps it so. -/
def HarmlessSettings (env : SettingsEnv) (old new : Bytes) (s : Fs SettingsFile File) : Prop :=
  ∃ stage : Stage, stage.recovered = .idle ∧ OnDisk settingsFiles (stage.view env old new) s

theorem temporary_notMem (id : Uuid) : SettingsFile.temporary id ∉ settingsFiles := fun h => h

/-- What `begin_locked` comes to in which one operation fails. The siblings
of other identifiers are left alone. -/
inductive SettingsBeginEnds (env : SettingsEnv) (old new : Bytes) (c : Option Nat) :
    Except String Unit → Fs SettingsFile File → Prop where
  /-- The sync of the directory after the link of the journal fails. -/
  | blocked {s' : Fs SettingsFile File} (e : String) (hc : c = some 21)
      (h : OnDisk settingsFiles (blockedSettings env old new) s') :
      SettingsBeginEnds env old new c (.error e) s'
  | failed {s' : Fs SettingsFile File} (e : String) (hc : c ≠ some 21)
      (h : HarmlessSettings env old new s') : SettingsBeginEnds env old new c (.error e) s'
  | begun {s' : Fs SettingsFile File} (hc : c ≠ some 21) :
      SettingsBeginEnds env old new c (.ok ()) s'

/-- The checks before the first write take six operations. They look for
files that are not there, so they cannot fail. -/
theorem faulted_settings_checks (ids : Nat → Uuid)
    (hs : OnDisk settingsFiles (Stage.idle.view env old new) s) :
    Faulted k c s (recoverInterruptedSettingsUpdateLocked env (ids 0) (ids 1)) (.ok ())
        (countdown 3 c) s ∧
      Faulted k (countdown 3 c) s
        ([SettingsFile.journal, .original, .published].forM (rejectUnfinished env)) (.ok ())
        (countdown 6 c) s := by
  have hjournal : s .journal = none := hs _ journal_mem
  have horiginal : s .original = none := hs _ original_mem
  have hpublished : s .published = none := hs _ published_mem
  constructor
  · exact (Faulted.stat_missing hjournal).bind <| (Faulted.stat_missing_after hpublished).bind <|
      (Faulted.stat_missing_after horiginal).bind .pure
  · have hmissing : ∀ x ∈ [SettingsFile.journal, .original, .published], s x = none :=
      List.forall_mem_cons.2 ⟨hjournal, List.forall_mem_cons.2 ⟨horiginal,
        List.forall_mem_singleton.2 hpublished⟩⟩
    exact .forM fun x hx m => (Faulted.stat_missing_after (hmissing x hx)).bind .pure

/-- The siblings of other identifiers are left alone. -/
def KeepsOthers (id : Uuid) (s s' : Fs SettingsFile File) : Prop :=
  ∀ x, x ∉ settingsFiles → x ≠ .temporary id → s' x = s x

theorem faulted_writeOriginal (hs : OnDisk settingsFiles (Stage.idle.view env old new) s)
    (hids : ∀ i, s (.temporary (ids i)) = none) :
    FaultEnds k c s (ExceptT.adapt
        (fun _ => "write settings recovery copy " ++ env.display .original)
        (writeNewFile .original (.temporary (ids 2)) old)) fun r c' s' => c' = countdown 8 c ∧
      ((countdown 8 c = none ∧ (∃ e, r = .error e) ∧ HarmlessSettings env old new s') ∨
        (r = .ok () ∧ OnDisk settingsFiles (Stage.copied.view env old new) s')) ∧
      KeepsOthers (ids 2) s s' := by
  refine .adapt ((faulted_writeNamed original_mem (temporary_notMem _) rfl
    (update_view_original _ _ _ _ _) hs (hids 2)).imp ?_)
  rintro r c' s' ⟨hc', hends, hothers⟩
  refine ⟨hc', ?_, hothers⟩
  rcases hends with ⟨rfl, rfl, h⟩ | ⟨-, hover, ⟨e, rfl⟩, h⟩ | ⟨-, rfl, h⟩
  · exact .inl ⟨rfl, ⟨_, rfl⟩, .copied, rfl, h⟩
  · exact .inl ⟨hover, ⟨_, rfl⟩, .idle, rfl, h⟩
  · exact .inr ⟨rfl, h⟩

/-- The last part of `begin_locked`, from the write of the journal on. -/
theorem faulted_writeSettingsJournal (hs : OnDisk settingsFiles (Stage.copied.view env old new) s)
    (hid : s (.temporary (ids 3)) = none) :
    FaultEnds k c s (do
        match ← FileM.result (writeNewFile .journal (.temporary (ids 3))
            (env.encodeJournal (journalFor env new))) with
        | .ok () => syncParent env
        | .error _ =>
          let _ ← FileM.attempt (.remove .original)
          throw ("write settings update journal " ++ env.display .journal)) fun r _ s' =>
      ((c = some 7 ∧ (∃ e, r = .error e) ∧ OnDisk settingsFiles (blockedSettings env old new) s') ∨
        (c ≠ some 7 ∧ (r = .ok () ∨ ((∃ e, r = .error e) ∧ HarmlessSettings env old new s')))) ∧
      KeepsOthers (ids 3) s s' := by
  refine .result_bind ((faulted_writeNamed journal_mem (temporary_notMem _) rfl
    (update_view_journal _ _ _ _ _) hs hid).imp ?_)
  rintro r c' s' ⟨rfl, hends, hothers⟩
  -- the removal of the recovery copy
  have hothers' : KeepsOthers (ids 3) s (update s' .original none) := by
    intro x hx hxt
    have hne : x ≠ .original := fun heq => hx (heq ▸ original_mem)
    grind
  rcases hends with ⟨rfl, rfl, h⟩ | ⟨hc, hover, ⟨e, rfl⟩, h⟩ | ⟨hc, rfl, h⟩
  · exact faulted_removeNamed original_mem rfl (update_view_original _ _ _ _ _) h fun h' =>
      .ofExcept ⟨.inl ⟨rfl, ⟨_, rfl⟩, h'⟩, hothers'⟩
  · rw [hover]
    exact faulted_removeNamed original_mem rfl (update_view_original _ _ _ _ _) h fun h' =>
      .ofExcept ⟨.inr ⟨hc, .inr ⟨⟨_, rfl⟩, .idle, rfl, h'⟩⟩, hothers'⟩
  · -- the journal is complete, and a recovery restores the copy
    exact .act rfl (fun _ => ⟨.inr ⟨hc, .inr ⟨⟨_, rfl⟩, .begun, rfl, h⟩⟩, hothers⟩)
      fun _ => ⟨.inr ⟨hc, .inl rfl⟩, hothers⟩

/-- The begin of a settings update with one failing file operation, at any
place. -/
theorem faulted_settings_begin (new : Bytes) (henv : LawfulSettings env)
    (hs : OnDisk settingsFiles (Stage.idle.view env old new) s)
    (hids : ∀ i, s (.temporary (ids i)) = none) (hinj : Injective ids) :
    FaultEnds k c s (beginLocked env old (revision env new) ids) fun r _ s' =>
      SettingsBeginEnds env old new c r s' ∧
      ∀ x, x ∉ settingsFiles → x ≠ .temporary (ids 2) → x ≠ .temporary (ids 3) → s' x = s x := by
  obtain ⟨hrecover, hreject⟩ := faulted_settings_checks (k := k) (c := c) ids hs
  have hvalid : Faulted k (countdown 3 c) s (FileM.ofExcept (validateRevision (revision env new)) :
      SettingsM Unit) (.ok ()) (countdown 3 c) s := by
    rw [henv.validateRevision]
    exact .ofExcept
  refine .after hrecover <| .after hvalid <| .after hreject <|
    (faulted_writeOriginal hs hids).bind ?_ ?_
  · rintro e _ s1 ⟨-, ⟨hover, -, h⟩ | ⟨⟨⟩, -⟩, hkeeps1⟩
    rw [countdown_countdown] at hover
    exact ⟨.failed e (ne_of_countdown hover (by decide)) h, fun x hx hx2 _ => hkeeps1 x hx hx2⟩
  rintro - _ s1 ⟨rfl, ⟨-, ⟨_, ⟨⟩⟩, -⟩ | ⟨-, hcopied⟩, hkeeps1⟩
  have hne : ids 3 ≠ ids 2 := fun heq => absurd (hinj heq) (by decide)
  have hid : s1 (.temporary (ids 3)) = none :=
    (hkeeps1 _ (temporary_notMem _) fun heq => hne (SettingsFile.temporary.inj heq)).trans (hids 3)
  rw [countdown_countdown]
  refine (faulted_writeSettingsJournal hcopied hid).imp ?_
  rintro r _ s2 ⟨hends2, hkeeps2⟩
  rw [countdown_eq_some_iff] at hends2
  refine ⟨?_, fun x hx hx2 hx3 => (hkeeps2 x hx hx3).trans (hkeeps1 x hx hx2)⟩
  rcases hends2 with ⟨hc, ⟨e, rfl⟩, h⟩ | ⟨hc, rfl | ⟨⟨e, rfl⟩, h⟩⟩
  · exact .blocked e hc h
  · exact .begun (by simpa [countdown_eq_some_iff] using hc)
  · exact .failed e (by simpa [countdown_eq_some_iff] using hc) h

/-- The next recovery succeeds and leaves the given configuration. -/
def RecoversConfig (env : SettingsEnv) (bytes : Bytes) (s : Fs SettingsFile File) : Prop :=
  (∀ replacementId temporaryId, Unused (siblingsOf {replacementId, temporaryId}) s →
      ∃ s', Exec settingsSem
        (recoverInterruptedSettingsUpdateLocked env replacementId temporaryId).run s
        (.done (.ok ()) s')) ∧
    ∀ r s', RecoveryEnds env s r s' → r = .ok () ∧ HasConfig s' bytes

/-- If `begin_locked` returns an error after its operation `n` has failed,
the next recovery succeeds and leaves the old configuration. -/
def FailsSafely (env : SettingsEnv) (old new : Bytes) (ids : Nat → Uuid) (k n : Nat)
    (s : Fs SettingsFile File) : Prop :=
  ∀ e c' s', Faulted k (some n) s (beginLocked env old (revision env new) ids) (.error e) c' s' →
    RecoversConfig env old s'

theorem recoversTo_of_harmless (henv : LawfulSettings env) (h : HarmlessSettings env old new s) :
    RecoversConfig env old s := by
  obtain ⟨stage, hidle, hs⟩ := h
  constructor
  · intro replacementId temporaryId hunused
    obtain ⟨s', -, -, hrun⟩ := steps_recover henv stage (Set.mem_insert replacementId {temporaryId})
      (Set.mem_insert_of_mem _ rfl) s hs hunused
    exact ⟨s', hrun.exec_done⟩
  · intro r s' hends
    obtain ⟨hr, hs'⟩ := recoveryEnds_stage henv hs hends
    rw [hidle] at hs'
    exact ⟨hr, hs' _ config_mem⟩

theorem steps_recover_blockedSettings (henv : LawfulSettings env) {unused : Set Uuid}
    (replacementId temporaryId : Uuid) :
    Steps settingsFiles (siblingsOf unused) (blockedSettings env old new)
      (recoverInterruptedSettingsUpdateLocked env replacementId temporaryId)
      (.error "settings update journal is missing its original configuration copy")
      (blockedSettings env old new) fun _ => True := by
  have howner : ¬((journalFor env new).version ≠ 1 ∨
      (journalFor env new).configPath ≠ env.configPath) := by
    simp [journalFor]
  have hvalid : validateRevision (journalFor env new).intendedRevision = .ok () :=
    henv.validateRevision new
  unfold recoverInterruptedSettingsUpdateLocked
  refine (Steps.stat journal_mem trivial).bind ((steps_readJournal henv trivial).bind ?_)
  rw [if_neg howner, hvalid]
  exact (Steps.ofExcept trivial).bind ((Steps.stat original_mem trivial).bind (.throw trivial))

/-- When the failure of an operation is harmless. -/
theorem failsSafely_iff_ne {n : Nat} (henv : LawfulSettings env)
    (hs : OnDisk settingsFiles (settingsView old none none none) s)
    (hids : Unused (siblingsOf (Set.range ids)) s) (hinj : Injective ids) :
    FailsSafely env old new ids k n s ↔ n ≠ 21 := by
  have htemporary : ∀ i, s (.temporary (ids i)) = none := fun i => hids _ (Set.mem_range_self i)
  obtain ⟨r, c', s', hrun, hends, hkeeps⟩ :=
    faulted_settings_begin (k := k) (c := some n) new henv hs htemporary hinj
  rw [FailsSafely, hrun.error_iff]
  cases hends with
  | blocked e hc h =>
    obtain rfl : n = 21 := Option.some.inj hc
    refine ⟨fun hrecovers => absurd (hrecovers e rfl) fun hto => ?_, fun hne => absurd rfl hne⟩
    -- two identifiers that `begin_locked` does not draw are still new
    have hne : ∀ {i j : Nat}, i ≠ j → ids i ≠ ids j := fun h heq => h (hinj heq)
    have htemporary' : ∀ i, i ≠ 2 → i ≠ 3 → s' (.temporary (ids i)) = none := by
      intro i h2 h3
      rw [hkeeps _ (temporary_notMem _) (fun heq => hne h2 (SettingsFile.temporary.inj heq))
        (fun heq => hne h3 (SettingsFile.temporary.inj heq))]
      exact htemporary i
    have hreplacement : ∀ i, s' (.replacement (ids i)) = none := by
      intro i
      have hnamed : SettingsFile.replacement (ids i) ∉ settingsFiles := fun hmem => hmem
      rw [hkeeps _ hnamed nofun nofun]
      exact hids _ (Set.mem_range_self i)
    have hunused : Unused (siblingsOf {ids 4, ids 5}) s' :=
      unused_siblings ⟨htemporary' 4 (by decide) (by decide), hreplacement 4,
        htemporary' 5 (by decide) (by decide), hreplacement 5⟩
    obtain ⟨s'', -, -, hlost⟩ := steps_recover_blockedSettings henv (ids 4) (ids 5) s' h hunused
    cases (hto.2 _ s'' ⟨_, _, hunused, hlost.exec_done⟩).1
  | failed e hc h =>
    exact ⟨fun _ hn => hc (congrArg some hn), fun _ _ _ => recoversTo_of_harmless henv h⟩
  | begun hc => exact ⟨fun _ hn => hc (congrArg some hn), fun _ _ h => nomatch h⟩

end Settings

/-- One operation of a `begin_locked` fails, and the call returns an error.
The next recovery succeeds and leaves the old files, unless the operation
is the sync of the directory after the link of the journal. With the same
revision as before, the database update recovers from that too. The sync
that follows the journal of a database update must not fail either, unless
nothing changes. -/
theorem failed_begin_safe_iff {denv : DatabaseUpdate.DatabaseEnv} {path : String}
    {u : DatabaseUpdate.Update}
    {environment config : Bytes} {env : SettingsEnv} {old new : Bytes} {ids : Nat → Uuid}
    {k n : Nat} {s : Fs DatabaseUpdate.DatabaseFile File} {t : Fs SettingsFile File}
    (hdenv : DatabaseUpdate.LawfulDatabase denv) (hold : u.old = ⟨some environment, some config⟩)
    (hs : OnDisk (DatabaseUpdate.databaseFiles path)
      (DatabaseUpdate.databaseView path (some environment) (some config) none none none) s)
    (hsids : Unused (DatabaseUpdate.siblingsOf (Set.range ids)) s)
    (henv : LawfulSettings env) (ht : OnDisk settingsFiles (settingsView old none none none) t)
    (htids : Unused (siblingsOf (Set.range ids)) t) (hinj : Injective ids) :
    (DatabaseUpdate.FailsSafely denv path u ids k n s ↔
      (n = 31 → DatabaseUpdate.revision denv config = DatabaseUpdate.revision denv u.newConfig) ∧
        (n = 32 → environment = u.newEnvironment ∧ config = u.newConfig)) ∧
    (FailsSafely env old new ids k n t ↔ n ≠ 21) := by
  have hidle : DatabaseUpdate.databaseView path (some environment) (some config) none none none =
      DatabaseUpdate.Stage.idle.view denv path u := by
    rw [DatabaseUpdate.Stage.view, hold]
  rw [hidle] at hs
  exact ⟨DatabaseUpdate.failsSafely_iff hdenv hold hs (fun i => hsids _ (Set.mem_range_self i))
    hinj, failsSafely_iff_ne henv ht htids hinj⟩

/-! ### A failed sync -/

/-- The sync of the directory after the link of the environment stage may
fail, and so may the second operation on the journal of the settings. -/
theorem failed_begin_safe_early :
    DatabaseUpdate.FailsSafely DatabaseUpdate.sampleDatabase "server.env"
        DatabaseUpdate.sampleUpdate id 0 15 DatabaseUpdate.oldDatabase ∧
      FailsSafely sampleSettings [1] [2] id 0 15 (oldSettings [1]) := by
  obtain ⟨hdatabase, hsettings⟩ : (_ ↔ _) ∧
      (FailsSafely sampleSettings [1] [2] id 0 15 (oldSettings [1]) ↔ _) :=
    failed_begin_safe_iff (u := DatabaseUpdate.sampleUpdate) DatabaseUpdate.sampleDatabase_lawful
      rfl DatabaseUpdate.onDisk_oldDatabase DatabaseUpdate.unused_oldDatabase
      sampleSettings_lawful onDisk_oldSettings
      unused_oldSettings Function.injective_id
  exact ⟨hdatabase.2 ⟨by decide, by decide⟩, hsettings.2 (by decide)⟩

/-- The three syncs that must not fail. -/
theorem failed_begin_unsafe : ¬DatabaseUpdate.FailsSafely DatabaseUpdate.sampleDatabase "server.env"
        DatabaseUpdate.sampleUpdate id 0 31 DatabaseUpdate.oldDatabase ∧
      ¬DatabaseUpdate.FailsSafely DatabaseUpdate.sampleDatabase "server.env"
        DatabaseUpdate.sampleUpdate id 0 32 DatabaseUpdate.oldDatabase ∧
      ¬FailsSafely sampleSettings [1] [2] id 0 21 (oldSettings [1]) := by
  have hdatabase : ∀ n, DatabaseUpdate.FailsSafely DatabaseUpdate.sampleDatabase "server.env"
      DatabaseUpdate.sampleUpdate id 0 n DatabaseUpdate.oldDatabase ↔ _ := fun n =>
    DatabaseUpdate.failsSafely_iff DatabaseUpdate.sampleDatabase_lawful rfl
      DatabaseUpdate.onDisk_oldDatabase
      (fun _ => rfl) Function.injective_id
  refine ⟨?_, ?_, ?_⟩
  · rw [hdatabase]
    intro h
    exact absurd (h.1 rfl) (by decide)
  · rw [hdatabase]
    intro h
    exact absurd (h.2 rfl).1 (by decide)
  · rw [failsSafely_iff_ne sampleSettings_lawful onDisk_oldSettings unused_oldSettings
      Function.injective_id]
    exact fun h => h rfl

end Centrald.Proofs
