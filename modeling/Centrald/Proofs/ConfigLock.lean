import Centrald.Durable.JsonProofs
import Centrald.Proofs.SecureFs
import Centrald.Server.ConfigLock
import Mathlib.Data.Set.Insert
import Mathlib.Logic.Relation

/-!
# `Centrald.Proofs.ConfigLock`: a settings update that crashes

The named files of a settings update change only by links, renames and
removals, so between two operations they are on disk as a whole. A
`Stage` is a state of these files that an update of `old` to `new`, its
rollback or a recovery can leave. `steps_recover` says for every stage
where a recovery ends and at which stages a crash may stop it.

From every stage a recovery that runs to the end succeeds, removes the
files of the transaction and leaves the old or the new bytes. Without a
further condition it does not keep a published update: a recovery
removes the publication marker before the journal, and when a crash
stops it in between, the next recovery sees an unpublished update and
restores the old bytes (`published_update_restored`).
`settings_update_crash_atomic` states what holds, and for the last part
which crashes it excludes.
-/

set_option autoImplicit false

namespace Centrald.Proofs

open Durable Common Server Server.ConfigLock Function

/-! ### The files of an update -/

/-- The files with a fixed name. -/
def settingsFiles : Set SettingsFile := fun x =>
  match x with
  | .temporary _ | .replacement _ => False
  | _ => True

theorem config_mem : SettingsFile.config ∈ settingsFiles := trivial
theorem journal_mem : SettingsFile.journal ∈ settingsFiles := trivial
theorem original_mem : SettingsFile.original ∈ settingsFiles := trivial
theorem published_mem : SettingsFile.published ∈ settingsFiles := trivial

/-- The siblings whose names carry one of the identifiers. -/
def siblingsOf (ids : Set Uuid) : Set SettingsFile := fun x =>
  match x with
  | .temporary id | .replacement id => id ∈ ids
  | _ => False

/-- The bytes of the files with a fixed name. -/
def settingsView (config : Bytes) (journal original published : Option Bytes) :
    Fs SettingsFile Bytes
  | .config => some config
  | .journal => journal
  | .original => original
  | .published => published
  | _ => none

section View

variable (c c' : Bytes) (j o p x : Option Bytes)

@[simp] theorem update_view_config :
    update (settingsView c j o p) .config (some c') = settingsView c' j o p := by
  funext y
  cases y <;> rfl

@[simp] theorem update_view_journal :
    update (settingsView c j o p) .journal x = settingsView c x o p := by
  funext y
  cases y <;> rfl

@[simp] theorem update_view_original :
    update (settingsView c j o p) .original x = settingsView c j x p := by
  funext y
  cases y <;> rfl

@[simp] theorem update_view_published :
    update (settingsView c j o p) .published x = settingsView c j o x := by
  funext y
  cases y <;> rfl

end View

/-! ### Revisions -/

theorem utf8Bytes_ofList (l : List Char) :
    utf8Bytes (String.ofList l) = l.flatMap String.utf8EncodeChar := by
  simp [utf8Bytes, List.utf8Encode]

/-- A hexadecimal digit is one byte, which `is_ascii_hexdigit` accepts. -/
theorem utf8EncodeChar_digitChar {n : Nat} (h : n < 16) :
    ∃ b, String.utf8EncodeChar (Nat.digitChar n) = [b] ∧ isAsciiHexdigit b = true := by
  have hall : ∀ n : Fin 16, ∃ b, String.utf8EncodeChar (Nat.digitChar n) = [b] ∧
      isAsciiHexdigit b = true := by
    intro n
    refine ⟨(String.utf8EncodeChar (Nat.digitChar n)).headD 0, ?_⟩
    revert n
    decide
  exact hall ⟨n, h⟩

/-- The hexadecimal text of some bytes. -/
theorem utf8Bytes_hexEncode (bytes : Bytes) :
    (utf8Bytes (hexEncode bytes)).length = 2 * bytes.length ∧
      (utf8Bytes (hexEncode bytes)).all isAsciiHexdigit = true := by
  rw [hexEncode, utf8Bytes_ofList]
  induction bytes with
  | nil => exact ⟨rfl, rfl⟩
  | cons b rest ih =>
    obtain ⟨high, hhigh, hhigh'⟩ := utf8EncodeChar_digitChar (n := b.toNat / 16)
      (by have := b.toNat_lt; omega)
    obtain ⟨low, hlow, hlow'⟩ := utf8EncodeChar_digitChar (n := b.toNat % 16) (by omega)
    simp only [List.flatMap_cons, List.flatMap_append, List.flatMap_nil, hhigh, hlow,
      List.append_nil, List.length_append, List.length_cons, List.length_nil, List.all_append,
      List.all_cons, List.all_nil, hhigh', hlow', Bool.and_self, ih.1, ih.2]
    exact ⟨by omega, trivial⟩

/-- What the functions outside the model do: SHA-256 gives 32 bytes, and
the JSON text of a journal reads back. -/
structure LawfulSettings (env : SettingsEnv) : Prop where
  digest : ∀ bytes, (env.sha256 bytes).length = 32
  readBack : ∀ journal, env.decodeJournal (env.encodeJournal journal) = some journal

variable {env : SettingsEnv}

/-- The text of a digest is a revision. -/
theorem validateRevision_hexEncode {digest : Bytes} (h : digest.length = 32) :
    validateRevision (hexEncode digest) = .ok () := by
  obtain ⟨hlength, hall⟩ := utf8Bytes_hexEncode digest
  rw [h] at hlength
  rw [ConfigLock.validateRevision, hlength, hall]
  simp

theorem LawfulSettings.validateRevision (henv : LawfulSettings env) (bytes : Bytes) :
    validateRevision (revision env bytes) = .ok () :=
  validateRevision_hexEncode (henv.digest bytes)

/-! ### The parts of the programs -/

/-- `Steps` for the files of a settings update. -/
abbrev SettingsSteps {ε α : Type} (ids : Set Uuid) (v : Fs SettingsFile Bytes)
    (p : FileM ε SettingsFile α) (r : Except ε α) (v' : Fs SettingsFile Bytes)
    (C : Fs SettingsFile Bytes → Prop) : Prop :=
  Steps settingsFiles (siblingsOf ids) v p r v' C

section Parts

variable {ids : Set Uuid} {v : Fs SettingsFile Bytes} {C : Fs SettingsFile Bytes → Prop}

theorem steps_syncParent (hC : C v) :
    SettingsSteps ids v (syncParent env) (.ok ()) v C :=
  .metadata hC

/-- A name that is not there stays away. -/
theorem steps_removeIfExists {x : SettingsFile} {v' : Fs SettingsFile Bytes}
    (hx : x ∈ settingsFiles) (hx' : x ∉ siblingsOf ids) (hv' : update v x none = v')
    (hC : C v) (hC' : C v') :
    SettingsSteps ids v (removeIfExists env x) (.ok ()) v' C := by
  cases hv : v x with
  | none =>
    rw [← hv, update_eq_self] at hv'
    subst hv'
    exact (Steps.remove_missing hx hv hC).bind (.pure hC)
  | some bytes => exact (Steps.remove hx hx' hv hv' hC hC').bind (.pure hC')

theorem steps_rejectUnfinished {x : SettingsFile} (hx : x ∈ settingsFiles) (hv : v x = none)
    (hC : C v) :
    SettingsSteps ids v (rejectUnfinished env x) (.ok ()) v C := by
  have hstat : SettingsSteps ids v (FileM.stat x : SettingsM Bool)
      (.ok (v x).isSome) v C := .stat hx hC
  rw [hv] at hstat
  exact hstat.bind (.pure hC)

end Parts

section Views

variable {ids : Set Uuid} {C : Fs SettingsFile Bytes → Prop} {c : Bytes} {j o p : Option Bytes}

section

variable (hC : C (settingsView c j o p))
include hC

theorem steps_removeJournal (hC' : C (settingsView c none o p)) :
    SettingsSteps ids (settingsView c j o p) (removeIfExists env .journal)
      (.ok ()) (settingsView c none o p) C :=
  steps_removeIfExists trivial id (update_view_journal c j o p none) hC hC'

theorem steps_removeOriginal (hC' : C (settingsView c j none p)) :
    SettingsSteps ids (settingsView c j o p) (removeIfExists env .original)
      (.ok ()) (settingsView c j none p) C :=
  steps_removeIfExists trivial id (update_view_original c j o p none) hC hC'

theorem steps_removePublished (hC' : C (settingsView c j o none)) :
    SettingsSteps ids (settingsView c j o p) (removeIfExists env .published)
      (.ok ()) (settingsView c j o none) C :=
  steps_removeIfExists trivial id (update_view_published c j o p none) hC hC'

end

theorem steps_cleanupTransactionFiles (h0 : C (settingsView c j o p))
    (h1 : C (settingsView c j o none)) (h2 : C (settingsView c none o none))
    (h3 : C (settingsView c none none none)) :
    SettingsSteps ids (settingsView c j o p) (cleanupTransactionFiles env)
      (.ok ()) (settingsView c none none none) C :=
  (steps_removePublished h0 h1).bind <| (steps_removeJournal h1 h2).bind <|
    (steps_removeOriginal h2 h3).bind (.pure h3)

variable {journal : SettingsUpdateJournal}

theorem steps_readJournal (henv : LawfulSettings env)
    (hC : C (settingsView c (some (env.encodeJournal journal)) o p)) :
    SettingsSteps ids (settingsView c (some (env.encodeJournal journal)) o p)
      (readJournal env) (.ok journal)
      (settingsView c (some (env.encodeJournal journal)) o p) C := by
  refine (Steps.read journal_mem rfl hC).bind ?_
  rw [henv.readBack]
  exact .pure hC

/-- Giving the configuration other bytes. -/
theorem steps_replaceConfig {r t : Uuid} {contents : Bytes} (hr : r ∈ ids) (ht : t ∈ ids)
    (hC : C (settingsView c j o p)) (hC' : C (settingsView contents j o p)) :
    SettingsSteps ids (settingsView c j o p)
      (replaceFileAtomically .config (.replacement r) (.temporary t) contents) (.ok ())
      (settingsView contents j o p) C :=
  steps_replaceFileAtomically config_mem id hr id ht id nofun rfl (update_view_config ..) hC hC'

theorem steps_restoreOriginal {r t : Uuid} {original : Bytes} (hr : r ∈ ids) (ht : t ∈ ids)
    (hC : C (settingsView c j (some original) p))
    (hC' : C (settingsView original j (some original) p)) :
    SettingsSteps ids (settingsView c j (some original) p)
      (restoreOriginal env r t) (.ok ()) (settingsView original j (some original) p) C :=
  (Steps.read original_mem rfl hC).bind ((steps_replaceConfig hr ht hC hC').adapt _)

/-- Without a marker nothing is published. With one, the marker and the
configuration decide. -/
theorem steps_isPublished {marker : String}
    (hC : C (settingsView c j o (some (utf8Bytes marker)))) :
    SettingsSteps ids (settingsView c j o (some (utf8Bytes marker)))
      (isPublished env journal) (.ok (marker == journal.intendedRevision &&
        revision env c == journal.intendedRevision))
      (settingsView c j o (some (utf8Bytes marker))) C :=
  (Steps.stat published_mem hC).bind <| (Steps.readToString published_mem rfl hC).bind <|
    (Steps.read config_mem rfl hC).bind (.pure hC)

theorem steps_isPublished_unmarked (hC : C (settingsView c j o none)) :
    SettingsSteps ids (settingsView c j o none) (isPublished env journal)
      (.ok false) (settingsView c j o none) C :=
  (Steps.stat published_mem hC).bind (.pure hC)

end Views

/-! ### The recovery -/

/-- The journal of an update to `new`. -/
def journalFor (env : SettingsEnv) (new : Bytes) : SettingsUpdateJournal :=
  ⟨1, env.configPath, revision env new⟩

/-- The files with the journal of an update to `new`. -/
abbrev begunView (env : SettingsEnv) (new c : Bytes) (o p : Option Bytes) : Fs SettingsFile Bytes :=
  settingsView c (some (env.encodeJournal (journalFor env new))) o p

section Recovery

variable {ids : Set Uuid} {C : Fs SettingsFile Bytes → Prop} {c new original : Bytes}
  {o p : Option Bytes} {r t : Uuid}

/-- With the journal of an update and its copy, the recovery comes to
the question whether the update is published. -/
theorem steps_recover_journal {b : Bool} {c' : Bytes} (henv : LawfulSettings env)
    (hC : C (begunView env new c (some original) p))
    (hpublished : SettingsSteps ids (begunView env new c (some original) p)
      (isPublished env (journalFor env new)) (.ok b)
      (begunView env new c (some original) p) C)
    (hrest : SettingsSteps ids (begunView env new c (some original) p)
      (if b = true then do
        cleanupTransactionFiles env
        syncParent env
      else do
        restoreOriginal env r t
        cleanupTransactionFiles env
        syncParent env) (.ok ()) (settingsView c' none none none) C) :
    SettingsSteps ids (begunView env new c (some original) p)
      (recoverInterruptedSettingsUpdateLocked env r t) (.ok ())
      (settingsView c' none none none) C := by
  have howner : ¬((journalFor env new).version ≠ 1 ∨
      (journalFor env new).configPath ≠ env.configPath) := by
    simp [journalFor]
  have hvalid : validateRevision (journalFor env new).intendedRevision = .ok () :=
    henv.validateRevision new
  unfold recoverInterruptedSettingsUpdateLocked
  refine (Steps.stat journal_mem hC).bind ((steps_readJournal henv hC).bind ?_)
  rw [if_neg howner, hvalid]
  exact (Steps.ofExcept hC).bind ((Steps.stat original_mem hC).bind (hpublished.bind hrest))

/-- A published update is kept. -/
theorem steps_recover_published {marker : Bytes}
    (hmarker : marker = utf8Bytes (revision env new)) (henv : LawfulSettings env)
    (h0 : C (begunView env new new (some original) (some marker)))
    (h1 : C (begunView env new new (some original) none))
    (h2 : C (settingsView new none (some original) none))
    (h3 : C (settingsView new none none none)) :
    SettingsSteps ids (begunView env new new (some original) (some marker))
      (recoverInterruptedSettingsUpdateLocked env r t) (.ok ())
      (settingsView new none none none) C := by
  subst hmarker
  have hmatch : (revision env new == (journalFor env new).intendedRevision &&
      revision env new == (journalFor env new).intendedRevision) = true := by
    simp [journalFor]
  refine steps_recover_journal henv h0 (steps_isPublished h0) ?_
  rw [if_pos hmatch]
  exact (steps_cleanupTransactionFiles h0 h1 h2 h3).bind (steps_syncParent h3)

/-- The copy of an update that is not published is restored. -/
theorem steps_recover_unpublished (hr : r ∈ ids) (ht : t ∈ ids) (henv : LawfulSettings env)
    (h0 : C (begunView env new c (some original) p))
    (hpublished : SettingsSteps ids (begunView env new c (some original) p)
      (isPublished env (journalFor env new)) (.ok false)
      (begunView env new c (some original) p) C)
    (h1 : C (begunView env new original (some original) p))
    (h2 : C (begunView env new original (some original) none))
    (h3 : C (settingsView original none (some original) none))
    (h4 : C (settingsView original none none none)) :
    SettingsSteps ids (begunView env new c (some original) p)
      (recoverInterruptedSettingsUpdateLocked env r t) (.ok ())
      (settingsView original none none none) C := by
  refine steps_recover_journal henv h0 hpublished ?_
  rw [if_neg Bool.false_ne_true]
  exact (steps_restoreOriginal hr ht h0 h1).bind <|
    (steps_cleanupTransactionFiles h1 h2 h3 h4).bind (steps_syncParent h4)

/-- A marker without a journal: the update is committed. -/
theorem steps_recover_committed {marker : Bytes}
    (hmarker : marker = utf8Bytes (revision env new)) (henv : LawfulSettings env)
    (h0 : C (settingsView new none o (some marker)))
    (h1 : C (settingsView new none none (some marker)))
    (h2 : C (settingsView new none none none)) :
    SettingsSteps ids (settingsView new none o (some marker))
      (recoverInterruptedSettingsUpdateLocked env r t) (.ok ())
      (settingsView new none none none) C := by
  subst hmarker
  have hsame : ¬(revision env new ≠ revision env new) := fun h => h rfl
  unfold recoverInterruptedSettingsUpdateLocked recoverWithoutJournal
  refine (Steps.stat journal_mem h0).bind <| (Steps.stat published_mem h0).bind <|
    (Steps.readToString published_mem rfl h0).bind ?_
  rw [henv.validateRevision]
  refine (Steps.ofExcept h0).bind ((Steps.read config_mem rfl h0).bind ?_)
  rw [if_neg hsame]
  exact (steps_removeOriginal h0 h1).bind ((steps_removePublished h1 h2).bind (steps_syncParent h2))

/-- A copy on its own is removed. -/
theorem steps_recover_orphan (h0 : C (settingsView c none (some original) none))
    (h1 : C (settingsView c none none none)) :
    SettingsSteps ids (settingsView c none (some original) none)
      (recoverInterruptedSettingsUpdateLocked env r t) (.ok ())
      (settingsView c none none none) C := by
  unfold recoverInterruptedSettingsUpdateLocked recoverWithoutJournal
  refine (Steps.stat journal_mem h0).bind <| (Steps.stat published_mem h0).bind <|
    (Steps.stat original_mem h0).bind ?_
  exact (Steps.remove_act original_mem id rfl (update_view_original ..) h0 h1).bind
    (steps_syncParent h1)

theorem steps_recover_idle (hC : C (settingsView c none none none)) :
    SettingsSteps ids (settingsView c none none none)
      (recoverInterruptedSettingsUpdateLocked env r t) (.ok ())
      (settingsView c none none none) C :=
  (Steps.stat journal_mem hC).bind <| (Steps.stat published_mem hC).bind <|
    (Steps.stat original_mem hC).bind (.pure hC)

end Recovery

/-! ### The stages of an update -/

/-- What an update, its rollback or a recovery leaves of the files. -/
inductive Stage where
  /-- The old configuration alone. -/
  | idle
  /-- The copy is written. -/
  | copied
  /-- The journal is written. -/
  | begun
  /-- The configuration has the new bytes. -/
  | replaced
  /-- The publication marker is written. -/
  | marked
  /-- `complete` has removed the journal. -/
  | committed
  /-- `complete` has removed the copy too. -/
  | retired
  /-- The new configuration alone. -/
  | finished
  /-- A recovery has removed the marker and the journal. -/
  | unmarked
  /-- A rollback has restored the old bytes. -/
  | restored
  deriving DecidableEq

/-- The bytes of the files at a stage of the update of `old` to `new`. -/
def Stage.view (env : SettingsEnv) (old new : Bytes) : Stage → Fs SettingsFile Bytes :=
  let journal := some (env.encodeJournal (journalFor env new))
  let marker := some (utf8Bytes (revision env new))
  fun stage =>
    match stage with
    | .idle => settingsView old none none none
    | .copied => settingsView old none (some old) none
    | .begun => settingsView old journal (some old) none
    | .replaced => settingsView new journal (some old) none
    | .marked => settingsView new journal (some old) marker
    | .committed => settingsView new none (some old) marker
    | .retired => settingsView new none none marker
    | .finished => settingsView new none none none
    | .unmarked => settingsView new none (some old) none
    | .restored => settingsView old journal (some old) marker

/-- Where a recovery ends. -/
def Stage.recovered : Stage → Stage
  | .idle | .copied | .begun | .replaced | .restored => .idle
  | .marked | .committed | .retired | .finished | .unmarked => .finished

/-- Where a crash may stop a recovery. -/
def Stage.stops : Stage → List Stage
  | .idle => [.idle]
  | .copied => [.copied, .idle]
  | .begun => [.begun, .copied, .idle]
  | .replaced => [.replaced, .begun, .copied, .idle]
  | .restored => [.restored, .begun, .copied, .idle]
  | .marked => [.marked, .replaced, .unmarked, .finished]
  | .committed => [.committed, .retired, .finished]
  | .retired => [.retired, .finished]
  | .finished => [.finished]
  | .unmarked => [.unmarked, .finished]

/-- The bytes at one of the stages. -/
def AtStage (env : SettingsEnv) (old new : Bytes) (stages : List Stage)
    (w : Fs SettingsFile Bytes) : Prop :=
  ∃ stage ∈ stages, w = stage.view env old new

variable {old new : Bytes}

theorem AtStage.mono {stages stages' : List Stage} (h : stages ⊆ stages')
    (w : Fs SettingsFile Bytes) (hw : AtStage env old new stages w) :
    AtStage env old new stages' w := by
  obtain ⟨stage, hstage, rfl⟩ := hw
  exact ⟨stage, h hstage, rfl⟩

theorem atStage {stages : List Stage} (stage : Stage) (h : decide (stage ∈ stages) = true) :
    AtStage env old new stages (stage.view env old new) :=
  ⟨stage, of_decide_eq_true h, rfl⟩

theorem steps_recover (henv : LawfulSettings env) (stage : Stage) {ids : Set Uuid} {r t : Uuid}
    (hr : r ∈ ids) (ht : t ∈ ids) :
    SettingsSteps ids (stage.view env old new)
      (recoverInterruptedSettingsUpdateLocked env r t) (.ok ())
      (stage.recovered.view env old new) (AtStage env old new stage.stops) := by
  cases stage with
  | idle => exact steps_recover_idle (atStage .idle rfl)
  | copied =>
    exact steps_recover_orphan (atStage .copied rfl) (atStage .idle rfl)
  | begun =>
    have hbegun : AtStage env old new Stage.begun.stops (Stage.begun.view env old new) :=
      atStage .begun rfl
    exact steps_recover_unpublished hr ht henv hbegun (steps_isPublished_unmarked hbegun) hbegun
      hbegun (atStage .copied rfl) (atStage .idle rfl)
  | replaced =>
    have hreplaced : AtStage env old new Stage.replaced.stops (Stage.replaced.view env old new) :=
      atStage .replaced rfl
    exact steps_recover_unpublished hr ht henv hreplaced (steps_isPublished_unmarked hreplaced)
      (atStage .begun rfl) (atStage .begun rfl) (atStage .copied rfl)
      (atStage .idle rfl)
  | restored =>
    have hrestored : AtStage env old new Stage.restored.stops (Stage.restored.view env old new) :=
      atStage .restored rfl
    -- the marker is there, so the old configuration decides
    refine steps_recover_journal henv hrestored (steps_isPublished hrestored) ?_
    split
    · exact (steps_cleanupTransactionFiles hrestored (atStage .begun rfl)
        (atStage .copied rfl) (atStage .idle rfl)).bind
        (steps_syncParent (atStage .idle rfl))
    · exact (steps_restoreOriginal hr ht hrestored hrestored).bind <|
        (steps_cleanupTransactionFiles hrestored (atStage .begun rfl)
        (atStage .copied rfl) (atStage .idle rfl)).bind
        (steps_syncParent (atStage .idle rfl))
  | marked =>
    exact steps_recover_published rfl henv (atStage .marked rfl)
      (atStage .replaced rfl) (atStage .unmarked rfl)
      (atStage .finished rfl)
  | committed =>
    exact steps_recover_committed rfl henv (atStage .committed rfl)
      (atStage .retired rfl) (atStage .finished rfl)
  | retired =>
    exact steps_recover_committed rfl henv (atStage .retired rfl)
      (atStage .retired rfl) (atStage .finished rfl)
  | finished => exact steps_recover_idle (atStage .finished rfl)
  | unmarked =>
    exact steps_recover_orphan (atStage .unmarked rfl) (atStage .finished rfl)

/-! ### The update -/

section Update

variable {ids : Nat → Uuid}

theorem temporary_mem (n : Nat) : .temporary (ids n) ∈ siblingsOf (Set.range ids) := ⟨n, rfl⟩

/-- The begin of an update stops at one of three stages, whatever crash
there is. -/
theorem steps_beginLocked (henv : LawfulSettings env) :
    SettingsSteps (Set.range ids) (Stage.idle.view env old new)
      (beginLocked env old (revision env new) ids) (.ok ()) (Stage.begun.view env old new)
      (AtStage env old new [.idle, .copied, .begun]) := by
  have h0 : AtStage env old new [.idle, .copied, .begun] (settingsView old none none none) :=
    atStage .idle rfl
  have h1 : AtStage env old new [.idle, .copied, .begun] (settingsView old none (some old) none) :=
    atStage .copied rfl
  have h2 : AtStage env old new [.idle, .copied, .begun] (begunView env new old (some old) none) :=
    atStage .begun rfl
  unfold beginLocked
  refine (steps_recover_idle h0).bind ?_
  rw [henv.validateRevision]
  refine (Steps.ofExcept h0).bind ?_
  refine Steps.bind ((steps_rejectUnfinished journal_mem rfl h0).bind <|
    (steps_rejectUnfinished original_mem rfl h0).bind <|
    (steps_rejectUnfinished published_mem rfl h0).bind (.pure h0)) ?_
  refine ((steps_writeNewFile original_mem id (temporary_mem 2) id rfl
    (update_view_original ..) h0 h1).adapt _).bind ?_
  exact (steps_writeNewFile journal_mem id (temporary_mem 3) id rfl
    (update_view_journal ..) h1 h2).result.bind (steps_syncParent h2)

theorem steps_markPublished (henv : LawfulSettings env) {n : Nat} :
    SettingsSteps (Set.range ids) (Stage.replaced.view env old new)
      (markPublished env (ids n)) (.ok ()) (Stage.marked.view env old new)
      (AtStage env old new [.replaced, .marked]) := by
  have h0 : AtStage env old new [.replaced, .marked] (begunView env new new (some old) none) :=
    atStage .replaced rfl
  have h1 : AtStage env old new [.replaced, .marked] (Stage.marked.view env old new) :=
    atStage .marked rfl
  have hsame : ¬(revision env new ≠ (journalFor env new).intendedRevision) := fun h => h rfl
  unfold markPublished
  refine (Steps.read config_mem rfl h0).bind ((steps_readJournal henv h0).bind ?_)
  rw [if_neg hsame]
  exact ((steps_writeNewFile published_mem id (temporary_mem n) id rfl
    (update_view_published ..) h0 h1).adapt _).bind (steps_syncParent h1)

theorem steps_complete {unused : Set Uuid} :
    SettingsSteps unused (Stage.marked.view env old new) (complete env)
      (.ok ()) (Stage.finished.view env old new)
      (AtStage env old new [.marked, .committed, .retired, .finished]) :=
  (steps_removeJournal (atStage .marked rfl) (atStage .committed rfl)).bind <|
    (steps_syncParent (atStage .committed rfl)).bind <|
    (steps_removeOriginal (atStage .committed rfl) (atStage .retired rfl)).bind <|
    (steps_removePublished (atStage .retired rfl) (atStage .finished rfl)).bind
    (steps_syncParent (atStage .finished rfl))

/-- A failure after the marker rolls the update back. -/
theorem steps_failSettingsUpdate (operation error : String) :
    SettingsSteps (Set.range ids) (Stage.marked.view env old new)
      (failSettingsUpdate env operation error ids)
      (.error (settingsUpdateFailure operation error (.ok ()))) (Stage.idle.view env old new)
      (AtStage env old new [.marked, .restored, .begun, .copied, .idle]) := by
  have hrollback : SettingsSteps (Set.range ids) (Stage.marked.view env old new)
      (rollbackSettingsUpdateLocked env (ids 7) (ids 8)) (.ok ()) (Stage.idle.view env old new)
      (AtStage env old new [.marked, .restored, .begun, .copied, .idle]) :=
    (Steps.stat journal_mem (atStage .marked rfl)).bind <|
      (steps_restoreOriginal (Set.mem_range_self 7) (Set.mem_range_self 8)
        (atStage .marked rfl) (atStage .restored rfl)).bind <|
      (steps_cleanupTransactionFiles (atStage .restored rfl) (atStage .begun rfl)
        (atStage .copied rfl) (atStage .idle rfl)).bind
      (steps_syncParent (atStage .idle rfl))
  exact hrollback.result.bind (.throw (atStage .idle rfl))

/-- The stages at which a crash may stop an update. -/
def updateStops : Except String Unit → List Stage
  | .ok () => [.idle, .copied, .begun, .replaced, .marked, .committed, .retired, .finished]
  | .error _ => [.idle, .copied, .begun, .replaced, .marked, .restored]

/-- The end of an update, once its marker is written. -/
theorem steps_finishSettingsUpdate (finalAudit : Except String Unit) :
    ∃ r stage, SettingsSteps (Set.range ids) (Stage.marked.view env old new)
      (finishSettingsUpdate env finalAudit ids) r (Stage.view env old new stage)
      (AtStage env old new (updateStops finalAudit)) := by
  cases finalAudit with
  | ok done =>
    exact ⟨_, .finished, (steps_complete.mono (AtStage.mono (by simp [updateStops]))).result.bind
      (.pure (atStage .finished (by simp [updateStops])))⟩
  | error error =>
    exact ⟨_, .idle, (steps_failSettingsUpdate _ error).mono (AtStage.mono (by simp [updateStops]))⟩

/-- An update from the old configuration. -/
theorem steps_updateServerSettings (henv : LawfulSettings env) (ids : Nat → Uuid)
    (finalAudit : Except String Unit) :
    ∃ r stage, SettingsSteps (Set.range ids) (Stage.idle.view env old new)
      (updateServerSettings env new finalAudit ids) r (Stage.view env old new stage)
      (AtStage env old new (updateStops finalAudit)) := by
  have hstops : [.idle, .copied, .begun, .replaced, .marked] ⊆ updateStops finalAudit := by
    cases finalAudit <;> simp [updateStops]
  have hwiden {stages : List Stage} (h : stages ⊆ [.idle, .copied, .begun, .replaced, .marked]) :=
    @AtStage.mono env old new _ _ (List.Subset.trans h hstops)
  have hreplace : SettingsSteps (Set.range ids) (Stage.begun.view env old new)
      (replaceFileAtomically .config (.replacement (ids 4)) (.temporary (ids 5)) new) (.ok ())
      (Stage.replaced.view env old new) (AtStage env old new [.begun, .replaced]) :=
    steps_replaceConfig (Set.mem_range_self 4) (Set.mem_range_self 5) (atStage .begun rfl)
      (atStage .replaced rfl)
  obtain ⟨r, stage, hfinish⟩ := steps_finishSettingsUpdate finalAudit
  have hidle : Stage.idle ∈ updateStops finalAudit := hstops (by decide)
  refine ⟨r, stage, (Steps.read config_mem rfl (atStage .idle (decide_eq_true hidle))).bind ?_⟩
  refine (((steps_beginLocked henv).mono (hwiden (by decide))).adapt _).bind ?_
  refine (hreplace.mono (hwiden (by decide))).result.bind ?_
  exact ((steps_markPublished henv).mono (hwiden (by decide))).result.bind hfinish

end Update

/-! ### Any number of recoveries -/

/-- Operations succeed when they can; the process or the machine may
stop at any of them. -/
def settingsSem : Sem (FileOp SettingsFile) FileReply (Fs SettingsFile File) :=
  fileSem (fun _ => False) LosesUnsynced

theorem settingsSem_run (op : FileOp SettingsFile) (s : Fs SettingsFile File) :
    settingsSem.effect op s (op.run s).1 (op.run s).2 := Or.inl rfl

/-- A recovery that draws new identifiers ends with the result `r`. -/
def RecoveryEnds (env : SettingsEnv) (s : Fs SettingsFile File) (r : Except String Unit)
    (s' : Fs SettingsFile File) : Prop :=
  ∃ replacementId temporaryId, Unused (siblingsOf {replacementId, temporaryId}) s ∧
    Exec settingsSem (recoverInterruptedSettingsUpdateLocked env replacementId temporaryId).run s
      (.done r s')

/-- A recovery that draws new identifiers ends or is stopped. -/
def RecoveryRuns (env : SettingsEnv) (s s' : Fs SettingsFile File) : Prop :=
  ∃ replacementId temporaryId out, Unused (siblingsOf {replacementId, temporaryId}) s ∧
    Exec settingsSem (recoverInterruptedSettingsUpdateLocked env replacementId temporaryId).run s
      out ∧ s' = out.state

/-- A recovery that is stopped has not removed the marker of a journal
that is still there. -/
def KeepsMarker (s s' : Fs SettingsFile File) : Prop :=
  s' .journal = none ∨ s' .published = s .published

/-- No file of a transaction is left. -/
def NoTransactionFile (s : Fs SettingsFile File) : Prop :=
  s .journal = none ∧ s .original = none ∧ s .published = none

/-- The publication marker of an update to `new` has been on disk. Only
`complete` removes it, and only after the journal. -/
def MarkerWritten (env : SettingsEnv) (new : Bytes) (s : Fs SettingsFile File) : Prop :=
  s .published = some (.durable (utf8Bytes (revision env new))) ∨
    (s .journal = none ∧ s .config = some (.durable new))

/-- The configuration has the given bytes, and they are on disk. -/
def HasConfig (s : Fs SettingsFile File) (bytes : Bytes) : Prop :=
  s .config = some (.durable bytes)

section Runs

variable {s s' : Fs SettingsFile File} {stage : Stage}

section

variable (henv : LawfulSettings env) (hs : OnDisk settingsFiles (stage.view env old new) s)
include henv hs

theorem recoveryEnds_stage {r : Except String Unit} (h : RecoveryEnds env s r s') :
    r = .ok () ∧ OnDisk settingsFiles (stage.recovered.view env old new) s' := by
  obtain ⟨replacementId, temporaryId, hunused, hexec⟩ := h
  have hout := (steps_recover henv stage (Set.mem_insert replacementId {temporaryId})
    (Set.mem_insert_of_mem _ rfl)).outcome hs hunused hexec
  exact ⟨hout.1, hout.2.1⟩

/-- A recovery goes from stage to stage. -/
theorem recoveryRuns_stage (h : RecoveryRuns env s s') : ∃ next ∈ stage.recovered :: stage.stops,
      OnDisk settingsFiles (next.view env old new) s' := by
  obtain ⟨replacementId, temporaryId, out, hunused, hexec, rfl⟩ := h
  have hout := (steps_recover henv stage (Set.mem_insert replacementId {temporaryId})
    (Set.mem_insert_of_mem _ rfl)).outcome hs hunused hexec
  cases out with
  | done r s' => exact ⟨_, List.mem_cons_self, hout.2.1⟩
  | crashed s' =>
    obtain ⟨w, ⟨next, hnext, rfl⟩, hs'⟩ := hout
    exact ⟨next, List.mem_cons_of_mem _ hnext, hs'⟩

/-- So do any number of recoveries. -/
theorem recoveries_stage (h : Relation.ReflTransGen (RecoveryRuns env) s s') :
    ∃ next : Stage, OnDisk settingsFiles (next.view env old new) s' := by
  induction h with
  | refl => exact ⟨stage, hs⟩
  | tail _ hstep ih =>
    obtain ⟨middle, hmiddle⟩ := ih
    obtain ⟨next, -, hnext⟩ := recoveryRuns_stage henv hmiddle hstep
    exact ⟨next, hnext⟩

end

/-- A recovery that is done leaves one of the two configurations alone. -/
theorem recovered_cases (stage : Stage) :
    stage.recovered = .idle ∨ stage.recovered = .finished := by
  cases stage <;> simp [Stage.recovered]

/-- Recoveries do not change a configuration without transaction files. -/
theorem recoveries_alone (henv : LawfulSettings env) {bytes : Bytes}
    (hs : OnDisk settingsFiles (Stage.idle.view env bytes bytes) s)
    (h : Relation.ReflTransGen (RecoveryRuns env) s s') :
    OnDisk settingsFiles (Stage.idle.view env bytes bytes) s' := by
  induction h with
  | refl => exact hs
  | tail _ hstep ih =>
    obtain ⟨next, hnext, hs'⟩ := recoveryRuns_stage henv ih hstep
    have hidle : next = .idle := by
      simpa [Stage.recovered, Stage.stops] using hnext
    rwa [hidle] at hs'

/-- The stages from which a recovery keeps the new bytes. -/
def Stage.Kept (stage : Stage) : Prop := stage.recovered = .finished

section

variable (henv : LawfulSettings env) (hs : OnDisk settingsFiles (stage.view env old new) s)
include henv hs

/-- A recovery that keeps the marker keeps the update. -/
theorem recoveryRuns_kept (hkept : stage.Kept) (h : RecoveryRuns env s s')
    (hmarker : KeepsMarker s s') :
    ∃ next : Stage, next.Kept ∧ OnDisk settingsFiles (next.view env old new) s' := by
  obtain ⟨next, hnext, hs'⟩ := recoveryRuns_stage henv hs h
  refine ⟨next, ?_, hs'⟩
  by_contra hlost
  -- only one stop is not kept: the marker is gone and the journal is there
  have hstages : stage = .marked ∧ next = .replaced := by
    cases stage <;> simp [Stage.Kept, Stage.recovered] at hkept <;>
      cases next <;> simp_all [Stage.Kept, Stage.recovered, Stage.stops]
  obtain ⟨rfl, rfl⟩ := hstages
  rcases hmarker with hjournal | hpublished
  · rw [hs' _ journal_mem] at hjournal
    cases hjournal
  · rw [hs' _ published_mem, hs _ published_mem] at hpublished
    cases hpublished

/-- Such recoveries keep it together. -/
theorem recoveries_kept (hkept : stage.Kept)
    (h : Relation.ReflTransGen (fun s s' => RecoveryRuns env s s' ∧ KeepsMarker s s') s s') :
    ∃ next : Stage, next.Kept ∧ OnDisk settingsFiles (next.view env old new) s' := by
  induction h with
  | refl => exact ⟨stage, hkept, hs⟩
  | tail _ hstep ih =>
    obtain ⟨middle, hmiddle, hs'⟩ := ih
    exact recoveryRuns_kept henv hs' hmiddle hstep.1 hstep.2

/-- The files a recovery that is done leaves. -/
theorem recoveryEnds_alone {r : Except String Unit} (h : RecoveryEnds env s r s') :
    r = .ok () ∧ ∃ bytes, (bytes = old ∨ bytes = new) ∧
      (stage.Kept → bytes = new) ∧ OnDisk settingsFiles (settingsView bytes none none none) s' := by
  obtain ⟨hr, hs'⟩ := recoveryEnds_stage henv hs h
  refine ⟨hr, ?_⟩
  rcases recovered_cases stage with hidle | hfinished
  · rw [hidle] at hs'
    refine ⟨old, .inl rfl, fun hkept => ?_, hs'⟩
    rw [Stage.Kept, hidle] at hkept
    cases hkept
  · rw [hfinished] at hs'
    exact ⟨new, .inr rfl, fun _ => rfl, hs'⟩

end

theorem hasConfig_of_onDisk {bytes : Bytes} {j o p : Option Bytes}
    (hs : OnDisk settingsFiles (settingsView bytes j o p) s) : HasConfig s bytes :=
  hs _ config_mem

theorem noTransactionFile_of_onDisk {bytes : Bytes}
    (hs : OnDisk settingsFiles (settingsView bytes none none none) s) : NoTransactionFile s :=
  ⟨hs _ journal_mem, hs _ original_mem, hs _ published_mem⟩

theorem HasConfig.unique {bytes bytes' : Bytes} (h : HasConfig s bytes) (h' : HasConfig s bytes') :
    bytes = bytes' := by
  have heq := Option.some.inj (h.symm.trans h')
  exact congrArg File.synced heq

/-- After a crash with the marker written, the update is kept unless the
two configurations are equal anyway. -/
theorem kept_of_markerWritten (hstage : stage ∈ updateStops (.ok ()))
    (hs : OnDisk settingsFiles (stage.view env old new) s) (hmarker : MarkerWritten env new s) :
    stage.Kept ∨ old = new := by
  rcases hmarker with hpublished | ⟨hjournal, hconfig⟩
  · rw [hs _ published_mem] at hpublished
    cases stage with
    | marked | committed | retired | finished | unmarked => exact .inl rfl
    | idle | copied | begun | replaced => cases hpublished
    | restored => simp [updateStops] at hstage
  · rw [hs _ journal_mem] at hjournal
    cases stage with
    | marked | committed | retired | finished | unmarked => exact .inl rfl
    | idle | copied => exact .inr ((hasConfig_of_onDisk hs).unique hconfig)
    | begun | replaced | restored => cases hjournal

end Runs

/-! ### A published update that is restored -/

/-- A journal as a JSON object. -/
def journalJson (journal : SettingsUpdateJournal) : Json :=
  .obj [(ascii "version", .num journal.version),
    (ascii "config_path", .str (utf8Bytes journal.configPath)),
    (ascii "intended_revision", .str (utf8Bytes journal.intendedRevision))]

/-- The journal of a JSON object. -/
def journalOfJson : Json → Option SettingsUpdateJournal
  | .obj [(versionKey, .num version), (pathKey, .str path), (revisionKey, .str intended)] =>
    if versionKey = ascii "version" ∧ pathKey = ascii "config_path" ∧
        revisionKey = ascii "intended_revision" then do
      return ⟨version.toNat, ← utf8Text path, ← utf8Text intended⟩
    else none
  | _ => none

/-- A configuration `server.toml`, with its first bytes as the digest. -/
def sampleSettings : SettingsEnv where
  configPath := "server.toml"
  sha256 bytes := (bytes ++ List.replicate 32 0).take 32
  encodeJournal journal := (journalJson journal).print
  decodeJournal bytes := (Json.parse bytes).bind journalOfJson
  display _ := "server.toml"
  displayParent := "."
  displayError _ := "filesystem operation failed"

theorem sampleSettings_lawful : LawfulSettings sampleSettings where
  digest bytes := by
    simp only [sampleSettings, List.length_take, List.length_append, List.length_replicate]
    omega
  readBack journal := by
    show (Json.parse (journalJson journal).print).bind journalOfJson = some journal
    rw [parse_print]
    simp [journalJson, journalOfJson, utf8Text_utf8Bytes]

/-- A directory with a configuration and nothing else. -/
def oldSettings (bytes : Bytes) : Fs SettingsFile File
  | .config => some (.durable bytes)
  | _ => none

theorem onDisk_oldSettings :
    OnDisk settingsFiles (settingsView [1] none none none) (oldSettings [1]) := by
  intro x _
  cases x <;> rfl

theorem unused_oldSettings :
    Unused (siblingsOf (Set.range (id : Nat → Uuid))) (oldSettings [1]) := by
  intro x hx
  cases x with
  | config => exact hx.elim
  | _ => rfl

/-- The update of `[1]` to `[2]`, stopped when its marker is written. -/
def stoppedUpdate : Fs SettingsFile File :=
  (updateServerSettings sampleSettings [2] (.ok ()) id).run.after FileOp.run 46 (oldSettings [1])

/-- A recovery from there, stopped when it has removed the marker. -/
def stoppedRecovery : Fs SettingsFile File :=
  (recoverInterruptedSettingsUpdateLocked sampleSettings 11 12).run.after FileOp.run 7 stoppedUpdate

theorem exec_stoppedUpdate :
    Exec settingsSem (updateServerSettings sampleSettings [2] (.ok ()) id).run (oldSettings [1])
      (.crashed stoppedUpdate) :=
  exec_crash_after settingsSem_run _ 46 _ _ (Or.inl rfl)

theorem markerWritten_stoppedUpdate : MarkerWritten sampleSettings [2] stoppedUpdate :=
  .inl (by decide +kernel)

/-- A later recovery can draw new identifiers. -/
theorem unused_siblings {r t : Uuid} {s : Fs SettingsFile File}
    (h : s (.temporary r) = none ∧ s (.replacement r) = none ∧ s (.temporary t) = none ∧
      s (.replacement t) = none) : Unused (siblingsOf {r, t}) s := by
  obtain ⟨hr, hr', ht, ht'⟩ := h
  intro x hx
  cases x with
  | config | journal | original | published => exact hx.elim
  | temporary id =>
    rcases hx with rfl | rfl
    · exact hr
    · exact ht
  | replacement id =>
    rcases hx with rfl | rfl
    · exact hr'
    · exact ht'

theorem unused_stoppedUpdate : Unused (siblingsOf {11, 12}) stoppedUpdate :=
  unused_siblings (by decide +kernel)

/-- The update has written its marker when it is stopped. A recovery is
stopped when it has removed the marker. The next recovery runs to the
end and restores the old configuration. -/
theorem published_update_restored :
    ∃ s1 s2 s3, Exec settingsSem (updateServerSettings sampleSettings [2] (.ok ()) id).run
        (oldSettings [1]) (.crashed s1) ∧
      MarkerWritten sampleSettings [2] s1 ∧ RecoveryRuns sampleSettings s1 s2 ∧
      RecoveryEnds sampleSettings s2 (.ok ()) s3 ∧ HasConfig s3 [1] := by
  have hunused : Unused (siblingsOf {13, 14}) stoppedRecovery :=
    unused_siblings (by decide +kernel)
  have hstopped : Exec settingsSem
      (recoverInterruptedSettingsUpdateLocked sampleSettings 11 12).run stoppedUpdate
      (.crashed stoppedRecovery) :=
    exec_crash_after settingsSem_run _ 7 _ _ (Or.inl rfl)
  have hdone : Exec settingsSem
      (recoverInterruptedSettingsUpdateLocked sampleSettings 13 14).run stoppedRecovery _ :=
    exec_runWith settingsSem_run _ _
  obtain ⟨hresult, hconfig⟩ :
      ((recoverInterruptedSettingsUpdateLocked sampleSettings 13 14).run.runWith
        FileOp.run stoppedRecovery).1 = .ok () ∧
      ((recoverInterruptedSettingsUpdateLocked sampleSettings 13 14).run.runWith
        FileOp.run stoppedRecovery).2 .config = some (.durable [1]) := by
    decide +kernel
  rw [hresult] at hdone
  exact ⟨_, _, _, exec_stoppedUpdate, markerWritten_stoppedUpdate,
    ⟨11, 12, _, unused_stoppedUpdate, hstopped, rfl⟩, ⟨13, 14, hunused, hdone⟩, hconfig⟩

/-- Updates of `old` to `new` that a crash stops. Every later recovery
that runs to the end succeeds, leaves no file of the transaction and
leaves one of the two configurations. Once such a recovery has left the
new one, it stays. If the marker was written before the crash, the new
one is left, as long as no recovery is stopped between the removal of
the marker and the removal of the journal. -/
theorem settings_update_crash_atomic (henv : LawfulSettings env) {s0 s1 : Fs SettingsFile File}
    {finalAudit : Except String Unit} {ids : Nat → Uuid}
    (hstart : OnDisk settingsFiles (settingsView old none none none) s0)
    (hids : Unused (siblingsOf (Set.range ids)) s0)
    (hcrash : Exec settingsSem (updateServerSettings env new finalAudit ids).run s0 (.crashed s1)) :
    (∀ s, Relation.ReflTransGen (RecoveryRuns env) s1 s →
      (∀ replacementId temporaryId, Unused (siblingsOf {replacementId, temporaryId}) s →
        ∃ s', Exec settingsSem
          (recoverInterruptedSettingsUpdateLocked env replacementId temporaryId).run s
          (.done (.ok ()) s')) ∧
      ∀ r s', RecoveryEnds env s r s' →
        r = .ok () ∧ NoTransactionFile s' ∧ (HasConfig s' old ∨ HasConfig s' new)) ∧
    (∀ s r s', Relation.ReflTransGen (RecoveryRuns env) s1 s → RecoveryEnds env s r s' →
      HasConfig s' new → ∀ t r' t', Relation.ReflTransGen (RecoveryRuns env) s' t →
        RecoveryEnds env t r' t' → HasConfig t' new) ∧
    (finalAudit = .ok () → MarkerWritten env new s1 → ∀ s r s',
      Relation.ReflTransGen (fun s s' => RecoveryRuns env s s' ∧ KeepsMarker s s') s1 s →
      RecoveryEnds env s r s' → HasConfig s' new) := by
  obtain ⟨_, _, hupdate⟩ := steps_updateServerSettings henv ids finalAudit
  obtain ⟨w, ⟨stage, hstage, rfl⟩, hs1⟩ := hupdate.outcome hstart hids hcrash
  refine ⟨fun s hs => ⟨?_, ?_⟩, ?_, ?_⟩
  · intro replacementId temporaryId hunused
    obtain ⟨next, hnext⟩ := recoveries_stage henv hs1 hs
    obtain ⟨s', -, -, hrun⟩ := steps_recover henv next (Set.mem_insert replacementId {temporaryId})
      (Set.mem_insert_of_mem _ rfl) s hnext hunused
    exact ⟨s', hrun.exec_done⟩
  · intro r s' h
    obtain ⟨next, hnext⟩ := recoveries_stage henv hs1 hs
    obtain ⟨hr, bytes, hbytes, -, hs'⟩ := recoveryEnds_alone henv hnext h
    refine ⟨hr, noTransactionFile_of_onDisk hs', ?_⟩
    rcases hbytes with rfl | rfl
    · exact .inl (hasConfig_of_onDisk hs')
    · exact .inr (hasConfig_of_onDisk hs')
  · intro s r s' hs h hnew t r' t' ht h'
    obtain ⟨next, hnext⟩ := recoveries_stage henv hs1 hs
    -- a recovery that ended leaves the configuration alone, and alone it stays
    obtain ⟨-, bytes, -, -, hs'⟩ := recoveryEnds_alone henv hnext h
    obtain rfl := (hasConfig_of_onDisk hs').unique hnew
    obtain ⟨-, bytes', hbytes', -, ht'⟩ :=
      recoveryEnds_alone henv (recoveries_alone henv hs' ht) h'
    rcases hbytes' with rfl | rfl <;> exact hasConfig_of_onDisk ht'
  · rintro rfl hmarker s r s' hs h
    rcases kept_of_markerWritten hstage hs1 hmarker with hkept | rfl
    · obtain ⟨next, hnext, hs'⟩ := recoveries_kept henv hs1 hkept hs
      obtain ⟨-, bytes, -, hbytes, hs''⟩ := recoveryEnds_alone henv hs' h
      obtain rfl := hbytes hnext
      exact hasConfig_of_onDisk hs''
    · have hs' : Relation.ReflTransGen (RecoveryRuns env) s1 s := hs.lift id fun _ _ h => h.1
      obtain ⟨next, hnext⟩ := recoveries_stage henv hs1 hs'
      obtain ⟨-, bytes, hbytes, -, hs''⟩ := recoveryEnds_alone henv hnext h
      rcases hbytes with rfl | rfl <;> exact hasConfig_of_onDisk hs''

/-- The stopped update of `[1]` to `[2]`, and a recovery from there. -/
theorem settings_update_crash_atomic_sample :
    ∃ s, RecoveryEnds sampleSettings stoppedUpdate (.ok ()) s ∧ NoTransactionFile s ∧
      HasConfig s [2] := by
  obtain ⟨hends, -, hkeeps⟩ := settings_update_crash_atomic sampleSettings_lawful
    onDisk_oldSettings unused_oldSettings exec_stoppedUpdate
  obtain ⟨s, hexec⟩ := (hends stoppedUpdate .refl).1 11 12 unused_stoppedUpdate
  have hto : RecoveryEnds sampleSettings stoppedUpdate (.ok ()) s :=
    ⟨11, 12, unused_stoppedUpdate, hexec⟩
  exact ⟨s, hto, ((hends stoppedUpdate .refl).2 _ s hto).2.1,
    hkeeps rfl markerWritten_stoppedUpdate _ _ s .refl hto⟩

end Centrald.Proofs
