import Centrald.Durable.Json
import Centrald.Proofs.Semver
import Centrald.Release.Channel

/-!
# `Centrald.Proofs.Channel`: channels only move forward

`Forward` compares what a store serves at two moments: the same bytes, or
a manifest of a higher version. The guard `validateChannelAdvance` and
the compare-and-swap on the branch give it for the channel branch, in
every run (`tree_forward`).

The uploads have no such guard. They keep the CDN behind the branch if
every upload is of what the branch has at that moment (`Mirrors`), and a
store that follows the branch moves forward too. `cdn_moves_back` is a
run without the condition: a publisher with an older release directory
syncs it after a newer one was published.
-/

set_option autoImplicit false

namespace Centrald.Proofs.Channel

open Durable Release

variable {env : ReleaseEnv} {s s' s0 : ChannelState} {l : ChannelLabel}

/-- The version that a manifest names. -/
def names (env : ReleaseEnv) (bytes : Bytes) : Option Semver :=
  ((env.parseJson bytes).bind (·.version)).bind parseSemver

/-- What is served later: the manifest that was served before, or one of a
higher version. -/
def Forward (env : ReleaseEnv) (old new : Option Bytes) : Prop :=
  ∀ bytes v, old = some bytes → names env bytes = some v →
    ∃ bytes', new = some bytes' ∧
      (bytes' = bytes ∨ ∃ v', names env bytes' = some v' ∧ compareSemver v v' = .lt)

theorem Forward.refl (old : Option Bytes) : Forward env old old :=
  fun bytes _ hold _ => ⟨bytes, hold, .inl rfl⟩

theorem Forward.trans {a b c : Option Bytes} (h : Forward env a b) (h' : Forward env b c) :
    Forward env a c := by
  intro bytes v ha hv
  obtain ⟨bytes', hb, rfl | ⟨v', hv', hlt⟩⟩ := h bytes v ha hv
  · exact h' bytes' v hb hv
  · obtain ⟨bytes'', hc, rfl | ⟨v'', hv'', hlt'⟩⟩ := h' bytes' v' hb hv'
    · exact ⟨bytes'', hc, .inr ⟨v', hv', hlt⟩⟩
    · exact ⟨bytes'', hc, .inr ⟨v'', hv'', Std.TransCmp.lt_trans hlt hlt'⟩⟩

/-- The two files of a channel that are manifests. -/
def IsManifest (file : ChannelFile) : Prop := file = .release ∨ file = .updater

theorem names_of_parseManifestJson {bytes : Bytes} {m : Manifest}
    (h : env.parseManifestJson bytes = some m) : names env bytes = m.version.bind parseSemver := by
  grind [ReleaseEnv.parseManifestJson, names]

/-- An advance that passes the checks is one. -/
theorem forward_of_advance {publisher : Publisher} {existing : ChannelFile → Option Bytes}
    (h : env.validateChannelAdvance publisher existing = .ok .advance) {file : ChannelFile}
    (hfile : IsManifest file) : Forward env (existing file) (some (publisher.entries file)) := by
  intro bytes v hbytes hv
  refine ⟨_, rfl, .inr ?_⟩
  have hsome : ¬(ChannelFile.all.all fun file => (existing file).isNone) = true := by
    rcases hfile with rfl | rfl <;> simp [ChannelFile.all, hbytes]
  simp only [ReleaseEnv.validateChannelAdvance, if_neg hsome] at h
  have hparse := @names_of_parseManifestJson env
  have hswap := @Std.OrientedCmp.gt_iff_lt Semver compareSemver _
  repeat' (split at h)
  all_goals cases h
  rcases hfile with rfl | rfl <;> grind

/-! ### The channel branch -/

/-- A publisher that is about to update the branch has checked the tree
that is still there, unless the branch has moved. -/
def Checked (env : ReleaseEnv) (s : ChannelState) : Prop :=
  ∀ p publisher attempt revision, s.publishers p = some (publisher, .updating attempt revision) →
    revision ≤ s.revision ∧ (revision = s.revision →
      env.validateChannelAdvance publisher (s.tree publisher.channel) = .ok .advance)

theorem Checked.step (h : Checked env s) (hstep : (channelSystem env).step s l = some s') :
    Checked env s' := by
  cases l <;> dsimp only [channelSystem] at hstep <;> repeat' (split at hstep)
  all_goals cases hstep
  all_goals
    dsimp only [Checked, ChannelState.goto, ChannelState.advanceBranch, ChannelState.upload] at *
    grind [Publisher.afterBranch, retry]

/-- A step moves the branch forward. -/
theorem Checked.forward (h : Checked env s) (hstep : (channelSystem env).step s l = some s')
    (channel : String) {file : ChannelFile} (hfile : IsManifest file) :
    Forward env (s.tree channel file) (s'.tree channel file) := by
  have hrefl := @Forward.refl env
  have hadvance (publisher : Publisher)
      (h : env.validateChannelAdvance publisher (s.tree publisher.channel) = .ok .advance) :=
    forward_of_advance h hfile
  cases l <;> dsimp only [channelSystem] at hstep <;> repeat' (split at hstep)
  all_goals cases hstep
  all_goals
    dsimp only [Checked, ChannelState.goto, ChannelState.advanceBranch, ChannelState.upload] at *
    try rw [Function.update_apply, ite_apply]
    grind

/-- Nothing is running. -/
def Idle (s : ChannelState) : Prop := ∀ p, s.publishers p = none

theorem Checked.of_idle (h : Idle s) : Checked env s := by
  grind [Checked, Idle]

/-- In every run the branch moves forward. -/
theorem tree_forward {G : ChannelState → ChannelLabel → Prop} (h : Checked env s)
    (hreach : (channelSystem env).Reaches G s s') :
    Checked env s' ∧ ∀ channel file, IsManifest file →
      Forward env (s.tree channel file) (s'.tree channel file) := by
  refine hreach.invariant (I := fun t => Checked env t ∧ ∀ channel file, IsManifest file →
    Forward env (s.tree channel file) (t.tree channel file)) ⟨h, fun _ _ _ => .refl _⟩ ?_
  intro t l t' ⟨ht, hforward⟩ _ hstep
  exact ⟨ht.step hstep, fun channel file hfile =>
    (hforward channel file hfile).trans (ht.forward hstep channel hfile)⟩

/-! ### The CDN -/

/-- An object that is uploaded is the one that the branch has now. -/
def Mirrors (s : ChannelState) : ChannelLabel → Prop
  | .step p => ∀ publisher file files,
      s.publishers p = some (publisher, .uploading (file :: files)) →
        s.tree publisher.channel file = some (publisher.entries file)
  | _ => True

/-- A step leaves an object of the CDN, or uploads what the branch has. -/
theorem cdn_step (hG : Mirrors s l) (hstep : (channelSystem env).step s l = some s')
    (channel : String) (file : ChannelFile) :
    s'.cdn channel file = s.cdn channel file ∨
      s'.cdn channel file = s.tree channel file ∧ s'.tree = s.tree := by
  cases l <;> dsimp only [channelSystem] at hstep <;> repeat' (split at hstep)
  all_goals cases hstep
  all_goals
    dsimp only [Mirrors, ChannelState.goto, ChannelState.advanceBranch, ChannelState.upload] at *
    try rw [Function.update_apply, ite_apply]
    grind

/-- The CDN is not ahead of the branch. -/
def Behind (env : ReleaseEnv) (s : ChannelState) : Prop :=
  ∀ channel file, IsManifest file → Forward env (s.cdn channel file) (s.tree channel file)

/-- Along a run in which the CDN mirrors the branch, the CDN only moves
forward. -/
theorem cdn_forward (h : Checked env s) (hbehind : Behind env s)
    (hreach : (channelSystem env).Reaches Mirrors s s') :
    (Checked env s' ∧ Behind env s') ∧ ∀ channel file, IsManifest file →
      Forward env (s.cdn channel file) (s'.cdn channel file) := by
  refine hreach.invariant (I := fun t => (Checked env t ∧ Behind env t) ∧
    ∀ channel file, IsManifest file → Forward env (s.cdn channel file) (t.cdn channel file))
    ⟨⟨h, hbehind⟩, fun _ _ _ => .refl _⟩ ?_
  intro t l t' ⟨⟨ht, hbehind⟩, hforward⟩ hG hstep
  refine ⟨⟨ht.step hstep, fun channel file hfile => ?_⟩, fun channel file hfile => ?_⟩
  · have htree := ht.forward hstep channel hfile
    rcases cdn_step hG hstep channel file with hsame | ⟨hup, hsame⟩
    · rw [hsame]
      exact (hbehind channel file hfile).trans htree
    · rw [hup]
      exact htree
  · -- an upload brings the CDN to the branch, which is not behind it
    refine (hforward channel file hfile).trans ?_
    rcases cdn_step hG hstep channel file with hsame | ⟨hup, -⟩
    · rw [hsame]
      exact .refl _
    · rw [hup]
      exact hbehind channel file hfile

/-- From a state in which nothing runs: in every run the manifests on the
branch keep their bytes until one of a higher version replaces them. If
the CDN is not ahead of the branch, then in every run in which an upload
is of what the branch has at that moment, so do those of the CDN. -/
theorem channels_never_move_back (hidle : Idle s0) :
    (∀ s s', (channelSystem env).Reaches (fun _ _ => True) s0 s →
      (channelSystem env).Reaches (fun _ _ => True) s s' → ∀ channel file, IsManifest file →
        Forward env (s.tree channel file) (s'.tree channel file)) ∧
    (Behind env s0 →
      ∀ s s', (channelSystem env).Reaches Mirrors s0 s → (channelSystem env).Reaches Mirrors s s' →
        ∀ channel file, IsManifest file →
          Forward env (s.cdn channel file) (s'.cdn channel file)) := by
  constructor
  · intro s s' hs hs'
    exact (tree_forward (tree_forward (.of_idle hidle) hs).1 hs').2
  · intro hbehind s s' hs hs'
    obtain ⟨hchecked, hbehind⟩ := (cdn_forward (.of_idle hidle) hbehind hs).1
    exact (cdn_forward hchecked hbehind hs').2

/-! ### Concrete runs -/

/-- `JSON.parse`, for manifests with ASCII texts. -/
def parseManifest (bytes : Bytes) : Option Manifest :=
  (Json.parse bytes).map fun json =>
    let field (name : String) : Option String := ((json.get (ascii name)).bind Json.asStr).map
      fun text => String.ofList (text.map fun b => Char.ofNat b.toNat)
    ⟨field "version", field "channel", field "repository"⟩

def sampleRelease : ReleaseEnv := ⟨"https://github.com/owner/repo", parseManifest⟩

def sampleManifest (version : String) : Bytes :=
  (Json.obj [(ascii "version", .str (ascii version)), (ascii "channel", .str (ascii "stable")),
    (ascii "repository", .str (ascii sampleRelease.repoUrl))]).print

def samplePublisher (version : String) (toBranch : Bool) : Publisher where
  version
  channel := "stable"
  entries
    | .release | .updater => sampleManifest version
    | _ => ascii version
  toBranch
  toCdn := true

/-- Nothing was published. -/
def unpublished : ChannelState := ⟨fun _ _ => none, 0, fun _ _ => none, fun _ => none⟩

/-- `publish` with the publisher `p`, or `sync-channel` without the branch. -/
def publishLabels (p : Nat) (version : String) (toBranch : Bool) : List ChannelLabel :=
  .start p (samplePublisher version toBranch) ::
    List.replicate (if toBranch then 7 else 5) (.step p)

def mirrors (s : ChannelState) : ChannelLabel → Bool
  | .step p =>
    match s.publishers p with
    | some (publisher, .uploading (file :: _)) =>
      s.tree publisher.channel file = some (publisher.entries file)
    | _ => true
  | _ => true

theorem mirrors_of_check (h : mirrors s l = true) : Mirrors s l := by
  cases l <;> grind [mirrors, Mirrors]

def served (s : ChannelState) : Option Bytes := s.cdn "stable" .release

/-- Two publications, of 1.9.0 and then of 1.10.0, each with its uploads:
the CDN serves the one and then the other. -/
theorem channels_never_move_back_publish :
    ∃ s s', (channelSystem sampleRelease).Reaches Mirrors unpublished s ∧
      (channelSystem sampleRelease).Reaches Mirrors s s' ∧
      served s = some (sampleManifest "1.9.0") ∧ served s' = some (sampleManifest "1.10.0") ∧
      Forward sampleRelease (served s) (served s') := by
  have hfirst : ((channelSystem sampleRelease).run mirrors unpublished
      (publishLabels 0 "1.9.0" true)).any (fun s => served s = some (sampleManifest "1.9.0") ∧
        ((channelSystem sampleRelease).run mirrors s (publishLabels 1 "1.10.0" true)).any
          fun s' => served s' = some (sampleManifest "1.10.0")) = true := by
    decide +kernel
  obtain ⟨s, hs, h⟩ := (Option.any_eq_true _ _).1 hfirst
  obtain ⟨hserved, h⟩ := of_decide_eq_true h
  obtain ⟨s', hs', hserved'⟩ := (Option.any_eq_true _ _).1 h
  have hreach := Machine.Reaches.refl.of_run (fun _ _ _ => mirrors_of_check) hs
  have hreach' := Machine.Reaches.refl.of_run (fun _ _ _ => mirrors_of_check) hs'
  have hbehind : Behind sampleRelease unpublished := fun _ _ _ _ _ h => by cases h
  exact ⟨s, s', hreach, hreach', hserved, of_decide_eq_true hserved',
    (channels_never_move_back fun _ => rfl).2 hbehind s s' hreach hreach' "stable" .release
      (.inl rfl)⟩

/-- The CDN serves 1.10.0, and then the older 1.9.0 again. -/
theorem cdn_moves_back :
    ∃ s s', (channelSystem sampleRelease).Reaches (fun _ _ => True) unpublished s ∧
      (channelSystem sampleRelease).Reaches (fun _ _ => True) s s' ∧
      ¬Forward sampleRelease (served s) (served s') := by
  have hrun : ((channelSystem sampleRelease).run (fun _ _ => true) unpublished
      (publishLabels 0 "1.9.0" true ++ publishLabels 1 "1.10.0" true)).any (fun s =>
        served s = some (sampleManifest "1.10.0") ∧
        ((channelSystem sampleRelease).run (fun _ _ => true) s (publishLabels 2 "1.9.0" false)).any
          fun s' => served s' = some (sampleManifest "1.9.0")) = true := by
    decide +kernel
  obtain ⟨s, hs, h⟩ := (Option.any_eq_true _ _).1 hrun
  obtain ⟨hserved, h⟩ := of_decide_eq_true h
  obtain ⟨s', hs', hserved'⟩ := (Option.any_eq_true _ _).1 h
  refine ⟨s, s', Machine.reaches_of_run hs, Machine.reaches_of_run hs', fun hforward => ?_⟩
  rw [hserved, of_decide_eq_true hserved'] at hforward
  have hnames : names sampleRelease (sampleManifest "1.10.0") = some ⟨1, 10, 0, []⟩ := by
    decide +kernel
  obtain ⟨bytes, hbytes, hsame | ⟨v, hv, hlt⟩⟩ := hforward _ _ rfl hnames
  · cases hbytes
    exact absurd hsame (by decide +kernel)
  · cases hbytes
    have hnames' : names sampleRelease (sampleManifest "1.9.0") = some ⟨1, 9, 0, []⟩ := by
      decide +kernel
    cases hnames'.symm.trans hv
    exact absurd hlt (by decide +kernel)

end Centrald.Proofs.Channel
