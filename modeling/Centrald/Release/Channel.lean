import Centrald.Durable.Lines
import Centrald.Durable.Machine
import Centrald.Release.Semver
import Mathlib.Logic.Function.Basic

/-!
# `Centrald.Release.Channel`: publishing a release channel

The model of `publish`, `publish-channel` and `sync-channel` of
`scripts/release.js` with `scripts/sync-channel.js`, as far as they write
the channel branch and the objects at the prefix of the CDN, for any
number of publishers at once.

A commit of the branch does not change. So what `publishChannelTree`
reads before it updates the branch is the tree at the time of its first
request. The update is not forced: it takes effect if the branch has not
moved since. The reply of an update that took effect can be lost. An
upload overwrites one object. A publisher can stop at any point.

Which entries a publisher has, and that their signatures verify, is
decided before the first write; here they are arbitrary. `JSON.parse` is
a parameter. `CENTRALD_ALLOW_CHANNEL_ROLLBACK` is not set.
-/

set_option autoImplicit false

namespace Centrald.Release

open Durable

/-- The files of a channel, in the order of the uploads. -/
inductive ChannelFile where
  | release
  | releaseSignature
  | updater
  | updaterSignature
  deriving DecidableEq

def ChannelFile.all : List ChannelFile := [.release, .releaseSignature, .updater, .updaterSignature]

/-- The fields of a manifest that are looked at, if they are texts. -/
structure Manifest where
  version : Option String
  channel : Option String
  repository : Option String

/-- The repository, and how the text of a manifest is read. -/
structure ReleaseEnv where
  repoUrl : String
  parseJson : Bytes → Option Manifest

/-- What one publisher works with: `version` of `package.json`, the
channel and its entries, and which of the two stores it writes. -/
structure Publisher where
  version : String
  channel : String
  entries : ChannelFile → Bytes
  toBranch : Bool
  toCdn : Bool

/-- The verdict on a channel: its files are to be replaced, or are there
already. -/
inductive Advance where
  | advance
  | unchanged

namespace ReleaseEnv

variable (env : ReleaseEnv)

def parseManifestJson (content : Bytes) : Option Manifest :=
  if content = [] ∨ 2 * 1024 * 1024 < content.length then none else env.parseJson content

def validateChannelAdvance (publisher : Publisher) (existing : ChannelFile → Option Bytes) :
    Except String Advance :=
  let channel := publisher.channel
  let next := publisher.entries
  if ChannelFile.all.all fun file => (existing file).isNone then .ok .advance
  else if ¬ChannelFile.all.all fun file => (existing file).isSome then
    .error ("Existing " ++ channel ++
      " channel is incomplete; repair it manually before publishing.")
  else
    match (existing .release).bind env.parseManifestJson,
      (existing .updater).bind env.parseManifestJson, env.parseManifestJson (next .release),
      env.parseManifestJson (next .updater) with
    | some currentShared, some currentUpdater, some nextShared, some nextUpdater =>
      if currentShared.version ≠ currentUpdater.version then
        .error ("Existing " ++ channel ++ " channel manifests disagree about their version.")
      else if currentShared.channel ≠ some channel ∨
          currentShared.repository ≠ some env.repoUrl then
        .error ("Existing " ++ channel ++
          " channel manifest belongs to another channel or repository.")
      else if nextShared.version ≠ nextUpdater.version ∨
          nextShared.version ≠ some publisher.version then
        .error ("New " ++ channel ++ " channel manifests disagree about their version.")
      else if nextShared.channel ≠ some channel ∨ nextShared.repository ≠ some env.repoUrl then
        .error ("New " ++ channel ++ " channel manifest belongs to another channel or repository.")
      else
        match nextShared.version.bind parseSemver, currentShared.version.bind parseSemver with
        | some nextVersion, some currentVersion =>
          match compareSemver nextVersion currentVersion with
          | .lt => .error ("Refusing to move " ++ channel ++ " channel backward from v" ++
              currentShared.version.getD "" ++ " to v" ++ nextShared.version.getD "" ++
              "; set CENTRALD_ALLOW_CHANNEL_ROLLBACK=YES only for a deliberate emergency rollback.")
          | .eq =>
            if ChannelFile.all.all fun file => existing file = some (next file) then .ok .unchanged
            else .error ("Refusing to replace " ++ channel ++
              " channel bytes without a version change.")
          | .gt => .ok .advance
        | _, _ => .error "Invalid Semantic Versioning value"
    | _, _, _, _ => .error "manifest is missing, empty, too large or not valid JSON-compatible YAML"

end ReleaseEnv

/-- Where a publisher stands. -/
inductive PublisherPc where
  /-- Before the branch is read, for the given attempt. -/
  | reading (attempt : Nat)
  /-- The tree at `revision` allows the advance. -/
  | updating (attempt revision : Nat)
  /-- Before the checks of `sync-channel.js`. -/
  | syncing
  /-- Before the first of these uploads. -/
  | uploading (files : List ChannelFile)
  | ended

/-- The files of every channel on the branch, how often the branch has
moved, the objects of the CDN, and the publishers. -/
structure ChannelState where
  tree : String → ChannelFile → Option Bytes
  revision : Nat
  cdn : String → ChannelFile → Option Bytes
  publishers : Nat → Option (Publisher × PublisherPc)

/-- Runs of the publisher begin, take a step, and fail; several may be
under way. -/
inductive ChannelLabel where
  | start (p : Nat) (publisher : Publisher)
  | step (p : Nat)
  /-- The branch is updated, and the reply is lost. -/
  | updateLost (p : Nat)
  | fail (p : Nat)

namespace ChannelState

variable (s : ChannelState)

def goto (p : Nat) (publisher : Publisher) (pc : PublisherPc) : ChannelState :=
  { s with publishers := Function.update s.publishers p (some (publisher, pc)) }

/-- The new commit becomes the head of the branch. -/
def advanceBranch (publisher : Publisher) : ChannelState :=
  { s with
    tree := Function.update s.tree publisher.channel fun file => some (publisher.entries file)
    revision := s.revision + 1 }

def upload (publisher : Publisher) (file : ChannelFile) : ChannelState :=
  { s with
    cdn := Function.update s.cdn publisher.channel
      (Function.update (s.cdn publisher.channel) file (some (publisher.entries file))) }

end ChannelState

/-- After the branch: `syncChannelToCdn`, if the CDN is configured. -/
def Publisher.afterBranch (publisher : Publisher) : PublisherPc :=
  if publisher.toCdn then .syncing else .ended

/-- A rejected update is tried again, three times in all. -/
def retry (attempt : Nat) : PublisherPc := if attempt < 3 then .reading (attempt + 1) else .ended

def channelSystem (env : ReleaseEnv) : Machine ChannelState ChannelLabel where
  step s
    | .start p publisher =>
      match s.publishers p with
      | none => some (s.goto p publisher
          (if publisher.toBranch then .reading 1 else publisher.afterBranch))
      | some _ => none
    | .step p =>
      match s.publishers p with
      | some (publisher, .reading attempt) =>
        match env.validateChannelAdvance publisher (s.tree publisher.channel) with
        | .error _ => some (s.goto p publisher .ended)
        | .ok .unchanged => some (s.goto p publisher publisher.afterBranch)
        | .ok .advance => some (s.goto p publisher (.updating attempt s.revision))
      | some (publisher, .updating attempt revision) =>
        if revision = s.revision then
          some ((s.advanceBranch publisher).goto p publisher publisher.afterBranch)
        else some (s.goto p publisher (retry attempt))
      | some (publisher, .syncing) =>
        -- `assertManifestChannel`
        if ((env.parseJson (publisher.entries .release)).bind (·.channel)) =
            some publisher.channel then
          some (s.goto p publisher (.uploading ChannelFile.all))
        else some (s.goto p publisher .ended)
      | some (publisher, .uploading (file :: files)) =>
        some ((s.upload publisher file).goto p publisher (.uploading files))
      | some (publisher, .uploading []) => some (s.goto p publisher .ended)
      | _ => none
    | .updateLost p =>
      match s.publishers p with
      | some (publisher, .updating attempt revision) =>
        if revision = s.revision then
          some ((s.advanceBranch publisher).goto p publisher (retry attempt))
        else none
      | _ => none
    | .fail p =>
      match s.publishers p with
      | some (publisher, _) => some (s.goto p publisher .ended)
      | none => none

end Centrald.Release
