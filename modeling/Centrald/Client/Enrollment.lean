import Centrald.Client.Credentials
import Centrald.Common.SecureFs

/-!
# `Centrald.Client.Enrollment`: re-enrollment of a client

The model of `centrald-client`, `enrollment.rs`, with the functions of
`broker.rs` and `daemon.rs` it calls. Every program here runs under the
client's state lock, so two of them do not interleave.

The generation of keys and requests, the checks of the invitation and of
the configuration's own fields come before the first operation of the
model or have no effect, and are left out. Where the source puts an
error of another layer into a text, the text here ends before it.
-/

set_option autoImplicit false

namespace Centrald.Client

open Durable Common Server CredentialM

/-! ### The broker's verifying key -/

def maxGrantVerifyingKeyBytes : Nat := 16 * 1024

/-- `broker_state_dir` joined with `GRANT_VERIFYING_KEY_FILE`, on Unix. -/
def verifyingKeyPath : String := "/var/lib/centrald-broker/grant-signing-public.pem"

/-- The write after the old key is gone. -/
def writeGrantVerifyingKey (pem : Bytes) : FileM String BrokerFile Unit := do
  ExceptT.adapt (fun _ => "write grant verifying key " ++ verifyingKeyPath)
    (writeNewFile .verifyingKey .temporary pem)
  FileM.act .metadata "chown grant verifying key to root"

def publishGrantVerifyingKey (pem : Bytes) : FileM String BrokerFile Unit := do
  if pem.isEmpty || pem.length > maxGrantVerifyingKeyBytes then
    throw "grant verifying key is empty or exceeds the size bound"
  else
    -- `prepare_broker_state_dir`
    FileM.act .metadata "create broker state directory"
    if ← FileM.stat .verifyingKey then
      FileM.act (.remove .verifyingKey) ("replace grant verifying key " ++ verifyingKeyPath)
      writeGrantVerifyingKey pem
    else
      writeGrantVerifyingKey pem

/-- The reply of the broker's files. -/
def CredentialReply.toFile : CredentialReply → FileReply
  | .file r => r
  | _ => .failed .other

/-- A program on the broker's files as a part of a credential program. -/
def onBroker {α : Type} (p : FileM String BrokerFile α) : CredentialM α :=
  ExceptT.mk (p.run.lift .broker CredentialReply.toFile >>= fun
    | .ok a => .ret (.ok a)
    | .error text => .ret (.error (.bail text)))

/-! ### Publication of a generation -/

/-- The texts of a publication. -/
structure PublicationTexts where
  /-- The configuration does not exist. -/
  target : String
  /-- Permissions could not be set. -/
  secure : String
  /-- Nor could the pointer be rolled back. -/
  secureRollback : String
  /-- The publication failed. -/
  publish : String
  /-- The activation failed and the pointer was rolled back. -/
  activate : String
  /-- The activation failed and so did the rollback. -/
  rollback : String

def pendingPublicationText : String :=
  "a previous credential publication still needs activation or rollback"

/-- `publish_active_config`, and `publish_active_profile` of the Admin
application. -/
def publishActive (texts : PublicationTexts) (g : Generation) : CredentialM Unit := do
  act (.load g) texts.target
  act (.pointer (.publish g)) pendingPublicationText
  match ← ask .secure with
  | .done => return ()
  | _ =>
    match ← ask (.pointer .rollback) with
    | .done => throw (.bail texts.secure)
    | _ => throw ((ClientError.bail texts.secure).addContext texts.secureRollback)

/-- The middle part of an enrollment and of a renewal: publish a
generation on disk and activate it. When the activation reports an
error, whatever it is, the pointer is rolled back and the generation is
removed. -/
def publishAndActivate (texts : PublicationTexts) (ensureActive : CredentialM Unit)
    (g : Generation) : CredentialM Unit := do
  match ← attempt (publishActive texts g) with
  | .error e =>
    let _ ← ask (.cleanup g)
    throw (e.addContext texts.publish)
  | .ok () =>
    match ← attempt ensureActive with
    | .error e =>
      match ← ask (.pointer .rollback) with
      | .done =>
        let _ ← ask (.cleanup g)
        throw (e.addContext texts.activate)
      | _ => throw (e.addContext texts.rollback)
    | .ok () => return ()

/-- `daemon::ensure_identity_active`. -/
def ensureIdentityActive (g : Generation) : CredentialM Unit :=
  request (.activate g) "activate client identity"

/-- `daemon::replace_previous_identity`. -/
def replacePreviousIdentity (previous : Generation) (replacement : Nat) : CredentialM Unit :=
  if previous.identity = replacement then return ()
  else request (.replace previous replacement) "replace previous client identity"

/-! ### `run` -/

def enrollmentTexts : PublicationTexts where
  target := "active client configuration is not a regular file"
  secure := "refusing unsafe active pointer file"
  secureRollback := "secure active pointer files failed and rollback also failed"
  publish := "publish the enrolled client credential generation"
  activate := "durable client identity was not activated; local publication was rolled back " ++
    "and the pending server identity will expire"
  rollback := "client identity activation failed and pointer rollback also failed; " ++
    "the published generation was retained for recovery"

def persistIdentityGeneration (g : Generation) (grantKey : Bytes) : CredentialM Unit := do
  act (.persist g) "persist enrollment generation"
  onBroker (publishGrantVerifyingKey grantKey)

/-- `run` from the server's answer on: `previous` is the configuration
the client had. -/
def installEnrollment (uuidText : Nat → String) (previous g : Generation) (grantKey : Bytes) :
    CredentialM Unit := do
  if grantKey.isEmpty then
    throw (.bail "server returned incomplete or mismatched enrollment material")
  else
    match ← attempt (persistIdentityGeneration g grantKey) with
    | .error e =>
      let _ ← ask (.cleanup g)
      throw (e.addContext ("server accepted a pending enrollment, but local identity " ++
        "persistence failed; the pending identity will expire automatically"))
    | .ok () =>
      publishAndActivate enrollmentTexts (ensureIdentityActive g) g
      match ← attempt (replacePreviousIdentity previous g.identity) with
      | .error e =>
        throw (e.addContext ("new client identity " ++ uuidText g.identity ++
          " is active, but previous identity " ++ uuidText previous.identity ++
          " could not be revoked; the client service will retry before finalizing the " ++
          "credential pointer"))
      | .ok () =>
        act (.pointer .commit) "finalize the active client credential pointer"
        act .secure "refusing unsafe active pointer file"

/-- `enrollment::run` with `reenroll`. -/
def reenroll (uuidText : Nat → String) : CredentialM Unit := do
  act .secure "prepare protected client state before consuming the one-time invitation"
  match ← ask (.pointer .previous) with
  | .generation none =>
    match ← ask (.pointer .read) with
    | .generation (some previous) =>
      act (.load previous) "reenroll requires an existing usable client identity"
      match ← ask .enroll with
      | .enrolled g grantKey => installEnrollment uuidText previous g grantKey
      | .refused status => throw ⟨["server rejected client enrollment"], some status⟩
      | _ => throw (.bail "server rejected client enrollment")
    | .generation none => throw (.bail "reenroll requires an existing enrolled client identity")
    | _ => throw (.bail "active-pointer I/O failed")
  | .generation (some _) =>
    throw (.bail ("a prior credential publication still needs activation; " ++
      "start the client service or run rescue before enrolling again"))
  | _ => throw (.bail "active-pointer I/O failed")

end Centrald.Client
