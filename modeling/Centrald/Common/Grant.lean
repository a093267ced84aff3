import Centrald.Durable.Json

/-!
# `Centrald.Common.Grant`: signed privileged grants

The model of `centrald-common`, `grant.rs`. Times are nanoseconds since
the epoch and identifiers are numbers. The text forms of identifiers
and times and the signature scheme come from other crates; `Texts` and
`Signatures` carry what the code relies on.
-/

set_option autoImplicit false

namespace Centrald.Common

open Durable

/-- One second of `chrono::Duration`. -/
def second : Int := 1000000000

/-- `Duration::num_seconds`, which rounds towards zero. -/
def numSeconds (duration : Int) : Int := duration.tdiv second

/-- The text forms of identifiers and times: what was written is read
back. -/
structure Texts where
  uuid : Nat → Bytes
  parseUuid : Bytes → Option Nat
  time : Int → Bytes
  parseTime : Bytes → Option Int
  parseUuid_uuid : ∀ id, parseUuid (uuid id) = some id
  parseTime_time : ∀ t, parseTime (time t) = some t

/-- The privileged operations that a grant can authorise. -/
inductive GrantOperation where
  | restartClientService
  | restartMachine
  | checkOsUpdates
  | applyOsUpdates
  | updateClient
  | openLowShell
  | openElevatedShell
  deriving DecidableEq

/-- The snake-case name an operation is serialized under. -/
def GrantOperation.name : GrantOperation → Bytes
  | .restartClientService => ascii "restart_client_service"
  | .restartMachine => ascii "restart_machine"
  | .checkOsUpdates => ascii "check_os_updates"
  | .applyOsUpdates => ascii "apply_os_updates"
  | .updateClient => ascii "update_client"
  | .openLowShell => ascii "open_low_shell"
  | .openElevatedShell => ascii "open_elevated_shell"

def GrantOperation.all : List GrantOperation :=
  [.restartClientService, .restartMachine, .checkOsUpdates, .applyOsUpdates, .updateClient,
    .openLowShell, .openElevatedShell]

def GrantOperation.ofName (name : Bytes) : Option GrantOperation :=
  all.find? fun op => op.name == name

/-- What the server signs: who may do what on which device, once, and
until when. -/
structure PrivilegedGrant where
  id : Nat
  deviceId : Nat
  jobOrSessionId : Nat
  adminId : Nat
  operation : GrantOperation
  parametersSha256 : Bytes
  issuedAt : Int
  expiresAt : Int
  nonce : Bytes
  deriving DecidableEq

/-- A grant and the signature that came with it, not yet verified. -/
structure SignedGrant where
  grant : PrivilegedGrant
  signatureBase64 : Bytes
  deriving DecidableEq

/-- Why a signed grant is refused. -/
inductive GrantError where
  | serialization
  | signatureEncoding
  | invalidSignature
  | wrongDevice
  | outsideValidity
  | lifetimeTooLong
  deriving DecidableEq

def maxGrantLifetimeSeconds : Int := 1800

/-- The signature scheme: Base64 decoding, the shape of a signature and
its verification. -/
structure Signatures where
  Key : Type
  decode : Bytes → Option Bytes
  isSignature : Bytes → Bool
  verify : Key → Bytes → Bytes → Bool

/-- The serialized grant, its fields in the order of the declaration. -/
def PrivilegedGrant.toJson (texts : Texts) (g : PrivilegedGrant) : Json :=
  .obj [(ascii "id", .str (texts.uuid g.id)),
    (ascii "device_id", .str (texts.uuid g.deviceId)),
    (ascii "job_or_session_id", .str (texts.uuid g.jobOrSessionId)),
    (ascii "admin_id", .str (texts.uuid g.adminId)),
    (ascii "operation", .str g.operation.name),
    (ascii "parameters_sha256", .str g.parametersSha256),
    (ascii "issued_at", .str (texts.time g.issuedAt)),
    (ascii "expires_at", .str (texts.time g.expiresAt)),
    (ascii "nonce", .str g.nonce)]

/-- Read a grant back. Every field must be there, and no other. -/
def PrivilegedGrant.ofJson (texts : Texts) (v : Json) : Option PrivilegedGrant := do
  let fields ← v.recordFields [ascii "id", ascii "device_id", ascii "job_or_session_id",
    ascii "admin_id", ascii "operation", ascii "parameters_sha256", ascii "issued_at",
    ascii "expires_at", ascii "nonce"]
  let id ← texts.parseUuid (← (← fields.lookup (ascii "id")).asStr)
  let deviceId ← texts.parseUuid (← (← fields.lookup (ascii "device_id")).asStr)
  let jobOrSessionId ← texts.parseUuid (← (← fields.lookup (ascii "job_or_session_id")).asStr)
  let adminId ← texts.parseUuid (← (← fields.lookup (ascii "admin_id")).asStr)
  let operation ← GrantOperation.ofName (← (← fields.lookup (ascii "operation")).asStr)
  let parametersSha256 ← (← fields.lookup (ascii "parameters_sha256")).asStr
  let issuedAt ← texts.parseTime (← (← fields.lookup (ascii "issued_at")).asStr)
  let expiresAt ← texts.parseTime (← (← fields.lookup (ascii "expires_at")).asStr)
  let nonce ← (← fields.lookup (ascii "nonce")).asStr
  return ⟨id, deviceId, jobOrSessionId, adminId, operation, parametersSha256, issuedAt, expiresAt,
    nonce⟩

/-- The serialized signed grant. -/
def SignedGrant.toJson (texts : Texts) (signed : SignedGrant) : Json :=
  .obj [(ascii "grant", signed.grant.toJson texts),
    (ascii "signature_base64", .str signed.signatureBase64)]

/-- Read a signed grant back. -/
def SignedGrant.ofJson (texts : Texts) (v : Json) : Option SignedGrant := do
  let fields ← v.recordFields [ascii "grant", ascii "signature_base64"]
  let grant ← PrivilegedGrant.ofJson texts (← fields.lookup (ascii "grant"))
  let signatureBase64 ← (← fields.lookup (ascii "signature_base64")).asStr
  return { grant, signatureBase64 }

/-- `signing_payload`: the domain separator and the serialized grant. -/
def signingPayload (texts : Texts) (g : PrivilegedGrant) : Bytes :=
  ascii "centrald-grant-v1" ++ 0 :: (g.toJson texts).print

/-- `SignedGrant::verify`. -/
def SignedGrant.verify (texts : Texts) (sigs : Signatures) (signed : SignedGrant)
    (key : sigs.Key) (expectedDevice : Nat) (now : Int) : Except GrantError Unit :=
  let grant := signed.grant
  let lifetime := numSeconds (grant.expiresAt - grant.issuedAt)
  if grant.deviceId ≠ expectedDevice then
    .error .wrongDevice
  else if lifetime ≤ 0 ∨ lifetime > maxGrantLifetimeSeconds then
    .error .lifetimeTooLong
  else if now < grant.issuedAt ∨ now > grant.expiresAt then
    .error .outsideValidity
  else
    match sigs.decode signed.signatureBase64 with
    | none => .error .signatureEncoding
    | some raw =>
      if sigs.isSignature raw = false then
        .error .signatureEncoding
      else if sigs.verify key (signingPayload texts grant) raw = false then
        .error .invalidSignature
      else
        .ok ()

/-- A grant that passes every test. -/
theorem SignedGrant.verify_eq_ok {texts : Texts} {sigs : Signatures} {signed : SignedGrant}
    {key : sigs.Key} {device : Nat} {now : Int} {raw : Bytes}
    (hdevice : signed.grant.deviceId = device)
    (hpositive : 0 < numSeconds (signed.grant.expiresAt - signed.grant.issuedAt))
    (hlifetime : numSeconds (signed.grant.expiresAt - signed.grant.issuedAt) ≤
      maxGrantLifetimeSeconds)
    (hissued : signed.grant.issuedAt ≤ now) (hexpires : now ≤ signed.grant.expiresAt)
    (hdecode : sigs.decode signed.signatureBase64 = some raw)
    (hsignature : sigs.isSignature raw = true)
    (hverify : sigs.verify key (signingPayload texts signed.grant) raw = true) :
    signed.verify texts sigs key device now = .ok () := by
  rw [SignedGrant.verify, if_neg (not_not.2 hdevice), if_neg (by omega), if_neg (by omega), hdecode]
  dsimp only
  rw [hsignature, hverify]
  rfl

/-- A grant that verifies is within its validity, both ends included. -/
theorem SignedGrant.verify_ok {texts : Texts} {sigs : Signatures} {signed : SignedGrant}
    {key : sigs.Key} {device : Nat} {now : Int}
    (h : signed.verify texts sigs key device now = .ok ()) :
    signed.grant.issuedAt ≤ now ∧ now ≤ signed.grant.expiresAt := by
  unfold SignedGrant.verify at h
  by_cases hdev : signed.grant.deviceId ≠ device
  · simp [hdev] at h
  · by_cases hlife : numSeconds (signed.grant.expiresAt - signed.grant.issuedAt) ≤ 0 ∨
        numSeconds (signed.grant.expiresAt - signed.grant.issuedAt) > maxGrantLifetimeSeconds
    · simp only [if_neg hdev, if_pos hlife] at h
      cases h
    · by_cases hvalid : now < signed.grant.issuedAt ∨ now > signed.grant.expiresAt
      · simp only [if_neg hdev, if_neg hlife, if_pos hvalid] at h
        cases h
      · omega

end Centrald.Common
