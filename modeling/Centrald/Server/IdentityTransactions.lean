import Centrald.Durable.ReadCommitted
import Centrald.Server.Identities

/-!
# `Centrald.Server.IdentityTransactions`: the identity calls, statement by statement

The calls of `services.rs` and `manage.rs` that write the tables
`identities`, `identity_certificates`, `enrollment_keys` and `clients`,
with every statement they send. `Centrald.Server.Identities` has the
same functions as single steps; here the statements of many calls
interleave.

`append_audit` takes an advisory lock and appends. The table of audit
records is one row here, locked from the append to the end of the
transaction. The advisory lock of `revoke_identity_record` is a row that
is only locked.

Left out are the foreign key of a certificate that is renewed, which
delays other transactions only, and checks of a request that come before
the first statement and do not depend on the tables (the protocol
version, the length of a reason). Serial numbers, keys and the audit
metadata are left out too. Issuing a certificate, parsing an invitation
and verifying its secret are parameters.
-/

set_option autoImplicit false

namespace Centrald.Server

open Durable

/-! ### The tables -/

/-- The rows of the registry under their primary keys; the audit chain and
the revocation lock count as a row each. -/
inductive RegistryKey where
  | identity (id : Nat)
  | certificate (fingerprint : Nat)
  | invitation (id : Nat)
  | client (id : Nat)
  | audit
  | revocationLock
  deriving DecidableEq

/-- A row of `identities` with the certificate that it records. -/
structure IdentityRow extends Identity where
  name : String
  fingerprint : Nat
  deriving DecidableEq

/-- A row of `enrollment_keys`. -/
structure Invitation where
  role : Role
  name : String
  secretHash : String
  expiresAt : Int
  consumedAt : Option Int
  consumedBy : Option Nat
  revokedAt : Option Int
  revokedBy : Option Nat

/-- A row of `clients`. -/
structure ClientRow where
  hostname : String
  os : String
  architecture : String

/-- An audit record. -/
structure AuditNote where
  actorId : Option Nat
  actorLabel : String
  action : String
  targetId : Option Nat

@[reducible] def RegistryRow : RegistryKey → Type
  | .identity _ => IdentityRow
  | .certificate _ => Certificate
  | .invitation _ => Invitation
  | .client _ => ClientRow
  | .audit => List AuditNote
  | .revocationLock => Unit

/-- How a call fails: with a gRPC status, or on the local console. -/
inductive CallError where
  | status (code : Status) (message : String)
  | notFound (message : String)
  | bail (message : String)
  deriving DecidableEq

abbrev RegistrySql (α : Type) : Type := Sql RegistryRow CallError α

/-! ### Statements on one table -/

/-- An `UPDATE` or `DELETE` of `identities`. -/
def onIdentities (test : Nat → IdentityRow → Bool) (set : IdentityRow → Option IdentityRow) :
    Statement RegistryRow where
  selects rows
    | .identity id => (rows (.identity id)).any (test id)
    | _ => false
  set
    | .identity _, row => set row
    | _, row => some row

/-- An `UPDATE` or `DELETE` of `identity_certificates`. -/
def onCertificates (test : Nat → Certificate → Bool) (set : Certificate → Option Certificate) :
    Statement RegistryRow where
  selects rows
    | .certificate fingerprint => (rows (.certificate fingerprint)).any (test fingerprint)
    | _ => false
  set
    | .certificate _, row => set row
    | _, row => some row

/-- An `UPDATE` of `enrollment_keys`. -/
def onInvitations (test : Nat → Invitation → Bool) (set : Invitation → Invitation) :
    Statement RegistryRow where
  selects rows
    | .invitation id => (rows (.invitation id)).any (test id)
    | _ => false
  set
    | .invitation _, row => some (set row)
    | _, row => some row

/-- A `DELETE` of `clients`. -/
def deleteClients (test : Nat → Bool) : Statement RegistryRow where
  selects rows
    | .client id => (rows (.client id)).isSome && test id
    | _ => false
  set _ _ := none

/-- The append of an audit record. -/
def appendNote (note : AuditNote) : Statement RegistryRow where
  selects _ k := k = .audit
  set
    | .audit, log => some (log ++ [note])
    | _, row => some row

/-! ### Parts of several calls -/

def internalFailure : CallError := .status .internal "internal server error"

def invalidKey : CallError := .status .unauthenticated "invalid enrollment key"

/-- `append_audit` of a success. -/
def appendAuditNote (actorId : Option Nat) (actorLabel action : String) (targetId : Option Nat) :
    RegistrySql Unit := do
  let _ ← Sql.execute fun _ => appendNote ⟨actorId, actorLabel, action, targetId⟩
  pure ()

/-- `append_local_audit`. -/
def appendLocalNote (action : String) (targetId : Option Nat) : RegistrySql Unit :=
  appendAuditNote none "server-local-root" action targetId

def roleName : Role → String
  | .client => "client"
  | .admin => "admin"

/-- The row that the query of `authenticate` finds. -/
def authenticated (rows : Rows RegistryRow) (now : Int) (fingerprint : Nat) (role : Role) :
    Option Nat :=
  match rows (.certificate fingerprint) with
  | some c =>
    match rows (.identity c.identity) with
    | some i =>
      if c.activation = .active ∧ c.revoked = false ∧ now < c.expiresAt ∧
          (∀ r ∈ c.retireAt, now < r) ∧ i.role = role ∧ i.activation = .active ∧
          i.revoked = false then
        some c.identity
      else none
    | none => none
  | none => none

/-- `authenticate`. -/
def authenticateCall (fingerprint : Nat) (role : Role) : RegistrySql Nat := do
  let identity ← Sql.query fun now s => authenticated s.row now fingerprint role
  match identity with
  | some identity => pure identity
  | none => .fail (.status .unauthenticated "unknown or inactive identity")

/-- `UPDATE identities SET revoked_at = NOW() … WHERE id = $1 AND role = …
AND revoked_at IS NULL`. -/
def revokeIdentityRow (role : Role) (identity : Nat) : Statement RegistryRow :=
  onIdentities (fun id row => id = identity && row.role = role && !row.revoked)
    fun row => some { row with revoked := true }

/-- `UPDATE identity_certificates SET revoked_at = NOW() WHERE identity_id
= $1 AND revoked_at IS NULL`. -/
def revokeCertificateRows (identity : Nat) : Statement RegistryRow :=
  onCertificates (fun _ row => row.identity = identity && !row.revoked)
    fun row => some { row with revoked := true }

/-! ### Invitations -/

/-- The claims of an invitation. -/
structure InvitationClaims where
  id : Nat
  serverInstanceId : Nat
  role : Role
  name : String
  expiresAt : Int

/-- What the issuer returns of a certificate. -/
structure IssuedCertificate where
  fingerprint : Nat
  expiresAt : Int

/-- What the calls use of the configuration and of cryptography. -/
structure EnrollmentEnv where
  instanceId : Nat
  parseEnrollmentInvitation : String → Option InvitationClaims
  /-- Argon2id. -/
  verifyEnrollmentKey : String → String → Bool
  decodeCsr : List UInt8 → Except String String
  /-- From the request, the name, the identity, the role and a fresh
  serial number. -/
  issueIdentityCsr : String → String → Nat → Role → Nat → Option IssuedCertificate

def insertInvitation (id : Nat) (role : Role) (name secretHash : String) (expiresAt : Int)
    (error : CallError) : RegistrySql Unit :=
  Sql.insertRow (.invitation id) ⟨role, name, secretHash, expiresAt, none, none, none, none⟩ error

def createEnrollmentKey (fingerprint id : Nat) (name secretHash : String)
    (expiresInSeconds : Nat) : RegistrySql Unit := do
  let actor ← authenticateCall fingerprint .admin
  if expiresInSeconds < 60 ∨ 86400 < expiresInSeconds then
    .fail (.status .invalidArgument "expiry must be between 60 seconds and 24 hours")
  else do
    let now ← Sql.clock
    Sql.beginTransaction
    insertInvitation id .client name secretHash (now + expiresInSeconds * 1000000000)
      internalFailure
    appendAuditNote (some actor) "admin" "enrollment_key.create" none
    Sql.commitTransaction

def createEnrollmentKeyBounded (role : Role) (id : Nat) (name secretHash : String) (ttl : Nat) :
    RegistrySql Unit :=
  if ttl = 0 ∨ 86400 * 1000000000 < ttl then
    .fail (.bail
      "enrollment-key lifetime must be greater than zero and no more than 24 hours")
  else do
    let now ← Sql.clock
    Sql.beginTransaction
    insertInvitation id role name secretHash (now + ttl) (.bail "store one-time enrollment key")
    appendLocalNote "enrollment_key.create" none
    Sql.commitTransaction

/-- The `WHERE` clause that both revocations share. -/
def Invitation.revocable (now : Int) (row : Invitation) : Bool :=
  row.consumedAt.isNone && row.revokedAt.isNone && now < row.expiresAt

def revokeEnrollmentKey (fingerprint keyId : Nat) : RegistrySql Unit := do
  let actor ← authenticateCall fingerprint .admin
  Sql.beginTransaction
  let affected ← Sql.execute fun now =>
    onInvitations (fun id row => id = keyId && row.role = .client && row.revocable now)
      fun row => { row with revokedAt := some now, revokedBy := some actor }
  if affected.length ≠ 1 then
    .fail (.status .failedPrecondition
      "invitation is missing, expired, consumed, or already revoked")
  else do
    appendAuditNote (some actor) "admin" "enrollment_key.revoke" none
    Sql.commitTransaction

def revokeEnrollmentKeyRecord (role : Role) (keyId : Nat) : RegistrySql Unit := do
  Sql.beginTransaction
  let affected ← Sql.execute fun now =>
    onInvitations (fun id row => id = keyId && row.role = role && row.revocable now)
      fun row => { row with revokedAt := some now }
  if affected.length ≠ 1 then
    .fail (.bail "invitation is missing, expired, consumed, or already revoked")
  else do
    appendLocalNote "enrollment_key.revoke" none
    Sql.commitTransaction

/-! ### Enrollment -/

/-- What `enroll` is called with, and the identifier and the serial number
that it draws. -/
structure EnrollRequest where
  role : Role
  enrollmentKey : String
  csrPem : List UInt8
  presentedName : String
  clientPlatform : Option (String × String)
  identityId : Nat
  serial : Nat
  deriving DecidableEq

/-- The check of the row that both reads of the invitation make. -/
def Invitation.refuses (claims : InvitationClaims) (role : Role) (now : Int) (row : Invitation) :
    Bool :=
  row.role ≠ role || row.name ≠ claims.name || row.expiresAt ≤ now ||
    row.consumedAt.isSome || row.revokedAt.isSome

/-- `INSERT INTO clients`, for a client. -/
def insertClient (request : EnrollRequest) : RegistrySql Unit :=
  match request.clientPlatform with
  | some (os, architecture) =>
    Sql.insertRow (.client request.identityId) ⟨request.presentedName, os, architecture⟩
      internalFailure
  | none => pure ()

/-- `UPDATE enrollment_keys SET consumed_at = NOW(), consumed_by = $2 …`. -/
def consumeInvitation (keyId identityId : Nat) (now : Int) : Statement RegistryRow :=
  onInvitations (fun id row => id = keyId && row.revocable now)
    fun row => { row with consumedAt := some now, consumedBy := some identityId }

/-- The rows that `enroll` inserts, and the consumption. -/
def enrollRows (request : EnrollRequest) (claims : InvitationClaims)
    (issued : IssuedCertificate) : RegistrySql Unit := do
  let now ← Sql.clock
  let activationExpiresAt := now + identityActivationTtl
  Sql.insertRow (.identity request.identityId)
    ⟨⟨request.role, .pending activationExpiresAt, false⟩, claims.name, issued.fingerprint⟩
    internalFailure
  Sql.insertRow (.certificate issued.fingerprint)
    ⟨request.identityId, .pending activationExpiresAt, issued.expiresAt, none, false⟩
    internalFailure
  insertClient request
  let consumed ← Sql.execute (consumeInvitation claims.id request.identityId)
  if consumed.length ≠ 1 then .fail invalidKey
  else do
    appendAuditNote (some request.identityId) (roleName request.role) "identity.enroll_pending"
      (some request.identityId)
    Sql.commitTransaction

/-- The transaction of `enroll`, after the secret is verified. -/
def enrollTransaction (env : EnrollmentEnv) (request : EnrollRequest) (claims : InvitationClaims)
    (csr expectedHash : String) : RegistrySql Unit := do
  Sql.beginTransaction
  let found ← Sql.selectForUpdate [.invitation claims.id] fun _ => true
  match found.bind fun rows => rows (.invitation claims.id) with
  | none => .fail invalidKey
  | some row => do
    let now ← Sql.clock
    if row.refuses claims request.role now ∨ row.secretHash ≠ expectedHash then .fail invalidKey
    else
      match env.issueIdentityCsr csr claims.name request.identityId request.role request.serial with
      | none => .fail (.status .invalidArgument "invalid certificate request")
      | some issued => enrollRows request claims issued

def enroll (env : EnrollmentEnv) (request : EnrollRequest) : RegistrySql Unit :=
  match env.parseEnrollmentInvitation request.enrollmentKey with
  | none => .fail invalidKey
  | some claims =>
    if claims.serverInstanceId ≠ env.instanceId then
      .fail (.status .unauthenticated "invitation belongs to a different CentralD server")
    else do
      let now ← Sql.clock
      if claims.role ≠ request.role ∨ claims.expiresAt ≤ now then .fail invalidKey
      else if request.role = .admin ∧ request.presentedName ≠ claims.name then
        .fail (.status .invalidArgument "Admin name does not match the access key")
      else
        match env.decodeCsr request.csrPem with
        | .error message => .fail (.status .invalidArgument message)
        | .ok csr => do
          let candidate ← Sql.query fun _ s => s.row (.invitation claims.id)
          match candidate with
          | none => .fail invalidKey
          | some candidate => do
            let now ← Sql.clock
            if candidate.refuses claims request.role now then .fail invalidKey
            else if !env.verifyEnrollmentKey request.enrollmentKey candidate.secretHash then
              .fail invalidKey
            else enrollTransaction env request claims csr candidate.secretHash

/-! ### Certificates -/

/-- `renew_certificate` and `renew_admin_certificate`. -/
def renewIdentityCertificate (env : EnrollmentEnv) (fingerprint : Nat) (role : Role)
    (csrPem : List UInt8) (serial : Nat) : RegistrySql Unit := do
  let identity ← authenticateCall fingerprint role
  match env.decodeCsr csrPem with
  | .error message => .fail (.status .invalidArgument message)
  | .ok csr => do
    let name ← Sql.query fun _ s => (s.row (.identity identity)).bind fun row =>
      if row.activation = .active ∧ row.revoked = false then some row.name else none
    match name with
    | none => .fail (.status .permissionDenied "identity is revoked, inactive, or missing")
    | some name =>
      match env.issueIdentityCsr csr name identity role serial with
      | none => .fail (.status .invalidArgument "invalid certificate request")
      | some issued => do
        let now ← Sql.clock
        Sql.beginTransaction
        let presentedIsActive ← Sql.query fun now s =>
          (s.row (.certificate fingerprint)).any fun c =>
            c.identity = identity && c.activation = .active && !c.revoked && now < c.expiresAt &&
              c.retireAt.all (now < ·)
        if !presentedIsActive then
          .fail (.status .unauthenticated "certificate is no longer active")
        else do
          Sql.insertRow (.certificate issued.fingerprint)
            ⟨identity, .pending (now + identityActivationTtl), issued.expiresAt, none, false⟩
            internalFailure
          appendAuditNote (some identity) (roleName role) "identity.certificate_renew_pending"
            (some identity)
          Sql.commitTransaction

/-- `UPDATE identity_certificates SET retire_at = LEAST(…)`. -/
def retireOthers (identity fingerprint : Nat) (now : Int) : Statement RegistryRow :=
  onCertificates
    (fun f row => row.identity = identity && f ≠ fingerprint && row.activation = .active &&
      !row.revoked && now < row.expiresAt)
    fun row => some { row with
      retireAt := some (min (row.retireAt.getD row.expiresAt) (now + retirementDelay)) }

/-- `UPDATE identity_certificates SET state = 'active', …`. -/
def activateCertificateRow (identity fingerprint : Nat) : Statement RegistryRow :=
  onCertificates (fun f row => row.identity = identity && f = fingerprint)
    fun row => some { row with activation := .active, retireAt := none }

/-- `UPDATE identities SET activated_at = COALESCE(activated_at, NOW()), …`. -/
def activateIdentityRow (identity fingerprint : Nat) : Statement RegistryRow :=
  onIdentities (fun id _ => id = identity)
    fun row => some { row with activation := .active, fingerprint := fingerprint }

/-- The updates of an activation. -/
def activateRows (identity fingerprint : Nat) (role : Role) : RegistrySql Unit := do
  let _ ← Sql.execute (retireOthers identity fingerprint)
  let _ ← Sql.execute fun _ => activateCertificateRow identity fingerprint
  let _ ← Sql.execute fun _ => activateIdentityRow identity fingerprint
  appendAuditNote (some identity) (roleName role) "identity.activate" (some identity)
  Sql.commitTransaction

/-- `activate_identity_certificate`. -/
def activateCertificateCall (identity fingerprint : Nat) (expectedRole : Role) :
    RegistrySql Unit := do
  Sql.beginTransaction
  let found ← Sql.selectForUpdate [.identity identity, .certificate fingerprint] fun rows =>
    (rows (.certificate fingerprint)).any fun c => c.identity = identity
  match found.bind fun rows => (rows (.identity identity)).bind fun i =>
    (rows (.certificate fingerprint)).map fun c => (i, c) with
  | none => .fail (.status .unauthenticated "unknown identity certificate")
  | some (i, c) => do
    let now ← Sql.clock
    if i.role ≠ expectedRole ∨ i.revoked ∨ c.revoked ∨ c.expiresAt ≤ now then
      .fail (.status .permissionDenied "identity certificate is not authorized")
    else
      match c.activation with
      | .active => Sql.commitTransaction
      | .pending deadline => do
        let now ← Sql.clock
        if deadline ≤ now then
          .fail (.status .unauthenticated "identity activation window expired")
        else do
          let now ← Sql.clock
          if Registry.expiredAt now i.activation then
            .fail (.status .unauthenticated "identity activation window expired")
          else activateRows identity fingerprint expectedRole

/-! ### Revocation -/

/-- `revoke_identity`. -/
def revokeIdentityCall (fingerprint identity : Nat) : RegistrySql Unit := do
  let actor ← authenticateCall fingerprint .admin
  Sql.beginTransaction
  let found ← Sql.selectForUpdate [.identity identity] fun _ => true
  match found.bind fun rows => rows (.identity identity) with
  | none => .fail (.notFound "identity not found")
  | some row =>
    if row.role ≠ .client then
      .fail (.status .permissionDenied
        "Admin identities can be revoked only with centrald-server")
    else if row.revoked then
      .fail (.status .failedPrecondition "identity is already revoked")
    else do
      let affected ← Sql.execute fun _ => revokeIdentityRow .client identity
      if affected.length ≠ 1 then
        .fail (.status .aborted "identity changed before revocation; refresh and try again")
      else do
        let _ ← Sql.execute fun _ => revokeCertificateRows identity
        appendAuditNote (some actor) "admin" "identity.revoke" (some identity)
        Sql.commitTransaction

/-- An activated and unrevoked Admin. -/
def IdentityRow.activeAdmin (row : IdentityRow) : Bool :=
  row.role = .admin && row.activation = .active && !row.revoked

/-- `SELECT COUNT(*) FROM identities WHERE role = 'admin' AND …`. -/
def countActiveAdmins (s : Snapshot RegistryRow) : Nat :=
  s.count fun
    | .identity _, row => IdentityRow.activeAdmin row
    | _, _ => false

/-- The refusal of `revoke_identity_record` that protects the last Admin. -/
def lastActiveAdmin : CallError :=
  .bail "refusing to revoke the last active Admin; create a replacement first"

/-- The updates of `revoke_identity_record`. -/
def revokeRecordRows (role : Role) (identity : Nat) : RegistrySql Unit := do
  let affected ← Sql.execute fun _ => revokeIdentityRow role identity
  if affected.length ≠ 1 then
    .fail (.bail "identity changed before revocation; refresh and try again")
  else do
    let _ ← Sql.execute fun _ => revokeCertificateRows identity
    appendLocalNote "identity.revoke" (some identity)
    Sql.commitTransaction

def revokeIdentityRecord (role : Role) (identity : Nat) : RegistrySql Unit := do
  Sql.beginTransaction
  Sql.advisoryLock .revocationLock internalFailure
  if role = .admin then do
    let activeAdmins ← Sql.query fun _ s => countActiveAdmins s
    if activeAdmins ≤ 1 then .fail lastActiveAdmin
    else revokeRecordRows role identity
  else revokeRecordRows role identity

/-- An activated and unrevoked client. -/
def IdentityRow.activeClient (row : IdentityRow) : Bool :=
  row.role = .client && row.activation = .active && !row.revoked

/-- `replace_client_identity`. -/
def replaceClientCall (currentIdentity replacementIdentity : Nat) : RegistrySql Unit :=
  if currentIdentity = replacementIdentity then
    .fail (.status .invalidArgument "replacement identity must be different")
  else do
    Sql.beginTransaction
    let replacementIsActive ← Sql.query fun _ s =>
      (s.row (.identity replacementIdentity)).any IdentityRow.activeClient
    if !replacementIsActive then
      .fail (.status .failedPrecondition "replacement client identity is not active")
    else do
      let affected ← Sql.execute fun _ => revokeIdentityRow .client currentIdentity
      if affected.length ≠ 1 then
        .fail (.status .aborted "current client identity changed before replacement")
      else do
        let _ ← Sql.execute fun _ => revokeCertificateRows currentIdentity
        appendAuditNote (some currentIdentity) "client" "identity.replace"
          (some replacementIdentity)
        Sql.commitTransaction

/-- `replace_identity`, called with a certificate of the old identity. -/
def replaceIdentityCall (fingerprint replacementIdentity : Nat) : RegistrySql Unit := do
  let currentIdentity ← authenticateCall fingerprint .client
  replaceClientCall currentIdentity replacementIdentity

/-! ### Maintenance -/

/-- What `ON DELETE CASCADE` and `ON DELETE SET NULL` do when the
identities `deleted` go. -/
def onDeleteIdentities (deleted : List RegistryKey) : RegistrySql Unit := do
  let _ ← Sql.execute fun _ =>
    onCertificates (fun _ row => .identity row.identity ∈ deleted) fun _ => none
  let _ ← Sql.execute fun _ => deleteClients fun id => .identity id ∈ deleted
  let _ ← Sql.execute fun _ =>
    onInvitations (fun _ row => row.consumedBy.any fun id => .identity id ∈ deleted)
      fun row => { row with consumedBy := none }
  let _ ← Sql.execute fun _ =>
    onInvitations (fun _ row => row.revokedBy.any fun id => .identity id ∈ deleted)
      fun row => { row with revokedBy := none }
  pure ()

/-- The statements of `maintenance_once` on these tables. -/
def maintainIdentities : RegistrySql Unit := do
  Sql.beginTransaction
  let deleted ← Sql.execute fun now =>
    onIdentities (fun _ row => Registry.expiredAt now row.activation) fun _ => none
  onDeleteIdentities deleted
  let _ ← Sql.execute fun now =>
    onCertificates (fun _ row => Registry.expiredAt now row.activation) fun _ => none
  Sql.commitTransaction

/-! ### The machine -/

/-- The calls that change the registry, each one transaction. -/
inductive RegistryCall where
  | createEnrollmentKey (fingerprint id : Nat) (name secretHash : String) (expiresInSeconds : Nat)
  | createEnrollmentKeyBounded (role : Role) (id : Nat) (name secretHash : String) (ttl : Nat)
  | revokeEnrollmentKey (fingerprint keyId : Nat)
  | revokeEnrollmentKeyRecord (role : Role) (keyId : Nat)
  | enroll (request : EnrollRequest)
  | renewCertificate (fingerprint : Nat) (role : Role) (csrPem : List UInt8) (serial : Nat)
  | activate (identity fingerprint : Nat) (role : Role)
  | revokeIdentity (fingerprint identity : Nat)
  | revokeIdentityRecord (role : Role) (identity : Nat)
  | replaceIdentity (fingerprint replacement : Nat)
  | maintenance
  deriving DecidableEq

def RegistryCall.body (env : EnrollmentEnv) : RegistryCall → RegistrySql Unit
  | .createEnrollmentKey fingerprint id name secretHash expiresInSeconds =>
    Server.createEnrollmentKey fingerprint id name secretHash expiresInSeconds
  | .createEnrollmentKeyBounded role id name secretHash ttl =>
    Server.createEnrollmentKeyBounded role id name secretHash ttl
  | .revokeEnrollmentKey fingerprint keyId => Server.revokeEnrollmentKey fingerprint keyId
  | .revokeEnrollmentKeyRecord role keyId => Server.revokeEnrollmentKeyRecord role keyId
  | .enroll request => Server.enroll env request
  | .renewCertificate fingerprint role csrPem serial =>
    renewIdentityCertificate env fingerprint role csrPem serial
  | .activate identity fingerprint role => activateCertificateCall identity fingerprint role
  | .revokeIdentity fingerprint identity => revokeIdentityCall fingerprint identity
  | .revokeIdentityRecord role identity => Server.revokeIdentityRecord role identity
  | .replaceIdentity fingerprint replacement => replaceIdentityCall fingerprint replacement
  | .maintenance => maintainIdentities

abbrev RegistryDb : Type := Db RegistryRow RegistryCall CallError Unit

/-- All calls, interleaved. -/
def registryMachine (env : EnrollmentEnv) : Machine RegistryDb (DbLabel RegistryCall) :=
  readCommitted (RegistryCall.body env)

/-- The empty tables. -/
def emptyStore : Store RegistryRow where
  cells
    | .audit => ⟨some [], none⟩
    | .revocationLock => ⟨some (), none⟩
    | .identity _ | .certificate _ | .invitation _ | .client _ => ⟨none, none⟩
  index := [.audit, .revocationLock]
  nodup := by decide
  covers k hk := by
    cases k with
    | audit => exact absurd (List.mem_cons_self ..) hk
    | revocationLock => exact absurd (by decide) hk
    | _ => rfl

/-- The start: empty tables and no call. -/
def registryStart (clock : Int) : RegistryDb where
  clock := clock
  store := emptyStore
  threads _ := none
  commits := []

end Centrald.Server
