import Centrald.Durable.CommitHistory
import Centrald.Durable.OwnedRows
import Centrald.Server.IdentityTransactions

/-!
# `Centrald.Proofs.IdentityChanges`: what each identity call commits

A transaction changes a row of the identity tables in one of a few ways,
which the relations `IdentityChange`, `CertificateChange` and
`InvitationChange` list with their conditions. `CommitSpec` is what
holds when a call commits: every row that it has locked changed in one
of these ways, and what is particular to the call. An activation has
retired all other certificates that are in use, and the revocation of an
Admin leaves another one. Both rest on a lock. While a transaction has
an identity locked, no other one activates, retires or revokes its
certificates. While it has the revocation lock, every active Admin stays
active. `registryRely` is this, and `registry_protocol` proves the
specification of every call from it.
-/

set_option autoImplicit false

namespace Centrald.Proofs

open Durable Server

/-! ### The changes of a row -/

/-- The calls that revoke an identity. -/
def Revokes : RegistryCall → Prop
  | .revokeIdentity _ _ | .revokeIdentityRecord _ _ | .replaceIdentity _ _ => True
  | _ => False

/-- The calls that create an invitation. -/
def CreatesInvitation : RegistryCall → Prop
  | .createEnrollmentKey _ _ _ _ _ | .createEnrollmentKeyBounded _ _ _ _ _ => True
  | _ => False

/-- The calls that revoke an invitation. -/
def RevokesInvitation : RegistryCall → Prop
  | .revokeEnrollmentKey _ _ | .revokeEnrollmentKeyRecord _ _ => True
  | _ => False

/-- The calls that issue a certificate. -/
def IssuesCertificate : RegistryCall → Prop
  | .enroll _ | .renewCertificate _ _ _ _ => True
  | _ => False

/-- What the call may do to the identity `id`, if it works on `target`. -/
inductive IdentityChange (c : RegistryCall) (target id : Nat) :
    Option IdentityRow → Option IdentityRow → Prop where
  | same (a : Option IdentityRow) : IdentityChange c target id a a
  | enrolled {request : EnrollRequest} {role : Role} {d : Int} {name : String} {f : Nat}
      (hc : c = .enroll request) (hid : request.identityId = id) :
      IdentityChange c target id none (some ⟨⟨role, .pending d, false⟩, name, f⟩)
  | activated {row : IdentityRow} {f : Nat} {role : Role} (hc : c = .activate id f role)
      (hid : id = target) (hrevoked : row.revoked = false) :
      IdentityChange c target id (some row)
        (some { row with activation := .active, fingerprint := f })
  | revoked {row : IdentityRow} (hc : Revokes c) (hid : id = target)
      (hrole : row.role = .client ∨ c = .revokeIdentityRecord .admin id) :
      IdentityChange c target id (some row) (some { row with revoked := true })
  | deleted {row : IdentityRow} {d : Int} (hc : c = .maintenance)
      (hpending : row.activation = .pending d) : IdentityChange c target id (some row) none

/-- The retirement of a certificate by an activation at `now`. -/
def retired (now : Int) (row : Certificate) : Certificate :=
  { row with retireAt := some (min (row.retireAt.getD row.expiresAt) (now + retirementDelay)) }

/-- What the call may do to the certificate `f`. -/
inductive CertificateChange (c : RegistryCall) (now : Int) (target f : Nat) :
    Option Certificate → Option Certificate → Prop where
  | same (a : Option Certificate) : CertificateChange c now target f a a
  | issued {identity : Nat} {d e : Int} (hc : IssuesCertificate c) :
      CertificateChange c now target f none (some ⟨identity, .pending d, e, none, false⟩)
  | activated {row : Certificate} {role : Role} {d : Int} (hc : c = .activate target f role)
      (hid : row.identity = target) (hpending : row.activation = .pending d) :
      CertificateChange c now target f (some row)
        (some { row with activation := .active, retireAt := none })
  | retired {row : Certificate} {g : Nat} {role : Role} (hc : c = .activate target g role)
      (hid : row.identity = target) (hne : f ≠ g) (hactive : row.activation = .active) :
      CertificateChange c now target f (some row) (some (retired now row))
  | revoked {row : Certificate} (hc : Revokes c) (hid : row.identity = target) :
      CertificateChange c now target f (some row) (some { row with revoked := true })
  | deleted {row : Certificate} (hc : c = .maintenance) :
      CertificateChange c now target f (some row) none

/-- The call is an enrollment with the invitation `key`. -/
def Consumes (env : EnrollmentEnv) (c : RegistryCall) (key : Nat) : Prop :=
  ∃ request claims, c = .enroll request ∧
    env.parseEnrollmentInvitation request.enrollmentKey = some claims ∧ claims.id = key

/-- What the call may do to the invitation `key`, locked at `since`. -/
inductive InvitationChange (env : EnrollmentEnv) (c : RegistryCall) (now : Int) (key : Nat)
    (since : Int) : Option Invitation → Option Invitation → Prop where
  | same (a : Option Invitation) : InvitationChange env c now key since a a
  | created {role : Role} {name hash : String} {e : Int} (hc : CreatesInvitation c) :
      InvitationChange env c now key since none
        (some ⟨role, name, hash, e, none, none, none, none⟩)
  | consumed {row : Invitation} {by_ : Nat} (hc : Consumes env c key)
      (hconsumed : row.consumedAt = none) (hrevoked : row.revokedAt = none)
      (hsince : since < row.expiresAt) :
      InvitationChange env c now key since (some row)
        (some { row with consumedAt := some now, consumedBy := some by_ })
  | revoked {row : Invitation} {by_ : Option Nat} (hc : RevokesInvitation c)
      (hconsumed : row.consumedAt = none) (hrevoked : row.revokedAt = none) :
      InvitationChange env c now key since (some row)
        (some { row with revokedAt := some now, revokedBy := by_ })
  | unlinked {row : Invitation} {consumedBy revokedBy : Option Nat} (hc : c = .maintenance) :
      InvitationChange env c now key since (some row)
        (some { row with consumedBy := consumedBy, revokedBy := revokedBy })

/-- What the call may do to a row that it has locked. -/
def RowChange (env : EnrollmentEnv) (c : RegistryCall) (now : Int) (target : Nat) :
    (k : RegistryKey) → Version (RegistryRow k) → Option (RegistryRow k) → Prop
  | .identity id, v, a => IdentityChange c target id a v.row
  | .certificate f, v, a => CertificateChange c now target f a v.row
  | .invitation key, v, a => InvitationChange env c now key v.since a v.row
  | .client _, _, _ | .audit, _, _ | .revocationLock, _, _ => True

/-! ### What the calls rely on -/

/-- What holds while the rows `h` are locked, from the committed rows
`rows` to later ones. -/
structure RegistryRely (h : Held RegistryRow) (rows rows' : Rows RegistryRow) : Prop where
  certificates : ∀ f c, rows' (.certificate f) = some c → c.activation = .active →
    (h (.identity c.identity)).isSome → rows (.certificate f) = some c
  admins : (h .revocationLock).isSome → ∀ id row, rows (.identity id) = some row →
    row.activeAdmin → ∃ row', rows' (.identity id) = some row' ∧ row'.activeAdmin

def registryRely (_ : RegistryCall) (_ : Nat) : Held RegistryRow → Rows RegistryRow →
    Rows RegistryRow → Prop := RegistryRely

theorem RegistryRely.refl (h : Held RegistryRow) (rows : Rows RegistryRow) :
    RegistryRely h rows rows :=
  ⟨fun _ _ hf _ _ => hf, fun _ _ row hrow hadmin => ⟨row, hrow, hadmin⟩⟩

theorem RegistryRely.trans {h : Held RegistryRow} {rows rows' rows'' : Rows RegistryRow}
    (h1 : RegistryRely h rows rows') (h2 : RegistryRely h rows' rows'') :
    RegistryRely h rows rows'' where
  certificates f c hf hc hid := h1.certificates f c (h2.certificates f c hf hc hid) hc hid
  admins hlock id row hrow hadmin := by
    obtain ⟨row', hrow', hadmin'⟩ := h1.admins hlock id row hrow hadmin
    exact h2.admins hlock id row' hrow' hadmin'

/-! ### What a call commits -/

/-- The calls that lock the identity they work on. -/
def LocksTarget : RegistryCall → Prop
  | .activate _ _ _ => True
  | c => Revokes c

/-- An activation that found the certificate pending. -/
structure Activates (now : Int) (target f : Nat) (L : Local RegistryRow) : Prop where
  identity : ∃ row : IdentityRow, L.view (.identity target) =
    some { row with activation := .active, fingerprint := f }
  certificate : ∃ c d, L.rows (.certificate f) = some c ∧ c.identity = target ∧
    c.activation = .pending d ∧
    L.view (.certificate f) = some { c with activation := .active, retireAt := none }
  others : ∀ g c, g ≠ f → L.rows (.certificate g) = some c → c.identity = target →
    c.activation = .active → c.revoked = false → now < c.expiresAt →
    L.view (.certificate g) = some (retired now c)

/-- What is particular to a call. -/
def Particular (env : EnrollmentEnv) (now : Int) (target : Nat) (L : Local RegistryRow) :
    RegistryCall → Prop
  | .enroll request => ∃ claims since row,
    env.parseEnrollmentInvitation request.enrollmentKey = some claims ∧
    row.consumedAt = none ∧ row.revokedAt = none ∧ since < row.expiresAt ∧
    L.Owns (.invitation claims.id) since (some row)
      (some { row with consumedAt := some now, consumedBy := some request.identityId }) ∧
    L.rows (.identity request.identityId) = none ∧
    (L.view (.identity request.identityId)).isSome
  | .activate identity f _ => identity = target ∧
    (∃ row, L.rows (.identity target) = some row ∧ row.revoked = false) ∧
    ((∀ k, L.view k = L.rows k) ∨ Activates now target f L)
  | .revokeIdentityRecord .admin identity => identity = target ∧
    (L.held .revocationLock).isSome ∧
    ∃ i j row row', i ≠ j ∧ L.rows (.identity i) = some row ∧ row.activeAdmin ∧
      L.rows (.identity j) = some row' ∧ row'.activeAdmin
  | .revokeIdentity _ identity => identity = target
  | .revokeIdentityRecord .client identity => identity = target
  | _ => True

/-- What holds when a call that began at `now` commits. -/
structure CommitSpec (env : EnrollmentEnv) (c : RegistryCall) (now : Int)
    (L : Local RegistryRow) (target : Nat) : Prop where
  clock : now ≤ L.clock
  changes : L.AllHeld (RowChange env c now target)
  locked : LocksTarget c → (L.held (.identity target)).isSome
  particular : Particular env now target L c

def registryPost (env : EnrollmentEnv) (c : RegistryCall) (now : Int) (L : Local RegistryRow) :
    Prop := ∃ target, CommitSpec env c now L target

section

variable {env : EnrollmentEnv} {c : RegistryCall} {now : Int} {L : Local RegistryRow}
  {target : Nat} (h : CommitSpec env c now L target)
include h

theorem CommitSpec.identityChange (id : Nat) :
    IdentityChange c target id (L.rows (.identity id)) (L.view (.identity id)) := by
  rcases h.changes.row (.identity id) with hsame | ⟨since, hchange⟩
  · rw [hsame]
    exact .same _
  · exact hchange

theorem CommitSpec.certificateChange (f : Nat) :
    CertificateChange c now target f (L.rows (.certificate f)) (L.view (.certificate f)) := by
  rcases h.changes.row (.certificate f) with hsame | ⟨since, hchange⟩
  · rw [hsame]
    exact .same _
  · exact hchange

theorem CommitSpec.invitationChange (key : Nat) : ∃ since, InvitationChange env c now key since
    (L.rows (.invitation key)) (L.view (.invitation key)) := by
  rcases h.changes.row (.invitation key) with hsame | hchange
  · rw [hsame]
    exact ⟨now, .same _⟩
  · exact hchange

end

end Centrald.Proofs
