import Mathlib.Algebra.Order.Ring.Int
import Mathlib.Logic.Function.Basic

/-!
# `Centrald.Server.Identities`: identities and their certificates on the server

The model of the identity functions of `centrald-server`, `services.rs`,
over the tables `identities` and `identity_certificates`. Each function
is one transaction of the source: it returns a gRPC status and leaves
the tables alone, or returns the new tables.

The two tables check that a row has an activation deadline exactly while
it is pending; `Activation` builds that in. Time is in nanoseconds.
Certificates are named by their fingerprint. The texts of the statuses,
the audit records and the columns no decision depends on are left out.
-/

set_option autoImplicit false

namespace Centrald.Server

/-- `IDENTITY_ACTIVATION_TTL_HOURS`. -/
def identityActivationTtl : Int := 24 * 3600 * 1000000000

/-- `INTERVAL '1 hour'`. -/
def retirementDelay : Int := 3600 * 1000000000

/-- The two kinds of identities that can enroll. -/
inductive Role where
  | client
  | admin
  deriving DecidableEq

/-- The gRPC status codes in use. -/
inductive Status where
  | unauthenticated
  | permissionDenied
  | invalidArgument
  | failedPrecondition
  | aborted
  | internal
  deriving DecidableEq

/-- Whether a row was activated, or until when it can be. -/
inductive Activation where
  | pending (deadline : Int)
  | active
  deriving DecidableEq

/-- A row of `identities`. -/
structure Identity where
  role : Role
  activation : Activation
  revoked : Bool
  deriving DecidableEq

/-- A row of `identity_certificates`. -/
structure Certificate where
  identity : Nat
  activation : Activation
  expiresAt : Int
  retireAt : Option Int
  revoked : Bool
  deriving DecidableEq

/-- The two tables. An active certificate belongs to an activated
identity. -/
structure Registry where
  identities : Nat → Option Identity
  certificates : Nat → Option Certificate
  activated : ∀ f c, certificates f = some c → c.activation = .active →
    ∃ i, identities c.identity = some i ∧ i.activation = .active

namespace Registry

/-- The registry of a new installation. -/
def empty : Registry := ⟨fun _ => none, fun _ => none, nofun⟩

variable (db : Registry)

/-- An activated and unrevoked client identity. -/
def clientActive (identity : Nat) : Bool :=
  match db.identities identity with
  | some i => i.role = .client && i.activation = .active && !i.revoked
  | none => false

/-- The identity was revoked. -/
def identityRevoked (identity : Nat) : Bool :=
  match db.identities identity with
  | some i => i.revoked
  | none => false

/-! ### Updates -/

/-- What an activation does to a row of the other certificates of its
identity, and to the activated one. -/
def activatedRow (now : Int) (identity fingerprint f : Nat) (c : Certificate) : Certificate :=
  if c.identity = identity then
    if f = fingerprint then { c with activation := .active, retireAt := none }
    else if c.activation = .active ∧ c.revoked = false ∧ now < c.expiresAt then
      { c with retireAt := some (min (c.retireAt.getD c.expiresAt) (now + retirementDelay)) }
    else c
  else c

theorem activatedRow_identity (now : Int) (identity fingerprint f : Nat) (c : Certificate) :
    (activatedRow now identity fingerprint f c).identity = c.identity := by
  unfold activatedRow
  split_ifs <;> rfl

/-- Outside the identity an activation changes nothing. -/
theorem activatedRow_of_ne {now : Int} {identity fingerprint f : Nat} {c : Certificate}
    (h : c.identity ≠ identity) : activatedRow now identity fingerprint f c = c :=
  if_neg h

/-- The three updates of an activation. -/
def activate (now : Int) {identity : Nat} {i : Identity}
    (_ : db.identities identity = some i) (fingerprint : Nat) : Registry where
  identities := Function.update db.identities identity (some { i with activation := .active })
  certificates f := (db.certificates f).map (activatedRow now identity fingerprint f)
  activated := by
    intro f c hf hc
    obtain ⟨c0, hc0, rfl⟩ := Option.map_eq_some_iff.1 hf
    rw [activatedRow_identity]
    by_cases hid : c0.identity = identity
    · rw [hid, Function.update_self]
      exact ⟨_, rfl, rfl⟩
    · rw [activatedRow_of_ne hid] at hc
      rw [Function.update_of_ne hid]
      exact db.activated f c0 hc0 hc

/-- Revoke an identity and its certificates. -/
def revoke (identity : Nat) : Registry where
  identities := Function.update db.identities identity
    ((db.identities identity).map fun i => { i with revoked := true })
  certificates f := (db.certificates f).map fun c =>
    if c.identity = identity then { c with revoked := true } else c
  activated := by
    intro f c hf hc
    obtain ⟨c0, hc0, rfl⟩ := Option.map_eq_some_iff.1 hf
    have hsame : (if c0.identity = identity then { c0 with revoked := true } else c0).identity =
        c0.identity := by split_ifs <;> rfl
    have hact : c0.activation = .active := by
      rw [← hc]
      split_ifs <;> rfl
    obtain ⟨i, hi, hi'⟩ := db.activated f c0 hc0 hact
    rw [hsame]
    by_cases hid : c0.identity = identity
    · rw [hid] at hi ⊢
      rw [Function.update_self, hi]
      exact ⟨_, rfl, hi'⟩
    · rw [Function.update_of_ne hid]
      exact ⟨i, hi, hi'⟩

/-- Insert a pending identity. -/
def insertIdentity {identity : Nat} (hfresh : db.identities identity = none) (role : Role)
    (deadline : Int) : Registry where
  identities := Function.update db.identities identity (some ⟨role, .pending deadline, false⟩)
  certificates := db.certificates
  activated := by
    intro f c hf hc
    obtain ⟨i, hi, hi'⟩ := db.activated f c hf hc
    have hne : c.identity ≠ identity := by
      rintro rfl
      rw [hfresh] at hi
      cases hi
    rw [Function.update_of_ne hne]
    exact ⟨i, hi, hi'⟩

/-- Insert a pending certificate. -/
def insertCertificate (fingerprint identity : Nat) (deadline expiresAt : Int) : Registry where
  identities := db.identities
  certificates := Function.update db.certificates fingerprint
    (some ⟨identity, .pending deadline, expiresAt, none, false⟩)
  activated := by
    intro f c hf hc
    by_cases hid : f = fingerprint
    · rw [hid, Function.update_self] at hf
      cases hf
      cases hc
    · rw [Function.update_of_ne hid] at hf
      exact db.activated f c hf hc

/-- A pending row whose deadline has passed. -/
def expiredAt (now : Int) : Activation → Bool
  | .pending deadline => deadline ≤ now
  | .active => false

/-- The deletions of `maintenance_once`; the certificates of a deleted
identity go with it. -/
def maintenance (now : Int) : Registry where
  identities identity := (db.identities identity).filter fun i => !expiredAt now i.activation
  certificates f := (db.certificates f).filter fun c =>
    !expiredAt now c.activation &&
      (db.identities c.identity).any fun i => !expiredAt now i.activation
  activated := by
    intro f c hf hc
    obtain ⟨hf, -⟩ := Option.filter_eq_some_iff.1 hf
    obtain ⟨i, hi, hi'⟩ := db.activated f c hf hc
    exact ⟨i, Option.filter_eq_some_iff.2 ⟨hi, by rw [hi']; rfl⟩, hi'⟩

end Registry

/-! ### The functions -/

def activateIdentityCertificate (db : Registry) (now : Int) (identity fingerprint : Nat)
    (expectedRole : Role) : Except Status Registry :=
  match hi : db.identities identity, db.certificates fingerprint with
  | some i, some c =>
    -- the row of the join
    if c.identity ≠ identity then .error .unauthenticated
    else if i.role ≠ expectedRole ∨ i.revoked ∨ c.revoked ∨ c.expiresAt ≤ now then
      .error .permissionDenied
    else match c.activation with
      | .active => .ok db
      | .pending deadline =>
        if deadline ≤ now ∨ Registry.expiredAt now i.activation then .error .unauthenticated
        else .ok (db.activate now hi fingerprint)
  | _, _ => .error .unauthenticated

def replaceClientIdentity (db : Registry) (currentIdentity replacementIdentity : Nat) :
    Except Status Registry :=
  if currentIdentity = replacementIdentity then .error .invalidArgument
  else if db.clientActive replacementIdentity then
    match db.identities currentIdentity with
    | some i =>
      if i.role = .client ∧ i.revoked = false then .ok (db.revoke currentIdentity)
      else .error .aborted
    | none => .error .aborted
  else .error .failedPrecondition

/-- `authenticate`: the identity of an active certificate. -/
def authenticate (db : Registry) (now : Int) (fingerprint : Nat) (expectedRole : Role) :
    Except Status Nat :=
  match db.certificates fingerprint with
  | some c =>
    match db.identities c.identity with
    | some i =>
      if c.activation = .active ∧ c.revoked = false ∧ now < c.expiresAt ∧
          (∀ r ∈ c.retireAt, now < r) ∧ i.role = expectedRole ∧ i.activation = .active ∧
          i.revoked = false then
        .ok c.identity
      else .error .unauthenticated
    | none => .error .unauthenticated
  | none => .error .unauthenticated

/-- `replace_identity`, called with a certificate of the old identity. -/
def replaceIdentity (db : Registry) (now : Int) (fingerprint replacement : Nat) :
    Except Status Registry := do
  let currentIdentity ← authenticate db now fingerprint .client
  replaceClientIdentity db currentIdentity replacement

/-- `renew_certificate`: a pending certificate `issued` for the identity
of the presented one. The fingerprint is the primary key. -/
def renewCertificate (db : Registry) (now : Int) (fingerprint : Nat) (role : Role)
    (issued : Nat) (expiresAt : Int) : Except Status Registry := do
  let identity ← authenticate db now fingerprint role
  if (db.certificates issued).isSome then .error .internal
  else .ok (db.insertCertificate issued identity (now + identityActivationTtl) expiresAt)

/-- The rows that an accepted enrollment inserts. -/
def enrollIdentity (db : Registry) (now : Int) (role : Role) (identity issued : Nat)
    (expiresAt : Int) : Except Status Registry :=
  match hfresh : db.identities identity with
  | some _ => .error .internal
  | none =>
    if (db.certificates issued).isSome then .error .internal
    else .ok ((db.insertIdentity hfresh role (now + identityActivationTtl)).insertCertificate
      issued identity (now + identityActivationTtl) expiresAt)

end Centrald.Server
