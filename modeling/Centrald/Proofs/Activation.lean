import Centrald.Proofs.Identities

/-!
# `Centrald.Proofs.Activation`: what a successful activation promises

A client commits its credential pointer when the server has answered its
activation. `activation_usable_iff` says when that certificate then
authenticates. A pending certificate that is activated always does: its
row is unrevoked, unexpired and loses its retirement time, and its
identity is activated with it.

The answer for a certificate that is active already is different.
`activate_identity_certificate` checks the role, the revocations and the
expiry and returns at once. It does not look at `retire_at`, which
`authenticate`, `authorize_existing_identity` and the renewal all ask
for. A certificate that was renewed more than an hour ago is activated
with success and does not authenticate (`activated_but_retired`).
-/

set_option autoImplicit false

namespace Centrald.Proofs

open Server

variable {db db' : Registry} {now : Int} {identity fingerprint : Nat} {role : Role}

variable {i : Identity} {c : Certificate}

/-- The query of `authenticate` on rows that are there. -/
theorem authenticate_eq_ok
    (hc : db.certificates fingerprint = some c) (hi : db.identities c.identity = some i) :
    authenticate db now fingerprint role = .ok c.identity ↔
      c.activation = .active ∧ c.revoked = false ∧ now < c.expiresAt ∧
        (∀ r ∈ c.retireAt, now < r) ∧ i.role = role ∧ i.activation = .active ∧
        i.revoked = false := by
  unfold authenticate
  grind

/-- The certificate is active, and its retirement time has come. -/
def RetirementPassed (db : Registry) (now : Int) (fingerprint : Nat) : Prop :=
  ∃ c r, db.certificates fingerprint = some c ∧ c.activation = .active ∧ c.retireAt = some r ∧
    r ≤ now

/-- A certificate that is active already authenticates until its
retirement. -/
theorem authenticate_of_active
    (hc : db.certificates fingerprint = some c) (hi : db.identities c.identity = some i)
    (hactive : c.activation = .active) (hchecked : Activatable now role i c) :
    authenticate db now fingerprint role = .ok c.identity ↔
      ¬RetirementPassed db now fingerprint := by
  rw [authenticate_eq_ok hc hi]
  constructor
  · rintro ⟨-, -, -, hretire, -⟩ ⟨c', r, hc', -, hr, hle⟩
    cases hc.symm.trans hc'
    have := hretire r hr
    omega
  · intro hnot
    refine ⟨hactive, hchecked.unrevoked, hchecked.unexpired, fun r hr => ?_, hchecked.role, ?_,
      hchecked.identityUnrevoked⟩
    · by_contra hle
      exact hnot ⟨c, r, hc, hactive, hr, not_lt.1 hle⟩
    · obtain ⟨i', hi', hiactive⟩ := db.activated fingerprint c hc hactive
      grind

/-- A certificate that was just activated authenticates. -/
theorem authenticate_activate
    (hi : db.identities c.identity = some i) (hc : db.certificates fingerprint = some c)
    (hchecked : Activatable now role i c) :
    authenticate (db.activate now hi fingerprint) now fingerprint role = .ok c.identity := by
  have hrow : (db.activate now hi fingerprint).certificates fingerprint =
      some { c with activation := .active, retireAt := none } := by
    rw [certificates_activate, hc, Option.map_some, Registry.activatedRow, if_pos rfl, if_pos rfl]
  have hid : (db.activate now hi fingerprint).identities c.identity =
      some { i with activation := .active } := by
    rw [identities_activate, Function.update_self]
  exact (authenticate_eq_ok hrow hid).2 ⟨rfl, hchecked.unrevoked, hchecked.unexpired, by simp,
    hchecked.role, rfl, hchecked.identityUnrevoked⟩

/-- No identities and no certificates. -/
def emptyRegistry : Registry := .empty

/-- Certificate 30 is renewed by 31, which is activated. An hour later 30
is activated again, with success, and does not authenticate. -/
theorem activated_but_retired : ∃ db1 db2 db3 db4,
      enrollIdentity emptyRegistry 0 .client 20 30 40000000000000000 = .ok db1 ∧
      activateIdentityCertificate db1 1 20 30 .client = .ok db2 ∧
      renewCertificate db2 2 30 .client 31 40000000000000000 = .ok db3 ∧
      activateIdentityCertificate db3 3 20 31 .client = .ok db4 ∧
      activateIdentityCertificate db4 (3 + retirementDelay) 20 30 .client = .ok db4 ∧
      authenticate db4 (3 + retirementDelay) 30 .client = .error .unauthenticated :=
  ⟨_, _, _, _, rfl, rfl, rfl, rfl, rfl, rfl⟩

/-- After a successful activation the certificate authenticates at that
time, unless it was active before and its retirement time has come. -/
theorem activation_usable_iff
    (h : activateIdentityCertificate db now identity fingerprint role = .ok db') :
    authenticate db' now fingerprint role = .ok identity ↔
      ¬RetirementPassed db now fingerprint := by
  obtain ⟨i, hi, c, hc, rfl, hchecked, ⟨hactive, rfl⟩ | ⟨⟨d, hpending⟩, rfl⟩⟩ :=
    activateIdentityCertificate_ok h
  · exact authenticate_of_active hc hi hactive hchecked
  · refine ⟨fun _ => ?_, fun _ => authenticate_activate hi hc hchecked⟩
    rintro ⟨c', r, hc', hactive, -⟩
    grind

/-- The first activation after an enrollment. -/
theorem activation_usable_enrolled :
    ∃ db db', enrollIdentity emptyRegistry 0 .client 20 30 40000000000000000 = .ok db ∧
      activateIdentityCertificate db 1 20 30 .client = .ok db' ∧
      authenticate db' 1 30 .client = .ok 20 := by
  refine ⟨_, ?d, rfl, ?h, (activation_usable_iff ?h).2 ?_⟩
  case h => exact rfl
  rintro ⟨c, r, hc, hactive, -⟩
  cases hc
  cases hactive

end Centrald.Proofs
