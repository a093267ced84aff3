import Centrald.Server.Identities

/-!
# `Centrald.Proofs.Identities`: what the server's identity functions do

One lemma per function says what the tables are when it succeeds. The
others say what the updates do to the revocation of an identity and to
the retirement and the activation of a certificate.
-/

set_option autoImplicit false

namespace Centrald.Proofs

open Server Function

variable {db db' : Registry} {now : Int}

/-! ### The tables after an update -/

section

variable {i : Nat} {row : Identity} (hi : db.identities i = some row)
include hi

theorem identities_activate (f : Nat) : (db.activate now hi f).identities =
      update db.identities i (some { row with activation := .active }) := rfl

theorem certificates_activate (f g : Nat) : (db.activate now hi f).certificates g =
      (db.certificates g).map (Registry.activatedRow now i f g) := rfl

end

theorem identities_revoke (i : Nat) : (db.revoke i).identities = update db.identities i
      ((db.identities i).map fun row => { row with revoked := true }) := rfl

theorem certificates_revoke (i g : Nat) : (db.revoke i).certificates g =
    (db.certificates g).map fun c =>
      if c.identity = i then { c with revoked := true } else c := rfl

theorem identities_insertIdentity {i : Nat} (hfresh : db.identities i = none) (role : Role)
    (d : Int) : (db.insertIdentity hfresh role d).identities =
      update db.identities i (some ⟨role, .pending d, false⟩) := rfl

theorem certificates_insertCertificate (f i : Nat) (d e : Int) :
    (db.insertCertificate f i d e).certificates =
      update db.certificates f (some ⟨i, .pending d, e, none, false⟩) := rfl

theorem identities_maintenance (i : Nat) : (db.maintenance now).identities i =
    (db.identities i).filter fun row => !Registry.expiredAt now row.activation := rfl

/-! ### The functions -/

/-- What the checks of an activation have found. -/
structure Activatable (now : Int) (role : Role) (i : Identity) (c : Certificate) : Prop where
  role : i.role = role
  identityUnrevoked : i.revoked = false
  unrevoked : c.revoked = false
  unexpired : now < c.expiresAt

variable {fingerprint : Nat} {role : Role}

/-- A successful activation, with what it has checked. -/
theorem activateIdentityCertificate_ok {identity : Nat}
    (h : activateIdentityCertificate db now identity fingerprint role = .ok db') :
    ∃ (i : Identity) (hi : db.identities identity = some i) (c : Certificate),
      db.certificates fingerprint = some c ∧ c.identity = identity ∧
      Activatable now role i c ∧
      ((c.activation = .active ∧ db' = db) ∨
        ((∃ d, c.activation = .pending d) ∧ db' = db.activate now hi fingerprint)) := by
  unfold activateIdentityCertificate at h
  split at h
  next i c hi hc =>
    split_ifs at h with hrow hauth
    have hidentity : c.identity = identity := not_not.1 hrow
    simp only [not_or, not_not, Bool.not_eq_true, not_le] at hauth
    obtain ⟨hrole, hrevoked, hrevoked', hexpires⟩ := hauth
    split at h
    next hactive =>
      cases h
      exact ⟨i, hi, c, hc, hidentity, ⟨hrole, hrevoked, hrevoked', hexpires⟩, .inl ⟨hactive, rfl⟩⟩
    next deadline hpending =>
      split_ifs at h
      cases h
      exact ⟨i, hi, c, hc, hidentity, ⟨hrole, hrevoked, hrevoked', hexpires⟩,
        .inr ⟨⟨deadline, hpending⟩, rfl⟩⟩
  next => cases h

theorem replaceIdentity_ok {replacement : Nat}
    (h : replaceIdentity db now fingerprint replacement = .ok db') :
    ∃ current, current ≠ replacement ∧ db' = db.revoke current := by
  unfold replaceIdentity at h
  cases hauth : authenticate db now fingerprint .client with
  | error status =>
    rw [hauth] at h
    cases h
  | ok current =>
    rw [hauth] at h
    have h : replaceClientIdentity db current replacement = .ok db' := h
    unfold replaceClientIdentity at h
    grind

/-- A renewal inserts one pending certificate of the identity that asks.
-/
theorem renewCertificate_ok {issued : Nat} {expiresAt : Int}
    (h : renewCertificate db now fingerprint role issued expiresAt = .ok db') :
    ∃ identity, authenticate db now fingerprint role = .ok identity ∧
      db.certificates issued = none ∧
      db' = db.insertCertificate issued identity (now + identityActivationTtl) expiresAt := by
  unfold renewCertificate at h
  cases hauth : authenticate db now fingerprint role with
  | error status =>
    rw [hauth] at h
    cases h
  | ok identity =>
    rw [hauth] at h
    have h : (if (db.certificates issued).isSome then .error .internal
      else .ok (db.insertCertificate issued identity (now + identityActivationTtl) expiresAt) :
        Except Status Registry) = .ok db' := h
    split_ifs at h with hnew
    cases h
    exact ⟨identity, rfl, by simpa using hnew, rfl⟩

theorem authenticate_ok {identity : Nat}
    (h : authenticate db now fingerprint role = .ok identity) :
    ∃ c i, db.certificates fingerprint = some c ∧ c.identity = identity ∧
      db.identities identity = some i ∧ i.role = role := by
  unfold authenticate at h
  cases hc : db.certificates fingerprint with
  | none =>
    rw [hc] at h
    cases h
  | some c =>
    rw [hc] at h
    dsimp only at h
    cases hi : db.identities c.identity with
    | none =>
      rw [hi] at h
      cases h
    | some i =>
      rw [hi] at h
      dsimp only at h
      split_ifs at h with hchecks
      cases h
      exact ⟨c, i, rfl, rfl, hi, hchecks.2.2.2.2.1⟩

theorem enrollIdentity_ok {identity issued : Nat} {expiresAt : Int}
    (h : enrollIdentity db now role identity issued expiresAt = .ok db') :
    ∃ hfresh : db.identities identity = none, db.certificates issued = none ∧
      db' = (db.insertIdentity hfresh role (now + identityActivationTtl)).insertCertificate
        issued identity (now + identityActivationTtl) expiresAt := by
  unfold enrollIdentity at h
  split at h
  next => cases h
  next hfresh =>
    split_ifs at h with hnew
    cases h
    exact ⟨hfresh, by simpa using hnew, rfl⟩

/-! ### Revocation -/

@[simp] theorem identityRevoked_insertCertificate (f i : Nat) (d e : Int) (identity : Nat) :
    (db.insertCertificate f i d e).identityRevoked identity = db.identityRevoked identity := rfl

@[simp] theorem identityRevoked_insertIdentity {i : Nat} (hfresh : db.identities i = none)
    (role : Role) (d : Int) (identity : Nat) :
    (db.insertIdentity hfresh role d).identityRevoked identity = db.identityRevoked identity := by
  unfold Registry.identityRevoked
  rw [identities_insertIdentity]
  grind

@[simp] theorem identityRevoked_activate {i : Nat} {row : Identity}
    (hi : db.identities i = some row) (f identity : Nat) :
    (db.activate now hi f).identityRevoked identity = db.identityRevoked identity := by
  unfold Registry.identityRevoked
  rw [identities_activate]
  grind

variable {current : Nat}

theorem identityRevoked_revoke {identity : Nat} (hne : current ≠ identity) :
    (db.revoke current).identityRevoked identity = db.identityRevoked identity := by
  unfold Registry.identityRevoked
  rw [identities_revoke, update_of_ne hne.symm]

/-- A deleted identity is not a revoked one. -/
theorem identityRevoked_maintenance {identity : Nat} (h : db.identityRevoked identity = false) :
    (db.maintenance now).identityRevoked identity = false := by
  unfold Registry.identityRevoked at *
  rw [identities_maintenance]
  grind

/-! ### Retirement and activation of certificates -/

/-- No retirement deadline is set on the certificate. -/
def Unretired (db : Registry) (fingerprint : Nat) : Prop :=
  ∀ c, db.certificates fingerprint = some c → c.retireAt = none

/-- The certificate was activated. -/
def CertificateActive (db : Registry) (fingerprint : Nat) : Prop :=
  ∃ c, db.certificates fingerprint = some c ∧ c.activation = .active

variable {g : Nat}

theorem unretired_insertCertificate {f i : Nat} {d e : Int} (h : f ≠ g → Unretired db g) :
    Unretired (db.insertCertificate f i d e) g := by
  intro c hc
  by_cases hid : g = f
  · rw [hid, certificates_insertCertificate, update_self] at hc
    cases hc
    rfl
  · rw [certificates_insertCertificate, update_of_ne hid] at hc
    exact h (Ne.symm hid) c hc

theorem certificateActive_insertCertificate {f i : Nat} {d e : Int}
    (hfresh : db.certificates f = none) (h : CertificateActive db g) :
    CertificateActive (db.insertCertificate f i d e) g := by
  obtain ⟨c, hc, hactive⟩ := h
  have hne : g ≠ f := by
    grind
  refine ⟨c, ?_, hactive⟩
  rw [certificates_insertCertificate, update_of_ne hne]
  exact hc

section

variable {i : Identity} {identity f : Nat} {c : Certificate} (hi : db.identities identity = some i)
  (hc : db.certificates f = some c) (hidentity : c.identity = identity)
include hi hc hidentity

/-- The activated certificate has no retirement deadline. -/
theorem unretired_activate : Unretired (db.activate now hi f) f := by
  intro c' hc'
  have hrow : c' = Registry.activatedRow now identity f f c := by
    rw [certificates_activate, hc] at hc'
    exact (Option.some.inj hc').symm
  rw [hrow, Registry.activatedRow, if_pos hidentity, if_pos rfl]

theorem certificateActive_activate_self : CertificateActive (db.activate now hi f) f := by
  refine ⟨Registry.activatedRow now identity f f c, ?_, ?_⟩
  · rw [certificates_activate, hc]
    rfl
  · rw [Registry.activatedRow, if_pos hidentity, if_pos rfl]

end

/-- An activation deactivates nothing. -/
theorem certificateActive_activate {identity f : Nat} {i : Identity}
    (hi : db.identities identity = some i) (h : CertificateActive db g) :
    CertificateActive (db.activate now hi f) g := by
  obtain ⟨c, hc, hactive⟩ := h
  refine ⟨Registry.activatedRow now identity f g c, ?_, ?_⟩
  · rw [certificates_activate, hc]
    rfl
  · unfold Registry.activatedRow
    split_ifs <;> first | rfl | exact hactive

theorem unretired_revoke (h : Unretired db g) :
    Unretired (db.revoke current) g := by
  intro c hc
  obtain ⟨c0, hc0, rfl⟩ := Option.map_eq_some_iff.1 hc
  have hretire := h c0 hc0
  split_ifs <;> exact hretire

theorem certificateActive_revoke (h : CertificateActive db g) :
    CertificateActive (db.revoke current) g := by
  obtain ⟨c, hc, hactive⟩ := h
  refine ⟨if c.identity = current then { c with revoked := true } else c, ?_, ?_⟩
  · rw [certificates_revoke, hc]
    rfl
  · split_ifs <;> exact hactive

theorem unretired_maintenance (h : Unretired db g) :
    Unretired (db.maintenance now) g := by
  intro c hc
  exact h c (Option.filter_eq_some_iff.1 hc).1

/-- Maintenance deletes no active certificate: its identity is activated. -/
theorem certificateActive_maintenance (h : CertificateActive db g) :
    CertificateActive (db.maintenance now) g := by
  obtain ⟨c, hc, hactive⟩ := h
  obtain ⟨i, hi, hi'⟩ := db.activated g c hc hactive
  refine ⟨c, Option.filter_eq_some_iff.2 ⟨hc, ?_⟩, hactive⟩
  rw [hactive, hi, Option.any_some, hi']
  rfl

end Centrald.Proofs
