import Centrald.Proofs.Reenrollment

/-!
# `Centrald.Proofs.Renewal`: renewal and the retired certificate

When the server activates a renewed certificate, it sets a retirement
deadline on the other active certificates of the identity. The client
and the Admin application roll back to the old certificate and remove
the new key on every error of the activation, also when the server did
activate the new certificate and only its answer was lost
(`lost_answer_retires_credential`). Without such an error the certificate
in use never has a deadline (`renewal_keeps_credential`).
-/

set_option autoImplicit false

namespace Centrald.Proofs

open Durable Server Client Admin

/-- The generation in use has no retirement deadline. -/
def InUseUnretired (s : CredentialState) : Prop :=
  ∀ g, s.pointer.value = some g → Unretired s.server g.fingerprint

/-- The generation in use has no retirement deadline, or a newer one of the
identity that is activated is still on disk. -/
def CredentialKept (s : CredentialState) : Prop :=
  InUseUnretired s ∨ ∃ g g', s.pointer.value = some g ∧ g'.identity = g.identity ∧ g' ≠ g ∧
    CertificateActive s.server g'.fingerprint ∧ s.stored g' = true

/-- An activation that reports an error while there is a previous
generation did not and had not activated the certificate. -/
def errorMeansInactive (op : CredentialOp) (s : CredentialState) (r : CredentialReply) : Bool :=
  match op, r with
  | .activate _, .done => true
  | .activate g, _ => s.pointer.previous.isNone ||
      !(s.server.certificates g.fingerprint).any fun c => c.activation = .active
  | _, _ => true

/-- The law of a renewal: the certificate in use is not retired. -/
theorem credentialLaw_unretired (w : CredentialWorld) :
    CredentialLaw w (fun op s r => errorMeansInactive op s r = true)
      (fun db g => Unretired db g.fingerprint)
      (fun db g => CertificateActive db g.fingerprint) where
  safe_maintenance db g now h := unretired_maintenance h
  settled_maintenance db g now h := certificateActive_maintenance h
  enroll db db' now g h := by
    obtain ⟨hfresh, hnew, rfl⟩ := enrollIdentity_ok h
    exact ⟨unretired_insertCertificate fun hne => (hne rfl).elim,
      fun a ha => unretired_insertCertificate fun _ => ha,
      fun a ha => certificateActive_insertCertificate hnew ha⟩
  renew db db' now g issued expiresAt h _ := by
    obtain ⟨identity, -, hnew, rfl⟩ := renewCertificate_ok h
    exact ⟨unretired_insertCertificate fun hne => (hne rfl).elim,
      fun a ha => unretired_insertCertificate fun _ => ha,
      fun a ha => certificateActive_insertCertificate hnew ha⟩
  activate db db' now g h hg := by
    obtain ⟨i, hi, c, hc, hidentity, -, ⟨-, rfl⟩ | ⟨-, rfl⟩⟩ := activateIdentityCertificate_ok h
    · exact ⟨hg, fun a ha => .inr ha, fun _ h => h⟩
    · exact ⟨unretired_activate hi hc hidentity,
        fun a _ => .inl (certificateActive_activate_self hi hc hidentity),
        fun a ha => certificateActive_activate hi ha⟩
  replace db db' now fingerprint g h hg := by
    obtain ⟨current, -, rfl⟩ := replaceIdentity_ok h
    exact ⟨unretired_revoke hg, fun a ha => .inr (unretired_revoke ha),
      fun a ha => certificateActive_revoke ha⟩
  restore s r g a hperm hr hpending hcommitted hdisj := by
    have hprevious : s.pointer.previous = some a := by
      rw [AtomicPointer.previous_of_isSome (by rw [hpending]; rfl), hcommitted]
    have hinactive : (s.pointer.previous.isNone ||
        !(s.server.certificates g.fingerprint).any fun c => c.activation = .active) = true := by
      cases r with
      | done => exact (hr rfl).elim
      | _ => exact hperm
    rcases hdisj with ⟨c, hc, hactive⟩ | hsafe
    · grind
    · exact hsafe

/-- In every run of the client, and in every run of the Admin
application, the certificate in use has no retirement deadline, as long
as an activation reports an error only for a certificate that is not
activated. -/
theorem renewal_keeps_credential (w : CredentialWorld) (uuidText : Nat → String)
    {s s' : CredentialState} (hidle : s.pointer.pending = none) (hstart : InUseUnretired s)
    (h : ClientRun w (fun op s r => errorMeansInactive op s r = true) uuidText s s' ∨
      AdminRun w (fun op s r => errorMeansInactive op s r = true) s s') :
    InUseUnretired s' := by
  have hinv : Holds (Inv (fun db g => Unretired db g.fingerprint)
      fun db g => CertificateActive db g.fingerprint) s := by
    refine ⟨hstart, fun g a hg _ => ?_⟩
    rw [hidle] at hg
    cases hg
  rcases h with h | h
  · exact ((credentialLaw_unretired w).clientRun h hinv).1
  · exact ((credentialLaw_unretired w).adminRun h hinv).1

/-! ### Sample runs -/

/-- A generation that is due for renewal. -/
def sampleDue : Generation := ⟨1, 10, 20 * day⟩

/-- The answer to the activation of the renewed certificate is lost. -/
def activationUnanswered : CredentialOp → Loss
  | .activate a => if a.fingerprint = sampleNew.fingerprint then .answer else .nothing
  | _ => .nothing

/-- A renewal that the server answers. -/
theorem renewal_keeps_credential_renewed :
    ∃ s, ClientRun (sampleWorld .client) (fun op s r => errorMeansInactive op s r = true) toString
        (sampleState .client sampleDue) s ∧
      s.pointer = ⟨some ⟨1, 20, 365 * day⟩, none⟩ ∧ InUseUnretired s := by
  have hrun : ClientRun (sampleWorld .client) (fun op s r => errorMeansInactive op s r = true)
      toString (sampleState .client sampleDue) _ := .tail .refl (.daemon
    (exec_losing_of_allow _ sampleNew (fun _ => .nothing) _ _ (by decide +kernel)))
  have hstart : InUseUnretired (sampleState .client sampleDue) := by
    intro g hg c hc
    cases hg
    cases hc
    rfl
  exact ⟨_, hrun, by decide +kernel,
    renewal_keeps_credential (sampleWorld .client) toString rfl hstart (.inl hrun)⟩

/-- A state after the answer to the activation was lost: the old
certificate is in use again, with a deadline, and no other generation is on
disk. -/
theorem not_credentialKept {s : CredentialState} (hvalue : s.pointer = ⟨some sampleDue, none⟩)
    (hretired : (s.server.certificates 10).map (·.retireAt) = some (some retirementDelay))
    (hstored : ∀ g, s.stored g = true → g = sampleDue) : ¬ CredentialKept s := by
  have hinUse : s.pointer.value = some sampleDue := by
    rw [hvalue]
    rfl
  rintro (h | ⟨g, g', hg, -, hne, -, hkept⟩)
  · obtain ⟨c, hc, hdeadline⟩ := Option.map_eq_some_iff.1 hretired
    rw [h sampleDue hinUse c hc] at hdeadline
    cases hdeadline
  · grind

/-- What is left on disk when the files of a renewed generation are
removed again. -/
theorem stored_after_cleanup (new : Generation) {g : Generation}
    (h : Function.update (Function.update (fun a => a == sampleDue) new true) new false g = true) :
    g = sampleDue := by
  grind

/-- The answer to the activation is lost: the client and the Admin
application go back to the certificate that now has a deadline, and the
new key is gone. -/
theorem lost_answer_retires_credential :
    (∃ s, ClientRun (sampleWorld .client) (fun _ _ _ => True) toString
      (sampleState .client sampleDue) s ∧ ¬ CredentialKept s) ∧
    ∃ s, AdminRun (sampleWorld .admin) (fun _ _ _ => True) (sampleState .admin sampleDue) s ∧
      ¬ CredentialKept s := by
  constructor
  · exact ⟨_, .tail .refl (.daemon (exec_losing _ sampleNew activationUnanswered _ _)),
      not_credentialKept (by decide +kernel) (by decide +kernel)
        fun g hg => stored_after_cleanup ⟨1, 20, 365 * day⟩ hg⟩
  · exact ⟨_, .tail .refl (.adminClient (exec_losing _ sampleNew activationUnanswered _ _)),
      not_credentialKept (by decide +kernel) (by decide +kernel)
        fun g hg => stored_after_cleanup ⟨1, 20, 365 * day⟩ hg⟩

end Centrald.Proofs
