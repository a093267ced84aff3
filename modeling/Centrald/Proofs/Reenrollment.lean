import Centrald.Proofs.CredentialRuns
import Centrald.Proofs.Identities

/-!
# `Centrald.Proofs.Reenrollment`: re-enrollment and the revoked identity

A client is stranded when its pointer, with no publication pending,
names an identity that the server has revoked while another identity is
active there. Only a replacement revokes an identity, and it revokes the
one the client leaves. So the client is stranded exactly by a rollback
after the replacement. `finalize_active_publication` does that rollback
on every error of the activation, also when the server was only out of
reach (`transient_error_strands_client`). Without such an error no run
strands the client (`reenrollment_never_strands`).
-/

set_option autoImplicit false

namespace Centrald.Proofs

open Durable Server Client

/-- The pointer names a revoked identity for good, and another identity
is active. -/
def Stranded (s : CredentialState) : Prop :=
  ∃ g, s.pointer.pending = none ∧ s.pointer.committed = some g ∧
    s.server.identityRevoked g.identity = true ∧
    ∃ identity, identity ≠ g.identity ∧ s.server.clientActive identity = true

/-- When an activation reports an error, the identity of the previous
generation is not revoked. -/
def previousUnrevoked (op : CredentialOp) (s : CredentialState) (r : CredentialReply) : Bool :=
  match op, r with
  | .activate _, .done => true
  | .activate _, _ => s.pointer.previous.all fun a => !s.server.identityRevoked a.identity
  | _, _ => true

/-- The identity of the generation is not revoked. -/
def IdentityKept (db : Registry) (g : Generation) : Prop :=
  db.identityRevoked g.identity = false

/-- The law of a re-enrollment: the identity of the generation in use is
not revoked. -/
theorem credentialLaw_identityKept (w : CredentialWorld) :
    CredentialLaw w (fun op s r => previousUnrevoked op s r = true) IdentityKept
      (fun _ _ => True) where
  safe_maintenance db g now h := identityRevoked_maintenance h
  settled_maintenance db g now h := h
  enroll db db' now g h := by
    obtain ⟨hfresh, -, rfl⟩ := enrollIdentity_ok h
    have hg : db.identityRevoked g.identity = false := by
      rw [Registry.identityRevoked, hfresh]
    refine ⟨?_, fun a ha => ?_, fun _ h => h⟩
    · simpa [IdentityKept] using hg
    · simpa [IdentityKept] using ha
  renew db db' now g issued expiresAt h hg := by
    obtain ⟨identity, -, -, rfl⟩ := renewCertificate_ok h
    exact ⟨hg, fun _ ha => ha, fun _ h => h⟩
  activate db db' now g h hg := by
    obtain ⟨i, hi, c, -, -, -, ⟨-, rfl⟩ | ⟨-, rfl⟩⟩ := activateIdentityCertificate_ok h
    · exact ⟨hg, fun _ _ => .inl trivial, fun _ h => h⟩
    · exact ⟨by simpa [IdentityKept] using hg, fun _ _ => .inl trivial, fun _ h => h⟩
  replace db db' now fingerprint g h hg := by
    -- the server refuses to replace an identity by itself
    obtain ⟨current, hne, rfl⟩ := replaceIdentity_ok h
    exact ⟨(identityRevoked_revoke hne).trans hg, fun _ _ => .inl trivial, fun _ h => h⟩
  restore s r g a hperm hr hpending hcommitted _ := by
    have hprevious : s.pointer.previous = some a := by
      rw [AtomicPointer.previous_of_isSome (by rw [hpending]; rfl), hcommitted]
    have hkept : s.pointer.previous.all (fun a => !s.server.identityRevoked a.identity) = true := by
      cases r with
      | done => exact (hr rfl).elim
      | _ => exact hperm
    rw [hprevious, Option.all_some, Bool.not_eq_true'] at hkept
    exact hkept

/-- No sequence of re-enrollments, passes of the daemon, losses and
crashes strands a client, as long as every activation that reports an
error finds the previous identity unrevoked. -/
theorem reenrollment_never_strands (w : CredentialWorld) (uuidText : Nat → String)
    {s s' : CredentialState}
    (hstart : ∀ g, s.pointer.value = some g → s.server.identityRevoked g.identity = false)
    (h : ClientRun w (fun op s r => previousUnrevoked op s r = true) uuidText s s') :
    ¬ Stranded s' := by
  have hinv : Holds (Inv IdentityKept fun _ _ => True) s' :=
    (credentialLaw_identityKept w).clientRun h ⟨hstart, fun _ _ _ _ => .inl trivial⟩
  rintro ⟨g, hpending, hcommitted, hrevoked, -⟩
  have hvalue : s'.pointer.value = some g := by
    rw [AtomicPointer.value, hpending, hcommitted]
    rfl
  have hkept : s'.server.identityRevoked g.identity = false := hinv.1 g hvalue
  rw [hrevoked] at hkept
  cases hkept

/-! ### Sample runs -/

/-- The generation of the enrolled identity 1, and the one that the
server issues to a re-enrollment. -/
def sampleOld : Generation := ⟨1, 10, 365 * day⟩

def sampleNew : Generation := ⟨2, 20, 365 * day⟩

def sampleWorld (role : Role) : CredentialWorld := ⟨role, [1]⟩

/-- One active identity with one certificate. -/
def sampleRegistry (role : Role) (expiresAt : Int) : Registry where
  identities i := if i = 1 then some ⟨role, .active, false⟩ else none
  certificates f := if f = 10 then some ⟨1, .active, expiresAt, none, false⟩ else none
  activated := by
    intro f c hf _
    split_ifs at hf
    cases hf
    exact ⟨_, rfl, rfl⟩

/-- A client or an Admin application that uses it. -/
def sampleState (role : Role) (g : Generation) : CredentialState where
  clock := 0
  server := sampleRegistry role g.expiresAt
  pointer := ⟨some g, none⟩
  stored := fun a => a == g
  broker := fun _ => none

/-- The answers to replacements are lost. -/
def replacementUnanswered : CredentialOp → Loss
  | .replace _ _ => .answer
  | _ => .nothing

/-- No activation request reaches the server. -/
def activationUnreachable : CredentialOp → Loss
  | .activate _ => .request
  | _ => .nothing

/-- When the daemon reaches the server, it adopts the new identity. -/
theorem reenrollment_never_strands_adopted :
    ∃ s, ClientRun (sampleWorld .client) (fun op s r => previousUnrevoked op s r = true) toString
        (sampleState .client sampleOld) s ∧ s.pointer = ⟨some sampleNew, none⟩ ∧ ¬ Stranded s := by
  have hrun : ClientRun (sampleWorld .client) (fun op s r => previousUnrevoked op s r = true)
      toString (sampleState .client sampleOld) _ :=
    .tail (.tail .refl (.reenroll
        (exec_losing_of_allow _ sampleNew replacementUnanswered _ _ (by decide +kernel))))
      (.daemon (exec_losing_of_allow _ sampleNew (fun _ => .nothing) _ _ (by decide +kernel)))
  have hstart (g : Generation) (hg : (sampleState .client sampleOld).pointer.value = some g) :
      (sampleState .client sampleOld).server.identityRevoked g.identity = false := by
    cases hg
    decide
  exact ⟨_, hrun, by decide +kernel,
    reenrollment_never_strands (sampleWorld .client) toString hstart hrun⟩

/-- The daemon then does not reach the server, rolls back, and the client
names the revoked identity. -/
theorem transient_error_strands_client :
    ∃ s, ClientRun (sampleWorld .client) (fun _ _ _ => True) toString
        (sampleState .client sampleOld) s ∧ Stranded s := by
  refine ⟨_, .tail (.tail .refl (.reenroll (exec_losing _ sampleNew replacementUnanswered _ _)))
    (.daemon (exec_losing _ sampleNew activationUnreachable _ _)), sampleOld, ?_, ?_, ?_,
    2, by decide, ?_⟩ <;> decide +kernel

end Centrald.Proofs
