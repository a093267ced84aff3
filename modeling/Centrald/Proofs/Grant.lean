import Centrald.Proofs.Ledger

/-!
# `Centrald.Proofs.Grant`: grants and their texts

A grant comes back from its JSON text (`grant_ofJson_toJson`,
`signedGrant_ofJson_toJson`), so no two grants have the same signing
payload (`signingPayload_injective`). `verify_eq_ok_iff` lists what a
grant that verifies has passed.
-/

set_option autoImplicit false

namespace Centrald.Proofs

open Durable Common

variable (texts : Texts)

theorem grant_ofJson_toJson (grant : PrivilegedGrant) :
    PrivilegedGrant.ofJson texts (grant.toJson texts) = some grant := by
  show (texts.parseUuid (texts.uuid grant.id)).bind (fun id =>
    (texts.parseUuid (texts.uuid grant.deviceId)).bind fun deviceId =>
    (texts.parseUuid (texts.uuid grant.jobOrSessionId)).bind fun jobOrSessionId =>
    (texts.parseUuid (texts.uuid grant.adminId)).bind fun adminId =>
    (GrantOperation.ofName grant.operation.name).bind fun operation =>
    (texts.parseTime (texts.time grant.issuedAt)).bind fun issuedAt =>
    (texts.parseTime (texts.time grant.expiresAt)).bind fun expiresAt =>
    some (PrivilegedGrant.mk id deviceId jobOrSessionId adminId operation grant.parametersSha256
      issuedAt expiresAt grant.nonce)) = some grant
  rw [texts.parseUuid_uuid, texts.parseUuid_uuid, texts.parseUuid_uuid, texts.parseUuid_uuid,
    operation_ofName_name, texts.parseTime_time, texts.parseTime_time]
  rfl

theorem signedGrant_ofJson_toJson (signed : SignedGrant) :
    SignedGrant.ofJson texts (signed.toJson texts) = some signed := by
  show (PrivilegedGrant.ofJson texts (signed.grant.toJson texts)).bind (fun grant =>
    some (SignedGrant.mk grant signed.signatureBase64)) = some signed
  rw [grant_ofJson_toJson]
  rfl

/-- What is signed determines the grant. -/
theorem signingPayload_injective : Function.Injective (signingPayload texts) := by
  intro g g' h
  -- behind the domain separator the payload is the JSON text
  have hprint : (g.toJson texts).print = (g'.toJson texts).print := by
    have hcons := List.append_cancel_left h
    exact (List.cons.inj hcons).2
  have hjson : g.toJson texts = g'.toJson texts := by
    have hparse := congrArg Json.parse hprint
    rw [parse_print, parse_print] at hparse
    exact Option.some.inj hparse
  have hback := congrArg (PrivilegedGrant.ofJson texts) hjson
  rw [grant_ofJson_toJson, grant_ofJson_toJson] at hback
  exact Option.some.inj hback

/-- Everything that `SignedGrant::verify` checks. -/
structure Verifies (sigs : Signatures) (signed : SignedGrant) (key : sigs.Key) (device : Nat)
    (now : Int) : Prop where
  device : signed.grant.deviceId = device
  positive : 0 < numSeconds (signed.grant.expiresAt - signed.grant.issuedAt)
  lifetime : numSeconds (signed.grant.expiresAt - signed.grant.issuedAt) ≤ maxGrantLifetimeSeconds
  issued : signed.grant.issuedAt ≤ now
  expires : now ≤ signed.grant.expiresAt
  signature : ∃ raw, sigs.decode signed.signatureBase64 = some raw ∧
    sigs.isSignature raw = true ∧ sigs.verify key (signingPayload texts signed.grant) raw = true

/-- The checks of `verify`, in one condition. -/
theorem verify_eq_ok_iff {sigs : Signatures} {signed : SignedGrant} {key : sigs.Key}
    {device : Nat} {now : Int} :
    signed.verify texts sigs key device now = .ok () ↔
      Verifies texts sigs signed key device now := by
  constructor
  · intro h
    unfold SignedGrant.verify at h
    by_cases hdevice : signed.grant.deviceId ≠ device
    · simp [hdevice] at h
    by_cases hlife : numSeconds (signed.grant.expiresAt - signed.grant.issuedAt) ≤ 0 ∨
        numSeconds (signed.grant.expiresAt - signed.grant.issuedAt) > maxGrantLifetimeSeconds
    · grind
    by_cases hvalid : now < signed.grant.issuedAt ∨ now > signed.grant.expiresAt
    · grind
    simp only [if_neg hdevice, if_neg hlife, if_neg hvalid] at h
    cases hdecode : sigs.decode signed.signatureBase64 with
    | none =>
      simp only [hdecode] at h
      cases h
    | some raw =>
      simp only [hdecode] at h
      cases hshape : sigs.isSignature raw with
      | false => simp [hshape] at h
      | true =>
        cases hverify : sigs.verify key (signingPayload texts signed.grant) raw with
        | false => simp [hshape, hverify] at h
        | true =>
          exact ⟨not_not.1 hdevice, by omega, by omega, by omega, by omega, raw, hdecode, hshape,
            hverify⟩
  · rintro ⟨hdevice, hpositive, hlifetime, hissued, hexpires, raw, hdecode, hshape, hverify⟩
    exact SignedGrant.verify_eq_ok hdevice hpositive hlifetime hissued hexpires hdecode hshape
      hverify

/-- A signed grant that was not made up: if its signature verifies, then
`key` has signed this payload for one of the grants in `issued`. -/
def Unforged (sigs : Signatures) (key : sigs.Key) (issued : Set PrivilegedGrant)
    (signed : SignedGrant) : Prop :=
  ∀ raw, sigs.decode signed.signatureBase64 = some raw →
    sigs.verify key (signingPayload texts signed.grant) raw = true →
    ∃ grant ∈ issued, signingPayload texts grant = signingPayload texts signed.grant

variable {texts}

/-- Without forgeries, a grant that verifies is one of those issued. -/
theorem Verifies.mem_issued {sigs : Signatures} {signed : SignedGrant} {key : sigs.Key}
    {device : Nat} {now : Int} {issued : Set PrivilegedGrant}
    (h : Verifies texts sigs signed key device now)
    (hunforged : Unforged texts sigs key issued signed) : signed.grant ∈ issued := by
  obtain ⟨raw, hdecode, -, hverify⟩ := h.signature
  obtain ⟨grant, hmem, hpayload⟩ := hunforged raw hdecode hverify
  exact signingPayload_injective texts hpayload ▸ hmem

end Centrald.Proofs
