import Centrald.Client.Daemon

/-!
# `Centrald.Admin.Profiles`: the credentials of the Admin application

The model of `admin_client` and `renew_admin_profile` of the Admin
application, `profiles.rs`. It keeps its credentials as the client does,
with the same pointer, and runs under a lock of the profile.
-/

set_option autoImplicit false

namespace Centrald.Admin

open Durable Server Client Client.CredentialM

def profileTexts : PublicationTexts where
  target := "active Admin profile pointer is invalid"
  secure := "refusing unsafe Admin profile tree"
  secureRollback := "secure Admin pointer files failed and rollback also failed"
  publish := "publish renewed Admin credential generation"
  activate := "activate renewed Admin certificate after durable publication"
  rollback := "renewed Admin activation failed and pointer rollback also failed; " ++
    "the published generation was retained for recovery"

def activateAdminProfile (profile : Generation) : CredentialM Unit :=
  request (.activate profile) "activate Admin identity"

/-- `persist_profile_generation`: what was written is removed when a
write fails. -/
def persistProfileGeneration (profile : Generation) : CredentialM Unit := do
  match ← attempt (act (.persist profile) "refusing to overwrite existing path") with
  | .error e =>
    let _ ← ask (.cleanup profile)
    throw e
  | .ok () => return ()

def renewAdminProfile (profile : Generation) : CredentialM Generation := do
  if profile.expiresAt ≤ (← now) then
    throw (.bail ("Admin certificate expired; revoke this Admin on the server and " ++
      "enroll a new access key"))
  else
    match ← ask (.renew profile) with
    | .renewed replacement =>
      if replacement.expiresAt ≤ (← now) + day then
        throw (.bail "server returned a renewed Admin certificate with an unsafe expiration")
      else
        act (.load profile) "read"
        persistProfileGeneration replacement
        publishAndActivate profileTexts (activateAdminProfile replacement) replacement
        act (.pointer .commit) "finalize renewed Admin credential pointer"
        act .secure "refusing unsafe Admin profile tree"
        return replacement
    | .refused status => throw ⟨[], some status⟩
    | _ => throw (.bail "renew")

/-- `admin_client`, up to the connection it returns. -/
def adminClient : CredentialM Generation := do
  match ← ask (.pointer .read) with
  | .generation (some profile) =>
    act (.load profile) "active Admin profile pointer is invalid"
    activateOrRestore (activateAdminProfile profile)
      (fun e => e.addContext
        "activate Admin credential generation; restored the previous active credential")
      (fun e => e)
    commitActive "finalize recovered Admin credential pointer"
    if profile.expiresAt ≤ (← now) + certificateRenewalWindow then
      match ← attempt (renewAdminProfile profile) with
      | .ok replacement => return replacement
      | .error e => if profile.expiresAt > (← now) then return profile else throw e
    else return profile
  | _ => throw (.bail "Admin profile has no activated credential generation")

end Centrald.Admin
