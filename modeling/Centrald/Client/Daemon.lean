import Centrald.Client.Enrollment

/-!
# `Centrald.Client.Daemon`: the credential part of the daemon loop

The model of `finalize_active_publication` and
`renew_certificate_if_needed` of `centrald-client`, `daemon.rs`, and of
one pass of the loop that calls them under the state lock. The control
stream that follows touches no credentials.
-/

set_option autoImplicit false

namespace Centrald.Client

open Durable Server CredentialM

def day : Int := 24 * 3600 * 1000000000

/-- `CERTIFICATE_RENEWAL_WINDOW_DAYS`, and
`ADMIN_CERTIFICATE_RENEWAL_WINDOW_DAYS` of the Admin application. -/
def certificateRenewalWindow : Int := 30 * day

def isUnknownIdentity (e : ClientError) : Bool := e.status = some .unauthenticated

/-- `commit_active_config`, and `commit_active_profile` of the Admin
application. -/
def commitActive (text : String) : CredentialM Unit := do
  act (.pointer .commit) text
  act .secure text

/-- The first part of `finalize_active_publication`, and of
`admin_client` of the Admin application: activate the generation that the
pointer names. When that reports an error, whatever it is, restore the
previous generation if there is one. -/
def activateOrRestore (ensureActive : CredentialM Unit)
    (restored kept : ClientError → ClientError) :
    CredentialM Unit := do
  match ← attempt ensureActive with
  | .error e =>
    match ← ask (.pointer .rollbackIfPrevious) with
    | .rolledBack rolledBack =>
      act .secure "refusing unsafe active pointer file"
      throw (if rolledBack then restored e else kept e)
    | _ => throw (.bail "active-pointer I/O failed")
  | .ok () => return ()

def finalizeActivePublication (g : Generation) : CredentialM Unit := do
  activateOrRestore (ensureIdentityActive g)
    (fun e => e.addContext
      "activate the persisted client identity; restored the previous active credential")
    (fun e => e.addContext "activate the persisted client identity")
  match ← ask (.pointer .previous) with
  | .generation (some previous) =>
    act (.load previous) "active client configuration is not a regular file"
    if previous.identity = g.identity then
      commitActive "finalize recovered client credential pointer"
    else
      match ← attempt (replacePreviousIdentity previous g.identity) with
      | .error e =>
        -- the previous identity is dead on the server already
        if isUnknownIdentity e then
          commitActive "finalize recovered client credential pointer"
        else throw (e.addContext "complete authenticated reenrollment replacement")
      | .ok () => commitActive "finalize recovered client credential pointer"
  | .generation none => commitActive "finalize recovered client credential pointer"
  | _ => throw (.bail "active-pointer I/O failed")

def renewalTexts : PublicationTexts where
  target := "active client configuration is not a regular file"
  secure := "refusing unsafe active pointer file"
  secureRollback := "secure active pointer files failed and rollback also failed"
  publish := "publish renewed client credential generation"
  activate := "activate renewed client certificate after durable publication"
  rollback := "renewed certificate activation failed and pointer rollback also failed; " ++
    "the published generation was retained for recovery"

/-- `renew_certificate_if_needed` from the server's answer on. -/
def installRenewal (g replacement : Generation) : CredentialM Bool := do
  -- the root certificate and the grant key are copied
  act (.load g) "read"
  match ← attempt (act (.persist replacement) "refusing to overwrite existing path") with
  | .error e =>
    let _ ← ask (.cleanup replacement)
    throw (e.addContext "persist renewed client identity generation")
  | .ok () =>
    publishAndActivate renewalTexts (ensureIdentityActive replacement) replacement
    act (.pointer .commit) "finalize renewed client credential pointer"
    return true

def renewCertificateIfNeeded (g : Generation) : CredentialM Bool := do
  if g.expiresAt > (← now) + certificateRenewalWindow then
    return false
  else
    match ← ask (.renew g) with
    | .renewed replacement =>
      if replacement.expiresAt ≤ (← now) + day then
        throw (.bail "server returned a renewed certificate with an unsafe expiration")
      else installRenewal g replacement
    | .refused status => throw ⟨["request client certificate renewal"], some status⟩
    | _ => throw (.bail "request client certificate renewal")

/-- One pass of the loop of `run_with_shutdown`, up to the control
stream. -/
def daemonPass : CredentialM Bool := do
  match ← ask (.pointer .read) with
  | .generation (some g) =>
    act (.load g) "client is not enrolled"
    finalizeActivePublication g
    match ← attempt (renewCertificateIfNeeded g) with
    | .ok renewed => return renewed
    | .error e =>
      if g.expiresAt > (← now) then return false
      else throw (e.addContext ("client certificate is expired and renewal failed; " ++
        "run centrald-client reenroll"))
  | _ => throw (.bail "client is not enrolled")

end Centrald.Client
