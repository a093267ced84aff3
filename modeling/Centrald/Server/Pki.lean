import Centrald.Common.Grant
import Centrald.Durable.Machine

/-!
# `Centrald.Server.Pki`: certificate lifetimes and the server's start

The certificates of the server are kept as their ends (`not_after`). The
functions of the crate `centrald-pki` bound the end of a new certificate
by those of its parents. A certificate stores whole seconds.

Every rotation, of the TLS leaf, of the online issuers or of the root,
leaves a retirement journal. While the journal is there, no other
rotation starts. A server that finds it at its start probes its own
listeners and then removes it. The probes need client certificates from
the client and the Admin issuer.

An interrupted rotation is rolled back by the next command before it
does anything else, with its retirement journal. So here a rotation
happens as a whole or not at all. Files that cannot be read or written
are left out, as are the warnings about certificates that end soon.
-/

set_option autoImplicit false

namespace Centrald.Server

open Durable Common

/-- A day. -/
def day : Int := 24 * 60 * 60 * second

/-! ### Constants, in days -/

def rootValidityDays : Int := 15 * 365

def issuerValidityDays : Int := 3 * 365

def serverValidityDays : Int := 90

def identityValidityDays : Int := 90

def signingChainSafetyMarginDays : Int := 1

def minimumLeafValidityDays : Int := 31

def minimumIssuerValidityDays : Int := 120

def serverRenewBeforeDays : Int := 30

/-! ### Issuing certificates -/

/-- Why the PKI cannot be used or extended. -/
inductive PkiFailure where
  | insufficientSigningValidity (kind : String) (availableUntil : Int)
  | expired (label : String) (expiresAt : Int)
  | bail (message : String)
  deriving DecidableEq

/-- The end that a certificate stores for the time `t`. -/
def certificateTime (t : Int) : Int := t - t % second

/-- `bounded_not_after`, for at least one parent. -/
def boundedNotAfter (now requestedDays : Int) (kind : String) (parent : Int)
    (parents : List Int) (minimumDays : Int) : Except PkiFailure Int :=
  let requested := now + requestedDays * day
  let parentLimit := parents.foldl min parent - signingChainSafetyMarginDays * day
  let expiresAt := min requested parentLimit
  if expiresAt ≤ now + minimumDays * day then
    .error (.insufficientSigningValidity kind parentLimit)
  else .ok expiresAt

def selfSignedCa (now : Int) : Int :=
  certificateTime (now + rootValidityDays * day)

/-- `signed_ca_with_issuer`. -/
def signedCa (now parent : Int) : Except PkiFailure Int := do
  let notAfter ← boundedNotAfter now issuerValidityDays "online issuing CA" parent []
    minimumIssuerValidityDays
  return certificateTime notAfter

def issueServerIdentity (now issuer root : Int) : Except PkiFailure Int := do
  let notAfter ← boundedNotAfter now serverValidityDays "server TLS certificate" issuer [root]
    minimumLeafValidityDays
  return certificateTime notAfter

def issueEphemeralIdentity (now issuer root : Int) : Except PkiFailure Int := do
  let notAfter ← boundedNotAfter now identityValidityDays "client/Admin identity certificate"
    issuer [root] minimumLeafValidityDays
  return certificateTime notAfter

/-- `issue_identity_csr`: the end in the certificate of a client or an
Admin, and the one that its holder is told. -/
def Pki.issueIdentityCsr (now issuer root : Int) : Except PkiFailure (Int × Int) := do
  let expiresAt ← boundedNotAfter now identityValidityDays "client/Admin identity certificate"
    issuer [root] minimumLeafValidityDays
  return (certificateTime expiresAt, expiresAt)

/-- The certificates of a server. -/
structure PkiFiles where
  root : Int
  serverIssuer : Int
  clientIssuer : Int
  adminIssuer : Int
  leaf : Int
  deriving DecidableEq

/-- The issuers and the leaf below a root. -/
def issuePki (now root : Int) : Except PkiFailure PkiFiles := do
  let serverIssuer ← signedCa now root
  let clientIssuer ← signedCa now root
  let adminIssuer ← signedCa now root
  let leaf ← issueServerIdentity now serverIssuer root
  return { root, serverIssuer, clientIssuer, adminIssuer, leaf }

/-- `replace_root`, and the first certificates of a server. -/
def replaceRoot (now : Int) : Except PkiFailure PkiFiles :=
  issuePki now (selfSignedCa now)

/-! ### The server -/

/-- A server. `clock` is the time; `probing` says that the running
process probes its listeners. -/
structure ServerPki where
  files : PkiFiles
  retirement : Bool
  clock : Int
  running : Bool
  probing : Bool
  deriving DecidableEq

/-- A server after its setup. -/
def ServerPki.installed (files : PkiFiles) (clock : Int) : ServerPki where
  files := files
  retirement := false
  clock := clock
  running := false
  probing := false

/-- The loop of `check_pki_expiry`. -/
def rejectExpired (now : Int) : List (String × Int) → Except PkiFailure Unit
  | [] => .ok ()
  | (label, expiresAt) :: rest =>
    if expiresAt ≤ now then .error (.expired label expiresAt) else rejectExpired now rest

def checkPkiExpiry (files : PkiFiles) (now : Int) : Except PkiFailure Unit :=
  rejectExpired now [("offline root", files.root), ("server issuer", files.serverIssuer),
    ("client issuer", files.clientIssuer), ("Admin issuer", files.adminIssuer)]

def rotateServerIdentityAndSave (files : PkiFiles) (retirement : Bool) (now : Int) :
    Except PkiFailure PkiFiles := do
  if retirement then
    throw (.bail ("a previous TLS rotation is awaiting a successful server restart; " ++
      "restart centrald-server before rotating again"))
  let leaf ← issueServerIdentity now files.serverIssuer files.root
  return { files with leaf := leaf }

/-- `renew_server_identity_if_needed`. The first time is read before the
leaf is looked at, the second one when the new leaf is signed. -/
def renewServerIdentityIfNeeded (files : PkiFiles) (retirement : Bool) (now signedAt : Int) :
    Except PkiFailure (Option PkiFiles) :=
  if now + serverRenewBeforeDays * day < files.leaf then .ok none
  else some <$> rotateServerIdentityAndSave files retirement signedAt

namespace ServerPki

/-- A rotation is committed: new files, and the retirement journal. -/
def rotated (s : ServerPki) (files : PkiFiles) : ServerPki :=
  { s with files := files, retirement := true }

/-- The listeners run. A retirement journal is then probed for. -/
def listen (s : ServerPki) : ServerPki :=
  { s with running := true, probing := s.retirement }

/-- `run`, up to its listeners. A new leaf is signed `pause` after the
start. -/
def start (s : ServerPki) (pause : Nat) : Except PkiFailure ServerPki := do
  checkPkiExpiry s.files s.clock
  match ← renewServerIdentityIfNeeded s.files s.retirement s.clock (s.clock + pause) with
  | none => return s.listen
  | some files =>
    checkPkiExpiry files (s.clock + pause)
    return ({ s with clock := s.clock + pause }.rotated files).listen

/-- A check of `monitor_server_tls_renewal`. After a renewal the process
ends, so that it is started with the new leaf. -/
def check (s : ServerPki) (pause : Nat) : Except PkiFailure ServerPki := do
  match ← renewServerIdentityIfNeeded s.files s.retirement s.clock (s.clock + pause) with
  | none => return s
  | some files =>
    return { { s with clock := s.clock + pause }.rotated files with
      running := false, probing := false }

/-- The process ends. -/
def stop (s : ServerPki) : ServerPki := { s with running := false, probing := false }

/-- `verify_tls_listeners_before_retirement` can make its certificates. -/
def probes (s : ServerPki) : Except PkiFailure Unit := do
  let _ ← issueEphemeralIdentity s.clock s.files.clientIssuer s.files.root
  let _ ← issueEphemeralIdentity s.clock s.files.adminIssuer s.files.root

/-- `commit_online_issuer_rotation`, with the certificates of
`rotate_online_issuers`. -/
def rotateIssuers (s : ServerPki) : Except PkiFailure ServerPki := do
  let files ← issuePki s.clock s.files.root
  if s.retirement then
    throw (.bail ("previous PKI/TLS rollback material is awaiting a healthy server restart; " ++
      "restart centrald-server before rotating issuers again"))
  return s.rotated files

/-- `commit_root_replacement`, with the certificates of `replace_root`. -/
def replaceRoot (s : ServerPki) : Except PkiFailure ServerPki := do
  let files ← Server.replaceRoot s.clock
  if s.retirement then
    throw (.bail ("previous PKI/TLS rollback material is awaiting a healthy server restart; " ++
      "restart centrald-server before replacing the root"))
  return s.rotated files

end ServerPki

/-- Time passes, the server starts, stops and checks its own certificates,
and an operator rotates or replaces what the files hold. -/
inductive ServerPkiLabel where
  | tick (elapsed : Nat)
  | start (pause : Nat)
  | stop
  | check (pause : Nat)
  | rotateTls
  | rotateIssuers
  | replaceRoot
  /-- The probes succeed and the retirement journal is removed. -/
  | retire
  /-- The probes fail. -/
  | giveUp

/-- The server over time. A rotation or a start that fails changes
nothing; a check that fails ends the process. -/
def serverPki : Machine ServerPki ServerPkiLabel where
  step s
    | .tick elapsed => some { s with clock := s.clock + elapsed }
    | .start pause => if s.running then none else some ((s.start pause).toOption.getD s)
    | .stop => some s.stop
    | .check pause => if s.running then some ((s.check pause).toOption.getD s.stop) else none
    | .rotateTls => some (((rotateServerIdentityAndSave s.files s.retirement s.clock).map
        s.rotated).toOption.getD s)
    | .rotateIssuers => some (s.rotateIssuers.toOption.getD s)
    | .replaceRoot => some (s.replaceRoot.toOption.getD s)
    | .retire =>
      if s.probing ∧ s.probes.toBool then some { s with retirement := false, probing := false }
      else none
    | .giveUp => some { s with probing := false }

end Centrald.Server
