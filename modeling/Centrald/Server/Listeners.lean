import Centrald.Durable.Machine
import Centrald.Server.Identities

/-!
# `Centrald.Server.Listeners`: issuers, chains and the mTLS listeners

The certificates of identities and the listeners that look at them: what
`issue_identity_csr` and `rotate_online_issuers` (`centrald-pki`) sign,
which files `run` (`main.rs`) loads at its start, and what the client and
the Admin listener then trust. A listener accepts a chain if signatures
lead from the leaf over the presented certificates to its trust anchor.

A key pair is a number. New keys are drawn at random, so a new key is one
that was never used; `keys` records what each key was made for. The ends
of certificates are in `Centrald.Server.Pki`; here a start and a rotation
succeed. An interrupted rotation is rolled back, so a rotation is one
step, and it waits until a server has retired the last one.

The registry is that of `Centrald.Server.Identities`. `rotations` and
the numbers kept with a chain say how many rotations there were.
-/

set_option autoImplicit false

namespace Centrald.Server

open Durable

/-! ### Certificates and paths -/

/-- A certificate: the key of its subject, and the key that signed it. -/
structure X509 where
  key : Nat
  signer : Nat
  deriving DecidableEq

/-- Signatures lead from a certificate over the presented ones to the
trust anchor. -/
inductive SignaturePath (presented : List X509) (anchor : X509) : X509 → Prop where
  | anchored {certificate : X509} (h : certificate.signer = anchor.key) :
      SignaturePath presented anchor certificate
  | through {certificate issuer : X509} (hmem : issuer ∈ presented)
      (hsigned : certificate.signer = issuer.key) (hpath : SignaturePath presented anchor issuer) :
      SignaturePath presented anchor certificate

/-- `certificate_chain_pem`: the leaf, its issuer and the root. -/
structure IssuedChain where
  leaf : X509
  issuer : X509
  root : X509
  deriving DecidableEq

/-- A listener with this trust anchor accepts the chain. -/
def IssuedChain.Accepted (chain : IssuedChain) (anchor : X509) : Prop :=
  SignaturePath [chain.issuer, chain.root] anchor chain.leaf

/-- A path over two certificates, written out. -/
def IssuedChain.accepts (chain : IssuedChain) (anchor : X509) : Bool :=
  let reaches (c : X509) := c.signer == anchor.key
  reaches chain.leaf ||
    (chain.leaf.signer == chain.issuer.key &&
      (reaches chain.issuer || (chain.issuer.signer == chain.root.key && reaches chain.root))) ||
    (chain.leaf.signer == chain.root.key &&
      (reaches chain.root || (chain.root.signer == chain.issuer.key && reaches chain.issuer)))

theorem IssuedChain.accepts_iff (chain : IssuedChain) (anchor : X509) :
    chain.accepts anchor = true ↔ chain.Accepted anchor := by
  simp only [accepts, Bool.or_eq_true, Bool.and_eq_true, beq_iff_eq]
  constructor
  · have hissuer : chain.issuer ∈ [chain.issuer, chain.root] := List.mem_cons_self
    have hroot : chain.root ∈ [chain.issuer, chain.root] := by simp
    rintro ((hleaf | ⟨hleaf, hissued | ⟨hissued, hself⟩⟩) | ⟨hleaf, hself | ⟨hself, hissued⟩⟩)
    · exact .anchored hleaf
    · exact .through hissuer hleaf (.anchored hissued)
    · exact .through hissuer hleaf (.through hroot hissued (.anchored hself))
    · exact .through hroot hleaf (.anchored hself)
    · exact .through hroot hleaf (.through hissuer hself (.anchored hissued))
  · -- a path ends with a certificate that the anchor signed
    have hreach : ∀ c, SignaturePath [chain.issuer, chain.root] anchor c →
        c.signer = anchor.key ∨
        (c.signer = chain.issuer.key ∧ (chain.issuer.signer = anchor.key ∨
          (chain.issuer.signer = chain.root.key ∧ chain.root.signer = anchor.key))) ∨
        (c.signer = chain.root.key ∧ (chain.root.signer = anchor.key ∨
          (chain.root.signer = chain.issuer.key ∧ chain.issuer.signer = anchor.key))) := by
      intro c hpath
      induction hpath with
      | anchored h => exact .inl h
      | through hmem hsigned _ ih =>
        simp only [List.mem_cons, List.not_mem_nil, or_false] at hmem
        rcases hmem with rfl | rfl <;> tauto
    intro h
    have hleaf := hreach chain.leaf h
    tauto

instance (chain : IssuedChain) (anchor : X509) : Decidable (chain.Accepted anchor) :=
  decidable_of_iff _ (chain.accepts_iff anchor)

/-! ### The files and what they sign -/

/-- The issuers of a server. -/
inductive IssuerKind where
  | server
  | identity (role : Role)
  deriving DecidableEq

/-- The root certificate and the online issuers, with their keys. -/
structure PkiMaterial where
  root : X509
  serverIssuer : X509
  clientIssuer : X509
  adminIssuer : X509
  deriving DecidableEq

def PkiMaterial.issuer (files : PkiMaterial) : Role → X509
  | .client => files.clientIssuer
  | .admin => files.adminIssuer

/-- `issue_identity_csr`, with the key of the request. -/
def issueIdentityCsr (files : PkiMaterial) (role : Role) (csrKey : Nat) : IssuedChain where
  leaf := ⟨csrKey, (files.issuer role).key⟩
  issuer := files.issuer role
  root := files.root

/-- `rotate_online_issuers`: three issuers with new keys below the same
root. -/
def rotateOnlineIssuers (root : X509) (server client admin : Nat) : PkiMaterial where
  root := root
  serverIssuer := ⟨server, root.key⟩
  clientIssuer := ⟨client, root.key⟩
  adminIssuer := ⟨admin, root.key⟩

/-! ### The server over time -/

/-- What a key was made for: the root, or an issuer after so many
rotations. -/
inductive KeyUse where
  | root
  | issuer (kind : IssuerKind) (rotations : Nat)

/-- The files that a process has loaded, after so many rotations. -/
structure Loaded where
  files : PkiMaterial
  rotations : Nat
  deriving DecidableEq

/-- The chain handed out with a certificate, and the number of rotations
when the process that issued it was started. -/
structure IssuedRecord where
  chain : IssuedChain
  role : Role
  rotations : Nat

/-- The files of the PKI, what the running listeners have loaded of them,
the registry, and the chain that was handed out with each certificate. -/
structure ListenerState where
  files : PkiMaterial
  rotations : Nat
  keys : Nat → Option KeyUse
  /-- The retirement journal of a rotation. -/
  retirement : Bool
  running : Option Loaded
  clock : Int
  registry : Registry
  chains : Nat → Option IssuedRecord

/-- The listeners start and stop, issuers are rotated, and identities
enroll, renew, activate, replace each other and are revoked. -/
inductive ListenerLabel where
  | tick (elapsed : Nat)
  | start
  | stop
  /-- `commit_online_issuer_rotation`, with the keys that were drawn. -/
  | rotateIssuers (server client admin : Nat)
  /-- The probes of the listeners succeed, and the journal is removed. -/
  | retire
  | enroll (role : Role) (identity fingerprint csrKey : Nat) (expiresAt : Int)
  | renew (presented : Nat) (role : Role) (issued csrKey : Nat) (expiresAt : Int)
  | activate (presented identity : Nat) (role : Role)
  | replace (presented replacement : Nat)
  | revoke (identity : Nat)
  | maintenance

namespace ListenerState

variable (s : ListenerState)

/-- Three new keys for issuers. -/
def drawIssuers (server client admin : Nat) : Nat → Option KeyUse := fun key =>
  if key = server then some (.issuer .server (s.rotations + 1))
  else if key = client then some (.issuer (.identity .client) (s.rotations + 1))
  else if key = admin then some (.issuer (.identity .admin) (s.rotations + 1))
  else s.keys key

/-- The keys are new and different from each other. -/
def Fresh (server client admin : Nat) : Prop :=
  s.keys server = none ∧ s.keys client = none ∧ s.keys admin = none ∧
    server ≠ client ∧ server ≠ admin ∧ client ≠ admin

instance (server client admin : Nat) : Decidable (s.Fresh server client admin) :=
  inferInstanceAs (Decidable (_ ∧ _))

/-- The issuers on disk are replaced. -/
def rotated (server client admin : Nat) : ListenerState :=
  { s with
    files := rotateOnlineIssuers s.files.root server client admin
    rotations := s.rotations + 1
    keys := s.drawIssuers server client admin
    retirement := true }

/-- The running process hands out a chain. -/
def issue (loaded : Loaded) (registry : Registry) (role : Role) (fingerprint csrKey : Nat) :
    ListenerState :=
  { s with
    registry := registry
    chains := Function.update s.chains fingerprint
      (some ⟨issueIdentityCsr loaded.files role csrKey, role, loaded.rotations⟩) }

/-- The listener of a role accepts the certificate of this fingerprint. -/
def listenerAccepts (role : Role) (fingerprint : Nat) : Prop :=
  ∃ loaded ∈ s.running, ∃ record ∈ s.chains fingerprint,
    record.chain.Accepted (loaded.files.issuer role)

instance (role : Role) (fingerprint : Nat) : Decidable (s.listenerAccepts role fingerprint) :=
  match hr : s.running, hc : s.chains fingerprint with
  | some loaded, some record =>
    decidable_of_iff (record.chain.Accepted (loaded.files.issuer role))
      (by simp [listenerAccepts, hr, hc])
  | none, _ => .isFalse (by simp [listenerAccepts, hr])
  | some _, none => .isFalse (by simp [listenerAccepts, hc])

/-- A call over mTLS. -/
def call (role : Role) (presented : Nat) (result : Except Status Registry) :
    Option ListenerState :=
  if s.listenerAccepts role presented then
    result.toOption.map fun registry => { s with registry := registry }
  else none

end ListenerState

/-- The server over time. Calls that fail change nothing. -/
def listening : Machine ListenerState ListenerLabel where
  step s
    | .tick elapsed => some { s with clock := s.clock + elapsed }
    | .start =>
      if s.running.isSome then none else some { s with running := some ⟨s.files, s.rotations⟩ }
    | .stop => some { s with running := none }
    | .rotateIssuers server client admin =>
      if s.retirement = false ∧ s.Fresh server client admin then
        some (s.rotated server client admin)
      else none
    | .retire =>
      if s.running = some ⟨s.files, s.rotations⟩ then some { s with retirement := false } else none
    | .enroll role identity fingerprint csrKey expiresAt =>
      s.running.bind fun loaded =>
        (enrollIdentity s.registry s.clock role identity fingerprint expiresAt).toOption.map
          fun registry => s.issue loaded registry role fingerprint csrKey
    | .renew presented role issued csrKey expiresAt =>
      if s.listenerAccepts role presented then
        s.running.bind fun loaded =>
          (renewCertificate s.registry s.clock presented role issued expiresAt).toOption.map
            fun registry => s.issue loaded registry role issued csrKey
      else none
    | .activate presented identity role =>
      s.call role presented
        (activateIdentityCertificate s.registry s.clock identity presented role)
    | .replace presented replacement =>
      s.call .client presented (replaceIdentity s.registry s.clock presented replacement)
    | .revoke identity => some { s with registry := s.registry.revoke identity }
    | .maintenance => some { s with registry := s.registry.maintenance s.clock }

/-- A server after its setup, with the keys of `PkiHierarchy::generate`. -/
def ListenerState.installed (root server client admin : Nat) (clock : Int) : ListenerState where
  files := rotateOnlineIssuers ⟨root, root⟩ server client admin
  rotations := 0
  keys key :=
    if key = root then some .root
    else if key = server then some (.issuer .server 0)
    else if key = client then some (.issuer (.identity .client) 0)
    else if key = admin then some (.issuer (.identity .admin) 0)
    else none
  retirement := false
  running := none
  clock := clock
  registry := .empty
  chains _ := none

end Centrald.Server
