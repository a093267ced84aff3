import Centrald.Durable.Fallible
import Centrald.Proofs.Identities
import Centrald.Server.Listeners

/-!
# `Centrald.Proofs.IssuerRotation`: rotated issuers and enrolled devices

A listener trusts one certificate, the issuer of its role that was on
disk when the process started. The chain of an identity leads to the
issuer that signed it, and from there to the root, which no listener
trusts. So after an issuer rotation and a restart the certificates from
before are turned away, although the ceremony says that they continue to
chain to the same root.

`accepted_after_start_iff`: after a start, a certificate in use is
accepted by the listener of its role exactly if no rotation was committed
since the process that issued it was started; and no listener ever
accepts a certificate of the other role.
-/

set_option autoImplicit false

namespace Centrald.Proofs

open Durable Server Function

/-! ### Chains and anchors -/

/-- The files are those of the rotation `n`: their keys were made for
them, and the root has signed the issuers. -/
structure Generation (keys : Nat → Option KeyUse) (files : PkiMaterial) (n : Nat) : Prop where
  root : keys files.root.key = some .root
  selfSigned : files.root.signer = files.root.key
  issuer : ∀ role, keys (files.issuer role).key = some (.issuer (.identity role) n)
  signed : ∀ role, (files.issuer role).signer = files.root.key

/-- No two keys were made for the same use. -/
def OneKeyPerUse (keys : Nat → Option KeyUse) : Prop :=
  ∀ k k' use, keys k = some use → keys k' = some use → k = k'

variable {keys keys' : Nat → Option KeyUse} {files files' : PkiMaterial} {n n' : Nat}

theorem Generation.mono (h : Generation keys files n)
    (hkeys : ∀ k use, keys k = some use → keys' k = some use) : Generation keys' files n :=
  ⟨hkeys _ _ h.root, h.selfSigned, fun role => hkeys _ _ (h.issuer role), h.signed⟩

section

variable (h : Generation keys files n) (h' : Generation keys files' n')
include h h'

/-- An issuer is not the root. -/
theorem Generation.root_ne_issuer (role : Role) : files.root.key ≠ (files'.issuer role).key := by
  intro heq
  have hroot := h.root
  rw [heq, h'.issuer role] at hroot
  cases hroot

/-- A chain is accepted where its own issuer is the anchor, and nowhere
else. -/
theorem accepted_issued_iff (honce : OneKeyPerUse keys) (role role' : Role) (csrKey : Nat) :
    (issueIdentityCsr files role csrKey).Accepted (files'.issuer role') ↔
      role = role' ∧ n = n' := by
  constructor
  · intro haccepted
    rw [← IssuedChain.accepts_iff] at haccepted
    simp only [IssuedChain.accepts, issueIdentityCsr, h.signed role, h.selfSigned,
      Bool.or_eq_true, Bool.and_eq_true, beq_iff_eq] at haccepted
    have hroot := h.root_ne_issuer h' role'
    have hself := h.root_ne_issuer h role
    have hkey : (files.issuer role).key = (files'.issuer role').key := by
      rcases haccepted with (hleaf | ⟨-, hissuer | ⟨-, hissuer⟩⟩) | ⟨hleaf, -⟩
      · exact hleaf
      · exact (hroot hissuer).elim
      · exact (hroot hissuer).elim
      · exact (hself hleaf.symm).elim
    have huse := h.issuer role
    rw [hkey, h'.issuer role'] at huse
    cases huse
    exact ⟨rfl, rfl⟩
  · rintro ⟨rfl, rfl⟩
    exact .anchored (honce _ _ _ (h.issuer role) (h'.issuer role))

end

/-! ### Rows of the registry -/

/-- Every row comes from one with the same identity and role, and no
certificate loses its identity. -/
structure RowsKept (db db' : Registry) : Prop where
  certificates : ∀ f c', db'.certificates f = some c' →
    ∃ c, db.certificates f = some c ∧ c'.identity = c.identity
  identities : ∀ id i', db'.identities id = some i' →
    ∃ i, db.identities id = some i ∧ i'.role = i.role
  known : ∀ f c', db'.certificates f = some c' → (db.identities c'.identity).isSome →
    (db'.identities c'.identity).isSome

theorem rowsKept_refl (db : Registry) : RowsKept db db :=
  ⟨fun _ c hc => ⟨c, hc, rfl⟩, fun _ i hi => ⟨i, hi, rfl⟩, fun _ _ _ h => h⟩

variable {db db' : Registry}

variable {now : Int} {identity fingerprint : Nat}

theorem rowsKept_activate {i : Identity}
    (hi : db.identities identity = some i) : RowsKept db (db.activate now hi fingerprint) := by
  refine ⟨fun f c' hc' => ?_, fun id i' hi' => ?_, fun f c' _ hsome => ?_⟩
  · obtain ⟨c, hc, rfl⟩ := Option.map_eq_some_iff.1 hc'
    exact ⟨c, hc, Registry.activatedRow_identity ..⟩
  · change update db.identities identity _ id = some i' at hi'
    grind
  · change (update db.identities identity _ c'.identity).isSome
    grind

theorem rowsKept_revoke (db : Registry) (identity : Nat) : RowsKept db (db.revoke identity) := by
  refine ⟨fun f c' hc' => ?_, fun id i' hi' => ?_, fun f c' _ hsome => ?_⟩
  · obtain ⟨c, hc, rfl⟩ := Option.map_eq_some_iff.1 hc'
    grind
  · change update db.identities identity _ id = some i' at hi'
    by_cases hid : id = identity
    · subst hid
      rw [update_self] at hi'
      obtain ⟨i, hi, rfl⟩ := Option.map_eq_some_iff.1 hi'
      exact ⟨i, hi, rfl⟩
    · grind
  · change (update db.identities identity _ c'.identity).isSome
    grind

theorem rowsKept_maintenance (db : Registry) (now : Int) : RowsKept db (db.maintenance now) := by
  refine ⟨fun f c' hc' => ?_, fun id i' hi' => ?_, fun f c' hc' _ => ?_⟩
  · exact ⟨c', (Option.filter_eq_some_iff.1 hc').1, rfl⟩
  · exact ⟨i', (Option.filter_eq_some_iff.1 hi').1, rfl⟩
  · -- a certificate stays only with its identity
    obtain ⟨-, hkept⟩ := Option.filter_eq_some_iff.1 hc'
    rw [Bool.and_eq_true, Option.any_eq_true] at hkept
    obtain ⟨-, i, hi, hlive⟩ := hkept
    have hrow : (db.maintenance now).identities c'.identity = some i :=
      Option.filter_eq_some_iff.2 ⟨hi, hlive⟩
    rw [hrow]
    rfl

variable {role : Role}

theorem rowsKept_activateIdentityCertificate
    (h : activateIdentityCertificate db now identity fingerprint role = .ok db') :
    RowsKept db db' := by
  obtain ⟨i, hi, c, -, -, -, ⟨-, rfl⟩ | ⟨-, rfl⟩⟩ := activateIdentityCertificate_ok h
  · exact rowsKept_refl _
  · exact rowsKept_activate hi

theorem rowsKept_replaceIdentity {replacement : Nat}
    (h : replaceIdentity db now fingerprint replacement = .ok db') : RowsKept db db' := by
  obtain ⟨current, -, rfl⟩ := replaceIdentity_ok h
  exact rowsKept_revoke db current

/-! ### The invariant -/

/-- Every certificate has an identity, and a chain that was issued for the
role of this identity. -/
structure ChainsOf (db : Registry) (chains : Nat → Option IssuedRecord) : Prop where
  known : ∀ f c, db.certificates f = some c → ∃ i, db.identities c.identity = some i
  role : ∀ f c i, db.certificates f = some c → db.identities c.identity = some i →
    ∃ record, chains f = some record ∧ record.role = i.role

section

variable {chains : Nat → Option IssuedRecord} (h : ChainsOf db chains)
include h

theorem ChainsOf.kept (hkept : RowsKept db db') : ChainsOf db' chains := by
  refine ⟨fun f c' hc' => ?_, fun f c' i' hc' hi' => ?_⟩
  · obtain ⟨c, hc, hid⟩ := hkept.certificates f c' hc'
    obtain ⟨i, hi⟩ := h.known f c hc
    refine Option.isSome_iff_exists.1 (hkept.known f c' hc' ?_)
    rw [hid, hi]
    rfl
  · obtain ⟨c, hc, hid⟩ := hkept.certificates f c' hc'
    obtain ⟨i, hi, hrole⟩ := hkept.identities _ i' hi'
    rw [hrole]
    exact h.role f c i hc (hid ▸ hi)

/-- A new certificate, with its chain. -/
theorem ChainsOf.insertCertificate {f : Nat} {i : Identity} {record : IssuedRecord}
    (hi : db.identities identity = some i) (hrole : record.role = i.role)
    (deadline expiresAt : Int) :
    ChainsOf (db.insertCertificate f identity deadline expiresAt)
      (update chains f (some record)) := by
  refine ⟨fun g c hc => ?_, fun g c j hc hj => ?_⟩
  · rw [certificates_insertCertificate] at hc
    by_cases hg : g = f
    · rw [hg, update_self] at hc
      cases hc
      exact ⟨i, hi⟩
    · rw [update_of_ne hg] at hc
      exact h.known g c hc
  · rw [certificates_insertCertificate] at hc
    change db.identities c.identity = some j at hj
    by_cases hg : g = f
    · grind
    · rw [update_of_ne hg] at hc ⊢
      exact h.role g c j hc hj

/-- A new identity has no certificates yet. -/
theorem ChainsOf.insertIdentity (hfresh : db.identities identity = none)
    (role : Role) (deadline : Int) :
    ChainsOf (db.insertIdentity hfresh role deadline) chains := by
  have hne : ∀ f c, db.certificates f = some c → c.identity ≠ identity := by
    rintro f c hc rfl
    obtain ⟨i, hi⟩ := h.known f c hc
    rw [hfresh] at hi
    cases hi
  refine ⟨fun f c hc => ?_, fun f c i hc hi => ?_⟩
  · rw [identities_insertIdentity, update_of_ne (hne f c hc)]
    exact h.known f c hc
  · rw [identities_insertIdentity, update_of_ne (hne f c hc)] at hi
    exact h.role f c i hc hi

end

/-- What every run keeps. -/
structure ListenerInv (s : ListenerState) : Prop where
  files : Generation s.keys s.files s.rotations
  loaded : ∀ loaded, s.running = some loaded → Generation s.keys loaded.files loaded.rotations
  once : OneKeyPerUse s.keys
  /-- There were no more rotations than are counted. -/
  counted : ∀ key kind n, s.keys key = some (.issuer kind n) → n ≤ s.rotations
  issued : ∀ f record, s.chains f = some record → ∃ files csrKey,
    Generation s.keys files record.rotations ∧
    record.chain = issueIdentityCsr files record.role csrKey
  chains : ChainsOf s.registry s.chains

variable {server client admin : Nat}

theorem listenerInv_installed {root : Nat} {clock : Int}
    (hkeys : [root, server, client, admin].Nodup) :
    ListenerInv (.installed root server client admin clock) := by
  simp only [List.nodup_cons, List.mem_cons, List.not_mem_nil, or_false, not_or, not_false_eq_true,
    List.nodup_nil, and_true] at hkeys
  obtain ⟨⟨hserver, hclient, hadmin⟩, ⟨hsc, hsa⟩, hca⟩ := hkeys
  refine ⟨⟨if_pos rfl, rfl, fun role => ?_, fun role => ?_⟩, fun _ h => (by cases h), ?_, ?_,
    fun _ _ h => (by cases h), fun _ _ h => (by cases h), fun _ _ _ h => (by cases h)⟩
  · cases role <;>
      simp [ListenerState.installed, rotateOnlineIssuers, PkiMaterial.issuer, Ne.symm hclient,
        Ne.symm hsc, Ne.symm hadmin, Ne.symm hsa, Ne.symm hca]
  · cases role <;> rfl
  · intro k k' use hk hk'
    simp only [ListenerState.installed] at hk hk'
    split_ifs at hk hk' <;> cases hk <;> cases hk' <;> omega
  · intro key kind n hkey
    simp only [ListenerState.installed] at hkey
    split_ifs at hkey <;> cases hkey <;> exact Nat.le_refl 0

section Steps

variable {s s' : ListenerState}

/-- A step that touches the registry only. -/
theorem ListenerInv.registry (h : ListenerInv s) {registry : Registry}
    (hkept : RowsKept s.registry registry) : ListenerInv { s with registry := registry } :=
  ⟨h.files, h.loaded, h.once, h.counted, h.issued, h.chains.kept hkept⟩

theorem ListenerInv.call (h : ListenerInv s) {presented : Nat}
    {result : Except Status Registry} (hstep : s.call role presented result = some s')
    (hkept : ∀ registry, result = .ok registry → RowsKept s.registry registry) :
    ListenerInv s' := by
  unfold ListenerState.call at hstep
  split_ifs at hstep
  cases result with
  | error e => cases hstep
  | ok registry =>
    cases hstep
    exact h.registry (hkept registry rfl)

section

variable {loaded : Loaded} (h : ListenerInv s) (hloaded : s.running = some loaded)
include h hloaded

variable {registry : Registry}

variable {csrKey : Nat}

/-- A chain from the running process. -/
theorem ListenerInv.issue
    (hchains : ChainsOf registry (s.issue loaded registry role fingerprint csrKey).chains) :
    ListenerInv (s.issue loaded registry role fingerprint csrKey) := by
  refine ⟨h.files, h.loaded, h.once, h.counted, fun f record hrecord => ?_, hchains⟩
  change update s.chains fingerprint _ f = some record at hrecord
  by_cases hf : f = fingerprint
  · rw [hf, update_self] at hrecord
    cases hrecord
    exact ⟨loaded.files, csrKey, h.loaded loaded hloaded, rfl⟩
  · rw [update_of_ne hf] at hrecord
    exact h.issued f record hrecord

theorem ListenerInv.enroll {expiresAt : Int}
    (henroll : enrollIdentity s.registry s.clock role identity fingerprint expiresAt = .ok registry)
    : ListenerInv (s.issue loaded registry role fingerprint csrKey) := by
  obtain ⟨hfresh, -, rfl⟩ := enrollIdentity_ok henroll
  refine h.issue hloaded ?_
  have hrow : (s.registry.insertIdentity hfresh role (s.clock + identityActivationTtl)).identities
      identity = some ⟨role, .pending (s.clock + identityActivationTtl), false⟩ := by
    rw [identities_insertIdentity, update_self]
  exact (h.chains.insertIdentity hfresh role _).insertCertificate hrow rfl _ _

theorem ListenerInv.renew {presented issued : Nat} {expiresAt : Int}
    (hrenew : renewCertificate s.registry s.clock presented role issued expiresAt = .ok registry) :
    ListenerInv (s.issue loaded registry role issued csrKey) := by
  obtain ⟨identity, hauth, -, rfl⟩ := renewCertificate_ok hrenew
  obtain ⟨c, i, -, -, hi, hrole⟩ := authenticate_ok hauth
  exact h.issue hloaded (h.chains.insertCertificate hi hrole.symm _ _)

end

/-- Keys that were drawn before keep their use. -/
theorem drawIssuers_of_used {key : Nat} {use : KeyUse}
    (hfresh : s.Fresh server client admin) (hkey : s.keys key = some use) :
    s.drawIssuers server client admin key = some use := by
  obtain ⟨hserver, hclient, hadmin, -⟩ := hfresh
  have hne : ∀ k, s.keys k = none → key ≠ k := by
    grind
  rw [ListenerState.drawIssuers, if_neg (hne _ hserver), if_neg (hne _ hclient),
    if_neg (hne _ hadmin), hkey]

/-- The keys that were drawn. -/
def drawnKey (server client admin : Nat) : IssuerKind → Nat
  | .server => server
  | .identity .client => client
  | .identity .admin => admin

/-- A key is one of the new ones, or was used before. -/
theorem drawIssuers_cases {key : Nat} {use : KeyUse}
    (h : s.drawIssuers server client admin key = some use) :
    (∃ kind, key = drawnKey server client admin kind ∧ use = .issuer kind (s.rotations + 1)) ∨
    s.keys key = some use := by
  unfold ListenerState.drawIssuers at h
  split_ifs at h with hserver hclient hadmin
  · exact .inl ⟨.server, hserver, (Option.some.inj h).symm⟩
  · exact .inl ⟨.identity .client, hclient, (Option.some.inj h).symm⟩
  · exact .inl ⟨.identity .admin, hadmin, (Option.some.inj h).symm⟩
  · exact .inr h

/-- A rotation with fresh keys: the old issuer stays in the bundle. -/
theorem ListenerInv.rotated (h : ListenerInv s)
    (hfresh : s.Fresh server client admin) : ListenerInv (s.rotated server client admin) := by
  have hused : ∀ k use, s.keys k = some use → s.drawIssuers server client admin k = some use :=
    fun _ _ => drawIssuers_of_used hfresh
  obtain ⟨-, -, -, hsc, hsa, hca⟩ := hfresh
  -- no key was made for the next rotation before
  have hnew : ∀ key kind, s.keys key ≠ some (.issuer kind (s.rotations + 1)) := by
    intro key kind hkey
    have := h.counted key kind _ hkey
    omega
  refine ⟨⟨hused _ _ h.files.root, h.files.selfSigned, fun role => ?_, fun role => ?_⟩,
    fun loaded hloaded => (h.loaded loaded hloaded).mono hused, ?_, ?_, ?_, h.chains⟩
  · cases role <;>
      simp [ListenerState.rotated, rotateOnlineIssuers, PkiMaterial.issuer,
        ListenerState.drawIssuers, Ne.symm hsc, Ne.symm hsa, Ne.symm hca]
  · cases role <;> rfl
  · intro k k' use hk hk'
    obtain ⟨kind, rfl, rfl⟩ | hold := drawIssuers_cases hk
    · obtain ⟨kind', rfl, huse⟩ | hold' := drawIssuers_cases hk'
      · cases huse
        rfl
      · exact (hnew _ _ hold').elim
    · obtain ⟨kind', rfl, rfl⟩ | hold' := drawIssuers_cases hk'
      · exact (hnew _ _ hold).elim
      · exact h.once _ _ _ hold hold'
  · intro key kind n hkey
    obtain ⟨kind', -, huse⟩ | hold := drawIssuers_cases hkey
    · cases huse
      exact Nat.le_refl _
    · exact Nat.le_succ_of_le (h.counted key kind n hold)
  · intro f record hrecord
    obtain ⟨files, csrKey, hgeneration, hchain⟩ := h.issued f record hrecord
    exact ⟨files, csrKey, hgeneration.mono hused, hchain⟩

/-- A step of the listeners keeps their invariant. -/
theorem ListenerInv.step (h : ListenerInv s) {l : ListenerLabel}
    (hstep : listening.step s l = some s') : ListenerInv s' := by
  cases l with
  | tick elapsed =>
    cases hstep
    exact ⟨h.files, h.loaded, h.once, h.counted, h.issued, h.chains⟩
  | start =>
    simp only [listening] at hstep
    split_ifs at hstep
    cases hstep
    -- the listeners load what is in the files now
    refine ⟨h.files, fun loaded hloaded => ?_, h.once, h.counted, h.issued, h.chains⟩
    cases hloaded
    exact h.files
  | stop =>
    cases hstep
    exact ⟨h.files, nofun, h.once, h.counted, h.issued, h.chains⟩
  | rotateIssuers server client admin =>
    simp only [listening] at hstep
    split_ifs at hstep with hallowed
    cases hstep
    exact h.rotated hallowed.2
  | retire =>
    simp only [listening] at hstep
    split_ifs at hstep
    cases hstep
    exact ⟨h.files, h.loaded, h.once, h.counted, h.issued, h.chains⟩
  | enroll role identity fingerprint csrKey expiresAt =>
    obtain ⟨loaded, hloaded, hstep⟩ := Option.bind_eq_some_iff.1 hstep
    obtain ⟨registry, hregistry, rfl⟩ := Option.map_eq_some_iff.1 hstep
    exact h.enroll hloaded (eq_ok_of_toOption hregistry)
  | renew presented role issued csrKey expiresAt =>
    simp only [listening] at hstep
    split_ifs at hstep
    obtain ⟨loaded, hloaded, hstep⟩ := Option.bind_eq_some_iff.1 hstep
    obtain ⟨registry, hregistry, rfl⟩ := Option.map_eq_some_iff.1 hstep
    exact h.renew hloaded (eq_ok_of_toOption hregistry)
  | activate presented identity role =>
    exact h.call hstep fun _ => rowsKept_activateIdentityCertificate
  | replace presented replacement =>
    exact h.call hstep fun _ => rowsKept_replaceIdentity
  | revoke identity =>
    cases hstep
    exact h.registry (rowsKept_revoke _ _)
  | maintenance =>
    cases hstep
    exact h.registry (rowsKept_maintenance _ _)

end Steps

/-! ### Certificates in use -/

/-- The certificate is active, unrevoked, unretired and unexpired, and its
identity has this role. -/
def InUse (db : Registry) (now : Int) (f : Nat) (role : Role) : Prop :=
  match db.certificates f with
  | none => False
  | some c =>
    c.activation = .active ∧ c.revoked = false ∧ now < c.expiresAt ∧
      (∀ r ∈ c.retireAt, now < r) ∧ (db.identities c.identity).map Identity.role = some role

instance (db : Registry) (now : Int) (f : Nat) (role : Role) : Decidable (InUse db now f role) := by
  unfold InUse
  cases db.certificates f <;> infer_instance

def otherRole : Role → Role
  | .client => .admin
  | .admin => .client

/-- A certificate in use has a chain from the issuer of its role. -/
theorem ListenerInv.record {s : ListenerState} (h : ListenerInv s) {f : Nat}
    (huse : InUse s.registry s.clock f role) :
    ∃ record files csrKey, s.chains f = some record ∧ Generation s.keys files record.rotations ∧
      record.chain = issueIdentityCsr files role csrKey := by
  unfold InUse at huse
  cases hc : s.registry.certificates f with
  | none =>
    rw [hc] at huse
    exact huse.elim
  | some c =>
    rw [hc] at huse
    obtain ⟨-, -, -, -, hidentity⟩ := huse
    obtain ⟨i, hi, rfl⟩ := Option.map_eq_some_iff.1 hidentity
    obtain ⟨record, hrecord, hrole⟩ := h.chains.role f c i hc hi
    obtain ⟨files, csrKey, hgeneration, hchain⟩ := h.issued f record hrecord
    exact ⟨record, files, csrKey, hrecord, hgeneration, hrole ▸ hchain⟩

/-- Which listener of the running process accepts a chain. -/
theorem ListenerInv.listenerAccepts_iff {s : ListenerState} (h : ListenerInv s) {loaded : Loaded}
    {record : IssuedRecord} {files : PkiMaterial} {csrKey f : Nat} {role' : Role}
    (hloaded : s.running = some loaded) (hrecord : s.chains f = some record)
    (hgeneration : Generation s.keys files record.rotations)
    (hchain : record.chain = issueIdentityCsr files role csrKey) :
    s.listenerAccepts role' f ↔ role = role' ∧ record.rotations = loaded.rotations := by
  have haccepts : s.listenerAccepts role' f ↔
      record.chain.Accepted (loaded.files.issuer role') := by
    simp [ListenerState.listenerAccepts, hloaded, hrecord]
  rw [haccepts, hchain]
  exact accepted_issued_iff hgeneration (h.loaded loaded hloaded) h.once role role' csrKey

/-- After a start, the listener of its role accepts a certificate in use
if and only if no issuer rotation was committed since the process that
issued it was started. The listener of the other role never accepts it. -/
theorem accepted_after_start_iff {root server client admin : Nat} {clock : Int}
    (hkeys : [root, server, client, admin].Nodup) {s : ListenerState}
    (h : listening.Reaches (fun _ _ => True) (.installed root server client admin clock) s) :
    (∀ s', listening.step s .start = some s' → ∀ f role, InUse s'.registry s'.clock f role →
      ∃ record, s'.chains f = some record ∧
        (s'.listenerAccepts role f ↔ record.rotations = s'.rotations)) ∧
    ∀ f role, InUse s.registry s.clock f role → ¬s.listenerAccepts (otherRole role) f := by
  have hinv : ListenerInv s :=
    h.invariant (listenerInv_installed hkeys) fun _ _ _ hs _ hstep => hs.step hstep
  refine ⟨fun s' hstep f role huse => ?_, fun f role huse haccepts => ?_⟩
  · have hinv' := hinv.step hstep
    obtain ⟨record, files, csrKey, hrecord, hgeneration, hchain⟩ := hinv'.record huse
    -- the process has loaded what is on disk
    have hloaded : s'.running = some ⟨s'.files, s'.rotations⟩ := by
      simp only [listening] at hstep
      grind
    refine ⟨record, hrecord, ?_⟩
    rw [hinv'.listenerAccepts_iff hloaded hrecord hgeneration hchain]
    exact and_iff_right rfl
  · obtain ⟨record, files, csrKey, hrecord, hgeneration, hchain⟩ := hinv.record huse
    have ⟨loaded, hloaded, _⟩ := haccepts
    have hsame := (hinv.listenerAccepts_iff hloaded hrecord hgeneration hchain).1 haccepts
    cases role <;> cases hsame.1

/-- A client is enrolled and activated. -/
def enrollLabels : List ListenerLabel :=
  [.start, .enroll .client 1 10 40 (90 * 86400), .activate 10 1 .client]

/-- Without a rotation the client is accepted after a restart. -/
theorem accepted_after_start_sample :
    ∃ s s', listening.Reaches (fun _ _ => True) (.installed 0 1 2 3 0) s ∧
      listening.step s .start = some s' ∧ InUse s'.registry s'.clock 10 .client ∧
      s'.listenerAccepts .client 10 ∧ ¬s'.listenerAccepts .admin 10 := by
  have hrun : (listening.run (fun _ _ => true) (.installed 0 1 2 3 0)
      (enrollLabels ++ [.stop])).any (fun s => (listening.step s .start).any fun s' =>
        decide (InUse s'.registry s'.clock 10 .client ∧
          (s'.chains 10).map IssuedRecord.rotations = some s'.rotations)) = true := by
    decide +kernel
  rw [Option.any_eq_true] at hrun
  obtain ⟨s, hs, hstart⟩ := hrun
  rw [Option.any_eq_true] at hstart
  obtain ⟨s', hstep, hobserved⟩ := hstart
  obtain ⟨huse, hrotations⟩ := of_decide_eq_true hobserved
  have hreach : listening.Reaches (fun _ _ => True) (.installed 0 1 2 3 0) s :=
    .of_run (fun _ _ _ _ => trivial) .refl hs
  have hreach' := hreach.tail trivial hstep
  obtain ⟨record, hrecord, haccepts⟩ :=
    (accepted_after_start_iff (by decide) hreach).1 s' hstep 10 .client huse
  refine ⟨s, s', hreach, hstep, huse, haccepts.2 ?_,
    (accepted_after_start_iff (by decide) hreach').2 10 .client huse⟩
  grind

/-- After a rotation the client is turned away. -/
theorem rotation_disconnects_client :
    ¬∀ s s', listening.Reaches (fun _ _ => True) (.installed 0 1 2 3 0) s →
      listening.step s .start = some s' → ∀ f role, InUse s'.registry s'.clock f role →
        s'.listenerAccepts role f := by
  intro hclaim
  have hrun : (listening.run (fun _ _ => true) (.installed 0 1 2 3 0)
      (enrollLabels ++ [.rotateIssuers 5 6 7, .stop])).any (fun s =>
        (listening.step s .start).any fun s' =>
          decide (InUse s'.registry s'.clock 10 .client ∧ ¬s'.listenerAccepts .client 10)) =
      true := by
    decide +kernel
  rw [Option.any_eq_true] at hrun
  obtain ⟨s, hs, hstart⟩ := hrun
  rw [Option.any_eq_true] at hstart
  obtain ⟨s', hstep, hobserved⟩ := hstart
  obtain ⟨huse, hrefused⟩ := of_decide_eq_true hobserved
  exact hrefused (hclaim s s' (.of_run (fun _ _ _ _ => trivial) .refl hs) hstep 10 .client huse)

end Centrald.Proofs
