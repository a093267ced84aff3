import Centrald.Proofs.IdentityChanges

/-!
# `Centrald.Proofs.IdentityCalls`: every identity call meets its specification

The calls are walked through statement by statement. `Progress` is what
holds inside a transaction: when it began, and that its locked rows
changed as the call may change them. Each statement keeps it, for its
`WHERE` clause gives the conditions of the change that it makes.
-/

set_option autoImplicit false

namespace Centrald.Proofs

open Durable Server

variable {env : EnrollmentEnv} {c : RegistryCall} {now : Int} {target : Nat}
  {L L' L1 L2 : Local RegistryRow} {k : RegistryKey} {ks : List RegistryKey}

/-! ### Which rows a statement is about -/

theorem selects_onIdentities {test : Nat → IdentityRow → Bool}
    {set : IdentityRow → Option IdentityRow} (h : L.Selects (onIdentities test set) k) :
    ∃ id row, k = .identity id ∧ L.view (.identity id) = some row ∧ test id row := by
  obtain ⟨-, hsel⟩ := h
  cases k with
  | identity id =>
    obtain ⟨row, hrow, htest⟩ := (Option.any_eq_true ..).1 hsel
    exact ⟨id, row, rfl, hrow, htest⟩
  | _ => cases hsel

variable {test : Nat → Certificate → Bool}

theorem selects_onCertificates
    {set : Certificate → Option Certificate} (h : L.Selects (onCertificates test set) k) :
    ∃ f row, k = .certificate f ∧ L.view (.certificate f) = some row ∧ test f row := by
  obtain ⟨-, hsel⟩ := h
  cases k with
  | certificate f =>
    obtain ⟨row, hrow, htest⟩ := (Option.any_eq_true ..).1 hsel
    exact ⟨f, row, rfl, hrow, htest⟩
  | _ => cases hsel

theorem selects_onInvitations {test : Nat → Invitation → Bool} {set : Invitation → Invitation}
    (h : L.Selects (onInvitations test set) k) :
    ∃ key row, k = .invitation key ∧ L.view (.invitation key) = some row ∧ test key row := by
  obtain ⟨-, hsel⟩ := h
  cases k with
  | invitation key =>
    obtain ⟨row, hrow, htest⟩ := (Option.any_eq_true ..).1 hsel
    exact ⟨key, row, rfl, hrow, htest⟩
  | _ => cases hsel

theorem selects_deleteClients {test : Nat → Bool} (h : L.Selects (deleteClients test) k) :
    ∃ id, k = .client id := by
  obtain ⟨-, hsel⟩ := h
  cases k with
  | client id => exact ⟨id, rfl⟩
  | _ => cases hsel

theorem selects_appendNote {note : AuditNote} (h : L.Selects (appendNote note) k) : k = .audit :=
  of_decide_eq_true h.2

/-! ### Inside a transaction -/

theorem rowChange_same (k : RegistryKey) (since : Int) (a : Option (RegistryRow k)) :
    RowChange env c now target k ⟨since, a⟩ a := by
  cases k with
  | identity => exact .same a
  | certificate => exact .same a
  | invitation => exact .same a
  | _ => trivial

/-- A transaction of the call that began at `now`. -/
structure Progress (env : EnrollmentEnv) (c : RegistryCall) (now : Int) (target : Nat)
    (L : Local RegistryRow) : Prop where
  start : L.start = some now
  clock : now ≤ L.clock
  changes : L.AllHeld (RowChange env c now target)

theorem Progress.later (h : Progress env c now target L) (hl : Later (registryRely c) L L') :
    Progress env c now target L' :=
  ⟨hl.start.trans h.start, le_trans h.clock hl.clock, h.changes.later hl⟩

theorem Progress.tick (h : Progress env c now target L) : Progress env c now target L.tick :=
  ⟨h.start, h.clock, h.changes⟩

theorem progress_begin (h : L.held = fun _ => none) :
    Progress env c L.clock target { L with start := some L.clock } := by
  refine ⟨rfl, le_rfl, fun k v hv => ?_⟩
  rw [h] at hv
  cases hv

section

variable (h : Progress env c now target L)
include h

/-- A statement, where `hset` says that it makes a change the call may
make. -/
theorem Progress.execute {statement : Statement RegistryRow}
    (hx : Local.Executed (registryRely c) L statement L1 L2 ks)
    (hset : ∀ k since row, since = ((L2.held k).map Version.since).getD L2.clock →
      L2.Selects statement k → L2.view k = some row →
      RowChange env c now target k ⟨since, some row⟩ (L2.rows k) →
      RowChange env c now target k ⟨since, statement.set k row⟩ (L2.rows k)) :
    Progress env c now target (L2.write ks statement.set) :=
  ⟨((h.later hx.began).later hx.ended).start, ((h.later hx.began).later hx.ended).clock,
    h.changes.execute hx (fun k since row => rowChange_same k since (some row)) hset⟩

theorem Progress.identities {test : Nat → IdentityRow → Bool}
    {set : IdentityRow → Option IdentityRow}
    (hx : Local.Executed (registryRely c) L (onIdentities test set) L1 L2 ks)
    (hset : ∀ id row b, test id row → IdentityChange c target id b (some row) →
      IdentityChange c target id b (set row)) :
    Progress env c now target (L2.write ks (onIdentities test set).set) := by
  refine h.execute hx fun k since row _ hsel hrow hchange => ?_
  obtain ⟨id, row', rfl, hrow', htest⟩ := selects_onIdentities hsel
  obtain rfl := Option.some.inj (hrow'.symm.trans hrow)
  exact hset id row' _ htest hchange

theorem Progress.certificates {set : Certificate → Option Certificate}
    (hx : Local.Executed (registryRely c) L (onCertificates test set) L1 L2 ks)
    (hset : ∀ f row b, test f row → CertificateChange c now target f b (some row) →
      CertificateChange c now target f b (set row)) :
    Progress env c now target (L2.write ks (onCertificates test set).set) := by
  refine h.execute hx fun k since row _ hsel hrow hchange => ?_
  obtain ⟨f, row', rfl, hrow', htest⟩ := selects_onCertificates hsel
  obtain rfl := Option.some.inj (hrow'.symm.trans hrow)
  exact hset f row' _ htest hchange

theorem Progress.invitations {test : Nat → Invitation → Bool} {set : Invitation → Invitation}
    (hx : Local.Executed (registryRely c) L (onInvitations test set) L1 L2 ks)
    (hset : ∀ key since row b, test key row → InvitationChange env c now key since b (some row) →
      InvitationChange env c now key since b (some (set row))) :
    Progress env c now target (L2.write ks (onInvitations test set).set) := by
  refine h.execute hx fun k since row _ hsel hrow hchange => ?_
  obtain ⟨key, row', rfl, hrow', htest⟩ := selects_onInvitations hsel
  obtain rfl := Option.some.inj (hrow'.symm.trans hrow)
  exact hset key since row' _ htest hchange

theorem Progress.insert {row : RegistryRow k} (hrow : L.rows k = none)
    (hnew : RowChange env c now target k ⟨L.clock, some row⟩ none) :
    Progress env c now target (L.insert k row) :=
  ⟨h.start, h.clock, h.changes.insert hnew hrow⟩

/-- A locking read changes nothing. -/
theorem Progress.lock (keys : List RegistryKey) :
    Progress env c now target (L.write keys fun _ row => some row) :=
  ⟨h.start, h.clock, h.changes.write (fun k _ row => rowChange_same k _ (some row))
    fun _ _ _ _ _ _ hk => hk⟩

end

/-! ### The end of a transaction -/

/-- A part of the call `c` that commits as the specification says. -/
abbrev CallSafe (env : EnrollmentEnv) (c : RegistryCall) (L : Local RegistryRow)
    (p : RegistrySql Unit) : Prop :=
  p.Safe (registryRely c) (registryPost env c) (fun _ _ => True) L

/-- The end of a transaction. -/
abbrev noteAndCommit (actorId : Option Nat) (actorLabel action : String) (targetId : Option Nat) :
    RegistrySql Unit :=
  appendAuditNote actorId actorLabel action targetId >>= fun _ => Sql.commitTransaction

abbrev BodySafe (env : EnrollmentEnv) (c : RegistryCall) (L : Local RegistryRow) : Prop :=
  CallSafe env c L (c.body env)

variable {actorId targetId : Option Nat} {actorLabel action : String}

/-- `append_audit` and the commit. What else is known (`E`) survives
the steps of others and the append. -/
theorem safe_finish {E : Local RegistryRow → Prop} (hp : Progress env c now target L) (hE : E L)
    (hlater : ∀ L L', Later (registryRely c) L L' → E L → E L')
    (haudit : ∀ L ks set, (∀ k ∈ ks, k = RegistryKey.audit) → E L → E (L.write ks set))
    (hpost : ∀ L', Progress env c now target L' → E L' → CommitSpec env c now L' target) :
    CallSafe env c L (noteAndCommit actorId actorLabel action targetId) := by
  refine Sql.Safe.bind (safe_execute fun L1 L2 now' ks _ hx => ?_)
  have hkeys : ∀ k ∈ ks, k = RegistryKey.audit := fun k hk => selects_appendNote (hx.selects hk)
  have hp' := hp.execute hx fun k since row _ hsel _ _ => by
    cases selects_appendNote hsel
    trivial
  have hE' := haudit _ ks (appendNote ⟨actorId, actorLabel, action, targetId⟩).set hkeys
    (hlater _ _ hx.ended (hlater _ _ hx.began hE))
  refine safe_commit fun L3 h3 now3 hnow3 => ⟨⟨target, ?_⟩, trivial⟩
  cases hp'.start.symm.trans hnow3
  exact hpost L3 (hp'.later h3) (hlater _ _ h3 hE')

/-- The end of a call of which nothing more is to be said. -/
theorem safe_finish_plain (hp : Progress env c now target L) (hlocks : ¬LocksTarget c)
    (hparticular : ∀ L', Particular env now target L' c) :
    CallSafe env c L (noteAndCommit actorId actorLabel action targetId) :=
  safe_finish hp trivial (fun _ _ _ _ => trivial) (fun _ _ _ _ _ => trivial)
    fun L' hp' _ => ⟨hp'.clock, hp'.changes, fun h => absurd h hlocks, hparticular L'⟩

/-! ### Invitations -/

theorem registryRely_trans (c : RegistryCall) (n : Nat) (h : Held RegistryRow)
    (rows rows' rows'' : Rows RegistryRow) (h1 : registryRely c n h rows rows')
    (h2 : registryRely c n h rows' rows'') : registryRely c n h rows rows'' := h1.trans h2

variable {role : Role}

/-- A call that goes on after `authenticate`. -/
theorem safe_authenticate {β : Type} {post : Int → Local RegistryRow → Prop}
    {ret : β → Local RegistryRow → Prop} {fingerprint : Nat}
    {g : Nat → RegistrySql β}
    (h : ∀ L' identity, Later (registryRely c) L L' →
      (g identity).Safe (registryRely c) post ret L'.tick) :
    (authenticateCall fingerprint role >>= g).Safe (registryRely c) post ret L := by
  refine Sql.Safe.bind (safe_query fun L' hl s _ => ?_)
  cases authenticated s.row L'.now fingerprint role with
  | none => trivial
  | some identity => exact h L' identity hl

variable {error : CallError}

/-- Creating an invitation, from the start of the transaction on. -/
theorem safe_insertInvitation (hc : CreatesInvitation c) {id : Nat} {name hash : String} {e : Int}
    (hheld : L.held = fun _ => none) :
    CallSafe env c L (Sql.beginTransaction >>= fun _ =>
      insertInvitation id role name hash e error >>= fun _ =>
      noteAndCommit actorId actorLabel action targetId) := by
  refine safe_begin fun L0 h0 => safe_insertRow fun L1 h1 hrow _ => ?_
  have hp : Progress env c L0.clock 0 _ := (progress_begin (h0.held.trans hheld)).later h1
  refine safe_finish_plain (hp.insert hrow (.created hc)) ?_ fun L' => ?_
  · cases c with
    | createEnrollmentKey => exact not_false
    | createEnrollmentKeyBounded => exact not_false
    | _ => cases hc
  · cases c with
    | createEnrollmentKey => trivial
    | createEnrollmentKeyBounded => trivial
    | _ => cases hc

theorem safe_createEnrollmentKey (fingerprint id : Nat) (name secretHash : String)
    (expiresInSeconds : Nat) (hheld : L.held = fun _ => none) :
    BodySafe env (.createEnrollmentKey fingerprint id name secretHash expiresInSeconds) L := by
  refine safe_authenticate fun L1 actor h1 => ?_
  refine safe_guard fun _ => ?_
  exact safe_clock fun L2 h2 =>
    safe_insertInvitation (by trivial) (h2.held.trans (h1.held.trans hheld))

theorem safe_createEnrollmentKeyBounded (role : Role) (id : Nat) (name secretHash : String)
    (ttl : Nat) (hheld : L.held = fun _ => none) :
    BodySafe env (.createEnrollmentKeyBounded role id name secretHash ttl) L := by
  refine safe_guard fun _ => ?_
  exact safe_clock fun L2 h2 => safe_insertInvitation (by trivial) (h2.held.trans hheld)

/-- Revoking an invitation, from the statement on. -/
theorem safe_revokeInvitation {test : Int → Nat → Invitation → Bool}
    {set : Int → Invitation → Invitation} (hp : Progress env c now 0 L)
    (htest : ∀ key row, test now key row → row.revocable now)
    (hset : ∀ row, ∃ revokedBy, set now row =
      { row with revokedAt := some now, revokedBy := revokedBy })
    (hc : RevokesInvitation c) :
    CallSafe env c L (Sql.execute (fun now => onInvitations (test now) (set now)) >>=
      fun affected => if affected.length ≠ 1 then .fail error
      else noteAndCommit actorId actorLabel action targetId) := by
  have hplain : ¬LocksTarget c ∧ c ≠ .maintenance ∧ ¬CreatesInvitation c ∧
      (∀ key, ¬Consumes env c key) ∧ ∀ L, Particular env now 0 L c := by
    cases c <;> first
      | exact False.elim hc
      | exact ⟨not_false, nofun, not_false, nofun, fun _ => trivial⟩
  obtain ⟨hlocks, hmaintenance, hcreates, hconsumes, hparticular⟩ := hplain
  refine safe_execute fun L1 L2 now' ks hnow' hx => ?_
  cases hp.start.symm.trans hnow'
  refine safe_guard fun _ => ?_
  refine safe_finish_plain (hp.invitations hx fun key since row b hkey hchange => ?_) hlocks
    hparticular
  have hrevocable := htest key row hkey
  simp only [Invitation.revocable, Bool.and_eq_true, Option.isNone_iff_eq_none] at hrevocable
  obtain ⟨revokedBy, hby⟩ := hset row
  rw [hby]
  -- no other change fits this call and the `WHERE` clause
  cases hchange with
  | same => exact .revoked hc hrevocable.1.1 hrevocable.1.2
  | created h => exact absurd h hcreates
  | consumed h => exact absurd h (hconsumes key)
  | revoked => cases hrevocable.1.2
  | unlinked h => exact absurd h hmaintenance

theorem safe_revokeEnrollmentKey (fingerprint keyId : Nat) (hheld : L.held = fun _ => none) :
    BodySafe env (.revokeEnrollmentKey fingerprint keyId) L := by
  refine safe_authenticate fun L1 actor h1 => safe_begin fun L2 h2 => ?_
  refine safe_revokeInvitation (progress_begin (h2.held.trans (h1.held.trans hheld))) ?_ ?_
    (by trivial)
  · grind
  · exact fun row => ⟨some actor, rfl⟩

theorem safe_revokeEnrollmentKeyRecord (role : Role) (keyId : Nat)
    (hheld : L.held = fun _ => none) :
    BodySafe env (.revokeEnrollmentKeyRecord role keyId) L := by
  refine safe_begin fun L2 h2 => ?_
  refine safe_revokeInvitation (progress_begin (h2.held.trans hheld)) ?_ ?_ (by trivial)
  · grind
  · exact fun row => ⟨row.revokedBy, rfl⟩

/-! ### Enrollment -/

variable {w : (k : RegistryKey) → RegistryRow k → Option (RegistryRow k)}

/-- Rows that a call has locked survive the end of its transaction. -/
theorem owns_write_audit {since : Int} {a b : Option (RegistryRow k)}
    (h : L.Owns k since a b) (hk : k ≠ .audit) (hks : ∀ k ∈ ks, k = RegistryKey.audit) :
    (L.write ks w).Owns k since a b :=
  h.write_of_not_mem fun hmem => hk (hks k hmem)

variable {claims : InvitationClaims} {request : EnrollRequest} {since since' : Int}
  {row : IdentityRow} {inv : Invitation}

section

variable (hclaims : env.parseEnrollmentInvitation request.enrollmentKey = some claims)
  (hp : Progress env (.enroll request) now target L)
  (hinv : L.Owns (.invitation claims.id) since (some inv) (some inv))
  (hsince : since < inv.expiresAt)
  (hid : L.Owns (.identity request.identityId) since' none (some row))
include hclaims hp hinv hsince hid

/-- The consumption, with the invitation locked and found valid before. -/
theorem safe_consume :
    CallSafe env (.enroll request) L (Sql.execute (consumeInvitation claims.id request.identityId)
      >>=
      fun consumed => if consumed.length ≠ 1 then .fail error
      else noteAndCommit actorId actorLabel action targetId) := by
  refine safe_execute fun L1 L2 now' ks hnow' hx => ?_
  cases hp.start.symm.trans hnow'
  refine safe_guard fun hone => ?_
  have hinv2 := hinv.executed hx
  -- the statement is about this invitation only
  have hkey : ∀ k ∈ ks, k = .invitation claims.id ∧ inv.revocable now := by
    intro k hk
    obtain ⟨key, row', rfl, hrow', htest⟩ := selects_onInvitations (hx.selects hk)
    rw [Bool.and_eq_true, decide_eq_true_eq] at htest
    obtain ⟨rfl, hrevocable⟩ := htest
    cases hinv2.view.symm.trans hrow'
    exact ⟨rfl, hrevocable⟩
  obtain ⟨k, hk⟩ : ∃ k, k ∈ ks := List.exists_mem_of_length_pos (by omega)
  obtain ⟨rfl, hrevocable⟩ := hkey k hk
  simp only [Invitation.revocable, Bool.and_eq_true, Option.isNone_iff_eq_none] at hrevocable
  have hp' := hp.execute hx (by
    intro k' since0 row' hsince0 hsel hrow _
    obtain ⟨key, row0, rfl, hrow0, htest⟩ := selects_onInvitations hsel
    rw [Bool.and_eq_true, decide_eq_true_eq] at htest
    obtain ⟨rfl, -⟩ := htest
    cases hinv2.view.symm.trans hrow
    rw [hinv2.held] at hsince0
    cases hsince0
    rw [hinv2.rows]
    exact .consumed ⟨request, claims, rfl, hclaims, rfl⟩ hrevocable.1.1 hrevocable.1.2 hsince)
  refine safe_finish (E := fun L =>
    L.Owns (.invitation claims.id) since (some inv)
      (some { inv with consumedAt := some now, consumedBy := some request.identityId }) ∧
    L.Owns (.identity request.identityId) since' none (some row)) hp'
    ⟨hinv2.write_of_mem hk, (hid.executed hx).write_of_not_mem fun hmem => ?_⟩ ?_ ?_ ?_
  · cases (hkey _ hmem).1
  · exact fun L L' hl h => ⟨h.1.later hl, h.2.later hl⟩
  · exact fun L ks set haudit h =>
      ⟨owns_write_audit h.1 nofun haudit, owns_write_audit h.2 nofun haudit⟩
  · intro L' hL' ⟨hi, hi'⟩
    refine ⟨hL'.clock, hL'.changes, fun h => absurd h not_false, ?_⟩
    exact ⟨claims, since, inv, hclaims, hrevocable.1.1, hrevocable.1.2, hsince, hi, hi'.rows,
      by rw [hi'.view]; rfl⟩

/-- The client row and the consumption. -/
theorem safe_enrollClient : CallSafe env (.enroll request) L (insertClient request >>= fun _ =>
      Sql.execute (consumeInvitation claims.id request.identityId) >>= fun consumed =>
      if consumed.length ≠ 1 then .fail error
      else noteAndCommit actorId actorLabel action targetId) := by
  unfold insertClient
  cases request.clientPlatform with
  | none => exact safe_consume hclaims hp hinv hsince hid
  | some platform =>
    refine safe_insertRow fun L1 h1 hrow _ => ?_
    exact safe_consume hclaims ((hp.later h1).insert hrow trivial)
      ((hinv.later h1).insert (by nofun)) hsince ((hid.later h1).insert (by nofun))

end

section

variable (hclaims : env.parseEnrollmentInvitation request.enrollmentKey = some claims)
include hclaims

theorem safe_enrollRows {issued : IssuedCertificate} {since : Int}
    (hp : Progress env (.enroll request) now target L)
    (hinv : L.Owns (.invitation claims.id) since (some inv) (some inv))
    (hsince : since < inv.expiresAt) :
    CallSafe env (.enroll request) L (enrollRows request claims issued) := by
  refine safe_clock fun L1 h1 => safe_insertRow fun L2 h2 hrow2 _ => ?_
  refine safe_insertRow fun L3 h3 hrow3 _ => ?_
  have hp2 := (hp.later h1).later h2
  have hinv2 := (hinv.later h1).later h2
  exact safe_enrollClient hclaims
    (((hp2.insert hrow2 (.enrolled rfl rfl)).later h3).insert hrow3 (.issued trivial))
    (((hinv2.insert (by nofun)).later h3).insert (by nofun)) hsince
    (((Local.owns_insert hrow2).later h3).insert (by nofun))

/-- `enroll`, from the start of its transaction on. -/
theorem safe_enrollTransaction {csr expectedHash : String} (hheld : L.held = fun _ => none) :
    CallSafe env (.enroll request) L (enrollTransaction env request claims csr expectedHash) := by
  refine safe_begin fun L0 h0 => ?_
  have hp0 : Progress env (.enroll request) L0.clock request.identityId _ :=
    progress_begin (h0.held.trans hheld)
  refine safe_selectForUpdate (registryRely_trans _) (fun _ => safe_fail) fun L1 h1 _ _ => ?_
  have hnone : L1.held (.invitation claims.id) = none := by
    rw [h1.held, show (_ : Held RegistryRow) = _ from h0.held.trans hheld]
  cases hrow : L1.view (.invitation claims.id) with
  | none =>
    grind
  | some inv =>
    simp only [Option.bind_some, hrow]
    have hinv := Local.owns_write (w := fun _ row => some row) hnone
      ((Local.view_of_held_eq_none hnone).symm.trans hrow) (List.mem_singleton.2 rfl)
    refine safe_clock fun L2 h2 => safe_guard fun hvalid => ?_
    -- the invitation was locked before the clock was read
    have hsince : L1.clock < inv.expiresAt := by
      simp only [Invitation.refuses, Bool.or_eq_true, decide_eq_true_eq, not_or, not_le] at hvalid
      exact lt_of_le_of_lt h2.clock hvalid.1.1.1.2
    split
    · exact safe_fail
    · exact safe_enrollRows hclaims (((hp0.later h1).lock _).later h2) (hinv.later h2) hsince

end

theorem safe_enroll (request : EnrollRequest) (hheld : L.held = fun _ => none) :
    BodySafe env (.enroll request) L := by
  show CallSafe env _ L (enroll env request)
  unfold enroll
  split
  · exact safe_fail
  · rename_i claims hclaims
    refine safe_guard fun _ => safe_clock fun L1 h1 => ?_
    refine safe_guard fun _ => safe_guard fun _ => ?_
    split
    · exact safe_fail
    · refine safe_query fun L2 h2 s _ => ?_
      split
      · exact safe_fail
      · refine safe_clock fun L3 h3 => safe_guard fun _ => ?_
        refine safe_guard fun _ => safe_enrollTransaction hclaims ?_
        exact h3.held.trans (h2.held.trans (h1.held.trans hheld))

/-! ### Renewal -/

theorem safe_renewIdentityCertificate (fingerprint : Nat) (role : Role) (csrPem : List UInt8)
    (serial : Nat) (hheld : L.held = fun _ => none) :
    BodySafe env (.renewCertificate fingerprint role csrPem serial) L := by
  refine safe_authenticate fun L1 identity h1 => ?_
  split
  · exact safe_fail
  · refine safe_query fun L2 h2 s _ => ?_
    split
    · exact safe_fail
    · split
      · exact safe_fail
      · refine safe_clock fun L3 h3 => safe_begin fun L4 h4 => safe_query fun L5 h5 s _ => ?_
        refine safe_guard fun _ => safe_insertRow fun L6 h6 hrow _ => ?_
        have hnone : L4.held = fun _ => none :=
          h4.held.trans (h3.held.trans (h2.held.trans (h1.held.trans hheld)))
        have hp : Progress env (.renewCertificate fingerprint role csrPem serial) L4.clock identity
          _ := (((progress_begin hnone).later h5).tick).later h6
        exact safe_finish_plain (hp.insert hrow (.issued trivial)) not_false fun _ => trivial

/-! ### Activation -/

/-- What an activation knows after it has retired the other certificates. -/
structure Retired (now : Int) (target f : Nat) (L : Local RegistryRow) : Prop where
  locked : (L.held (.identity target)).isSome
  others : ∀ g c, g ≠ f → L.rows (.certificate g) = some c → c.identity = target →
    c.activation = .active → c.revoked = false → now < c.expiresAt →
    ∃ since, L.held (.certificate g) = some ⟨since, some (retired now c)⟩

variable {f : Nat}

/-- No other transaction brings a certificate of the identity into use. -/
theorem Retired.later (h : Retired now target f L) (hl : Later (registryRely c) L L') :
    Retired now target f L' := by
  have hlocked : (L'.held (.identity target)).isSome := by
    rw [hl.held]
    exact h.locked
  refine ⟨hlocked, fun g c hg hrow hid hactive hrevoked hexpires => ?_⟩
  rw [hl.held]
  have hbefore := hl.rely.certificates g c hrow hactive (by rw [hid]; exact h.locked)
  exact h.others g c hg hbefore hid hactive hrevoked hexpires

/-- A statement that leaves the other certificates alone. -/
theorem Retired.write (h : Retired now target f L)
    (hks : ∀ g, g ≠ f → RegistryKey.certificate g ∉ ks)
    (hlocked : ((L.write ks w).held (.identity target)).isSome) :
    Retired now target f (L.write ks w) := by
  refine ⟨hlocked, fun g c hg hrow hid hactive hrevoked hexpires => ?_⟩
  rw [Local.held_write_of_not_mem (hks g hg)]
  exact h.others g c hg hrow hid hactive hrevoked hexpires

/-- The statement that retires the other certificates finds all of them. -/
theorem retired_execute
    (hx : Local.Executed (registryRely c) L (retireOthers target f now) L1 L2 ks)
    (hlocked : (L1.held (.identity target)).isSome)
    (hheld : ∀ g, g ≠ f → L1.held (.certificate g) = none) :
    Retired now target f (L2.write ks (retireOthers target f now).set) := by
  have hkeys : RegistryKey.identity target ∉ ks := by
    intro hmem
    obtain ⟨g, _, heq, -⟩ := selects_onCertificates (hx.selects hmem)
    cases heq
  constructor
  · rw [Local.held_write_of_not_mem hkeys, hx.ended.held]
    exact hlocked
  · intro g c hg hrow hid hactive hrevoked hexpires
    -- it was in use when the statement began
    have hbefore := hx.ended.rely.certificates g c hrow hactive (by rw [hid]; exact hlocked)
    have hview1 : L1.view (.certificate g) = some c :=
      (Local.view_of_held_eq_none (hheld g hg)).trans hbefore
    have hview2 : L2.view (.certificate g) = some c :=
      (Local.view_of_held_eq_none (hx.ended.held ▸ hheld g hg)).trans hrow
    have hselects : ∀ {L : Local RegistryRow}, L.view (.certificate g) = some c →
        L.Selects (retireOthers target f now) (.certificate g) := by
      intro L hview
      refine ⟨by rw [hview]; rfl, ?_⟩
      show (L.view (.certificate g)).any _ = true
      grind
    exact ⟨_, Local.held_write_of_mem ((hx.keys _).2 ⟨hselects hview1, hselects hview2⟩) hview2⟩

/-- A statement about one row, which the call has locked. -/
theorem Progress.executeOwned {statement : Statement RegistryRow} {a : RegistryRow k}
    (hp : Progress env c now target L) (hown : L.Owns k since (some a) (some a))
    (hx : Local.Executed (registryRely c) L statement L1 L2 ks)
    (honly : ∀ k', L2.Selects statement k' → k' = k)
    (hfinds : ∀ L : Local RegistryRow, L.view k = some a → L.Selects statement k)
    (hset : ∀ since, RowChange env c now target k ⟨since, statement.set k a⟩ (some a)) :
    Progress env c now target (L2.write ks statement.set) ∧ (∀ k' ∈ ks, k' = k) ∧
      (L2.write ks statement.set).Owns k since (some a) (statement.set k a) := by
  refine ⟨hp.execute hx ?_, fun k' hk => honly k' (hx.selects hk), hown.execute hx hfinds⟩
  intro k' since0 row _ hsel hrow _
  obtain rfl := honly k' hsel
  cases (hown.executed hx).view.symm.trans hrow
  rw [(hown.executed hx).rows]
  exact hset since0

theorem selects_activateCertificateRow (h : L.Selects (activateCertificateRow target f) k) :
    k = .certificate f := by
  obtain ⟨g, row, rfl, -, htest⟩ := selects_onCertificates h
  grind

theorem selects_activateIdentityRow (h : L.Selects (activateIdentityRow target f) k) :
    k = .identity target := by
  obtain ⟨id, row, rfl, -, htest⟩ := selects_onIdentities h
  rw [of_decide_eq_true htest]

section

variable {i : IdentityRow} {x : Certificate} {d : Int}
  (hp : Progress env (.activate target f role) now target L)
  (hid : L.Owns (.identity target) since (some i) (some i)) (hrevoked : i.revoked = false)
  (hcert : L.Owns (.certificate f) since' (some x) (some x)) (hidentity : x.identity = target)
  (hpending : x.activation = .pending d)
include hp hid hrevoked hcert hidentity hpending

/-- An activation after it has retired the other certificates. -/
theorem safe_activateTarget (hretired : Retired now target f L) :
    CallSafe env (.activate target f role) L (Sql.execute (fun _ =>
      activateCertificateRow target f) >>= fun _ =>
      Sql.execute (fun _ => activateIdentityRow target f) >>= fun _ =>
      appendAuditNote (some target) (roleName role) "identity.activate" (some target) >>= fun _ =>
      (Sql.commitTransaction : RegistrySql Unit)) := by
  -- the certificate, then the identity: each update touches the row that is locked
  refine safe_execute fun L1 L2 _ ks _ hx => ?_
  obtain ⟨hp2, hkeys, hcert2⟩ := hp.executeOwned hcert hx
    (fun _ => selects_activateCertificateRow)
    (fun L h => ⟨by rw [h]; rfl, by simp [activateCertificateRow, onCertificates, h, hidentity]⟩)
    fun _ => .activated rfl hidentity hpending
  have hid2 := (hid.executed hx).write_of_not_mem
    (w := (activateCertificateRow target f).set) fun hk => nomatch hkeys _ hk
  have hretired2 := ((hretired.later hx.began).later hx.ended).write
    (fun g hg hk => hg (RegistryKey.certificate.inj (hkeys _ hk))) hid2.isSome
  refine safe_execute fun L3 L4 _ ks' _ hx' => ?_
  obtain ⟨hp4, hkeys', hid4⟩ := hp2.executeOwned hid2 hx'
    (fun _ => selects_activateIdentityRow)
    (fun L h => ⟨by rw [h]; rfl, by simp [activateIdentityRow, onIdentities, h]⟩)
    fun _ => .activated rfl rfl hrevoked
  have hcert4 := (hcert2.executed hx').write_of_not_mem
    (w := (activateIdentityRow target f).set) fun hk => nomatch hkeys' _ hk
  have hretired4 := ((hretired2.later hx'.began).later hx'.ended).write
    (fun g _ hk => nomatch hkeys' _ hk) hid4.isSome
  -- the audit note and the commit leave both rows and the retirements as they are
  refine safe_finish (E := fun L =>
    L.Owns (.identity target) since (some i)
      (some { i with activation := .active, fingerprint := f }) ∧
    L.Owns (.certificate f) since' (some x)
      (some { x with activation := .active, retireAt := none }) ∧ Retired now target f L) hp4
    ⟨hid4, hcert4, hretired4⟩ ?_ ?_ ?_
  · exact fun L L' hl h => ⟨h.1.later hl, h.2.1.later hl, h.2.2.later hl⟩
  · intro L ks w haudit ⟨h, h', h''⟩
    have hw := owns_write_audit (w := w) h nofun haudit
    exact ⟨hw, owns_write_audit h' nofun haudit,
      h''.write (fun g _ hk => nomatch haudit _ hk) hw.isSome⟩
  · intro L' hL' ⟨h, h', h''⟩
    refine ⟨hL'.clock, hL'.changes, fun _ => h.isSome, rfl, ⟨i, h.rows, hrevoked⟩,
      .inr ⟨?_, ?_, ?_⟩⟩
    · exact ⟨i, h.view⟩
    · exact ⟨x, d, h'.rows, hidentity, hpending, h'.view⟩
    · intro g y hg hrow hy hactive hunrevoked hexpires
      obtain ⟨since0, hheld⟩ := h''.others g y hg hrow hy hactive hunrevoked hexpires
      exact Local.Owns.view ⟨hheld, rfl⟩

/-- The three updates of an activation meet the specification of its
commit. -/
theorem safe_activateRows (hheld : ∀ g, g ≠ f → L.held (.certificate g) = none) :
    CallSafe env (.activate target f role) L (activateRows target f role) := by
  refine safe_execute fun L1 L2 now' ks hnow' hx => ?_
  cases hp.start.symm.trans hnow'
  have hnot : ∀ k ∈ ks, ∃ g, k = .certificate g ∧ g ≠ f := by
    intro k hk
    obtain ⟨g, row, rfl, -, htest⟩ := selects_onCertificates (hx.selects hk)
    grind
  have hp2 := hp.execute hx (by
    intro k since0 row _ hsel hrow _
    obtain ⟨g, row', rfl, hrow', htest⟩ := selects_onCertificates hsel
    obtain rfl := Option.some.inj (hrow'.symm.trans hrow)
    simp only [Bool.and_eq_true, decide_eq_true_eq] at htest
    obtain ⟨⟨⟨⟨hown, hg⟩, hactive⟩, -⟩, -⟩ := htest
    -- the row was not locked before, so it is as it is committed
    have hnone : L2.held (.certificate g) = none := by
      rw [hx.ended.held, hx.began.held]
      exact hheld g hg
    rw [Local.view_of_held_eq_none hnone] at hrow
    rw [hrow]
    exact .retired rfl hown hg hactive)
  refine safe_activateTarget hp2 ((hid.executed hx).write_of_not_mem ?_) hrevoked
    ((hcert.executed hx).write_of_not_mem ?_) hidentity hpending
    (retired_execute hx (hid.later hx.began).isSome fun g hg => hx.began.held ▸ hheld g hg)
  · grind
  · grind

end

/-- An activation locks the identity and the certificate before it reads
their state. -/
theorem safe_activateCertificateCall (identity f : Nat) (role : Role)
    (hheld : L.held = fun _ => none) :
    BodySafe env (.activate identity f role) L := by
  refine safe_begin fun L0 h0 => ?_
  have hp0 : Progress env (.activate identity f role) L0.clock identity _ :=
    progress_begin (h0.held.trans hheld)
  refine safe_selectForUpdate (registryRely_trans _) (fun _ => safe_fail)
    fun L1 h1 hsome hjoin => ?_
  have hnone : ∀ k, L1.held k = none := by
    intro k
    rw [h1.held]
    exact congrFun (h0.held.trans hheld) k
  obtain ⟨i, hi⟩ := Option.isSome_iff_exists.1 (hsome (.identity identity) (by simp))
  obtain ⟨x, hx⟩ := Option.isSome_iff_exists.1 (hsome (.certificate f) (by simp))
  have hidentity : x.identity = identity := by
    grind
  have hid : (L1.write [.identity identity, .certificate f] fun _ row => some row).Owns
      (.identity identity) L1.clock (some i) (some i) :=
    Local.owns_write (hnone _) ((Local.view_of_held_eq_none (hnone _)).symm.trans hi) (by simp)
  have hcert : (L1.write [.identity identity, .certificate f] fun _ row => some row).Owns
      (.certificate f) L1.clock (some x) (some x) :=
    Local.owns_write (hnone _) ((Local.view_of_held_eq_none (hnone _)).symm.trans hx) (by simp)
  have hp1 := (hp0.later h1).lock [.identity identity, .certificate f]
  simp only [Option.bind_some, hi, hx, Option.map_some]
  refine safe_clock fun L2 h2 => safe_guard fun hauth => ?_
  have hrevoked : i.revoked = false := by
    simp only [not_or, Bool.not_eq_true] at hauth
    exact hauth.2.1
  split
  · -- the certificate is active already, and nothing is written
    have hsame : (L1.write [.identity identity, .certificate f] fun _ row => some row).AllHeld
        fun _ v a => v.row = a :=
      Local.AllHeld.write (fun k v hv => nomatch (hnone k).symm.trans hv) (fun _ _ _ => rfl)
        fun _ _ _ _ _ _ h => h
    refine safe_commit fun L3 h3 now hnow => ⟨⟨identity, ?_⟩, trivial⟩
    have hp3 := (hp1.later h2).later h3
    cases hp3.start.symm.trans (h3.start.trans hnow)
    have hid3 := (hid.later h2).later h3
    refine ⟨hp3.clock, hp3.changes, fun _ => hid3.isSome, rfl, ⟨i, hid3.rows, hrevoked⟩, .inl ?_⟩
    intro k
    rcases ((hsame.later h2).later h3).row k with h | ⟨_, h⟩
    · exact h
    · exact h
  · rename_i deadline hpending
    refine safe_clock fun L3 h3 => safe_guard fun _ => ?_
    refine safe_clock fun L4 h4 => safe_guard fun _ => ?_
    refine safe_activateRows (((hp1.later h2).later h3).later h4)
      (((hid.later h2).later h3).later h4) hrevoked (((hcert.later h2).later h3).later h4)
      hidentity hpending fun g hg => ?_
    rw [h4.held, h3.held, h2.held, Local.held_write_of_not_mem (by simp [hg])]
    exact hnone _

/-! ### Revocation -/

theorem Progress.revokeIdentity (hp : Progress env c now target L) (hc : Revokes c)
    (hrole : role = .client ∨ c = .revokeIdentityRecord .admin target)
    (hx : Local.Executed (registryRely c) L (revokeIdentityRow role target) L1 L2 ks) :
    Progress env c now target (L2.write ks (revokeIdentityRow role target).set) := by
  refine hp.identities hx fun id row b htest hchange => ?_
  simp only [Bool.and_eq_true, decide_eq_true_eq, Bool.not_eq_true'] at htest
  obtain ⟨⟨rfl, hrow_role⟩, hunrevoked⟩ := htest
  cases hchange with
  | same => exact .revoked hc rfl (hrole.imp hrow_role.trans fun h => h)
  | enrolled h =>
    subst h
    cases hc
  | activated h =>
    subst h
    cases hc
  | revoked => cases hunrevoked

theorem not_issuesCertificate (hc : Revokes c) : ¬IssuesCertificate c := by
  cases c <;> first | exact hc.elim | exact not_false

theorem Progress.revokeCertificates (hp : Progress env c now target L) (hc : Revokes c)
    (hx : Local.Executed (registryRely c) L (revokeCertificateRows target) L1 L2 ks) :
    Progress env c now target (L2.write ks (revokeCertificateRows target).set) := by
  refine hp.certificates hx fun f row b htest hchange => ?_
  simp only [Bool.and_eq_true, decide_eq_true_eq, Bool.not_eq_true'] at htest
  obtain ⟨hidentity, hunrevoked⟩ := htest
  cases hchange with
  | same => exact .revoked hc hidentity
  | issued h => exact absurd h (not_issuesCertificate hc)
  | activated h =>
    subst h
    cases hc
  | retired h =>
    subst h
    cases hc
  | revoked => cases hunrevoked

/-- The updates of a revocation. What else is known (`E`) survives the
steps of others and all statements. -/
theorem safe_revokeRows {E : Local RegistryRow → Prop}
    (hp : Progress env c now target L) (hc : Revokes c)
    (hrole : role = .client ∨ c = .revokeIdentityRecord .admin target) (hE : E L)
    (hlater : ∀ L L', Later (registryRely c) L L' → E L → E L')
    (hwrite : ∀ L ks w, E L → E (L.write ks w))
    (hparticular : ∀ L', E L' → Particular env now target L' c) :
    CallSafe env c L (Sql.execute (fun _ => revokeIdentityRow role target) >>= fun affected =>
      if affected.length ≠ 1 then .fail error
      else Sql.execute (fun _ => revokeCertificateRows target) >>= fun _ =>
        noteAndCommit actorId actorLabel action targetId) := by
  refine safe_execute fun L1 L2 _ ks _ hx => safe_guard fun hone => ?_
  have hp2 := hp.revokeIdentity hc hrole hx
  have hE2 := hwrite _ ks (revokeIdentityRow role target).set
    (hlater _ _ hx.ended (hlater _ _ hx.began hE))
  have hlocked : ((L2.write ks (revokeIdentityRow role target).set).held
      (.identity target)).isSome := by
    obtain ⟨k, hk⟩ : ∃ k, k ∈ ks := List.exists_mem_of_length_pos (by omega)
    obtain ⟨id, row, rfl, hrow, htest⟩ := selects_onIdentities (hx.selects hk)
    simp only [Bool.and_eq_true, decide_eq_true_eq] at htest
    obtain ⟨⟨rfl, -⟩, -⟩ := htest
    rw [Local.held_write_of_mem hk hrow]
    rfl
  refine safe_execute fun L3 L4 _ ks' _ hx' => ?_
  have hp4 := hp2.revokeCertificates hc hx'
  have hE4 := hwrite _ ks' (revokeCertificateRows target).set
    (hlater _ _ hx'.ended (hlater _ _ hx'.began hE2))
  refine safe_finish (E := fun L => (L.held (.identity target)).isSome ∧ E L) hp4
    ⟨Local.isSome_held_write ?_, hE4⟩ ?_ ?_ ?_
  · rw [hx'.ended.held, hx'.began.held]
    exact hlocked
  · intro L L' hl h
    exact ⟨hl.held ▸ h.1, hlater L L' hl h.2⟩
  · exact fun L ks w _ h => ⟨Local.isSome_held_write h.1, hwrite L ks w h.2⟩
  · exact fun L' hL' h => ⟨hL'.clock, hL'.changes, fun _ => h.1, hparticular L' h.2⟩

theorem safe_revokeIdentityCall (fingerprint identity : Nat) (hheld : L.held = fun _ => none) :
    BodySafe env (.revokeIdentity fingerprint identity) L := by
  refine safe_authenticate fun L1 actor h1 => safe_begin fun L2 h2 => ?_
  have hp2 : Progress env (.revokeIdentity fingerprint identity) L2.clock identity _ :=
    progress_begin (h2.held.trans (h1.held.trans hheld))
  refine safe_selectForUpdate (registryRely_trans _) (fun _ => safe_fail) fun L3 h3 _ _ => ?_
  split
  · exact safe_fail
  · refine safe_guard fun _ => safe_guard fun _ => ?_
    exact safe_revokeRows (E := fun _ => True) ((hp2.later h3).lock _) trivial (.inl rfl) trivial
      (fun _ _ _ _ => trivial) (fun _ _ _ _ => trivial) fun _ _ => rfl

theorem safe_replaceIdentityCall (fingerprint replacement : Nat) (hheld : L.held = fun _ => none) :
    BodySafe env (.replaceIdentity fingerprint replacement) L := by
  refine safe_authenticate fun L1 current h1 => safe_guard fun _ => ?_
  refine safe_begin fun L2 h2 => safe_query fun L3 h3 s _ => ?_
  have hp2 : Progress env (.replaceIdentity fingerprint replacement) L2.clock current _ :=
    progress_begin (h2.held.trans (h1.held.trans hheld))
  refine safe_guard fun _ => ?_
  exact safe_revokeRows (E := fun _ => True) (hp2.later h3).tick trivial (.inl rfl) trivial
    (fun _ _ _ _ => trivial) (fun _ _ _ _ => trivial) fun _ _ => trivial

/-- Two Admins are active, and they stay active. -/
def OtherAdmin (L : Local RegistryRow) : Prop :=
  (L.held .revocationLock).isSome ∧
    ∃ i j row row', i ≠ j ∧ L.rows (.identity i) = some row ∧ row.activeAdmin ∧
      L.rows (.identity j) = some row' ∧ row'.activeAdmin

theorem OtherAdmin.later (h : OtherAdmin L) (hl : Later (registryRely c) L L') : OtherAdmin L' := by
  obtain ⟨hlock, i, j, row, row', hne, hrow, hactive, hrow', hactive'⟩ := h
  obtain ⟨row1, hrow1, hactive1⟩ := hl.rely.admins hlock i row hrow hactive
  obtain ⟨row2, hrow2, hactive2⟩ := hl.rely.admins hlock j row' hrow' hactive'
  exact ⟨hl.held ▸ hlock, i, j, row1, row2, hne, hrow1, hactive1, hrow2, hactive2⟩

theorem two_le_countActiveAdmins {s : Snapshot RegistryRow} : 2 ≤ countActiveAdmins s ↔
    ∃ i j row row', i ≠ j ∧ s.row (.identity i) = some row ∧ row.activeAdmin ∧
      s.row (.identity j) = some row' ∧ row'.activeAdmin := by
  unfold countActiveAdmins
  rw [Snapshot.two_le_count]
  constructor
  · rintro ⟨k, k', hne, hk, hk'⟩
    obtain ⟨row, hrow, hactive⟩ := (Option.any_eq_true ..).1 hk
    obtain ⟨row', hrow', hactive'⟩ := (Option.any_eq_true ..).1 hk'
    -- only identities are counted
    grind
  · grind

/-- The count is at least two. -/
theorem otherAdmin_of_count (hlock : (L.held .revocationLock).isSome)
    (hview : ∀ id, L.view (.identity id) = L.rows (.identity id)) {s : Snapshot RegistryRow}
    (hs : s.row = L.view) (hcount : ¬countActiveAdmins s ≤ 1) : OtherAdmin L := by
  have hpair := two_le_countActiveAdmins.1 (Nat.lt_of_not_le hcount)
  simp only [hs, hview] at hpair
  exact ⟨hlock, hpair⟩

/-- A revocation meets the specification of its commit. -/
theorem safe_revokeIdentityRecord (role : Role) (identity : Nat) (hheld : L.held = fun _ => none) :
    BodySafe env (.revokeIdentityRecord role identity) L := by
  refine safe_begin fun L1 h1 => ?_
  have hp1 : Progress env (.revokeIdentityRecord role identity) L1.clock identity _ :=
    progress_begin (h1.held.trans hheld)
  refine safe_advisoryLock (registryRely_trans _) fun L2 h2 hlock => ?_
  have hp2 := (hp1.later h2).lock [.revocationLock]
  have hnone : ∀ id, (L2.write [.revocationLock] fun _ row => some row).held (.identity id) =
      none := by
    intro id
    rw [Local.held_write_of_not_mem (by simp), h2.held]
    exact congrFun (h1.held.trans hheld) _
  refine safe_ite ?_ ?_
  · rintro rfl
    refine safe_query fun L3 h3 s hs => safe_guard fun hcount => ?_
    have hother : OtherAdmin L3 := otherAdmin_of_count (h3.held ▸ hlock)
      (fun id => Local.view_of_held_eq_none (h3.held ▸ hnone id)) hs hcount
    exact safe_revokeRows (E := OtherAdmin) (hp2.later h3).tick trivial (.inr rfl) hother
      (fun _ _ hl h => h.later hl) (fun _ _ _ h => ⟨Local.isSome_held_write h.1, h.2⟩)
      fun _ h => ⟨rfl, h.1, h.2⟩
  · intro hrole
    have hclient : role = .client := by
      cases role with
      | client => rfl
      | admin => exact absurd rfl hrole
    subst hclient
    exact safe_revokeRows (E := fun _ => True) hp2 trivial (.inl rfl) trivial
      (fun _ _ _ _ => trivial) (fun _ _ _ _ => trivial) fun _ _ => rfl

/-! ### Maintenance -/

theorem pending_of_expiredAt {a : Activation} (h : Registry.expiredAt now a) :
    ∃ d, a = .pending d := by
  cases a with
  | pending d => exact ⟨d, rfl⟩
  | active => cases h

/-- Maintenance deletes what it likes of certificates. -/
theorem Progress.deleteCertificates (hp : Progress env .maintenance now target L)
    (hx : Local.Executed (registryRely .maintenance) L (onCertificates test fun _ => none) L1 L2
      ks) :
    Progress env .maintenance now target (L2.write ks (onCertificates test fun _ => none).set) := by
  refine hp.certificates hx fun f row b _ _ => ?_
  cases b with
  | none => exact .same none
  | some row0 => exact .deleted rfl

/-- Maintenance forgets who used an invitation. -/
theorem Progress.unlinkInvitations {test : Nat → Invitation → Bool} {w : Invitation → Invitation}
    (hw : ∀ row, ∃ consumedBy revokedBy,
      w row = { row with consumedBy := consumedBy, revokedBy := revokedBy })
    (hp : Progress env .maintenance now target L)
    (hx : Local.Executed (registryRely .maintenance) L (onInvitations test w) L1 L2 ks) :
    Progress env .maintenance now target (L2.write ks (onInvitations test w).set) := by
  refine hp.invitations hx fun key since row b _ hchange => ?_
  obtain ⟨consumedBy, revokedBy, heq⟩ := hw row
  rw [heq]
  cases hchange with
  | same => exact .unlinked rfl
  | created h => cases h
  | consumed h =>
    obtain ⟨_, _, h, -⟩ := h
    cases h
  | revoked h => cases h
  | unlinked => exact .unlinked rfl

/-- Maintenance meets the specification of its commit. -/
theorem safe_maintainIdentities (hheld : L.held = fun _ => none) : BodySafe env .maintenance L := by
  refine safe_begin fun L1 h1 => safe_execute fun L2 L3 now ks hnow hx => ?_
  have hp1 : Progress env .maintenance L1.clock 0 _ := progress_begin (h1.held.trans hheld)
  cases hp1.start.symm.trans hnow
  have hp3 := hp1.identities hx (by
    intro id row b htest hchange
    obtain ⟨d, hd⟩ := pending_of_expiredAt htest
    cases hchange with
    | same => exact .deleted rfl hd
    | enrolled h => cases h
    | activated h => cases h
    | revoked h => cases h)
  refine Sql.Safe.bind ?_
  unfold onDeleteIdentities
  refine safe_execute fun L4 L5 _ _ _ hx => ?_
  have hp5 := hp3.deleteCertificates hx
  refine safe_execute fun L6 L7 _ _ _ hx => ?_
  have hp7 := hp5.execute hx (by
    intro k since row _ hsel _ _
    obtain ⟨id, rfl⟩ := selects_deleteClients hsel
    trivial)
  refine safe_execute fun L8 L9 _ _ _ hx => ?_
  have hp9 := hp7.unlinkInvitations (fun row => ⟨none, row.revokedBy, rfl⟩) hx
  refine safe_execute fun L10 L11 _ _ _ hx => ?_
  have hp11 := hp9.unlinkInvitations (fun row => ⟨row.consumedBy, none, rfl⟩) hx
  refine safe_execute fun L12 L13 _ _ _ hx => ?_
  have hp13 := hp11.deleteCertificates hx
  refine safe_commit fun L14 h14 now hnow => ⟨⟨0, ?_⟩, trivial⟩
  have hp14 := hp13.later h14
  cases hp14.start.symm.trans (h14.start.trans hnow)
  exact ⟨hp14.clock, hp14.changes, fun h => absurd h not_false, trivial⟩

/-! ### All calls -/

/-- Every call meets its specification when it commits. -/
theorem registry_protocol (env : EnrollmentEnv) :
    Protocol (RegistryCall.body env) registryRely (registryPost env) where
  refl _ _ h rows := .refl h rows
  trans := registryRely_trans
  safe c L hheld _ _ := by
    cases c with
    | createEnrollmentKey => exact safe_createEnrollmentKey _ _ _ _ _ hheld
    | createEnrollmentKeyBounded => exact safe_createEnrollmentKeyBounded _ _ _ _ _ hheld
    | revokeEnrollmentKey => exact safe_revokeEnrollmentKey _ _ hheld
    | revokeEnrollmentKeyRecord => exact safe_revokeEnrollmentKeyRecord _ _ hheld
    | enroll => exact safe_enroll _ hheld
    | renewCertificate => exact safe_renewIdentityCertificate _ _ _ _ hheld
    | activate => exact safe_activateCertificateCall _ _ _ hheld
    | revokeIdentity => exact safe_revokeIdentityCall _ _ hheld
    | revokeIdentityRecord => exact safe_revokeIdentityRecord _ _ hheld
    | replaceIdentity => exact safe_replaceIdentityCall _ _ hheld
    | maintenance => exact safe_maintainIdentities hheld

section

variable {c : RegistryCall} (h : CommitSpec env c now L target)
include h

/-- A commit keeps an active Admin active, unless it is the local
revocation of this Admin. -/
theorem CommitSpec.keepsAdmin {id : Nat} (hrow : L.rows (.identity id) = some row)
    (hadmin : row.activeAdmin) :
    (∃ row', L.view (.identity id) = some row' ∧ row'.activeAdmin) ∨
      (id = target ∧ c = .revokeIdentityRecord .admin id) := by
  have hadmin' := hadmin
  simp only [IdentityRow.activeAdmin, Bool.and_eq_true, decide_eq_true_eq] at hadmin'
  have hchange := h.identityChange id
  rw [hrow] at hchange
  generalize L.view (.identity id) = b at hchange
  cases hchange with
  | same => exact .inl ⟨row, rfl, hadmin⟩
  | activated =>
    refine .inl ⟨_, rfl, ?_⟩
    simp only [IdentityRow.activeAdmin, Bool.and_eq_true, decide_eq_true_eq]
    exact ⟨⟨hadmin'.1.1, trivial⟩, hadmin'.2⟩
  | revoked _ hid hrole =>
    grind
  | deleted _ hpending =>
    grind

/-- A commit gives the other calls what they rely on: it has the lock
that the change needs, so they do not have it. -/
theorem CommitSpec.rely {held : Held RegistryRow}
    (hdisjoint : ∀ k, (held k).isSome → L.held k = none) :
    RegistryRely held L.rows L.view where
  certificates f x hview hactive hheld := by
    -- the call would have locked the identity itself
    have hnot : x.identity = target → LocksTarget c → L.rows (.certificate f) = some x := by
      intro hid hlocks
      have hlocked := h.locked hlocks
      grind
    have hchange := h.certificateChange f
    rw [hview] at hchange
    generalize L.rows (.certificate f) = a at hchange hnot ⊢
    cases hchange with
    | same => rfl
    | issued => cases hactive
    | activated hc hid => exact hnot hid (hc ▸ trivial)
    | retired hc hid => exact hnot hid (hc ▸ trivial)
    | revoked hc hid => exact hnot hid (by cases c <;> first | exact hc | trivial)
  admins hlock id row hrow hadmin := by
    refine (h.keepsAdmin hrow hadmin).resolve_right ?_
    rintro ⟨-, rfl⟩
    have hlocked := h.particular.2.1
    rw [hdisjoint _ hlock] at hlocked
    cases hlocked

end

theorem registry_guarantees (env : EnrollmentEnv) (G : RegistryDb → DbLabel RegistryCall → Prop) :
    Guarantees registryRely (registryPost env) G := by
  intro s t u th th' now next _ _ _ hne _ _ ⟨target, hspec⟩
  exact hspec.rely fun k hk => (s.store.cells k).held_eq_none_of_ne hne.symm hk

theorem registryStart_safe (env : EnrollmentEnv) (clock : Int) :
    ThreadsSafe registryRely (registryPost env) (registryStart clock) := by
  refine threadsSafe_of_idle (fun _ => rfl) fun t => funext fun k => ?_
  cases k <;> rfl

/-- A run of the calls of the registry, from an empty registry. -/
abbrev RegistryRun (env : EnrollmentEnv) (clock : Int) (s : RegistryDb) : Prop :=
  (registryMachine env).Reaches (fun _ _ => True) (registryStart clock) s

theorem RegistryRun.threadsSafe {env : EnrollmentEnv} {clock : Int} {s : RegistryDb}
    (h : RegistryRun env clock s) : ThreadsSafe registryRely (registryPost env) s :=
  reaches_threadsSafe (registry_protocol env) (registry_guarantees env _)
    (registryStart_safe env clock) h

end Centrald.Proofs
