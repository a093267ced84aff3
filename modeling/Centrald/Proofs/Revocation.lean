import Centrald.Proofs.IdentityCalls

/-!
# `Centrald.Proofs.Revocation`: revocations are permanent

`revoked_stays_revoked` is about every interleaving of the identity
calls, statement by statement. After the commit that revokes an identity
none of its certificates authenticates, and none is activated, whatever
else was under way. An activation locks the identity before it reads
`revoked_at`, so one that commits has seen the row as it is committed. A
renewal takes no such lock and can commit later; its certificate stays
pending.

Maintenance deletes identities that were not activated in time, revoked
ones among them. Identifiers are drawn once (`Uuid::now_v7`), so the row
does not come back (`Deleted`).
-/

set_option autoImplicit false

namespace Centrald.Proofs

open Durable Server

variable {env : EnrollmentEnv} {rows : Rows RegistryRow} {now clock : Int} {f id target t : Nat}
  {role : Role} {s : RegistryDb} {th : Thread RegistryRow RegistryCall CallError Unit}

/-- What the query of `authenticate` asks for. -/
theorem authenticated_eq_some (h : authenticated rows now f role = some id) :
    ∃ c i, rows (.certificate f) = some c ∧ rows (.identity id) = some i ∧ c.identity = id ∧
      c.activation = .active ∧ c.revoked = false ∧ now < c.expiresAt ∧
      (∀ r ∈ c.retireAt, now < r) ∧ i.role = role ∧ i.activation = .active ∧
      i.revoked = false := by
  unfold authenticated at h
  grind

/-- The commit revokes the identity. -/
def RevokesIdentity (e : Commit RegistryRow RegistryCall) (id : Nat) : Prop :=
  (∃ row, e.before (.identity id) = some row ∧ row.revoked = false) ∧
    ∃ row, e.after (.identity id) = some row ∧ row.revoked = true

/-- The commit activates the certificate `f` of the identity. -/
def ActivatesCertificate (e : Commit RegistryRow RegistryCall) (f id : Nat) : Prop :=
  (∃ c d, e.before (.certificate f) = some c ∧ c.activation = .pending d) ∧
    ∃ c, e.after (.certificate f) = some c ∧ c.identity = id ∧ c.activation = .active

/-- A certificate is activated by an activation of its identity only. -/
theorem CommitSpec.activation {c : RegistryCall} {L : Local RegistryRow} {x y : Certificate}
    {d : Int} (h : CommitSpec env c now L target) (hx : L.rows (.certificate f) = some x)
    (hpending : x.activation = .pending d) (hy : L.view (.certificate f) = some y)
    (hactive : y.activation = .active) :
    ∃ role, c = .activate target f role ∧ y.identity = target ∧ Activates now target f L := by
  have hne : L.view (.certificate f) ≠ L.rows (.certificate f) := by
    grind
  have hchange := h.certificateChange f
  rw [hx, hy] at hchange
  cases hchange with
  | same => exact absurd (hy.trans hx.symm) hne
  | activated hc hid =>
    subst hc
    refine ⟨_, rfl, hid, ?_⟩
    exact h.particular.2.2.resolve_left fun hsame => hne (hsame _)
  | retired _ _ _ hwas =>
    rw [hpending] at hwas
    cases hwas
  | revoked =>
    grind

/-- The identity is revoked, or was deleted. -/
def Gone (s : RegistryDb) (id : Nat) : Prop :=
  (∃ row, s.store.committed (.identity id) = some row ∧ row.revoked = true) ∨
    Deleted s (.identity id)

theorem Gone.revoked (h : Gone s id) {row : IdentityRow}
    (hrow : s.store.committed (.identity id) = some row) : row.revoked = true := by
  rcases h with ⟨row', hrow', hrevoked⟩ | ⟨-, hcell⟩
  · grind
  · unfold Store.committed at hrow
    rw [hcell] at hrow
    cases hrow

section

variable (h : Gone s id) (hspec : CommitSpec env th.call now (s.localOf t th) target)
include h hspec

theorem Gone.commit {next : Sql RegistryRow CallError Unit}
    (hstep : (registryMachine env).step s (.run t) = some (s.commit t th now next)) :
    Gone (s.commit t th now next) id := by
  rcases h with ⟨row, hrow, hrevoked⟩ | hdeleted
  · have hchange : IdentityChange th.call target id (s.store.committed (.identity id))
        (s.store.view t (.identity id)) := hspec.identityChange id
    generalize hb : s.store.view t (.identity id) = b at hchange
    rw [hrow] at hchange
    cases hchange with
    | same => exact .inl ⟨row, hb, hrevoked⟩
    | activated _ _ hunrevoked =>
      grind
    | revoked => exact .inl ⟨_, hb, rfl⟩
    | deleted => exact .inr (deleted_commit hb (hrow ▸ nofun))
  · exact .inr (hdeleted.step hstep)

/-- A commit does not activate what is gone. -/
theorem Gone.not_activated : (∀ f, ¬ActivatesCertificate (s.record t th now) f id) ∧
      ∀ f role, th.call ≠ .activate id f role := by
  have hcall : ∀ f role, th.call ≠ .activate id f role := by
    intro f role hc
    have hpart := hspec.particular
    rw [hc] at hpart
    obtain ⟨rfl, ⟨row, hrow, hunrevoked⟩, -⟩ := hpart
    rw [h.revoked hrow] at hunrevoked
    cases hunrevoked
  refine ⟨?_, hcall⟩
  rintro f ⟨⟨x, d, hx, hpending⟩, y, hy, hid, hactive⟩
  obtain ⟨role, hc, hid', -⟩ := hspec.activation hx hpending hy hactive
  grind

end

/-- Since the commit of a revocation the identity is gone, for every
commit that came later too. -/
theorem gone_since {before after : List (Commit RegistryRow RegistryCall)}
    {e : Commit RegistryRow RegistryCall}
    (h : RegistryRun env clock s)
    (hs : s.commits = before ++ e :: after) (he : RevokesIdentity e id) :
    Gone s id ∧ ∀ e' ∈ after, (∀ row, e'.before (.identity id) = some row → row.revoked = true) ∧
      (∀ f, ¬ActivatesCertificate e' f id) ∧ ∀ f role, e'.call ≠ .activate id f role := by
  refine reaches_since (registry_protocol env) (registry_guarantees env _)
    (registryStart_safe env clock) rfl (E := fun e => RevokesIdentity e id)
    (R := fun e => (∀ row, e.before (.identity id) = some row → row.revoked = true) ∧
      (∀ f, ¬ActivatesCertificate e f id) ∧ ∀ f role, e.call ≠ .activate id f role)
    (Q := fun s => Gone s id) ?_ ?_ ?_ h hs he
  · intro s l s' hstep hrows hgone
    unfold Gone
    rw [hrows]
    exact hgone.imp_right fun hdeleted => hdeleted.step hstep
  · exact fun s t th now next he => .inl he.2
  · intro s t th now next hstep ⟨target, hspec⟩ hgone
    exact ⟨hgone.commit hspec hstep, fun row => hgone.revoked, hgone.not_activated hspec⟩

/-- After the commit of a revocation no certificate of the identity
authenticates, at any time, and none is activated. -/
theorem revoked_stays_revoked {before after : List (Commit RegistryRow RegistryCall)}
    {e : Commit RegistryRow RegistryCall}
    (h : (registryMachine env).Reaches (fun _ _ => True) (registryStart clock) s)
    (hs : s.commits = before ++ e :: after) (he : RevokesIdentity e id) :
    (∀ now f role, authenticated s.store.committed now f role ≠ some id) ∧ ∀ e' ∈ after,
        (∀ f, ¬ActivatesCertificate e' f id) ∧ ∀ f role, e'.call ≠ .activate id f role := by
  obtain ⟨hgone, hafter⟩ := gone_since h hs he
  refine ⟨fun now f role hauth => ?_, fun e' he' => (hafter e' he').2⟩
  obtain ⟨_, i, -, hi, -, -, -, -, -, -, -, hunrevoked⟩ := authenticated_eq_some hauth
  rw [hgone.revoked hi] at hunrevoked
  cases hunrevoked

/-! ### A run -/

/-- An environment with two invitations for clients and two for Admins,
whose secrets are their own hashes. -/
def sampleEnrollment : EnrollmentEnv where
  instanceId := 1
  parseEnrollmentInvitation
    | "key" => some ⟨7, 1, .client, "alpha", 1000000000000⟩
    | "key2" => some ⟨8, 1, .client, "alpha", 1000000000000⟩
    | "admin" => some ⟨9, 1, .admin, "alpha", 1000000000000⟩
    | "admin2" => some ⟨10, 1, .admin, "alpha", 1000000000000⟩
    | _ => none
  verifyEnrollmentKey secret hash := secret = hash
  decodeCsr _ := .ok "csr"
  issueIdentityCsr _ _ _ _ serial := some ⟨serial, 40000000000000000⟩

/-- Call `t` from its start, with its first `n` steps. -/
def callSteps (t : Nat) (c : RegistryCall) (n : Nat) : List (DbLabel RegistryCall) :=
  .call t c :: List.replicate n (.run t)

/-- Somebody enrolls with a new invitation, under the identity `id` and
with the certificate `f`. -/
def enrollSteps (role : Role) (key : Nat) (secret : String) (id f : Nat) :
    List (DbLabel RegistryCall) :=
  callSteps 0 (.createEnrollmentKeyBounded role key "alpha" secret 1000000000000) 7 ++
    callSteps 0 (.enroll ⟨role, secret, [], "alpha", none, id, f⟩) 16

/-- Identity 20 enrolls with certificate 30 and activates it. -/
def sampleEnrolled : List (DbLabel RegistryCall) :=
  enrollSteps .client 7 "key" 20 30 ++ callSteps 0 (.activate 20 30 .client) 16

/-- The identity is revoked while its renewal is under way, and the
renewal commits after that. -/
theorem revoked_stays_revoked_renewal : ∃ s before e after,
      (registryMachine sampleEnrollment).Reaches (fun _ _ => True) (registryStart 0) s ∧
      s.commits = before ++ e :: after ∧ RevokesIdentity e 20 ∧
      (s.store.committed (.certificate 31)).isSome ∧
      ∀ now f role, authenticated s.store.committed now f role ≠ some 20 := by
  have hrun : ((registryMachine sampleEnrollment).run (fun _ _ => true) (registryStart 0)
      (sampleEnrolled ++ callSteps 1 (.renewCertificate 30 .client [] 31) 5 ++
        callSteps 0 (.revokeIdentityRecord .client 20) 11 ++ List.replicate 5 (.run 1))).map
      (fun s => (s.commits[3]?.map fun e =>
          ((e.before (.identity 20)).map (·.revoked), (e.after (.identity 20)).map (·.revoked)),
        (s.store.committed (.certificate 31)).isSome)) =
      some (some (some false, some true), true) := by
    decide +kernel
  obtain ⟨s, hreach, hview⟩ := Machine.exists_of_view hrun
  obtain ⟨hcommit, hcert⟩ := Prod.mk.inj hview
  obtain ⟨e, he, hrows⟩ := Option.map_eq_some_iff.1 hcommit
  obtain ⟨hbefore, hafter⟩ := Prod.mk.inj hrows
  obtain ⟨before, after, hsplit⟩ := List.append_of_mem (List.mem_of_getElem? he)
  have hrevokes : RevokesIdentity e 20 :=
    ⟨Option.map_eq_some_iff.1 hbefore, Option.map_eq_some_iff.1 hafter⟩
  exact ⟨s, before, e, after, hreach, hsplit, hrevokes, hcert,
    (revoked_stays_revoked hreach hsplit hrevokes).1⟩

end Centrald.Proofs
