import Mathlib.Data.List.Pairwise
import Centrald.Proofs.Revocation

/-!
# `Centrald.Proofs.Invitations`: an invitation is used once

`enroll` checks the secret before its transaction, then locks the row of
the invitation and checks it again. Every change of an invitation is made
under its row lock, so the enrollment that commits found it unconsumed
and unrevoked, and the next one finds it consumed. When maintenance
deletes the identity, `consumed_by` is cleared and `consumed_at` stays.

The expiry is different. The row does not change when it expires, and
nothing is checked at the commit: `NOW()` in the last `UPDATE` is the
start of the transaction. An enrollment that has checked the row in time
can therefore commit later (`enrollment_commits_after_expiry`). Once the
invitation has expired and no transaction has it locked, it yields
nothing (`LockedSince`).
-/

set_option autoImplicit false

namespace Centrald.Proofs

open Durable Server

variable {env : EnrollmentEnv} {c : RegistryCall} {now clock : Int} {key target t : Nat}
  {L : Local RegistryRow} {s s' : RegistryDb}
  {commits : List (Commit RegistryRow RegistryCall)}

/-! ### What a commit makes of an invitation -/

variable {row : Invitation}

/-- An invitation that was there stays, with its expiry, and its
consumption and its revocation stay. -/
theorem CommitSpec.invitation (h : CommitSpec env c now L target)
    (hrow : L.rows (.invitation key) = some row) :
    ∃ row', L.view (.invitation key) = some row' ∧ row'.expiresAt = row.expiresAt ∧
      (row.consumedAt.isSome → row'.consumedAt.isSome) ∧
      (row.revokedAt.isSome → row'.revokedAt.isSome) := by
  obtain ⟨since, hchange⟩ := h.invitationChange key
  rw [hrow] at hchange
  generalize L.view (.invitation key) = b at hchange
  cases hchange with
  | same => exact ⟨row, rfl, rfl, fun h => h, fun h => h⟩
  | consumed | revoked | unlinked =>
    exact ⟨_, rfl, rfl, fun h => by first | exact h | rfl, fun h => by first | exact h | rfl⟩

/-- An enrollment found its invitation unconsumed and unrevoked, has it
locked since before it expired, and consumes it. -/
theorem CommitSpec.consumes (h : CommitSpec env c now L target) (hc : Consumes env c key) :
    ∃ since row row', L.Owns (.invitation key) since (some row) (some row') ∧
      row.consumedAt = none ∧ row.revokedAt = none ∧ since < row.expiresAt ∧
      row'.consumedAt.isSome := by
  obtain ⟨request, claims, rfl, hparse, rfl⟩ := hc
  obtain ⟨claims', since, row, hparse', hconsumed, hrevoked, hsince, howns, -⟩ := h.particular
  grind

/-! ### Single use -/

/-- The invitation was consumed by one commit at most, and shows it. -/
structure UsedOnce (env : EnrollmentEnv) (key : Nat) (rows : Rows RegistryRow)
    (commits : List (Commit RegistryRow RegistryCall)) : Prop where
  shown : ∀ e ∈ commits, Consumes env e.call key →
    ∃ row, rows (.invitation key) = some row ∧ row.consumedAt.isSome
  once : commits.Pairwise fun e e' => ¬(Consumes env e.call key ∧ Consumes env e'.call key)

/-- A commit of an enrollment consumes an invitation that nobody consumed
before. -/
theorem UsedOnce.commit (hI : UsedOnce env key L.rows commits) (h : CommitSpec env c now L target) :
    UsedOnce env key L.view (commits ++ [⟨c, now, L.clock, L.rows, L.view⟩]) where
  shown e he hc := by
    rcases List.mem_append.1 he with hold | hnew
    · obtain ⟨row, hrow, hconsumed⟩ := hI.shown e hold hc
      obtain ⟨row', hrow', -, hstays, -⟩ := h.invitation hrow
      exact ⟨row', hrow', hstays hconsumed⟩
    · cases List.mem_singleton.1 hnew
      obtain ⟨_, _, row', howns, -, -, -, hconsumed⟩ := h.consumes hc
      exact ⟨row', howns.view, hconsumed⟩
  once := by
    rw [List.pairwise_append]
    refine ⟨hI.once, List.pairwise_singleton _ _, ?_⟩
    intro e he e' he' ⟨hc, hc'⟩
    cases List.mem_singleton.1 he'
    -- the earlier one has left its mark on the row that the later one found unconsumed
    obtain ⟨row, hrow, hconsumed⟩ := hI.shown e he hc
    obtain ⟨_, row', _, howns, hunconsumed, -⟩ := h.consumes hc'
    cases hrow.symm.trans howns.rows
    grind

theorem usedOnce (h : RegistryRun env clock s)
    (key : Nat) : UsedOnce env key s.store.committed s.commits := by
  refine reaches_invariant (registry_protocol env) (registry_guarantees env _)
    (registryStart_safe env clock) (I := fun _ rows commits => UsedOnce env key rows commits)
    ⟨List.forall_mem_nil _, .nil⟩ (fun _ _ _ _ _ hI => hI) ?_ h
  intro c now L commits ⟨target, hspec⟩ hI
  exact hI.commit hspec

/-- The commit creates an identity with the invitation. -/
structure YieldsIdentity (env : EnrollmentEnv) (e : Commit RegistryRow RegistryCall)
    (key id : Nat) : Prop where
  consumes : Consumes env e.call key
  absent : e.before (.identity id) = none
  created : (e.after (.identity id)).isSome

variable {e : Commit RegistryRow RegistryCall}

/-- An enrollment creates the identity of its request only. -/
theorem YieldsIdentity.eq {id : Nat} (h : RegistryRun env clock s)
    (he : e ∈ s.commits) (hy : YieldsIdentity env e key id) :
    ∃ request, e.call = .enroll request ∧ request.identityId = id := by
  obtain ⟨L, ⟨target, hspec⟩, -, hbefore, hafter⟩ := reaches_commits (registry_protocol env)
    (registry_guarantees env _) (registryStart_safe env clock) rfl h e he
  have habsent := hbefore ▸ hy.absent
  have hcreated := hafter ▸ hy.created
  have hchange := hspec.identityChange id
  rw [habsent] at hchange
  generalize L.view (.identity id) = b at hchange hcreated
  cases hchange with
  | same => cases hcreated
  | enrolled hc hid => exact ⟨_, hc, hid⟩

/-! ### Never both consumed and revoked -/

theorem unconsumed_or_unrevoked
    (h : RegistryRun env clock s) (hrow : s.store.committed (.invitation key) = some row) :
    row.consumedAt = none ∨ row.revokedAt = none := by
  revert hrow
  refine reaches_invariant (registry_protocol env) (registry_guarantees env _)
    (registryStart_safe env clock) (I := fun _ rows _ =>
      ∀ row, rows (.invitation key) = some row → row.consumedAt = none ∨ row.revokedAt = none)
    ?_ (fun _ _ _ _ _ hI => hI) ?_ h row
  · intro row hrow
    cases hrow
  · intro c now L _ ⟨target, hspec⟩ hI row hrow
    obtain ⟨since, hchange⟩ := hspec.invitationChange key
    rw [hrow] at hchange
    generalize L.rows (.invitation key) = a at hchange hI
    cases hchange with
    | same => exact hI row rfl
    | created => exact .inl rfl
    | consumed _ _ hrevoked => exact .inr hrevoked
    | revoked _ hconsumed => exact .inl hconsumed
    | @unlinked row0 => exact hI row0 rfl

/-! ### After a revocation -/

/-- The commit leaves the invitation revoked. -/
def LeavesRevoked (e : Commit RegistryRow RegistryCall) (key : Nat) : Prop :=
  ∃ row, e.after (.invitation key) = some row ∧ row.revokedAt.isSome

theorem not_consumes_of_leavesRevoked (h : RegistryRun env clock s)
    {before after : List (Commit RegistryRow RegistryCall)}
    (hs : s.commits = before ++ e :: after) (he : LeavesRevoked e key) :
    ∀ e' ∈ after, ¬Consumes env e'.call key := by
  refine (reaches_since (registry_protocol env) (registry_guarantees env _)
    (registryStart_safe env clock) rfl (E := fun e => LeavesRevoked e key)
    (R := fun e => ¬Consumes env e.call key)
    (Q := fun s => ∃ row, s.store.committed (.invitation key) = some row ∧ row.revokedAt.isSome)
    ?_ (fun _ _ _ _ _ he => he) ?_ h hs he).2
  · intro s l s' _ hrows hrevoked
    rw [hrows]
    exact hrevoked
  · intro s t th now next _ ⟨target, hspec⟩ ⟨row, hrow, hrevoked⟩
    constructor
    · obtain ⟨row', hrow', -, -, hstays⟩ := hspec.invitation hrow
      exact ⟨row', hrow', hstays hrevoked⟩
    · intro hc
      obtain ⟨_, row', _, howns, -, hunrevoked, -⟩ := hspec.consumes hc
      cases hrow.symm.trans howns.rows
      grind

/-! ### After the expiry -/

/-- An expired invitation that nobody has locked since before the expiry
is not consumed any more. -/
theorem not_consumes_of_expired
    (h : RegistryRun env clock s) (hrow : s.store.committed (.invitation key) = some row)
    (hexpired : LockedSince row.expiresAt s (.invitation key))
    (h' : (registryMachine env).Reaches (fun _ _ => True) s s') :
    ∃ rest, s'.commits = s.commits ++ rest ∧ ∀ e ∈ rest, ¬Consumes env e.call key := by
  refine (reaches_induction (registry_protocol env) (registry_guarantees env _) h.threadsSafe
    (I := fun s' => LockedSince row.expiresAt s' (.invitation key) ∧
      (∃ row', s'.store.committed (.invitation key) = some row' ∧ row'.expiresAt = row.expiresAt) ∧
      ∃ rest, s'.commits = s.commits ++ rest ∧ ∀ e ∈ rest, ¬Consumes env e.call key)
    ?_ ?_ ?_ h').2.2
  · exact ⟨hexpired, ⟨row, hrow, rfl⟩, [], (List.append_nil _).symm, List.forall_mem_nil _⟩
  · intro s l s' hstep hrows hcommits ⟨hlock, hrow, hrest⟩
    rw [hrows, hcommits]
    exact ⟨hlock.step hstep, hrow, hrest⟩
  · intro s1 t th now next hstep ⟨target, hspec⟩ ⟨hlock, ⟨row', hrow', hexpires⟩, rest, hs, hrest⟩
    refine ⟨hlock.step hstep, ?_, rest ++ [s1.record t th now], ?_, ?_⟩
    · obtain ⟨row'', hrow'', hsame, -⟩ := hspec.invitation hrow'
      exact ⟨row'', hrow'', hsame.trans hexpires⟩
    · rw [← List.append_assoc, ← hs]
      rfl
    · refine List.forall_mem_append.2 ⟨hrest, List.forall_mem_singleton.2 fun hc => ?_⟩
      -- it would have been locked before the expiry
      obtain ⟨since, row0, _, howns, -, -, hsince, -⟩ := hspec.consumes hc
      cases hrow'.symm.trans howns.rows
      have hle := hlock.held howns.held
      dsimp only at hle
      omega

/-! ### Enrollments that fail -/

theorem commitsLast_appendAuditNote {actorId targetId : Option Nat} {actorLabel action : String} :
    (appendAuditNote actorId actorLabel action targetId >>= fun _ =>
      (Sql.commitTransaction : RegistrySql Unit)).CommitsLast :=
  fun _ _ => ⟨(), rfl⟩

theorem commitsLast_insertRow {k : RegistryKey} {row : RegistryRow k} {e : CallError}
    {g : Unit → RegistrySql Unit} (h : (g ()).CommitsLast) :
    (Sql.insertRow k row e >>= g).CommitsLast := by
  intro new
  cases new with
  | true => exact h
  | false => trivial

theorem commitsLast_query {γ : Type} {f : Int → Snapshot RegistryRow → γ}
    {g : γ → RegistrySql Unit} (h : ∀ a, (g a).CommitsLast) :
    (Sql.query f >>= g).CommitsLast :=
  fun now s => h (f now s)

theorem commitsLast_selectForUpdate {keys : List RegistryKey} {joined : Rows RegistryRow → Bool}
    {g : Option (Rows RegistryRow) → RegistrySql Unit} (h : ∀ a, (g a).CommitsLast) :
    (Sql.selectForUpdate keys joined >>= g).CommitsLast :=
  fun ks rows => h (if ks = [] then none else some rows)

theorem commitsLast_enrollRows {request : EnrollRequest} {claims : InvitationClaims}
    {issued : IssuedCertificate} : (enrollRows request claims issued).CommitsLast := by
  intro now
  refine commitsLast_insertRow (commitsLast_insertRow ?_)
  have hconsume : (Sql.execute (consumeInvitation claims.id request.identityId) >>= fun consumed =>
      if consumed.length ≠ 1 then .fail invalidKey
      else do
        appendAuditNote (some request.identityId) (roleName request.role)
          "identity.enroll_pending" (some request.identityId)
        (Sql.commitTransaction : RegistrySql Unit)).CommitsLast := by
    intro ks rows
    show Sql.CommitsLast (if ks.length ≠ 1 then _ else _)
    split
    · trivial
    · exact commitsLast_appendAuditNote
  unfold insertClient
  split
  · exact commitsLast_insertRow hconsume
  · exact hconsume

theorem commitsLast_enrollTransaction {request : EnrollRequest} {claims : InvitationClaims}
    {csr expectedHash : String} :
    (enrollTransaction env request claims csr expectedHash).CommitsLast := by
  show (Sql.selectForUpdate [.invitation claims.id] (fun _ => true) >>= _).CommitsLast
  refine commitsLast_selectForUpdate fun found => ?_
  split
  · trivial
  · intro now
    show Sql.CommitsLast (ite _ _ _)
    split
    · trivial
    · split
      · trivial
      · exact commitsLast_enrollRows

/-- Nothing is written after the commit of an enrollment. -/
theorem commitsLast_enroll (request : EnrollRequest) : (enroll env request).CommitsLast := by
  unfold enroll
  split
  · trivial
  split
  · trivial
  intro now
  show Sql.CommitsLast (ite _ _ _)
  split
  · trivial
  split
  · trivial
  split
  · trivial
  refine commitsLast_query fun candidate => ?_
  split
  · trivial
  intro now
  show Sql.CommitsLast (ite _ _ _)
  split
  · trivial
  split
  · trivial
  · exact commitsLast_enrollTransaction

/-! ### The main result -/

/-- The enrollment checks the row one second before it expires and commits
a second later. -/
theorem enrollment_commits_after_expiry :
    ∃ s e row, (registryMachine sampleEnrollment).Reaches (fun _ _ => True) (registryStart 0) s ∧
      e ∈ s.commits ∧ YieldsIdentity sampleEnrollment e 7 20 ∧
      e.before (.invitation 7) = some row ∧ row.expiresAt ≤ e.time := by
  have hrun : ((registryMachine sampleEnrollment).run (fun _ _ => true) (registryStart 0)
      (callSteps 0 (.createEnrollmentKeyBounded .client 7 "alpha" "key" 1000000000000) 7 ++
        [.tick 999000000000] ++
        callSteps 0 (.enroll ⟨.client, "key", [], "alpha", none, 20, 30⟩) 10 ++
        [.tick 1000000000] ++ List.replicate 6 (.run 0))).map
      (fun s => s.commits[1]?.map fun e => (e.call, e.time,
        (e.before (.invitation 7)).map (·.expiresAt), (e.before (.identity 20)).isSome,
        (e.after (.identity 20)).isSome)) =
      some (some (.enroll ⟨.client, "key", [], "alpha", none, 20, 30⟩, 1000000000000,
        some 1000000000000, false, true)) := by
    decide +kernel
  obtain ⟨s, hreach, hview⟩ := Machine.exists_of_view hrun
  obtain ⟨e, he, hrecord⟩ := Option.map_eq_some_iff.1 hview
  simp only [Prod.mk.injEq, Option.map_eq_some_iff] at hrecord
  obtain ⟨hcall, htime, ⟨row, hrow, hexpires⟩, habsent, hcreated⟩ := hrecord
  refine ⟨s, e, row, hreach,
    List.mem_of_getElem? he, ⟨⟨_, _, hcall, rfl, rfl⟩, ?_, hcreated⟩, hrow, ?_⟩
  · exact Option.not_isSome_iff_eq_none.1 (Bool.eq_false_iff.1 habsent)
  · rw [hexpires, htime]

/-- In every reachable state, for every invitation: at most one commit
consumed it, and at most one identity came of it; it is not both consumed
and revoked; after its revocation it is not consumed, nor after its
expiry, unless it was locked before; and an enrollment that has not
succeeded has changed nothing. -/
theorem invitation_single_use
    (h : (registryMachine env).Reaches (fun _ _ => True) (registryStart clock) s) (key : Nat) :
    (s.commits.Pairwise fun e e' => ¬(Consumes env e.call key ∧ Consumes env e'.call key)) ∧
    (∀ e ∈ s.commits, ∀ e' ∈ s.commits, ∀ id id', YieldsIdentity env e key id →
      YieldsIdentity env e' key id' → id = id') ∧
    (∀ row, s.store.committed (.invitation key) = some row →
      row.consumedAt = none ∨ row.revokedAt = none) ∧
    (∀ before e after, s.commits = before ++ e :: after → LeavesRevoked e key →
      ∀ e' ∈ after, ¬Consumes env e'.call key) ∧
    (∀ row s', s.store.committed (.invitation key) = some row →
      LockedSince row.expiresAt s (.invitation key) →
      (registryMachine env).Reaches (fun _ _ => True) s s' →
      ∃ rest, s'.commits = s.commits ++ rest ∧ ∀ e ∈ rest, ¬Consumes env e.call key) ∧
    ∀ t request th s', s.threads t = some ⟨.enroll request, none, 0, none, enroll env request⟩ →
      (registryMachine env).Reaches (fun _ l => ∀ c, l ≠ .call t c) s s' →
      s'.threads t = some th → (∀ a, th.prog ≠ .ret a) →
      UnchangedBy (RegistryCall.body env) t s s' := by
  have honce := (usedOnce h key).once
  refine ⟨honce, ?_, fun _ => unconsumed_or_unrevoked h,
    fun _ _ _ => not_consumes_of_leavesRevoked h, fun _ _ hrow hexpired h' =>
    not_consumes_of_expired h hrow hexpired h', fun t request th s' hth h' hth' hfail =>
    reaches_unchangedBy hth (commitsLast_enroll request) h' hth' hfail⟩
  intro e he e' he' id id' hy hy'
  have hsame : e = e' := by
    by_contra hne
    have : Std.Symm fun e e' : Commit RegistryRow RegistryCall =>
        ¬(Consumes env e.call key ∧ Consumes env e'.call key) := ⟨fun _ _ hn hc => hn hc.symm⟩
    exact honce.forall he he' hne ⟨hy.consumes, hy'.consumes⟩
  obtain ⟨request, hcall, rfl⟩ := hy.eq h he
  obtain ⟨request', hcall', rfl⟩ := hy'.eq h he'
  grind

/-- The identity was not activated in time, and maintenance has deleted
it. The invitation stays consumed. -/
theorem invitation_single_use_after_maintenance :
    ∃ s, (registryMachine sampleEnrollment).Reaches (fun _ _ => True) (registryStart 0) s ∧
      s.store.committed (.identity 20) = none ∧
      (∃ row, s.store.committed (.invitation 7) = some row ∧ row.consumedAt.isSome) ∧
      s.commits.Pairwise fun e e' =>
        ¬(Consumes sampleEnrollment e.call 7 ∧ Consumes sampleEnrollment e'.call 7) := by
  have hrun : ((registryMachine sampleEnrollment).run (fun _ _ => true) (registryStart 0)
      (enrollSteps .client 7 "key" 20 30 ++ [.tick 90000000000000] ++
        callSteps 0 .maintenance 15)).map
      (fun s => (s.store.committed (.identity 20),
        (s.store.committed (.invitation 7)).map (·.consumedAt.isSome))) =
      some (none, some true) := by
    decide +kernel
  obtain ⟨s, hreach, hview⟩ := Machine.exists_of_view hrun
  obtain ⟨hidentity, hinvitation⟩ := Prod.mk.inj hview
  exact ⟨s, hreach, hidentity, Option.map_eq_some_iff.1 hinvitation,
    (invitation_single_use hreach 7).1⟩

end Centrald.Proofs
