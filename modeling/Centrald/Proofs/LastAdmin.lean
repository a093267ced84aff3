import Centrald.Proofs.Revocation

/-!
# `Centrald.Proofs.LastAdmin`: the protection of the last Admin

`revoke_identity_record` takes an advisory lock, counts the active Admins
and refuses if there is at most one. All revocations of Admins go through
it, so the count cannot fall while the lock is held, and
`activeAdmin_stays` follows for every interleaving: once there is an
active Admin there always is one.

The count does not look at the identity that is to be revoked. An Admin
that was never activated, or is revoked already, does not count, and its
revocation takes no active Admin away. While exactly one other Admin is
active it is refused all the same, as that of the last one
(`pending_admin_refused`). `last_admin_protected` says that this is the
only case where the refusal is wrong.
-/

set_option autoImplicit false

namespace Centrald.Proofs

open Durable Server

variable {env : EnrollmentEnv} {c : RegistryCall} {now clock : Int} {id target t : Nat}
  {L : Local RegistryRow} {s s' : RegistryDb}
  {th : Thread RegistryRow RegistryCall CallError Unit}

/-- The identity is an activated and unrevoked Admin. -/
def ActiveAdmin (rows : Rows RegistryRow) (id : Nat) : Prop :=
  ∃ row, rows (.identity id) = some row ∧ row.activeAdmin

/-! ### One Admin stays -/

theorem CommitSpec.activeAdmin (h : CommitSpec env c now L target)
    (hadmin : ∃ id, ActiveAdmin L.rows id) : ∃ id, ActiveAdmin L.view id := by
  obtain ⟨id, row, hrow, hactive⟩ := hadmin
  rcases h.keepsAdmin hrow hactive with hkept | ⟨rfl, rfl⟩
  · exact ⟨id, hkept⟩
  · -- this Admin goes, and the count has found another one
    have hother : ∃ j, j ≠ id ∧ ActiveAdmin L.rows j := by
      obtain ⟨-, -, i, j, row1, row2, hne, hi, hi', hj, hj'⟩ := h.particular
      by_cases heq : i = id
      · exact ⟨j, heq ▸ hne.symm, row2, hj, hj'⟩
      · exact ⟨i, heq, row1, hi, hi'⟩
    obtain ⟨j, hj, row', hrow', hactive'⟩ := hother
    exact ⟨j, (h.keepsAdmin hrow' hactive').resolve_right fun h => hj h.1⟩

theorem activeAdmin_stays (h : RegistryRun env clock s)
    (hadmin : ∃ id, ActiveAdmin s.store.committed id)
    (h' : (registryMachine env).Reaches (fun _ _ => True) s s') :
    ∃ id, ActiveAdmin s'.store.committed id :=
  reaches_invariant (registry_protocol env) (registry_guarantees env _) h.threadsSafe
    (I := fun _ rows _ => ∃ id, ActiveAdmin rows id) hadmin (fun _ _ _ _ _ hI => hI)
    (fun _ _ _ _ ⟨_, hspec⟩ hI => hspec.activeAdmin hI) h'

/-! ### The count -/

/-- What is left of the call when it counts. -/
def countCheck (identity : Nat) : RegistrySql Unit :=
  Sql.query (fun _ s => countActiveAdmins s) >>= fun activeAdmins =>
    if activeAdmins ≤ 1 then .fail lastActiveAdmin else revokeRecordRows .admin identity

/-- `SELECT pg_advisory_xact_lock($1)`. -/
def lockStatement : Statement RegistryRow where
  selects rows k := [RegistryKey.revocationLock].all (fun k => (rows k).isSome) && true &&
    k ∈ [RegistryKey.revocationLock]
  set _ row := some row

/-- What is left of the call when it takes the lock. -/
def lockCheck (identity : Nat) : RegistrySql Unit :=
  .modify (fun _ => lockStatement) fun ks _ =>
    if ks = [] then .fail internalFailure else countCheck identity

theorem revokeIdentityRecord_admin (identity : Nat) :
    revokeIdentityRecord .admin identity = .begin (lockCheck identity) := by
  refine congrArg Sql.begin (congrArg (Sql.modify _) (funext₂ fun ks rows => ?_))
  by_cases hks : ks = []
  · rw [hks]
    rfl
  · simp only [if_neg hks]
    rfl

/-- Where the call stands before it has counted: it has no other lock. -/
structure CountStage (s : RegistryDb) (t : Nat)
    (th : Thread RegistryRow RegistryCall CallError Unit) (id : Nat) : Prop where
  lock : th.phase = 0 → (th.prog = .begin (lockCheck id) ∨ th.prog = lockCheck id) ∧
    ∀ k, s.store.held t k = none
  count : th.phase = 1 → (th.prog = countCheck id ∨ th.prog = .fail internalFailure) ∧
    ∀ k, k ≠ .revocationLock → s.store.held t k = none

theorem held_lockStatement {k : RegistryKey} (hk : k ≠ .revocationLock) (ks : List RegistryKey)
    (hheld : s.store.held t k = none) :
    (s.store.write t s.clock (s.store.matching t lockStatement ks) lockStatement.set).held t k =
      none := by
  rw [s.store.held_write_self]
  have hnot : k ∉ s.store.matching t lockStatement ks := by
    intro hmem
    have htest := (List.mem_filter.1 hmem).2
    simp only [lockStatement, Bool.and_eq_true, decide_eq_true_eq, List.mem_singleton] at htest
    exact hk htest.2.2
  simp only [if_neg hnot]
  exact hheld

variable {th' : Thread RegistryRow RegistryCall CallError Unit}

/-- A statement of the call: before it has counted it takes the revocation
lock alone. -/
theorem CountStage.run (h : CountStage s t th id) (hrun : s.runThread t th = some s')
    (hth' : s'.threads t = some th') : CountStage s' t th' id := by
  have hself : ∀ {o : Option (Thread RegistryRow RegistryCall CallError Unit)},
      Function.update s.threads t o t = some th' → o = some th' :=
    fun h => (Function.update_self t _ s.threads).symm.trans h
  match hphase : th.phase with
  | 0 =>
    obtain ⟨hprog | hprog, hheld⟩ := h.lock hphase
    · -- the transaction begins
      unfold Db.runThread at hrun
      rw [hprog] at hrun
      cases hrun
      cases hself hth'
      exact ⟨fun _ => ⟨.inr rfl, hheld⟩, fun h => absurd (hphase.symm.trans h) (by decide)⟩
    · unfold Db.runThread at hrun
      rw [hprog] at hrun
      dsimp only [lockCheck] at hrun
      split at hrun
      · cases hrun
      · -- the lock statement looks for its row
        cases hrun
        cases hself hth'
        exact ⟨fun _ => ⟨.inr rfl, hheld⟩, fun h => absurd (hphase.symm.trans h) (by decide)⟩
      · -- it takes the lock
        split_ifs at hrun
        all_goals
          cases hrun
          cases hself hth'
          refine ⟨fun h => absurd h (Nat.succ_ne_zero _), fun _ => ⟨?_, fun k hk =>
            held_lockStatement hk _ (hheld k)⟩⟩
        · exact .inr rfl
        · exact .inl rfl
  | 1 =>
    -- it counts
    obtain ⟨hprog | hprog, -⟩ := h.count hphase
    · unfold Db.runThread at hrun
      rw [hprog] at hrun
      cases hrun
      cases hself hth'
      dsimp only
      rw [hphase]
      exact ⟨nofun, nofun⟩
    · unfold Db.runThread at hrun
      rw [hprog] at hrun
      cases hrun
      cases hself hth'
  | n + 2 =>
    have hle := (phase_le_of_run hrun hth').2
    exact ⟨fun h => by omega, fun h => by omega⟩

/-- In every run a revocation of an Admin is at one of these stages. -/
theorem countStage (h : RegistryRun env clock s)
    (hth : s.threads t = some th) (hcall : th.call = .revokeIdentityRecord .admin id) :
    CountStage s t th id := by
  induction h generalizing th with
  | refl => cases hth
  | @tail s s' l hreach _ hstep ih =>
    have hsafe := RegistryRun.threadsSafe hreach
    by_cases hl : l = .run t
    · subst hl
      rcases Db.step_cases hstep with ⟨d, hl, -⟩ | ⟨u, c, hl, -⟩ | ⟨u, th0, hl, hth0, hrun⟩ |
        ⟨u, hl, -⟩ <;> cases hl
      exact (ih hth0 ((phase_le_of_run hrun hth).1.symm.trans hcall)).run hrun hth
    by_cases habort : l = .abort t
    · subst habort
      rcases Db.step_cases hstep with ⟨d, hl, -⟩ | ⟨u, c, hl, -⟩ | ⟨u, th, hl, -⟩ |
        ⟨u, hl, rfl⟩ <;> cases hl
      cases (Function.update_self t _ s.threads).symm.trans hth
    by_cases hcalls : ∃ c, l = .call t c
    · obtain ⟨c, rfl⟩ := hcalls
      rcases Db.step_cases hstep with ⟨d, hl, -⟩ | ⟨u, c, hl, hnone, rfl⟩ | ⟨u, th0, hl, -⟩ |
        ⟨u, hl, -⟩ <;> cases hl
      cases (Function.update_self t _ s.threads).symm.trans hth
      subst hcall
      exact ⟨fun _ => ⟨.inl (revokeIdentityRecord_admin id),
        fun k => congrFun (hsafe.idle t hnone) k⟩, nofun⟩
    · obtain ⟨hthreads, hheld⟩ := step_other hstep (fun c hc => hcalls ⟨c, hc⟩) hl habort
      have hstage := ih (hthreads.symm.trans hth) hcall
      exact ⟨fun h => hheld ▸ hstage.lock h, fun h => hheld ▸ hstage.count h⟩

/-! ### The main result -/

/-- The count refuses if at most one Admin is active. -/
theorem countCheck_step
    (hstage : CountStage s t th id) (hphase : th.phase = 1) (hrun : s.runThread t th = some s')
    (hth' : s'.threads t = some th') : th'.prog = .fail lastActiveAdmin ↔
      ∀ i j, ActiveAdmin s.store.committed i → ActiveAdmin s.store.committed j → i = j := by
  obtain ⟨hprog | hprog, hheld⟩ := hstage.count hphase
  · -- the statement sees the committed identities
    have hview : ∀ i, s.store.view t (.identity i) = s.store.committed (.identity i) := fun i =>
      Local.view_of_held_eq_none (L := s.localOf t th) (hheld _ nofun)
    have hpair := two_le_countActiveAdmins (s := s.store.snapshot t)
    simp only [show (s.store.snapshot t).row = s.store.view t from rfl, hview] at hpair
    unfold Db.runThread at hrun
    rw [hprog] at hrun
    cases hrun
    cases (Function.update_self t _ s.threads).symm.trans hth'
    show (if countActiveAdmins (s.store.snapshot t) ≤ 1 then Sql.fail lastActiveAdmin
      else revokeRecordRows .admin id) = _ ↔ _
    constructor
    · intro hrefused i j ⟨row, hi⟩ ⟨row', hj⟩
      by_contra hne
      rw [if_neg (Nat.not_le.2 (hpair.2 ⟨i, j, row, row', hne, hi.1, hi.2, hj.1, hj.2⟩))]
        at hrefused
      cases hrefused
    · intro honly
      refine if_pos (Nat.not_lt.1 fun hlt => ?_)
      obtain ⟨i, j, row, row', hne, hi, hi', hj, hj'⟩ := hpair.1 hlt
      exact hne (honly i j ⟨row, hi, hi'⟩ ⟨row', hj, hj'⟩)
  · unfold Db.runThread at hrun
    rw [hprog] at hrun
    cases hrun
    cases (Function.update_self t _ s.threads).symm.trans hth'

/-- An Admin that was not activated, with one active Admin beside it. Its
revocation is refused. -/
theorem pending_admin_refused :
    ∃ s th row, (registryMachine sampleEnrollment).Reaches (fun _ _ => True) (registryStart 0) s ∧
      s.store.committed (.identity 41) = some row ∧ row.role = .admin ∧
      ActiveAdmin s.store.committed 40 ∧ s.threads 0 = some th ∧
      th.call = .revokeIdentityRecord .admin 41 ∧ th.prog = .fail lastActiveAdmin := by
  have hrun : ((registryMachine sampleEnrollment).run (fun _ _ => true) (registryStart 0)
      (enrollSteps .admin 9 "admin" 40 50 ++ callSteps 0 (.activate 40 50 .admin) 16 ++
        enrollSteps .admin 10 "admin2" 41 51 ++
        callSteps 0 (.revokeIdentityRecord .admin 41) 4)).map
      (fun s => ((s.store.committed (.identity 41)).map (·.role),
        (s.store.committed (.identity 40)).map IdentityRow.activeAdmin,
        (s.threads 0).map fun th => (th.call, match th.prog with
          | .fail e => some e
          | _ => none))) =
      some (some .admin, some true, some (.revokeIdentityRecord .admin 41,
        some lastActiveAdmin)) := by
    decide +kernel
  obtain ⟨s, hreach, hview⟩ := Machine.exists_of_view hrun
  simp only [Prod.mk.injEq, Option.map_eq_some_iff] at hview
  obtain ⟨⟨row, hrow, hrole⟩, hadmin, th, hth, hcall, hprog⟩ := hview
  refine ⟨s, th, row, hreach, hrow, hrole, hadmin, hth, hcall, ?_⟩
  grind

/-- In every run an active Admin stays. The count of a revocation refuses
no Admin wrongly, exactly if the identity is an active Admin itself or
the number of active Admins is not one. -/
theorem last_admin_protected
    (h : (registryMachine env).Reaches (fun _ _ => True) (registryStart clock) s) :
    (∀ s', (registryMachine env).Reaches (fun _ _ => True) s s' →
      (∃ id, ActiveAdmin s.store.committed id) → ∃ id, ActiveAdmin s'.store.committed id) ∧
    ∀ t id th s' th', s.threads t = some th → th.call = .revokeIdentityRecord .admin id →
      th.phase = 1 → (registryMachine env).step s (.run t) = some s' → s'.threads t = some th' →
      (((∃ j, j ≠ id ∧ ActiveAdmin s.store.committed j) → th'.prog ≠ .fail lastActiveAdmin) ↔
        (ActiveAdmin s.store.committed id ∨ ¬∃! j, ActiveAdmin s.store.committed j)) := by
  refine ⟨fun s' h' hadmin => activeAdmin_stays h hadmin h', ?_⟩
  intro t id th s' th' hth hcall hphase hstep hth'
  rcases Db.step_cases hstep with ⟨d, hl, -⟩ | ⟨u, c, hl, -⟩ | ⟨u, th0, hl, hth0, hrun⟩ |
    ⟨u, hl, -⟩ <;> cases hl
  cases hth.symm.trans hth0
  have hrefused := countCheck_step (countStage h hth hcall) hphase hrun hth'
  constructor
  · intro hright
    by_contra hcond
    rw [not_or, not_not] at hcond
    obtain ⟨hid, j, hj, honly⟩ := hcond
    -- the one active Admin is another identity
    grind
  · intro hcond ⟨j, hne, hj⟩ hfail
    have honly := hrefused.1 hfail
    rcases hcond with hid | hnot
    · exact hne (honly j id hj hid)
    · exact hnot ⟨j, hj, fun i hi => honly i j hi hj⟩

/-- With one active Admin, one stays. -/
theorem last_admin_protected_sample :
    ∃ s, (registryMachine sampleEnrollment).Reaches (fun _ _ => True) (registryStart 0) s ∧
      ActiveAdmin s.store.committed 40 ∧
      ∀ s', (registryMachine sampleEnrollment).Reaches (fun _ _ => True) s s' →
        ∃ id, ActiveAdmin s'.store.committed id := by
  have hrun : ((registryMachine sampleEnrollment).run (fun _ _ => true) (registryStart 0)
      (enrollSteps .admin 9 "admin" 40 50 ++ callSteps 0 (.activate 40 50 .admin) 16)).map
      (fun s => (s.store.committed (.identity 40)).map IdentityRow.activeAdmin) =
      some (some true) := by
    decide +kernel
  obtain ⟨s, hreach, hview⟩ := Machine.exists_of_view hrun
  have hadmin : ActiveAdmin s.store.committed 40 := Option.map_eq_some_iff.1 hview
  exact ⟨s, hreach, hadmin, fun s' h' => (last_admin_protected hreach).1 s' h' ⟨40, hadmin⟩⟩

/-! ### An activated identity -/

/-- In every interleaving an activated identity keeps its row, role and
name, stays activated, and stays revoked once it is. So no certificate
ever authenticates it in another role. -/
theorem activated_identity_stays {row : IdentityRow}
    (h : (registryMachine env).Reaches (fun _ _ => True) (registryStart clock) s)
    (hrow : s.store.committed (.identity id) = some row) (hactive : row.activation = .active)
    (h' : (registryMachine env).Reaches (fun _ _ => True) s s') :
    (∃ row', s'.store.committed (.identity id) = some row' ∧ row'.role = row.role ∧
      row'.name = row.name ∧ row'.activation = .active ∧
      (row.revoked = true → row'.revoked = true)) ∧
    ∀ now f role, authenticated s'.store.committed now f role = some id → role = row.role := by
  have hkept := reaches_invariant (registry_protocol env) (registry_guarantees env _)
    (RegistryRun.threadsSafe h) (I := fun _ rows _ => ∃ row', rows (.identity id) = some row' ∧
      row'.role = row.role ∧ row'.name = row.name ∧ row'.activation = .active ∧
      (row.revoked = true → row'.revoked = true))
    ⟨row, hrow, rfl, rfl, hactive, fun hkept => hkept⟩ (fun _ _ _ _ _ hI => hI) ?_ h'
  · refine ⟨hkept, fun now f role hauth => ?_⟩
    obtain ⟨row', hrow', hrole, -⟩ := hkept
    obtain ⟨_, i, -, hi, -, -, -, -, -, hi', -⟩ := authenticated_eq_some hauth
    grind
  · rintro c now L - ⟨target, hspec⟩ ⟨row', hrow', hrole, hname, hactive', hrevoked⟩
    have hchange := hspec.identityChange id
    rw [hrow'] at hchange
    generalize L.view (.identity id) = after at hchange ⊢
    cases hchange with
    | same => exact ⟨row', rfl, hrole, hname, hactive', hrevoked⟩
    | activated => exact ⟨_, rfl, hrole, hname, rfl, hrevoked⟩
    | revoked => exact ⟨_, rfl, hrole, hname, hactive', fun _ => rfl⟩
    | deleted _ hpending =>
      -- maintenance deletes identities that were never activated
      rw [hactive'] at hpending
      cases hpending

theorem activated_identity_stays_admin :
    ∃ s, (registryMachine sampleEnrollment).Reaches (fun _ _ => True) (registryStart 0) s ∧
      ∀ s', (registryMachine sampleEnrollment).Reaches (fun _ _ => True) s s' →
        ∀ now f role, authenticated s'.store.committed now f role = some 40 → role = .admin := by
  have hrun : ((registryMachine sampleEnrollment).run (fun _ _ => true) (registryStart 0)
      (enrollSteps .admin 9 "admin" 40 50 ++ callSteps 0 (.activate 40 50 .admin) 16)).map
      (fun s => s.store.committed (.identity 40)) =
      some (some ⟨⟨.admin, .active, false⟩, "alpha", 50⟩) := by
    decide +kernel
  obtain ⟨s, hreach, hrow⟩ := Machine.exists_of_view hrun
  exact ⟨s, hreach, fun s' h' => (activated_identity_stays hreach hrow rfl h').2⟩

end Centrald.Proofs
