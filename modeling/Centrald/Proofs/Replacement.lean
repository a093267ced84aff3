import Centrald.Proofs.Revocation

/-!
# `Centrald.Proofs.Replacement`: a client hands over to a live identity

`replace_client_identity` asks whether the replacement is an active
client and then revokes the old identity. The question is a plain
`SELECT` and takes no lock, so the replacement can be revoked before the
commit. Two identities that replace each other at the same time are both
revoked (`replaced_each_other`): each transaction reads the row that the
other one writes.

`replacement_is_live` is about the runs where no commit revokes an
identity while a call that has checked it as a replacement is still under
way. Then it is active when the replacement commits. The protocol of
`Centrald.Proofs.IdentityCalls` is extended for this by what the check
found: `replaceRely` keeps it for the rest of the call.
-/

set_option autoImplicit false

namespace Centrald.Proofs

open Durable Server

variable {env : EnrollmentEnv} {clock : Int} {fingerprint replacement t : Nat}
  {L L' L1 L2 : Local RegistryRow} {ks : List RegistryKey} {s s' : RegistryDb}

/-- The identity is an activated and unrevoked client. -/
def ActiveClient (rows : Rows RegistryRow) (id : Nat) : Prop :=
  ∃ row, rows (.identity id) = some row ∧ row.activeClient

/-- What the calls rely on, and that a replacement stays active once it
was checked, in the second statement of the call. -/
def replaceRely (c : RegistryCall) (n : Nat) (h : Held RegistryRow)
    (rows rows' : Rows RegistryRow) : Prop :=
  RegistryRely h rows rows' ∧ ∀ f id, c = .replaceIdentity f id → 2 ≤ n →
    ActiveClient rows id → ActiveClient rows' id

/-- What a call commits, and that a replacement is active then, before
and after the commit. -/
def replacePost (env : EnrollmentEnv) (c : RegistryCall) (now : Int) (L : Local RegistryRow) :
    Prop :=
  registryPost env c now L ∧ ∀ f id, c = .replaceIdentity f id →
    ActiveClient L.rows id ∧ ActiveClient L.view id

/-! ### After the check -/

/-- The replacement was checked and is active, and the call has not
written it. -/
structure Checked (replacement : Nat) (L : Local RegistryRow) : Prop where
  phase : 2 ≤ L.phase
  held : L.held (.identity replacement) = none
  active : ActiveClient L.rows replacement

theorem Checked.later (h : Checked replacement L)
    (hl : Later (replaceRely (.replaceIdentity fingerprint replacement)) L L') :
    Checked replacement L' where
  phase := hl.phase ▸ h.phase
  held := hl.held ▸ h.held
  active := hl.rely.2 _ _ rfl h.phase h.active

theorem Checked.write (h : Checked replacement L) {w : (k : RegistryKey) → RegistryRow k →
    Option (RegistryRow k)} (hk : .identity replacement ∉ ks) :
    Checked replacement (L.write ks w) where
  phase := Nat.le_succ_of_le h.phase
  held := (Local.held_write_of_not_mem hk).trans h.held
  active := h.active

theorem Checked.post (h : Checked replacement L) :
    ActiveClient L.rows replacement ∧ ActiveClient L.view replacement := by
  refine ⟨h.active, ?_⟩
  unfold ActiveClient
  rw [Local.view_of_held_eq_none h.held]
  exact h.active

/-- The rest of the call after its check writes the old identity. -/
theorem safe_replaceClient (hheld : L.held = fun _ => none) (hphase : L.phase = 0) :
    (replaceIdentityCall fingerprint replacement).Safe
      (replaceRely (.replaceIdentity fingerprint replacement))
      (fun _ L => ActiveClient L.rows replacement ∧ ActiveClient L.view replacement)
      (fun _ _ => True) L := by
  refine Sql.Safe.bind (safe_query fun L1 h1 s1 _ => ?_)
  cases authenticated s1.row L1.now fingerprint .client with
  | none => trivial
  | some current =>
    refine safe_guard fun hne => safe_begin fun L2 h2 => ?_
    refine safe_query fun L3 h3 s3 hs3 => safe_guard fun hcheck => ?_
    have hnone : L3.held (.identity replacement) = none := by
      rw [h3.held]
      exact congrFun (h2.held.trans (h1.held.trans hheld)) _
    have hchecked : Checked replacement L3.tick := by
      refine ⟨?_, hnone, ?_⟩
      · have : L3.phase = L.phase + 1 := h3.phase.trans (h2.phase.trans (congrArg _ h1.phase))
        show 2 ≤ L3.phase + 1
        omega
      · rw [Bool.not_eq_true', Bool.not_eq_false, hs3, Local.view_of_held_eq_none hnone] at hcheck
        exact (Option.any_eq_true ..).1 hcheck
    refine safe_execute fun L4 L5 _ ks _ hx => ?_
    have hchecked5 : Checked replacement (L5.write ks (revokeIdentityRow .client current).set) := by
      refine ((hchecked.later hx.began).later hx.ended).write fun hk => ?_
      obtain ⟨id, _, heq, -, htest⟩ := selects_onIdentities (hx.selects hk)
      grind
    refine safe_guard fun _ => safe_execute fun L6 L7 _ ks' _ hx' => ?_
    have hchecked7 : Checked replacement (L7.write ks' (revokeCertificateRows current).set) := by
      refine ((hchecked5.later hx'.began).later hx'.ended).write fun hk => ?_
      obtain ⟨_, _, heq, -⟩ := selects_onCertificates (hx'.selects hk)
      cases heq
    refine Sql.Safe.bind (safe_execute fun L8 L9 _ ks'' _ hx'' => ?_)
    have hchecked9 : Checked replacement (L9.write ks'' (appendNote
        ⟨some current, "client", "identity.replace", some replacement⟩).set) :=
      ((hchecked7.later hx''.began).later hx''.ended).write fun hk =>
        nomatch selects_appendNote (hx''.selects hk)
    exact safe_commit fun L' hl _ _ => ⟨(hchecked9.later hl).post, trivial⟩

/-! ### The extended protocol -/

theorem replace_protocol (env : EnrollmentEnv) :
    Protocol (RegistryCall.body env) replaceRely (replacePost env) where
  refl c n h rows := ⟨RegistryRely.refl h rows, fun _ _ _ _ h => h⟩
  trans c n h rows rows' rows'' h1 h2 := ⟨h1.1.trans h2.1, fun f id hc hn hactive =>
    h2.2 f id hc hn (h1.2 f id hc hn hactive)⟩
  safe c L hheld hstart hphase := by
    have hbase := (registry_protocol env).safe c L hheld hstart hphase
    by_cases hc : ∃ f id, c = .replaceIdentity f id
    · obtain ⟨f, id, rfl⟩ := hc
      refine hbase.and (fun _ _ _ _ h => ⟨h.1, h⟩) ?_ (safe_replaceClient hheld hphase)
      intro now L hpost hactive
      refine ⟨hpost, fun f' id' heq => ?_⟩
      cases heq
      exact hactive
    · exact hbase.and (fun _ _ _ _ h => ⟨h.1, h.1⟩)
        (fun _ _ h _ => ⟨h, fun f id heq => absurd ⟨f, id, heq⟩ hc⟩) hbase

/-- The step does not commit the revocation of an identity that another
call has checked as its replacement. -/
def KeepsReplacements (s : RegistryDb) (l : DbLabel RegistryCall) : Prop :=
  ∀ t th next, l = .run t → s.threads t = some th → th.prog = .commit next →
    ∀ u th' f id, u ≠ t → s.threads u = some th' → th'.call = .replaceIdentity f id →
      2 ≤ th'.phase → ActiveClient s.store.committed id → ActiveClient (s.store.view t) id

theorem replace_guarantees (env : EnrollmentEnv) :
    Guarantees replaceRely (replacePost env) KeepsReplacements := by
  intro s t u th th' now next hguard hth hth' hne hnow hprog ⟨hpost, _⟩
  refine ⟨registry_guarantees env (fun _ _ => True) s t u th th' now next trivial hth hth' hne hnow
    hprog hpost, ?_⟩
  intro f id hcall hphase
  exact hguard t th next rfl hth hprog u th' f id hne hth' hcall hphase

/-! ### The main result -/

/-- Both identities are revoked, each by its replacement with the other
one. -/
theorem replaced_each_other :
    ∃ s e, (registryMachine sampleEnrollment).Reaches (fun _ _ => True) (registryStart 0) s ∧
      e ∈ s.commits ∧ e.call = .replaceIdentity 32 20 ∧ ¬ActiveClient e.before 20 ∧
      (s.store.committed (.identity 20)).map (·.revoked) = some true ∧
      (s.store.committed (.identity 21)).map (·.revoked) = some true := by
  have hrun : ((registryMachine sampleEnrollment).run (fun _ _ => true) (registryStart 0)
      (sampleEnrolled ++ enrollSteps .client 8 "key2" 21 32 ++
        callSteps 0 (.activate 21 32 .client) 16 ++ callSteps 0 (.replaceIdentity 30 21) 3 ++
        callSteps 1 (.replaceIdentity 32 20) 3 ++ List.replicate 8 (.run 0) ++
        List.replicate 8 (.run 1))).map
      (fun s => (s.commits[7]?.map fun e =>
          (e.call, (e.before (.identity 20)).map IdentityRow.activeClient),
        (s.store.committed (.identity 20)).map (·.revoked),
        (s.store.committed (.identity 21)).map (·.revoked))) =
      some (some (.replaceIdentity 32 20, some false), some true, some true) := by
    decide +kernel
  obtain ⟨s, hreach, hview⟩ := Machine.exists_of_view hrun
  simp only [Prod.mk.injEq] at hview
  obtain ⟨hcommit, h20, h21⟩ := hview
  obtain ⟨e, he, hrecord⟩ := Option.map_eq_some_iff.1 hcommit
  obtain ⟨hcall, hbefore⟩ := Prod.mk.inj hrecord
  refine ⟨s, e, hreach, List.mem_of_getElem? he, hcall, ?_, h20, h21⟩
  rintro ⟨row, hrow, hactive⟩
  grind

/-- In a run that keeps checked replacements, the replacement is active
when a replacement commits, and after one no later one hands over to the
identity that it revoked. -/
theorem replacement_is_live
    (h : (registryMachine env).Reaches KeepsReplacements (registryStart clock) s) :
    (∀ e ∈ s.commits, ∀ f id, e.call = .replaceIdentity f id →
      ActiveClient e.before id ∧ ActiveClient e.after id) ∧
    ∀ before e after f id, s.commits = before ++ e :: after → e.call = .replaceIdentity f id →
      ∀ e' ∈ after, ∀ f' id', RevokesIdentity e id' → e'.call ≠ .replaceIdentity f' id' := by
  have hsafe : ThreadsSafe replaceRely (replacePost env) (registryStart clock) :=
    threadsSafe_of_idle (fun _ => rfl) fun t => (registryStart_safe env clock).idle t rfl
  have hlive : ∀ e ∈ s.commits, ∀ f id, e.call = .replaceIdentity f id →
      ActiveClient e.before id ∧ ActiveClient e.after id := by
    intro e he f id hcall
    obtain ⟨L, ⟨-, hpost⟩, -, hbefore, hafter⟩ := reaches_commits (replace_protocol env)
      (replace_guarantees env) hsafe rfl h e he
    grind
  refine ⟨hlive, ?_⟩
  intro before e after f id hs hcall e' he' f' id' hrevokes hcall'
  have hmem : e' ∈ s.commits := by
    grind
  obtain ⟨⟨row, hrow, hactive⟩, -⟩ := hlive e' hmem f' id' hcall'
  have hrevoked := ((gone_since (h.mono fun _ _ _ => trivial) hs hrevokes).2 e' he').1 row hrow
  unfold IdentityRow.activeClient at hactive
  grind

/-- The label is about call 0. -/
def OnlyFirst : DbLabel RegistryCall → Bool
  | .tick _ => true
  | .call t _ | .run t | .abort t => t = 0

/-- A run of call 0 alone keeps all replacements. -/
theorem onlyFirst_reaches {labels : List (DbLabel RegistryCall)}
    (hrun : (registryMachine env).run (fun _ => OnlyFirst) (registryStart clock) labels = some s) :
    (registryMachine env).Reaches KeepsReplacements (registryStart clock) s := by
  have hreach : (registryMachine env).Reaches (fun s l => KeepsReplacements s l ∧ OnlyFirst l)
      (registryStart clock) s := by
    refine Machine.Reaches.refl.of_run (fun s l h hl => ⟨?_, hl⟩) hrun
    have halone : ∀ u, u ≠ 0 → s.threads u = none := by
      refine h.invariant (I := fun s => ∀ u, u ≠ 0 → s.threads u = none) (fun _ _ => rfl) ?_
      intro s l s' hI hguard hstep u hu
      have hnot : ∀ l', l = l' → OnlyFirst l' := fun l' heq => heq ▸ hguard.2
      rw [(step_other hstep (fun c heq => hu (of_decide_eq_true (hnot _ heq)))
        (fun heq => hu (of_decide_eq_true (hnot _ heq)))
        fun heq => hu (of_decide_eq_true (hnot _ heq))).1]
      exact hI u hu
    intro t th next heq _ _ u th' f id hne hth'
    grind
  exact hreach.mono fun _ _ h => h.1

/-- A replacement with nothing else under way. -/
theorem replacement_is_live_sample :
    ∃ s e, (registryMachine sampleEnrollment).Reaches KeepsReplacements (registryStart 0) s ∧
      e ∈ s.commits ∧ e.call = .replaceIdentity 30 21 ∧ ActiveClient e.after 21 := by
  have hrun : ((registryMachine sampleEnrollment).run (fun _ => OnlyFirst) (registryStart 0)
      (sampleEnrolled ++ enrollSteps .client 8 "key2" 21 32 ++
        callSteps 0 (.activate 21 32 .client) 16 ++ callSteps 0 (.replaceIdentity 30 21) 11)).map
      (fun s => s.commits[6]?.map (·.call)) = some (some (.replaceIdentity 30 21)) := by
    decide +kernel
  obtain ⟨s, hs, hview⟩ := Option.map_eq_some_iff.1 hrun
  obtain ⟨e, he, hcall⟩ := Option.map_eq_some_iff.1 hview
  have hreach := onlyFirst_reaches hs
  have hmem := List.mem_of_getElem? he
  exact ⟨s, e, hreach, hmem, hcall, ((replacement_is_live hreach).1 e hmem 30 21 hcall).2⟩

end Centrald.Proofs
