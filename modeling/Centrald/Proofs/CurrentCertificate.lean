import Centrald.Proofs.Revocation

/-!
# `Centrald.Proofs.CurrentCertificate`: one current certificate per identity

An activation gives every other certificate of the identity that is in
use a retirement time, one hour after the start of its transaction at the
latest. It does so while it has the identity locked, so no second
activation can come between. `one_current_certificate` puts together what
follows for every interleaving of the identity calls: at most one
certificate of an identity is in use without a retirement time, it is the
one that the identity records, all others stop to authenticate within an
hour of the newest activation, and a certificate that was not activated
does not authenticate.

`CommitSpec.active` says once what a commit can make of a certificate:
one that is active afterwards was active before and has aged, or this
commit activated it. The invariants are proved from it, commit by commit.
-/

set_option autoImplicit false

namespace Centrald.Proofs

open Durable Server

variable {env : EnrollmentEnv} {c : RegistryCall} {now clock : Int} {f g id target : Nat}
  {L : Local RegistryRow} {s : RegistryDb}

/-! ### What a commit makes of a certificate -/

/-- How a certificate that is in use changes: it can be revoked, and its
retirement can be set or brought forward. -/
structure Ages (x y : Certificate) : Prop where
  active : x.activation = .active
  identity : y.identity = x.identity
  expiresAt : y.expiresAt = x.expiresAt
  revoked : x.revoked = true → y.revoked = true
  retireAt : ∀ r ∈ x.retireAt, ∃ r' ≤ r, y.retireAt = some r'

theorem ages_refl {x : Certificate} (h : x.activation = .active) : Ages x x :=
  ⟨h, rfl, rfl, fun h => h, fun r hr => ⟨r, le_rfl, hr⟩⟩

theorem ages_retired {x : Certificate} (h : x.activation = .active) : Ages x (retired now x) := by
  refine ⟨h, rfl, rfl, fun h => h, ?_⟩
  intro r hr
  rw [Option.mem_def] at hr
  refine ⟨_, ?_, rfl⟩
  rw [hr]
  exact min_le_left ..

/-- A certificate that is active after a commit has aged, or the commit
activated it. -/
theorem CommitSpec.active (h : CommitSpec env c now L target) {y : Certificate}
    (hy : L.view (.certificate g) = some y) (hactive : y.activation = .active) :
    (∃ x, L.rows (.certificate g) = some x ∧ Ages x y) ∨
      ∃ x d, L.rows (.certificate g) = some x ∧ x.activation = .pending d := by
  have hchange := h.certificateChange g
  rw [hy] at hchange
  generalize L.rows (.certificate g) = a at hchange
  cases hchange with
  | same => exact .inl ⟨y, rfl, ages_refl hactive⟩
  | issued => cases hactive
  | activated _ _ hpending => exact .inr ⟨_, _, rfl, hpending⟩
  | retired _ _ _ hwas => exact .inl ⟨_, rfl, ages_retired hwas⟩
  | revoked =>
    exact .inl ⟨_, rfl, hactive, rfl, rfl, fun _ => rfl, fun r hr => ⟨r, le_rfl, hr⟩⟩

/-- After an activation at `now` another certificate of the identity is
revoked, expired or about to retire. -/
theorem Activates.other {x y : Certificate} (h : Activates now target f L) (hg : g ≠ f)
    (hx : L.rows (.certificate g) = some x) (hy : L.view (.certificate g) = some y)
    (hid : x.identity = target) (hage : Ages x y) :
    y.revoked = true ∨ y.expiresAt ≤ now ∨ ∃ r, y.retireAt = some r ∧
      r ≤ now + retirementDelay := by
  by_cases hrevoked : x.revoked = true
  · exact .inl (hage.revoked hrevoked)
  by_cases hexpires : x.expiresAt ≤ now
  · exact .inr (.inl (hage.expiresAt ▸ hexpires))
  · have hretired := h.others g x hg hx hid hage.active (Bool.eq_false_iff.2 hrevoked) (by omega)
    cases hy.symm.trans hretired
    exact .inr (.inr ⟨_, rfl, min_le_right ..⟩)

/-! ### The certificate that an identity records -/

/-- The certificates in use belong to activated identities, which record
the one without a retirement time. -/
def Recorded (clock : Int) (rows : Rows RegistryRow) : Prop :=
  ∀ g x, rows (.certificate g) = some x → x.activation = .active →
    ∃ i, rows (.identity x.identity) = some i ∧ i.activation = .active ∧
      (i.fingerprint = g ∨ x.revoked = true ∨ x.expiresAt ≤ clock ∨ x.retireAt.isSome)

/-- A commit keeps the certificate in use recorded. -/
theorem Recorded.commit (hI : Recorded L.clock L.rows) (h : CommitSpec env c now L target) :
    Recorded L.clock L.view := by
  intro g y hy hactive
  rcases h.active hy hactive with ⟨x, hx, hage⟩ | ⟨x, d, hx, hpending⟩
  · obtain ⟨i, hi, hiactive, hrecorded⟩ := hI g x hx hage.active
    rw [hage.identity]
    -- what was so of the certificate is so of the aged one
    have hkept : ∀ fp, (i.fingerprint = g → fp = g) →
        (fp = g ∨ y.revoked = true ∨ y.expiresAt ≤ L.clock ∨ y.retireAt.isSome) := by
      intro fp hfp
      rcases hrecorded with hrec | hrevoked | hexpired | hretires
      · exact .inl (hfp hrec)
      · exact .inr (.inl (hage.revoked hrevoked))
      · exact .inr (.inr (.inl (hage.expiresAt ▸ hexpired)))
      · obtain ⟨r, hr⟩ := Option.isSome_iff_exists.1 hretires
        obtain ⟨r', -, hr'⟩ := hage.retireAt r hr
        exact .inr (.inr (.inr (hr' ▸ rfl)))
    have hchange := h.identityChange x.identity
    rw [hi] at hchange
    generalize hb : L.view (.identity x.identity) = b at hchange
    cases hchange with
    | same => exact ⟨i, rfl, hiactive, hkept _ fun h => h⟩
    | @activated _ f _ hc hid =>
      refine ⟨_, rfl, rfl, ?_⟩
      by_cases hg : g = f
      · exact .inl hg.symm
      subst hc
      rcases h.particular.2.2 with hsame | hactivates
      · -- nothing was written, so the row is the one of before
        have heq := (hsame (.identity x.identity)).symm.trans hb
        rw [hi] at heq
        rw [← IdentityRow.mk.inj (Option.some.inj heq) |>.2.2]
        exact hkept _ fun h => h
      · refine .inr ?_
        rcases hactivates.other hg hx hy hid hage with hrevoked | hexpired | ⟨r, hr, -⟩
        · exact .inl hrevoked
        · exact .inr (.inl (hexpired.trans h.clock))
        · exact .inr (.inr (hr ▸ rfl))
    | revoked => exact ⟨_, rfl, hiactive, hkept _ fun h => h⟩
    | deleted _ hpending =>
      grind
  · obtain ⟨_, -, hid, hactivates⟩ := h.activation hx hpending hy hactive
    obtain ⟨row, hrow⟩ := hactivates.identity
    exact ⟨_, hid ▸ hrow, rfl, .inl rfl⟩

theorem recorded (h : RegistryRun env clock s) : Recorded s.clock s.store.committed := by
  refine reaches_invariant (registry_protocol env) (registry_guarantees env _)
    (registryStart_safe env clock) (I := fun clock rows _ => Recorded clock rows) ?_ ?_ ?_ h
  · intro g x hx
    cases hx
  · intro clock clock' rows _ hle hI g x hx hactive
    obtain ⟨i, hi, hiactive, hrecorded⟩ := hI g x hx hactive
    grind
  · intro c now L _ ⟨target, hspec⟩ hI
    exact hI.commit hspec

/-! ### The newest activation -/

/-- `e` is the newest activation of a certificate of the identity. -/
structure NewestActivation (commits : List (Commit RegistryRow RegistryCall))
    (e : Commit RegistryRow RegistryCall) (f id : Nat) : Prop where
  activates : ActivatesCertificate e f id
  newest : ∃ before after, commits = before ++ e :: after ∧
    ∀ e' ∈ after, ∀ g, ¬ActivatesCertificate e' g id

/-- The newest activation has retired the other certificates. -/
def OthersRetire (rows : Rows RegistryRow) (commits : List (Commit RegistryRow RegistryCall)) :
    Prop :=
  ∀ e f id, NewestActivation commits e f id → ∀ g x, g ≠ f → rows (.certificate g) = some x →
    x.identity = id → x.activation = .active →
    x.revoked = true ∨ x.expiresAt ≤ e.started ∨
      ∃ r, x.retireAt = some r ∧ r ≤ e.started + retirementDelay

/-- A commit keeps it: the activation that is now the newest retires the
other certificates of its identity. -/
theorem OthersRetire.commit {commits : List (Commit RegistryRow RegistryCall)}
    (hI : OthersRetire L.rows commits) (h : CommitSpec env c now L target) :
    OthersRetire L.view (commits ++ [⟨c, now, L.clock, L.rows, L.view⟩]) := by
  intro e f id ⟨hact, before, after, hsplit, hnewest⟩ g y hg hy hid hactive
  rcases concat_eq_append_cons hsplit with ⟨rfl, rfl⟩ | ⟨after', rfl, hsplit'⟩
  · -- this commit is the newest activation
    obtain ⟨⟨x, d, hx, hpending⟩, x', hx', hidentity, hactive'⟩ := hact
    obtain ⟨role, hc, hid', hactivates⟩ := h.activation hx hpending hx' hactive'
    rcases h.active hy hactive with ⟨z, hz, hage⟩ | ⟨z, d', hz, hpending'⟩
    · refine hactivates.other hg hz hy ?_ hage
      rw [← hage.identity, hid, ← hidentity, hid']
    · obtain ⟨role', hc', -⟩ := h.activation hz hpending' hy hactive
      grind
  · have hlast := hnewest _ (List.mem_append_right _ (List.mem_singleton_self _))
    rcases h.active hy hactive with ⟨z, hz, hage⟩ | ⟨z, d, hz, hpending⟩
    · have hold := hI e f id ⟨hact, before, after', hsplit', fun e' he' =>
        hnewest e' (List.mem_append_left _ he')⟩ g z hg hz (hage.identity ▸ hid) hage.active
      rcases hold with hrevoked | hexpired | ⟨r, hr, hle⟩
      · exact .inl (hage.revoked hrevoked)
      · exact .inr (.inl (hage.expiresAt ▸ hexpired))
      · obtain ⟨r', hr', hy'⟩ := hage.retireAt r hr
        exact .inr (.inr ⟨r', hy', hr'.trans hle⟩)
    · exact absurd ⟨⟨z, d, hz, hpending⟩, y, hy, hid, hactive⟩ (hlast g)

theorem othersRetire (h : RegistryRun env clock s) : OthersRetire s.store.committed s.commits := by
  refine reaches_invariant (registry_protocol env) (registry_guarantees env _)
    (registryStart_safe env clock) (I := fun _ rows commits => OthersRetire rows commits)
    ?_ (fun _ _ _ _ _ hI => hI) ?_ h
  · intro e f id _ g x _ hx
    cases hx
  · intro c now L commits ⟨target, hspec⟩ hI
    exact hI.commit hspec

/-! ### Activated certificates -/

/-- Every certificate in use was activated. -/
def OnlyActivated (rows : Rows RegistryRow) (commits : List (Commit RegistryRow RegistryCall)) :
    Prop :=
  ∀ f x, rows (.certificate f) = some x → x.activation = .active →
    ∃ e ∈ commits, ActivatesCertificate e f x.identity

theorem onlyActivated (h : RegistryRun env clock s) :
    OnlyActivated s.store.committed s.commits := by
  refine reaches_invariant (registry_protocol env) (registry_guarantees env _)
    (registryStart_safe env clock) (I := fun _ rows commits => OnlyActivated rows commits)
    ?_ (fun _ _ _ _ _ hI => hI) ?_ h
  · intro f x hx
    cases hx
  · intro c now L commits ⟨target, hspec⟩ hI f y hy hactive
    rcases hspec.active hy hactive with ⟨x, hx, hage⟩ | ⟨x, d, hx, hpending⟩
    · obtain ⟨e, he, hact⟩ := hI f x hx hage.active
      exact ⟨e, List.mem_append_left _ he, hage.identity ▸ hact⟩
    · exact ⟨_, List.mem_append_right _ (List.mem_singleton_self _),
        ⟨x, d, hx, hpending⟩, y, hy, rfl, hactive⟩

/-! ### The main result -/

/-- The certificate is active, unrevoked, unexpired and has no retirement
time. -/
structure Current (s : RegistryDb) (f : Nat) (x : Certificate) : Prop where
  row : s.store.committed (.certificate f) = some x
  active : x.activation = .active
  unrevoked : x.revoked = false
  unexpired : s.clock < x.expiresAt
  unretired : x.retireAt = none

/-- The identity of a current certificate records it. -/
theorem Current.recorded {x : Certificate} (hx : Current s f x)
    (h : Recorded s.clock s.store.committed) :
    ∃ i, s.store.committed (.identity x.identity) = some i ∧ i.fingerprint = f := by
  obtain ⟨i, hi, -, hrec | hrevoked | hexpired | hretires⟩ := h f x hx.row hx.active
  · exact ⟨i, hi, hrec⟩
  · rw [hx.unrevoked] at hrevoked
    cases hrevoked
  · have := hx.unexpired
    omega
  · rw [hx.unretired] at hretires
    cases hretires

/-- In every reachable state: an identity has at most one current
certificate; an activated identity records it; the other certificates
stop to authenticate one hour after the newest activation; a certificate
that was not activated does not authenticate. -/
theorem one_current_certificate
    (h : (registryMachine env).Reaches (fun _ _ => True) (registryStart clock) s) :
    (∀ f g x y, Current s f x → Current s g y → x.identity = y.identity → f = g) ∧
    (∀ f x i, Current s f x → s.store.committed (.identity x.identity) = some i →
      i.activation = .active → i.fingerprint = f) ∧
    (∀ e f id, NewestActivation s.commits e f id → ∀ g now role, g ≠ f →
      e.started + retirementDelay ≤ now →
      authenticated s.store.committed now g role ≠ some id) ∧
    ∀ f, (∀ e ∈ s.commits, ∀ id, ¬ActivatesCertificate e f id) →
      ∀ now role, authenticated s.store.committed now f role = none := by
  have hrecorded := recorded h
  refine ⟨?_, ?_, ?_, ?_⟩
  · intro f g x y hx hy hid
    obtain ⟨i, hi, rfl⟩ := hx.recorded hrecorded
    obtain ⟨j, hj, rfl⟩ := hy.recorded hrecorded
    grind
  · intro f x i hx hi _
    obtain ⟨j, hj, rfl⟩ := hx.recorded hrecorded
    cases hi.symm.trans hj
    rfl
  · intro e f id hnewest g now role hg hlate hauth
    obtain ⟨x, -, hx, -, hid, hactive, hunrevoked, hunexpired, hretire, -⟩ :=
      authenticated_eq_some hauth
    -- a retired certificate lasts one hour more, which is over
    rcases othersRetire h e f id hnewest g x hg hx hid hactive with
      hrevoked | hexpired | ⟨r, hr, hle⟩
    · grind
    · unfold retirementDelay at hlate
      omega
    · have := hretire r hr
      omega
  · intro f hnever now role
    rw [Option.eq_none_iff_forall_ne_some]
    intro id hauth
    obtain ⟨x, -, hx, -, -, hactive, -⟩ := authenticated_eq_some hauth
    obtain ⟨e, he, hact⟩ := onlyActivated h f x hx hactive
    exact hnever e he _ hact

/-- After a renewal and its activation only the new certificate is
current. -/
theorem one_current_certificate_renewed :
    ∃ s, (registryMachine sampleEnrollment).Reaches (fun _ _ => True) (registryStart 0) s ∧
      (∃ x, Current s 31 x ∧ x.identity = 20) ∧
      ∀ g x, Current s g x → x.identity = 20 → g = 31 := by
  have hrun : ((registryMachine sampleEnrollment).run (fun _ _ => true) (registryStart 0)
      (sampleEnrolled ++ callSteps 0 (.renewCertificate 30 .client [] 31) 10 ++
        callSteps 0 (.activate 20 31 .client) 16)).map
      (fun s => (s.clock, s.store.committed (.certificate 31))) =
      some (0, some ⟨20, .active, 40000000000000000, none, false⟩) := by
    decide +kernel
  obtain ⟨s, hreach, hview⟩ := Machine.exists_of_view hrun
  obtain ⟨hclock, hrow⟩ := Prod.mk.inj hview
  have hcurrent : Current s 31 ⟨20, .active, 40000000000000000, none, false⟩ := by
    refine ⟨hrow, rfl, rfl, ?_, rfl⟩
    rw [hclock]
    decide
  exact ⟨s, hreach, ⟨_, hcurrent, rfl⟩, fun g x hx hid =>
    (one_current_certificate hreach).1 g 31 x _ hx hcurrent hid⟩

end Centrald.Proofs
