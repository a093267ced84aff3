import Centrald.Proofs.ConsumedGrants
import Centrald.Proofs.GrantVerifier

/-!
# `Centrald.Proofs.GrantReplay`: no grant is accepted twice, but for one instant

`replay env` is the life of the verifier over restarts: grants are
presented, an accepted one is recorded in the journal, entries are
restored, and the broker restarts with what the journal holds. Times
never go back.

A grant is valid up to and including its `expiresAt`, but the verifier
and the journal forget it from that instant on. So a grant presented
exactly then is accepted again (`grant_accepted_twice`). When no grant
is presented a second time at that instant, no identifier is accepted
twice (`accepted_nodup`). The consumed set and the expiry queue agree
in any case.
-/

set_option autoImplicit false

namespace Centrald.Proofs

open Durable Common Platform Client Client.Ledger

/-- The verifier, its journal, and the grants accepted so far, newest
first. -/
structure ReplayState (env : BrokerEnv) where
  clock : Int
  verifier : GrantVerifier env.sigs
  grants : Option Bytes
  accepted : List (Nat × Int)

/-- What happens to the verifier and the journal of consumed grants, with
the time at which it happens. -/
inductive ReplayEvent where
  /-- `verify_and_consume`, and `record_consumed_grant` on acceptance. -/
  | present (signed : SignedGrant) (now : Int)
  | restore (grantId : Nat) (expiresAt now : Int)
  | restart (now : Int)

def ReplayEvent.time : ReplayEvent → Int
  | .present _ now => now
  | .restore _ _ now => now
  | .restart now => now

/-- A presented grant at `now`. -/
def presentGrant {env : BrokerEnv} (s : ReplayState env) (signed : SignedGrant) (now : Int) :
    ReplayState env :=
  match s.verifier.verifyAndConsume env.texts signed now with
  | (verifier, .error _) => { s with clock := now, verifier }
  | (verifier, .ok ()) =>
    { clock := now
      verifier := verifier
      grants := recordConsumedGrant env s.grants
        (signed.grant.id, signed.grant.expiresAt)
      accepted := (signed.grant.id, signed.grant.expiresAt) :: s.accepted }

/-- The life of the verifier. Events in the past are refused. -/
def replay (env : BrokerEnv) : Machine (ReplayState env) ReplayEvent where
  step s event :=
    if event.time < s.clock then none
    else
      match event with
      | .present signed now => some (presentGrant s signed now)
      | .restore grantId expiresAt now =>
        some { s with clock := now, verifier := s.verifier.restore grantId expiresAt now }
      | .restart now =>
        match buildVerifier env s.grants now with
        | .error _ => none
        | .ok verifier => some { s with clock := now, verifier }

/-- A broker that has accepted nothing yet. -/
def ReplayState.initial (env : BrokerEnv) (clock : Int) : ReplayState env :=
  ⟨clock, .new env.deviceId env.signingKey, none, []⟩

/-- A grant that was accepted before is presented only with the expiry
it was accepted with, and not at that instant. -/
def NotAtExpiry {env : BrokerEnv} (s : ReplayState env) : ReplayEvent → Prop
  | .present signed now =>
    ∀ g ∈ s.accepted, g.1 = signed.grant.id →
      signed.grant.expiresAt = g.2 ∧ now ≠ g.2
  | _ => True

instance {env : BrokerEnv} (s : ReplayState env) (event : ReplayEvent) :
    Decidable (NotAtExpiry s event) :=
  match event with
  | .present signed now =>
    inferInstanceAs (Decidable (∀ g ∈ s.accepted, g.1 = signed.grant.id →
      signed.grant.expiresAt = g.2 ∧ now ≠ g.2))
  | .restore .. => inferInstanceAs (Decidable True)
  | .restart .. => inferInstanceAs (Decidable True)

/-! ### The invariant -/

/-- What every run keeps. -/
structure ReplayInv {env : BrokerEnv} (s : ReplayState env) : Prop where
  synced : Synced s.verifier
  /-- The journal holds the accepted grants. -/
  journal : s.grants = recordAll env none s.accepted.reverse
  /-- The verifier remembers the accepted grants that have not expired. -/
  remembered : ∀ g ∈ s.accepted, s.clock < g.2 → toLex (g.2, g.1) ∈ s.verifier.order.items
  nodup : (s.accepted.map Prod.fst).Nodup

theorem replayInv_initial (env : BrokerEnv) (clock : Int) :
    ReplayInv (ReplayState.initial env clock) where
  synced := synced_new _ _
  journal := rfl
  remembered := by intro g hg; exact absurd hg (by simp [ReplayState.initial])
  nodup := List.nodup_nil

/-- A verifier restored from some grants remembers those that have not
expired. -/
theorem restored_cases (now : Int) (grants : List (Nat × Int)) {sigs : Signatures} :
    ∀ v : GrantVerifier sigs, Synced v → (grants.map Prod.fst).Nodup →
      (∀ g ∈ grants, g.1 ∉ v.consumed) →
      Synced (grants.foldl (fun v g => v.restore g.1 g.2 now) v) ∧
      (∀ e ∈ v.order.items, e ∈ (grants.foldl (fun v g => v.restore g.1 g.2 now) v).order.items) ∧
      ∀ g ∈ grants, now < g.2 →
        toLex (g.2, g.1) ∈ (grants.foldl (fun v g => v.restore g.1 g.2 now) v).order.items := by
  induction grants with
  | nil =>
    grind
  | cons g rest ih =>
    intro v hv hnodup hfresh
    rw [List.map_cons, List.nodup_cons] at hnodup
    have hv' := synced_restore hv g.1 g.2 now
    -- the identifiers still to come are not in the set after this step either
    have hfresh' : ∀ g' ∈ rest, g'.1 ∉ (v.restore g.1 g.2 now).consumed := by
      intro g' hg'
      have hne : g'.1 ≠ g.1 := fun heq =>
        hnodup.1 (heq ▸ List.mem_map_of_mem hg')
      have hold := hfresh g' (List.mem_cons_of_mem _ hg')
      unfold GrantVerifier.restore
      by_cases hexp : g.2 ≤ now
      · rwa [if_pos hexp]
      · rw [if_neg hexp, if_neg (hfresh g List.mem_cons_self)]
        intro hmem
        rcases Finset.mem_insert.1 hmem with heq | hmem
        · exact hne heq
        · exact hold hmem
    obtain ⟨hsynced, hkept, hrest⟩ := ih (v.restore g.1 g.2 now) hv' hnodup.2 hfresh'
    refine ⟨hsynced, fun e he => hkept e (mem_restore he g.1 g.2 now), ?_⟩
    intro g' hg' hlt
    rcases List.mem_cons.1 hg' with rfl | hg'
    · refine hkept _ ?_
      unfold GrantVerifier.restore
      rw [if_neg (by omega), if_neg (hfresh g' List.mem_cons_self)]
      exact MinHeap.mem_push.2 (.inl rfl)
    · exact hrest g' hg' hlt

/-- A restart remembers the accepted grants that have not expired. -/
theorem buildVerifier_recordAll (env : BrokerEnv) (accepted : List (Nat × Int)) (now : Int)
    (hnodup : (accepted.map Prod.fst).Nodup) :
    ∃ v, buildVerifier env (recordAll env none accepted) now = .ok v ∧
      Synced v ∧ ∀ g ∈ accepted, now < g.2 → toLex (g.2, g.1) ∈ v.order.items := by
  let live := accepted.filter fun g => g.2 > now
  have hlive : (live.map Prod.fst).Nodup :=
    hnodup.sublist (List.filter_sublist.map Prod.fst)
  obtain ⟨hsynced, -, hmem⟩ := restored_cases now live
    (GrantVerifier.new env.deviceId env.signingKey) (synced_new _ _) hlive
    (fun _ _ => Finset.notMem_empty _)
  refine ⟨_, ?_, hsynced, ?_⟩
  · unfold buildVerifier
    rw [loadConsumedGrants_recordAll]
  · intro g hg hlt
    grind

/-! ### Steps -/

/-- A presented grant keeps the invariant, unless it was accepted before
and expires now. -/
theorem replayInv_present {env : BrokerEnv} {s : ReplayState env} (hs : ReplayInv s)
    {signed : SignedGrant} {now : Int} (hclock : s.clock ≤ now)
    (hG : NotAtExpiry s (.present signed now)) : ReplayInv (presentGrant s signed now) := by
  have hpruned := synced_pruneExpired hs.synced now
  have hkept : ∀ g ∈ s.accepted, now < g.2 →
      toLex (g.2, g.1) ∈ (s.verifier.pruneExpired now).order.items := by
    intro g hg hlt
    exact mem_pruneExpired.2 ⟨hs.remembered g hg (by omega), hlt⟩
  unfold presentGrant
  rcases verifyAndConsume_cases env.texts s.verifier signed now with
    ⟨e, he⟩ | ⟨e, he⟩ | ⟨he, hverify, hid⟩
  · rw [he]
    exact ⟨hs.synced, hs.journal, fun g hg hlt => hs.remembered g hg (by
      grind), hs.nodup⟩
  · rw [he]
    exact ⟨hpruned, hs.journal, hkept, hs.nodup⟩
  · rw [he]
    refine ⟨synced_insert hpruned _ hid, ?_, ?_, ?_⟩
    · show recordConsumedGrant _ _ _ = recordAll _ _ (List.reverse (_ :: s.accepted))
      rw [List.reverse_cons, recordAll_append, ← hs.journal]
      rfl
    · intro g hg hlt
      rcases List.mem_cons.1 hg with rfl | hg
      · exact MinHeap.mem_push.2 (.inl rfl)
      · exact MinHeap.mem_push.2 (.inr (hkept g hg hlt))
    · show (List.map Prod.fst (_ :: s.accepted)).Nodup
      rw [List.map_cons, List.nodup_cons]
      refine ⟨?_, hs.nodup⟩
      -- an identifier accepted before is still in the set, for it expires later
      intro hmem
      obtain ⟨g, hg, hgid⟩ := List.mem_map.1 hmem
      obtain ⟨heq, hne⟩ := hG g hg hgid
      have hvalid := (SignedGrant.verify_ok hverify).2
      have hlt : now < g.2 := by omega
      exact hid (hpruned.mem_consumed.2 ⟨_, hkept g hg hlt, hgid⟩)

/-- Every step that meets the condition keeps the invariant. -/
theorem replayInv_step {env : BrokerEnv} (s : ReplayState env) (event : ReplayEvent)
    (s' : ReplayState env) (hs : ReplayInv s) (hG : NotAtExpiry s event)
    (hstep : (replay env).step s event = some s') : ReplayInv s' := by
  simp only [replay] at hstep
  by_cases htime : event.time < s.clock
  · grind
  · rw [if_neg htime] at hstep
    cases event with
    | present signed now =>
      have hclock : s.clock ≤ now := Int.not_lt.1 htime
      cases hstep
      exact replayInv_present hs hclock hG
    | restore grantId expiresAt now =>
      have hclock : s.clock ≤ now := Int.not_lt.1 htime
      cases hstep
      refine ⟨synced_restore hs.synced _ _ _, hs.journal, ?_, hs.nodup⟩
      intro g hg hlt
      have hlt : now < g.2 := hlt
      exact mem_restore (hs.remembered g hg (by omega)) _ _ _
    | restart now =>
      have hnodup : (s.accepted.reverse.map Prod.fst).Nodup := by
        rw [List.map_reverse, List.nodup_reverse]
        exact hs.nodup
      obtain ⟨v, hv, hsynced, hmem⟩ :=
        buildVerifier_recordAll env s.accepted.reverse now hnodup
      rw [← hs.journal] at hv
      simp only [hv] at hstep
      cases hstep
      exact ⟨hsynced, hs.journal, fun g hg hlt => hmem g (List.mem_reverse.2 hg) hlt, hs.nodup⟩

/-! ### Whole runs -/

/-- In every run that never presents an accepted grant at its expiry, no
identifier is accepted twice, and the consumed set and the expiry queue
agree. -/
theorem accepted_nodup {env : BrokerEnv} {clock : Int} {s : ReplayState env}
    (h : (replay env).Reaches NotAtExpiry (.initial env clock) s) :
    (s.accepted.map Prod.fst).Nodup ∧ s.verifier.consumed = (queuedIds s.verifier).toFinset := by
  have hinv : ReplayInv s := h.invariant (replayInv_initial env clock) replayInv_step
  exact ⟨hinv.nodup, hinv.synced.consumed_eq⟩

/-! ### An instance -/

/-- A scheme in which every signature verifies. -/
def openSignatures : Signatures where
  Key := Unit
  decode := some
  isSignature _ := true
  verify _ _ _ := true

/-- A broker for device 1, with decimal texts. -/
def sampleEnv : BrokerEnv where
  toLedgerEnv := decimalEnv
  sigs := openSignatures
  deviceId := 1
  signingKey := ()
  enabled := true

/-- A grant for device 1 that is valid for one minute. -/
def sampleGrant (id job : Nat) (issuedAt : Int) : SignedGrant where
  grant :=
    { id := id
      deviceId := 1
      jobOrSessionId := job
      adminId := 1
      operation := .restartMachine
      parametersSha256 := decimalEnv.sha256Hex []
      issuedAt := issuedAt
      expiresAt := issuedAt + 60 * second
      nonce := [] }
  signatureBase64 := []

/-- A grant is accepted, the broker restarts, the grant is refused, and
another grant is accepted. -/
def replayRun : List ReplayEvent :=
  [.present (sampleGrant 5 9 0) 0, .restart (10 * second),
    .present (sampleGrant 5 9 0) (20 * second), .present (sampleGrant 6 9 0) (60 * second)]

/-- In `replayRun` each of the two grants is accepted once, across the
restart. -/
theorem accepted_nodup_run : ∃ s, (replay sampleEnv).Reaches NotAtExpiry (.initial sampleEnv 0) s ∧
      s.accepted.map Prod.fst = [6, 5] ∧
      (s.accepted.map Prod.fst).Nodup ∧
      s.verifier.consumed = (queuedIds s.verifier).toFinset := by
  have hrun : ((replay sampleEnv).run (fun s event => decide (NotAtExpiry s event))
      (.initial sampleEnv 0) replayRun).map (fun s => s.accepted.map Prod.fst) =
        some [6, 5] := by decide +kernel
  obtain ⟨s, hreach, haccepted⟩ := Machine.reached_of_view (fun _ _ _ h => of_decide_eq_true h) hrun
  exact ⟨s, hreach, haccepted, accepted_nodup hreach⟩

/-- A grant that is presented again exactly when it expires is accepted
a second time. -/
theorem grant_accepted_twice :
    ∃ s, (replay sampleEnv).Reaches (fun _ _ => True) (.initial sampleEnv 0) s ∧
      ¬ (s.accepted.map Prod.fst).Nodup := by
  have hrun : ((replay sampleEnv).run (fun _ _ => true) (.initial sampleEnv 0)
      [.present (sampleGrant 5 9 0) 0, .present (sampleGrant 5 9 0) (60 * second)]).map
        (fun s => s.accepted.map Prod.fst) = some [5, 5] := by decide +kernel
  obtain ⟨s, hreach, haccepted⟩ := Machine.exists_of_view hrun
  grind

end Centrald.Proofs
