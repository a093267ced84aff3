import Centrald.Proofs.GrantSteps
import Centrald.Proofs.ShellGrants

/-!
# `Centrald.Proofs.AuthorisedRuns`: every privileged run has its grant

Whatever requests the broker gets, an operation is invoked only under a
grant that the server has signed for this device, this operation and
these parameters, and that was consumed within its window. A lookup under
the lock precedes the invocation, so the ledger then holds nothing of the
job but its own marker and records that have expired
(`privileged_runs_authorised`, first part).

A consumed grant stays in the replay set until it expires, also over
restarts. At that instant it is forgotten, but still verifies. If no
consumed grant is verified again from then on, no grant authorises two
invocations (second part).
-/

set_option autoImplicit false

namespace Centrald.Proofs

open Durable Common Platform Client Client.Ledger
open Server (JobRow ServerSigns jobGrantOf shellGrant)

variable {env : BrokerEnv} {signed : Set PrivilegedGrant}

/-- The executor with its events. -/
abbrev LoggedState (env : BrokerEnv) := BrokerState env × List BrokerEvent

def loggedExecutor (env : BrokerEnv) : Machine (LoggedState env) BrokerLabel :=
  (executor env).logged brokerEvent

/-- A broker that starts with a ledger, with no events so far. -/
def LoggedState.fresh (env : BrokerEnv) (clock : Int) (ledger : Option Bytes) : LoggedState env :=
  (.fresh env clock ledger, [])

/-- No request carries a grant with a made-up signature. -/
def UnforgedRequests (env : BrokerEnv) (signed : Set PrivilegedGrant) (_ : LoggedState env) :
    BrokerLabel → Prop
  | .call _ request => Unforged env.texts env.sigs env.signingKey signed request.signedGrant
  | _ => True

/-! ### Events of a run -/

def BrokerEvent.invocation : BrokerEvent → Option Invocation
  | .invoked inv => some inv
  | .consumed _ => none

/-- The invocations of a run, in order. -/
def invocations (log : List BrokerEvent) : List Invocation :=
  log.filterMap BrokerEvent.invocation

/-- The invocation that a call makes. -/
def invocationOf (c : Call) (ledger : Option Bytes) : Invocation :=
  ⟨c.grant, c.grant.operation, c.request.parametersJson, c.now, ledger⟩

section Events

variable {s s' : LoggedState env} {l : BrokerLabel}

section

variable (h : (loggedExecutor env).step s l = some s')
include h

theorem log_step : s'.2 = s.2 ++ (brokerEvent s.1 l).toList :=
  (Machine.logged_step h).2

theorem executor_step : (executor env).step s.1 l = some s'.1 :=
  (Machine.logged_step h).1

theorem log_subset : s.2 ⊆ s'.2 := by
  rw [log_step h]
  exact List.subset_append_left _ _

/-- Only `.run` invokes. -/
theorem invocations_of_ne_run (hl : ∀ i, l ≠ .run i) : invocations s'.2 = invocations s.2 := by
  have hevent : (brokerEvent s.1 l).toList.filterMap BrokerEvent.invocation = [] := by
    cases l with
    | run i => exact (hl i rfl).elim
    | verify i =>
      simp only [brokerEvent]
      cases s.1.calls i with
      | none => rfl
      | some c =>
        simp only [Option.bind_some]
        split_ifs <;> rfl
    | _ => rfl
  rw [log_step h, invocations, List.filterMap_append, hevent, List.append_nil]
  rfl

end

theorem invocations_run {i : Nat} (h : (loggedExecutor env).step s (.run i) = some s') :
    ∃ c, s.1.calls i = some c ∧ c.pc = .marked ∧
      invocations s'.2 = invocations s.2 ++ [invocationOf c s.1.ledger] := by
  obtain ⟨c, hc, hpc, -⟩ := atPc_eq_some (executor_step h)
  refine ⟨c, hc, hpc, ?_⟩
  rw [log_step h, invocations, List.filterMap_append, brokerEvent, hc]
  rfl

/-- An invocation of a run was there before a step, or a marked call makes it. -/
theorem invocation_cases (h : (loggedExecutor env).step s l = some s') {inv : Invocation}
    (hinv : inv ∈ invocations s'.2) :
    inv ∈ invocations s.2 ∨
      ∃ i c, s.1.calls i = some c ∧ c.pc = .marked ∧ inv = invocationOf c s.1.ledger := by
  by_cases hl : ∃ i, l = .run i
  · obtain ⟨i, rfl⟩ := hl
    obtain ⟨c, hc, hpc, hlog⟩ := invocations_run h
    grind
  · rw [invocations_of_ne_run h (not_exists.1 hl)] at hinv
    exact .inl hinv

end Events

/-! ### Authorised invocations -/

/-- The grant of an invocation is signed, for this device, operation and
parameters, and was consumed within its window. Its lifetime, in whole
seconds, is within the limit. -/
structure Authorised (env : BrokerEnv) (signed : Set PrivilegedGrant) (inv : Invocation) :
    Prop where
  signed : inv.grant ∈ signed
  device : inv.grant.deviceId = env.deviceId
  operation : inv.grant.operation = inv.operation
  parameters : inv.grant.parametersSha256 = env.sha256Hex inv.parametersJson
  positive : 0 < inv.grant.expiresAt - inv.grant.issuedAt
  lifetime : numSeconds (inv.grant.expiresAt - inv.grant.issuedAt) ≤ 1800
  issued : inv.grant.issuedAt ≤ inv.consumedAt
  expires : inv.consumedAt ≤ inv.grant.expiresAt

/-- What is known of a call. -/
structure CallAuthorised (env : BrokerEnv) (signed : Set PrivilegedGrant) (c : Call) :
    Prop where
  unforged : Unforged env.texts env.sigs env.signingKey signed c.request.signedGrant
  verified : c.pc = .verified ∨ recordedPc c.pc = true →
    Verifies env.texts env.sigs c.request.signedGrant env.signingKey env.deviceId c.now
  compared : comparedPc c.pc = true →
    env.sha256Hex c.request.parametersJson = c.grant.parametersSha256

/-- Calls and invocations are authorised by grants of `signed`, and the
verifier keeps its device and its key. -/
structure AuthInv (signed : Set PrivilegedGrant) (s : LoggedState env) : Prop where
  deviceId : s.1.verifier.deviceId = env.deviceId
  signingKey : s.1.verifier.signingKey = env.signingKey
  calls : ∀ i c, s.1.calls i = some c → CallAuthorised env signed c
  invoked : ∀ inv ∈ invocations s.2, Authorised env signed inv

/-- A call whose grant was verified carries a signed one. -/
theorem CallAuthorised.mem_signed {c : Call} (h : CallAuthorised env signed c)
    (hpc : c.pc = .verified ∨ recordedPc c.pc = true) : c.grant ∈ signed :=
  (h.verified hpc).mem_issued h.unforged

theorem pos_of_numSeconds_pos {duration : Int} (h : 0 < numSeconds duration) : 0 < duration := by
  by_contra hneg
  have hnonneg : 0 ≤ (-duration).tdiv second := Int.tdiv_nonneg (by omega) (by decide)
  rw [Int.neg_tdiv] at hnonneg
  rw [numSeconds] at h
  omega

/-- The invocation of a marked call is authorised. -/
theorem CallAuthorised.invocation {c : Call} (h : CallAuthorised env signed c)
    (hpc : c.pc = .marked) (ledger : Option Bytes) :
    Authorised env signed (invocationOf c ledger) := by
  have hrecorded : recordedPc c.pc = true := by
    rw [hpc]
    rfl
  have hcompared : comparedPc c.pc = true := by
    rw [hpc]
    rfl
  have hverified := h.verified (.inr hrecorded)
  have hpositive := pos_of_numSeconds_pos hverified.positive
  exact ⟨h.mem_signed (.inr hrecorded), hverified.device, rfl, (h.compared hcompared).symm,
    hpositive, hverified.lifetime, hverified.issued, hverified.expires⟩

theorem restored_same {sigs : Signatures} (now : Int) (grants : List (Nat × Int)) :
    ∀ v : GrantVerifier sigs,
      (grants.foldl (fun v g => v.restore g.1 g.2 now) v).deviceId = v.deviceId ∧
      (grants.foldl (fun v g => v.restore g.1 g.2 now) v).signingKey = v.signingKey := by
  induction grants with
  | nil => exact fun v => ⟨rfl, rfl⟩
  | cons g rest ih =>
    intro v
    obtain ⟨hdevice, hkey⟩ := ih (v.restore g.1 g.2 now)
    have hsame : (v.restore g.1 g.2 now).deviceId = v.deviceId ∧
        (v.restore g.1 g.2 now).signingKey = v.signingKey := by
      unfold GrantVerifier.restore
      split_ifs <;> exact ⟨rfl, rfl⟩
    exact ⟨hdevice.trans hsame.1, hkey.trans hsame.2⟩

theorem buildVerifier_same {file : Option Bytes} {now : Int} {v : GrantVerifier env.sigs}
    (h : buildVerifier env file now = .ok v) :
    v.deviceId = env.deviceId ∧ v.signingKey = env.signingKey := by
  unfold buildVerifier at h
  split at h
  · cases h
  · cases h
    exact restored_same now _ _

/-- A step keeps the authorisation of calls and of invocations. -/
theorem AuthInv.step {s s' : LoggedState env} {l : BrokerLabel} (h : AuthInv signed s)
    (hG : UnforgedRequests env signed s l) (hstep : (loggedExecutor env).step s l = some s') :
    AuthInv signed s' := by
  have hinvoked : ∀ inv ∈ invocations s'.2, Authorised env signed inv := by
    intro inv hinv
    rcases invocation_cases hstep hinv with hinv | ⟨i, c, hc, hpc, rfl⟩
    · exact h.invoked inv hinv
    · exact (h.calls i c hc).invocation hpc s.1.ledger
  obtain ⟨s', log'⟩ := s'
  have hexec := executor_step hstep
  simp only at hexec
  have hgrant := grantStep_of_step hexec
  obtain ⟨hdevice, hkey, hcalls, -⟩ := h
  have hcalls' : ∀ i c, s'.calls i = some c → CallAuthorised env signed c := by
    intro k d hd
    cases hgrant with
    | moved hc hgoes hsame hmoved hevent =>
      rw [hmoved] at hd
      constructor <;> grind [CallAuthorised, GoesOn, KeepsGrant]
    | _ =>
      dsimp only [recordStep, runStep, BrokerState.setPc] at *
      constructor <;>
        grind [CallAuthorised, verify_eq_ok_iff, UnforgedRequests, recordedPc, comparedPc]
  refine ⟨?_, ?_, hcalls', hinvoked⟩ <;> cases hgrant with
  | moved _ _ hsame => rwa [hsame.verifier]
  | refused _ _ hverifier => rcases hverifier with rfl | rfl <;> assumption
  | halt _ _ _ _ hverifier => rwa [hverifier]
  | restart _ hbuild =>
    first | exact (buildVerifier_same hbuild).1 | exact (buildVerifier_same hbuild).2
  | _ => assumption

/-! ### The ledger at an invocation -/

/-- The records of a job are the marker of its call and expired ones. -/
def OnlyMarker (rs : List LedgerRecord) (job : Nat) (operation : GrantOperation) (now : Int) :
    Prop :=
  ∀ r ∈ rs, r.jobId = job →
    r = executingMarker job operation now ∨ (r.state = .completed ∧ r.expiresAt ≤ now)

/-- The ledger of an invocation holds nothing of its job but the marker
of the call and expired records. -/
def Unrecorded (env : BrokerEnv) (inv : Invocation) : Prop :=
  ∃ rs, Represents env inv.ledger rs ∧
    OnlyMarker rs inv.grant.jobOrSessionId inv.operation inv.consumedAt

theorem expired_of_not_retained {now : Int} {r : LedgerRecord} (h : retained now r = false) :
    r.state = .completed ∧ r.expiresAt ≤ now := by
  rw [retained, Bool.or_eq_false_iff, decide_eq_false_iff_not, not_lt] at h
  refine ⟨?_, h.1⟩
  cases hstate : r.state with
  | completed => rfl
  | executing =>
    rw [hstate] at h
    cases h.2

variable {rs : List LedgerRecord}

section

variable {now : Int} {job : Nat} (h : lookupIn rs job now = .ok none)
include h

/-- A lookup that finds nothing has seen expired records at most. -/
theorem expired_of_lookupIn {r : LedgerRecord} (hr : r ∈ rs) (hjob : r.jobId = job) :
    r.state = .completed ∧ r.expiresAt ≤ now := by
  refine expired_of_not_retained (Bool.eq_false_iff.2 fun hretained => ?_)
  have hmem : r ∈ rs.filter (retained now) := List.mem_filter.2 ⟨hr, hretained⟩
  unfold lookupIn at h
  cases hlatest : latestRecord (rs.filter (retained now)) job with
  | none => exact latestRecord_eq_none.1 hlatest r hmem hjob
  | some latest =>
    simp only [hlatest] at h
    cases hlookup : lookupRecord now latest <;> rw [hlookup] at h <;> cases h

theorem onlyMarker_of_lookupIn (clock : Int) (order : HashOrder) (operation : GrantOperation) :
    OnlyMarker (compacted env clock order rs ++ [executingMarker job operation now])
      job operation now := by
  intro r hr hjob
  rcases List.mem_append.1 hr with hr | hr
  · exact .inr (expired_of_lookupIn h (mem_of_mem_compacted hr) hjob)
  · exact .inl (List.mem_singleton.1 hr)

end

/-- When a call is about to run its job, and at every invocation so far,
the ledger holds nothing of the job but the marker of the call and expired
records. -/
structure MarkerInv (rs : List LedgerRecord) (s : LoggedState env) : Prop where
  calls : CallInv s.1
  marked : ∀ i c, s.1.calls i = some c → c.pc = .marked →
    OnlyMarker rs c.job c.grant.operation c.now
  invoked : ∀ inv ∈ invocations s.2, Unrecorded env inv

/-- A step keeps it: a marker is only written after a lookup that finds
nothing. -/
theorem MarkerInv.step {s s' : LoggedState env} {l : BrokerLabel}
    (hrep : Represents env s.1.ledger rs) (h : MarkerInv rs s)
    (hstep : (loggedExecutor env).step s l = some s') :
    ∃ rs', Represents env s'.1.ledger rs' ∧ MarkerInv rs' s' := by
  have hinvoked : ∀ inv ∈ invocations s'.2, Unrecorded env inv := by
    intro inv hinv
    rcases invocation_cases hstep hinv with hinv | ⟨i, c, hc, hpc, rfl⟩
    · exact h.invoked inv hinv
    · exact ⟨rs, hrep, h.marked i c hc hpc⟩
  obtain ⟨s', log'⟩ := s'
  obtain ⟨rs', hrep', hexec⟩ := executorStep_of_step hrep (executor_step hstep)
  refine ⟨rs', hrep', h.calls.step hexec, ?_, hinvoked⟩
  simp only at hexec
  have hmarked := h.marked
  -- while a call holds the lock, no other call is marked
  have honly := @CallInv.eq_of_holdsLock env s.1
  have hfresh := @onlyMarker_of_lookupIn env
  have hcalls := h.calls
  cases hexec <;>
    dsimp at * <;>
    grind [holdsLock]

/-! ### Each grant once -/

/-- No consumed grant is verified again once it has expired, and the
process does not die inside an append to the journal of consumed grants. -/
def NotReverified (s : LoggedState env) : BrokerLabel → Prop
  | .verify i => ∀ c, s.1.calls i = some c → .consumed c.grant ∈ s.2 →
      s.1.clock < c.grant.expiresAt
  | .crashRecord _ _ => False
  | _ => True

/-- The identifiers of the grants under which operations were invoked. -/
def invokedIds (s : LoggedState env) : List Nat :=
  (invocations s.2).map fun inv => inv.grant.id

/-- What is known of a call when the journal holds `gs`. -/
structure CallOnce (gs : List (Nat × Int)) (s : LoggedState env) (c : Call) : Prop where
  now_le : c.now ≤ s.1.clock
  unrecorded : c.pc = .verified → c.grant.id ∉ gs.map Prod.fst
  consumed : c.pc = .verified → .consumed c.grant ∈ s.2
  queued : c.pc = .verified → s.1.clock < c.grant.expiresAt →
    toLex (c.grant.expiresAt, c.grant.id) ∈ s.1.verifier.order.items
  recorded : recordedPc c.pc = true → c.grant.id ∈ gs.map Prod.fst
  notInvoked : recordedPc c.pc = true → c.grant.id ∉ invokedIds s

/-- The journal holds the recorded grants. Each consumed grant belongs to
one call, and the verifier remembers it until it expires. -/
structure GrantOnceInv (signed : Set PrivilegedGrant) (gs : List (Nat × Int))
    (s : LoggedState env) : Prop where
  synced : Synced s.1.verifier
  journal : s.1.grants = recordAll env none gs
  nodup : (gs.map Prod.fst).Nodup
  origin : ∀ g ∈ gs, ∃ grant ∈ signed,
    .consumed grant ∈ s.2 ∧ (grant.id, grant.expiresAt) = g
  remembered : s.1.up = true → ∀ g ∈ gs, s.1.clock < g.2 →
    toLex (g.2, g.1) ∈ s.1.verifier.order.items
  down : s.1.up = false → ∀ i, s.1.calls i = none
  calls : ∀ i c, s.1.calls i = some c → CallOnce gs s c
  distinct : ∀ i k c d, s.1.calls i = some c → s.1.calls k = some d →
    (c.pc = .verified ∨ recordedPc c.pc = true) → (d.pc = .verified ∨ recordedPc d.pc = true) →
    c.grant.id = d.grant.id → i = k
  invoked : ∀ id ∈ invokedIds s, id ∈ gs.map Prod.fst
  once : (invokedIds s).Nodup

theorem grantOnceInv_fresh (clock : Int) (ledger : Option Bytes) :
    GrantOnceInv signed [] (.fresh env clock ledger) where
  synced := synced_new _ _
  journal := rfl
  nodup := List.nodup_nil
  origin g hg := by cases hg
  remembered _ g hg := by cases hg
  down h := by cases h
  calls i c hc := by cases hc
  distinct i k c d hc := by cases hc
  invoked id hid := by cases hid
  once := List.nodup_nil

section Once

variable {gs : List (Nat × Int)} {s s' : LoggedState env}

/-- A later state that has forgotten no grant that is still valid. -/
structure Remembers (s s' : LoggedState env) : Prop where
  clock : s.1.clock ≤ s'.1.clock
  queue : ∀ e ∈ s.1.verifier.order.items, s'.1.clock < e.expiresAt →
    e ∈ s'.1.verifier.order.items
  log : s.2 ⊆ s'.2
  invoked : invokedIds s' = invokedIds s

variable {c : Call}

theorem CallOnce.mono (h : CallOnce gs s c) (hs : Remembers s s') : CallOnce gs s' c where
  now_le := h.now_le.trans hs.clock
  unrecorded := h.unrecorded
  consumed hpc := hs.log (h.consumed hpc)
  queued hpc hlt := hs.queue _ (h.queued hpc (hs.clock.trans_lt hlt)) hlt
  recorded := h.recorded
  notInvoked hpc := by
    rw [hs.invoked]
    exact h.notInvoked hpc

theorem CallOnce.goesOn {pc : Pc} (h : CallOnce gs s c) (hgoes : KeepsGrant c.pc pc) :
    CallOnce gs s { c with pc } where
  now_le := h.now_le
  unrecorded hpc := (hgoes.verified hpc).elim
  consumed hpc := (hgoes.verified hpc).elim
  queued hpc := (hgoes.verified hpc).elim
  recorded hpc := h.recorded (hgoes.recorded hpc)
  notInvoked hpc := h.notInvoked (hgoes.recorded hpc)

/-- The calls of the new state: those of the old one, and one that has
gone on or has just entered. -/
structure CallsGoOn (s s' : BrokerState env) : Prop where
  calls : ∀ i c', s'.calls i = some c' →
    (∃ c, s.calls i = some c ∧ ∃ pc, c' = { c with pc } ∧ (pc = c.pc ∨ KeepsGrant c.pc pc)) ∨
      (c'.pc = .entered ∧ c'.now ≤ s'.clock)

/-- Steps that leave the journal alone and invoke nothing. -/
theorem GrantOnceInv.goOn (h : GrantOnceInv signed gs s) (hs : Remembers s s')
    (hsynced : Synced s'.1.verifier) (hgrants : s'.1.grants = s.1.grants)
    (hup : s'.1.up = s.1.up) (hdown : s'.1.up = false → ∀ i, s'.1.calls i = none)
    (hcalls : CallsGoOn s.1 s'.1) : GrantOnceInv signed gs s' where
  synced := hsynced
  journal := hgrants.trans h.journal
  nodup := h.nodup
  origin g hg := by
    obtain ⟨grant, hgrant, hconsumed, heq⟩ := h.origin g hg
    exact ⟨grant, hgrant, hs.log hconsumed, heq⟩
  remembered hup' g hg hlt :=
    hs.queue _ (h.remembered (hup.symm.trans hup') g hg (hs.clock.trans_lt hlt)) hlt
  down := hdown
  calls i c' hc' := by
    have hmono {c : Call} (hc : CallOnce gs s c) : CallOnce gs s' c := hc.mono hs
    have hgoes {c : Call} {pc : Pc} (hc : CallOnce gs s' c) (h : KeepsGrant c.pc pc) :=
      hc.goesOn h
    rcases hcalls.calls i c' hc' with ⟨c, hc, pc, rfl, hpc⟩ | ⟨hentered, hnow⟩
    · rcases hpc with rfl | hpc
      · exact hmono (h.calls i c hc)
      · exact hgoes (hmono (h.calls i c hc)) hpc
    · constructor <;> grind [recordedPc]
  distinct := by
    -- a call that carries a grant carried it before
    have hback : ∀ i c', s'.1.calls i = some c' → (c'.pc = .verified ∨ recordedPc c'.pc = true) →
        ∃ c, s.1.calls i = some c ∧ c'.grant.id = c.grant.id ∧
          (c.pc = .verified ∨ recordedPc c.pc = true) := by
      have := hcalls.calls
      grind [KeepsGrant, recordedPc]
    have := h.distinct
    grind
  invoked id hid := h.invoked id (hs.invoked ▸ hid)
  once := by
    rw [hs.invoked]
    exact h.once

/-! ### The steps of a grant -/

variable {i : Nat}

/-- A grant with the identifier of `c` that was consumed before is still
in the queue. -/
theorem GrantOnceInv.not_consumed (h : GrantOnceInv signed gs s)
    (hids : ∀ g ∈ signed, ∀ g' ∈ signed, g.id = g'.id → g = g')
    (hc : s.1.calls i = some c) (hsigned : c.grant ∈ signed) (hG : NotReverified s (.verify i))
    (hid : c.grant.id ∉ (s.1.verifier.pruneExpired c.now).consumed) {grant : PrivilegedGrant}
    (hgrant : grant ∈ signed) (hconsumed : .consumed grant ∈ s.2)
    (hqueued : s.1.clock < grant.expiresAt →
      toLex (grant.expiresAt, grant.id) ∈ s.1.verifier.order.items) :
    grant.id ≠ c.grant.id := by
  intro heq
  obtain rfl := hids grant hgrant c.grant hsigned heq
  have hlt : s.1.clock < c.grant.expiresAt := hG c hc hconsumed
  have hmem : toLex (c.grant.expiresAt, c.grant.id) ∈
      (s.1.verifier.pruneExpired c.now).order.items :=
    mem_pruneExpired.2 ⟨hqueued hlt, (h.calls i c hc).now_le.trans_lt hlt⟩
  exact hid ((synced_pruneExpired h.synced c.now).mem_consumed.2 ⟨_, hmem, rfl⟩)

variable {st : BrokerState env}

section

variable {log : List BrokerEvent} (h : GrantOnceInv signed gs (st, log))
include h

/-- The grant of a call is consumed. -/
theorem GrantOnceInv.verified (hauth : AuthInv signed (st, log))
    (hids : ∀ g ∈ signed, ∀ g' ∈ signed, g.id = g'.id → g = g') (hc : st.calls i = some c)
    (hup : st.up = true) (hsigned : c.grant ∈ signed) (hG : NotReverified (st, log) (.verify i))
    (hid : c.grant.id ∉ (st.verifier.pruneExpired c.now).consumed) :
    GrantOnceInv signed gs (({ st with
        verifier := (st.verifier.pruneExpired c.now).insert c.grant.id c.grant.expiresAt }.setPc
        i c .verified), log ++ [.consumed c.grant]) := by
  have hnow := (h.calls i c hc).now_le
  have hs : Remembers (st, log) (({ st with
        verifier := (st.verifier.pruneExpired c.now).insert c.grant.id c.grant.expiresAt }.setPc
        i c .verified), log ++ [.consumed c.grant]) := by
    refine ⟨le_refl _, ?_, List.subset_append_left _ _, ?_⟩
    · intro e he hlt
      exact MinHeap.mem_push.2 (.inr (mem_pruneExpired.2 ⟨he, hnow.trans_lt hlt⟩))
    · simp [invokedIds, invocations, BrokerEvent.invocation]
  -- the identifier is new: a recorded or pending grant would still be queued
  have hfresh : c.grant.id ∉ gs.map Prod.fst := by
    intro hmem
    obtain ⟨g, hg, hgid⟩ := List.mem_map.1 hmem
    obtain ⟨grant, hgrant, hconsumed, rfl⟩ := h.origin g hg
    exact h.not_consumed hids hc hsigned hG hid hgrant hconsumed (h.remembered hup _ hg) hgid
  have hother : ∀ k d, k ≠ i → st.calls k = some d →
      (d.pc = .verified ∨ recordedPc d.pc = true) → d.grant.id ≠ c.grant.id := by
    intro k d _ hd hpd
    have hcall := h.calls k d hd
    rcases hpd with hpd | hpd
    · exact h.not_consumed hids hc hsigned hG hid ((hauth.calls k d hd).mem_signed (.inl hpd))
        (hcall.consumed hpd) (hcall.queued hpd)
    · exact fun heq => hfresh (heq ▸ hcall.recorded hpd)
  have hcall : CallOnce gs (({ st with
        verifier := (st.verifier.pruneExpired c.now).insert c.grant.id c.grant.expiresAt }.setPc
        i c .verified), log ++ [.consumed c.grant]) { c with pc := .verified } :=
    ⟨hnow, fun _ => hfresh, fun _ => List.mem_append_right _ (List.mem_singleton.2 rfl),
      fun _ _ => MinHeap.mem_push.2 (.inl rfl), nofun, nofun⟩
  have hmono {d : Call} (hd : CallOnce gs (st, log) d) := hd.mono hs
  have hsynced := synced_insert (synced_pruneExpired h.synced c.now) c.grant.expiresAt hid
  have hremembered (g) (hg : g ∈ gs) (hlt : st.clock < g.2) :=
    hs.queue _ (h.remembered hup g hg hlt) hlt
  obtain ⟨-, hjournal, hnodup, horigin, -, -, hcalls, hdistinct, hinvoked, honce⟩ := h
  obtain ⟨-, hqueue, hlog, hids⟩ := hs
  constructor <;> dsimp only [BrokerState.setPc] at * <;> grind

/-- The grant of a call is recorded. -/
theorem GrantOnceInv.recordGrant (hc : st.calls i = some c) (hpc : c.pc = .verified)
    (hsigned : c.grant ∈ signed) :
    GrantOnceInv signed (gs ++ [(c.grant.id, c.grant.expiresAt)]) (recordStep env st i c, log) := by
  have hcall := h.calls i c hc
  have hids : (gs ++ [(c.grant.id, c.grant.expiresAt)]).map Prod.fst =
      gs.map Prod.fst ++ [c.grant.id] := by
    rw [List.map_append]
    rfl
  have hup : st.up = true := by
    rw [← Bool.not_eq_false]
    intro hdown
    rw [h.down hdown i] at hc
    cases hc
  have hother : ∀ k d, k ≠ i → st.calls k = some d →
      (d.pc = .verified ∨ recordedPc d.pc = true) → d.grant.id ≠ c.grant.id :=
    fun k d hk hd hpd heq => hk (h.distinct k i d c hd hc hpd (.inl hpc) heq)
  have hjournal : recordConsumedGrant env st.grants (c.grant.id, c.grant.expiresAt) =
      recordAll env none (gs ++ [(c.grant.id, c.grant.expiresAt)]) := by
    rw [recordAll_append, ← h.journal]
    rfl
  obtain ⟨hsynced, -, hnodup, horigin, hremembered, hdown, hcalls, hdistinct, hinvoked, honce⟩ := h
  constructor <;> dsimp only [recordStep, BrokerState.setPc] at * <;>
    grind [CallOnce, List.nodup_append, recordedPc, invokedIds]

/-- An operation is invoked under the grant of a call. -/
theorem GrantOnceInv.run {log' : List BrokerEvent} (hc : st.calls i = some c)
    (hpc : c.pc = .marked) (hlog : log ⊆ log')
    (hinvoked : invocations log' = invocations log ++ [invocationOf c st.ledger]) :
    GrantOnceInv signed gs (runStep env st i c, log') := by
  have hcall := h.calls i c hc
  have hrecorded : recordedPc c.pc = true := by
    rw [hpc]
    rfl
  have hids : invokedIds (runStep env st i c, log') = invokedIds (st, log) ++ [c.grant.id] := by
    simp only [invokedIds, hinvoked, List.map_append]
    rfl
  obtain ⟨hsynced, hjournal, hnodup, horigin, hremembered, hdown, hcalls, hdistinct, hinvoked,
    honce⟩ := h
  constructor <;> dsimp only [runStep, BrokerState.setPc] at * <;>
    grind [CallOnce, List.nodup_append, recordedPc]

end

/-- The calls of a state in which one of them has gone on. -/
theorem callsGoOn_update {st st' : BrokerState env} {pc : Pc}
    (hc : st.calls i = some c) (hgoes : KeepsGrant c.pc pc)
    (hcalls : st'.calls = Function.update st.calls i (some { c with pc })) :
    CallsGoOn st st' := by
  constructor
  intro k d hd
  rw [hcalls] at hd
  rcases update_eq_some hd with ⟨rfl, rfl⟩ | ⟨-, hd⟩
  · exact .inl ⟨c, hc, pc, rfl, .inr hgoes⟩
  · exact .inl ⟨d, hd, d.pc, rfl, .inl rfl⟩

/-- A step of a live call leaves no state that is down. -/
theorem GrantOnceInv.down_update (h : GrantOnceInv signed gs s)
    (hc : s.1.calls i = some c) {st' : BrokerState env} (hup : st'.up = s.1.up) :
    st'.up = false → ∀ k, st'.calls k = none := by
  intro hdown
  rw [h.down (hup.symm.trans hdown) i] at hc
  cases hc

/-- A step keeps each consumed grant with one call and one invocation. -/
theorem GrantOnceInv.step {l : BrokerLabel} (h : GrantOnceInv signed gs s)
    (hauth : AuthInv signed s)
    (hids : ∀ g ∈ signed, ∀ g' ∈ signed, g.id = g'.id → g = g') (hG : NotReverified s l)
    (hstep : (loggedExecutor env).step s l = some s') : ∃ gs', GrantOnceInv signed gs' s' := by
  have hsub := log_subset hstep
  have hsame : (∀ i, l ≠ .run i) → invokedIds s' = invokedIds s := by
    intro hl
    rw [invokedIds, invokedIds, invocations_of_ne_run hstep hl]
  have hlog := log_step hstep
  obtain ⟨st, log⟩ := s
  obtain ⟨st', log'⟩ := s'
  have hexec := executor_step hstep
  simp only at hexec hlog hsub
  cases grantStep_of_step hexec with
  -- only `record` writes the journal; every other step goes on with the same grants
  | @tick clock hle =>
    refine ⟨gs, h.goOn ⟨hle, fun e he _ => he, hsub, hsame nofun⟩ h.synced rfl rfl h.down ?_⟩
    exact ⟨fun i c hc => .inl ⟨c, hc, c.pc, rfl, .inl rfl⟩⟩
  | @call i request hup hfree =>
    refine ⟨gs, h.goOn ⟨le_refl _, fun e he _ => he, hsub, hsame nofun⟩ h.synced rfl rfl ?_ ?_⟩
    · grind
    · constructor
      intro k d hd
      rcases update_eq_some hd with ⟨rfl, rfl⟩ | ⟨-, hd⟩
      · exact .inr ⟨rfl, le_refl _⟩
      · exact .inl ⟨d, hd, d.pc, rfl, .inl rfl⟩
  | @refused i c verifier hc hrefused hverifier e =>
    have hnow := (h.calls i c hc).now_le
    have hcalls := callsGoOn_update hc (goesOn_refused c.pc e).toKeepsGrant
      (show (({ st with verifier }).setPc i c (.refused e)).calls = _ from rfl)
    have hdown := h.down_update hc
      (show (({ st with verifier }).setPc i c (.refused e)).up = st.up from rfl)
    rcases hverifier with rfl | rfl
    · exact ⟨gs, h.goOn ⟨le_refl _, fun e he _ => he, hsub, hsame nofun⟩ h.synced rfl rfl hdown
        hcalls⟩
    · -- a refused grant may still have made the verifier forget expired ones
      refine ⟨gs, h.goOn ⟨le_refl _, ?_, hsub, hsame nofun⟩ (synced_pruneExpired h.synced c.now)
        rfl rfl hdown hcalls⟩
      exact fun e he hlt => mem_pruneExpired.2 ⟨he, hnow.trans_lt hlt⟩
  | @verified i c hc hup haccepts hverify hid =>
    have hevent : brokerEvent st (.verify i) = some (.consumed c.grant) := by
      simp [brokerEvent, hc, haccepts]
    rw [hevent] at hlog
    subst hlog
    rw [hauth.signingKey, hauth.deviceId, verify_eq_ok_iff] at hverify
    exact ⟨gs, h.verified hauth hids hc hup (hverify.mem_issued (hauth.calls i c hc).unforged) hG
      hid⟩
  | @recorded i c hc hpc =>
    obtain rfl : log' = log := hlog.trans (List.append_nil log)
    exact ⟨_, h.recordGrant hc hpc ((hauth.calls i c hc).mem_signed (.inl hpc))⟩
  | @compared i c hc hpc hdigest ledger =>
    have hgoes : KeepsGrant c.pc .waiting := by
      rw [hpc]
      exact ⟨fun _ => rfl, nofun⟩
    exact ⟨gs, h.goOn ⟨le_refl _, fun e he _ => he, hsub, hsame nofun⟩ h.synced rfl rfl
      (h.down_update hc rfl) (callsGoOn_update hc hgoes rfl)⟩
  | @moved _ i c pc _ hc hgoes hsameGrants hcalls hevent =>
    rw [hevent] at hlog
    obtain rfl : log' = log := hlog.trans (List.append_nil log)
    refine ⟨gs, h.goOn ⟨hsameGrants.clock.ge, ?_, hsub, rfl⟩ (hsameGrants.verifier ▸ h.synced)
      hsameGrants.grants hsameGrants.up (h.down_update hc hsameGrants.up)
      (callsGoOn_update hc hgoes.toKeepsGrant hcalls)⟩
    intro e he _
    rwa [hsameGrants.verifier]
  | @run i c hc hpc =>
    obtain ⟨d, hd, -, hinvoked⟩ := invocations_run hstep
    obtain rfl : c = d := Option.some.inj (hc.symm.trans hd)
    exact ⟨gs, h.run hc hpc hsub hinvoked⟩
  | halt hcrash hcalls hclock hup hverifier hgrants =>
    have hl : ∀ i, l ≠ .run i := by
      rintro i rfl
      cases hcrash
    have hgrants : st'.grants = st.grants := by
      rcases hgrants with ⟨i, written, rfl⟩ | hgrants
      · exact hG.elim
      · exact hgrants
    have hinvoked := hsame hl
    obtain ⟨hsynced, hjournal, hnodup, horigin, -, -, -, -, hids, honce⟩ := h
    refine ⟨gs, ?_⟩
    constructor <;> grind
  | @restart verifier hdown hbuild =>
    -- the new verifier is the one that the journal describes
    obtain ⟨v, hv, hsynced, hmem⟩ := buildVerifier_recordAll env gs st.clock h.nodup
    rw [← h.journal] at hv
    obtain rfl : v = verifier := Except.ok.inj (hv.symm.trans hbuild)
    have hnone := h.down hdown
    have hinvoked := hsame nofun
    obtain ⟨-, hjournal, hnodup, horigin, -, -, -, -, hids, honce⟩ := h
    refine ⟨gs, ?_⟩
    constructor <;> dsimp only at * <;> grind

end Once

/-! ### Whole runs -/

theorem authInv_fresh (clock : Int) (ledger : Option Bytes) :
    AuthInv signed (.fresh env clock ledger) where
  deviceId := rfl
  signingKey := rfl
  calls i c hc := by cases hc
  invoked inv hinv := by cases hinv

theorem markerInv_fresh (clock : Int) (ledger : Option Bytes) (rs : List LedgerRecord) :
    MarkerInv rs (.fresh env clock ledger) where
  calls := ⟨fun _ _ hc => (by cases hc), fun _ _ hc => (by cases hc)⟩
  marked i c hc := by cases hc
  invoked inv hinv := by cases hinv

/-- In every run in which no signature is forged, every invocation has a
signed grant for it, and its ledger holds nothing of the job but its own
marker and expired records. If no consumed grant is verified again after
its expiry, then no grant has two invocations. -/
theorem privileged_runs_authorised {clock : Int} {ledger : Option Bytes} {rs0 : List LedgerRecord}
    (hrep : Represents env ledger rs0)
    (hids : ∀ g ∈ signed, ∀ g' ∈ signed, g.id = g'.id → g = g') :
    (∀ s, (loggedExecutor env).Reaches (UnforgedRequests env signed) (.fresh env clock ledger) s →
      ∀ inv ∈ invocations s.2, Authorised env signed inv ∧ Unrecorded env inv) ∧
    ∀ s, (loggedExecutor env).Reaches
        (fun s l => UnforgedRequests env signed s l ∧ NotReverified s l)
        (.fresh env clock ledger) s →
      ((invocations s.2).map Invocation.grant).Nodup := by
  constructor
  · intro s hreach inv hinv
    have hauth : AuthInv signed s :=
      hreach.invariant (authInv_fresh clock ledger) fun _ _ _ h hG hstep => h.step hG hstep
    obtain ⟨rs, -, hmarker⟩ := hreach.invariant
      (I := fun s => ∃ rs, Represents env s.1.ledger rs ∧ MarkerInv rs s)
      ⟨rs0, hrep, markerInv_fresh clock ledger rs0⟩
      fun _ _ _ ⟨rs, hrep, h⟩ _ hstep => h.step hrep hstep
    exact ⟨hauth.invoked inv hinv, hmarker.invoked inv hinv⟩
  · intro s hreach
    obtain ⟨-, gs, honce⟩ := hreach.invariant
      (I := fun s => AuthInv signed s ∧ ∃ gs, GrantOnceInv signed gs s)
      ⟨authInv_fresh clock ledger, [], grantOnceInv_fresh clock ledger⟩
      fun _ _ _ ⟨hauth, gs, h⟩ hG hstep => ⟨hauth.step hG.1 hstep, h.step hauth hids hG.2 hstep⟩
    refine List.Nodup.of_map PrivilegedGrant.id ?_
    rw [List.map_map]
    exact honce.once

/-! ### An instance -/

/-- Requests with grants of `grants`, at most one of which is verified. -/
def oneGenuine (grants : List PrivilegedGrant) (s : LoggedState env) : BrokerLabel → Bool
  | .call _ request => decide (request.signedGrant.grant ∈ grants)
  | .verify _ => s.2.isEmpty
  | .crashRecord _ _ => false
  | _ => true

theorem guards_of_oneGenuine {grants : List PrivilegedGrant} (hgrants : ∀ g ∈ grants, g ∈ signed)
    (s : LoggedState env) (l : BrokerLabel) (h : oneGenuine grants s l = true) :
    UnforgedRequests env signed s l ∧ NotReverified s l := by
  cases l with
  | call i request => exact ⟨fun _ _ _ => ⟨_, hgrants _ (of_decide_eq_true h), rfl⟩, trivial⟩
  | verify i =>
    refine ⟨trivial, fun c _ hconsumed => ?_⟩
    rw [List.isEmpty_iff.1 h] at hconsumed
    cases hconsumed
  | crashRecord i written => cases h
  | _ => exact ⟨trivial, trivial⟩

/-- A job that lives for the seven days that the configuration allows. -/
def weekJob : JobRow textControl.Value :=
  { restartJob (Json.obj []).print with expiresAt := 604800 * second }

/-- The request of a claim of this job. -/
def weekRequest (claimedAt : Int) (deliveryId grantId : Nat) : BrokerRequest :=
  ⟨textControl.sign (jobGrantOf textControl weekJob claimedAt deliveryId grantId),
    (Json.obj []).print⟩

/-- The job is claimed once and invoked once. -/
theorem privileged_runs_authorised_job : ∃ s, (loggedExecutor textControl).Reaches
        (UnforgedRequests textControl
          {g | g ∈ [(weekRequest 0 20 30).signedGrant.grant]})
        (.fresh textControl 0 none) s ∧
      (invocations s.2).map Invocation.operation = [.restartMachine] ∧
      (∀ inv ∈ invocations s.2,
        Authorised textControl {g | g ∈ [(weekRequest 0 20 30).signedGrant.grant]} inv ∧
        Unrecorded textControl inv) ∧
      ((invocations s.2).map Invocation.grant).Nodup := by
  have hrun : ((loggedExecutor textControl).run
      (oneGenuine [(weekRequest 0 20 30).signedGrant.grant])
      (.fresh textControl 0 none) (.call 0 (weekRequest 0 20 30) :: startLabels 0)).map
        (fun s => (invocations s.2).map Invocation.operation) = some [.restartMachine] := by
    decide +kernel
  obtain ⟨s, hreach, hoperations⟩ :=
    Machine.reached_of_view (fun s l _ => guards_of_oneGenuine (fun _ hg => hg) s l) hrun
  have hunforged := hreach.mono fun _ _ h => h.1
  have hids : ∀ g ∈ ({g | g ∈ [(weekRequest 0 20 30).signedGrant.grant]} : Set PrivilegedGrant),
      ∀ g' ∈ ({g | g ∈ [(weekRequest 0 20 30).signedGrant.grant]} : Set PrivilegedGrant),
        g.id = g'.id → g = g' :=
    fun g hg g' hg' _ => (List.mem_singleton.1 hg).trans (List.mem_singleton.1 hg').symm
  obtain ⟨hauthorised, honce⟩ := privileged_runs_authorised
    (show Represents textControl none [] from represents_none.2 rfl) hids
  exact ⟨s, hunforged, hoperations, hauthorised s hunforged, honce s hreach⟩

/-- The record that the execution of the job at time 1 s has left. -/
def weekRecord : LedgerRecord :=
  completedRecord weekJob.id .restartMachine ⟨true, [], 0⟩ second

/-- The second claim of the job, a second before its end. -/
def lateRequest : BrokerRequest := weekRequest (604799 * second) 21 31

/-- As `lateRequest`, with a grant that lasts for half a second more than
half an hour. -/
def longRequest : BrokerRequest :=
  ⟨textControl.sign { lateRequest.signedGrant.grant with
    expiresAt := lateRequest.signedGrant.grant.issuedAt + 1800 * second + second / 2 },
    lateRequest.parametersJson⟩

/-- The ledger as a compaction has left it, with the completed record of
the job. It has expired when the grant of the second claim is consumed, and
the job is invoked beside it. The last part is about the check of a grant
alone, since the grants that the server makes end 960 s after they are
made: of those it may have signed, one of 1800.5 s passes. -/
theorem invoked_beside_expired_record :
    ServerSigns textControl lateRequest.signedGrant.grant ∧
    (∃ ledger s, Represents textControl ledger [weekRecord] ∧
      (loggedExecutor textControl).Reaches
        (UnforgedRequests textControl {lateRequest.signedGrant.grant})
        (.fresh textControl (604810 * second) ledger) s ∧
      ∃ inv ∈ invocations s.2, ∃ rs, Represents textControl inv.ledger rs ∧
        ∃ r ∈ rs, r.jobId = inv.grant.jobOrSessionId ∧ r.state = .completed) ∧
    ∃ s, (loggedExecutor textControl).Reaches
        (UnforgedRequests textControl {longRequest.signedGrant.grant})
        (.fresh textControl (604810 * second) none) s ∧
      ∃ inv ∈ invocations s.2, 1800 * second < inv.grant.expiresAt - inv.grant.issuedAt := by
  have hguard (g : PrivilegedGrant) (s : LoggedState textControl) (l : BrokerLabel)
      (h : oneGenuine [g] s l = true) : UnforgedRequests textControl {g} s l :=
    (guards_of_oneGenuine (fun _ => List.mem_singleton.1) s l h).1
  refine ⟨.job weekJob _ 21 31, ?_, ?_⟩
  · have hrun : ((loggedExecutor textControl).run
        (oneGenuine [lateRequest.signedGrant.grant])
        (.fresh textControl (604810 * second)
          (some (encodeLedger textControl [weekRecord])))
        (.call 0 lateRequest :: startLabels 0)).map (fun s : LoggedState _ =>
          decide (∃ inv ∈ invocations s.2, inv.grant.jobOrSessionId = weekJob.id ∧
            inv.ledger = some (encodeLedger textControl
              [weekRecord, executingMarker weekJob.id .restartMachine (604810 * second)]))) =
        some true := by
      decide +kernel
    obtain ⟨s, hreach, hview⟩ := Machine.reached_of_view (fun s l _ => hguard _ s l) hrun
    obtain ⟨inv, hinv, hjob, hledger⟩ := of_decide_eq_true hview
    have hrep (rs : List LedgerRecord) : Represents textControl
        (some (encodeLedger textControl rs)) rs := committedPart_encodeLedger rs
    exact ⟨_, s, hrep _, hreach, inv, hinv, _, hledger ▸ hrep _, weekRecord,
      List.mem_cons_self, hjob.symm, rfl⟩
  · have hrun : ((loggedExecutor textControl).run
        (oneGenuine [longRequest.signedGrant.grant])
        (.fresh textControl (604810 * second) none)
        (.call 0 longRequest :: startLabels 0)).map (fun s : LoggedState _ =>
          decide (∃ inv ∈ invocations s.2,
            1800 * second < inv.grant.expiresAt - inv.grant.issuedAt)) = some true := by
      decide +kernel
    obtain ⟨s, hreach, hview⟩ := Machine.reached_of_view (fun s l _ => hguard _ s l) hrun
    exact ⟨s, hreach, of_decide_eq_true hview⟩

end Centrald.Proofs
