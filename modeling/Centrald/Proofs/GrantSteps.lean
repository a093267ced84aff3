import Centrald.Proofs.Executor
import Centrald.Proofs.Grant

/-!
# `Centrald.Proofs.GrantSteps`: the steps of the executor and the grants

`ExecutorStep` looks at the ledger and leaves the verifier and the
journal of consumed grants open. `GrantStep` is the other half: what a
step does to them and to the grants that the calls carry, with the ledger
left open. `grantStep_of_step` shows that every step is one of its cases.

`brokerEvent` names the two events that matter for a grant: it is
consumed, and the operation is invoked under it.
-/

set_option autoImplicit false

namespace Centrald.Proofs

open Durable Common Platform Client Client.Ledger

/-! ### Events -/

/-- A call of `runner.run`: what it was given, the grant of the request
and the time it was consumed, and the ledger at this moment. -/
structure Invocation where
  grant : PrivilegedGrant
  operation : GrantOperation
  parametersJson : Bytes
  consumedAt : Int
  ledger : Option Bytes

/-- What the broker does that can be seen from outside: it consumes a
grant, and it invokes the runner. -/
inductive BrokerEvent where
  | consumed (grant : PrivilegedGrant)
  | invoked (invocation : Invocation)

variable {env : BrokerEnv}

/-- The verifier accepts the grant of a call. -/
def accepts (s : BrokerState env) (c : Call) : Bool :=
  env.enabled && (s.verifier.verifyAndConsume env.texts c.request.signedGrant c.now).2.toBool

/-- The event of a step. -/
def brokerEvent (s : BrokerState env) : BrokerLabel → Option BrokerEvent
  | .verify i => (s.calls i).bind fun c => if accepts s c then some (.consumed c.grant) else none
  | .run i => (s.calls i).map fun c =>
      .invoked ⟨c.grant, c.grant.operation, c.request.parametersJson, c.now, s.ledger⟩
  | _ => none

/-! ### Steps -/

/-- The grant is on disk, and the operation has not started. -/
def recordedPc : Pc → Bool
  | .recorded | .waiting | .locked | .cleared | .marked => true
  | _ => false

/-- The parameters were compared, and the operation has not started. -/
def comparedPc : Pc → Bool
  | .waiting | .locked | .cleared | .marked => true
  | _ => false

/-- A call goes on, and neither consumes nor records a grant. -/
structure KeepsGrant (pc pc' : Pc) : Prop where
  recorded : recordedPc pc' = true → recordedPc pc = true
  verified : pc' ≠ .verified

/-- A call goes on behind the checks of its grant. -/
structure GoesOn (pc pc' : Pc) : Prop extends KeepsGrant pc pc' where
  compared : comparedPc pc' = true → comparedPc pc = true

theorem goesOn_returned (pc : Pc) (result : CallResult) : GoesOn pc (.returned result) :=
  ⟨⟨nofun, nofun⟩, nofun⟩

theorem goesOn_refused (pc : Pc) (e : String) : GoesOn pc (.refused e) :=
  ⟨⟨nofun, nofun⟩, nofun⟩

theorem goesOn_ran (pc : Pc) (r : BrokerResponse) : GoesOn pc (.ran r) :=
  ⟨⟨nofun, nofun⟩, nofun⟩

/-- The ledger may change, and nothing else but the calls. -/
structure SameGrants (s s' : BrokerState env) : Prop where
  clock : s'.clock = s.clock
  up : s'.up = s.up
  verifier : s'.verifier = s.verifier
  grants : s'.grants = s.grants

/-- What a step does to grants. -/
inductive GrantStep (s : BrokerState env) : BrokerLabel → BrokerState env → Prop where
  | tick {clock : Int} (h : s.clock ≤ clock) : GrantStep s (.tick clock) { s with clock }
  | call {i : Nat} (request : BrokerRequest) (hup : s.up = true) (hfree : s.calls i = none) :
      GrantStep s (.call i request)
        { s with calls := Function.update s.calls i (some ⟨request, s.clock, .entered⟩) }
  | refused {i : Nat} {c : Call} {verifier : GrantVerifier env.sigs} (hc : s.calls i = some c)
      (hrefused : accepts s c = false)
      (hverifier : verifier = s.verifier ∨ verifier = s.verifier.pruneExpired c.now) (e : String) :
      GrantStep s (.verify i) ({ s with verifier }.setPc i c (.refused e))
  | verified {i : Nat} {c : Call} (hc : s.calls i = some c) (hup : s.up = true)
      (haccepts : accepts s c = true)
      (hverify : c.request.signedGrant.verify env.texts env.sigs s.verifier.signingKey
        s.verifier.deviceId c.now = .ok ())
      (hid : c.grant.id ∉ (s.verifier.pruneExpired c.now).consumed) :
      GrantStep s (.verify i)
        ({ s with
          verifier := (s.verifier.pruneExpired c.now).insert c.grant.id c.grant.expiresAt }.setPc
          i c .verified)
  | recorded {i : Nat} {c : Call} (hc : s.calls i = some c) (hpc : c.pc = .verified) :
      GrantStep s (.record i) (recordStep env s i c)
  | compared {i : Nat} {c : Call} (hc : s.calls i = some c) (hpc : c.pc = .recorded)
      (hdigest : env.sha256Hex c.request.parametersJson = c.grant.parametersSha256)
      (ledger : Option Bytes) :
      GrantStep s (.lookup i) ({ s with ledger }.setPc i c .waiting)
  | moved {l : BrokerLabel} {i : Nat} {c : Call} {pc : Pc} {s' : BrokerState env}
      (hc : s.calls i = some c) (hgoes : GoesOn c.pc pc) (hsame : SameGrants s s')
      (hcalls : s'.calls = Function.update s.calls i (some { c with pc }))
      (hevent : brokerEvent s l = none) : GrantStep s l s'
  | run {i : Nat} {c : Call} (hc : s.calls i = some c) (hpc : c.pc = .marked) :
      GrantStep s (.run i) (runStep env s i c)
  | halt {l : BrokerLabel} {s' : BrokerState env} (hcrash : isCrash l = true)
      (hcalls : ∀ i, s'.calls i = none) (hclock : s'.clock = s.clock) (hup : s'.up = false)
      (hverifier : s'.verifier = s.verifier)
      (hgrants : (∃ i written, l = .crashRecord i written) ∨ s'.grants = s.grants) :
      GrantStep s l s'
  | restart {verifier : GrantVerifier env.sigs} (hdown : s.up = false)
      (hbuild : buildVerifier env s.grants s.clock = .ok verifier) :
      GrantStep s .restart { s with verifier, up := true }

section Inversion

variable {s s' : BrokerState env} {i : Nat} {c : Call} {l : BrokerLabel}

theorem atPc_up {pc : Pc} {f : Call → BrokerState env} (h : s.atPc i pc f = some s') :
    s.up = true := by
  rw [BrokerState.atPc] at h
  grind

section

variable (hc : s.calls i = some c)
include hc

/-- A call that goes on, with another ledger. -/
theorem grantStep_setPc {pc : Pc} (hgoes : GoesOn c.pc pc) (hevent : brokerEvent s l = none)
    (ledger : Option Bytes) :
    GrantStep s l ({ s with ledger }.setPc i c pc) :=
  .moved hc hgoes ⟨rfl, rfl, rfl, rfl⟩ rfl hevent

theorem grantStep_finishCall (hevent : brokerEvent s l = none) (ledger : Option Bytes)
    (executions : List Execution) (result : CallResult) :
    GrantStep s l ({ s with ledger, executions }.finishCall i c result) :=
  .moved hc (goesOn_returned c.pc result) ⟨rfl, rfl, rfl, rfl⟩ rfl hevent

theorem verifyStep_grantStep (hup : s.up = true) :
    GrantStep s (.verify i) (verifyStep env s i c) := by
  unfold verifyStep
  split
  next hdisabled =>
    have hrefused : accepts s c = false := by simp [accepts, hdisabled]
    exact .refused hc hrefused (.inl rfl) _
  next henabled =>
    rw [Bool.not_eq_false] at henabled
    rcases verifyAndConsume_cases env.texts s.verifier c.request.signedGrant c.now with
      ⟨e, h⟩ | ⟨e, h⟩ | ⟨h, hverify, hid⟩
    · rw [h]
      exact .refused hc (by simp [accepts, h, Except.toBool]) (.inl rfl) _
    · rw [h]
      exact .refused hc (by simp [accepts, h, Except.toBool]) (.inr rfl) _
    · rw [h]
      exact .verified hc hup (by simp [accepts, henabled, h, Except.toBool]) hverify hid

theorem lookupStep_grantStep (hpc : c.pc = .recorded) :
    GrantStep s (.lookup i) (lookupStep env s i c) := by
  unfold lookupStep
  split
  next => exact grantStep_setPc hc (goesOn_refused c.pc _) rfl s.ledger
  next hdigest =>
    split
    next => exact grantStep_finishCall hc rfl _ s.executions _
    next => exact .compared hc hpc (not_not.1 hdigest) _
    next => exact grantStep_finishCall hc rfl _ s.executions _
    next => exact grantStep_finishCall hc rfl _ s.executions _
    next => exact grantStep_finishCall hc rfl _ s.executions _

theorem lookupAgainStep_grantStep (hpc : c.pc = .locked) :
    GrantStep s (.lookupAgain i) (lookupAgainStep env s i c) := by
  have hgoes : GoesOn c.pc .cleared := by
    rw [hpc]
    exact ⟨⟨fun _ => rfl, nofun⟩, fun _ => rfl⟩
  unfold lookupAgainStep
  split
  next => exact grantStep_finishCall hc rfl _ s.executions _
  next => exact grantStep_setPc hc hgoes rfl _
  next => exact grantStep_finishCall hc rfl _ s.executions _
  next => exact grantStep_finishCall hc rfl _ s.executions _

theorem markStep_grantStep (hpc : c.pc = .cleared) (order : HashOrder) :
    GrantStep s (.mark i order) (markStep env s i c order) := by
  unfold markStep
  split
  next =>
    refine .moved hc ?_ ⟨rfl, rfl, rfl, rfl⟩ rfl rfl
    rw [hpc]
    exact ⟨⟨fun _ => rfl, nofun⟩, fun _ => rfl⟩
  next => exact grantStep_finishCall hc rfl _ s.executions _

theorem finishStep_grantStep (outcome : CallResult) :
    GrantStep s (.finish i outcome) (finishStep env s i c outcome) := by
  cases outcome with
  | ok r => exact .moved hc (goesOn_ran c.pc r) ⟨rfl, rfl, rfl, rfl⟩ rfl rfl
  | failed e => exact .moved hc (goesOn_returned c.pc _) ⟨rfl, rfl, rfl, rfl⟩ rfl rfl

theorem completeStep_grantStep {r : BrokerResponse} (order : HashOrder) :
    GrantStep s (.complete i order) (completeStep env s i c r order) := by
  unfold completeStep
  split
  next => exact .moved hc (goesOn_returned c.pc _) ⟨rfl, rfl, rfl, rfl⟩ rfl rfl
  next => exact .moved hc (goesOn_returned c.pc _) ⟨rfl, rfl, rfl, rfl⟩ rfl rfl

end

theorem crashMarkStep_grantStep (order : HashOrder) (written : Nat) :
    GrantStep s (.crashMark i order written) (crashMarkStep env s c order written) := by
  unfold crashMarkStep
  split
  next =>
    simp only
    split_ifs <;> exact .halt rfl (fun _ => rfl) rfl rfl rfl (.inr rfl)
  next => exact .halt rfl (fun _ => rfl) rfl rfl rfl (.inr rfl)

/-- Every step is one of these. -/
theorem grantStep_of_step (h : (executor env).step s l = some s') : GrantStep s l s' := by
  cases l with
  | tick clock =>
    obtain ⟨hle, h⟩ := Option.ite_none_right_eq_some.1 h
    cases h
    exact .tick hle
  | call i request =>
    obtain ⟨hfree, h⟩ := Option.ite_none_right_eq_some.1 h
    cases h
    exact .call request hfree.1 hfree.2
  | verify i =>
    have hup := atPc_up h
    obtain ⟨c, hc, -, rfl⟩ := atPc_eq_some h
    exact verifyStep_grantStep hc hup
  | record i =>
    obtain ⟨c, hc, hpc, rfl⟩ := atPc_eq_some h
    exact .recorded hc hpc
  | lookup i =>
    obtain ⟨c, hc, hpc, rfl⟩ := atPc_eq_some h
    exact lookupStep_grantStep hc hpc
  | acquire i =>
    obtain ⟨-, h⟩ := Option.ite_none_right_eq_some.1 h
    obtain ⟨c, hc, hpc, rfl⟩ := atPc_eq_some h
    refine .moved hc ?_ ⟨rfl, rfl, rfl, rfl⟩ rfl rfl
    rw [hpc]
    exact ⟨⟨fun _ => rfl, nofun⟩, fun _ => rfl⟩
  | lookupAgain i =>
    obtain ⟨c, hc, hpc, rfl⟩ := atPc_eq_some h
    exact lookupAgainStep_grantStep hc hpc
  | mark i order =>
    obtain ⟨c, hc, hpc, rfl⟩ := atPc_eq_some h
    exact markStep_grantStep hc hpc order
  | run i =>
    obtain ⟨c, hc, hpc, rfl⟩ := atPc_eq_some h
    exact .run hc hpc
  | finish i outcome =>
    obtain ⟨c, hc, -, rfl⟩ := atPc_eq_some h
    exact finishStep_grantStep hc outcome
  | complete i order =>
    obtain ⟨c, r, hc, -, rfl⟩ := atRan_eq_some h
    exact completeStep_grantStep hc order
  | crash =>
    obtain ⟨-, h⟩ := Option.ite_none_right_eq_some.1 h
    cases h
    exact .halt rfl (fun _ => rfl) rfl rfl rfl (.inr rfl)
  | crashRecord i written =>
    obtain ⟨c, -, -, rfl⟩ := atPc_eq_some h
    exact .halt rfl (fun _ => rfl) rfl rfl rfl (.inl ⟨i, written, rfl⟩)
  | crashMark i order written =>
    obtain ⟨c, -, -, rfl⟩ := atPc_eq_some h
    exact crashMarkStep_grantStep order written
  | crashComplete i order written =>
    obtain ⟨c, r, -, -, rfl⟩ := atRan_eq_some h
    exact .halt rfl (fun _ => rfl) rfl rfl rfl (.inr rfl)
  | restart =>
    obtain ⟨hdown, h⟩ := Option.ite_none_left_eq_some.1 h
    split at h
    next => cases h
    next verifier hbuild =>
      cases h
      exact .restart (Bool.not_eq_true _ ▸ hdown) hbuild

end Inversion

end Centrald.Proofs
