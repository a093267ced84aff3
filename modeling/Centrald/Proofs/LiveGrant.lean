import Centrald.Proofs.Executor
import Centrald.Proofs.GrantReplay

/-!
# `Centrald.Proofs.LiveGrant`: operations start under a live grant

`verify_and_consume` compares the expiry of a grant with the time at the
entry of the call. The operation starts later: the call first waits for
the lock, behind operations that take any time, and nothing looks at the
expiry again (`expired_grant_starts`). So an operation starts under a
live grant if no grant expires while its call is on the way to the start
(`starts_under_live_grant`).
-/

set_option autoImplicit false

namespace Centrald.Proofs

open Durable Common Platform Client Client.Ledger

variable {env : BrokerEnv} {s s' : BrokerState env} {rs rs' : List LedgerRecord} {i : Nat}
  {c : Call}

/-- The calls on the way to the start of their operation. -/
def unstarted : Pc → Bool
  | .entered | .verified | .recorded | .waiting | .locked | .cleared | .marked => true
  | _ => false

/-- Time does not pass the expiry of a grant that was live at the entry
of its call while the call has not started its operation. -/
def OutlivesWait (s : BrokerState env) : BrokerLabel → Prop
  | .tick clock => ∀ i c, s.calls i = some c → unstarted c.pc = true →
      c.now ≤ c.grant.expiresAt → clock ≤ c.grant.expiresAt
  | _ => True

def isTick : BrokerLabel → Bool
  | .tick _ => true
  | _ => false

theorem outlivesWait_of_not_tick (s : BrokerState env) (l : BrokerLabel)
    (h : (!isTick l) = true) : OutlivesWait s l := by
  cases l with
  | tick clock => cases h
  | _ => trivial

/-- A call on the way to its start: once verified it had a live grant,
and a grant that was live still is. -/
structure OnTime (clock : Int) (c : Call) : Prop where
  verified : unstarted c.pc = true → c.pc = .entered ∨ c.now ≤ c.grant.expiresAt
  live : unstarted c.pc = true → c.now ≤ c.grant.expiresAt → clock ≤ c.grant.expiresAt

/-- Every call is on time, and every job was started before its grant
expired. -/
structure LiveInv (s : BrokerState env) : Prop where
  calls : ∀ i c, s.calls i = some c → OnTime s.clock c
  started : ∀ e ∈ s.executions, e.startedAt ≤ e.grantExpiresAt

variable {clock : Int}

/-- A call that is past its start, or has returned, is on time. -/
theorem OnTime.of_started (h : unstarted c.pc = false) : OnTime clock c := by
  constructor
  · grind
  · grind

/-- Past the verification the grant is live. -/
theorem OnTime.expiresAt (h : OnTime clock c) (hpc : unstarted c.pc = true)
    (hne : c.pc ≠ .entered) : clock ≤ c.grant.expiresAt :=
  h.live hpc ((h.verified hpc).resolve_left hne)

/-- On its way a call stays on time. -/
theorem OnTime.forward (h : OnTime clock c) (hpc : unstarted c.pc = true)
    (hne : c.pc ≠ .entered) (pc : Pc) : OnTime clock { c with pc } where
  verified _ := .inr ((h.verified hpc).resolve_left hne)
  live _ _ := h.expiresAt hpc hne

theorem Move.onTime {l : BrokerLabel} {pc : Pc} (hmove : Move rs i c l pc)
    (h : OnTime clock c) : OnTime clock { c with pc } := by
  cases hmove with
  | verified hpc hlive =>
    -- the only place where the expiry is checked
    have hunstarted : unstarted c.pc = true := by rw [hpc]; rfl
    exact ⟨fun _ => .inr hlive, fun _ _ => h.live hunstarted hlive⟩
  | refusedGrant hpc e => exact .of_started rfl
  | recorded hpc => exact h.forward (by rw [hpc]; rfl) (by rw [hpc]; nofun) _
  | refusedParameters hpc e => exact .of_started rfl
  | waiting hpc hnone => exact h.forward (by rw [hpc]; rfl) (by rw [hpc]; nofun) _
  | cleared hpc hnone => exact h.forward (by rw [hpc]; rfl) (by rw [hpc]; nofun) _
  | ran hpc r => exact .of_started rfl

/-- All calls are on time after one of them changed. -/
theorem LiveInv.update (h : LiveInv s) {d : Call} (hd : OnTime s.clock d) :
    ∀ k e, Function.update s.calls i (some d) k = some e → OnTime s.clock e := by
  intro k e he
  rcases update_eq_some he with ⟨rfl, rfl⟩ | ⟨-, he⟩
  · exact hd
  · exact h.calls k e he

theorem LiveInv.setOutcome (h : LiveInv s) (outcome : ExecutionOutcome) :
    ∀ e ∈ (s.setOutcome outcome).executions, e.startedAt ≤ e.grantExpiresAt := by
  have hstarted := h.started
  intro e he
  cases hlist : s.executions with
  | nil =>
    rw [BrokerState.setOutcome, hlist] at he
    cases he
  | cons first rest =>
    simp only [BrokerState.setOutcome, hlist, List.mem_cons] at he hstarted
    grind

/-- A step keeps calls on time, if no grant runs out while its call waits.
-/
theorem LiveInv.step {l : BrokerLabel} (h : LiveInv s) (hG : OutlivesWait s l)
    (hstep : ExecutorStep rs s l rs' s') : LiveInv s' := by
  cases hstep with
  | tick hle =>
    exact ⟨fun i c hc => ⟨(h.calls i c hc).verified, hG i c hc⟩, h.started⟩
  | call request hfree =>
    exact ⟨h.update ⟨fun _ => .inl rfl, fun _ hlive => hlive⟩, h.started⟩
  | move hc hmove => exact ⟨h.update (hmove.onTime (h.calls _ _ hc)), h.started⟩
  | acquire hc hpc hfree =>
    have hcall := h.calls _ _ hc
    exact ⟨h.update (hcall.forward (by rw [hpc]; rfl) (by rw [hpc]; nofun) .locked), h.started⟩
  | answer hc hanswer => exact ⟨h.update (.of_started rfl), h.started⟩
  | marked hc hpc hnone order =>
    have hcall := h.calls _ _ hc
    exact ⟨h.update (hcall.forward (by rw [hpc]; rfl) (by rw [hpc]; nofun) .marked), h.started⟩
  | @run i c hc hpc =>
    have hlive : s.clock ≤ c.grant.expiresAt :=
      (h.calls i c hc).expiresAt (by rw [hpc]; rfl) (by rw [hpc]; nofun)
    refine ⟨h.update (.of_started rfl), fun e he => ?_⟩
    rcases List.mem_cons.1 he with rfl | he
    · exact hlive
    · exact h.started e he
  | ended hc hended => exact ⟨h.update (.of_started rfl), h.setOutcome _⟩
  | @halt l rs' c hhalt =>
    have hexecutions : (noteCall s c).executions = s.executions := by cases c <;> rfl
    refine ⟨fun _ _ hd => (nomatch hd), fun e he => h.started e ?_⟩
    rwa [← hexecutions]
  | restart => exact ⟨h.calls, h.started⟩

theorem liveInv_of_reaches {ledger : Option Bytes} (hledger : Represents env ledger rs)
    (h : (executor env).Reaches OutlivesWait (.fresh env clock ledger) s) : LiveInv s := by
  have hfresh : LiveInv (.fresh env clock ledger) :=
    ⟨fun _ _ hc => (nomatch hc), fun _ he => (nomatch he)⟩
  obtain ⟨-, -, hinv⟩ := ledger_invariant (I := fun _ s => LiveInv s) h hledger hfresh
    fun _ _ _ _ _ _ hinv hG hstep => hinv.step hG hstep
  exact hinv

/-- In every run in which no grant expires on the way to the start, every
operation starts no later than its grant expires. -/
theorem starts_under_live_grant {clock : Int} {ledger : Option Bytes}
    (hledger : Represents env ledger rs)
    (h : (executor env).Reaches OutlivesWait (.fresh env clock ledger) s) :
    ∀ e ∈ s.executions, e.startedAt ≤ e.grantExpiresAt :=
  (liveInv_of_reaches hledger h).started

/-- The order of insertion. -/
def insertionOrder : HashOrder := ⟨fun records => records, fun _ => .refl _⟩

/-- A call that is not disturbed, up to the start of its operation. -/
def startLabels (i : Nat) : List BrokerLabel :=
  [.verify i, .record i, .lookup i, .acquire i, .lookupAgain i, .mark i insertionOrder, .run i]

def sampleRequest (id job : Nat) (issuedAt : Int) : BrokerRequest :=
  ⟨sampleGrant id job issuedAt, []⟩

/-- A call has entered a broker at time 0. -/
def enteredState : BrokerState sampleEnv :=
  { BrokerState.fresh sampleEnv 0 none with
    calls := Function.update (fun _ => none) 0 (some ⟨sampleRequest 5 9 0, 0, .entered⟩) }

/-- A call that takes half a minute to start under a grant of a minute. -/
theorem starts_under_live_grant_half :
    ∃ s, (executor sampleEnv).Reaches OutlivesWait (.fresh sampleEnv 0 none) s ∧
      s.executions.map Execution.startedAt = [30 * second] ∧
      ∀ e ∈ s.executions, e.startedAt ≤ e.grantExpiresAt := by
  have hcall : (executor sampleEnv).Reaches OutlivesWait (.fresh sampleEnv 0 none) enteredState :=
    .tail (l := .call 0 (sampleRequest 5 9 0)) .refl trivial rfl
  have hwait : OutlivesWait enteredState (.tick (30 * second)) := by
    intro k d hd _ _
    have hcalls : Function.update (fun _ => none) 0
      (some (⟨sampleRequest 5 9 0, 0, .entered⟩ : Call)) k = some d := hd
    rcases update_eq_some hcalls with ⟨-, rfl⟩ | ⟨-, hd⟩
    · decide
    · cases hd
  have htick : (executor sampleEnv).Reaches OutlivesWait (.fresh sampleEnv 0 none)
      { enteredState with clock := 30 * second } :=
    hcall.tail hwait rfl
  have hrun : ((executor sampleEnv).run (fun _ l => !isTick l)
      { enteredState with clock := 30 * second } (startLabels 0)).map
        (fun s => s.executions.map Execution.startedAt) =
        some [30 * second] := by decide +kernel
  obtain ⟨s, hs, hstarted⟩ := Option.map_eq_some_iff.1 hrun
  have hreach := htick.of_run (fun s l _ => outlivesWait_of_not_tick s l) hs
  exact ⟨s, hreach, hstarted, starts_under_live_grant (represents_none.2 rfl) hreach⟩

/-- A call waits behind an operation of more than a minute and then
starts its own, under a grant of a minute. -/
theorem expired_grant_starts :
    ∃ s, (executor sampleEnv).Reaches (fun _ _ => True) (.fresh sampleEnv 0 none) s ∧
      ∃ e ∈ s.executions, e.grantExpiresAt < e.startedAt := by
  have hrun : ((executor sampleEnv).run (fun _ _ => true) (.fresh sampleEnv 0 none)
      ([.call 0 (sampleRequest 5 9 0), .call 1 (sampleRequest 6 10 0)] ++ startLabels 0 ++
        [.verify 1, .record 1, .lookup 1, .tick (61 * second), .finish 0 (.ok ⟨true, [], 0⟩),
          .complete 0 insertionOrder, .acquire 1, .lookupAgain 1, .mark 1 insertionOrder,
          .run 1])).map (fun s => decide (∃ e ∈ s.executions, e.grantExpiresAt < e.startedAt)) =
        some true := by decide +kernel
  obtain ⟨s, hreach, hlate⟩ := Machine.exists_of_view hrun
  exact ⟨s, hreach, of_decide_eq_true hlate⟩

end Centrald.Proofs
