import Centrald.Client.Heartbeats

/-!
# `Centrald.Proofs.ClientOnline`: when a connected client is listed online

An interval keeps its period of 30 s, and a handler holds the loop.
-/

set_option autoImplicit false

namespace Centrald.Proofs

open Durable Durable.Machine Common Server Client.Heartbeats

variable {runtime : RuntimeSection} {s s' : ControlLoop}

/-- The longest time to a heartbeat while no handler runs. -/
def longestWait (runtime : RuntimeSection) : Int :=
  max 30 runtime.heartbeatIntervalSeconds * second

/-- The handlers leave time for a heartbeat. -/
def HandlesInTime (runtime : RuntimeSection) (s : ControlLoop) : LoopLabel → Prop
  | .pass time => s.handling = true →
    s.occupied + time + longestWait runtime < runtime.offlineAfterSeconds * second
  | _ => True

instance (l : LoopLabel) : Decidable (HandlesInTime runtime s l) :=
  match l with
  | .pass _ => inferInstanceAs (Decidable (_ → _))
  | .tick _ | .receive | .finish | .shell => inferInstanceAs (Decidable True)

/-- An acknowledgement that changes the interval comes with the first
heartbeat, before any wait. -/
structure Heard (runtime : RuntimeSection) (s : ControlLoop) : Prop where
  elapsed : 0 ≤ s.occupied
  occupied : s.occupied + longestWait runtime < runtime.offlineAfterSeconds * second
  due : s.deadline ≤ s.lastSeen + s.occupied + longestWait runtime
  waited : s.clock ≤ s.lastSeen + s.occupied + longestWait runtime
  acks : ∀ n, .heartbeatAck n ∈ s.inbound → n = runtime.heartbeatIntervalSeconds
  unacked : s.heartbeatSeconds = runtime.heartbeatIntervalSeconds ∨
    s.clock ≤ s.lastSeen + s.occupied ∧
      (s.deadline ≤ s.clock ∨ .heartbeatAck runtime.heartbeatIntervalSeconds ∈ s.inbound)

theorem longestWait_bounds (runtime : RuntimeSection) :
    0 ≤ longestWait runtime ∧ 30 * second ≤ longestWait runtime ∧
      runtime.heartbeatIntervalSeconds * second ≤ longestWait runtime := by
  unfold longestWait second
  omega

/-- A frame other than an acknowledgement that changes the interval. -/
theorem Heard.taken {p : Payload} {rest : List Payload} {handling : Bool} (h : Heard runtime s)
    (hs : s.inbound = p :: rest) (hp : s.heartbeatSeconds = runtime.heartbeatIntervalSeconds ∨
      p ≠ .heartbeatAck runtime.heartbeatIntervalSeconds) :
    Heard runtime { s with inbound := rest, handling } := by
  refine { h with acks := fun n hn => h.acks n (hs ▸ List.mem_cons_of_mem p hn), unacked := ?_ }
  rcases hp with hp | hp
  · exact .inl hp
  · have hunacked := h.unacked
    grind

theorem Heard.receive (h : Heard runtime s) (hs : s.receive = some s') : Heard runtime s' := by
  unfold ControlLoop.receive at hs
  split at hs
  · cases hs
  · rename_i next inbound hinbound
    obtain rfl := h.acks next (by simp [hinbound])
    split at hs
    · cases hs
    · split at hs
      · rename_i hnext
        cases hs
        exact h.taken hinbound (.inl hnext.symm)
      · rename_i hnext
        cases hs
        have hbound := longestWait_bounds runtime
        have hclock := (h.unacked.resolve_left (Ne.symm hnext)).1
        have hreset : Heard runtime { s with
            heartbeatSeconds := runtime.heartbeatIntervalSeconds
            deadline := s.clock + runtime.heartbeatIntervalSeconds * second } :=
          { h with due := by dsimp only; omega, unacked := .inl rfl }
        exact hreset.taken hinbound (.inl rfl)
  all_goals
    rename_i hinbound
    cases hs
    exact h.taken hinbound (.inr nofun)

/-- A step of the loop keeps it, if its handlers return in time. -/
theorem Heard.step {l : LoopLabel} (h : Heard runtime s) (hl : HandlesInTime runtime s l)
    (hs : (controlLoop runtime).step s l = some s') : Heard runtime s' := by
  obtain ⟨helapsed, hoccupied, hdue, hwaited, hacks, hunacked⟩ := id h
  cases l with
  | pass time =>
    simp only [controlLoop] at hs
    split at hs
    · -- a handler runs, and its time counts as occupied
      rename_i hhandling
      have hin := hl hhandling
      cases hs
      refine ⟨?_, hin, ?_, ?_, hacks,
        hunacked.imp_right fun ⟨hclock, hack⟩ => ⟨?_, hack.imp_left ?_⟩⟩
        <;> dsimp only <;> omega
    · split at hs
      · rename_i hfree
        cases hs
        refine ⟨helapsed, hoccupied, hdue, hfree.2.trans hdue, hacks, hunacked.imp_right ?_⟩
        grind
      · cases hs
  | tick claimed =>
    simp only [controlLoop] at hs
    split at hs
    · rename_i hfree
      cases hs
      -- the heartbeat is stored and its acknowledgement is on its way
      have hbound := longestWait_bounds runtime
      refine ⟨le_rfl, ?_, ?_, ?_, fun n hn => ?_, .inr ⟨?_, .inr (by simp)⟩⟩
      · dsimp only
        omega
      · dsimp only [nextTick]
        split <;> omega
      · dsimp only
        omega
      · grind
      · dsimp only
        omega
    · cases hs
  | receive =>
    simp only [controlLoop] at hs
    split at hs
    · cases hs
    · exact h.receive hs
  | finish =>
    simp only [controlLoop] at hs
    split at hs
    · cases hs
      exact { h with }
    · cases hs
  | shell =>
    cases hs
    refine { h with acks := fun n hn => hacks n (by simpa using hn), unacked := ?_ }
    exact hunacked.imp_right (.imp_right (.imp_right (List.mem_append_left _)))

/-- A client whose handlers leave time for its heartbeats is listed online
at every moment of its stream, unless the limit is below the period of the
interval. -/
theorem connected_online {clock : Int} (hvalid : validateRuntime runtime = .ok ())
    (hoffline : 30 < runtime.offlineAfterSeconds)
    (h : (controlLoop runtime).Reaches (HandlesInTime runtime) (.connected clock) s) :
    online runtime (some s.lastSeen) s.clock = true := by
  have hheartbeat : runtime.heartbeatIntervalSeconds < runtime.offlineAfterSeconds := by
    by_contra hle
    rw [validateRuntime] at hvalid
    by_cases hinterval : ¬(5 ≤ runtime.heartbeatIntervalSeconds ∧
        runtime.heartbeatIntervalSeconds ≤ 3600)
    · rw [if_pos hinterval] at hvalid
      cases hvalid
    · rw [if_neg hinterval, if_pos (.inl (not_lt.1 hle))] at hvalid
      cases hvalid
  have hbound := longestWait_bounds runtime
  have hstart : Heard runtime (.connected clock) := by
    refine ⟨le_rfl, ?_, ?_, ?_, nofun, .inr ⟨?_, .inl le_rfl⟩⟩
    · dsimp only [ControlLoop.connected]
      unfold longestWait second
      omega
    all_goals
      dsimp only [ControlLoop.connected]
      omega
  have hontime := h.invariant hstart fun s l s' h hl hs => h.step hl hs
  obtain ⟨helapsed, hoccupied, hdue, hwaited, hacks, hunacked⟩ := hontime
  refine decide_eq_true ?_
  omega

def sampleRuntime (heartbeat offlineAfter : Nat) : RuntimeSection :=
  ⟨heartbeat, offlineAfter, 3600, 900, 65536⟩

/-- The default settings, and a client whose first job runs for 10 s: it is
listed online when 40 s of its stream have passed. -/
theorem connected_online_sample : ∃ s,
    (controlLoop (sampleRuntime 30 90)).Reaches (HandlesInTime (sampleRuntime 30 90))
      (.connected 0) s ∧
    s.clock = 40 * second ∧ online (sampleRuntime 30 90) (some s.lastSeen) s.clock = true := by
  have hrun : ((controlLoop (sampleRuntime 30 90)).run
      (fun s l => decide (HandlesInTime (sampleRuntime 30 90) s l)) (.connected 0)
      [.tick true, .receive, .receive, .receive, .pass 10000000000, .finish, .pass 20000000000,
        .tick false, .receive, .pass 10000000000]).map ControlLoop.clock = some (40 * second) := by
    decide +kernel
  obtain ⟨s, hreach, hclock⟩ := reached_of_view (fun _ _ _ h => of_decide_eq_true h) hrun
  exact ⟨s, hreach, hclock, connected_online rfl (by decide) hreach⟩

/-- Some connected client is listed offline. -/
def ListedOffline (runtime : RuntimeSection) : Prop :=
  ∃ s, (controlLoop runtime).Reaches (fun _ _ => True) (.connected 0) s ∧
    online runtime (some s.lastSeen) s.clock = false

/-- A client with nothing to do is listed offline when the limit is 6 s,
since only the first wait is one of 5 s. With the default settings, a job
that runs for 90 s is enough. -/
theorem connected_listed_offline :
    (validateRuntime (sampleRuntime 5 6) = .ok () ∧ ListedOffline (sampleRuntime 5 6)) ∧
    validateRuntime (sampleRuntime 30 90) = .ok () ∧ ListedOffline (sampleRuntime 30 90) := by
  refine ⟨⟨rfl, exists_of_view (g := fun _ _ => true) (L := [.tick false, .receive,
    .pass 5000000000, .tick false, .receive, .pass 6000000000]) ?_⟩, rfl,
    exists_of_view (g := fun _ _ => true) (L := [.tick true, .receive, .receive, .receive,
      .pass 90000000000]) ?_⟩
  all_goals decide +kernel

end Centrald.Proofs
