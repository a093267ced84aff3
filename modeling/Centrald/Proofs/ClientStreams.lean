import Centrald.Server.ClientStreams

/-!
# `Centrald.Proofs.ClientStreams`: a live control stream stays reachable

Shell sessions reach a client through the sender that its control stream
has registered. `unregister_client_stream` is meant to remove the sender
only if it is still the registered one. Its check and its removal are two
sections under the mutex. A client that reconnects between them registers
its new stream, and the old stream then removes that one: the client
counts as offline although its stream serves
(`reconnect_between_check_and_removal`).

`live_stream_reachable` proves the property for the runs where no stream
of an identity registers while another one is between check and removal.
The invariant is `StreamsReachable`: whoever is about to remove an entry is the
one that is registered.
-/

set_option autoImplicit false

namespace Centrald.Proofs

open Durable Server Function

variable {Identity Sender : Type} [DecidableEq Identity] [DecidableEq Sender]
  {s s' s0 : StreamState Identity Sender} {l : ClientStreamLabel Identity Sender}

/-- The step is no registration of an identity of which a stream is about
to remove the entry. -/
def NoneRemoving (s : StreamState Identity Sender) (l : ClientStreamLabel Identity Sender) : Prop :=
  ∀ identity sender, l = .register identity sender →
    ∀ other, s.tasks other ≠ some ⟨identity, .removing⟩

/-- A stream that is about to remove the entry of its identity is the
registered one, and so is the one that registered last, while it
serves. -/
structure StreamsReachable (s : StreamState Identity Sender) : Prop where
  removing : ∀ identity sender, s.tasks sender = some ⟨identity, .removing⟩ →
    s.streams identity = some sender
  serving : ∀ identity sender, s.lastRegistered identity = some sender →
    s.tasks sender = some ⟨identity, .serving⟩ → s.streams identity = some sender

variable {sender : Sender}

omit [DecidableEq Identity] in
theorem setPhase_tasks {other : Sender} {identity : Identity} {phase : StreamPhase}
    {task : StreamTask Identity} :
    (s.setPhase sender identity phase).tasks other = some task ↔
      (other = sender ∧ task = ⟨identity, phase⟩) ∨
        (other ≠ sender ∧ s.tasks other = some task) := by
  by_cases h : other = sender
  · subst h
    simp [StreamState.setPhase, eq_comm]
  · simp [StreamState.setPhase, h]

omit [DecidableEq Sender] in
theorem lastRegistered_cons {identity id : Identity}
    {streams : StreamTable Identity Sender} {tasks : Sender → Option (StreamTask Identity)} :
    StreamState.lastRegistered ⟨streams, tasks, (identity, sender) :: s.registrations⟩ id =
      if identity = id then some sender else s.lastRegistered id := by
  by_cases h : identity = id
  · simp [StreamState.lastRegistered, h]
  · simp [StreamState.lastRegistered, h]

section

variable (h : StreamsReachable s)
include h

variable {identity : Identity}

/-- A registration: the new stream is the registered one, and nobody is
about to remove it. -/
theorem StreamsReachable.register
    (hfree : ∀ other, s.tasks other ≠ some ⟨identity, .removing⟩) :
    StreamsReachable { s.setPhase sender identity .serving with
      streams := registerClientStream s.streams identity sender
      registrations := (identity, sender) :: s.registrations } where
  removing id other hother := by
    rcases setPhase_tasks.1 hother with ⟨-, htask⟩ | ⟨-, htask⟩
    · cases htask
    · have hne : id ≠ identity := by
        grind
      show update s.streams identity (some sender) id = some other
      rw [update_of_ne hne]
      exact h.removing id other htask
  serving id other hlast hother := by
    rw [lastRegistered_cons] at hlast
    show update s.streams identity (some sender) id = some other
    by_cases hid : identity = id
    · grind
    · rw [if_neg hid] at hlast
      rw [update_of_ne (Ne.symm hid)]
      rcases setPhase_tasks.1 hother with ⟨-, htask⟩ | ⟨-, htask⟩
      · grind
      · exact h.serving id other hlast htask

/-- A stream that has found itself registered, or is over. -/
theorem StreamsReachable.setPhase {phase : StreamPhase}
    (hphase : phase ≠ .serving) (hcurrent : phase = .removing → s.streams identity = some sender) :
    StreamsReachable (s.setPhase sender identity phase) where
  removing id other hother := by
    rcases setPhase_tasks.1 hother with ⟨rfl, htask⟩ | ⟨-, htask⟩
    · cases htask
      exact hcurrent rfl
    · exact h.removing id other htask
  serving id other hlast hother := by
    rcases setPhase_tasks.1 hother with ⟨-, htask⟩ | ⟨-, htask⟩
    · grind
    · exact h.serving id other hlast htask

/-- A removal: the entry was the stream's own, so no other stream of the
identity is about to remove it, nor serves as the last one. -/
theorem StreamsReachable.remove
    (htask : s.tasks sender = some ⟨identity, .removing⟩) :
    StreamsReachable { s.setPhase sender identity .closed with
      streams := removeClientStream s.streams identity } := by
  have hown := h.removing identity sender htask
  have hother : ∀ id other, other ≠ sender → s.streams id = some other →
      update s.streams identity none id = some other := by
    grind
  constructor
  · intro id other h'
    rcases setPhase_tasks.1 h' with ⟨-, hclosed⟩ | ⟨hne, hremoving⟩
    · cases hclosed
    · exact hother id other hne (h.removing id other hremoving)
  · intro id other hlast h'
    rcases setPhase_tasks.1 h' with ⟨-, hclosed⟩ | ⟨hne, hserving⟩
    · cases hclosed
    · exact hother id other hne (h.serving id other hlast hserving)

/-- A step keeps every serving stream registered, if no other is about to
remove its entry. -/
theorem StreamsReachable.step (hguard : NoneRemoving s l)
    (hstep : streamMachine.step s l = some s') : StreamsReachable s' := by
  cases l with
  | register identity sender =>
    dsimp only [streamMachine] at hstep
    split at hstep
    · cases hstep
      exact h.register (hguard identity sender rfl)
    · cases hstep
  | check sender =>
    dsimp only [streamMachine] at hstep
    split at hstep
    · rename_i identity _
      split at hstep
      · rename_i hcurrent
        cases hstep
        exact h.setPhase nofun fun _ => of_decide_eq_true hcurrent
      · cases hstep
        exact h.setPhase nofun nofun
    · cases hstep
  | remove sender =>
    dsimp only [streamMachine] at hstep
    split at hstep
    · rename_i identity htask
      cases hstep
      exact h.remove htask
    · cases hstep

end

/-- The old stream has found itself registered. The client reconnects,
and the old stream removes the new one. -/
theorem reconnect_between_check_and_removal :
    ∃ s : StreamState Nat Nat, streamMachine.Reaches (fun _ _ => True) noStreams s ∧
      s.lastRegistered 0 = some 2 ∧ s.tasks 2 = some ⟨0, .serving⟩ ∧
      clientStream s.streams 0 = none ∧ clientOnline s.streams 0 = false := by
  have hrun : ((streamMachine : Machine (StreamState Nat Nat) _).run (fun _ _ => true) noStreams
      [.register 0 1, .check 1, .register 0 2, .remove 1]).map
      (fun s => (s.lastRegistered 0, s.tasks 2, clientStream s.streams 0,
        clientOnline s.streams 0)) = some (some 2, some ⟨0, .serving⟩, none, false) := by
    decide
  obtain ⟨s, hreach, hview⟩ := Machine.exists_of_view hrun
  grind

/-- In a run without a registration between check and removal, the stream
that registered last is the one that is found, until it begins to
unregister. -/
theorem live_stream_reachable (h : streamMachine.Reaches NoneRemoving noStreams s)
    (identity : Identity) (sender : Sender) (hlast : s.lastRegistered identity = some sender)
    (hserving : s.tasks sender = some ⟨identity, .serving⟩) :
    clientStream s.streams identity = some sender ∧ clientOnline s.streams identity = true := by
  have hinv : StreamsReachable s := by
    refine h.invariant ⟨?_, ?_⟩ fun s l s' hI hguard hstep => hI.step hguard hstep
    · intro identity sender htask
      cases htask
    · intro identity sender hlast
      cases hlast
  have hstream := hinv.serving identity sender hlast hserving
  refine ⟨hstream, ?_⟩
  show (s.streams identity).isSome = true
  rw [hstream]
  rfl

/-- A client that reconnects before its old stream ends. -/
theorem live_stream_reachable_reconnect :
    ∃ s : StreamState Nat Nat, streamMachine.Reaches NoneRemoving noStreams s ∧
      s.lastRegistered 0 = some 2 ∧ clientStream s.streams 0 = some 2 := by
  have h1 : streamMachine.Reaches NoneRemoving (noStreams : StreamState Nat Nat) _ :=
    Machine.Reaches.refl.tail (l := .register 0 1) (fun _ _ _ _ h => nomatch h) rfl
  have h2 := h1.tail (l := .register 0 2) (fun _ _ _ _ htask => by
    rcases setPhase_tasks.1 htask with ⟨-, htask⟩ | ⟨-, htask⟩
    · cases htask
    · cases htask) rfl
  have h3 := h2.tail (l := .check 1) nofun rfl
  exact ⟨_, h3, rfl, (live_stream_reachable h3 0 2 rfl rfl).1⟩

end Centrald.Proofs
