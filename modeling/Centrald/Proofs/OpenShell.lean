import Centrald.Server.OpenShell

/-!
# `Centrald.Proofs.OpenShell`: the open of a shell gets stuck

The Admin app puts the open frame on the request stream after its call
has returned, and the handler of the server returns after it has taken
the open frame. So the request stream stays empty (`Unsent`), whatever
the steps are.

* `not_opened`: no run opens a shell.
* `open_progress_iff`: in which states of an open some process can take a
  step.
-/

set_option autoImplicit false

namespace Centrald.Proofs.OpenShell

open Durable Common Server Server.OpenShell

variable {sha256Hex : Bytes → Bytes} {settings : ShellSettings} {args : OpenArgs}
  {s s' : OpenState} {l : OpenLabel}

/-- `open_shell_inner` has not returned. -/
def Opening (s : OpenState) : Prop := ∀ result, s.admin ≠ .returned result

/-- The handler has not taken a frame. -/
inductive BeforeOpen : HandlerPc → Prop where
  | idle : BeforeOpen .idle
  | entered : BeforeOpen .entered
  | authenticated : BeforeOpen .authenticated
  | awaitingOpen : BeforeOpen .awaitingOpen
  | refused (e : String) : BeforeOpen (.returned (.error e))

/-- The Admin app has not sent the open frame. -/
inductive BeforeSend : AdminPc → HandlerPc → Prop where
  | connecting : BeforeSend .connecting .idle
  | calling (handler : HandlerPc) : BeforeSend .calling handler
  | failed (handler : HandlerPc) (e : String) : BeforeSend (.returned (.error e)) handler

/-- The open frame is not sent, and so not taken. -/
structure Unsent (s : OpenState) : Prop where
  requests : s.requests = []
  control : s.control = []
  handler : BeforeOpen s.handler
  admin : BeforeSend s.admin s.handler

theorem unsent_start (daemon : DaemonState) (permits active : Nat) :
    Unsent (.start daemon permits active) :=
  ⟨rfl, rfl, .idle, .connecting⟩

/-- No step sends or takes the open frame. -/
theorem Unsent.step (hs : Unsent s) (h : (openSystem sha256Hex settings args).step s l = some s') :
    Unsent s' := by
  obtain ⟨admin, handler, daemon, requests, responses, control, replies, permits, active⟩ := s
  obtain ⟨hrequests, hcontrol, hhandler, hadmin⟩ := hs
  dsimp only at hrequests hcontrol hhandler hadmin
  subst hrequests hcontrol
  -- a frame is sent only after the call was answered, which the handler does
  -- only after it has taken one
  cases l <;> simp only [openSystem] at h <;>
    grind [BeforeOpen, BeforeSend, Unsent, OpenState.fail, OpenState.response]

section

variable {daemon : DaemonState} {G : OpenState → OpenLabel → Prop} {active permits : Nat}
  (h : (openSystem sha256Hex settings args).Reaches G (.start daemon permits active) s)
include h

theorem unsent_of_reaches : Unsent s :=
  h.invariant (unsent_start daemon permits active) fun _ _ _ hs _ hstep => hs.step hstep

/-- No run opens a shell. -/
theorem not_opened : s.admin ≠ AdminPc.returned (.ok ()) := by
  intro hopened
  have hadmin := (unsent_of_reaches h).admin
  rw [hopened] at hadmin
  cases hadmin

end

/-- A process can take a step, and not because it gives up waiting. -/
def CanStep (sha256Hex : Bytes → Bytes) (settings : ShellSettings) (args : OpenArgs)
    (s : OpenState) : Prop :=
  ∃ l s', l.isTimeout = false ∧ (openSystem sha256Hex settings args).step s l = some s'

/-- The handler waits for the open frame, or for a permit that another
session has to give back. -/
def HandlerWaits (s : OpenState) : Prop :=
  s.handler = .awaitingOpen ∨ s.handler = .authenticated ∧ s.permits = 0

/-- While the handler waits, all three processes do. -/
theorem not_canStep_of_waits (hs : Unsent s) (hopening : Opening s) (hwaits : HandlerWaits s) :
    ¬CanStep sha256Hex settings args s := by
  rintro ⟨l, s', hl, hstep⟩
  obtain ⟨admin, handler, daemon, requests, responses, control, replies, permits, active⟩ := s
  obtain ⟨hrequests, hcontrol, -, hadmin⟩ := hs
  dsimp only at hrequests hcontrol
  subst hrequests hcontrol
  cases hadmin with
  | connecting => rcases hwaits with h | ⟨h, -⟩ <;> cases h
  | failed _ e => exact hopening _ rfl
  | calling =>
    rcases hwaits with h | ⟨h, h'⟩
    · cases h
      cases l with
      | timeout => cases hl
      | _ => cases hstep
    · cases h
      cases h'
      cases l <;> cases hstep

/-- In every other state the next step of the call is possible. -/
theorem canStep_of_not_waits (hs : Unsent s) (hopening : Opening s) (hwaits : ¬HandlerWaits s) :
    CanStep sha256Hex settings args s := by
  obtain ⟨admin, handler, daemon, requests, responses, control, replies, permits, active⟩ := s
  obtain ⟨-, -, hhandler, hadmin⟩ := hs
  cases hadmin with
  | connecting =>
    cases hcheck : args.check with
    | ok => exact ⟨.connect (.ok ()), _, rfl, by simp only [openSystem, hcheck]; rfl⟩
    | error e => exact ⟨.connect (.ok ()), _, rfl, by simp only [openSystem, hcheck]; rfl⟩
  | failed _ e => exact absurd rfl (hopening _)
  | calling =>
    cases hhandler with
    | idle => exact ⟨.arrive, _, rfl, rfl⟩
    | entered => exact ⟨.authenticate (.ok ()), _, rfl, rfl⟩
    | authenticated =>
      have hpermits : 0 < permits := Nat.pos_of_ne_zero fun h => hwaits (.inr ⟨rfl, h⟩)
      exact ⟨.permit, _, rfl, if_pos hpermits⟩
    | awaitingOpen => exact absurd (.inl rfl) hwaits
    | refused e => exact ⟨.answer, _, rfl, rfl⟩

/-- In an open, some process can take a step exactly if the handler does
not wait for the open frame, and finds a permit if it needs one. -/
theorem open_progress_iff {daemon : DaemonState} {permits active : Nat}
    (h : (openSystem sha256Hex settings args).Reaches (fun _ l => l.isTimeout = false)
      (.start daemon permits active) s) (hopening : Opening s) :
    CanStep sha256Hex settings args s ↔
      s.handler ≠ .awaitingOpen ∧ (s.handler = .authenticated → 0 < s.permits) := by
  have hs := unsent_of_reaches h
  constructor
  · intro hstep
    have hwaits : ¬HandlerWaits s := fun hwaits => not_canStep_of_waits hs hopening hwaits hstep
    exact ⟨fun hawaits => hwaits (.inl hawaits),
      fun hauth => Nat.pos_of_ne_zero fun hpermits => hwaits (.inr ⟨hauth, hpermits⟩)⟩
  · rintro ⟨hawaits, hpermits⟩
    refine canStep_of_not_waits hs hopening ?_
    rintro (h | ⟨hauth, hnone⟩)
    · exact hawaits h
    · exact absurd (hpermits hauth) (by omega)

/-- The open of a low shell of 80 columns and 24 rows. -/
def sampleArgs : OpenArgs where
  privilege := "low"
  request :=
    { targetId := 1
      privilege := 1
      columns := 80
      rows := 24
      reason := "restart"
      accountUser := ""
      accountPassword := []
      saveCredentials := false }

/-- The steps up to the authentication of the call. -/
def callLabels : List OpenLabel := [.connect (.ok ()), .arrive, .authenticate (.ok ())]

/-- With a permit left, the authenticated call goes on. -/
theorem open_progress_authenticated :
    ∃ s, (openSystem id ⟨65536, 900⟩ sampleArgs).run (fun _ l => !l.isTimeout)
        (.start ⟨[], []⟩ 64 0) callLabels = some s ∧
      CanStep id ⟨65536, 900⟩ sampleArgs s := by
  refine ⟨_, rfl, ?_⟩
  have hrun : (openSystem id ⟨65536, 900⟩ sampleArgs).run (fun _ l => !l.isTimeout)
      (.start ⟨[], []⟩ 64 0) callLabels = some _ := rfl
  have hreaches : (openSystem id ⟨65536, 900⟩ sampleArgs).Reaches (fun _ l => l.isTimeout = false)
      (.start ⟨[], []⟩ 64 0) _ := .of_run (fun _ _ _ hl => by simpa using hl) .refl hrun
  exact (open_progress_iff hreaches nofun).2 ⟨nofun, fun _ => by decide⟩

/-- The call that has got its permit is stuck. -/
theorem open_stuck : ∃ s, (openSystem id ⟨65536, 900⟩ sampleArgs).run (fun _ l => !l.isTimeout)
        (.start ⟨[], []⟩ 64 0) (callLabels ++ [.permit]) = some s ∧
      Opening s ∧ ¬CanStep id ⟨65536, 900⟩ sampleArgs s := by
  refine ⟨_, rfl, nofun, ?_⟩
  exact not_canStep_of_waits ⟨rfl, rfl, .awaitingOpen, .calling _⟩ nofun (.inl rfl)

/-- A whole open: the call gets its permit, the handler waits its ten
seconds for the open frame and gives up, and the Admin app is told so. -/
theorem not_opened_timeout :
    ∃ s, (openSystem id ⟨65536, 900⟩ sampleArgs).run (fun _ _ => true) (.start ⟨[], []⟩ 64 0)
        (callLabels ++ [.permit, .timeout, .answer]) = some s ∧
      s.admin = .returned (.error "shell open was not received in time") ∧
      s.admin ≠ .returned (.ok ()) := by
  refine ⟨_, rfl, rfl, ?_⟩
  have hrun : (openSystem id ⟨65536, 900⟩ sampleArgs).run (fun _ _ => true) (.start ⟨[], []⟩ 64 0)
      (callLabels ++ [.permit, .timeout, .answer]) = some _ := rfl
  exact not_opened (Machine.reaches_of_run hrun)

end Centrald.Proofs.OpenShell
