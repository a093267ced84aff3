import Centrald.Server.Shell

/-!
# `Centrald.Server.OpenShell`: opening a shell, as three processes

The model of `open_shell_inner` of the Admin app (`shell.rs` of
`src-tauri`), of the handler `open_shell` of the server (`services.rs`)
and of `open_shell_session` of the client daemon (`daemon.rs`), for one
open. The processes are connected by queues: the request stream and the
response stream of the call, and the control stream of the client.

The call `client.open_shell(..)` of the Admin app returns when the
handler has returned its response (`response`). Frames that are put on
the request stream before that reach the handler all the same.

Each `await` is a point where a process stands. What the database, the
operating system and the other sessions answer is in the label of the
step.
-/

set_option autoImplicit false

namespace Centrald.Server.OpenShell

open Durable Common

/-! ### Frames -/

/-- `ShellFrame`. The Admin app leaves the session of an open frame to
the server. -/
inductive ShellFrame where
  | open (sessionId : Option Nat) (request : ShellOpen)
  | data (sessionId : Nat) (data : Bytes)
  | resize (sessionId columns rows : Nat)
  | close (sessionId : Nat) (reason : String)

/-- The frames of the control stream that open a session. The grant is
known by its session and its operation. -/
inductive ControlFrame where
  | signedGrant (sessionId : Nat) (operation : GrantOperation)
  | shell (frame : ShellFrame)

/-- The capacity of the request stream and of the response stream. -/
def shellChannelCapacity : Nat := 64

/-- The capacity of a control stream, on the side of the server. -/
def controlChannelCapacity : Nat := 32

def maxActiveShellSessions : Nat := 64

/-- `MAX_SHELL_SESSIONS` of the daemon. -/
def maxShellSessions : Nat := 8

/-! ### The processes -/

/-- Where `open_shell_inner` stands. -/
inductive AdminPc where
  /-- Before `admin_client(..)` has returned. -/
  | connecting
  /-- In the call of `client.open_shell`. -/
  | calling
  /-- The response is here, and the open frame is to be sent. -/
  | responded
  | returned (result : Except String Unit)

/-- Where the handler stands. -/
inductive HandlerPc where
  /-- The call has not arrived. -/
  | idle
  /-- Before `authenticate`. -/
  | entered
  /-- Before the permit of `shell_stream_limit`. -/
  | authenticated
  /-- In `inbound.message()`, for ten seconds. -/
  | awaitingOpen
  /-- Before `validate_shell_open`. -/
  | received (request : ShellOpen)
  /-- Before `create_shell_session`. -/
  | planned (request : ShellOpen) (plan : ShellOpenPlan)
  /-- In `deliver_shell_open_to_client`. -/
  | deliverGrant (request : ShellOpen) (plan : ShellOpenPlan)
  | deliverOpen (request : ShellOpen) (plan : ShellOpenPlan)
  /-- Before `register_shell_session`. -/
  | delivered (request : ShellOpen) (plan : ShellOpenPlan)
  /-- Before the open frame is on the response stream. -/
  | registered (request : ShellOpen) (plan : ShellOpenPlan)
  | returned (result : Except String Unit)

/-- The daemon's loop, with the grants it holds and the sessions it
relays. -/
structure DaemonState where
  grants : List (Nat × GrantOperation)
  shells : List Nat

/-- The three processes and their queues. -/
structure OpenState where
  admin : AdminPc
  handler : HandlerPc
  daemon : DaemonState
  /-- The request stream, written by the Admin app. -/
  requests : List ShellFrame
  /-- The response stream, written by the handler. -/
  responses : List ShellFrame
  /-- The control stream to the client. -/
  control : List ControlFrame
  /-- What the daemon has sent on the control stream. -/
  replies : List ShellFrame
  /-- The free permits of `shell_stream_limit`. -/
  permits : Nat
  /-- The sessions that are registered. -/
  active : Nat

/-- What the handler has returned, if it has. -/
def OpenState.response (s : OpenState) : Option (Except String Unit) :=
  match s.handler with
  | .returned result => some result
  | _ => none

/-- The arguments of `open_shell_inner`. -/
structure OpenArgs where
  privilege : String
  request : ShellOpen

/-- The checks at the head of `open_shell_inner`. -/
def OpenArgs.check (args : OpenArgs) : Except String Unit :=
  if args.privilege ≠ "low" ∧ args.privilege ≠ "elevated" then
    .error "unsupported shell privilege"
  else if args.request.columns < 2 ∨ 500 < args.request.columns ∨ args.request.rows < 2 ∨
      500 < args.request.rows then
    .error "terminal size must be 2-500 columns and rows"
  else .ok ()

/-! ### The steps -/

/-- The steps of the Admin app, the handler and the daemon. What their
calls return is in the label. -/
inductive OpenLabel where
  /-- `admin_client(..)` returns. -/
  | connect (result : Except String Unit)
  /-- The call arrives. -/
  | arrive
  | authenticate (result : Except String Unit)
  | permit
  /-- The handler takes the first frame. -/
  | first
  /-- Ten seconds are over. -/
  | timeout
  /-- The request stream has ended. -/
  | closed
  | validate (typedJobs : Option Bool) (online : Bool) (challenge : Except String Unit)
      (sessionId : Nat)
  | create (result : Except String Unit)
  /-- A frame is put on the control stream, if there is one. -/
  | deliver (available : Bool)
  | register
  | respond
  /-- The call returns to the Admin app. -/
  | answer
  /-- `tx.send(open)`. -/
  | send
  /-- The daemon takes a frame; `connected` is the result of connecting
  to the broker. -/
  | daemon (connected : Except String Unit)

/-- A process gives up waiting. -/
def OpenLabel.isTimeout : OpenLabel → Bool
  | .timeout => true
  | _ => false

namespace OpenState

/-- `?` in the handler. The permit is given back. -/
def fail (s : OpenState) (e : String) : OpenState :=
  { s with handler := .returned (.error e), permits := s.permits + 1 }

/-- `send_shell_close` of the daemon. -/
def sendClose (s : OpenState) (sessionId : Nat) (reason : String) : OpenState :=
  { s with replies := s.replies ++ [.close sessionId reason] }

/-- The operation that the daemon expects in the grant. -/
def expectedOperation (privilege : Int) : Option GrantOperation :=
  if privilege = 1 then some .openLowShell
  else if privilege = 2 then some .openElevatedShell
  else none

/-- `open_shell_session`, for an open frame whose size is valid. -/
def openShellSession (s : OpenState) (sessionId : Nat) (request : ShellOpen)
    (connected : Except String Unit) : OpenState :=
  let daemon := { s.daemon with grants := s.daemon.grants.filter fun g => g.1 ≠ sessionId }
  match s.daemon.grants.find? fun g => g.1 = sessionId with
  | none => s.sendClose sessionId "server did not provide a shell-operation grant"
  | some grant =>
    match expectedOperation request.privilege with
    | none => { s with daemon }.sendClose sessionId "server requested an invalid shell privilege"
    | some operation =>
      if grant.2 ≠ operation then
        { s with daemon }.sendClose sessionId "shell grant does not match the requested session"
      else if sessionId ∉ s.daemon.shells ∧ maxShellSessions ≤ s.daemon.shells.length then
        { s with daemon }.sendClose sessionId "the client shell-session limit was reached"
      else
        match connected with
        | .error e => { s with daemon }.sendClose sessionId ("broker session failed: " ++ e)
        | .ok () => { s with daemon := { daemon with shells := s.daemon.shells ++ [sessionId] } }

/-- The daemon handles a frame of the control stream. -/
def handleFrame (s : OpenState) (connected : Except String Unit) : ControlFrame → OpenState
  | .signedGrant sessionId operation =>
    { s with daemon := { s.daemon with grants := s.daemon.grants ++ [(sessionId, operation)] } }
  | .shell (.open (some sessionId) request) => s.openShellSession sessionId request connected
  | .shell _ => s

end OpenState

/-- The processes of one open. -/
def openSystem (sha256Hex : Bytes → Bytes) (settings : ShellSettings) (args : OpenArgs) :
    Machine OpenState OpenLabel where
  step s
    | .connect result =>
      match s.admin, args.check, result with
      | .connecting, .ok (), .ok () => some { s with admin := .calling }
      | .connecting, .error e, _ => some { s with admin := .returned (.error e) }
      | .connecting, .ok (), .error e => some { s with admin := .returned (.error e) }
      | _, _, _ => none
    | .arrive =>
      match s.admin, s.handler with
      | .calling, .idle => some { s with handler := .entered }
      | _, _ => none
    | .authenticate result =>
      match s.handler, result with
      | .entered, .ok () => some { s with handler := .authenticated }
      | .entered, .error e => some { s with handler := .returned (.error e) }
      | _, _ => none
    | .permit =>
      match s.handler with
      | .authenticated =>
        if 0 < s.permits then
          some { s with handler := .awaitingOpen, permits := s.permits - 1 }
        else none
      | _ => none
    | .first =>
      match s.handler, s.requests with
      | .awaitingOpen, .open _ request :: rest =>
        some { s with handler := .received request, requests := rest }
      | .awaitingOpen, _ :: rest =>
        some ({ s with requests := rest }.fail "the first Admin shell frame must be an open frame")
      | _, _ => none
    | .timeout =>
      match s.handler with
      | .awaitingOpen => some (s.fail "shell open was not received in time")
      | _ => none
    | .closed =>
      match s.handler, s.requests, s.admin with
      | .awaitingOpen, [], .returned (.error _) => some (s.fail "shell stream closed before open")
      | _, _, _ => none
    | .validate typedJobs online challenge sessionId =>
      match s.handler with
      | .received request =>
        match validateShellOpen sha256Hex settings typedJobs online challenge request sessionId with
        | .ok plan => some { s with handler := .planned request plan }
        | .error e => some (s.fail e)
      | _ => none
    | .create result =>
      match s.handler, result with
      | .planned request plan, .ok () => some { s with handler := .deliverGrant request plan }
      | .planned _ _, .error e => some (s.fail e)
      | _, _ => none
    | .deliver available =>
      match s.handler with
      | .deliverGrant request plan =>
        if available = false then some (s.fail "target client stream is unavailable")
        else if s.control.length < controlChannelCapacity then
          some { s with
            handler := .deliverOpen request plan
            control := s.control ++ [.signedGrant plan.sessionId plan.operation] }
        else none
      | .deliverOpen request plan =>
        if available = false then some (s.fail "target client stream closed")
        else if s.control.length < controlChannelCapacity then
          some { s with
            handler := .delivered request plan
            control := s.control ++ [.shell (.open (some plan.sessionId) request)] }
        else none
      | _ => none
    | .register =>
      match s.handler with
      | .delivered request plan =>
        if maxActiveShellSessions ≤ s.active then
          some (s.fail "the active shell-session limit was reached")
        else some { s with handler := .registered request plan, active := s.active + 1 }
      | _ => none
    | .respond =>
      match s.handler with
      | .registered request plan =>
        if s.responses.length < shellChannelCapacity then
          some { s with
            handler := .returned (.ok ())
            responses := s.responses ++ [.open (some plan.sessionId) request] }
        else none
      | _ => none
    | .answer =>
      match s.admin, s.response with
      | .calling, some (.ok ()) => some { s with admin := .responded }
      | .calling, some (.error e) => some { s with admin := .returned (.error e) }
      | _, _ => none
    | .send =>
      match s.admin with
      | .responded =>
        if s.requests.length < shellChannelCapacity then
          some { s with
            admin := .returned (.ok ())
            requests := s.requests ++ [.open none args.request] }
        else none
      | _ => none
    | .daemon connected =>
      match s.control with
      | frame :: rest => some ({ s with control := rest }.handleFrame connected frame)
      | [] => none

/-- An open that has just been asked for. -/
def OpenState.start (daemon : DaemonState) (permits active : Nat) : OpenState where
  admin := .connecting
  handler := .idle
  daemon := daemon
  requests := []
  responses := []
  control := []
  replies := []
  permits := permits
  active := active

end Centrald.Server.OpenShell
