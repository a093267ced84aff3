import Centrald.Client.ControlStream

/-!
# `Centrald.System`: the server, a client and its broker

The machine that `control` describes puts together the server's tables
(`Centrald.Server.Jobs`), the control streams of one client, its daemon
and its broker (`Centrald.Client.Broker`). One clock is common to all.

* A control stream is a `Link`: two queues, and whether the server still
  serves it. Frames are handled one at a time and in order, after any
  delay. The server can stop serving a link at any time, and the daemon
  can lose its connection at any time; neither side learns of it before
  it looks. A link that the daemon has left can still be served.
* Transactions of administrators, of the maintenance task and of other
  clients are steps of their own (`server`).
* The broker executes what the daemon submits, and every step of
  `executor` between is a step here.
-/

set_option autoImplicit false

namespace Centrald

open Durable Common Client Server

/-- A control stream. -/
structure Link where
  /-- The task of `control_stream` is running. -/
  serving : Bool
  toServer : List ClientFrame
  toClient : List ServerFrame

/-- The server, the client and its broker. The clock is the broker's. -/
structure ControlState (env : ControlEnv) where
  jobs : JobsDb env.Value
  links : Nat → Link
  /-- The connection that `connect_once` runs on. -/
  session : Option Session
  broker : BrokerState env

/-- What can happen in the system: a transaction on the server, a frame
handled by a party, a step of the broker, and a link lost. -/
inductive ControlLabel (Value : Type) where
  /-- Time passes. -/
  | tick (clock : Int)
  /-- A transaction that does not come from this client. -/
  | server (transaction : JobLabel Value)
  /-- The daemon opens a control stream. -/
  | connect (n : Nat)
  | heartbeat
  /-- The server handles the next frame of a link. -/
  | deliver (n : Nat) (locked : Nat → Bool) (deliveryId grantId : Nat)
  /-- The server stops serving a link. -/
  | hangUp (n : Nat)
  /-- The daemon handles the next frame of its connection. -/
  | receive
  /-- `handle_job` sends its next frame. -/
  | send
  /-- `submit_request` hands the request to the broker. -/
  | submit (i : Nat)
  /-- `submit_request` fails: no broker, a broken exchange, a timeout. -/
  | submitFails (error : String)
  /-- The broker's answer arrives. -/
  | answer
  /-- The daemon loses its connection, or its process ends. -/
  | disconnect
  /-- A step of the broker. -/
  | broker (label : BrokerLabel)

/-- The steps that the broker makes by itself. -/
def Client.BrokerLabel.isInternal : BrokerLabel → Bool
  | .tick _ | .call _ _ => false
  | _ => true

namespace ControlState

variable {env : ControlEnv}

/-- A frame is on its way to the server. -/
def push (s : ControlState env) (n : Nat) (frame : ClientFrame) : ControlState env :=
  { s with
    links := Function.update s.links n
      { s.links n with toServer := (s.links n).toServer ++ [frame] } }

/-- `handle_job` goes on. -/
def setPc (s : ControlState env) (session : Session) (pc : JobPc) : ControlState env :=
  { s with session := some { session with pc } }

/-- The server handles a frame. An error ends the stream. -/
def handle (s : ControlState env) (n : Nat) (locked : Nat → Bool) (deliveryId grantId : Nat)
    (frame : ClientFrame) (rest : List ClientFrame) : ControlState env :=
  match handleClientFrame env s.jobs s.broker.clock locked deliveryId grantId frame with
  | .error _ =>
    { s with
      links := Function.update s.links n
        { s.links n with serving := false, toServer := rest } }
  | .ok (jobs, replies) =>
    { s with
      jobs
      links := Function.update s.links n
        { s.links n with toServer := rest, toClient := (s.links n).toClient ++ replies } }

/-- The daemon handles a frame. An error ends the connection. -/
def receiveFrame (s : ControlState env) (session : Session) (frame : ServerFrame)
    (rest : List ServerFrame) : ControlState env :=
  { s with
    links := Function.update s.links session.connection
      { s.links session.connection with toClient := rest }
    session := (session.receive env s.broker.clock frame).toOption }

/-- The broker makes a step. -/
def stepBroker (s : ControlState env) (label : BrokerLabel) : Option (ControlState env) :=
  ((executor env).step s.broker label).map fun broker => { s with broker }

/-- Nothing has happened yet. -/
def fresh (env : ControlEnv) (clock : Int) : ControlState env where
  jobs := []
  links := fun _ => ⟨false, [], []⟩
  session := none
  broker := .fresh env clock none

end ControlState

/-- The system, step by step. -/
def control (env : ControlEnv) : Machine (ControlState env) (ControlLabel env.Value) where
  step s
    | .tick clock => s.stepBroker (.tick clock)
    | .server transaction =>
      if transaction.now = s.broker.clock ∧ transaction.client ≠ some env.deviceId ∧
          (transaction.isStart = true → env.enabled = true) then
        (performJob env.jsonb s.jobs transaction).toOption.map fun jobs => { s with jobs }
      else none
    | .connect n =>
      if s.session = none ∧ (s.links n).serving = false then
        some { s with
          links := Function.update s.links n ⟨true, [], []⟩
          session := some ⟨n, [], .listening⟩ }
      else none
    | .heartbeat =>
      match s.session with
      | some ⟨n, _, .listening⟩ => some (s.push n .heartbeat)
      | _ => none
    | .deliver n locked deliveryId grantId =>
      match s.links n with
      | ⟨true, frame :: rest, _⟩ => some (s.handle n locked deliveryId grantId frame rest)
      | _ => none
    | .hangUp n =>
      some { s with links := Function.update s.links n { s.links n with serving := false } }
    | .receive =>
      match s.session with
      | some ⟨n, grants, .listening⟩ =>
        match (s.links n).toClient with
        | [] => none
        | frame :: rest => some (s.receiveFrame ⟨n, grants, .listening⟩ frame rest)
      | _ => none
    | .send =>
      match s.session with
      | none => none
      | some session => session.pc.send.map fun sent =>
        (s.push session.connection sent.1).setPc session sent.2
    | .submit i =>
      match s.session with
      | some ⟨n, grants, .started job grant⟩ =>
        (s.stepBroker (.call i ⟨grant, job.parametersJson⟩)).map fun s' =>
          s'.setPc ⟨n, grants, .started job grant⟩ (.submitted job i)
      | _ => none
    | .submitFails error =>
      match s.session with
      | some ⟨n, grants, .started job grant⟩ =>
        some (s.setPc ⟨n, grants, .started job grant⟩ (.answered job (.failed error)))
      | some ⟨n, grants, .submitted job i⟩ =>
        some (s.setPc ⟨n, grants, .submitted job i⟩ (.answered job (.failed error)))
      | _ => none
    | .answer =>
      match s.session with
      | some ⟨n, grants, .submitted job i⟩ =>
        ((s.broker.calls i).bind fun c => c.pc.answer).map fun result =>
          s.setPc ⟨n, grants, .submitted job i⟩ (.answered job result)
      | _ => none
    | .disconnect => if s.session = none then none else some { s with session := none }
    | .broker label => if label.isInternal then s.stepBroker label else none

end Centrald
