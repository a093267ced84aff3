import Centrald.Common.Grant
import Centrald.Durable.Machine
import Centrald.Server.Limits

/-!
# `Centrald.Client.Heartbeats`: a control stream over time

The model of the loop of `connect_once` (`daemon.rs`) as far as time
matters, and of what the server makes of its frames (`handle_client_hello`,
`handle_client_frame` and `list_targets` of `services.rs`).

Messages are delivered at once, and the branches of the loop take no time,
but `handle_job` and `handle_shell_frame` hold the loop for as long as they
run. A loop that is free waits while no frame is there and no tick is due.
When both are there, `select!` takes any of them.
-/

set_option autoImplicit false

namespace Centrald.Client.Heartbeats

open Durable Common Server

/-- The payload of a frame of the server. -/
inductive Payload where
  | heartbeatAck (nextIntervalSeconds : Nat)
  | signedGrant
  | job
  | shell
deriving DecidableEq

/-- The loop of the daemon over one connection, and what the server knows
of it. -/
structure ControlLoop where
  clock : Int
  /-- `clients.last_seen`, which the Hello and every heartbeat set. -/
  lastSeen : Int
  heartbeatSeconds : Nat
  /-- When `interval` ticks next. -/
  deadline : Int
  inbound : List Payload
  /-- `handle_job` or `handle_shell_frame` runs. -/
  handling : Bool
  /-- How long they have run since the last heartbeat. -/
  occupied : Int

/-- The state after the Hello. The first tick of an interval is at once. -/
def ControlLoop.connected (clock : Int) : ControlLoop :=
  { clock, lastSeen := clock, heartbeatSeconds := 30, deadline := clock, inbound := [],
    handling := false, occupied := 0 }

/-- The tick of an interval of 30 s after one at `now`. With `Delay`, a
tick that is more than 5 ms late moves the later ones. -/
def nextTick (deadline now : Int) : Int :=
  if deadline + second / 200 < now then now + 30 * second else deadline + 30 * second

/-- One frame of the server. -/
def ControlLoop.receive (s : ControlLoop) : Option ControlLoop :=
  match s.inbound with
  | [] => none
  | .heartbeatAck next :: inbound =>
    if next < 5 ∨ 3600 < next then none
    else if next = s.heartbeatSeconds then some { s with inbound }
    else some { s with
      inbound, heartbeatSeconds := next, deadline := s.clock + next * second }
  | .signedGrant :: inbound => some { s with inbound }
  | .job :: inbound | .shell :: inbound => some { s with inbound, handling := true }

/-- The branches of the loop, the passing of time, and what the server
sends. -/
inductive LoopLabel where
  /-- Time passes. -/
  | pass (time : Nat)
  /-- A heartbeat is sent and answered, with a job if one can be claimed. -/
  | tick (claimed : Bool)
  | receive
  /-- The handler returns. -/
  | finish
  /-- The server sends a shell frame. -/
  | shell

def controlLoop (runtime : RuntimeSection) : Machine ControlLoop LoopLabel where
  step s
    | .pass time =>
      if s.handling then
        some { s with clock := s.clock + time, occupied := s.occupied + time }
      else if s.inbound = [] ∧ s.clock + time ≤ s.deadline then
        some { s with clock := s.clock + time }
      else none
    | .tick claimed =>
      if s.handling = false ∧ s.deadline ≤ s.clock then
        some { s with
          lastSeen := s.clock
          deadline := nextTick s.deadline s.clock
          inbound := s.inbound ++ .heartbeatAck runtime.heartbeatIntervalSeconds ::
            if claimed then [.signedGrant, .job] else []
          occupied := 0 }
      else none
    | .receive => if s.handling then none else s.receive
    | .finish => if s.handling then some { s with handling := false } else none
    | .shell => some { s with inbound := s.inbound ++ [.shell] }

/-- `online` in `list_targets`. -/
def online (runtime : RuntimeSection) (lastSeen : Option Int) (now : Int) : Bool :=
  lastSeen.any fun seen => decide (now - seen < runtime.offlineAfterSeconds * second)

end Centrald.Client.Heartbeats
