import Mathlib.Logic.Function.Basic
import Centrald.Durable.Machine

/-!
# `Centrald.Server.ClientStreams`: the registered control streams

`RuntimeState` of `services.rs` has a table with the outbound sender of
each client's control stream, behind a mutex. A stream registers after
its `Hello` and unregisters when it ends. A client that reconnects
registers a second stream while the first one may still be ending.

Every section under the mutex is one step of `streamMachine`.
`unregister_client_stream` has two: it looks whether the sender is still
the registered one, lets the mutex go, takes it again and removes the
entry. A sender stands for its channel, which is new for each stream, so
that `same_channel` is equality. No section panics, so the mutex is not
poisoned. What a stream does between its two ends is left out.
-/

set_option autoImplicit false

namespace Centrald.Server

open Durable

variable {Identity Sender : Type} [DecidableEq Identity] [DecidableEq Sender]

/-- `client_streams`. -/
abbrev StreamTable (Identity Sender : Type) : Type := Identity → Option Sender

def registerClientStream (streams : StreamTable Identity Sender) (identity : Identity)
    (sender : Sender) : StreamTable Identity Sender :=
  Function.update streams identity (some sender)

/-- The first section of `unregister_client_stream`. -/
def isCurrent (streams : StreamTable Identity Sender) (identity : Identity) (sender : Sender) :
    Bool :=
  streams identity = some sender

/-- The second section of `unregister_client_stream`. -/
def removeClientStream (streams : StreamTable Identity Sender) (identity : Identity) :
    StreamTable Identity Sender :=
  Function.update streams identity none

def clientStream (streams : StreamTable Identity Sender) (identity : Identity) : Option Sender :=
  streams identity

def clientOnline (streams : StreamTable Identity Sender) (identity : Identity) : Bool :=
  (streams identity).isSome

/-- Where a control stream stands: it serves, it has found itself
registered and is about to remove the entry, or it is over. -/
inductive StreamPhase where
  | serving
  | removing
  | closed
  deriving DecidableEq

/-- A control stream of an identity. -/
structure StreamTask (Identity : Type) where
  identity : Identity
  phase : StreamPhase
  deriving DecidableEq

/-- The table, the streams by their senders, and the registrations so
far, the newest first. -/
structure StreamState (Identity Sender : Type) where
  streams : StreamTable Identity Sender
  tasks : Sender → Option (StreamTask Identity)
  registrations : List (Identity × Sender)

/-- The calls of the registry; the removal is a check and, later, the
removal itself. -/
inductive ClientStreamLabel (Identity Sender : Type) where
  | register (identity : Identity) (sender : Sender)
  | check (sender : Sender)
  | remove (sender : Sender)

namespace StreamState

/-- The stream moves on to a phase. -/
def setPhase (s : StreamState Identity Sender) (sender : Sender) (identity : Identity)
    (phase : StreamPhase) : StreamState Identity Sender :=
  { s with tasks := Function.update s.tasks sender (some ⟨identity, phase⟩) }

/-- The stream of the identity that registered last. -/
def lastRegistered (s : StreamState Identity Sender) (identity : Identity) : Option Sender :=
  (s.registrations.find? fun r => r.1 = identity).map Prod.snd

end StreamState

/-- The control streams of all clients, interleaved. -/
def streamMachine : Machine (StreamState Identity Sender) (ClientStreamLabel Identity Sender) where
  step s
    | .register identity sender =>
      match s.tasks sender with
      | none => some { s.setPhase sender identity .serving with
          streams := registerClientStream s.streams identity sender
          registrations := (identity, sender) :: s.registrations }
      | some _ => none
    | .check sender =>
      match s.tasks sender with
      | some ⟨identity, .serving⟩ =>
        if isCurrent s.streams identity sender then some (s.setPhase sender identity .removing)
        else some (s.setPhase sender identity .closed)
      | _ => none
    | .remove sender =>
      match s.tasks sender with
      | some ⟨identity, .removing⟩ =>
        some { s.setPhase sender identity .closed with
          streams := removeClientStream s.streams identity }
      | _ => none

/-- No stream yet. -/
def noStreams : StreamState Identity Sender where
  streams _ := none
  tasks _ := none
  registrations := []

end Centrald.Server
