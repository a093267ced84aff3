import Centrald.Common.Grant
import Centrald.Durable.MinHeap
import Mathlib.Data.Finset.Basic
import Mathlib.Data.Int.Order.Basic

/-!
# `Centrald.Platform.Broker`: the grant verifier

The model of `centrald-platform`, `broker.rs`: requests and responses of
the broker, and the `GrantVerifier` that accepts each grant once. The
verifier remembers consumed grants in a set and, for pruning, in a heap
ordered by expiry. `GrantVerifier::execute`, which only the tests of the
crate call, is left out.
-/

set_option autoImplicit false

namespace Centrald.Platform

open Durable Common

def maxReplayEntries : Nat := 4096

/-- A request to the broker: the grant, and the parameters whose digest it
carries. -/
structure BrokerRequest where
  signedGrant : SignedGrant
  parametersJson : Bytes
  deriving DecidableEq

/-- The outcome of a privileged operation. -/
structure BrokerResponse where
  success : Bool
  output : Bytes
  exitCode : Int32
  deriving DecidableEq

/-- The `BrokerError`s of the verifier. -/
inductive BrokerError where
  | invalidGrant (error : GrantError)
  | replay
  | replaySetFull
  deriving DecidableEq

/-- The text of an error. -/
def BrokerError.text : BrokerError → String
  | .invalidGrant .serialization => "grant serialization failed"
  | .invalidGrant .signatureEncoding => "grant signature has invalid encoding"
  | .invalidGrant .invalidSignature => "grant signature verification failed"
  | .invalidGrant .wrongDevice => "grant is not for this device"
  | .invalidGrant .outsideValidity => "grant is expired or not yet valid"
  | .invalidGrant .lifetimeTooLong => "grant lifetime exceeds the maximum validity window"
  | .replay => "grant was already consumed"
  | .replaySetFull => "grant replay set is full of still-valid grants"

/-- An entry of the expiry queue: the expiry first, then the identifier. -/
abbrev Expiry := Int ×ₗ Nat

def Expiry.expiresAt (e : Expiry) : Int := (ofLex e).1

def Expiry.id (e : Expiry) : Nat := (ofLex e).2

/-- The verifier of the broker, with the grants that it has accepted:
`order` is the heap that lets it forget the expired ones. -/
structure GrantVerifier (sigs : Signatures) where
  deviceId : Nat
  signingKey : sigs.Key
  consumed : Finset Nat
  order : MinHeap Expiry

namespace GrantVerifier

variable {sigs : Signatures}

def new (deviceId : Nat) (signingKey : sigs.Key) : GrantVerifier sigs :=
  ⟨deviceId, signingKey, ∅, .empty⟩

/-- Remember a consumed grant. -/
def insert (v : GrantVerifier sigs) (grantId : Nat) (expiresAt : Int) : GrantVerifier sigs :=
  { v with
    consumed := Insert.insert grantId v.consumed
    order := v.order.push (toLex (expiresAt, grantId)) }

/-- `GrantVerifier::restore`. -/
def restore (v : GrantVerifier sigs) (grantId : Nat) (expiresAt now : Int) :
    GrantVerifier sigs :=
  if expiresAt ≤ now then v
  else if grantId ∈ v.consumed then v
  else v.insert grantId expiresAt

/-- `prune_expired`: pop entries up to the first that expires after `now`. -/
def pruneExpired (v : GrantVerifier sigs) (now : Int) : GrantVerifier sigs :=
  { v with
    order := v.order.popWhile fun e => e.expiresAt ≤ now
    consumed := (v.order.popped fun e => e.expiresAt ≤ now).foldl
      (fun consumed e => consumed.erase e.id) v.consumed }

/-- `GrantVerifier::verify_and_consume`. A grant that fails verification
is refused before anything is pruned. -/
def verifyAndConsume (texts : Texts) (v : GrantVerifier sigs) (signed : SignedGrant)
    (now : Int) : GrantVerifier sigs × Except BrokerError Unit :=
  match signed.verify texts sigs v.signingKey v.deviceId now with
  | .error e => (v, .error (.invalidGrant e))
  | .ok () =>
    let pruned := v.pruneExpired now
    if signed.grant.id ∈ pruned.consumed then (pruned, .error .replay)
    else if pruned.order.len ≥ maxReplayEntries then (pruned, .error .replaySetFull)
    else (pruned.insert signed.grant.id signed.grant.expiresAt, .ok ())

end GrantVerifier

end Centrald.Platform
