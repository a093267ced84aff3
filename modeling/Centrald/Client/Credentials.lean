import Centrald.Durable.AtomicPointer
import Centrald.Durable.FileSystem
import Centrald.Server.Identities
import Mathlib.Logic.Relation

/-!
# `Centrald.Client.Credentials`: credential generations, on disk and on the server

The world in which enrollment, the client daemon and the Admin
application move credentials: the server's tables, the generations on
disk, the active pointer and the broker's copy of the grant verifying
key. A program issues `CredentialOp`s; `credentialSem` says what may
happen to each.

* A request may be lost, refused, or carried out; the answer to a
  request that was carried out may be lost too. To the program a lost
  request and a lost answer look the same.
* Before every operation time may pass and the server may delete rows
  that were not activated in time.
* The process may die before, after and between any operations.
* A local operation may fail without effect.

The pointer is the atomic pointer that the pointer files refine
(`Centrald.Proofs.AtomicPointer`). One generation is the certificate,
the private key and the configuration of one issued certificate; it is
on disk when all of them are.
-/

set_option autoImplicit false

namespace Centrald.Client

open Durable Server

/-- A credential generation: what its configuration says. -/
structure Generation where
  identity : Nat
  fingerprint : Nat
  expiresAt : Int
  deriving DecidableEq

/-- The files of the broker's state directory that matter: the verifying
key and the hidden file it is written through. -/
inductive BrokerFile where
  | verifyingKey
  | temporary
  deriving DecidableEq

/-- The calls of the active pointer. -/
inductive PointerCall where
  | read
  | previous
  | publish (g : Generation)
  | commit
  | rollback
  | rollbackIfPrevious

/-- The operations that the programs on credentials issue, each with the
function of the source it stands for. -/
inductive CredentialOp where
  /-- `Utc::now`. -/
  | now
  /-- `enroll_client`. -/
  | enroll
  /-- `renew_certificate`, with the certificate of `g`. -/
  | renew (g : Generation)
  /-- `activate_identity`, with the certificate of `g`. -/
  | activate (g : Generation)
  /-- `replace_identity`, with the certificate of `previous`. -/
  | replace (previous : Generation) (replacement : Nat)
  /-- Load and check the configuration of `g`. -/
  | load (g : Generation)
  /-- Write the files of `g`. -/
  | persist (g : Generation)
  /-- Remove the files of `g`, as far as possible. -/
  | cleanup (g : Generation)
  /-- An operation on directories and permissions only. -/
  | secure
  | pointer (call : PointerCall)
  | broker (op : FileOp BrokerFile)

/-- What an operation answers to the program that issued it. -/
inductive CredentialReply where
  | time (t : Int)
  | enrolled (g : Generation) (grantKey : Bytes)
  | renewed (g : Generation)
  | generation (g : Option Generation)
  | rolledBack (b : Bool)
  | file (r : FileReply)
  | done
  /-- The server answered with a status. -/
  | refused (status : Status)
  /-- No answer, or a local error. -/
  | failed

/-- The world around one installation: the clock, the tables of the
server, the pointer, which generations have their files, and the files of
the broker. -/
structure CredentialState where
  clock : Int
  server : Registry
  pointer : AtomicPointer Generation
  stored : Generation → Bool
  broker : Fs BrokerFile Bytes

/-- The role of the identity and the server's grant signing key. -/
structure CredentialWorld where
  role : Role
  grantKey : Bytes

/-- Time passes, or `maintenance_once` runs. -/
inductive DriftStep : CredentialState → CredentialState → Prop where
  | tick (s : CredentialState) {t : Int} (h : s.clock ≤ t) : DriftStep s { s with clock := t }
  | maintenance (s : CredentialState) :
      DriftStep s { s with server := s.server.maintenance s.clock }

def Drift : CredentialState → CredentialState → Prop := Relation.ReflTransGen DriftStep

/-- A request with the result `result`, answered with `answer`. -/
def Request (result : Except Status Registry) (answer : CredentialReply)
    (s s' : CredentialState) (r : CredentialReply) : Prop :=
  (s' = s ∧ (r = .failed ∨ r = .refused .internal)) ∨
  match result with
  | .ok db => s' = { s with server := db } ∧ (r = answer ∨ r = .failed)
  | .error status => s' = s ∧ r = .refused status

/-- A request that presents the certificate of `g`: without its files it
is not even sent. -/
def RequestAs (g : Generation) (result : Except Status Registry) (answer : CredentialReply)
    (s s' : CredentialState) (r : CredentialReply) : Prop :=
  (s' = s ∧ r = .failed) ∨ (s.stored g = true ∧ Request result answer s s' r)

/-- The calls of the pointer, when they succeed. -/
def PointerCall.run (A : AtomicPointer Generation) :
    PointerCall → AtomicPointer Generation × CredentialReply
  | .read => (A, .generation A.value)
  | .previous => (A, .generation A.previous)
  | .publish g => if A.previous.isSome then (A, .failed) else (A.publish g, .done)
  | .commit => (A.commit, .done)
  | .rollback => (A.rollback, .done)
  | .rollbackIfPrevious =>
    if A.previous.isSome then (A.rollback, .rolledBack true) else (A, .rolledBack false)

/-- What an operation may do. -/
def CredentialOp.Effect (w : CredentialWorld) :
    CredentialOp → CredentialState → CredentialState → CredentialReply → Prop
  | .now, s, s', r => s' = s ∧ r = .time s.clock
  | .enroll, s, s', r =>
    -- the server may also refuse the enrollment key
    (s' = s ∧ ∃ status, r = .refused status) ∨
    ∃ g : Generation, Request
      (enrollIdentity s.server s.clock w.role g.identity g.fingerprint g.expiresAt)
      (.enrolled g w.grantKey) s s' r
  | .renew g, s, s', r =>
    ∃ issued expiresAt, RequestAs g
      (renewCertificate s.server s.clock g.fingerprint w.role issued expiresAt)
      (.renewed ⟨g.identity, issued, expiresAt⟩) s s' r
  | .activate g, s, s', r =>
    RequestAs g (activateIdentityCertificate s.server s.clock g.identity g.fingerprint w.role)
      .done s s' r
  | .replace previous replacement, s, s', r =>
    RequestAs previous (replaceIdentity s.server s.clock previous.fingerprint replacement)
      .done s s' r
  | .load g, s, s', r => s' = s ∧ ((s.stored g = true ∧ r = .done) ∨ r = .failed)
  | .persist g, s, s', r =>
    (s' = { s with stored := Function.update s.stored g true } ∧ r = .done) ∨
      (s' = s ∧ r = .failed)
  | .cleanup g, s, s', r =>
    (s' = { s with stored := Function.update s.stored g false } ∧ r = .done) ∨
      (s' = s ∧ r = .failed)
  | .secure, s, s', r => s' = s ∧ (r = .done ∨ r = .failed)
  | .pointer call, s, s', r =>
    (s' = { s with pointer := (call.run s.pointer).1 } ∧ r = (call.run s.pointer).2) ∨
      (s' = s ∧ r = .failed)
  | .broker op, s, s', r =>
    ∃ fs reply, (fileSem (fun _ => True) (fun t t' => t' = t)).effect op s.broker fs reply ∧
      s' = { s with broker := fs } ∧ r = .file reply

/-- The semantics of credential programs, with the answers that
`permitted` allows. -/
def credentialSem (w : CredentialWorld)
    (permitted : CredentialOp → CredentialState → CredentialReply → Prop) :
    Sem CredentialOp CredentialReply CredentialState where
  effect op s s' r := ∃ s1, Drift s s1 ∧ op.Effect w s1 s' r ∧ permitted op s' r
  torn op s s' :=
    match op with
    | .broker op => ∃ fs, op.Partly s.broker fs ∧ s' = { s with broker := fs }
    | _ => False
  survives s s' := s' = s

/-- An error: its context, outermost first, and the server's status. -/
structure ClientError where
  context : List String
  status : Option Status

namespace ClientError

/-- `bail!`. -/
def bail (text : String) : ClientError := ⟨[text], none⟩

/-- `error.context(text)`. -/
def addContext (e : ClientError) (text : String) : ClientError := ⟨text :: e.context, e.status⟩

end ClientError

/-- Credential programs that stop at the first error. -/
abbrev CredentialM (α : Type) := ExceptT ClientError (Prog CredentialOp CredentialReply) α

namespace CredentialM

/-- Issue an operation and return its reply. -/
def ask (op : CredentialOp) : CredentialM CredentialReply :=
  ExceptT.mk (.call op fun r => .ret (.ok r))

/-- Run a program and return its result, error or not. -/
def attempt {α : Type} (p : CredentialM α) : CredentialM (Except ClientError α) :=
  ExceptT.mk (p.run >>= fun r => .ret (.ok r))

/-- A local operation that may fail. -/
def act (op : CredentialOp) (text : String) : CredentialM Unit := do
  match ← ask op with
  | .done => return ()
  | _ => throw (.bail text)

/-- `Utc::now`. -/
def now : CredentialM Int := do
  match ← ask .now with
  | .time t => return t
  | _ => throw (.bail "clock")

/-- A request whose answer carries nothing. -/
def request (op : CredentialOp) (text : String) : CredentialM Unit := do
  match ← ask op with
  | .done => return ()
  | .refused status => throw ⟨[text], some status⟩
  | _ => throw (.bail text)

end CredentialM

end Centrald.Client
