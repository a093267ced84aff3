import Centrald.Server.AuditTransactions
import Centrald.Server.Identities

/-!
# `Centrald.Server.AuditedTables`: the identities and the audit table together

The operations of `centrald-server` that write or delete rows of
`identities`, `identity_certificates` or `audit_entries`, each as one
transaction. An operation on the identities appends its audit record in
the same transaction, so both happen or neither.

The two tables are tied by the foreign keys `actor_id` and `target_id`
of `audit_entries`. A record can only name identities that exist, and
`ON DELETE SET NULL` clears the columns when `maintenance_once` deletes
the identity.

The metadata of a record is what the source builds from the request:
texts, integers and lists of texts. Nothing depends on it, so the
operations take it as an argument.
-/

set_option autoImplicit false

namespace Centrald.Server

open Durable

/-! ### Revocation -/

/-- The guarded update of a revocation. -/
def revokeRole (db : Registry) (identity : Nat) (role : Role) : Option Registry :=
  match db.identities identity with
  | some i => if i.role = role ∧ i.revoked = false then some (db.revoke identity) else none
  | none => none

/-- The tables of `revoke_identity` of `services.rs`, which revokes
clients only. -/
def revokeIdentity (db : Registry) (identity : Nat) : Option Registry :=
  revokeRole db identity .client

/-! ### The tables -/

/-- The tables of the server, and the sequence of the audit table. -/
structure AuditedTables (env : AuditEnv) where
  registry : Registry
  audit : List (AuditRow env.Metadata)
  nextSequence : Int

/-- The tables of a new installation. -/
def AuditedTables.fresh (env : AuditEnv) : AuditedTables env where
  registry := .empty
  audit := []
  nextSequence := 1

/-- The name of a role, as an audit label. -/
def Role.name : Role → String
  | .client => "client"
  | .admin => "admin"

variable {env : AuditEnv}

namespace AuditedTables

/-- The foreign keys and the primary key accept the record. -/
def accepts (db : AuditedTables env) (entry : AuditEntry env.Metadata) : Bool :=
  entry.actorId.all (fun actor => (db.registry.identities actor).isSome) &&
    entry.targetId.all (fun target => (db.registry.identities target).isSome) &&
    !(db.audit.map AuditRow.id).contains entry.id

/-- An appender, in a transaction of its own or at the end of one. -/
def append (db : AuditedTables env) (entry : AuditEntry env.Metadata) :
    Option (AuditedTables env) :=
  if db.accepts entry then
    some { db with
      audit := db.audit ++ [entry.row env db.nextSequence (selectNewestHash db.audit)]
      nextSequence := db.nextSequence + 1 }
  else none

/-- An operation on the identities and its record. -/
def change (db : AuditedTables env) (registry : Option Registry)
    (entry : AuditEntry env.Metadata) : Option (AuditedTables env) :=
  registry.bind fun registry => append { db with registry } entry

/-- The transaction of `reconcile`. -/
def reconcile (db : AuditedTables env) :
    List (LocalAuditRecord env.Metadata) → Option (AuditedTables env)
  | [] => some db
  | record :: rest =>
    if (db.audit.map AuditRow.id).contains record.id then db.reconcile rest
    else (db.append (journalEntry record)).bind fun db => db.reconcile rest

/-- The identities that `maintenance_once` deletes. -/
def deletes (db : AuditedTables env) (now : Int) (identity : Nat) : Bool :=
  (db.registry.identities identity).any fun i => Registry.expiredAt now i.activation

/-- `ON DELETE SET NULL` on both columns. -/
def setNull (deleted : Nat → Bool) (row : AuditRow env.Metadata) : AuditRow env.Metadata :=
  { row with
    actorId := row.actorId.filter fun actor => !deleted actor
    targetId := row.targetId.filter fun target => !deleted target }

/-- `maintenance_once`, as far as these tables go. -/
def maintenance (db : AuditedTables env) (now : Int) : AuditedTables env where
  registry := db.registry.maintenance now
  audit := db.audit.map (setNull (db.deletes now))
  nextSequence := db.nextSequence

end AuditedTables

/-! ### The operations -/

/-- The operations. `id` and `metadata` are those of the audit record. -/
inductive AuditedLabel (μ : Type) where
  /-- `audit`, and the calls of `append_audit` in transactions that leave
  the identities alone. -/
  | rpc (id : Nat) (now : Int) (actorId : Option Nat) (actorLabel action : String)
      (targetId : Option Nat) (outcome : String) (metadata : μ)
  | enroll (id : Nat) (now : Int) (role : Role) (identity issued : Nat) (expiresAt : Int)
      (metadata : μ)
  | renew (id : Nat) (now : Int) (fingerprint : Nat) (role : Role) (issued : Nat)
      (expiresAt : Int) (metadata : μ)
  | activate (id : Nat) (now : Int) (identity fingerprint : Nat) (role : Role) (metadata : μ)
  | revoke (id : Nat) (now : Int) (fingerprint identity : Nat) (metadata : μ)
  | revokeLocal (id : Nat) (now : Int) (identity : Nat) (role : Role) (metadata : μ)
  | replace (id : Nat) (now : Int) (fingerprint replacement : Nat) (metadata : μ)
  | localAudit (id : Nat) (now : Int) (action : String) (targetId : Option Nat) (metadata : μ)
  | reconcile (records : List (LocalAuditRecord μ))
  | maintenance (now : Int)
  /-- A transaction rolled back after it had inserted `rows` audit rows. -/
  | rollback (rows : Nat)

/-- The operations of the server on the tables. -/
def auditedTables (env : AuditEnv) :
    Machine (AuditedTables env) (AuditedLabel env.Metadata) where
  step db
    | .rpc id now actorId actorLabel action targetId outcome metadata =>
      db.append (rpcEntry id now actorId actorLabel action targetId outcome metadata)
    | .enroll id now role identity issued expiresAt metadata =>
      db.change (enrollIdentity db.registry now role identity issued expiresAt).toOption
        (rpcEntry id now (some identity) role.name "identity.enroll_pending" (some identity)
          "succeeded" metadata)
    | .renew id now fingerprint role issued expiresAt metadata => do
      let identity ← (authenticate db.registry now fingerprint role).toOption
      db.change (renewCertificate db.registry now fingerprint role issued expiresAt).toOption
        (rpcEntry id now (some identity) role.name "identity.certificate_renew_pending"
          (some identity) "succeeded" metadata)
    | .activate id now identity fingerprint role metadata => do
      let registry ←
        (activateIdentityCertificate db.registry now identity fingerprint role).toOption
      -- a certificate that is active already is left alone, without a record
      if (db.registry.certificates fingerprint).any fun c => c.activation = .active then
        some db
      else
        db.change (some registry)
          (rpcEntry id now (some identity) role.name "identity.activate" (some identity)
            "succeeded" metadata)
    | .revoke id now fingerprint identity metadata => do
      let actor ← (authenticate db.registry now fingerprint .admin).toOption
      db.change (revokeIdentity db.registry identity)
        (rpcEntry id now (some actor) "admin" "identity.revoke" (some identity) "succeeded"
          metadata)
    | .revokeLocal id now identity role metadata =>
      db.change (revokeRole db.registry identity role)
        (localEntry id now "identity.revoke" (some identity) metadata)
    | .replace id now fingerprint replacement metadata => do
      let currentIdentity ← (authenticate db.registry now fingerprint .client).toOption
      db.change (replaceIdentity db.registry now fingerprint replacement).toOption
        (rpcEntry id now (some currentIdentity) "client" "identity.replace" (some replacement)
          "succeeded" metadata)
    | .localAudit id now action targetId metadata =>
      db.append (localEntry id now action targetId metadata)
    | .reconcile records => db.reconcile records
    | .maintenance now => some (db.maintenance now)
    | .rollback rows => some { db with nextSequence := db.nextSequence + rows }

end Centrald.Server
