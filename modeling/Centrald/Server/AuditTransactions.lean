import Centrald.Durable.Machine
import Centrald.Server.Audit
import Mathlib.Data.Int.Order.Basic

/-!
# `Centrald.Server.AuditTransactions`: appends under READ COMMITTED

The transactions that append to `audit_entries`, statement by statement
and in any interleaving. A statement sees the rows that are committed
when it starts and the rows of its own transaction. The sequence is
counted outside the transactions, so a rollback leaves a gap. The
advisory lock belongs to one transaction until it commits or rolls back;
a transaction that has it may take it again.

A call of an appender is the list of the records it appends.
`append_audit` and `append_local_audit` append one record,
`reconcile` appends those of the journal whose identifier is not in the
table yet. All three take the lock first. For each record they read the
hash of the newest row and insert the record behind it, in two
statements.
-/

set_option autoImplicit false

namespace Centrald.Server

open Durable

/-- A record to append. `reconcile` first asks whether it is there. -/
structure AuditAppend (μ : Type) where
  entry : AuditEntry μ
  unlessPresent : Bool

section Calls

variable {μ : Type}

/-- `append_audit` of `services.rs`. -/
def appendAudit (id : Nat) (now : Int) (actorId : Option Nat) (actorLabel action : String)
    (targetId : Option Nat) (outcome : String) (metadata : μ) : List (AuditAppend μ) :=
  [⟨rpcEntry id now actorId actorLabel action targetId outcome metadata, false⟩]

/-- `append_local_audit` of `manage.rs`. -/
def appendLocalAudit (id : Nat) (now : Int) (action : String) (targetId : Option Nat)
    (metadata : μ) : List (AuditAppend μ) :=
  [⟨localEntry id now action targetId metadata, false⟩]

/-- The loop of `reconcile` of `local_audit.rs`. -/
def reconcileRecords (records : List (LocalAuditRecord μ)) : List (AuditAppend μ) :=
  records.map fun record => ⟨journalEntry record, true⟩

/-- The calls that take the audit lock. -/
inductive AuditCall (μ : Type) where
  | rpc (id : Nat) (now : Int) (actorId : Option Nat) (actorLabel action : String)
      (targetId : Option Nat) (outcome : String) (metadata : μ)
  | localRoot (id : Nat) (now : Int) (action : String) (targetId : Option Nat) (metadata : μ)
  | reconcile (records : List (LocalAuditRecord μ))

def AuditCall.appends : AuditCall μ → List (AuditAppend μ)
  | .rpc id now actorId actorLabel action targetId outcome metadata =>
    appendAudit id now actorId actorLabel action targetId outcome metadata
  | .localRoot id now action targetId metadata => appendLocalAudit id now action targetId metadata
  | .reconcile records => reconcileRecords records

end Calls

/-- Where a transaction stands. -/
inductive AppendPc (μ : Type) where
  /-- No call is going on. -/
  | ready
  /-- `SELECT pg_advisory_xact_lock(1129601348)`. -/
  | lock (queue : List (AuditAppend μ))
  /-- The start of the loop over the records that are left. -/
  | next (queue : List (AuditAppend μ))
  /-- `SELECT entry_hash … LIMIT 1`. -/
  | select (append : AuditAppend μ) (queue : List (AuditAppend μ))
  /-- The hash is computed and the `INSERT` is to run. -/
  | insert (append : AuditAppend μ) (previousHash : Option Bytes) (queue : List (AuditAppend μ))
  /-- A statement failed; only a rollback is left. -/
  | failed

/-- The call has passed the lock. -/
def AppendPc.Locked {μ : Type} : AppendPc μ → Prop
  | .ready | .lock _ => False
  | .next _ | .select _ _ | .insert _ _ _ | .failed => True

/-- An open transaction: the rows it has inserted and where it stands. -/
structure AuditTx (μ : Type) where
  own : List (AuditRow μ)
  pc : AppendPc μ

/-- The table, the sequence, the lock and the open transactions. -/
structure AuditDb (μ : Type) where
  committed : List (AuditRow μ)
  nextSequence : Int
  lockHolder : Option Nat
  transactions : Nat → Option (AuditTx μ)

namespace AuditDb

variable {μ : Type}

/-- The empty table. -/
def empty : AuditDb μ where
  committed := []
  nextSequence := 1
  lockHolder := none
  transactions := fun _ => none

/-- The rows that transaction `t` has inserted. -/
def own (db : AuditDb μ) (t : Nat) : List (AuditRow μ) :=
  match db.transactions t with
  | some tx => tx.own
  | none => []

/-- What a statement sees, outside the transactions or in one. -/
def visible (db : AuditDb μ) : Option Nat → List (AuditRow μ)
  | none => db.committed
  | some t => db.committed ++ db.own t

/-- The rows of the holder of the lock. -/
def held (db : AuditDb μ) : List (AuditRow μ) :=
  match db.lockHolder with
  | none => []
  | some t => db.own t

/-- The committed rows and those of the holder of the lock. -/
def rows (db : AuditDb μ) : List (AuditRow μ) := db.committed ++ db.held

def set (db : AuditDb μ) (t : Nat) (tx : AuditTx μ) : AuditDb μ :=
  { db with transactions := Function.update db.transactions t (some tx) }

/-- The end of a transaction, which gives the lock back. -/
def close (db : AuditDb μ) (t : Nat) : AuditDb μ :=
  { db with
    lockHolder := if db.lockHolder = some t then none else db.lockHolder
    transactions := Function.update db.transactions t none }

end AuditDb

/-- `SELECT entry_hash FROM audit_entries ORDER BY sequence DESC LIMIT 1`. -/
def selectNewestHash {μ : Type} (rows : List (AuditRow μ)) : Option Bytes :=
  (rows.maxOn? AuditRow.sequence).map AuditRow.entryHash

/-- `ORDER BY sequence`. -/
def inSequenceOrder {μ : Type} (rows : List (AuditRow μ)) : List (AuditRow μ) :=
  rows.mergeSort fun a b => decide (a.sequence ≤ b.sequence)

/-- The steps of transaction `t`. -/
inductive AuditLabel (μ : Type) where
  | start (t : Nat)
  | call (t : Nat) (call : AuditCall μ)
  | lock (t : Nat)
  | next (t : Nat)
  | select (t : Nat)
  | insert (t : Nat)
  | commit (t : Nat)
  | rollback (t : Nat)

/-- The interleaved transactions. -/
def auditTransactions (env : AuditEnv) :
    Machine (AuditDb env.Metadata) (AuditLabel env.Metadata) where
  step db
    | .start t =>
      match db.transactions t with
      | none => some (db.set t ⟨[], .ready⟩)
      | some _ => none
    | .call t call =>
      match db.transactions t with
      | some ⟨own, .ready⟩ => some (db.set t ⟨own, .lock call.appends⟩)
      | _ => none
    | .lock t =>
      match db.transactions t with
      | some ⟨own, .lock queue⟩ =>
        if db.lockHolder = none ∨ db.lockHolder = some t then
          some { db.set t ⟨own, .next queue⟩ with lockHolder := some t }
        else none
      | _ => none
    | .next t =>
      match db.transactions t with
      | some ⟨own, .next []⟩ => some (db.set t ⟨own, .ready⟩)
      | some ⟨own, .next (append :: queue)⟩ =>
        -- `SELECT EXISTS(SELECT 1 FROM audit_entries WHERE id = $1)`
        if append.unlessPresent ∧ append.entry.id ∈ (db.visible (some t)).map AuditRow.id then
          some (db.set t ⟨own, .next queue⟩)
        else some (db.set t ⟨own, .select append queue⟩)
      | _ => none
    | .select t =>
      match db.transactions t with
      | some ⟨own, .select append queue⟩ =>
        some (db.set t ⟨own, .insert append (selectNewestHash (db.visible (some t))) queue⟩)
      | _ => none
    | .insert t =>
      match db.transactions t with
      | some ⟨own, .insert append previousHash queue⟩ =>
        -- the sequence is taken before the primary key is checked
        let db := { db with nextSequence := db.nextSequence + 1 }
        if append.entry.id ∈ (db.visible (some t)).map AuditRow.id then
          some (db.set t ⟨own, .failed⟩)
        else
          let row := append.entry.row env (db.nextSequence - 1) previousHash
          some (db.set t ⟨own ++ [row], .next queue⟩)
      | _ => none
    | .commit t =>
      match db.transactions t with
      | some ⟨own, .ready⟩ => some { db.close t with committed := db.committed ++ own }
      | _ => none
    | .rollback t =>
      match db.transactions t with
      | some _ => some (db.close t)
      | none => none

end Centrald.Server
