import Centrald.Durable.Lines

/-!
# `Centrald.Server.Audit`: the audit hash chain

The model of the table `audit_entries` and of the functions that write
and check it: `append_audit` (`services.rs`), `append_local_audit`
(`manage.rs`), `append_record` (`local_audit.rs`) and `verify_chain`
(`audit_export.rs`) of `centrald-server`.

The three appenders hash the same object, the canonical record, with the
hash of the newest row in it. They differ in the fields they fix, which
is what `AuditEntry` holds: a row before it is linked. Times are in
nanoseconds, identifiers are numbers; SHA-256, the serialization of the
canonical record and the round trip through a `JSONB` column belong to
`AuditEnv`.
-/

set_option autoImplicit false

namespace Centrald.Server

open Durable

/-! ### Hexadecimal texts -/

/-- `hex::encode`. -/
def hexEncode (bytes : Bytes) : String :=
  String.ofList (bytes.flatMap fun b =>
    [Nat.digitChar (b.toNat / 16), Nat.digitChar (b.toNat % 16)])

/-- The value of a hexadecimal digit. -/
def hexDigitValue (c : Char) : Option Nat :=
  if '0' ≤ c ∧ c ≤ '9' then some (c.toNat - 48)
  else if 'a' ≤ c ∧ c ≤ 'f' then some (c.toNat - 87)
  else if 'A' ≤ c ∧ c ≤ 'F' then some (c.toNat - 55)
  else none

def hexDecodeChars : List Char → Option Bytes
  | [] => some []
  | [_] => none
  | high :: low :: rest => do
    let h ← hexDigitValue high
    let l ← hexDigitValue low
    let bytes ← hexDecodeChars rest
    return UInt8.ofNat (16 * h + l) :: bytes

/-- `hex::decode`. -/
def hexDecode (text : String) : Option Bytes := hexDecodeChars text.toList

theorem hexDigitValue_digitChar {n : Nat} (h : n < 16) :
    hexDigitValue (Nat.digitChar n) = some n := by
  have hall : ∀ n : Fin 16, hexDigitValue (Nat.digitChar n) = some n.val := by decide
  exact hall ⟨n, h⟩

theorem hexDecode_hexEncode (bytes : Bytes) : hexDecode (hexEncode bytes) = some bytes := by
  rw [hexDecode, hexEncode, String.toList_ofList]
  induction bytes with
  | nil => rfl
  | cons b rest ih =>
    have hhigh : hexDigitValue (Nat.digitChar (b.toNat / 16)) = some (b.toNat / 16) :=
      hexDigitValue_digitChar (by have := b.toNat_lt; omega)
    have hlow : hexDigitValue (Nat.digitChar (b.toNat % 16)) = some (b.toNat % 16) :=
      hexDigitValue_digitChar (by omega)
    have hbyte : 16 * (b.toNat / 16) + b.toNat % 16 = b.toNat := by omega
    rw [List.flatMap_cons, List.cons_append, List.cons_append, List.nil_append, hexDecodeChars,
      hhigh, hlow, ih]
    show some (UInt8.ofNat (16 * (b.toNat / 16) + b.toNat % 16) :: rest) = some (b :: rest)
    rw [hbyte, UInt8.ofNat_toNat]

theorem hexEncode_injective : Function.Injective hexEncode := by
  intro a b h
  have hdecode := congrArg hexDecode h
  rw [hexDecode_hexEncode, hexDecode_hexEncode] at hdecode
  exact Option.some.inj hdecode

/-! ### Rows and their canonical record -/

/-- A row of `audit_entries`. -/
structure AuditRow (μ : Type) where
  sequence : Int
  id : Nat
  actorId : Option Nat
  actorLabel : String
  action : String
  targetId : Option Nat
  outcome : String
  metadata : μ
  previousHash : Option Bytes
  entryHash : Bytes
  createdAt : Int

/-- The object that is hashed. -/
structure CanonicalRecord (μ : Type) where
  id : Nat
  actorId : Option Nat
  actorLabel : String
  action : String
  targetId : Option Nat
  outcome : String
  metadata : μ
  previousHash : Option String
  createdAt : Int
  deriving DecidableEq

/-- What the audit functions take from elsewhere: the values of
`metadata`, what a `JSONB` column returns for one, `serde_json::to_vec`
of the canonical record, and SHA-256. -/
structure AuditEnv where
  Metadata : Type
  jsonb : Metadata → Metadata
  serialize : CanonicalRecord Metadata → Bytes
  sha256 : Bytes → Bytes

/-- `normalized_audit_timestamp` and `normalized_micros`: the start of the
microsecond. -/
def normalizedMicros (t : Int) : Int := t / 1000 * 1000

theorem normalizedMicros_normalizedMicros (t : Int) :
    normalizedMicros (normalizedMicros t) = normalizedMicros t := by
  simp only [normalizedMicros]
  omega

variable (env : AuditEnv)

def canonicalRecord (row : AuditRow env.Metadata) : CanonicalRecord env.Metadata where
  id := row.id
  actorId := row.actorId
  actorLabel := row.actorLabel
  action := row.action
  targetId := row.targetId
  outcome := row.outcome
  metadata := row.metadata
  previousHash := row.previousHash.map hexEncode
  createdAt := normalizedMicros row.createdAt

/-- The hash that a row should carry. -/
def recordHash (row : AuditRow env.Metadata) : Bytes :=
  env.sha256 (env.serialize (canonicalRecord env row))

/-! ### Verification -/

/-- The loop of `verify_chain`. -/
def verifyRows : Option Bytes → List (AuditRow env.Metadata) → Except String Unit
  | _, [] => .ok ()
  | expectedPrevious, row :: rest =>
    if row.previousHash ≠ expectedPrevious then
      .error (s!"audit chain broken at sequence {row.sequence}: " ++
        "previous_hash does not chain to the prior entry")
    else if recordHash env row ≠ row.entryHash then
      .error (s!"audit entry {row.sequence} fails hash verification: " ++
        "stored entry_hash does not match its canonical record")
    else verifyRows (some row.entryHash) rest

def verifyChain (rows : List (AuditRow env.Metadata)) (fromSequence : Int)
    (previousTail : Option String) : Except String Unit :=
  match rows with
  | [] => .error "empty audit window"
  | first :: rest =>
    if first.sequence ≤ fromSequence then
      .error "audit export window is not strictly after the previous export"
    else
      match previousTail with
      | none => verifyRows env none (first :: rest)
      | some tail =>
        let link := first.previousHash.map hexEncode
        if link ≠ some tail then
          let shown := link.getD "<none>"
          .error (s!"audit chain gap or tampering: first record links to {shown}, " ++
            s!"previous export tail is {tail}")
        else
          match hexDecode tail with
          | none => .error "previous export tail hash is not valid hex"
          | some previous => verifyRows env (some previous) (first :: rest)

/-! ### Appending -/

/-- A record before it is linked. -/
structure AuditEntry (μ : Type) where
  id : Nat
  actorId : Option Nat
  actorLabel : String
  action : String
  targetId : Option Nat
  outcome : String
  metadata : μ
  createdAt : Int
  deriving DecidableEq

/-- `LocalAuditRecord`, a record of the local journal. -/
structure LocalAuditRecord (μ : Type) where
  id : Nat
  createdAt : Int
  action : String
  outcome : String
  metadata : μ

/-- The entry of `append_audit`. -/
def rpcEntry {μ : Type} (id : Nat) (now : Int) (actorId : Option Nat) (actorLabel action : String)
    (targetId : Option Nat) (outcome : String) (metadata : μ) : AuditEntry μ where
  id := id
  actorId := actorId
  actorLabel := actorLabel
  action := action
  targetId := targetId
  outcome := outcome
  metadata := metadata
  createdAt := normalizedMicros now

/-- The entry of `append_local_audit`. -/
def localEntry {μ : Type} (id : Nat) (now : Int) (action : String) (targetId : Option Nat)
    (metadata : μ) : AuditEntry μ where
  id := id
  actorId := none
  actorLabel := "server-local-root"
  action := action
  targetId := targetId
  outcome := "succeeded"
  metadata := metadata
  createdAt := normalizedMicros now

/-- The entry of `append_record`. -/
def journalEntry {μ : Type} (record : LocalAuditRecord μ) : AuditEntry μ where
  id := record.id
  actorId := none
  actorLabel := "server-local-root"
  action := record.action
  targetId := none
  outcome := record.outcome
  metadata := record.metadata
  createdAt := normalizedMicros record.createdAt

/-- The object that an appender hashes. -/
def AuditEntry.canonical (entry : AuditEntry env.Metadata) (previousHash : Option Bytes) :
    CanonicalRecord env.Metadata where
  id := entry.id
  actorId := entry.actorId
  actorLabel := entry.actorLabel
  action := entry.action
  targetId := entry.targetId
  outcome := entry.outcome
  metadata := entry.metadata
  previousHash := previousHash.map hexEncode
  createdAt := entry.createdAt

/-- The row that an appender inserts behind `previousHash`. The columns
hold what the table keeps of the values: `timestamptz` has microseconds
and `metadata` is `JSONB`. -/
def AuditEntry.row (entry : AuditEntry env.Metadata) (sequence : Int)
    (previousHash : Option Bytes) : AuditRow env.Metadata where
  sequence := sequence
  id := entry.id
  actorId := entry.actorId
  actorLabel := entry.actorLabel
  action := entry.action
  targetId := entry.targetId
  outcome := entry.outcome
  metadata := env.jsonb entry.metadata
  previousHash := previousHash
  entryHash := env.sha256 (env.serialize (entry.canonical env previousHash))
  createdAt := normalizedMicros entry.createdAt

/-- `SELECT entry_hash FROM audit_entries ORDER BY sequence DESC LIMIT 1`,
for rows in the order of their sequence. -/
def newestHash {μ : Type} (rows : List (AuditRow μ)) : Option Bytes :=
  rows.getLast?.map AuditRow.entryHash

end Centrald.Server
