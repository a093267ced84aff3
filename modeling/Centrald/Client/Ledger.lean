import Centrald.Common.TornTail
import Centrald.Platform.Broker

/-!
# `Centrald.Client.Ledger`: the broker's durable ledger

The model of `centrald-client`, `ledger.rs`. The broker keeps two
journals of newline-terminated JSON records: `completed-jobs.jsonl`,
with the executions of jobs, and `consumed-grants.jsonl`. Both are byte
strings here (`none` before the first append).

The functions on the job ledger are programs in `LedgerM`, whose state
is the ledger file: reading the ledger cuts a torn final record off the
file. Where the code walks a `HashMap`, the order of the walk is an
argument (`HashOrder`), and so is the clock a compaction reads.
-/

set_option autoImplicit false

namespace Centrald.Client.Ledger

open Durable Common Platform

/-! ### Constants -/

def ledgerVersion : Int := 1

/-- `RECORD_RETENTION`: seven days. -/
def recordRetention : Int := 7 * 24 * 60 * 60 * second

/-- `EXECUTING_MARKER_TTL`: thirty minutes. -/
def executingMarkerTtl : Int := 30 * 60 * second

def maxLedgerBytes : Nat := 4 * 1024 * 1024

def maxRetainedInterruptedMarkers : Nat := 32

def maxRecordedOutputBytes : Nat := 64 * 1024

/-- What the ledger takes from other crates: the text forms of
identifiers and times, and `hex::encode(Sha256::digest(bytes))`. -/
structure LedgerEnv where
  texts : Texts
  sha256Hex : Bytes → Bytes

/-- A missing value is an error with a text. -/
def orFail {α : Type} (v : Option α) (text : String) : Except String α :=
  match v with
  | some a => .ok a
  | none => .error text

/-! ### Consumed grants -/

variable (env : LedgerEnv)

/-- The record of a consumed grant. `serde_json::json!` builds a map. -/
def consumedGrantPayload (grantId : Nat) (expiresAt : Int) : Json :=
  (Json.obj [(ascii "grant_id", .str (env.texts.uuid grantId)),
    (ascii "expires_at", .str (env.texts.time expiresAt))]).toValue

/-- The record with its checksum. -/
def consumedGrantEnvelope (grantId : Nat) (expiresAt : Int) : Json :=
  let payload := consumedGrantPayload env grantId expiresAt
  (Json.obj [(ascii "record", payload),
    (ascii "checksum_sha256", .str (env.sha256Hex payload.print))]).toValue

/-- The line that one consumed grant appends. -/
def consumedGrantLine (grant : Nat × Int) : Bytes :=
  (consumedGrantEnvelope env grant.1 grant.2).print ++ [newline]

/-- `record_consumed_grant`: append one line. -/
def recordConsumedGrant (file : Option Bytes) (grant : Nat × Int) :
    Option Bytes :=
  some (file.getD [] ++ consumedGrantLine env grant)

/-- One line of the consumed-grant journal. -/
def parseConsumedGrant (index : Nat) (line : Bytes) :
    Except String (Nat × Int) := do
  let parsed ← orFail (Json.parse line) s!"parse consumed-grant journal record {index + 1}"
  let envelope := parsed.toValue
  let record ← orFail (envelope.get (ascii "record"))
    "consumed-grant journal record missing payload"
  let checksum ← orFail ((envelope.get (ascii "checksum_sha256")).bind Json.asStr)
    "consumed-grant journal record missing checksum"
  if checksum ≠ env.sha256Hex record.print then
    .error s!"consumed-grant journal checksum mismatch on record {index + 1}"
  else
    let idField ← orFail (record.get (ascii "grant_id"))
      "consumed-grant journal record missing grant_id"
    let grantId ← orFail (idField.asStr.bind env.texts.parseUuid) "invalid identifier"
    let expiryField ← orFail (record.get (ascii "expires_at"))
      "consumed-grant journal record missing expires_at"
    let expiresAt ← orFail (expiryField.asStr.bind env.texts.parseTime) "invalid time"
    return (grantId, expiresAt)

/-- `load_consumed_grants`: the grants that expire after `now`. -/
def loadConsumedGrants (file : Option Bytes) (now : Int) :
    Except String (List (Nat × Int)) :=
  match file with
  | none => .ok []
  | some raw => readLines (parseConsumedGrant env) (fun g => g.2 > now) 0 (lines raw)

/-! ### Records of the job ledger -/

/-- A job is marked before it is run, and completed with its response. -/
inductive LedgerState where
  | executing
  | completed
  deriving DecidableEq

/-- A record of the ledger, without the version and the checksum of its
line. -/
structure LedgerRecord where
  jobId : Nat
  operation : GrantOperation
  state : LedgerState
  response : Option BrokerResponse
  expiresAt : Int
  recordedAt : Int
  deriving DecidableEq

/-- What the ledger knows of a job: it is marked as executing, or
completed with a response. -/
inductive LedgerLookup where
  | executing (interrupted : Bool)
  | completed (response : BrokerResponse)
  deriving DecidableEq

def LedgerState.name : LedgerState → Bytes
  | .executing => ascii "executing"
  | .completed => ascii "completed"

def LedgerState.ofName (name : Bytes) : Option LedgerState :=
  [LedgerState.executing, .completed].find? fun state => state.name == name

/-- The serialized response. -/
def responseToJson (r : BrokerResponse) : Json :=
  .obj [(ascii "success", .bool r.success),
    (ascii "output", .arr (r.output.map fun b => .num b.toNat)),
    (ascii "exit_code", .num r.exitCode.toInt)]

/-- The serialized record, its fields in the order of the declaration. -/
def recordToJson (r : LedgerRecord) : Json :=
  .obj [(ascii "job_id", .str (env.texts.uuid r.jobId)),
    (ascii "operation", .str r.operation.name),
    (ascii "state", .str r.state.name),
    (ascii "response", match r.response with | some resp => responseToJson resp | none => .null),
    (ascii "expires_at", .str (env.texts.time r.expiresAt)),
    (ascii "recorded_at", .str (env.texts.time r.recordedAt))]

def recordChecksum (r : LedgerRecord) : Bytes :=
  env.sha256Hex (recordToJson env r).print

/-- The serialized `LedgerEnvelope` of a record. -/
def envelopeToJson (r : LedgerRecord) : Json :=
  .obj [(ascii "version", .num ledgerVersion),
    (ascii "record", recordToJson env r),
    (ascii "checksum_sha256", .str (recordChecksum env r))]

/-- The line that one record appends. -/
def recordLine (r : LedgerRecord) : Bytes :=
  (envelopeToJson env r).print ++ [newline]

/-- Read a response back. The exit code is an `i32`. -/
def responseOfJson (v : Json) : Option BrokerResponse := do
  let fields ← v.recordFields [ascii "success", ascii "output", ascii "exit_code"]
  let success ← (← fields.lookup (ascii "success")).asBool
  let items ← (← fields.lookup (ascii "output")).asArray
  let output ← items.mapM fun item => (item.asIntIn 0 255).map fun n => UInt8.ofNat n.toNat
  let exitCode ← (← fields.lookup (ascii "exit_code")).asIntIn (-2147483648) 2147483647
  return { success, output, exitCode := Int32.ofInt exitCode }

/-- An optional response: the field may be missing or null. -/
def optResponseOfJson : Option Json → Option (Option BrokerResponse)
  | none => some none
  | some .null => some none
  | some v => (responseOfJson v).map some

/-- Read a record back. -/
def recordOfJson (v : Json) : Option LedgerRecord := do
  let fields ← v.recordFields [ascii "job_id", ascii "operation", ascii "state",
    ascii "response", ascii "expires_at", ascii "recorded_at"]
  let jobId ← env.texts.parseUuid (← (← fields.lookup (ascii "job_id")).asStr)
  let operation ← GrantOperation.ofName (← (← fields.lookup (ascii "operation")).asStr)
  let state ← LedgerState.ofName (← (← fields.lookup (ascii "state")).asStr)
  let response ← optResponseOfJson (fields.lookup (ascii "response"))
  let expiresAt ← env.texts.parseTime (← (← fields.lookup (ascii "expires_at")).asStr)
  let recordedAt ← env.texts.parseTime (← (← fields.lookup (ascii "recorded_at")).asStr)
  return { jobId, operation, state, response, expiresAt, recordedAt }

/-- `LedgerEnvelope`, read from a line. The version is a `u32`. -/
def envelopeOfJson (v : Json) : Option (Int × LedgerRecord × Bytes) := do
  let fields ← v.recordFields [ascii "version", ascii "record", ascii "checksum_sha256"]
  let version ← (← fields.lookup (ascii "version")).asIntIn 0 4294967295
  let record ← recordOfJson env (← fields.lookup (ascii "record"))
  let checksum ← (← fields.lookup (ascii "checksum_sha256")).asStr
  return (version, record, checksum)

/-- One line of the job ledger. -/
def parseRecord (index : Nat) (line : Bytes) : Except String LedgerRecord :=
  match (Json.parse line).bind (envelopeOfJson env) with
  | none => .error s!"parse broker ledger record {index + 1}"
  | some (version, record, checksum) =>
    if version ≠ ledgerVersion then
      .error s!"unsupported broker ledger version on line {index + 1}"
    else if checksum ≠ recordChecksum env record then
      .error s!"broker ledger checksum mismatch on record {index + 1}"
    else
      .ok record

/-- A record that a reader at `now` keeps: it has not expired, or it is
an execution marker. -/
def retained (now : Int) (r : LedgerRecord) : Bool :=
  r.expiresAt > now || r.state == .executing

/-! ### The ledger file -/

/-- Programs on the ledger file. A failed program keeps what it did to
the file. -/
abbrev LedgerM (α : Type) := ExceptT String (StateM (Option Bytes)) α

/-- The texts of the ledger's recovery. -/
def ledgerTexts : JournalTexts where
  readContext := "read broker ledger "
  preserveContext := "preserve torn final broker ledger record at "
  truncateContext := "truncate torn broker ledger tail in "

/-- `recover_torn_final_record` of `ledger.rs`, operation by operation. -/
def recoverTornFinalRecord (display : JournalFile → String) (quarantineId temporaryId : Uuid) :
    FileM String JournalFile Bytes :=
  recoverTornTail ledgerTexts display quarantineId temporaryId

/-- The recovery as one step, when nothing disturbs it: the file is cut
at its last newline. -/
def recovered : LedgerM Bytes := do
  match ← get with
  | none => throw "read broker ledger"
  | some raw =>
    set (some (committedPart raw))
    return committedPart raw

def readCommitted (now : Int) : LedgerM (List LedgerRecord) := do
  let raw ← recovered
  match readLines (parseRecord env) (retained now) 0 (lines raw) with
  | .error e => throw e
  | .ok records => return records

/-- What a lookup reports of a job's latest record. -/
def lookupRecord (now : Int) (r : LedgerRecord) : Except String LedgerLookup :=
  match r.state with
  | .executing => .ok (.executing (r.expiresAt ≤ now))
  | .completed =>
    match r.response with
    | some response => .ok (.completed response)
    | none => .error "completed ledger record is missing its response"

/-- The latest record of a job. -/
def latestRecord (records : List LedgerRecord) (jobId : Nat) : Option LedgerRecord :=
  records.reverse.find? fun r => r.jobId == jobId

/-- `BrokerLedger::lookup`. -/
def lookup (jobId : Nat) (now : Int) : LedgerM (Option LedgerLookup) := do
  match ← get with
  | none => return none
  | some _ =>
    let records ← readCommitted env now
    match latestRecord records jobId with
    | none => return none
    | some r =>
      match lookupRecord now r with
      | .error e => throw e
      | .ok found => return some found

def latestOperation (jobId : Nat) (now : Int) : LedgerM GrantOperation := do
  let records ← readCommitted env now
  match latestRecord records jobId with
  | none => throw "ledger record for job is missing"
  | some r => return r.operation

/-- The order in which a `HashMap` yields its values. -/
structure HashOrder where
  arrange : List LedgerRecord → List LedgerRecord
  perm : ∀ records, (arrange records).Perm records

/-- `latest.insert(record.job_id, record)` for every record in order. -/
def latestPerJob : List LedgerRecord → List LedgerRecord
  | [] => []
  | r :: rest =>
    if rest.any (fun r' => r'.jobId == r.jobId) then latestPerJob rest
    else r :: latestPerJob rest

/-- The markers a compaction retains: the newest by `recorded_at`. -/
def retainedMarkers (latest : List LedgerRecord) : List LedgerRecord :=
  ((latest.filter fun r => r.state == .executing).mergeSort
    fun a b => a.recordedAt ≤ b.recordedAt).reverse.take maxRetainedInterruptedMarkers

/-- The records a compaction writes. -/
def compactRecords (order : HashOrder) (records : List LedgerRecord) : List LedgerRecord :=
  let latest := order.arrange (latestPerJob records)
  let interruptedIds := (retainedMarkers latest).map LedgerRecord.jobId
  latest.filter fun r => r.state != .executing || interruptedIds.contains r.jobId

/-- `compact_if_needed` at the time `clock`. The staged file replaces
the ledger by a rename, which takes place whole or not at all. -/
def compactIfNeeded (clock : Int) (order : HashOrder) : LedgerM Unit := do
  match ← get with
  | none => return ()
  | some raw =>
    if raw.length ≤ maxLedgerBytes then return ()
    else
      let records ← readCommitted env clock
      set (some ((compactRecords order records).flatMap (recordLine env)))

/-- `BrokerLedger::append`, of which the first `written` bytes of the
line reach the file: all of them unless a crash cuts the append. -/
def appendCut (clock : Int) (order : HashOrder) (record : LedgerRecord)
    (written : Nat) : LedgerM Unit := do
  compactIfNeeded env clock order
  let file ← get
  set (some (file.getD [] ++ (recordLine env record).take written))

/-- `BrokerLedger::append`. -/
def append (clock : Int) (order : HashOrder) (record : LedgerRecord) :
    LedgerM Unit :=
  appendCut env clock order record (recordLine env record).length

/-- The marker of an execution. -/
def executingMarker (jobId : Nat) (operation : GrantOperation) (now : Int) : LedgerRecord where
  jobId := jobId
  operation := operation
  state := .executing
  response := none
  expiresAt := now + executingMarkerTtl
  recordedAt := now

/-- The record of a completed execution. -/
def completedRecord (jobId : Nat) (operation : GrantOperation) (response : BrokerResponse)
    (now : Int) : LedgerRecord where
  jobId := jobId
  operation := operation
  state := .completed
  response := some response
  expiresAt := now + recordRetention
  recordedAt := now

/-- `BrokerLedger::mark_executing`, with its append given. -/
def markExecutingWith (jobId : Nat) (operation : GrantOperation) (now : Int)
    (app : LedgerRecord → LedgerM Unit) : LedgerM Unit := do
  match ← lookup env jobId now with
  | some _ => throw "job already has a broker ledger record"
  | none => app (executingMarker jobId operation now)

/-- `BrokerLedger::record_completed`, with its append given. -/
def recordCompletedWith (jobId : Nat) (response : BrokerResponse) (now : Int)
    (app : LedgerRecord → LedgerM Unit) : LedgerM Unit := do
  if response.output.length > maxRecordedOutputBytes then
    throw "broker response output exceeds the recorded bound"
  else
    match ← lookup env jobId now with
    | none => throw "cannot complete a job without an executing marker"
    | some _ =>
      let operation ← latestOperation env jobId now
      app (completedRecord jobId operation response now)

end Centrald.Client.Ledger
