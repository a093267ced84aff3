import Centrald.Client.Broker
import Centrald.Durable.JsonProofs

/-!
# `Centrald.Proofs.Ledger`: the ledger file as a list of records

The ledger is a file of lines, and every function on it starts from the
bytes. Here each of them is described by what it does to the records
that the newline-terminated part of the file encodes (`Represents`):

* a reader gets the records it retains (`runLedger_readCommitted`), and
  a lookup answers from the latest of them (`lookupIn`);
* a lookup also cuts a torn tail off (`Clean`), so the append that
  follows it continues a whole line;
* an append first compacts a ledger over its size bound (`compacted`),
  and then adds its record if all of its line reaches the file.

The rest of the file looks at the latest record of a job: what an
append and a compaction do to it.
-/

set_option autoImplicit false

namespace Centrald.Proofs

open Durable Common Platform Client Client.Ledger

variable (env : LedgerEnv)

/-! ### One record -/

theorem operation_ofName_name (op : GrantOperation) : GrantOperation.ofName op.name = some op := by
  cases op <;> decide

theorem ledgerState_ofName_name (state : LedgerState) :
    LedgerState.ofName state.name = some state := by
  cases state <;> decide

/-- Bytes come back from a JSON array of numbers. -/
theorem mapM_outputByte (output : Bytes) : (output.map fun b => Json.num b.toNat).mapM (fun item =>
      (item.asIntIn 0 255).map fun n => UInt8.ofNat n.toNat) = some output := by
  induction output with
  | nil => rfl
  | cons b rest ih =>
    have hbound : (0 : Int) ≤ b.toNat ∧ (b.toNat : Int) ≤ 255 := by
      have hlt := b.toNat_lt
      omega
    have hb : ((Json.num b.toNat).asIntIn 0 255).map (fun n => UInt8.ofNat n.toNat) = some b := by
      rw [Json.asIntIn, if_pos hbound]
      simp
    grind

theorem responseOfJson_responseToJson (r : BrokerResponse) :
    responseOfJson (responseToJson r) = some r := by
  have hfields : (responseToJson r).recordFields
      [ascii "success", ascii "output", ascii "exit_code"] = some
        [(ascii "success", .bool r.success),
          (ascii "output", .arr (r.output.map fun b => .num b.toNat)),
          (ascii "exit_code", .num r.exitCode.toInt)] := rfl
  have hbound : (-2147483648 : Int) ≤ r.exitCode.toInt ∧ r.exitCode.toInt ≤ 2147483647 := by
    have hle := r.exitCode.le_toInt
    have hlt := r.exitCode.toInt_lt
    omega
  have hexitCode : (Json.num r.exitCode.toInt).asIntIn (-2147483648) 2147483647 =
      some r.exitCode.toInt := if_pos hbound
  rw [responseOfJson, hfields]
  show ((r.output.map fun b : UInt8 => Json.num b.toNat).mapM (fun item : Json =>
      (item.asIntIn 0 255).map fun n => UInt8.ofNat n.toNat)).bind (fun output =>
        ((Json.num r.exitCode.toInt).asIntIn (-2147483648) 2147483647).bind fun exitCode =>
          some { success := r.success, output, exitCode := Int32.ofInt exitCode }) = some r
  rw [mapM_outputByte, hexitCode]
  simp

theorem recordOfJson_recordToJson (r : LedgerRecord) :
    recordOfJson env (recordToJson env r) = some r := by
  have hresponse : optResponseOfJson ((recordToJson env r).get (ascii "response")) =
      some r.response := by
    obtain ⟨_, _, _, response, _, _⟩ := r
    cases response with
    | none => rfl
    | some resp =>
      show (responseOfJson (responseToJson resp)).map some = _
      rw [responseOfJson_responseToJson]
      rfl
  show (env.texts.parseUuid (env.texts.uuid r.jobId)).bind (fun jobId =>
    (GrantOperation.ofName r.operation.name).bind fun operation =>
    (LedgerState.ofName r.state.name).bind fun state =>
    (optResponseOfJson ((recordToJson env r).get (ascii "response"))).bind fun response =>
    (env.texts.parseTime (env.texts.time r.expiresAt)).bind fun expiresAt =>
    (env.texts.parseTime (env.texts.time r.recordedAt)).bind fun recordedAt =>
    some { jobId, operation, state, response, expiresAt, recordedAt }) = some r
  rw [hresponse, env.texts.parseUuid_uuid, operation_ofName_name, ledgerState_ofName_name,
    env.texts.parseTime_time, env.texts.parseTime_time]
  rfl

/-- The JSON text of one record: its line without the newline. -/
def recordText (r : LedgerRecord) : Bytes := (envelopeToJson env r).print

/-- The reader gets back the record a line was written for. -/
theorem parseRecord_recordText (index : Nat) (r : LedgerRecord) :
    parseRecord env index (recordText env r) = .ok r := by
  have henvelope : envelopeOfJson env (envelopeToJson env r) =
      some (ledgerVersion, r, recordChecksum env r) := by
    show (recordOfJson env (recordToJson env r)).bind (fun record =>
      some (ledgerVersion, record, recordChecksum env r)) = _
    rw [recordOfJson_recordToJson]
    rfl
  rw [parseRecord, recordText, parse_print, Option.bind_some, henvelope]
  simp

theorem newline_not_mem_recordText (r : LedgerRecord) : newline ∉ recordText env r :=
  newline_not_mem_print _

theorem isBlank_recordText (r : LedgerRecord) : isBlank (recordText env r) = false := by
  rw [recordText, envelopeToJson, isBlank_print_obj]

/-! ### The file and its records -/

/-- The bytes of a ledger with the records `rs`. -/
def encodeLedger (rs : List LedgerRecord) : Bytes := rs.flatMap (recordLine env)

/-- The newline-terminated part of the file encodes `rs`. -/
def Represents (file : Option Bytes) (rs : List LedgerRecord) : Prop :=
  committedPart (file.getD []) = encodeLedger env rs

/-- The whole file encodes `rs`: there is no torn tail. -/
def Clean (file : Option Bytes) (rs : List LedgerRecord) : Prop :=
  file.getD [] = encodeLedger env rs

variable {env} {file : Option Bytes} {rs : List LedgerRecord}

theorem terminated_encodeLedger (rs : List LedgerRecord) : Terminated (encodeLedger env rs) :=
  terminated_flatMap (recordText env) rs

theorem committedPart_encodeLedger (rs : List LedgerRecord) :
    committedPart (encodeLedger env rs) = encodeLedger env rs :=
  committedPart_of_terminated (terminated_encodeLedger rs)

theorem Clean.represents (h : Clean env file rs) : Represents env file rs := by
  rw [Represents, h, committedPart_encodeLedger]

theorem encodeLedger_append (rs rs' : List LedgerRecord) :
    encodeLedger env (rs ++ rs') = encodeLedger env rs ++ encodeLedger env rs' :=
  List.flatMap_append

theorem encodeLedger_singleton (r : LedgerRecord) : encodeLedger env [r] = recordLine env r := by
  simp [encodeLedger]

/-- No file, no records. -/
theorem represents_none : Represents env none rs ↔ rs = [] := by
  constructor
  · intro h
    cases rs with
    | nil => rfl
    | cons r rest =>
      have hempty : ([] : Bytes) = recordLine env r ++ encodeLedger env rest := h
      rw [recordLine] at hempty
      simp at hempty
  · rintro rfl
    rfl

/-- A file represents one list of records. -/
theorem Represents.unique {rs' : List LedgerRecord} (h : Represents env file rs)
    (h' : Represents env file rs') : rs = rs' := by
  have hread : ∀ rs, readLines (parseRecord env) (fun _ => true) 0 (lines (encodeLedger env rs)) =
      .ok (rs.filter fun _ => true) := fun rs =>
    readLines_of_recordLines (parseRecord_recordText env) 0
      (recordLines_flatMap (newline_not_mem_recordText env) (isBlank_recordText env) rs)
  have hsame := hread rs
  rw [show encodeLedger env rs = encodeLedger env rs' from h.symm.trans h', hread rs',
    Except.ok.injEq, List.filter_true, List.filter_true] at hsame
  exact hsame.symm

/-! ### Ledger programs -/

section Programs

variable {α β : Type}

theorem runLedger_bind_ok {m : LedgerM α} {f : α → LedgerM β} {file file' : Option Bytes} {a : α}
    (h : runLedger m file = (.ok a, file')) :
    runLedger (m >>= f) file = runLedger (f a) file' := by
  have hrun : (ExceptT.run m).run file = (.ok a, file') := h
  show (ExceptT.run (m >>= f)).run file = _
  rw [ExceptT.run_bind, StateT.run_bind, hrun]
  rfl

theorem runLedger_bind_error {m : LedgerM α} {f : α → LedgerM β} {file file' : Option Bytes}
    {e : String} (h : runLedger m file = (.error e, file')) :
    runLedger (m >>= f) file = (.error e, file') := by
  have hrun : (ExceptT.run m).run file = (.error e, file') := h
  show (ExceptT.run (m >>= f)).run file = _
  rw [ExceptT.run_bind, StateT.run_bind, hrun]
  rfl

end Programs

/-- The file after the recovery of its torn tail. -/
def recoveredFile (env : LedgerEnv) (rs : List LedgerRecord) (file : Option Bytes) :
    Option Bytes :=
  file.map fun _ => encodeLedger env rs

theorem clean_recoveredFile (h : Represents env file rs) :
    Clean env (recoveredFile env rs file) rs := by
  cases file with
  | none =>
    rw [represents_none.1 h]
    rfl
  | some raw => rfl

theorem runLedger_readCommitted {raw : Bytes} (h : Represents env (some raw) rs) (now : Int) :
    runLedger (readCommitted env now) (some raw) =
      (.ok (rs.filter (retained now)), some (encodeLedger env rs)) := by
  have hraw : committedPart raw = encodeLedger env rs := h
  have hrecovered : runLedger recovered (some raw) =
      (.ok (encodeLedger env rs), some (encodeLedger env rs)) := by
    rw [← hraw]
    rfl
  have hlines : readLines (parseRecord env) (retained now) 0 (lines (encodeLedger env rs)) =
      .ok (rs.filter (retained now)) :=
    readLines_of_recordLines (parseRecord_recordText env) 0
      (recordLines_flatMap (newline_not_mem_recordText env) (isBlank_recordText env) rs)
  rw [Ledger.readCommitted, runLedger_bind_ok hrecovered, hlines]
  rfl

/-- What a lookup reads from the records. -/
def lookupIn (rs : List LedgerRecord) (jobId : Nat) (now : Int) :
    Except String (Option LedgerLookup) :=
  match latestRecord (rs.filter (retained now)) jobId with
  | none => .ok none
  | some r => (lookupRecord now r).map some

theorem runLedger_lookup (h : Represents env file rs) (jobId : Nat) (now : Int) :
    runLedger (lookup env jobId now) file = (lookupIn rs jobId now, recoveredFile env rs file) := by
  have hget : runLedger (get : LedgerM (Option Bytes)) file = (.ok file, file) := rfl
  rw [lookup, runLedger_bind_ok hget]
  cases file with
  | none =>
    rw [represents_none.1 h]
    rfl
  | some raw =>
    show runLedger (readCommitted env now >>= _) (some raw) = _
    rw [runLedger_bind_ok (runLedger_readCommitted h now), lookupIn]
    cases latestRecord (rs.filter (retained now)) jobId with
    | none => rfl
    | some r =>
      simp only
      cases lookupRecord now r <;> rfl

/-! ### Appends -/

/-- The records after `compact_if_needed`. -/
def compacted (env : LedgerEnv) (clock : Int) (order : HashOrder) (rs : List LedgerRecord) :
    List LedgerRecord :=
  if (encodeLedger env rs).length ≤ maxLedgerBytes then rs
  else compactRecords order (rs.filter (retained clock))

/-- The records after an append of which `written` bytes reach the file. -/
def appended (env : LedgerEnv) (clock : Int) (order : HashOrder) (r : LedgerRecord)
    (written : Nat) (rs : List LedgerRecord) : List LedgerRecord :=
  compacted env clock order rs ++ if (recordLine env r).length ≤ written then [r] else []

theorem appended_whole (clock : Int) (order : HashOrder) (r : LedgerRecord)
    (rs : List LedgerRecord) :
    appended env clock order r (recordLine env r).length rs =
      compacted env clock order rs ++ [r] := by
  rw [appended, if_pos (Nat.le_refl _)]

/-- A compaction succeeds on a clean file and leaves a clean one. -/
theorem runLedger_compactIfNeeded (h : Clean env file rs) (clock : Int) (order : HashOrder) :
    ∃ file', runLedger (compactIfNeeded env clock order) file = (.ok (), file') ∧
      Clean env file' (compacted env clock order rs) := by
  have hget : runLedger (get : LedgerM (Option Bytes)) file = (.ok file, file) := rfl
  rw [compactIfNeeded, runLedger_bind_ok hget]
  cases file with
  | none =>
    -- without a file there is nothing to compact
    have hnil : rs = [] := represents_none.1 h.represents
    subst hnil
    exact ⟨none, rfl, rfl⟩
  | some raw =>
    have hraw : raw = encodeLedger env rs := h
    subst hraw
    by_cases hsmall : (encodeLedger env rs).length ≤ maxLedgerBytes
    · refine ⟨some (encodeLedger env rs), ?_, ?_⟩
      · show runLedger (if _ then _ else _) _ = _
        rw [if_pos hsmall]
        rfl
      · rw [compacted, if_pos hsmall]
        rfl
    · refine ⟨some (encodeLedger env (compactRecords order (rs.filter (retained clock)))), ?_, ?_⟩
      · show runLedger (if _ then _ else _) _ = _
        rw [if_neg hsmall, runLedger_bind_ok (runLedger_readCommitted h.represents clock)]
        rfl
      · rw [compacted, if_neg hsmall]
        rfl

/-- A cut line is a torn tail behind what the file held. -/
theorem represents_append_take (h : Clean env file rs) (r : LedgerRecord) (written : Nat) :
    Represents env (some (file.getD [] ++ (recordLine env r).take written))
      (rs ++ if (recordLine env r).length ≤ written then [r] else []) := by
  show committedPart (file.getD [] ++ (recordLine env r).take written) = _
  rw [h]
  by_cases hwhole : (recordLine env r).length ≤ written
  · rw [if_pos hwhole, List.take_of_length_le hwhole, ← encodeLedger_singleton,
      ← encodeLedger_append, committedPart_encodeLedger]
  · have hcut : (recordLine env r).take written = (recordText env r).take written := by
      have hlength : (recordLine env r).length = (recordText env r).length + 1 := by
        simp [recordLine, recordText]
      rw [recordLine]
      exact List.take_append_of_le_length (by rw [recordText] at hlength; omega)
    have htail : newline ∉ (recordText env r).take written := fun hmem =>
      newline_not_mem_recordText env r (List.mem_of_mem_take hmem)
    rw [if_neg hwhole, List.append_nil, hcut,
      committedPart_append_tail (terminated_encodeLedger rs) htail]

theorem runLedger_appendCut (h : Clean env file rs) (clock : Int) (order : HashOrder)
    (r : LedgerRecord) (written : Nat) :
    ∃ file', runLedger (appendCut env clock order r written) file = (.ok (), file') ∧
      Represents env file' (appended env clock order r written rs) := by
  obtain ⟨compact, hcompact, hclean⟩ := runLedger_compactIfNeeded h clock order
  refine ⟨_, ?_, represents_append_take hclean r written⟩
  rw [appendCut, runLedger_bind_ok hcompact]
  rfl

section

variable (h : Represents env file rs)
include h

variable {jobId : Nat} {now : Int}

/-- A job without a record is marked. -/
theorem runLedger_markExecuting
    (hlookup : lookupIn rs jobId now = .ok none) (operation : GrantOperation)
    (app : LedgerRecord → LedgerM Unit) :
    runLedger (markExecutingWith env jobId operation now app) file =
      runLedger (app (executingMarker jobId operation now)) (recoveredFile env rs file) := by
  have hrun := runLedger_lookup h jobId now
  rw [hlookup] at hrun
  rw [markExecutingWith, runLedger_bind_ok hrun]

/-- Otherwise the marker is refused. -/
theorem runLedger_markExecuting_error
    (hlookup : lookupIn rs jobId now ≠ .ok none) (operation : GrantOperation)
    (app : LedgerRecord → LedgerM Unit) :
    ∃ e, runLedger (markExecutingWith env jobId operation now app) file =
      (.error e, recoveredFile env rs file) := by
  have hrun := runLedger_lookup h jobId now
  cases hfound : lookupIn rs jobId now with
  | error e =>
    rw [hfound] at hrun
    exact ⟨e, by rw [markExecutingWith, runLedger_bind_error hrun]⟩
  | ok found =>
    rw [hfound] at hrun
    cases found with
    | none => exact absurd hfound hlookup
    | some found => exact ⟨_, by rw [markExecutingWith, runLedger_bind_ok hrun]; rfl⟩

/-- A job that a lookup finds is completed under the operation of its
latest record. -/
theorem runLedger_recordCompleted {response : BrokerResponse}
    {found : LedgerLookup} (hsize : response.output.length ≤ maxRecordedOutputBytes)
    (hlookup : lookupIn rs jobId now = .ok (some found)) (app : LedgerRecord → LedgerM Unit) :
    ∃ operation, runLedger (recordCompletedWith env jobId response now app) file =
      runLedger (app (completedRecord jobId operation response now))
        (recoveredFile env rs file) := by
  have hrun := runLedger_lookup h jobId now
  rw [hlookup] at hrun
  obtain ⟨r, hr⟩ : ∃ r, latestRecord (rs.filter (retained now)) jobId = some r := by
    rw [lookupIn] at hlookup
    grind
  cases file with
  | none =>
    rw [represents_none.1 h] at hr
    cases hr
  | some raw =>
    have hclean : Represents env (some (encodeLedger env rs)) rs := Clean.represents rfl
    have hoperation : runLedger (latestOperation env jobId now) (some (encodeLedger env rs)) =
        (.ok r.operation, some (encodeLedger env rs)) := by
      rw [latestOperation, runLedger_bind_ok (runLedger_readCommitted hclean now), hr]
      rfl
    refine ⟨r.operation, ?_⟩
    rw [recordCompletedWith, if_neg (by omega), runLedger_bind_ok hrun]
    show runLedger (latestOperation env jobId now >>= _) (some (encodeLedger env rs)) = _
    rw [runLedger_bind_ok hoperation]
    rfl

/-- A completion is appended, or it is refused: it is too long, or a
lookup does not find its job. -/
theorem runLedger_recordCompleted_cases (jobId : Nat) (response : BrokerResponse) (now clock : Int)
    (order : HashOrder) (written : LedgerRecord → Nat) :
    (∃ operation file', runLedger (recordCompletedWith env jobId response now fun record =>
        appendCut env clock order record (written record)) file = (.ok (), file') ∧
      Represents env file' (appended env clock order (completedRecord jobId operation response now)
        (written (completedRecord jobId operation response now)) rs) ∧
      response.output.length ≤ maxRecordedOutputBytes) ∨
    ∃ e file', runLedger (recordCompletedWith env jobId response now fun record =>
        appendCut env clock order record (written record)) file = (.error e, file') ∧
      Represents env file' rs := by
  by_cases hsize : response.output.length > maxRecordedOutputBytes
  · refine .inr ⟨"broker response output exceeds the recorded bound", file, ?_, h⟩
    rw [recordCompletedWith, if_pos hsize]
    rfl
  · have hsize' : response.output.length ≤ maxRecordedOutputBytes := by omega
    have hrun := runLedger_lookup h jobId now
    have hclean := (clean_recoveredFile h).represents
    cases hfound : lookupIn rs jobId now with
    | error e =>
      rw [hfound] at hrun
      refine .inr ⟨e, _, ?_, hclean⟩
      rw [recordCompletedWith, if_neg hsize, runLedger_bind_error hrun]
    | ok found =>
      cases found with
      | none =>
        rw [hfound] at hrun
        exact .inr ⟨_, _, by rw [recordCompletedWith, if_neg hsize, runLedger_bind_ok hrun]; rfl,
          hclean⟩
      | some found =>
        obtain ⟨operation, hrun⟩ := runLedger_recordCompleted h hsize' hfound fun record =>
          appendCut env clock order record (written record)
        obtain ⟨file', happend, hfile⟩ := runLedger_appendCut (clean_recoveredFile h) clock order
          (completedRecord jobId operation response now)
          (written (completedRecord jobId operation response now))
        grind

end

end Centrald.Proofs
