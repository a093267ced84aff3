import Centrald.Durable.JsonValue
import Centrald.Server.Jobs

/-!
# `Centrald.Server.StartJob`: interleaved calls of `start_job`

A call of `start_job` for an active target that supports typed jobs, in
steps. The request is checked, and the parameters of an update-client
request are replaced by the approved ones
(`approve_client_update_parameters`). The transaction inserts a row, or
locks the one that has the key `(actor_id, request_id)`. While another
call has inserted or locked the key, the statement waits for the end of
its transaction. The returned row is compared with the request. Then the
transaction commits, or is rolled back with an error.

The parameters go into a `JSONB` column and come back from it
(`JsonValue.stored`). A text with a zero character cannot be stored.

The update of a row that already has the key writes the value it has, so
it changes nothing. Other transactions on the jobs run in between
(`StartLabel.other`). The locks would make some of them wait; here they
need not.
-/

set_option autoImplicit false

namespace Centrald.Server

open Durable

/-- The configuration `updates`. -/
structure UpdateSection where
  enabled : Bool
  channel : String
  manifestUrl : String
  allowPrerelease : Bool

/-- What is used from outside: floats, and semantic versions and times
with their texts. -/
structure StartEnv where
  Float : Type
  floatEq : DecidableEq Float
  codec : FloatCodec Float
  Version : Type
  versionEq : DecidableEq Version
  parseVersion : String → Option Version
  showVersion : Version → String
  showTime : Int → String

instance (env : StartEnv) : DecidableEq env.Float := env.floatEq

instance (env : StartEnv) : DecidableEq env.Version := env.versionEq

/-- The parameters of a job. -/
abbrev StartEnv.Value (env : StartEnv) : Type := JsonValue env.Float

section Calls

variable (env : StartEnv)

/-- `approve_client_update_parameters`. `verified` is the newest valid
snapshot of the release manifest: its version, and when it was made. -/
def approveClientUpdateParameters (updates : UpdateSection) (verified : Option (String × Int))
    (requested : env.Value) : Except JobError env.Value := do
  require updates.enabled
    (.status .failedPrecondition "release updates are disabled on this server")
  let field := (requested.get "expected_version").or (requested.get "expectedVersion")
  match (field.bind JsonValue.asStr).filter fun text => decide (text ≠ "") with
  | none => .error (.status .invalidArgument
      "update-client jobs require an expected_version the operator approved")
  | some expectedVersion =>
    match env.parseVersion expectedVersion with
    | none => .error (.status .invalidArgument "expected_version is not a semantic version")
    | some pinned =>
      match verified with
      | none => .error (.status .failedPrecondition
          ("the server has not verified a release manifest yet; " ++
            "enable updates and wait for a check"))
      | some (verifiedVersion, verifiedAt) =>
        match env.parseVersion verifiedVersion with
        | none => .error (.status .failedPrecondition "the verified release snapshot is invalid")
        | some verified =>
          require (decide (pinned = verified)) (.status .failedPrecondition
            ("the approved version must match the server-verified version " ++
              env.showVersion verified ++ " (checked at " ++ env.showTime verifiedAt ++ ")"))
          return .object [("allow_prerelease", .bool updates.allowPrerelease),
            ("channel", .string updates.channel), ("expected_version", .string expectedVersion),
            ("manifest_url", .string updates.manifestUrl)]

/-- The request with the parameters that are used. -/
def approvedRequest (updates : UpdateSection) (verified : Option (String × Int))
    (request : StartJobRequest env.Value) : Except JobError (StartJobRequest env.Value) :=
  if request.kind = .updateClient then do
    let parameters ← approveClientUpdateParameters env updates verified request.parameters
    return { request with parameters := parameters }
  else return request

/-- Whether a `JSONB` column takes the value. -/
def isStorable (value : env.Value) : Bool :=
  value.texts.all fun text => !text.toList.contains (Char.ofNat 0)

/-- The error of a request that does not fit the job of its key. -/
def requestIdUsed : JobError :=
  .status .alreadyExists "request_id was already used for a different job"

/-- The error of a failed statement. -/
def internalError : JobError := .status .internal "internal server error"

/-- A call of `start_job`. -/
inductive StartPc where
  | idle
  /-- The request is checked and approved. -/
  | ready (actor : Nat) (request : StartJobRequest env.Value)
  /-- The statement has returned `row`, which it has inserted if `fresh`. -/
  | upserted (actor : Nat) (request : StartJobRequest env.Value) (row : JobRow env.Value)
      (fresh : Bool)
  | answered (actor : Nat) (request : StartJobRequest env.Value)
      (answer : Except JobError (JobRow env.Value))

/-- The server. `keys` says which call has inserted or locked the row of
an actor and a request; `drawn` are the job identifiers in use. -/
structure StartSystem where
  db : JobsDb env.Value
  updates : UpdateSection
  verified : Option (String × Int)
  keys : Nat × Nat → Option Nat
  drawn : List Nat
  calls : Nat → StartPc env

/-- The two statements of `start_job` for each call `t`, the update
policy, and every other transaction on jobs. -/
inductive StartLabel where
  | policy (updates : UpdateSection) (verified : Option (String × Int))
  | receive (t actor : Nat) (request : StartJobRequest env.Value)
  | upsert (t id : Nat) (now expiresAt : Int)
  | finish (t : Nat)
  /-- A statement fails, or the call is dropped. -/
  | fail (t : Nat)
  | other (label : JobLabel env.Value)

/-- A server without jobs. -/
def StartSystem.fresh (updates : UpdateSection) : StartSystem env where
  db := []
  updates := updates
  verified := none
  keys := fun _ => none
  drawn := []
  calls := fun _ => .idle

variable {env}

/-- Whether a job has the key. -/
def JobRecord.hasKey {π : Type} (actor requestId : Nat) (record : JobRecord π) : Bool :=
  decide (record.row.actorId = actor ∧ record.row.requestId = requestId)

namespace StartSystem

/-- The call `t` goes on. -/
def setCall (s : StartSystem env) (t : Nat) (pc : StartPc env) : StartSystem env :=
  { s with calls := Function.update s.calls t pc }

/-- The statement has a row; the call has its key. -/
def lockKey (s : StartSystem env) (t actor : Nat) (request : StartJobRequest env.Value)
    (row : JobRow env.Value) (fresh : Bool) : StartSystem env :=
  { s.setCall t (.upserted actor request row fresh) with
    keys := Function.update s.keys (actor, request.requestId) (some t) }

/-- The end of the transaction of the call `t`. -/
def answer (s : StartSystem env) (t actor : Nat) (request : StartJobRequest env.Value)
    (result : Except JobError (JobRow env.Value)) : StartSystem env :=
  { s.setCall t (.answered actor request result) with
    keys := Function.update s.keys (actor, request.requestId) none }

/-- The `INSERT .. ON CONFLICT` of a call that need not wait. -/
def upsert (s : StartSystem env) (t actor : Nat) (request : StartJobRequest env.Value) (id : Nat)
    (now expiresAt : Int) : StartSystem env :=
  if isStorable env request.parameters then
    match s.db.find? (JobRecord.hasKey actor request.requestId) with
    | some record => s.lockKey t actor request record.row false
    | none =>
      if s.drawn.contains id then s.setCall t (.answered actor request (.error internalError))
      else
        let row := request.row (JsonValue.stored env.codec) id actor now expiresAt
        { s.lockKey t actor request row true with drawn := id :: s.drawn }
  else s.setCall t (.answered actor request (.error internalError))

/-- The comparison of the returned row, and the end of the transaction. -/
def finish (s : StartSystem env) (t actor : Nat) (request : StartJobRequest env.Value)
    (row : JobRow env.Value) (fresh : Bool) : StartSystem env :=
  if request.sameJob row then
    { s.answer t actor request (.ok row) with
      db := if fresh then s.db ++ [⟨row, []⟩] else s.db }
  else s.answer t actor request (.error requestIdUsed)

end StartSystem

variable (env) in
/-- The calls of `start_job`, with the other transactions on the jobs. -/
def startSystem : Machine (StartSystem env) (StartLabel env) where
  step s
    | .policy updates verified => some { s with updates := updates, verified := verified }
    | .receive t actor request =>
      match s.calls t with
      | .idle =>
        match approvedRequest env s.updates s.verified request with
        | .ok approved => some (s.setCall t (.ready actor approved))
        | .error e => some (s.setCall t (.answered actor request (.error e)))
      | _ => none
    | .upsert t id now expiresAt =>
      match s.calls t with
      | .ready actor request =>
        if s.keys (actor, request.requestId) = none then
          some (s.upsert t actor request id now expiresAt)
        else none
      | _ => none
    | .finish t =>
      match s.calls t with
      | .upserted actor request row fresh => some (s.finish t actor request row fresh)
      | _ => none
    | .fail t =>
      match s.calls t with
      | .ready actor request =>
        some (s.setCall t (.answered actor request (.error internalError)))
      | .upserted actor request _ _ => some (s.answer t actor request (.error internalError))
      | _ => none
    | .other label =>
      if label.isStart then none
      else (performJob id s.db label).toOption.map fun db => { s with db := db }

end Calls

end Centrald.Server
