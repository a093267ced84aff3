import Centrald.Durable.Json
import Mathlib.Data.Nat.Log

/-!
# `Centrald.Server.Limits`: the runtime settings and the bounds on frames

The model of `validate_runtime` (`config.rs` of `centrald-common`), of
the lengths of the messages of `centrald.proto` and of
`SessionWireFrame::Data` (`broker_session.rs`) that carry shell data,
and of the bounds on them (`main.rs` and `broker_session.rs`).
-/

set_option autoImplicit false

namespace Centrald.Server

open Durable

/-- The `runtime` section of the configuration. -/
structure RuntimeSection where
  heartbeatIntervalSeconds : Nat
  offlineAfterSeconds : Nat
  jobTtlSeconds : Nat
  shellIdleTimeoutSeconds : Nat
  maxShellFrameBytes : Nat

def validateRuntime (runtime : RuntimeSection) : Except String Unit := do
  if ¬(5 ≤ runtime.heartbeatIntervalSeconds ∧ runtime.heartbeatIntervalSeconds ≤ 3600) then
    throw "runtime.heartbeat_interval_seconds must be between 5 and 3600"
  if runtime.offlineAfterSeconds ≤ runtime.heartbeatIntervalSeconds ∨
      86400 < runtime.offlineAfterSeconds then
    throw ("runtime.offline_after_seconds must exceed the heartbeat interval and be no more " ++
      "than 86400")
  if ¬(1800 ≤ runtime.jobTtlSeconds ∧ runtime.jobTtlSeconds ≤ 604800) then
    throw ("runtime.job_ttl_seconds must be at least 1800 seconds so long broker operations can " ++
      "report their terminal event")
  if ¬(30 ≤ runtime.shellIdleTimeoutSeconds ∧ runtime.shellIdleTimeoutSeconds ≤ 86400) then
    throw "runtime.shell_idle_timeout_seconds must be between 30 and 86400"
  if ¬(1024 ≤ runtime.maxShellFrameBytes ∧ runtime.maxShellFrameBytes ≤ 1048576) then
    throw "runtime.max_shell_frame_bytes must be between 1024 and 1048576"

/-- The length of a varint: seven bits a byte. -/
def encodedLenVarint (n : Nat) : Nat := Nat.log 128 n + 1

/-- The length of a field with `n` bytes, behind its tag and its length. -/
def fieldLen (n : Nat) : Nat := 1 + encodedLenVarint n + n

/-- One frame of shell data. -/
structure ShellData where
  sessionId : Bytes
  sequence : UInt64
  data : Bytes

/-- The length of the message. Default values are left out. -/
def ShellData.encodedLen (frame : ShellData) : Nat :=
  (if frame.sessionId = [] then 0 else fieldLen frame.sessionId.length) +
    (if frame.sequence = 0 then 0 else 1 + encodedLenVarint frame.sequence.toNat) +
    if frame.data = [] then 0 else fieldLen frame.data.length

/-- The length in a `ShellFrame`, and that in an `AdminShellFrame`, a
`ServerFrame` or a `ClientFrame`. -/
def ShellData.carriedLen (frame : ShellData) : Nat := fieldLen (fieldLen frame.encodedLen)

/-- The forms that `Uuid` parses: digits alone, with hyphens, with braces
and as a URN. -/
def uuidTextLengths : List Nat := [32, 36, 38, 45]

/-- The length of `SessionWireFrame::Data` in JSON, with Base64. -/
def sessionDataFrameLen (data : Bytes) : Nat :=
  (ascii "\x7b\"kind\":\"data\",\"data_base64\":\"\"\x7d").length + (data.length + 2) / 3 * 4

def clientMaxMessageBytes : Nat := 256 * 1024
def adminMaxMessageBytes : Nat := 512 * 1024
def maxSessionWireFrameBytes : Nat := 1500000

end Centrald.Server
