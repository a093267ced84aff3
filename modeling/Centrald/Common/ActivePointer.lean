import Centrald.Durable.FileSystem
import Centrald.Durable.Json

/-!
# `Centrald.Common.ActivePointer`: the pointer to the active generation

The model of `centrald-common`, `active_pointer.rs`. A pointer is a
directory with the files `current.pointer`, `.current.pointer.next` and
`.current.pointer.previous`; every operation holds an exclusive lock
from its first file operation to its last, so operations of several
processes do not interleave. Each is a file program, operation by
operation.

`read_value` reads UTF-8 text and trims it; both are a function
`text : Bytes → Option Bytes` here, `none` for bytes that are no text.
-/

set_option autoImplicit false

namespace Centrald.Common

open Durable

/-- The files of a pointer. -/
inductive PointerFile where
  | current
  | next
  | previous
  deriving DecidableEq

/-- `ActivePointerError`. The errors about unsafe files and directories
do not occur on regular files. -/
inductive PointerError where
  | invalidValue
  | missing
  | pendingPublication
  | io
  deriving DecidableEq

abbrev PointerM (α : Type) := FileM PointerError PointerFile α

/-- `validate_value`: one simple relative file name. -/
def validateValue (value : Bytes) : Bool :=
  !(value.isEmpty || value.length > 255 || value.contains 0 || value.contains 47 ||
    value.contains 92 || value == ascii "." || value == ascii "..")

/-- `remove_regular_if_exists`. -/
def removeIfExists (x : PointerFile) : PointerM Unit := do
  if ← FileM.stat x then FileM.act (.remove x) .io else return ()

/-- `let _ = remove_regular_if_exists(..)`. -/
def tryRemove (x : PointerFile) : PointerM Unit := do
  if ← FileM.stat x then
    let _ ← FileM.attempt (.remove x)
  else return ()

def syncDirectory : PointerM Unit := FileM.act .metadata .io

def readValue (text : Bytes → Option Bytes) (x : PointerFile) : PointerM (Option Bytes) := do
  if ← FileM.stat x then
    let raw ← FileM.read x .io
    match text raw with
    | none => throw .io
    | some value => if validateValue value then return some value else throw .invalidValue
  else return none

/-- `recover_locked`: complete an interrupted sequence of renames. -/
def recoverLocked : PointerM Unit := do
  let hasCurrent ← FileM.stat .current
  let hasNext ← FileM.stat .next
  let hasPrevious ← FileM.stat .previous
  if hasCurrent then
    -- the staged value of a crashed publication is discarded
    if hasNext then
      removeIfExists .next
      syncDirectory
    else return ()
  else if hasNext then
    FileM.act (.rename .next .current) .io
    syncDirectory
  else if hasPrevious then
    FileM.act (.rename .previous .current) .io
    syncDirectory
  else return ()

/-- `ActivePointer::read`. -/
def readPointer (text : Bytes → Option Bytes) : PointerM Bytes := do
  recoverLocked
  match ← readValue text .current with
  | some value => return value
  | none => throw .missing

/-- `ActivePointer::previous`. -/
def previousPointer (text : Bytes → Option Bytes) : PointerM (Option Bytes) := do
  recoverLocked
  readValue text .previous

/-- `write_new_pointer` of the file `next`. -/
def writeNewPointer (value : Bytes) : PointerM Unit := do
  removeIfExists .next
  FileM.act (.createNew .next) .io
  FileM.act (.write .next value) .io
  FileM.act (.write .next [newline]) .io
  FileM.act (.sync .next) .io

/-- Move the staged value into place. -/
def moveNext (hadCurrent : Bool) : PointerM Unit := do
  match ← FileM.attempt (.rename .next .current) with
  | .done =>
    match ← FileM.attempt .metadata with
    | .done => return ()
    | _ =>
      tryRemove .current
      if hadCurrent then
        let _ ← FileM.attempt (.rename .previous .current)
      let _ ← FileM.attempt .metadata
      throw .io
  | _ =>
    tryRemove .next
    if hadCurrent && !(← FileM.stat .current) then
      let _ ← FileM.attempt (.rename .previous .current)
    throw .io

/-- `ActivePointer::publish`. -/
def publishPointer (value : Bytes) : PointerM Unit := do
  if validateValue value then
    recoverLocked
    let hasPrevious ← FileM.stat .previous
    let hasNext ← FileM.stat .next
    if hasPrevious || hasNext then
      throw .pendingPublication
    else
      writeNewPointer value
      let hadCurrent ← FileM.stat .current
      if hadCurrent then
        FileM.act (.rename .current .previous) .io
        moveNext true
      else
        moveNext false
  else throw .invalidValue

/-- `ActivePointer::commit_recovered`, also `PointerPublication::commit`. -/
def commitPointer : PointerM Unit := do
  recoverLocked
  removeIfExists .previous
  removeIfExists .next
  syncDirectory

/-- `ActivePointer::rollback_recovered_if_previous`. -/
def rollbackRecovered : PointerM Bool := do
  recoverLocked
  if ← FileM.stat .previous then
    removeIfExists .current
    FileM.act (.rename .previous .current) .io
    removeIfExists .next
    syncDirectory
    return true
  else return false

/-- `PointerPublication::rollback`. -/
def rollbackPointer : PointerM Unit := do
  recoverLocked
  removeIfExists .current
  if ← FileM.stat .previous then
    FileM.act (.rename .previous .current) .io
    removeIfExists .next
    syncDirectory
  else
    removeIfExists .next
    syncDirectory

/-! ### The operations together -/

/-- The operations of a pointer. `commit` and `rollback` are those of a
publication that the caller made; the other two are called after a
restart. -/
inductive PointerOp where
  | read
  | previous
  | publish (value : Bytes)
  | commit
  | rollback
  | commitRecovered
  | rollbackRecoveredIfPrevious

/-- What a call of the pointer returns when it succeeds. -/
inductive PointerReply where
  | unit
  | value (v : Bytes)
  | previous (v : Option Bytes)
  | rolledBack (b : Bool)

/-- The program of an operation. -/
def PointerOp.program (text : Bytes → Option Bytes) : PointerOp → PointerM PointerReply
  | .read => do return .value (← readPointer text)
  | .previous => do return .previous (← previousPointer text)
  | .publish value => do publishPointer value; return .unit
  | .commit => do commitPointer; return .unit
  | .rollback => do rollbackPointer; return .unit
  | .commitRecovered => do commitPointer; return .unit
  | .rollbackRecoveredIfPrevious => do return .rolledBack (← rollbackRecovered)

end Centrald.Common
