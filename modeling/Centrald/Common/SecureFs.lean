import Centrald.Durable.FileSystem

/-!
# `Centrald.Common.SecureFs`: creating and replacing files

`writeNewFile` is `secure_fs::write_new_file`. It writes a temporary
sibling, syncs it and links it to its final name. `replaceFileAtomically`
is `secure_fs::replace_file_atomically`, which writes a new sibling in
that way and renames it over an existing file. The checks for
symbolic links have no counterpart here: the file systems of
`Durable.FileSystem` hold regular files only.
-/

set_option autoImplicit false

namespace Centrald.Common

open Durable

/-- `SecureFileError`, without the paths it carries. -/
inductive SecureFileError where
  /-- The file exists already. -/
  | exists
  /-- An operation of the file system failed. -/
  | io

/-- `write_new_file`: create `path` with `contents`, by way of `temporary`. -/
def writeNewFile {ν : Type} (path temporary : ν) (contents : Bytes) :
    FileM SecureFileError ν Unit := do
  if ← FileM.stat path then
    throw .exists
  else
    -- `create_dir_all(parent)`
    FileM.act .metadata .io
    FileM.act (.createNew temporary) .io
    FileM.act (.write temporary contents) .io
    FileM.act (.sync temporary) .io
    match ← FileM.attempt (.hardLink temporary path) with
    | .done =>
      match ← FileM.attempt (.remove temporary) with
      | .done =>
        -- the directory sync
        FileM.act .metadata .io
      | _ =>
        let _ ← FileM.attempt (.remove path)
        throw .io
    | reply =>
      let _ ← FileM.attempt (.remove temporary)
      throw (if reply = .failed .alreadyExists then .exists else .io)

/-- `replace_file_atomically`: give the existing file `path` the bytes
`contents`, by way of `replacement`, which is written by way of
`temporary`. -/
def replaceFileAtomically {ν : Type} (path replacement temporary : ν) (contents : Bytes) :
    FileM SecureFileError ν Unit := do
  if ← FileM.stat path then
    writeNewFile replacement temporary contents
    match ← FileM.attempt (.rename replacement path) with
    | .done =>
      -- the directory sync
      FileM.act .metadata .io
    | _ =>
      let _ ← FileM.attempt (.remove replacement)
      throw .io
  else
    throw .io

end Centrald.Common
