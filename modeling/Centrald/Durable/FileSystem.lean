import Centrald.Durable.Lines
import Centrald.Durable.Prog
import Mathlib.Logic.Function.Basic

/-!
# `Durable.FileSystem`: files, their operations and what a crash leaves

File programs run on a map from names to files. What a file remembers
is a parameter (`FileData`). A plain file is its bytes. A `File` keeps
apart the bytes that are safely on disk and the edits made since its
last sync: a reader sees all edits applied, and when the machine dies
each file keeps only some first edits, the last of which may be cut at
any byte (`File.Survives`). Names appear, move and disappear at once,
in the order of the operations.

`fileSem fallible survives` is the semantics of file programs: every
operation does what it says, the operations in `fallible` may also
report an error, and a write that fails or is interrupted may have
written any first part of its data. `FileM` is the monad of file
programs that stop at the first error, as a chain of `?` does.
-/

set_option autoImplicit false

namespace Durable

/-- A change to a file's bytes. -/
inductive Edit where
  /-- Drop all bytes. -/
  | truncate
  /-- Write at the end. -/
  | append (data : Bytes)
  deriving DecidableEq

/-- The bytes after an edit. -/
def Edit.apply : Edit → Bytes → Bytes
  | .truncate, _ => []
  | .append data, bytes => bytes ++ data

/-- The bytes after some edits in order. -/
def applyEdits (edits : List Edit) (bytes : Bytes) : Bytes :=
  edits.foldl (fun b e => e.apply b) bytes

/-- What a file remembers. -/
class FileData (φ : Type) where
  empty : φ
  edit : φ → Edit → φ
  flush : φ → φ
  contents : φ → Bytes

/-- A plain file is its bytes. -/
instance : FileData Bytes where
  empty := []
  edit bytes e := e.apply bytes
  flush bytes := bytes
  contents bytes := bytes

/-- A file: the bytes on disk and the edits since the last sync, oldest
first. -/
structure File where
  synced : Bytes
  pending : List Edit
  deriving DecidableEq

namespace File

/-- A file whose bytes are all on disk. -/
def durable (bytes : Bytes) : File := ⟨bytes, []⟩

/-- The bytes a reader sees. -/
def contents (f : File) : Bytes := applyEdits f.pending f.synced

def edit (f : File) (e : Edit) : File := ⟨f.synced, f.pending ++ [e]⟩

@[simp] theorem contents_durable (bytes : Bytes) : (durable bytes).contents = bytes := rfl

@[simp] theorem contents_edit (f : File) (e : Edit) : (f.edit e).contents = e.apply f.contents := by
  simp [contents, edit, applyEdits]

end File

instance : FileData File where
  empty := .durable []
  edit := File.edit
  flush f := .durable f.contents
  contents := File.contents

/-- `KeptEdits edits kept`: of `edits` a power loss may leave `kept`. -/
inductive KeptEdits : List Edit → List Edit → Prop where
  /-- Nothing more reached the disk. -/
  | lost (edits : List Edit) : KeptEdits edits []
  /-- A first part of a write reached the disk, and nothing after it. -/
  | cut (data : Bytes) (n : Nat) (edits : List Edit) :
      KeptEdits (.append data :: edits) [.append (data.take n)]
  /-- The edit reached the disk. -/
  | kept (e : Edit) {edits kept : List Edit} (h : KeptEdits edits kept) :
      KeptEdits (e :: edits) (e :: kept)

/-- What a power loss may leave of a file. -/
def File.Survives (f f' : File) : Prop :=
  ∃ kept, KeptEdits f.pending kept ∧ f' = .durable (applyEdits kept f.synced)

/-- A file system: the files by name. -/
abbrev Fs (ν φ : Type) := ν → Option φ

/-- File operations. -/
inductive FileOp (ν : Type) where
  /-- `Path::exists`. -/
  | stat (x : ν)
  /-- Read the whole file. -/
  | read (x : ν)
  /-- Create an empty file that must not exist. -/
  | createNew (x : ν)
  /-- Open an existing file and drop its bytes. -/
  | openTruncate (x : ν)
  /-- Write at the end of an open file. -/
  | write (x : ν) (data : Bytes)
  /-- Make the bytes of a file durable. -/
  | sync (x : ν)
  /-- Move a file over a name. -/
  | rename (x y : ν)
  /-- Give a file a second name that must not exist. -/
  | hardLink (x y : ν)
  /-- Remove a name. -/
  | remove (x : ν)
  /-- An operation on directories or permissions only. -/
  | metadata

/-- Why a file operation failed, as far as programs look at it. -/
inductive IoErrorKind where
  | notFound
  | alreadyExists
  | other
  deriving DecidableEq

/-- What a file operation answers. -/
inductive FileReply where
  | done
  | found (b : Bool)
  | data (bytes : Bytes)
  | failed (kind : IoErrorKind)
  deriving DecidableEq

section

variable {ν φ : Type} [DecidableEq ν] [FileData φ]

/-- The effect of an operation that the system carries out. -/
def FileOp.run : FileOp ν → Fs ν φ → Fs ν φ × FileReply
  | .stat x, s => (s, .found (s x).isSome)
  | .read x, s =>
    match s x with
    | some f => (s, .data (FileData.contents f))
    | none => (s, .failed .notFound)
  | .createNew x, s =>
    match s x with
    | some _ => (s, .failed .alreadyExists)
    | none => (Function.update s x (some FileData.empty), .done)
  | .openTruncate x, s =>
    match s x with
    | some f => (Function.update s x (some (FileData.edit f .truncate)), .done)
    | none => (s, .failed .notFound)
  | .write x data, s =>
    match s x with
    | some f => (Function.update s x (some (FileData.edit f (.append data))), .done)
    | none => (s, .failed .notFound)
  | .sync x, s =>
    match s x with
    | some f => (Function.update s x (some (FileData.flush f)), .done)
    | none => (s, .failed .notFound)
  | .rename x y, s =>
    match s x with
    | some f => (Function.update (Function.update s x none) y (some f), .done)
    | none => (s, .failed .notFound)
  | .hardLink x y, s =>
    match s x, s y with
    | none, _ => (s, .failed .notFound)
    | some _, some _ => (s, .failed .alreadyExists)
    | some f, none => (Function.update s y (some f), .done)
  | .remove x, s =>
    match s x with
    | some _ => (Function.update s x none, .done)
    | none => (s, .failed .notFound)
  | .metadata, s => (s, .done)

/-- The states inside an operation: a write may have written any first
part of its data. -/
def FileOp.Partly : FileOp ν → Fs ν φ → Fs ν φ → Prop
  | .write x data, s, s' => ∃ n, s' = ((FileOp.write x (data.take n)).run s).1
  | _, _, _ => False

/-- The semantics of file programs. The operations in `fallible` may
report an error of the system. -/
def fileSem (fallible : FileOp ν → Prop) (survives : Fs ν φ → Fs ν φ → Prop) :
    Sem (FileOp ν) FileReply (Fs ν φ) where
  effect op s s' r :=
    op.run s = (s', r) ∨
      (fallible op ∧ r = .failed .other ∧ (s' = s ∨ op.Partly s s'))
  torn op s s' := op.Partly s s'
  survives := survives

/-- A crash of the process leaves the files as they are. A crash of the
machine keeps of every file what its unsynced edits allow. -/
def LosesUnsynced (s s' : Fs ν File) : Prop :=
  s' = s ∨ ∀ x, (s x = none ∧ s' x = none) ∨
    ∃ f f', s x = some f ∧ s' x = some f' ∧ f.Survives f'

omit [DecidableEq ν] in
/-- A file whose bytes are all on disk is the same after a crash. -/
theorem LosesUnsynced.durable {s s' : Fs ν File} (h : LosesUnsynced s s') {x : ν}
    {bytes : Bytes} (hx : s x = some (.durable bytes)) : s' x = some (.durable bytes) := by
  rcases h with rfl | hloss
  · exact hx
  · rcases hloss x with ⟨hnone, _⟩ | ⟨f, f', hf, hf', kept, hkept, rfl⟩
    · rw [hx] at hnone
      cases hnone
    · have hfile : f = .durable bytes := Option.some.inj (hf.symm.trans hx)
      subst hfile
      cases hkept
      exact hf'

end

/-- The UTF-8 bytes of a text. -/
def utf8Bytes (text : String) : Bytes := text.toUTF8.data.toList

/-- The text with the given UTF-8 bytes. -/
def utf8Text (bytes : Bytes) : Option String := String.fromUTF8? ⟨bytes.toArray⟩

theorem utf8Text_utf8Bytes (text : String) : utf8Text (utf8Bytes text) = some text := by
  simp only [utf8Text, utf8Bytes, Array.toArray_toList, String.fromUTF8?]
  exact dif_pos text.isValidUTF8

/-- File programs that stop at the first error. -/
abbrev FileM (ε ν α : Type) := ExceptT ε (Prog (FileOp ν) FileReply) α

namespace FileM

variable {ε ν : Type}

/-- `Path::exists`. -/
def stat (x : ν) : FileM ε ν Bool :=
  ExceptT.mk (.call (.stat x) fun r => .ret (.ok (r == .found true)))

/-- Read a whole file, or stop with `e`. -/
def read (x : ν) (e : ε) : FileM ε ν Bytes :=
  ExceptT.mk (.call (.read x) fun r => .ret (match r with
    | .data bytes => .ok bytes
    | _ => .error e))

/-- Carry out an operation and return its reply. -/
def attempt (op : FileOp ν) : FileM ε ν FileReply :=
  ExceptT.mk (.call op fun r => .ret (.ok r))

/-- Carry out an operation, or stop with `e`. -/
def act (op : FileOp ν) (e : ε) : FileM ε ν Unit :=
  ExceptT.mk (.call op fun r => .ret (if r = .done then .ok () else .error e))

/-- Run a program and return its result, error or not. -/
def result {ε' α : Type} (p : FileM ε ν α) : FileM ε' ν (Except ε α) :=
  ExceptT.mk (p.run >>= fun r => .ret (.ok r))

/-- A computation without file operations. -/
def ofExcept {α : Type} (r : Except ε α) : FileM ε ν α := ExceptT.mk (.ret r)

/-- Read a whole file as UTF-8 text, or stop with `e`. -/
def readToString (x : ν) (e : ε) : FileM ε ν String := do
  let bytes ← read x e
  match utf8Text bytes with
  | some text => return text
  | none => throw e

end FileM

/-! ### The runs without errors -/

section

variable {ν φ ε : Type} [DecidableEq ν] [FileData φ] {fallible : FileOp ν → Prop}
  {survives : Fs ν φ → Fs ν φ → Prop}

theorem exec_act {op : FileOp ν} {e : ε} {s s' : Fs ν φ} (h : op.run s = (s', .done)) :
    Exec (fileSem fallible survives) (FileM.act op e).run s (.done (.ok ()) s') :=
  .call (.inl h) (.ret _ _)

theorem exec_attempt {op : FileOp ν} {s s' : Fs ν φ} {r : FileReply} (h : op.run s = (s', r)) :
    Exec (fileSem fallible survives) (FileM.attempt op : FileM ε ν FileReply).run s
      (.done (.ok r) s') :=
  .call (.inl h) (.ret _ _)

theorem found_beq (b : Bool) : (FileReply.found b == FileReply.found true) = b := by
  cases b <;> rfl

theorem exec_read {x : ν} {e : ε} {s : Fs ν φ} {f : φ} (h : s x = some f) :
    Exec (fileSem fallible survives) (FileM.read x e).run s
      (.done (.ok (FileData.contents f)) s) := by
  have hrun : (FileOp.read x).run s = (s, .data (FileData.contents f)) := by
    simp only [FileOp.run, h]
  exact .call (.inl hrun) (.ret _ _)

/-! ### Rules for the operations -/

variable {P : Fs ν φ → Prop} {E : ε → Fs ν φ → Prop} {C : Fs ν φ → Prop}

theorem ETriple.read {Q : Bytes → Fs ν φ → Prop} {x : ν} {e : ε}
    (hC : ∀ s s', P s → survives s s' → C s')
    (hQ : ∀ s f, P s → s x = some f → Q (FileData.contents f) s)
    (hE : ∀ s, P s → s x = none ∨ fallible (.read x) → E e s) :
    ETriple (fileSem fallible survives) P (FileM.read x e) Q E C := by
  -- what a reply says about the state
  refine ETriple.call (R := fun r s => P s ∧
      ((∃ f, s x = some f ∧ r = .data (FileData.contents f)) ∨
        ((s x = none ∨ fallible (.read x)) ∧ ∃ kind, r = .failed kind))) hC
    (fun _ _ _ _ h _ => h.elim) ?_ ?_ fun r s s' h hs => hC s s' h.1 hs
  · intro s s' r hs heff
    rcases heff with hrun | ⟨hfail, hr, rfl | hpart⟩
    · cases hx : s x with
      | none =>
        simp only [FileOp.run, hx, Prod.mk.injEq] at hrun
        grind
      | some f =>
        simp only [FileOp.run, hx, Prod.mk.injEq] at hrun
        grind
    · exact ⟨hs, .inr ⟨.inr hfail, _, hr⟩⟩
    · exact hpart.elim
  · grind

end

end Durable
