import Mathlib.Data.List.Induction

/-!
# `Durable.Lines`: newline-terminated records in a byte string

An append-only journal is a byte string. Every complete record ends in
a newline; bytes after the last newline are the torn tail of an append
that did not finish. This module cuts a byte string at its last newline
(`committedPart`, `tornTail`) and lists the non-blank lines of a byte
string in order (`recordLines`).

The lemmas are the ones a journal proof composes: how `recordLines`
splits over an append (`recordLines_append_of_terminated`), that one
encoded record is one line (`recordLines_line`), and that a terminated
string followed by a tail without newlines is cut back to the string
(`committedPart_append_tail`).
-/

set_option autoImplicit false

namespace Durable

/-- A byte string. -/
abbrev Bytes := List UInt8

/-- The byte that ends a record: `b'\n'`. -/
def newline : UInt8 := 10

/-- `u8::is_ascii_whitespace`: space, tab, line feed, form feed or
carriage return. -/
def isAsciiWhitespace (b : UInt8) : Bool :=
  b == 32 || b == 9 || b == 10 || b == 12 || b == 13

/-- The index of the last element that satisfies `p`. -/
def rposition {α : Type} (p : α → Bool) : List α → Option Nat
  | [] => none
  | a :: as =>
    match rposition p as with
    | some i => some (i + 1)
    | none => if p a then some 0 else none

/-- The length of the part of a byte string that ends at its last newline. -/
def completeLen (raw : Bytes) : Nat :=
  match rposition (· == newline) raw with
  | some i => i + 1
  | none => 0

/-- The bytes up to and including the last newline. -/
def committedPart (raw : Bytes) : Bytes :=
  raw.take (completeLen raw)

/-- The bytes after the last newline. -/
def tornTail (raw : Bytes) : Bytes :=
  raw.drop (completeLen raw)

/-- A byte string in which no record is cut: empty, or ending in a newline. -/
def Terminated (raw : Bytes) : Prop :=
  raw = [] ∨ raw.getLast? = some newline

instance (raw : Bytes) : Decidable (Terminated raw) :=
  inferInstanceAs (Decidable (_ ∨ _))

/-- The lines of a byte string, the bytes after the last newline included. -/
def lines (raw : Bytes) : List Bytes :=
  raw.splitOn newline

/-- A line a reader skips: it holds nothing but whitespace. -/
def isBlank (line : Bytes) : Bool :=
  line.all isAsciiWhitespace

/-- The lines a reader looks at, in order. -/
def recordLines (raw : Bytes) : List Bytes :=
  (lines raw).filter fun line => !isBlank line

/-- The loop of a reader: parse every line that is not blank, in order,
and keep the records with `keep`. The parser is told the index of the
line, and its first error ends the loop. -/
def readLines {ε α : Type} (parse : Nat → Bytes → Except ε α) (keep : α → Bool) :
    Nat → List Bytes → Except ε (List α)
  | _, [] => .ok []
  | i, line :: rest =>
    if isBlank line then readLines parse keep (i + 1) rest
    else
      match parse i line with
      | .error e => .error e
      | .ok record =>
        match readLines parse keep (i + 1) rest with
        | .error e => .error e
        | .ok records => .ok (if keep record then record :: records else records)

/-! ### The cut at the last newline -/

/-- Without a match there is no last position. -/
theorem rposition_eq_none {α : Type} (p : α → Bool) :
    ∀ xs : List α, (∀ x ∈ xs, p x = false) → rposition p xs = none := by
  intro xs
  induction xs with
  | nil => intro _; rfl
  | cons a as ih =>
    intro h
    rw [rposition, ih fun x hx => h x (List.mem_cons_of_mem a hx), h a List.mem_cons_self]
    rfl

/-- The last match is found behind everything before it. -/
theorem rposition_append_cons {α : Type} (p : α → Bool) (a : α) (tail : List α)
    (ha : p a = true) (htail : ∀ x ∈ tail, p x = false) :
    ∀ xs : List α, rposition p (xs ++ a :: tail) = some xs.length := by
  intro xs
  induction xs with
  | nil =>
    rw [List.nil_append, rposition, rposition_eq_none p tail htail]
    simp [ha]
  | cons x xs ih => rw [List.cons_append, rposition, ih]; rfl

variable {tail : Bytes}

private theorem beq_newline_eq_false (h : newline ∉ tail) :
    ∀ x ∈ tail, (x == newline) = false := by
  grind

theorem completeLen_of_not_mem (h : newline ∉ tail) : completeLen tail = 0 := by
  rw [completeLen, rposition_eq_none _ _ (beq_newline_eq_false h)]

theorem completeLen_append_newline (xs : Bytes) (h : newline ∉ tail) :
    completeLen (xs ++ newline :: tail) = xs.length + 1 := by
  rw [completeLen, rposition_append_cons _ _ _ (by simp) (beq_newline_eq_false h)]

/-- A terminated string is empty or a string with a newline put after it. -/
theorem terminated_iff (raw : Bytes) : Terminated raw ↔ raw = [] ∨ ∃ xs, raw = xs ++ [newline] := by
  rw [Terminated, List.getLast?_eq_some_iff]

variable {xs : Bytes}

/-- A terminated string followed by a tail without newlines is cut
back to the string. -/
theorem committedPart_append_tail (hxs : Terminated xs)
    (htail : newline ∉ tail) : committedPart (xs ++ tail) = xs := by
  rcases (terminated_iff xs).1 hxs with rfl | ⟨ys, rfl⟩
  · rw [List.nil_append, committedPart, completeLen_of_not_mem htail, List.take_zero]
  · have hlen : ys.length + 1 = (ys ++ [newline]).length := by simp
    rw [committedPart, List.append_assoc, List.singleton_append,
      completeLen_append_newline ys htail, ← List.singleton_append, ← List.append_assoc,
      hlen, List.take_left]

/-- A terminated string is its own committed part. -/
theorem committedPart_of_terminated {raw : Bytes} (h : Terminated raw) :
    committedPart raw = raw := by
  have hnil : newline ∉ ([] : Bytes) := by simp
  have hcut := committedPart_append_tail h hnil
  rwa [List.append_nil] at hcut

/-! ### Lines -/

@[simp] theorem recordLines_nil : recordLines [] = [] := by
  simp [recordLines, lines, isBlank]

/-- A newline separates what stands before it from what follows. -/
theorem recordLines_append_newline (xs ys : Bytes) :
    recordLines (xs ++ newline :: ys) = recordLines xs ++ recordLines ys := by
  rw [recordLines, lines, List.splitOn_append_cons_self, List.filter_append]
  rfl

/-- The lines of a terminated string and of what follows it do not mix. -/
theorem recordLines_append_of_terminated (h : Terminated xs) (ys : Bytes) :
    recordLines (xs ++ ys) = recordLines xs ++ recordLines ys := by
  rcases (terminated_iff xs).1 h with rfl | ⟨zs, rfl⟩
  · simp
  · have hzs : recordLines (zs ++ [newline]) = recordLines zs := by
      rw [recordLines_append_newline, recordLines_nil, List.append_nil]
    rw [hzs, List.append_assoc, List.singleton_append, recordLines_append_newline]

variable {line : Bytes}

/-- A string without newlines is one line. -/
theorem recordLines_of_not_mem (hnl : newline ∉ line)
    (hblank : isBlank line = false) : recordLines line = [line] := by
  rw [recordLines, lines, List.splitOn_eq_singleton hnl]
  simp [hblank]

/-- One encoded record with its newline is one line. -/
theorem recordLines_line (hnl : newline ∉ line)
    (hblank : isBlank line = false) : recordLines (line ++ [newline]) = [line] := by
  rw [recordLines_append_newline, recordLines_nil, List.append_nil,
    recordLines_of_not_mem hnl hblank]

theorem terminated_append_newline (xs : Bytes) : Terminated (xs ++ [newline]) :=
  (terminated_iff _).2 (.inr ⟨xs, rfl⟩)

theorem terminated_append {ys : Bytes} (hxs : Terminated xs) (hys : Terminated ys) :
    Terminated (xs ++ ys) := by
  rcases (terminated_iff ys).1 hys with rfl | ⟨zs, rfl⟩
  · rwa [List.append_nil]
  · rw [← List.append_assoc]
    exact terminated_append_newline _

/-- A journal of encoded records is terminated. -/
theorem terminated_flatMap {α : Type} (encode : α → Bytes) (xs : List α) :
    Terminated (xs.flatMap fun a => encode a ++ [newline]) := by
  induction xs with
  | nil => exact .inl rfl
  | cons a xs ih =>
    rw [List.flatMap_cons]
    exact terminated_append (terminated_append_newline _) ih

/-- The lines of a journal are its encoded records. -/
theorem recordLines_flatMap {α : Type} {encode : α → Bytes} (hnl : ∀ a, newline ∉ encode a)
    (hblank : ∀ a, isBlank (encode a) = false) (xs : List α) :
    recordLines (xs.flatMap fun a => encode a ++ [newline]) = xs.map encode := by
  induction xs with
  | nil => rfl
  | cons a xs ih =>
    rw [List.flatMap_cons, recordLines_append_of_terminated (terminated_append_newline _),
      recordLines_line (hnl a) (hblank a), ih]
    rfl

/-! ### The loop of a reader -/

section ReadLines

variable {ε α : Type} {parse : Nat → Bytes → Except ε α} {keep : α → Bool}

/-- When every line that is not blank is the encoding of a record, the
loop returns the records it is to keep. -/
theorem readLines_of_filter {encode : α → Bytes} (hparse : ∀ i a, parse i (encode a) = .ok a)
    (ls : List Bytes) : ∀ (i : Nat) (records : List α),
    ls.filter (fun line => !isBlank line) = records.map encode →
    readLines parse keep i ls = .ok (records.filter keep) := by
  induction ls with
  | nil =>
    intro i records h
    have hnil : records = [] := by simpa using h.symm
    subst hnil
    rfl
  | cons line rest ih =>
    intro i records h
    by_cases hblank : isBlank line
    · rw [List.filter_cons_of_neg (by simp [hblank])] at h
      rw [readLines, if_pos hblank, ih (i + 1) records h]
    · rw [List.filter_cons_of_pos (by simp [hblank])] at h
      cases records with
      | nil => exact absurd h (by simp)
      | cons a records =>
        rw [List.map_cons, List.cons.injEq] at h
        obtain ⟨rfl, hrest⟩ := h
        rw [readLines, if_neg hblank, hparse]
        simp only [ih (i + 1) records hrest, List.filter_cons]

/-- When the lines are those of some encoded records, the loop returns
the records it is to keep. -/
theorem readLines_of_recordLines {encode : α → Bytes}
    (hparse : ∀ i a, parse i (encode a) = .ok a) {raw : Bytes} {records : List α} (i : Nat)
    (h : recordLines raw = records.map encode) :
    readLines parse keep i (lines raw) = .ok (records.filter keep) :=
  readLines_of_filter hparse (lines raw) i records h

/-- A line that no index lets parse makes the loop fail. -/
theorem readLines_error (hline : ∀ i, ∃ e, parse i line = .error e)
    (ls : List Bytes) : ∀ i : Nat, line ∈ ls → isBlank line = false →
    ∃ e, readLines parse keep i ls = .error e := by
  induction ls with
  | nil => intro i h; exact absurd h (by simp)
  | cons first rest ih =>
    intro i hmem hblank
    by_cases hfirst : isBlank first
    · have hne : line ≠ first := by
        grind
      obtain ⟨e, he⟩ := ih (i + 1) ((List.mem_cons.1 hmem).resolve_left hne) hblank
      exact ⟨e, by rw [readLines, if_pos hfirst, he]⟩
    · rw [readLines, if_neg hfirst]
      cases hp : parse i first with
      | error e => exact ⟨e, rfl⟩
      | ok record =>
        have hne : line ≠ first := by
          rintro rfl
          obtain ⟨e, he⟩ := hline i
          rw [he] at hp
          cases hp
        obtain ⟨e, he⟩ := ih (i + 1) ((List.mem_cons.1 hmem).resolve_left hne) hblank
        exact ⟨e, by simp only [he]⟩

end ReadLines

end Durable
