import Mathlib.Logic.Basic

/-!
# `Durable.AtomicPointer`: a value with one pending publication

The abstract pointer: a committed value and at most one publication that
waits for its commit or its rollback. A reader sees the pending value,
else the committed one. Every operation happens at once.
-/

set_option autoImplicit false

namespace Durable

/-- A committed value and a pending publication. -/
structure AtomicPointer (α : Type) where
  committed : Option α
  pending : Option α
  deriving DecidableEq

namespace AtomicPointer

variable {α : Type} {A : AtomicPointer α}

def empty : AtomicPointer α := ⟨none, none⟩

/-- The value a reader sees. -/
def value (A : AtomicPointer α) : Option α := A.pending <|> A.committed

/-- The value that a pending publication replaced. -/
def previous (A : AtomicPointer α) : Option α :=
  if A.pending.isSome then A.committed else none

/-- A new value, pending over the one seen before. -/
def publish (A : AtomicPointer α) (v : α) : AtomicPointer α := ⟨A.value, some v⟩

/-- The value seen becomes the committed one. -/
def commit (A : AtomicPointer α) : AtomicPointer α := ⟨A.value, none⟩

/-- The pending value is dropped. -/
def rollback (A : AtomicPointer α) : AtomicPointer α := ⟨A.committed, none⟩

/-- While a publication is pending, `previous` is the committed value. -/
theorem previous_of_isSome (h : A.pending.isSome = true) : A.previous = A.committed := if_pos h

/-- A previous value means a pending publication. -/
theorem pending_of_previous (h : A.previous.isSome = true) : A.pending.isSome = true := by
  obtain ⟨a, p⟩ := A
  cases p with
  | none => cases h
  | some v => rfl

theorem value_of_pending {v : α} (h : A.pending = some v) : A.value = some v := by
  rw [value, h]
  rfl

/-- A committed value gives a value to read. -/
theorem value_of_committed (h : A.committed.isSome = true) : A.value.isSome = true := by
  obtain ⟨a, p⟩ := A
  cases p with
  | none => exact h
  | some v => rfl

/-- The value seen is the committed or the pending one. -/
theorem committed_or_pending {v : α} (h : A.value = some v) :
    A.committed = some v ∨ A.pending = some v := by
  obtain ⟨a, p⟩ := A
  cases p with
  | none => exact .inl h
  | some w => exact .inr h

/-- Without a value there is nothing. -/
theorem eq_empty_of_value (h : A.value = none) : A = .empty := by
  obtain ⟨a, p⟩ := A
  cases p with
  | none =>
    have ha : a = none := h
    rw [ha]
    rfl
  | some w => cases h

end AtomicPointer

end Durable
