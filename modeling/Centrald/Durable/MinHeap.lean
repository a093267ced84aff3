import Mathlib.Data.List.Sort
import Mathlib.Data.List.TakeWhile
import Mathlib.Data.Prod.Lex

/-!
# `Durable.MinHeap`: a priority queue

A `MinHeap α` holds entries in ascending order. The order is part of
the structure, so `peek` is a smallest entry by construction. `popWhile p`
is the loop that pops entries while the smallest one satisfies `p`; for
a `p` that holds of everything below one of its entries this removes
exactly the entries with `p` (`mem_popWhile_iff`).
-/

set_option autoImplicit false

namespace Durable

/-- The entries of a priority queue, smallest first. -/
structure MinHeap (α : Type) [LinearOrder α] where
  items : List α
  sorted : items.Pairwise (· ≤ ·)

namespace MinHeap

variable {α : Type} [LinearOrder α]

def empty : MinHeap α := ⟨[], List.Pairwise.nil⟩

def push (h : MinHeap α) (a : α) : MinHeap α :=
  ⟨h.items.orderedInsert (· ≤ ·) a, h.sorted.orderedInsert a h.items⟩

def len (h : MinHeap α) : Nat := h.items.length

/-- The entries a `while let Some(entry) = heap.peek()` loop leaves that
pops as long as `p` holds. -/
def popWhile (h : MinHeap α) (p : α → Bool) : MinHeap α :=
  ⟨h.items.dropWhile p, h.sorted.sublist (List.dropWhile_sublist p)⟩

/-- The entries that loop pops, in order. -/
def popped (h : MinHeap α) (p : α → Bool) : List α := h.items.takeWhile p

@[simp] theorem mem_push {h : MinHeap α} {a b : α} : b ∈ (h.push a).items ↔ b = a ∨ b ∈ h.items :=
  List.mem_orderedInsert _

theorem push_perm (h : MinHeap α) (a : α) : (h.push a).items.Perm (a :: h.items) :=
  List.perm_orderedInsert _ a h.items

theorem popped_append_popWhile (h : MinHeap α) (p : α → Bool) :
    h.popped p ++ (h.popWhile p).items = h.items :=
  List.takeWhile_append_dropWhile

/-- Behind an entry without `p`, no entry has `p`. -/
private theorem not_of_mem_dropWhile {p : α → Bool} (hp : ∀ a b, a ≤ b → p b → p a) :
    ∀ items : List α, items.Pairwise (· ≤ ·) → ∀ a ∈ items.dropWhile p, p a = false := by
  intro items
  induction items with
  | nil => intro _ a ha; exact absurd ha (by simp)
  | cons b rest ih =>
    intro hsorted a ha
    rw [List.pairwise_cons] at hsorted
    by_cases hb : p b
    · rw [List.dropWhile_cons_of_pos hb] at ha
      exact ih hsorted.2 a ha
    · rw [List.dropWhile_cons_of_neg hb] at ha
      grind

/-- The loop pops exactly the entries with `p`. -/
theorem mem_popWhile_iff {h : MinHeap α} {p : α → Bool} (hp : ∀ a b, a ≤ b → p b → p a)
    {a : α} : a ∈ (h.popWhile p).items ↔ a ∈ h.items ∧ p a = false := by
  constructor
  · intro ha
    exact ⟨List.dropWhile_subset p ha, not_of_mem_dropWhile hp h.items h.sorted a ha⟩
  · rintro ⟨ha, hpa⟩
    rw [← popped_append_popWhile h p, List.mem_append] at ha
    rcases ha with ha | ha
    · rw [List.mem_takeWhile_imp ha] at hpa
      cases hpa
    · exact ha

end MinHeap

end Durable
