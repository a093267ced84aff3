import Mathlib.Data.List.Forall2
import Mathlib.Data.List.Induction

/-!
# `Durable.HashChain`: lists whose entries name the hash before them

`Chained previous hash p entries` says that the first entry names `p` as
the hash before it and every later entry names the hash of the entry
before it. `previous` and `hash` are arbitrary functions of an entry.

A chain grows at its end (`chained_concat`). When the hash of an entry
determines what it says and what it names, the last hash determines the
chain backwards: two chains with the same last hash agree entry by
entry from the end, as far as both reach (`Chained.agree_reverse`). They
reach equally far if both start behind the same hash and neither comes
back to it (`Chained.forall₂`).
-/

set_option autoImplicit false

namespace Durable

variable {α η : Type}

section Chain

variable (previous : α → Option η) (hash : α → η)

/-- The entries form a chain that starts behind `p`. -/
def Chained : Option η → List α → Prop
  | _, [] => True
  | p, a :: rest => previous a = p ∧ Chained (some (hash a)) rest

/-- The hash at the end of a list that starts behind `p`. -/
def endHash (hash : α → η) (p : Option η) (entries : List α) : Option η :=
  match entries.getLast? with
  | none => p
  | some a => some (hash a)

end Chain

variable {previous : α → Option η} {hash : α → η} {p : Option η} {a : α} {entries : List α}

@[simp] theorem endHash_nil : endHash hash p [] = p := rfl

@[simp] theorem endHash_concat : endHash hash p (entries ++ [a]) = some (hash a) := by
  simp [endHash]

theorem endHash_cons : endHash hash p (a :: entries) = endHash hash (some (hash a)) entries := by
  cases entries with
  | nil => rfl
  | cons b rest =>
    show (match (a :: b :: rest).getLast? with | none => p | some a => some (hash a)) = _
    rw [List.getLast?_cons_cons]
    rfl

/-- A chain and one behind its end. -/
theorem chained_append {rest : List α} : Chained previous hash p (entries ++ rest) ↔
    Chained previous hash p entries ∧ Chained previous hash (endHash hash p entries) rest := by
  induction entries generalizing p with
  | nil => simp [Chained]
  | cons b entries ih =>
    rw [List.cons_append, Chained, Chained, ih, endHash_cons]
    exact and_assoc.symm

/-- A chain grows by an entry that names its end. -/
theorem chained_concat : Chained previous hash p (entries ++ [a]) ↔
    Chained previous hash p entries ∧ previous a = endHash hash p entries := by
  rw [chained_append]
  simp [Chained]

/-- A first part of a chain is a chain. -/
theorem Chained.of_append {rest : List α} (h : Chained previous hash p (entries ++ rest)) :
    Chained previous hash p entries :=
  (chained_append.1 h).1

theorem Chained.previous_eq {b : α} {before rest : List α}
    (h : Chained previous hash p (before ++ b :: a :: rest)) : previous a = some (hash b) := by
  induction before generalizing p with
  | nil => exact h.2.1
  | cons c more ih => exact ih h.2

/-! ### The last hash determines the chain -/

section Agreement

variable {R : α → α → Prop} {q : Option η} {xs ys : List α}

section

variable (hagree : ∀ a ∈ xs, ∀ b ∈ ys, hash a = hash b → R a b ∧ previous a = previous b)
  (hx : Chained previous hash p xs)
include hagree hx

/-- Chains with the same last hash agree from the end, as far as both
reach, if entries of equal hash agree and name the same hash. -/
theorem Chained.agree_reverse (hy : Chained previous hash q ys)
    (hend : xs ≠ [] → ys ≠ [] → endHash hash p xs = endHash hash q ys) :
    ∀ pair ∈ xs.reverse.zip ys.reverse, R pair.1 pair.2 := by
  induction xs using List.reverseRecOn generalizing ys with
  | nil => simp
  | append_singleton xs a ih =>
    cases ys using List.reverseRecOn with
    | nil => simp
    | append_singleton ys b =>
      have hhash : hash a = hash b := by
        simpa using hend (by simp) (by simp)
      obtain ⟨hR, hprevious⟩ := hagree a (by simp) b (by simp) hhash
      obtain ⟨hx, ha⟩ := chained_concat.1 hx
      obtain ⟨hy, hb⟩ := chained_concat.1 hy
      have hrest := ih (fun a ha b hb => hagree a (by simp [ha]) b (by simp [hb])) hx hy
        fun _ _ => by rw [← ha, ← hb, hprevious]
      grind

/-- Chains behind the same hash, with the same last hash, agree entry by
entry if neither comes back to the hash they start behind. -/
theorem Chained.forall₂ (hy : Chained previous hash p ys)
    (hend : endHash hash p xs = endHash hash p ys) (hfresh : ∀ a ∈ xs ++ ys, some (hash a) ≠ p) :
    List.Forall₂ R xs ys := by
  induction xs using List.reverseRecOn generalizing ys with
  | nil =>
    cases ys using List.reverseRecOn with
    | nil => exact .nil
    | append_singleton ys b =>
      rw [endHash_nil, endHash_concat] at hend
      exact absurd hend.symm (hfresh b (by simp))
  | append_singleton xs a ih =>
    cases ys using List.reverseRecOn with
    | nil =>
      rw [endHash_nil, endHash_concat] at hend
      exact absurd hend (hfresh a (by simp))
    | append_singleton ys b =>
      have hhash : hash a = hash b := by simpa using hend
      obtain ⟨hR, hprevious⟩ := hagree a (by simp) b (by simp) hhash
      obtain ⟨hx, ha⟩ := chained_concat.1 hx
      obtain ⟨hy, hb⟩ := chained_concat.1 hy
      have hrest := ih (fun a ha b hb => hagree a (by simp [ha]) b (by simp [hb])) hx hy
        (by rw [← ha, ← hb, hprevious])
        (fun c hc => hfresh c (by simp only [List.mem_append] at hc ⊢; tauto))
      exact List.rel_append hrest (.cons hR .nil)

end

end Agreement

end Durable
