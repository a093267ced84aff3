import Mathlib.Data.List.Forall2

/-!
# `Durable.Fallible`: what a fallible computation ends with

`Ends E Q x` says that `x` ends with a value that satisfies `Q`, or
fails with an error that satisfies `E`. The rules follow the syntax of a
`do` block: `Ends.pure`, `Ends.bind` and `Ends.ite`. So the
facts about a fallible function and about the errors it never raises are
proved in one pass over its body.

Facts about lists that are related one by one (`List.Forall₂`) stand
beside it, for functions that change the elements of a list.
-/

set_option autoImplicit false

namespace Durable

variable {ε α β : Type}

/-- A value with `Q` or an error with `E`. -/
def Ends (E : ε → Prop) (Q : α → Prop) : Except ε α → Prop
  | .ok a => Q a
  | .error e => E e

namespace Ends

variable {E : ε → Prop} {Q Q' : α → Prop} {R : β → Prop} {x : Except ε α}

variable {a : α}

theorem pure (h : Q a) : Ends E Q (Pure.pure a : Except ε α) := h

/-- The second part may use what the first one ends with. -/
theorem bind {f : α → Except ε β} (h : Ends E Q x) (hf : ∀ a, Q a → Ends E R (f a)) :
    Ends E R (x >>= f) := by
  cases x with
  | error e => exact h
  | ok a => exact hf a h

theorem map {f : α → β} (h : Ends E (fun a => R (f a)) x) : Ends E R (f <$> x) := by
  cases x with
  | error e => exact h
  | ok a => exact h

theorem imp (h : Ends E Q x) (hQ : ∀ a, Q a → Q' a) : Ends E Q' x := by
  cases x with
  | error e => exact h
  | ok a => exact hQ a h

/-- Two facts about the values, with the errors of the first. -/
theorem and {E' : ε → Prop} (h : Ends E Q x) (h' : Ends E' Q' x) :
    Ends E (fun a => Q a ∧ Q' a) x := by
  cases x with
  | error e => exact h
  | ok a => exact ⟨h, h'⟩

theorem any : Ends (fun _ => True) (fun _ => True) x := by
  cases x with
  | error e => exact trivial
  | ok a => exact trivial

/-- A computation that cannot fail has a value. -/
theorem exists_ok (h : Ends (fun _ => False) Q x) : ∃ a, x = .ok a ∧ Q a := by
  cases x with
  | error e => exact h.elim
  | ok a => exact ⟨a, rfl, h⟩

theorem of_forall_ok (h : ∀ a, x = .ok a → Q a) : Ends (fun _ => True) Q x := by
  cases x with
  | error e => exact trivial
  | ok a => exact h a rfl

theorem of_eq_ok (hx : x = .ok a) (h : Q a) : Ends E Q x := by
  rw [hx]
  exact h

theorem eq_ok (h : Ends (fun _ => False) (fun b => b = a) x) : x = .ok a := by
  obtain ⟨_, hx, rfl⟩ := h.exists_ok
  exact hx

theorem ite {c : Prop} [Decidable c] {x y : Except ε α} (hx : c → Ends E Q x)
    (hy : ¬ c → Ends E Q y) : Ends E Q (if c then x else y) := by
  grind

theorem of_ok (h : Ends E Q x) (hx : x = .ok a) : Q a := by
  subst hx
  exact h

theorem of_error {e : ε} (h : Ends E Q x) (hx : x = .error e) : E e := by
  subst hx
  exact h

end Ends

variable {b : β}

theorem bind_eq_ok {x : Except ε α} {f : α → Except ε β} :
    (x >>= f) = .ok b ↔ ∃ a, x = .ok a ∧ f a = .ok b := by
  cases x with
  | error e => exact ⟨nofun, nofun⟩
  | ok a => exact ⟨fun h => ⟨a, rfl, h⟩, fun ⟨_, ha, h⟩ => Except.ok.inj ha ▸ h⟩

theorem map_eq_ok {x : Except ε α} {f : α → β} :
    f <$> x = .ok b ↔ ∃ a, x = .ok a ∧ f a = b := by
  cases x with
  | error e => exact ⟨nofun, nofun⟩
  | ok a =>
    exact ⟨fun h => ⟨a, rfl, Except.ok.inj h⟩, fun ⟨_, ha, h⟩ => by cases ha; exact congrArg _ h⟩

theorem eq_ok_of_toOption {x : Except ε α} {a : α} (h : x.toOption = some a) : x = .ok a := by
  cases x with
  | error e => cases h
  | ok b => exact congrArg Except.ok (Option.some.inj h)

section Pointwise

variable {R : α → β → Prop} {xs : List α} {ys : List β}

theorem exists_right_of_forall₂ (h : List.Forall₂ R xs ys) {a : α} (ha : a ∈ xs) :
    ∃ b ∈ ys, R a b := by
  induction h with
  | nil => cases ha
  | cons hR _ ih =>
    grind

theorem exists_left_of_forall₂ (h : List.Forall₂ R xs ys) (hb : b ∈ ys) :
    ∃ a ∈ xs, R a b := by
  induction h with
  | nil => cases hb
  | cons hR _ ih =>
    grind

theorem forall₂_comp {γ : Type} {S : β → γ → Prop} {T : α → γ → Prop} {zs : List γ}
    (hRS : ∀ a b c, R a b → S b c → T a c) (h : List.Forall₂ R xs ys)
    (h' : List.Forall₂ S ys zs) : List.Forall₂ T xs zs := by
  induction h generalizing zs with
  | nil =>
    cases h'
    exact .nil
  | cons hR _ ih =>
    cases h' with
    | cons hS hrest => exact .cons (hRS _ _ _ hR hS) (ih hrest)

end Pointwise

end Durable
