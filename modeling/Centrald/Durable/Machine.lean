import Mathlib.Logic.Relation

/-!
# `Durable.Machine`: labelled machines and what holds in every run

A machine steps from a state along a label, or refuses the label.
`Reaches G s0 s` says that some run leads from `s0` to `s` and that
every step of it met the guard `G`, a condition on the label and the
state before the step. An invariant of the guarded steps holds in every
state reached (`Reaches.invariant`). `Machine.run` follows a list of
labels and checks a guard on the way, so that concrete runs evaluate
(`Reaches.of_run`).
-/

set_option autoImplicit false

namespace Durable

/-- A machine: the state after a label, if the label is enabled. -/
structure Machine (σ ℓ : Type) where
  step : σ → ℓ → Option σ

namespace Machine

variable {σ ℓ : Type} (M : Machine σ ℓ)

/-- Follow a list of labels, as long as the guard holds. -/
def run (guard : σ → ℓ → Bool) : σ → List ℓ → Option σ
  | s, [] => some s
  | s, l :: rest =>
    if guard s l then (M.step s l).bind fun s' => run guard s' rest else none

/-- The states that runs reach whose steps all meet the guard. -/
inductive Reaches (G : σ → ℓ → Prop) (s0 : σ) : σ → Prop where
  | refl : Reaches G s0 s0
  | tail {s s' : σ} {l : ℓ} (h : Reaches G s0 s) (hG : G s l) (hstep : M.step s l = some s') :
      Reaches G s0 s'

variable {M} {G : σ → ℓ → Prop} {s0 s : σ}

theorem Reaches.head {s1 : σ} {l : ℓ} (hG : G s0 l) (hstep : M.step s0 l = some s1)
    (h : M.Reaches G s1 s) : M.Reaches G s0 s := by
  induction h with
  | refl => exact .tail .refl hG hstep
  | tail _ hG hs ih => exact ih.tail hG hs

theorem Reaches.trans {s1 : σ} (h : M.Reaches G s0 s1) (h' : M.Reaches G s1 s) :
    M.Reaches G s0 s := by
  induction h' with
  | refl => exact h
  | tail _ hG hs ih => exact ih.tail hG hs

/-- What holds at the start and is kept by every guarded step holds in
every state reached. -/
theorem Reaches.invariant {I : σ → Prop} (h : M.Reaches G s0 s) (h0 : I s0)
    (hstep : ∀ s l s', I s → G s l → M.step s l = some s' → I s') : I s := by
  induction h with
  | refl => exact h0
  | tail _ hG hs ih => exact hstep _ _ _ ih hG hs

theorem Reaches.mono {H : σ → ℓ → Prop} (h : M.Reaches G s0 s) (hGH : ∀ s l, G s l → H s l) :
    M.Reaches H s0 s := by
  induction h with
  | refl => exact .refl
  | tail _ hG hs ih => exact ih.tail (hGH _ _ hG) hs

/-- A part of the state that every step leaves alone or moves as another
machine does runs as that machine. -/
theorem Reaches.project {τ κ : Type} {N : Machine τ κ} {H : τ → κ → Prop} {f : σ → τ}
    (h : M.Reaches G s0 s)
    (hstep : ∀ s l s', G s l → M.step s l = some s' →
      f s' = f s ∨ ∃ k, H (f s) k ∧ N.step (f s) k = some (f s')) :
    N.Reaches H (f s0) (f s) := by
  induction h with
  | refl => exact .refl
  | tail _ hG hs ih =>
    rcases hstep _ _ _ hG hs with heq | ⟨k, hH, hk⟩
    · rw [heq]
      exact ih
    · exact ih.tail hH hk

/-- The machine with a log of what happens in its steps. -/
def logged {ε : Type} (M : Machine σ ℓ) (event : σ → ℓ → Option ε) :
    Machine (σ × List ε) ℓ where
  step s l := (M.step s.1 l).map fun s' => (s', s.2 ++ (event s.1 l).toList)

theorem logged_step {ε : Type} {event : σ → ℓ → Option ε} {s s' : σ × List ε} {l : ℓ}
    (h : (M.logged event).step s l = some s') :
    M.step s.1 l = some s'.1 ∧ s'.2 = s.2 ++ (event s.1 l).toList := by
  obtain ⟨t, ht, rfl⟩ := Option.map_eq_some_iff.1 h
  exact ⟨ht, rfl⟩

/-- A run that checks the guard reaches its last state. -/
theorem Reaches.of_run {guard : σ → ℓ → Bool}
    (hG : ∀ s l, M.Reaches G s0 s → guard s l = true → G s l)
    {ls : List ℓ} {t : σ} (h : M.Reaches G s0 s) (hrun : M.run guard s ls = some t) :
    M.Reaches G s0 t := by
  induction ls generalizing s with
  | nil =>
    cases hrun
    exact h
  | cons l rest ih =>
    rw [run] at hrun
    by_cases hg : guard s l
    · rw [if_pos hg, Option.bind_eq_some_iff] at hrun
      obtain ⟨s', hstep, hrest⟩ := hrun
      exact ih (h.tail (hG s l h hg) hstep) hrest
    · rw [if_neg hg] at hrun
      cases hrun

theorem reaches_of_run {guard : σ → ℓ → Bool} {ls : List ℓ} (hrun : M.run guard s0 ls = some s) :
    M.Reaches (fun _ _ => True) s0 s :=
  Reaches.refl.of_run (fun _ _ _ _ => trivial) hrun

/-- The state that a guarded run reaches, seen through `view`. -/
theorem reached_of_view {β : Type} {g : σ → ℓ → Bool} {L : List ℓ} {view : σ → β} {v : β}
    (hG : ∀ s l, M.Reaches G s0 s → g s l = true → G s l)
    (hrun : (M.run g s0 L).map view = some v) : ∃ s, M.Reaches G s0 s ∧ view s = v := by
  obtain ⟨s, hs, hview⟩ := Option.map_eq_some_iff.1 hrun
  exact ⟨s, Reaches.refl.of_run hG hs, hview⟩

theorem exists_of_view {β : Type} {g : σ → ℓ → Bool} {L : List ℓ} {view : σ → β} {v : β}
    (hrun : (M.run g s0 L).map view = some v) :
    ∃ s, M.Reaches (fun _ _ => True) s0 s ∧ view s = v :=
  reached_of_view (fun _ _ _ _ => trivial) hrun

end Machine

theorem exists_some_of_view {α β : Type} {x : Option α} {P : α → Prop} (view : α → β) {v : β}
    (h : x.map view = some v) (hP : ∀ a, view a = v → P a) : ∃ a, x = some a ∧ P a := by
  obtain ⟨a, ha, hview⟩ := Option.map_eq_some_iff.1 h
  exact ⟨a, ha, hP a hview⟩

end Durable
