import Centrald.Durable.Prog

/-!
# `Durable.Disturbed`: runs that are disturbed at one position

The environment of a program decides at which of its operations it
disturbs the run for the first time: operation `n` fails, or the process
stops before or inside operation `n` (`Disturbance`). `Sem.disturbed`
counts the operations and allows the runs of one such decision. Up to
operation `n` no operation fails. After a failure at `n` anything may
happen, also a further failure or a stop.

`exec_disturbed` says that nothing is lost by this: every run of a
program is a run with some disturbance. So a condition on the
disturbance is a condition on what the environment does, and every run
is subject to it.
-/

set_option autoImplicit false

namespace Durable

/-- The first thing that goes wrong in a run, with the number of the
operation at which it does, counted from zero. -/
inductive Disturbance where
  /-- Operation `n` fails. -/
  | fails (n : Nat)
  /-- The process stops before operation `n` or inside it. -/
  | stops (n : Nat)

namespace Disturbance

/-- The number of the operation at which the run is disturbed. -/
def position : Disturbance → Nat
  | fails n | stops n => n

/-- Operation `i` may be answered, where `failure` says whether the
answer is a failure: no answer before the position is one, and after a
failure at the position every answer may come. -/
def Answers : Disturbance → Nat → Bool → Prop
  | fails n, i, failure => (i < n → failure = false) ∧ (i = n → failure = true)
  | stops n, i, failure => i < n ∧ failure = false

/-- The process may stop before operation `i` or inside it. -/
def MayStop : Disturbance → Nat → Prop
  | fails n, i => n < i
  | stops n, i => i = n

instance : ∀ (d : Disturbance) (i : Nat) (failure : Bool), Decidable (d.Answers i failure)
  | fails _, _, _ => inferInstanceAs (Decidable (_ ∧ _))
  | stops _, _, _ => inferInstanceAs (Decidable (_ ∧ _))

variable {d : Disturbance} {i : Nat} {failure : Bool}

/-- Before the position an operation is answered without a failure. -/
theorem answers_of_lt (h : i < d.position) : d.Answers i false := by
  cases d with
  | fails n => exact ⟨fun _ => rfl, fun hi => absurd hi (Nat.ne_of_lt h)⟩
  | stops n => exact ⟨h, rfl⟩

theorem Answers.eq_false (h : d.Answers i failure) (hi : i < d.position) : failure = false := by
  cases d with
  | fails n => exact h.1 hi
  | stops n => exact h.2

/-- A run that is not disturbed before `i` and gets an answer there that
is no failure is not disturbed before `i + 1`. -/
theorem Answers.lt_position (h : d.Answers i false) (hi : i ≤ d.position) : i < d.position := by
  cases d with
  | fails n =>
    refine Nat.lt_of_le_of_ne hi fun hn => ?_
    cases h.2 hn
  | stops n => exact h.1

/-- Before the position the process does not stop. -/
theorem not_mayStop_of_lt (h : i < d.position) : ¬ d.MayStop i := by
  cases d with
  | fails n => exact Nat.lt_asymm h
  | stops n => exact Nat.ne_of_lt h

end Disturbance

variable {Op Reply σ τ α : Type}

/-- The same outcome with another view of its state. -/
def Outcome.map (f : σ → τ) : Outcome σ α → Outcome τ α
  | .done a s => .done a (f s)
  | .crashed s => .crashed (f s)

/-- The runs with the disturbance `d`. The state has the number of the
operations so far beside it, and `failure` says which replies are
failures. -/
def Sem.disturbed (M : Sem Op Reply σ) (failure : Reply → Bool) (d : Disturbance) :
    Sem Op Reply (σ × Nat) where
  effect op s s' r := M.effect op s.1 s'.1 r ∧ s'.2 = s.2 + 1 ∧ d.Answers s.2 (failure r)
  torn op s s' := M.torn op s.1 s'.1 ∧ s'.2 = s.2
  survives s s' := M.survives s.1 s'.1 ∧ s'.2 = s.2 ∧ d.MayStop s.2

variable {M : Sem Op Reply σ} {failure : Reply → Bool} {p : Prog Op Reply α} {s : σ}
  {out : Outcome σ α}

/-- After the operation that fails, every run is allowed. -/
theorem exec_disturbed_after {n i : Nat} (h : Exec M p s out) (hi : n < i) :
    ∃ k, Exec (M.disturbed failure (.fails n)) p (s, i) (out.map (·, k)) := by
  induction h generalizing i with
  | ret a s => exact ⟨i, .ret a (s, i)⟩
  | @call op _ s s' r _ heff _ ih =>
    obtain ⟨k, hk⟩ := ih (Nat.lt_succ_of_lt hi)
    have hfree : (Disturbance.fails n).Answers i (failure r) :=
      ⟨fun h => absurd hi (Nat.lt_asymm h), fun h => absurd hi (h ▸ Nat.lt_irrefl n)⟩
    have hop : (M.disturbed failure (.fails n)).effect op (s, i) (s', i + 1) r :=
      ⟨heff, rfl, hfree⟩
    exact ⟨k, .call hop hk⟩
  | crash p h => exact ⟨i, .crash p ⟨h, rfl, hi⟩⟩
  | @torn op k s s' _ htorn h =>
    have hop : (M.disturbed failure (.fails n)).torn op (s, i) (s', i) := ⟨htorn, rfl⟩
    exact ⟨i, .torn k hop ⟨h, rfl, hi⟩⟩

/-- Every run of a program has a disturbance, which is the first failure,
or the stop if no operation has failed before. A run with neither counts
as one that would be disturbed later. -/
theorem exec_disturbed (h : Exec M p s out) (i : Nat) :
    ∃ d k, i ≤ Disturbance.position d ∧ Exec (M.disturbed failure d) p (s, i) (out.map (·, k)) := by
  induction h generalizing i with
  | ret a s => exact ⟨.fails i, i, Nat.le_refl i, .ret a (s, i)⟩
  | @call op _ s s' r _ heff hrest ih =>
    cases hr : failure r with
    | true =>
      obtain ⟨k, hk⟩ : ∃ k, Exec (M.disturbed failure (.fails i)) _ _ _ :=
        exec_disturbed_after hrest (Nat.lt_succ_self i)
      have hop : (M.disturbed failure (.fails i)).effect op (s, i) (s', i + 1) r :=
        ⟨heff, rfl, fun h => absurd h (Nat.lt_irrefl i), fun _ => hr⟩
      exact ⟨.fails i, k, Nat.le_refl i, .call hop hk⟩
    | false =>
      obtain ⟨d, k, hd, hk⟩ := ih (i + 1)
      have hop : (M.disturbed failure d).effect op (s, i) (s', i + 1) r :=
        ⟨heff, rfl, hr ▸ Disturbance.answers_of_lt hd⟩
      exact ⟨d, k, Nat.le_of_succ_le hd, .call hop hk⟩
  | crash p h => exact ⟨.stops i, i, Nat.le_refl i, .crash p ⟨h, rfl, rfl⟩⟩
  | @torn op k s s' _ htorn h =>
    have hop : (M.disturbed failure (.stops i)).torn op (s, i) (s', i) := ⟨htorn, rfl⟩
    exact ⟨.stops i, i, Nat.le_refl i, .torn k hop ⟨h, rfl, rfl⟩⟩

/-- A function that carries out every operation, with the count. -/
def counted (f : Op → σ → σ × Reply) (op : Op) (s : σ × Nat) : (σ × Nat) × Reply :=
  (((f op s.1).1, s.2 + 1), (f op s.1).2)

/-- The run with `f` has the disturbance `d` if its replies fit. -/
theorem exec_runWith_disturbed {f : Op → σ → σ × Reply} {d : Disturbance}
    (hf : ∀ op s, M.effect op s (f op s).1 (f op s).2)
    (h : p.allow (counted f) (fun _ s r => decide (d.Answers (s.2 - 1) (failure r)))
      (s, 0) = true) :
    Exec (M.disturbed failure d) p (s, 0)
      (.done (p.runWith (counted f) (s, 0)).1 (p.runWith (counted f) (s, 0)).2) :=
  exec_runWith_of_allow (M := M.disturbed failure d) (f := counted f)
    (fun op s hok => ⟨hf op s.1, rfl, of_decide_eq_true hok⟩) p (s, 0) h

end Durable
