import Centrald.Durable.Undisturbed

/-!
# `Durable.Faults`: file programs in which one operation fails

An operation that fails reports an error and leaves the files as they
are, except that a write may have written a first part of its data.
`FileOp.faulty` carries out operations with one such failure: the state
has a countdown beside the files, and the operation at which it is zero
fails. Afterwards, and without a countdown, every operation succeeds if
it can. So a program has one run for each position of the failure.

`Faulted k c s p r c' s'` says that the program `p`, with the countdown
`c` and the files `s`, returns `r` and leaves the countdown `c'` and the
files `s'`. The rules compute the run operation by operation. `FaultEnds`
says of the run what is to be proved of its end. Its rules have a case
for the failure of the operation and a case for the rest of the program.
-/

set_option autoImplicit false

namespace Durable

theorem Prog.runWith_bind {Op Reply σ α β : Type} (g : Op → σ → σ × Reply)
    (p : Prog Op Reply α) (f : α → Prog Op Reply β) (s : σ) :
    (p >>= f).runWith g s = (f (p.runWith g s).1).runWith g (p.runWith g s).2 := by
  induction p generalizing s with
  | ret a => rfl
  | call op k ih => exact ih _ _

variable {ν φ : Type} [DecidableEq ν] [FileData φ]

/-- An operation that fails. A write has written its first `k` bytes. -/
def FileOp.fail (k : Nat) (op : FileOp ν) (s : Fs ν φ) : Fs ν φ × FileReply :=
  match op with
  | .write x data => (((FileOp.write x (data.take k)).run s).1, .failed .other)
  | _ => (s, .failed .other)

/-- The operation at which the countdown is zero fails. -/
def FileOp.faulty (k : Nat) (op : FileOp ν) (s : Option Nat × Fs ν φ) :
    (Option Nat × Fs ν φ) × FileReply :=
  match s.1 with
  | none => ((none, (op.run s.2).1), (op.run s.2).2)
  | some 0 => ((none, (op.fail k s.2).1), (op.fail k s.2).2)
  | some (n + 1) => ((some n, (op.run s.2).1), (op.run s.2).2)

/-- The countdown after `m` operations. -/
def countdown (m : Nat) : Option Nat → Option Nat
  | none => none
  | some n => if n < m then none else some (n - m)

theorem countdown_eq_some_iff {m n : Nat} {c : Option Nat} :
    countdown m c = some n ↔ c = some (n + m) := by
  cases c with
  | none => simp [countdown]
  | some i =>
    rw [countdown, Option.some.injEq]
    grind

theorem countdown_countdown (m n : Nat) (c : Option Nat) :
    countdown n (countdown m c) = countdown (m + n) c := by
  cases c with
  | none => rfl
  | some i =>
    by_cases h : i < m
    · have h' : i < m + n := by omega
      simp [countdown, h, h']
    · by_cases h' : i < m + n
      · have h'' : i - m < n := by omega
        simp [countdown, h, h', h'']
      · have h'' : ¬i - m < n := by omega
        simp only [countdown, h, h', h'', if_false, Option.some.injEq]
        omega

/-- The run of the program with the countdown `c` and the files `s`. -/
def Faulted {ε α : Type} (k : Nat) (c : Option Nat) (s : Fs ν φ) (p : FileM ε ν α)
    (r : Except ε α) (c' : Option Nat) (s' : Fs ν φ) : Prop :=
  p.run.runWith (FileOp.faulty k) (c, s) = (r, c', s')

variable {reply : FileReply}

/-- An operation after `m` others that does not fail. -/
theorem FileOp.faulty_of_ne {op : FileOp ν} {k m : Nat} {c : Option Nat}
    {s s' : Fs ν φ} (hc : c ≠ some m) (hrun : op.run s = (s', reply)) :
    op.faulty k (countdown m c, s) = ((countdown (m + 1) c, s'), reply) := by
  rw [← countdown_countdown]
  cases h : countdown m c with
  | none => simp [FileOp.faulty, countdown, hrun]
  | some n =>
    cases n with
    | zero =>
      rw [countdown_eq_some_iff, Nat.zero_add] at h
      exact absurd h hc
    | succ n => simp [FileOp.faulty, countdown, hrun]

/-- The operation after `m` others that fails. -/
theorem FileOp.faulty_self {op : FileOp ν} {k m : Nat} {s : Fs ν φ} :
    op.faulty k (countdown m (some m), s) = ((none, (op.fail k s).1), .failed .other) := by
  rw [countdown_eq_some_iff.2 (congrArg some (Nat.zero_add m).symm)]
  cases op <;> rfl

namespace Faulted

variable {ε ε' α β : Type} {k : Nat} {c c' c'' : Option Nat} {s s' s'' : Fs ν φ}
  {p : FileM ε ν α} {f : α → FileM ε ν β}

variable {r : Except ε α}

theorem ofExcept : Faulted k c s (FileM.ofExcept r : FileM ε ν α) r c s := rfl

theorem pure {a : α} : Faulted k c s (pure a : FileM ε ν α) (.ok a) c s := rfl

/-- There is one run, so what holds whenever it fails is about its end. -/
theorem error_iff {P : Fs ν φ → Prop} (hrun : Faulted k c s p r c' s') :
    (∀ e c'' s'', Faulted k c s p (.error e) c'' s'' → P s'') ↔ ∀ e, r = .error e → P s' := by
  constructor
  · rintro h e rfl
    exact h e c' s' hrun
  · intro h e c'' s'' hrun'
    obtain ⟨rfl, -, rfl⟩ : r = .error e ∧ c' = c'' ∧ s' = s'' := by
      simpa using hrun.symm.trans hrun'
    exact h e rfl

/-- A part, and what is made of its result. -/
theorem cont {g : Except ε α → Prog (FileOp ν) FileReply (Except ε' β)}
    {r' : Except ε' β} (hp : Faulted k c s p r c' s')
    (hg : Faulted k c' s' (ExceptT.mk (g r) : FileM ε' ν β) r' c'' s'') :
    Faulted k c s (ExceptT.mk (p.run >>= g) : FileM ε' ν β) r' c'' s'' := by
  rw [Faulted] at hp hg ⊢
  show (p.run >>= g).runWith _ _ = _
  rw [Prog.runWith_bind, hp]
  exact hg

/-- A part that succeeds, and the rest. -/
theorem bind {a : α} {r : Except ε β} (hp : Faulted k c s p (.ok a) c' s')
    (hf : Faulted k c' s' (f a) r c'' s'') : Faulted k c s (p >>= f) r c'' s'' := hp.cont hf

/-- A look for a file that is missing finds none, also if it fails. -/
theorem stat_missing {x : ν} (hx : s x = none) :
    Faulted k c s (FileM.stat x : FileM ε ν Bool) (.ok false) (countdown 1 c) s := by
  have hrun : (FileOp.stat x).run s = (s, .found false) := by
    rw [FileOp.run, hx]
    rfl
  show ((Except.ok (((FileOp.stat x).faulty k (c, s)).2 == .found true) : Except ε Bool),
    ((FileOp.stat x).faulty k (c, s)).1) = _
  rcases c with _ | _ | n
  · simp [FileOp.faulty, countdown, hrun]
  · rfl
  · simp [FileOp.faulty, countdown, hrun]

theorem stat_missing_after {m : Nat} {x : ν} (hx : s x = none) :
    Faulted k (countdown m c) s (FileM.stat x : FileM ε ν Bool) (.ok false)
      (countdown (m + 1) c) s := by
  rw [← countdown_countdown]
  exact stat_missing hx

/-- One operation for each element, and none of them has an effect. -/
theorem forM {m : Nat} {γ : Type} {xs : List γ} {body : γ → FileM ε ν PUnit}
    (h : ∀ x ∈ xs, ∀ m, Faulted k (countdown m c) s (body x) (.ok ⟨⟩) (countdown (m + 1) c) s) :
    Faulted k (countdown m c) s (xs.forM body) (.ok ⟨⟩) (countdown (m + xs.length) c) s := by
  induction xs generalizing m with
  | nil => exact .pure
  | cons x xs ih =>
    have hrest := ih (m := m + 1) fun y hy => h y (List.mem_cons_of_mem _ hy)
    rw [Nat.add_right_comm] at hrest
    exact (h x List.mem_cons_self m).bind hrest

end Faulted

/-- The run ends with a result, a countdown and files that satisfy `P`. -/
def FaultEnds {ε α : Type} (k : Nat) (c : Option Nat) (s : Fs ν φ) (p : FileM ε ν α)
    (P : Except ε α → Option Nat → Fs ν φ → Prop) : Prop :=
  ∃ r c' s', Faulted k c s p r c' s' ∧ P r c' s'

namespace FaultEnds

variable {ε ε' α β : Type} {k m : Nat} {c c' : Option Nat} {s s' : Fs ν φ} {p : FileM ε ν α}
  {f : α → FileM ε ν β} {P P' : Except ε α → Option Nat → Fs ν φ → Prop}
  {Q : Except ε β → Option Nat → Fs ν φ → Prop}

theorem ofExcept {r : Except ε α} (h : P r c s) :
    FaultEnds k c s (FileM.ofExcept r : FileM ε ν α) P := ⟨r, c, s, rfl, h⟩

theorem imp (h : FaultEnds k c s p P) (hP : ∀ r c' s', P r c' s' → P' r c' s') :
    FaultEnds k c s p P' := by
  obtain ⟨r, c', s', hrun, hr⟩ := h
  exact ⟨r, c', s', hrun, hP r c' s' hr⟩

/-- A part, and the rest if it succeeds. -/
theorem cont (h : FaultEnds k c s p fun r c' s' => match r with
      | .error e => Q (.error e) c' s'
      | .ok a => FaultEnds k c' s' (f a) Q) : FaultEnds k c s (p >>= f) Q := by
  obtain ⟨r, c', s', hrun, hr⟩ := h
  cases r with
  | error e => exact ⟨.error e, c', s', hrun.cont rfl, hr⟩
  | ok a =>
    obtain ⟨r, c'', s'', hrest, hr⟩ := hr
    exact ⟨r, c'', s'', hrun.bind hrest, hr⟩

theorem bind (h : FaultEnds k c s p P) (herror : ∀ e c' s', P (.error e) c' s' → Q (.error e) c' s')
    (hok : ∀ a c' s', P (.ok a) c' s' → FaultEnds k c' s' (f a) Q) :
    FaultEnds k c s (p >>= f) Q := by
  refine cont (h.imp fun r c' s' hr => ?_)
  grind

/-- The rest, after a part that succeeds. -/
theorem after {a : α} (hrun : Faulted k c s p (.ok a) c' s') (h : FaultEnds k c' s' (f a) Q) :
    FaultEnds k c s (p >>= f) Q := cont ⟨_, _, _, hrun, h⟩

theorem adapt {g : ε → ε'} {P : Except ε' α → Option Nat → Fs ν φ → Prop}
    (h : FaultEnds k c s p fun r => P (r.mapError g)) : FaultEnds k c s (ExceptT.adapt g p) P := by
  obtain ⟨r, c', s', hrun, hr⟩ := h
  exact ⟨r.mapError g, c', s', hrun.cont rfl, hr⟩

/-- A part whose error is looked at. -/
theorem result_bind {p : FileM ε' ν α} {f : Except ε' α → FileM ε ν β}
    (h : FaultEnds k c s p fun r c' s' => FaultEnds k c' s' (f r) Q) :
    FaultEnds k c s (FileM.result p >>= f) Q := by
  obtain ⟨r, c', s', hrun, hr⟩ := h
  exact after (p := FileM.result p) (hrun.cont rfl) hr

/-- One operation, whatever is made of its reply. -/
theorem call {op : FileOp ν} {g : FileReply → Except ε α}
    (hrun : op.run s = (s', reply))
    (hfail : c = some m → P (g (.failed .other)) none (op.fail k s).1)
    (hok : c ≠ some m → P (g reply) (countdown (m + 1) c) s') :
    FaultEnds k (countdown m c) s (ExceptT.mk (.call op fun r => .ret (g r)) : FileM ε ν α) P := by
  refine ⟨_, _, _, rfl, ?_⟩
  show P (g (op.faulty k (countdown m c, s)).2) (op.faulty k (countdown m c, s)).1.1
    (op.faulty k (countdown m c, s)).1.2
  by_cases hc : c = some m
  · subst hc
    rw [FileOp.faulty_self]
    exact hfail rfl
  · rw [FileOp.faulty_of_ne hc hrun]
    exact hok hc

section Op

variable {op : FileOp ν}

theorem act {e : ε} {P : Except ε Unit → Option Nat → Fs ν φ → Prop}
    (hrun : op.run s = (s', .done)) (hfail : c = some m → P (.error e) none (op.fail k s).1)
    (hok : c ≠ some m → P (.ok ()) (countdown (m + 1) c) s') :
    FaultEnds k (countdown m c) s (FileM.act op e) P := call hrun hfail hok

theorem act_bind {e : ε} {f : Unit → FileM ε ν β} (hrun : op.run s = (s', .done))
    (hfail : c = some m → Q (.error e) none (op.fail k s).1)
    (hok : c ≠ some m → FaultEnds k (countdown (m + 1) c) s' (f ()) Q) :
    FaultEnds k (countdown m c) s (FileM.act op e >>= f) Q := cont (act hrun hfail hok)

theorem attempt_bind {f : FileReply → FileM ε ν β}
    (hrun : op.run s = (s', reply))
    (hfail : c = some m → FaultEnds k none (op.fail k s).1 (f (.failed .other)) Q)
    (hok : c ≠ some m → FaultEnds k (countdown (m + 1) c) s' (f reply) Q) :
    FaultEnds k (countdown m c) s (FileM.attempt op >>= f) Q := cont (call hrun hfail hok)

/-- A file whose name cannot be looked up counts as missing. -/
theorem stat_bind {x : ν} {f : Bool → FileM ε ν β}
    (hfail : c = some m → FaultEnds k none s (f false) Q)
    (hok : c ≠ some m → FaultEnds k (countdown (m + 1) c) s (f (s x).isSome) Q) :
    FaultEnds k (countdown m c) s (FileM.stat x >>= f) Q := by
  refine cont (call rfl hfail fun hc => ?_)
  rw [found_beq]
  exact hok hc

/-- Removing a file once the failure is over. -/
theorem remove_bind {x : ν} {f : FileReply → FileM ε ν β}
    (hrun : (FileOp.remove x).run s = (s', reply)) (h : FaultEnds k none s' (f reply) Q) :
    FaultEnds k none s (FileM.attempt (.remove x) >>= f) Q :=
  cont (call (c := none) (m := 0) hrun nofun fun _ => h)

end Op

end FaultEnds

end Durable
