import Mathlib.Logic.Basic

/-!
# `Durable.Prog`: programs that a crash can stop

A `Prog Op Reply α` is a sequential program that issues operations and
chooses how to go on from their replies. A `Sem` says what an operation
may do to the state and reply, and which states a crash may leave.
`Exec M p s out` holds when `p`, started in `s`, may end with `out`:
either it returns, or it stops at any point before that.

`Triple M P p Q C` is the Hoare triple with a crash condition: started
where `P` holds, `p` returns only with `Q` and stops only with `C`. The
rules `Triple.ret`, `Triple.call` and `Triple.bind` follow the syntax.
The equivalences `exec_ret_iff`, `exec_call_iff` and `exec_bind_iff`
give the outcomes of a program exactly, which is what a proof that some
outcome does happen needs.
-/

set_option autoImplicit false

namespace Durable

/-- A program over operations `Op` with replies `Reply`. -/
inductive Prog (Op Reply α : Type) : Type where
  /-- Return a value. -/
  | ret (a : α) : Prog Op Reply α
  /-- Issue an operation and continue with its reply. -/
  | call (op : Op) (k : Reply → Prog Op Reply α) : Prog Op Reply α

namespace Prog

variable {Op Reply α β : Type}

/-- Run `p`, then the program that `f` makes of its value. -/
protected def bind (p : Prog Op Reply α) (f : α → Prog Op Reply β) : Prog Op Reply β :=
  match p with
  | .ret a => f a
  | .call op k => .call op fun r => (k r).bind f

instance : Monad (Prog Op Reply) where
  pure := .ret
  bind := Prog.bind

/-- The same program over a larger set of operations. -/
def lift {Op' Reply' : Type} (f : Op → Op') (g : Reply' → Reply) :
    Prog Op Reply α → Prog Op' Reply' α
  | .ret a => .ret a
  | .call op k => .call (f op) fun r => (k (g r)).lift f g

@[simp] theorem pure_eq (a : α) : (pure a : Prog Op Reply α) = .ret a := rfl

@[simp] theorem ret_bind (a : α) (f : α → Prog Op Reply β) : (Prog.ret a >>= f) = f a := rfl

@[simp] theorem call_bind (op : Op) (k : Reply → Prog Op Reply α) (f : α → Prog Op Reply β) :
    (Prog.call op k >>= f) = .call op fun r => k r >>= f := rfl

end Prog

/-- What operations and crashes do to a state. -/
structure Sem (Op Reply σ : Type) where
  /-- `effect op s s' r`: `op` may turn `s` into `s'` and reply `r`. -/
  effect : Op → σ → σ → Reply → Prop
  /-- `torn op s s'`: a crash inside `op` may find `s'` in place of `s`. -/
  torn : Op → σ → σ → Prop
  /-- `survives s s'`: of the state `s` a crash may leave `s'`. -/
  survives : σ → σ → Prop

/-- How a program ends. -/
inductive Outcome (σ α : Type) : Type where
  /-- It returned `a` in the state `s`. -/
  | done (a : α) (s : σ)
  /-- It was stopped, and `s` is the state after the crash. -/
  | crashed (s : σ)

namespace Outcome

variable {σ α : Type}

/-- The state an outcome leaves. -/
def state : Outcome σ α → σ
  | .done _ s => s
  | .crashed s => s

/-- An outcome meets a postcondition `Q` and a crash condition `C`. -/
def Meets (Q : α → σ → Prop) (C : σ → Prop) : Outcome σ α → Prop
  | .done a s => Q a s
  | .crashed s => C s

end Outcome

section Semantics

variable {Op Reply σ α β : Type} (M : Sem Op Reply σ)

/-- `Exec M p s out`: started in `s`, the program `p` may end with `out`. -/
inductive Exec : Prog Op Reply α → σ → Outcome σ α → Prop where
  /-- A program that returns. -/
  | ret (a : α) (s : σ) : Exec (.ret a) s (.done a s)
  /-- One operation, and then the rest of the program. -/
  | call {op : Op} {k : Reply → Prog Op Reply α} {s s' : σ} {r : Reply}
      {out : Outcome σ α} (heff : M.effect op s s' r) (hrest : Exec (k r) s' out) :
      Exec (.call op k) s out
  /-- A crash between two operations. -/
  | crash (p : Prog Op Reply α) {s s' : σ} (h : M.survives s s') : Exec p s (.crashed s')
  /-- A crash inside an operation. -/
  | torn {op : Op} (k : Reply → Prog Op Reply α) {s s' s'' : σ} (htorn : M.torn op s s')
      (h : M.survives s' s'') : Exec (.call op k) s (.crashed s'')

variable {M}

/-- A returned value is the only other end of `ret` than a crash. -/
theorem exec_ret_iff (a : α) (s : σ) (out : Outcome σ α) : Exec M (.ret a) s out ↔
      out = .done a s ∨ ∃ s', M.survives s s' ∧ out = .crashed s' := by
  constructor
  · intro h
    cases h with
    | ret => exact .inl rfl
    | crash _ h => exact .inr ⟨_, h, rfl⟩
  · rintro (rfl | ⟨s', h, rfl⟩)
    · exact .ret a s
    · exact .crash _ h

/-- The ends of a program that starts with an operation. -/
theorem exec_call_iff (op : Op) (k : Reply → Prog Op Reply α) (s : σ) (out : Outcome σ α) :
    Exec M (.call op k) s out ↔ (∃ s' r, M.effect op s s' r ∧ Exec M (k r) s' out) ∨
      (∃ s', M.survives s s' ∧ out = .crashed s') ∨
      (∃ s' s'', M.torn op s s' ∧ M.survives s' s'' ∧ out = .crashed s'') := by
  constructor
  · intro h
    cases h with
    | call heff hrest => exact .inl ⟨_, _, heff, hrest⟩
    | crash _ h => exact .inr (.inl ⟨_, h, rfl⟩)
    | torn _ htorn h => exact .inr (.inr ⟨_, _, htorn, h, rfl⟩)
  · rintro (⟨s', r, heff, hrest⟩ | ⟨s', h, rfl⟩ | ⟨s', s'', htorn, h, rfl⟩)
    · exact .call heff hrest
    · exact .crash _ h
    · exact .torn k htorn h

/-- The ends of two programs in sequence. -/
theorem exec_bind_iff (p : Prog Op Reply α) (f : α → Prog Op Reply β) (s : σ) (out : Outcome σ β) :
    Exec M (p >>= f) s out ↔ (∃ a s', Exec M p s (.done a s') ∧ Exec M (f a) s' out) ∨
      (∃ s', Exec M p s (.crashed s') ∧ out = .crashed s') := by
  induction p generalizing s out with
  | ret a =>
    rw [Prog.ret_bind]
    constructor
    · intro h
      exact .inl ⟨a, s, .ret a s, h⟩
    · rintro (⟨b, s', hb, h⟩ | ⟨s', hs, rfl⟩)
      · cases hb
        exact h
      · rcases (exec_ret_iff a s _).1 hs with h | ⟨t, ht, h⟩
        · cases h
        · cases h
          exact .crash _ ht
  | call op k ih =>
    rw [Prog.call_bind, exec_call_iff]
    constructor
    · rintro (⟨s', r, heff, hrest⟩ | ⟨s', h, rfl⟩ | ⟨s', s'', htorn, h, rfl⟩)
      · rcases (ih r s' out).1 hrest with ⟨a, t, ha, hf⟩ | ⟨t, ht, rfl⟩
        · exact .inl ⟨a, t, .call heff ha, hf⟩
        · exact .inr ⟨t, .call heff ht, rfl⟩
      · exact .inr ⟨s', .crash _ h, rfl⟩
      · exact .inr ⟨s'', .torn k htorn h, rfl⟩
    · rintro (⟨a, t, ha, hf⟩ | ⟨t, ht, rfl⟩)
      · cases ha with
        | call heff hrest =>
          grind
      · cases ht with
        | call heff hrest =>
          grind
        | crash _ h => exact .inr (.inl ⟨t, h, rfl⟩)
        | torn _ htorn h => exact .inr (.inr ⟨_, t, htorn, h, rfl⟩)

variable {p : Prog Op Reply α}

/-- Where a program may return, a crash may stop it as well. -/
theorem Exec.crash_of_done {s s' s'' : σ} {a : α}
    (h : Exec M p s (.done a s')) (hs : M.survives s' s'') : Exec M p s (.crashed s'') := by
  induction p generalizing s with
  | ret b =>
    cases h
    exact .crash _ hs
  | call op k ih =>
    cases h with
    | call heff hrest => exact .call heff (ih _ hrest)

/-! ### Runs of a deterministic implementation

A function `f` that carries out every operation gives one run of each
program, which can be evaluated. -/

/-- The run of `p` in which `f` carries out every operation. -/
def Prog.runWith (f : Op → σ → σ × Reply) : Prog Op Reply α → σ → α × σ
  | .ret a, s => (a, s)
  | .call op k, s => (k (f op s).2).runWith f (f op s).1

/-- The state after the first `n` operations of that run. -/
def Prog.after (f : Op → σ → σ × Reply) : Nat → Prog Op Reply α → σ → σ
  | 0, _, s => s
  | _ + 1, .ret _, s => s
  | n + 1, .call op k, s => (k (f op s).2).after f n (f op s).1

/-- Every step of that run passes `ok`, which sees the operation, the
state after it and the reply. -/
def Prog.allow (f : Op → σ → σ × Reply) (ok : Op → σ → Reply → Bool) :
    Prog Op Reply α → σ → Bool
  | .ret _, _ => true
  | .call op k, s => ok op (f op s).1 (f op s).2 && (k (f op s).2).allow f ok (f op s).1

variable {f : Op → σ → σ × Reply}

/-- The run with `f` is one of the ends of the program, where `f` does
what `M` allows. -/
theorem exec_runWith_of_allow {ok : Op → σ → Reply → Bool}
    (hf : ∀ op s, ok op (f op s).1 (f op s).2 = true → M.effect op s (f op s).1 (f op s).2)
    (p : Prog Op Reply α) (s : σ) (h : p.allow f ok s = true) :
    Exec M p s (.done (p.runWith f s).1 (p.runWith f s).2) := by
  induction p generalizing s with
  | ret a => exact .ret a s
  | call op k ih =>
    rw [Prog.allow, Bool.and_eq_true] at h
    exact .call (hf op s h.1) (ih _ _ h.2)

/-- The run with `f` is one of the ends of the program. -/
theorem exec_runWith
    (hf : ∀ op s, M.effect op s (f op s).1 (f op s).2) (p : Prog Op Reply α) (s : σ) :
    Exec M p s (.done (p.runWith f s).1 (p.runWith f s).2) := by
  induction p generalizing s with
  | ret a => exact .ret a s
  | call op k ih => exact .call (hf op s) (ih (f op s).2 (f op s).1)

/-- A crash may stop the run with `f` after any number of operations. -/
theorem exec_crash_after
    (hf : ∀ op s, M.effect op s (f op s).1 (f op s).2) (p : Prog Op Reply α) (n : Nat)
    (s s' : σ) (h : M.survives (p.after f n s) s') : Exec M p s (.crashed s') := by
  induction n generalizing p s with
  | zero => exact .crash p h
  | succ n ih =>
    cases p with
    | ret a => exact .crash _ h
    | call op k => exact .call (hf op s) (ih (k (f op s).2) (f op s).1 h)

/-! ### Hoare triples with a crash condition -/

variable (M) in
/-- Started where `P` holds, `p` returns only with `Q` and stops only with `C`. -/
def Triple (P : σ → Prop) (p : Prog Op Reply α) (Q : α → σ → Prop) (C : σ → Prop) : Prop :=
  ∀ s, P s → ∀ out, Exec M p s out → out.Meets Q C

variable {P P' : σ → Prop} {Q Q' : α → σ → Prop} {C C' : σ → Prop}

theorem Triple.ret {a : α} (hQ : ∀ s, P s → Q a s)
    (hC : ∀ s s', P s → M.survives s s' → C s') : Triple M P (.ret a) Q C := by
  intro s hs out h
  rcases (exec_ret_iff a s out).1 h with rfl | ⟨s', h', rfl⟩
  · exact hQ s hs
  · exact hC s s' hs h'

/-- The rule for one operation: the precondition covers a crash before
and inside it, and every reply is continued from the states it may
leave. -/
theorem Triple.call {op : Op} {k : Reply → Prog Op Reply α}
    (hC : ∀ s s', P s → M.survives s s' → C s')
    (htorn : ∀ s s' s'', P s → M.torn op s s' → M.survives s' s'' → C s'')
    (hk : ∀ r, Triple M (fun s' => ∃ s, P s ∧ M.effect op s s' r) (k r) Q C) :
    Triple M P (.call op k) Q C := by
  intro s hs out h
  rcases (exec_call_iff op k s out).1 h with
    ⟨s', r, heff, hrest⟩ | ⟨s', h', rfl⟩ | ⟨s', s'', ht, h', rfl⟩
  · exact hk r s' ⟨s, hs, heff⟩ out hrest
  · exact hC s s' hs h'
  · exact htorn s s' s'' hs ht h'

/-- The rule for two programs in sequence. -/
theorem Triple.bind {R : β → σ → Prop} {p : Prog Op Reply β} {f : β → Prog Op Reply α}
    (hp : Triple M P p R C) (hf : ∀ b, Triple M (R b) (f b) Q C) :
    Triple M P (p >>= f) Q C := by
  intro s hs out h
  rcases (exec_bind_iff p f s out).1 h with ⟨b, s', hb, hrest⟩ | ⟨s', hcr, rfl⟩
  · exact hf b s' (hp s hs _ hb) out hrest
  · exact hp s hs _ hcr

theorem Triple.conseq (h : Triple M P p Q C) (hP : ∀ s, P' s → P s)
    (hQ : ∀ a s, Q a s → Q' a s) (hC : ∀ s, C s → C' s) : Triple M P' p Q' C' := by
  intro s hs out hex
  have hout := h s (hP s hs) out hex
  cases out with
  | done a s' => exact hQ a s' hout
  | crashed s' => exact hC s' hout

theorem Triple.and {R : σ → Prop} {T : α → σ → Prop} {D : σ → Prop}
    (h : Triple M P p Q C) (h' : Triple M R p T D) :
    Triple M (fun s => P s ∧ R s) p (fun a s => Q a s ∧ T a s) fun s => C s ∧ D s := by
  intro s hs out hex
  have hout := h s hs.1 out hex
  have hout' := h' s hs.2 out hex
  cases out with
  | done a s' => exact ⟨hout, hout'⟩
  | crashed s' => exact ⟨hout, hout'⟩

/-- What every operation and every crash keeps, every program keeps. -/
theorem Triple.invariant {I : σ → Prop} (heff : ∀ op s s' r, I s → M.effect op s s' r → I s')
    (htorn : ∀ op s s', I s → M.torn op s s' → I s') (hsurv : ∀ s s', I s → M.survives s s' → I s')
    (p : Prog Op Reply α) : Triple M I p (fun _ => I) I := by
  induction p with
  | ret a => exact .ret (fun _ hs => hs) hsurv
  | call op k ih =>
    refine .call hsurv (fun s s' s'' hs ht hsv => hsurv s' s'' (htorn op s s' hs ht) hsv)
      fun r => ?_
    refine (ih r).conseq ?_ (fun _ _ h => h) fun _ h => h
    grind

end Semantics

/-! ### Larger semantics -/

section Lift

variable {Op Op' Reply Reply' σ σ' α : Type} {M : Sem Op Reply σ} {M' : Sem Op' Reply' σ'}

/-- The semantics that keeps a list of the operations and their replies. -/
def Sem.traced (M : Sem Op Reply σ) : Sem Op Reply (σ × List (Op × Reply)) where
  effect op s s' r := M.effect op s.1 s'.1 r ∧ s'.2 = s.2 ++ [(op, r)]
  torn op s s' := M.torn op s.1 s'.1 ∧ s'.2 = s.2
  survives s s' := M.survives s.1 s'.1 ∧ s'.2 = s.2

/-- A triple of a program holds where the program is a part of a larger
one, if each of its operations does there what it does here. -/
theorem Triple.lift {f : Op → Op'} {g : Reply' → Reply} (π : σ' → σ)
    (heff : ∀ op s s' r, M'.effect (f op) s s' r → M.effect op (π s) (π s') (g r))
    (htorn : ∀ op s s', M'.torn (f op) s s' → M.torn op (π s) (π s'))
    (hsurv : ∀ s s', M'.survives s s' → M.survives (π s) (π s'))
    {P : σ → Prop} {p : Prog Op Reply α} {Q : α → σ → Prop} {C : σ → Prop}
    (h : Triple M P p Q C) :
    Triple M' (fun s => P (π s)) (p.lift f g) (fun a s => Q a (π s)) (fun s => C (π s)) := by
  induction p generalizing P with
  | ret a =>
    refine Triple.ret (fun s hs => h _ hs _ (.ret a _)) fun s s' hs hsv => ?_
    exact h _ hs _ (.crash _ (hsurv s s' hsv))
  | call op k ih =>
    refine Triple.call (fun s s' hs hsv => h _ hs _ (.crash _ (hsurv s s' hsv)))
      (fun s s' s'' hs ht hsv => h _ hs _ (.torn k (htorn op s s' ht) (hsurv s' s'' hsv)))
      fun r s' hs out hexec => ?_
    obtain ⟨s, hs, hop⟩ := hs
    -- the rest of the program, from the state that the reply leaves
    have hrest : Triple M (fun t => t = π s') (k (g r)) Q C := by
      rintro t rfl out' hout'
      exact h _ hs _ (.call (heff op s s' r hop) hout')
    exact ih (g r) hrest s' rfl out hexec

/-- A run of a program is one of its runs as a part of a larger one, if
each operation can do there what it does here and keep `I`. -/
theorem exec_lift {f : Op → Op'} {g : Reply' → Reply} {π : σ' → σ} {I : σ' → Prop}
    (heff : ∀ op s t r, I s → M.effect op (π s) t r →
      ∃ s' r', M'.effect (f op) s s' r' ∧ g r' = r ∧ π s' = t ∧ I s')
    {p : Prog Op Reply α} {s : σ'} {t : σ} {a : α} (hs : I s) (h : Exec M p (π s) (.done a t)) :
    ∃ s', Exec M' (p.lift f g) s (.done a s') ∧ π s' = t ∧ I s' := by
  induction p generalizing s with
  | ret b =>
    cases h
    exact ⟨s, .ret _ _, rfl, hs⟩
  | call op k ih =>
    cases h with
    | call hop hrest =>
      obtain ⟨s', r', hop', rfl, rfl, hs'⟩ := heff op s _ _ hs hop
      obtain ⟨s'', hexec, hπ, hs''⟩ := ih (g r') hs' hrest
      exact ⟨s'', .call hop' hexec, hπ, hs''⟩

end Lift

/-! ### Programs that stop at the first error -/

section Errors

variable {Op Reply σ ε ε' α β : Type} {M : Sem Op Reply σ}

variable {p : ExceptT ε (Prog Op Reply) α}

/-- A program goes on after a part that succeeded. -/
theorem exec_bind_ok {f : α → ExceptT ε (Prog Op Reply) β}
    {a : α} {s s' : σ} {out : Outcome σ (Except ε β)}
    (hp : Exec M p.run s (.done (.ok a) s')) (hf : Exec M (f a).run s' out) :
    Exec M (p >>= f).run s out := by
  rw [ExceptT.run_bind]
  exact (exec_bind_iff _ _ _ _).2 (.inl ⟨_, _, hp, hf⟩)

/-- Success is not changed by giving errors another text. -/
theorem exec_adapt_ok (g : ε → ε') {a : α} {s s' : σ} (hp : Exec M p.run s (.done (.ok a) s')) :
    Exec M (ExceptT.adapt g p).run s (.done (.ok a) s') :=
  (exec_bind_iff _ _ _ _).2 (.inl ⟨_, _, hp, .ret _ _⟩)

variable (M) in
/-- The triple of a program that may stop with an error: `Q` for its
value, `E` for its error, `C` for a crash. -/
def ETriple (P : σ → Prop) (p : ExceptT ε (Prog Op Reply) α) (Q : α → σ → Prop)
    (E : ε → σ → Prop) (C : σ → Prop) : Prop :=
  Triple M P p.run (fun r s => match r with | .ok a => Q a s | .error e => E e s) C

variable {P : σ → Prop} {Q : α → σ → Prop} {E : ε → σ → Prop} {C : σ → Prop}

theorem ETriple.pure {a : α} (hQ : ∀ s, P s → Q a s) (hC : ∀ s s', P s → M.survives s s' → C s') :
    ETriple M P (pure a : ExceptT ε (Prog Op Reply) α) Q E C :=
  Triple.ret hQ hC

theorem ETriple.throw {e : ε} (hE : ∀ s, P s → E e s) (hC : ∀ s s', P s → M.survives s s' → C s') :
    ETriple M P (throw e : ExceptT ε (Prog Op Reply) α) Q E C :=
  Triple.ret hE hC

/-- The rule for two parts in sequence: an error of the first part is
the error of the whole. -/
theorem ETriple.bind {R : β → σ → Prop} {p : ExceptT ε (Prog Op Reply) β}
    {f : β → ExceptT ε (Prog Op Reply) α} (hp : ETriple M P p R E C)
    (hf : ∀ b, ETriple M (R b) (f b) Q E C) : ETriple M P (p >>= f) Q E C := by
  intro s hs out h
  rw [ExceptT.run_bind, exec_bind_iff] at h
  rcases h with ⟨r, s', hr, hrest⟩ | ⟨s', hcr, rfl⟩
  · have hmeets := hp s hs _ hr
    cases r with
    | ok b => exact hf b s' hmeets out hrest
    | error e =>
      rcases (exec_ret_iff _ _ _).1 hrest with rfl | ⟨s'', hsurv, rfl⟩
      · exact hmeets
      · exact hp s hs _ (hr.crash_of_done hsurv)
  · exact hp s hs _ hcr

/-- The rule for one operation, whatever is made of its reply. -/
theorem ETriple.call {op : Op} {k : Reply → Except ε α} {R : Reply → σ → Prop}
    (hC : ∀ s s', P s → M.survives s s' → C s')
    (htorn : ∀ s s' s'', P s → M.torn op s s' → M.survives s' s'' → C s'')
    (heff : ∀ s s' r, P s → M.effect op s s' r → R r s')
    (hR : ∀ r s, R r s → match k r with | .ok a => Q a s | .error e => E e s)
    (hRC : ∀ r s s', R r s → M.survives s s' → C s') :
    ETriple M P (ExceptT.mk (.call op fun r => .ret (k r))) Q E C := by
  refine Triple.call hC htorn fun r => ?_
  rintro s' ⟨s, hs, hop⟩ out hexec
  have hr := heff s s' r hs hop
  rcases (exec_ret_iff _ _ _).1 hexec with rfl | ⟨s'', hsurv, rfl⟩
  · exact hR r s' hr
  · exact hRC r s' s'' hr hsurv

/-- The rule for a program whose error is looked at. -/
theorem ETriple.attempt {R : Except ε α → σ → Prop}
    {E' : ε' → σ → Prop} (h : ETriple M P p (fun a => R (.ok a)) (fun e => R (.error e)) C) :
    ETriple M P (ExceptT.mk (p.run >>= fun r => .ret (.ok r)) : ExceptT ε' (Prog Op Reply) _)
      R E' C := by
  intro s hs out hexec
  rcases (exec_bind_iff _ _ _ _).1 hexec with ⟨r, s', hr, hrest⟩ | ⟨s', hcr, rfl⟩
  · have hmeets : R r s' := by
      have hr' := h s hs _ hr
      cases r <;> exact hr'
    rcases (exec_ret_iff _ _ _).1 hrest with rfl | ⟨s'', hsurv, rfl⟩
    · exact hmeets
    · exact h s hs _ (hr.crash_of_done hsurv)
  · exact h s hs _ hcr

theorem ETriple.conseq {P' C' : σ → Prop}
    {Q' : α → σ → Prop} {E' : ε → σ → Prop} (h : ETriple M P p Q E C) (hP : ∀ s, P' s → P s)
    (hQ : ∀ a s, Q a s → Q' a s) (hE : ∀ e s, E e s → E' e s) (hC : ∀ s, C s → C' s) :
    ETriple M P' p Q' E' C' := by
  refine Triple.conseq h hP (fun r s hr => ?_) hC
  grind

/-- The rule for giving errors another text. -/
theorem ETriple.adapt (g : ε → ε') {E' : ε' → σ → Prop}
    (h : ETriple M P p Q (fun e => E' (g e)) C) : ETriple M P (ExceptT.adapt g p) Q E' C := by
  intro s hs out hexec
  rcases (exec_bind_iff _ _ _ _).1 hexec with ⟨r, s', hr, hrest⟩ | ⟨s', hcr, rfl⟩
  · have hmeets := h s hs _ hr
    rcases (exec_ret_iff _ _ _).1 hrest with rfl | ⟨s'', hsurv, rfl⟩
    · cases r with
      | ok a => exact hmeets
      | error e => exact hmeets
    · exact h s hs _ (hr.crash_of_done hsurv)
  · exact h s hs _ hcr

end Errors

end Durable
