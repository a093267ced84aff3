import Centrald.Durable.Undisturbed

/-!
# `Durable.ProcessCrash`: file programs that only a dying process disturbs

Under `crashSem` every operation succeeds when it can, files are their
bytes, and the process may die before, after or inside any operation. A
program then has one undisturbed run from each state. `RunsTo s p r s' C`
says that this run of `p` from `s` returns `r` in `s'` and that every
state a crash leaves on the way is in `C`. The rules are those of
`Durable.Undisturbed` for a crash that loses nothing.
-/

set_option autoImplicit false

namespace Durable

variable {ν ε α β : Type} [DecidableEq ν]

/-- Process crashes and nothing else. -/
def crashSem (ν : Type) [DecidableEq ν] : Sem (FileOp ν) FileReply (Fs ν Bytes) :=
  fileSem (fun _ => False) fun s s' => s' = s

/-- From `s`, the program `p` returns `r` in `s'`, and crashes on the way
leave states in `C`. -/
def RunsTo (s : Fs ν Bytes) (p : FileM ε ν α) (r : Except ε α) (s' : Fs ν Bytes)
    (C : Fs ν Bytes → Prop) : Prop :=
  Triple (crashSem ν) (fun t => t = s) p.run (fun r' t => r' = r ∧ t = s') C

namespace RunsTo

variable {s s' s'' : Fs ν Bytes} {p : FileM ε ν α} {f : α → FileM ε ν β}
  {C : Fs ν Bytes → Prop}

/-- The result of a run that ends. -/
theorem done {r r' : Except ε α} {t : Fs ν Bytes} (h : RunsTo s p r s' C)
    (hexec : Exec (crashSem ν) p.run s (.done r' t)) : r' = r ∧ t = s' :=
  Undisturbed.done h hexec

/-- The state of a run that stops. -/
theorem crashed {r : Except ε α} {t : Fs ν Bytes} (h : RunsTo s p r s' C)
    (hexec : Exec (crashSem ν) p.run s (.crashed t)) : C t :=
  Undisturbed.crashed h hexec

omit [DecidableEq ν] in
/-- A crash leaves the files as they are. -/
private theorem of_same (hC : C s) (t : Fs ν Bytes) (h : t = s) : C t := h ▸ hC

theorem pure {a : α} (hC : C s) : RunsTo s (pure a : FileM ε ν α) (.ok a) s C :=
  Undisturbed.pure (of_same hC)

theorem throw {e : ε} (hC : C s) : RunsTo s (throw e : FileM ε ν α) (.error e) s C :=
  Undisturbed.throw (of_same hC)

/-- A part that succeeds, and the rest. -/
theorem bind {a : α} {r : Except ε β} (hp : RunsTo s p (.ok a) s' C)
    (hf : RunsTo s' (f a) r s'' C) : RunsTo s (p >>= f) r s'' C :=
  Undisturbed.bind hp hf

/-- A part that fails ends the program. -/
theorem bind_error {e : ε} (hp : RunsTo s p (.error e) s' C) : RunsTo s (p >>= f) (.error e) s' C :=
  Undisturbed.bind_error hp

theorem attempt {op : FileOp ν} {r : FileReply} (hrun : op.run s = (s', r)) (hC : C s)
    (hC' : C s') (htorn : ∀ t, op.Partly s t → C t) :
    RunsTo s (FileM.attempt op : FileM ε ν FileReply) (.ok r) s' C :=
  Undisturbed.attempt hrun (of_same hC) (of_same hC') fun t t' ht h => of_same (htorn t ht) t' h

theorem act {op : FileOp ν} {e : ε} (hrun : op.run s = (s', .done)) (hC : C s) (hC' : C s')
    (htorn : ∀ t, op.Partly s t → C t) : RunsTo s (FileM.act op e) (.ok ()) s' C :=
  Undisturbed.act hrun (of_same hC) (of_same hC') fun t t' ht h => of_same (htorn t ht) t' h

theorem stat {x : ν} (hC : C s) : RunsTo s (FileM.stat x : FileM ε ν Bool) (.ok (s x).isSome) s C :=
  Undisturbed.stat (of_same hC)

theorem read {x : ν} {e : ε} {bytes : Bytes} (hx : s x = some bytes) (hC : C s) :
    RunsTo s (FileM.read x e) (.ok bytes) s C :=
  Undisturbed.read hx (of_same hC)

end RunsTo

/-- Undisturbed, `p` answers `r` from `s`. -/
def Returns (s : Fs ν Bytes) (p : FileM ε ν α) (r : Except ε α) : Prop :=
  ∃ s', RunsTo s p r s' fun _ => True

/-- The answer of a program can be evaluated. -/
theorem returns_of_runWith {s : Fs ν Bytes} {p : FileM ε ν α} {r : Except ε α}
    (h : (p.run.runWith FileOp.run s).1 = r) : Returns s p r := by
  refine ⟨(p.run.runWith FileOp.run s).2, ?_⟩
  subst h
  intro t ht out hexec
  subst ht
  cases out with
  | crashed t' => trivial
  | done r' t' =>
    show r' = _ ∧ t' = _
    -- along the program, every reply is the one of `FileOp.run`
    generalize p.run = q at *
    induction q generalizing t with
    | ret a =>
      cases hexec
      exact ⟨rfl, rfl⟩
    | call op k ih =>
      cases hexec with
      | call heff hrest =>
        rcases heff with hrun | ⟨hfalse, -⟩
        · have hr := ih _ _ hrest
          simp only [Prog.runWith, hrun]
          exact hr
        · exact hfalse.elim

end Durable
