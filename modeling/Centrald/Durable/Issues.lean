import Centrald.Durable.Prog

/-!
# `Durable.Issues`: what a program has done before it issues an operation

Sometimes a program is safe because it asks before it acts. What matters
is then not the state it leaves but the replies it has had when it
issues an operation. `Prog.Issues can R Q p h` says this of the program
`p` with the history `h` of operations and replies: whatever replies in
`can` come, each operation is issued with a history in `R`, and each
result is returned with a history in `Q`.

`Prog.Issues` is a recursion on the program, so a proof of it follows
the program. `Prog.Issues.of_exec` reads it off the traced runs, in
which the state may change in any way between the operations.
-/

set_option autoImplicit false

namespace Durable

variable {Op Reply α β ε : Type}

/-- The operations so far, with their replies. -/
abbrev History (Op Reply : Type) := List (Op × Reply)

variable {can : Op → Reply → Prop} {R : History Op Reply → Op → Prop}

/-- Every operation is issued with a history in `R`, and every result is
returned with one in `Q`. -/
def Prog.Issues (can : Op → Reply → Prop) (R : History Op Reply → Op → Prop)
    (Q : α → History Op Reply → Prop) : Prog Op Reply α → History Op Reply → Prop
  | .ret a, h => Q a h
  | .call op k, h => R h op ∧ ∀ r, can op r → (k r).Issues can R Q (h ++ [(op, r)])

/-- A traced run only adds to the history. -/
theorem exec_traced_append {σ : Type} {M : Sem Op Reply σ} {p : Prog Op Reply α} {s : σ}
    {h : History Op Reply} {out : Outcome (σ × History Op Reply) α}
    (hexec : Exec M.traced p (s, h) out) : ∃ more, out.state.2 = h ++ more := by
  induction p generalizing s h with
  | ret a =>
    rcases (exec_ret_iff _ _ _).1 hexec with rfl | ⟨⟨t, ht⟩, ⟨-, htrace⟩, rfl⟩
    · exact ⟨[], (List.append_nil h).symm⟩
    · exact ⟨[], htrace.trans (List.append_nil h).symm⟩
  | call op k ih =>
    rcases (exec_call_iff _ _ _ _).1 hexec with
      ⟨⟨s', h'⟩, r', ⟨hop, htrace⟩, hrest⟩ | ⟨⟨t, ht⟩, ⟨-, htrace⟩, rfl⟩ |
        ⟨⟨t, ht⟩, ⟨u, hu⟩, ⟨-, htorn⟩, ⟨-, htrace⟩, rfl⟩
    · simp only at htrace
      subst htrace
      obtain ⟨more, hmore⟩ := ih r' hrest
      refine ⟨(op, r') :: more, ?_⟩
      rw [hmore, List.append_assoc]
      rfl
    · exact ⟨[], htrace.trans (List.append_nil h).symm⟩
    · exact ⟨[], (htrace.trans htorn).trans (List.append_nil h).symm⟩

namespace Prog.Issues

variable {Q Q' : α → History Op Reply → Prop} {p : Prog Op Reply α} {h : History Op Reply}

theorem imp (hp : p.Issues can R Q h) (hQ : ∀ a h', Q a h' → Q' a h') : p.Issues can R Q' h := by
  induction p generalizing h with
  | ret a => exact hQ a h hp
  | call op k ih => exact ⟨hp.1, fun r hr => ih r (hp.2 r hr)⟩

/-- The second program starts with the history of the first. -/
theorem bind {T : β → History Op Reply → Prop} {f : α → Prog Op Reply β}
    (hp : p.Issues can R Q h) (hf : ∀ a h', Q a h' → (f a).Issues can R T h') :
    (p >>= f).Issues can R T h := by
  induction p generalizing h with
  | ret a => exact hf a h hp
  | call op k ih => exact ⟨hp.1, fun r hr => ih r (hp.2 r hr)⟩

/-- In a traced run every operation was issued with a history in `R`. -/
theorem of_exec {σ : Type} {M : Sem Op Reply σ} {I : σ → Prop} {s : σ}
    {out : Outcome (σ × History Op Reply) α} (hp : p.Issues can R Q h)
    (heff : ∀ op s s' r, I s → M.effect op s s' r → can op r ∧ I s') (hs : I s)
    (hexec : Exec M.traced p (s, h) out) {before after : History Op Reply} {op : Op} {r : Reply}
    (hsplit : out.state.2 = before ++ (op, r) :: after) (hlater : h.length ≤ before.length) :
    R before op ∧ can op r := by
  induction p generalizing s h with
  | ret a =>
    -- nothing is issued any more, so the history is not longer than `h`
    have hsame : out.state.2 = h := by
      rcases (exec_ret_iff _ _ _).1 hexec with rfl | ⟨⟨t, ht⟩, ⟨-, htrace⟩, rfl⟩
      · rfl
      · exact htrace
    grind
  | call op' k ih =>
    rcases (exec_call_iff _ _ _ _).1 hexec with
      ⟨⟨s', h'⟩, r', ⟨hop, htrace⟩, hrest⟩ | ⟨⟨t, ht⟩, ⟨-, htrace⟩, rfl⟩ |
        ⟨⟨t, ht⟩, ⟨u, hu⟩, ⟨-, htorn⟩, ⟨-, htrace⟩, rfl⟩
    · obtain ⟨hcan, hs'⟩ := heff op' s s' r' hs hop
      simp only at htrace
      subst htrace
      by_cases hlen : (h ++ [(op', r')]).length ≤ before.length
      · exact ih r' (hp.2 r' hcan) hs' hrest hlen
      · -- the operation in question is the one issued now
        obtain ⟨more, hmore⟩ := exec_traced_append hrest
        rw [hsplit, List.append_assoc] at hmore
        have hbefore : before = h ∧ (op, r) :: after = [(op', r')] ++ more := by
          refine List.append_inj hmore ?_
          grind
        obtain ⟨rfl, hcons⟩ := hbefore
        cases hcons
        exact ⟨hp.1, hcan⟩
    · simp only [Outcome.state] at hsplit htrace
      grind
    · simp only [Outcome.state] at hsplit htrace htorn
      grind

end Prog.Issues

end Durable
