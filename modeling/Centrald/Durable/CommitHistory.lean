import Centrald.Durable.RelyGuarantee

/-!
# `Durable.CommitHistory`: what follows from the commits of a run

`Durable.RelyGuarantee` shows that every commit meets the condition of its
call. Here are the rules that make statements about whole runs of it.

`reaches_induction` is the induction over a run, with one case for the
steps that commit nothing and one for a commit. `reaches_invariant` is
the case where the clock, the committed rows and the commits decide.
`reaches_since` is for "once this was committed, never again that".

Two facts do not depend on the calls. A row that was deleted does not
come back, since its key is not inserted again (`Deleted.step`). A lock
that is taken later is later (`LockedSince.step`). `CellStep` lists what
a step can do to a row, and both come from it.

A call whose last step is its commit leaves the committed rows alone
until it has succeeded (`reaches_unchangedBy`).
-/

set_option autoImplicit false

namespace Durable

open Function

variable {κ : Type} {ρ : κ → Type} {C ε α : Type} [DecidableEq κ] {body : C → Sql ρ ε α}
  {s s' : Db ρ C ε α} {l : DbLabel C} {t u : Nat} {th : Thread ρ C ε α} {k : κ}

/-! ### What a step does to a row -/

/-- The row of the key `k` after a step from `s`. -/
inductive CellStep (s : Db ρ C ε α) (k : κ) : Cell (ρ k) → Prop where
  | same : CellStep s k (s.store.cells k)
  | release (t : Nat) : CellStep s k ((s.store.cells k).release t)
  | publish (t : Nat) : CellStep s k ((s.store.cells k).publish t)
  | write (t : Nat) (set : ρ k → Option (ρ k)) :
      CellStep s k ((s.store.cells k).write t s.clock set)
  | insert (t : Nat) (row : ρ k) (hk : k ∉ s.store.index) :
      CellStep s k ⟨none, some ⟨t, s.clock, some row⟩⟩

/-- What one step of the store may do to one row. -/
theorem cellStep_of_step (hstep : (readCommitted body).step s l = some s') (k : κ) :
    CellStep s k (s'.store.cells k) := by
  rcases Db.step_cases hstep with ⟨d, rfl, rfl⟩ | ⟨t, c, rfl, -, rfl⟩ |
    ⟨t, th, rfl, hth, hrun⟩ | ⟨t, rfl, rfl⟩
  · exact .same
  · exact .same
  · have hrun := Db.runStep_of_runThread hrun rfl
    generalize s'.threads t = o at hrun
    cases hrun with
    | ends => exact .release t
    | goesOn => exact .same
    | takes =>
      show CellStep s k (if k ∈ _ then _ else _)
      split
      · exact .write t _
      · exact .same
    | @inserts k' row _ _ hk' =>
      by_cases hk : k = k'
      · subst hk
        show CellStep s k (update s.store.cells k _ k)
        rw [update_self]
        exact .insert t row hk'
      · show CellStep s k (update s.store.cells k' _ k)
        rw [update_of_ne hk]
        exact .same
    | commits => exact .publish t
  · exact .release t

/-- A row stays in the index once it is there. -/
theorem index_step (hstep : (readCommitted body).step s l = some s') (hk : k ∈ s.store.index) :
    k ∈ s'.store.index := by
  rcases Db.step_cases hstep with ⟨d, rfl, rfl⟩ | ⟨t, c, rfl, -, rfl⟩ |
    ⟨t, th, rfl, hth, hrun⟩ | ⟨t, rfl, rfl⟩
  · exact hk
  · exact hk
  · have hrun := Db.runStep_of_runThread hrun rfl
    generalize s'.threads t = o at hrun
    cases hrun with
    | inserts => exact List.mem_cons_of_mem _ hk
    | _ => exact hk
  · exact hk

omit [DecidableEq κ] in
/-- The row of the key was deleted. -/
def Deleted (s : Db ρ C ε α) (k : κ) : Prop := k ∈ s.store.index ∧ s.store.cells k = ⟨none, none⟩

/-- A deleted row does not come back. -/
theorem Deleted.step (h : Deleted s k) (hstep : (readCommitted body).step s l = some s') :
    Deleted s' k := by
  refine ⟨index_step hstep h.1, ?_⟩
  have hcell := cellStep_of_step hstep k
  generalize s'.store.cells k = c at hcell ⊢
  cases hcell with
  | same => exact h.2
  | release | publish | write =>
    rw [h.2]
    rfl
  | insert _ _ hk => exact absurd h.1 hk

omit [DecidableEq κ] in
/-- A commit that deletes a row. -/
theorem deleted_commit {now : Int} {next : Sql ρ ε α} (hrow : s.store.view t k = none)
    (hne : s.store.committed k ≠ none) : Deleted (s.commit t th now next) k := by
  have hheld : (s.store.held t k).isSome := by
    cases hheld : s.store.held t k with
    | none =>
      unfold Store.view Cell.view at hrow
      rw [show (s.store.cells k).held t = none from hheld] at hrow
      exact absurd hrow hne
    | some v => rfl
  constructor
  · by_contra hk
    rw [Store.held, s.store.covers k hk] at hheld
    cases hheld
  · have hlock : (s.store.cells k).lockable t := by
      unfold Store.held Cell.held at hheld
      unfold Cell.lockable
      grind
    show Cell.publish _ _ = _
    unfold Cell.publish
    rw [show (s.store.cells k).view t = none from hrow, if_pos hlock]

omit [DecidableEq κ] in
/-- It is `T` or later, and a lock on the row was taken at `T` or later. -/
structure LockedSince (T : Int) (s : Db ρ C ε α) (k : κ) : Prop where
  clock : T ≤ s.clock
  lock : ∀ l ∈ (s.store.cells k).lock, T ≤ l.since

omit [DecidableEq κ] in
theorem LockedSince.held {T : Int} (h : LockedSince T s k) {v : Version (ρ k)}
    (hv : s.store.held t k = some v) : T ≤ v.since := by
  unfold Store.held Cell.held at hv
  split at hv
  · rename_i l hl
    split_ifs at hv
    cases hv
    exact h.lock l hl
  · cases hv

theorem clock_le_of_step (hstep : (readCommitted body).step s l = some s') :
    s.clock ≤ s'.clock := by
  rcases Db.step_cases hstep with ⟨d, rfl, rfl⟩ | ⟨t, c, rfl, -, rfl⟩ |
    ⟨t, th, rfl, hth, hrun⟩ | ⟨t, rfl, rfl⟩
  · exact Int.le_add_of_nonneg_right (Int.natCast_nonneg d)
  · exact le_rfl
  · rcases Db.runThread_cases hrun with hq | ⟨now, next, -, -, rfl⟩
    · exact le_of_eq hq.clock.symm
    · exact le_rfl
  · exact le_rfl

/-- What is locked later is locked later. -/
theorem LockedSince.step {T : Int} (h : LockedSince T s k)
    (hstep : (readCommitted body).step s l = some s') : LockedSince T s' k := by
  refine ⟨le_trans h.clock (clock_le_of_step hstep), ?_⟩
  have hcell := cellStep_of_step hstep k
  generalize s'.store.cells k = c at hcell ⊢
  cases hcell with
  | same => exact h.lock
  | release t | publish t =>
    intro l hl
    dsimp only [Cell.release, Cell.publish] at hl
    split_ifs at hl with hlock
    · cases hl
    · exact h.lock l hl
  | write t set =>
    intro l hl
    unfold Cell.write at hl
    split at hl
    · cases hl
      dsimp only
      cases hheld : (s.store.cells k).held t with
      | none => exact h.clock
      | some v => exact h.held hheld
    · exact h.lock l hl
  | insert =>
    intro l hl
    cases hl
    exact h.clock

/-! ### Rules for runs -/

section Rules

variable {rely : C → Nat → Held ρ → Rows ρ → Rows ρ → Prop} {post : C → Int → Local ρ → Prop}
  {G : Db ρ C ε α → DbLabel C → Prop} {s0 : Db ρ C ε α}

omit [DecidableEq κ] in
/-- What is recorded when call `t` commits. -/
def Db.record (s : Db ρ C ε α) (t : Nat) (th : Thread ρ C ε α) (now : Int) : Commit ρ C :=
  ⟨th.call, now, s.clock, s.store.committed, s.store.view t⟩

section

variable (P : Protocol body rely post) (hG : Guarantees rely post G) (h0 : ThreadsSafe rely post s0)
include P hG h0

/-- What the start has, quiet steps keep and every commit that meets its
condition keeps, holds in all runs. -/
theorem reaches_induction {I : Db ρ C ε α → Prop} (hstart : I s0)
    (hquiet : ∀ s l s', (readCommitted body).step s l = some s' →
      s'.store.committed = s.store.committed → s'.commits = s.commits → I s → I s')
    (hcommit : ∀ s t th now next,
      (readCommitted body).step s (.run t) = some (s.commit t th now next) →
      post th.call now (s.localOf t th) → I s → I (s.commit t th now next))
    (h : (readCommitted body).Reaches G s0 s) : I s := by
  refine (h.invariant (I := fun s => ThreadsSafe rely post s ∧ I s) ⟨h0, hstart⟩ ?_).2
  rintro s l s' ⟨hs, hI⟩ hg hstep
  refine ⟨hs.step P hG hg hstep, ?_⟩
  have hq : ∀ t, Db.Quiet t s s' → I s' := fun t hq =>
    hquiet s l s' hstep hq.committed hq.commits hI
  rcases Db.step_cases hstep with ⟨d, rfl, rfl⟩ | ⟨t, c, rfl, -, rfl⟩ |
    ⟨t, th, rfl, hth, hrun⟩ | ⟨t, rfl, rfl⟩
  · exact hquiet s _ _ hstep rfl rfl hI
  · exact hq t (Db.quiet_set _)
  · rcases Db.runThread_cases hrun with hquiet' | ⟨now, next, hprog, hnow, rfl⟩
    · exact hq t hquiet'
    · exact hcommit s t th now next hstep ((hs.safe t th hth).at_commit P hnow hprog) hI
  · exact hq t Db.quiet_finish

/-- The rule for what the clock, the committed rows and the commits
decide. -/
theorem reaches_invariant {I : Int → Rows ρ → List (Commit ρ C) → Prop}
    (hstart : I s0.clock s0.store.committed s0.commits)
    (htick : ∀ clock clock' rows commits, clock ≤ clock' → I clock rows commits →
      I clock' rows commits)
    (hcommit : ∀ c now L commits, post c now L → I L.clock L.rows commits →
      I L.clock L.view (commits ++ [⟨c, now, L.clock, L.rows, L.view⟩]))
    (h : (readCommitted body).Reaches G s0 s) : I s.clock s.store.committed s.commits := by
  refine reaches_induction P hG h0 (I := fun s => I s.clock s.store.committed s.commits) hstart
    ?_ ?_ h
  · intro s l s' hstep hrows hcommits hI
    rw [hrows, hcommits]
    exact htick _ _ _ _ (clock_le_of_step hstep) hI
  · intro s t th now next _ hpost hI
    exact hcommit th.call now (s.localOf t th) s.commits hpost hI

/-- Every commit of a run met the condition of its call. -/
theorem reaches_commits (hnone : s0.commits = []) (h : (readCommitted body).Reaches G s0 s) :
    ∀ e ∈ s.commits, ∃ L, post e.call e.started L ∧
      e.time = L.clock ∧ e.before = L.rows ∧ e.after = L.view := by
  refine reaches_invariant P hG h0 (I := fun _ _ commits => ∀ e ∈ commits, ∃ L,
    post e.call e.started L ∧ e.time = L.clock ∧ e.before = L.rows ∧ e.after = L.view)
    ?_ (fun _ _ _ _ _ hI => hI) ?_ h
  · grind
  · grind

end

/-- A record is the last one, or comes before it. -/
theorem concat_eq_append_cons {γ : Type} {xs before after : List γ} {x e : γ}
    (h : xs ++ [x] = before ++ e :: after) :
    (e = x ∧ after = []) ∨ ∃ after', after = after' ++ [x] ∧ xs = before ++ e :: after' := by
  rcases List.eq_nil_or_concat after with rfl | ⟨after', y, rfl⟩
  · obtain ⟨-, hx⟩ := List.append_inj' h rfl
    exact .inl ⟨(List.cons.inj hx).1.symm, rfl⟩
  · rw [List.concat_eq_append] at h ⊢
    rw [← List.cons_append, ← List.append_assoc] at h
    obtain ⟨hxs, hx⟩ := List.append_inj' h rfl
    exact .inr ⟨after', by rw [(List.cons.inj hx).1], hxs⟩

/-- Once `E` was committed, `Q` holds, and every later commit has `R`. -/
theorem reaches_since (P : Protocol body rely post) (hG : Guarantees rely post G)
    (h0 : ThreadsSafe rely post s0) (hnone : s0.commits = []) {E R : Commit ρ C → Prop}
    {Q : Db ρ C ε α → Prop}
    (hquiet : ∀ s l s', (readCommitted body).step s l = some s' →
      s'.store.committed = s.store.committed → Q s → Q s')
    (hbegin : ∀ (s : Db ρ C ε α) t th now next, E (s.record t th now) → Q (s.commit t th now next))
    (hkeep : ∀ s t th now next,
      (readCommitted body).step s (.run t) = some (s.commit t th now next) →
      post th.call now (s.localOf t th) → Q s →
      Q (s.commit t th now next) ∧ R (s.record t th now))
    (h : (readCommitted body).Reaches G s0 s) {before after : List (Commit ρ C)} {e : Commit ρ C}
    (hs : s.commits = before ++ e :: after) (he : E e) : Q s ∧ ∀ e' ∈ after, R e' := by
  refine reaches_induction P hG h0 (I := fun s => ∀ before e after,
    s.commits = before ++ e :: after → E e → Q s ∧ ∀ e' ∈ after, R e') ?_ ?_ ?_ h
    before e after hs he
  · intro before e after hs
    rw [hnone] at hs
    exact absurd hs (by simp)
  · intro s l s' hstep hrows hcommits hI before e after hs he
    obtain ⟨hQ, hR⟩ := hI before e after (hcommits ▸ hs) he
    exact ⟨hquiet s l s' hstep hrows hQ, hR⟩
  · intro s t th now next hstep hpost hI before e after hs he
    rcases concat_eq_append_cons hs with ⟨rfl, rfl⟩ | ⟨after', rfl, hs'⟩
    · exact ⟨hbegin s t th now next he, List.forall_mem_nil _⟩
    · obtain ⟨hQ, hR⟩ := hI before e after' hs' he
      obtain ⟨hQ', hR'⟩ := hkeep s t th now next hstep hpost hQ
      exact ⟨hQ', List.forall_mem_append.2 ⟨hR, List.forall_mem_singleton.2 hR'⟩⟩

end Rules

/-! ### The steps of one call -/

/-- The steps of others and the passing of time leave a call where it
stands, with its locks. -/
theorem step_other (hstep : (readCommitted body).step s l = some s') (hcall : ∀ c, l ≠ .call t c)
    (hrun : l ≠ .run t) (habort : l ≠ .abort t) :
    s'.threads t = s.threads t ∧ s'.store.held t = s.store.held t := by
  have hquiet : ∀ u, t ≠ u → Db.Quiet u s s' →
      s'.threads t = s.threads t ∧ s'.store.held t = s.store.held t :=
    fun u hu hq => ⟨hq.threads t hu, hq.held t hu⟩
  rcases Db.step_cases hstep with ⟨d, rfl, rfl⟩ | ⟨u, c, rfl, -, rfl⟩ |
    ⟨u, th, rfl, hth, hu⟩ | ⟨u, rfl, rfl⟩
  · exact ⟨rfl, rfl⟩
  · exact hquiet u (fun h => hcall c (h ▸ rfl)) (Db.quiet_set _)
  · have hne : t ≠ u := fun h => hrun (h ▸ rfl)
    rcases Db.runThread_cases hu with hq | ⟨now, next, -, -, rfl⟩
    · exact hquiet u hne hq
    · refine ⟨update_of_ne hne _ _, funext fun k => ?_⟩
      exact ((s.store.cells k).held_publish).trans (if_neg hne)
  · exact hquiet u (fun h => habort (h ▸ rfl)) Db.quiet_finish

/-- A call stays the same call, and it only adds to its statements. -/
theorem phase_le_of_run {th' : Thread ρ C ε α} (hrun : s.runThread t th = some s')
    (hth' : s'.threads t = some th') : th'.call = th.call ∧ th.phase ≤ th'.phase := by
  cases Db.runStep_of_runThread hrun hth' with
  | goesOn hgoes =>
    cases hgoes with
    | utcNow | begins | finds => exact ⟨rfl, Nat.le_refl _⟩
    | selects | occupied => exact ⟨rfl, Nat.le_succ _⟩
  | takes | inserts => exact ⟨rfl, Nat.le_succ _⟩
  | commits => exact ⟨rfl, Nat.le_refl _⟩

/-! ### Calls that do not succeed -/

omit [DecidableEq κ] in
/-- Nothing comes after the commit. -/
def Sql.CommitsLast : Sql ρ ε α → Prop
  | .ret _ | .fail _ => True
  | .utcNow next => ∀ now, (next now).CommitsLast
  | .begin next => next.CommitsLast
  | .select next => ∀ now s, (next now s).CommitsLast
  | .modify _ next => ∀ ks rows, (next ks rows).CommitsLast
  | .insert _ _ next => ∀ b, (next b).CommitsLast
  | .commit next => ∃ a, next = .ret a

/-- A program that ends after its commit still does after a statement. -/
theorem commitsLast_run {th' : Thread ρ C ε α} (h : th.prog.CommitsLast)
    (hrun : s.runThread t th = some s') (hth' : s'.threads t = some th') :
    th'.prog.CommitsLast := by
  cases Db.runStep_of_runThread hrun hth' with
  | goesOn hgoes =>
    cases hgoes with
    | finds => exact h
    | utcNow hprog | begins hprog | selects hprog | occupied hprog =>
      rw [hprog] at h
      exact h ..
  | takes hprog | inserts hprog =>
    rw [hprog] at h
    exact h ..
  | commits hprog =>
    rw [hprog] at h
    obtain ⟨a, rfl⟩ := h
    trivial

variable (body) in
/-- A run in which call `t` goes on from `s` to `s'` and does not change
the committed rows. -/
def UnchangedBy (t : Nat) : Db ρ C ε α → Db ρ C ε α → Prop :=
  (readCommitted body).Reaches fun s l => (∀ c, l ≠ .call t c) ∧
    (l = .run t → ∀ s', (readCommitted body).step s l = some s' →
      s'.store.committed = s.store.committed)

/-- As long as a call has not succeeded, it has changed nothing. -/
theorem reaches_unchangedBy {s1 : Db ρ C ε α} {th1 : Thread ρ C ε α}
    (hth1 : s1.threads t = some th1) (hlast : th1.prog.CommitsLast)
    (h : (readCommitted body).Reaches (fun _ l => ∀ c, l ≠ .call t c) s1 s)
    (hth : s.threads t = some th) (hfail : ∀ a, th.prog ≠ .ret a) : UnchangedBy body t s1 s := by
  have hinv : ∀ th, s.threads t = some th → th.prog.CommitsLast ∧
      ((∃ a, th.prog = .ret a) ∨ UnchangedBy body t s1 s) := by
    refine h.invariant (I := fun s => ∀ th, s.threads t = some th → th.prog.CommitsLast ∧
      ((∃ a, th.prog = .ret a) ∨ UnchangedBy body t s1 s)) ?_ ?_
    · intro th hth
      cases hth1.symm.trans hth
      exact ⟨hlast, .inr .refl⟩
    · intro s l s' hI hguard hstep
      by_cases hrun : l = .run t
      · subst hrun
        intro th' hth'
        rcases Db.step_cases hstep with ⟨d, hl, -⟩ | ⟨u, c, hl, -⟩ | ⟨u, th, hl, hth, hrun⟩ |
          ⟨u, hl, -⟩ <;> cases hl
        obtain ⟨hlast, hdone⟩ := hI th hth
        refine ⟨commitsLast_run hlast hrun hth', ?_⟩
        rcases Db.runThread_cases hrun with hq | ⟨now, next, hprog, -, rfl⟩
        · rcases hdone with ⟨a, ha⟩ | hr
          · -- it has returned
            unfold Db.runThread at hrun
            rw [ha] at hrun
            cases hrun
            cases (update_self t _ s.threads).symm.trans hth'
          · refine .inr (hr.tail ⟨hguard, fun _ s'' hs'' => ?_⟩ hstep)
            cases hstep.symm.trans hs''
            exact hq.committed
        · rw [hprog] at hlast
          obtain ⟨a, rfl⟩ := hlast
          cases (update_self t _ s.threads).symm.trans hth'
          exact .inl ⟨a, rfl⟩
      by_cases habort : l = .abort t
      · subst habort
        intro th' hth'
        rcases Db.step_cases hstep with ⟨d, hl, -⟩ | ⟨u, c, hl, -⟩ | ⟨u, th, hl, -⟩ |
          ⟨u, hl, rfl⟩ <;> cases hl
        cases (update_self t _ s.threads).symm.trans hth'
      · intro th' hth'
        rw [(step_other hstep hguard hrun habort).1] at hth'
        obtain ⟨hlast, hdone⟩ := hI th' hth'
        exact ⟨hlast, hdone.imp_right fun hr =>
          hr.tail ⟨hguard, fun heq => absurd heq hrun⟩ hstep⟩
  exact (hinv th hth).2.resolve_left fun ⟨a, ha⟩ => hfail a ha

end Durable
