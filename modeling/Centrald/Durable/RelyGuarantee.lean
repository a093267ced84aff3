import Centrald.Durable.ReadCommitted

/-!
# `Durable.RelyGuarantee`: what a transaction can count on

`Sql.Safe rely post p L` says what every run of the call `p` commits,
whatever the other calls do between its steps. The call knows its own
locks, the committed rows, the clock and when its transaction began
(`Local`). Between two of its steps the clock moves on and others
commit. The rows that it has locked stay as they are, and what else it
may count on is the relation `rely`. At each commit of `p` the condition
`post` holds.

`Safe` is a recursion on the program, so a proof of it walks through the
call statement by statement. `reaches_threadsSafe` puts the calls
together: if each body is safe, and each commit gives the other calls
what they rely on, then every call stays safe in every run.
`reaches_invariant` then reduces what holds in all runs to what the
commits keep.
-/

set_option autoImplicit false

namespace Durable

open Function

variable {κ : Type} {ρ : κ → Type} {C ε α β : Type}

/-- What a call knows: its locked rows, the committed rows, the clock,
when its transaction began, and how many statements it has run. -/
structure Local {κ : Type} (ρ : κ → Type) where
  held : Held ρ
  rows : Rows ρ
  clock : Int
  start : Option Int
  phase : Nat

/-- What a call has of a row after it has written it, if it is there. -/
def takeRow {γ : Type} (held : Option (Version γ)) (view : Option γ) (clock : Int)
    (set : γ → Option γ) : Option (Version γ) :=
  match view with
  | some row => some ⟨(held.map Version.since).getD clock, set row⟩
  | none => held

namespace Local

variable (L : Local ρ)

/-- What a statement of the call sees. -/
def view : Rows ρ := fun k => rowSeen (L.held k) (L.rows k)

/-- `NOW()`. -/
def now : Int := L.start.getD L.clock

/-- A statement finds the row of the key. -/
def Selects (statement : Statement ρ) (k : κ) : Prop :=
  (L.view k).isSome ∧ statement.selects L.view k

/-- One more statement. -/
def tick : Local ρ := { L with phase := L.phase + 1 }

/-- The call's versions are committed. -/
def publish : Local ρ := { L with held := fun _ => none, rows := L.view, start := none }

variable [DecidableEq κ]

/-- The call locks the rows `ks` that are there and writes them. -/
def write (ks : List κ) (set : (k : κ) → ρ k → Option (ρ k)) : Local ρ :=
  { L with
    held := fun k =>
      if k ∈ ks then takeRow (L.held k) (L.view k) L.clock (set k) else L.held k
    phase := L.phase + 1 }

/-- The call inserts a row. -/
def insert (k : κ) (row : ρ k) : Local ρ :=
  { L with
    held := update L.held k (some ⟨L.clock, some row⟩)
    phase := L.phase + 1 }

end Local

/-- The other calls take steps. -/
structure Later (rely : Nat → Held ρ → Rows ρ → Rows ρ → Prop) (L L' : Local ρ) : Prop where
  held : L'.held = L.held
  start : L'.start = L.start
  phase : L'.phase = L.phase
  clock : L.clock ≤ L'.clock
  rows : ∀ k, (L.held k).isSome → L'.rows k = L.rows k
  rely : rely L.phase L.held L.rows L'.rows

/-- Every commit of the call meets `post`, and every value that it
returns `ret`, if the others keep to `rely`. -/
def Sql.Safe [DecidableEq κ] (rely : Nat → Held ρ → Rows ρ → Rows ρ → Prop)
    (post : Int → Local ρ → Prop) (ret : α → Local ρ → Prop) : Sql ρ ε α → Local ρ → Prop
  | .ret a, L => ret a L
  | .fail _, _ => True
  | .utcNow next, L => ∀ L', Later rely L L' → (next L'.clock).Safe rely post ret L'
  | .begin next, L => ∀ L', Later rely L L' →
    next.Safe rely post ret { L' with start := some L'.clock }
  | .select next, L => ∀ L', Later rely L L' → ∀ s : Snapshot ρ, s.row = L'.view →
    (next L'.now s).Safe rely post ret L'.tick
  | .modify statement next, L => ∀ L1, Later rely L L1 → ∀ L2, Later rely L1 L2 →
    ∀ now ks, L.start = some now → ks.Nodup →
      (∀ k, k ∈ ks ↔ L1.Selects (statement now) k ∧ L2.Selects (statement now) k) →
      (next ks L2.view).Safe rely post ret (L2.write ks (statement now).set)
  | .insert k row next, L => ∀ L', Later rely L L' →
    (next false).Safe rely post ret L'.tick ∧
      (L'.rows k = none → L'.held k = none → (next true).Safe rely post ret (L'.insert k row))
  | .commit next, L => ∀ L', Later rely L L' → ∀ now, L.start = some now →
    post now L' ∧ next.Safe rely post ret L'.publish

/-! ### Between two steps -/

section Later

variable {rely : Nat → Held ρ → Rows ρ → Rows ρ → Prop} {L L' L'' : Local ρ}

theorem Later.refl (hrefl : ∀ n h rows, rely n h rows rows) (L : Local ρ) : Later rely L L :=
  ⟨rfl, rfl, rfl, le_rfl, fun _ _ => rfl, hrefl _ _ _⟩

theorem Later.trans (htrans : ∀ n h rows rows' rows'', rely n h rows rows' → rely n h rows' rows'' →
      rely n h rows rows'')
    (h : Later rely L L') (h' : Later rely L' L'') : Later rely L L'' where
  held := h'.held.trans h.held
  start := h'.start.trans h.start
  phase := h'.phase.trans h.phase
  clock := le_trans h.clock h'.clock
  rows k hk := (h'.rows k (by rw [h.held]; exact hk)).trans (h.rows k hk)
  rely := by
    have hlast := h'.rely
    rw [h.held, h.phase] at hlast
    exact htrans _ _ _ _ _ h.rely hlast

theorem Later.mono {rely' : Nat → Held ρ → Rows ρ → Rows ρ → Prop}
    (himp : ∀ n h rows rows', rely' n h rows rows' → rely n h rows rows')
    (h : Later rely' L L') : Later rely L L' :=
  ⟨h.held, h.start, h.phase, h.clock, h.rows, himp _ _ _ _ h.rely⟩

end Later

section Safe

variable [DecidableEq κ] {rely : Nat → Held ρ → Rows ρ → Rows ρ → Prop}
  {post : Int → Local ρ → Prop} {ret : α → Local ρ → Prop} {p : Sql ρ ε α} {L L' : Local ρ}

/-- A safe call stays safe while the others take steps, if what it has
returned does. -/
theorem Sql.Safe.later
    (htrans : ∀ n h rows rows' rows'', rely n h rows rows' → rely n h rows' rows'' →
      rely n h rows rows'')
    (hret : ∀ a L L', Later rely L L' → ret a L → ret a L')
    (h : p.Safe rely post ret L) (hl : Later rely L L') : p.Safe rely post ret L' := by
  cases p with
  | ret a => exact hret a L L' hl h
  | fail => trivial
  | utcNow next => exact fun L2 h2 => h L2 (hl.trans htrans h2)
  | begin next => exact fun L2 h2 => h L2 (hl.trans htrans h2)
  | select next => exact fun L2 h2 => h L2 (hl.trans htrans h2)
  | modify statement next =>
    intro L1 h1 L2 h2 now ks hnow
    exact h L1 (hl.trans htrans h1) L2 h2 now ks (hl.start.symm.trans hnow)
  | insert k row next => exact fun L2 h2 => h L2 (hl.trans htrans h2)
  | commit next =>
    intro L2 h2 now hnow
    exact h L2 (hl.trans htrans h2) now (hl.start.symm.trans hnow)

/-- Two conditions on the commits of one call, which may count on more and
then shows what follows from both. -/
theorem Sql.Safe.and {rely' rely'' : Nat → Held ρ → Rows ρ → Rows ρ → Prop}
    {post' post'' : Int → Local ρ → Prop}
    (himp : ∀ n h rows rows', rely'' n h rows rows' → rely n h rows rows' ∧ rely' n h rows rows')
    (hpost : ∀ now L, post now L → post' now L → post'' now L)
    (h : p.Safe rely post ret L) (h' : p.Safe rely' post' ret L) : p.Safe rely'' post'' ret L := by
  have hfst {L L' : Local ρ} (hl : Later rely'' L L') : Later rely L L' :=
    hl.mono fun n h rows rows' hr => (himp n h rows rows' hr).1
  have hsnd {L L' : Local ρ} (hl : Later rely'' L L') : Later rely' L L' :=
    hl.mono fun n h rows rows' hr => (himp n h rows rows' hr).2
  induction p generalizing L with
  | ret a => exact h
  | fail => trivial
  | utcNow next ih => exact fun L' hl => ih _ (h L' (hfst hl)) (h' L' (hsnd hl))
  | begin next ih => exact fun L' hl => ih (h L' (hfst hl)) (h' L' (hsnd hl))
  | select next ih => exact fun L' hl s hs => ih _ _ (h L' (hfst hl) s hs) (h' L' (hsnd hl) s hs)
  | modify statement next ih =>
    intro L1 h1 L2 h2 now ks hnow hnodup hks
    exact ih _ _ (h L1 (hfst h1) L2 (hfst h2) now ks hnow hnodup hks)
      (h' L1 (hsnd h1) L2 (hsnd h2) now ks hnow hnodup hks)
  | insert k row next ih =>
    intro L' hl
    obtain ⟨hfalse, htrue⟩ := h L' (hfst hl)
    obtain ⟨hfalse', htrue'⟩ := h' L' (hsnd hl)
    exact ⟨ih _ hfalse hfalse', fun hrow hheld => ih _ (htrue hrow hheld) (htrue' hrow hheld)⟩
  | commit next ih =>
    intro L' hl now hnow
    obtain ⟨hp, hnext⟩ := h L' (hfst hl) now hnow
    obtain ⟨hp', hnext'⟩ := h' L' (hsnd hl) now hnow
    exact ⟨hpost now L' hp hp', ih hnext hnext'⟩

/-- The rule for one call after another. -/
theorem Sql.Safe.bind {ret' : β → Local ρ → Prop} {f : α → Sql ρ ε β}
    (h : p.Safe rely post (fun a L => (f a).Safe rely post ret' L) L) :
    (p >>= f).Safe rely post ret' L := by
  induction p generalizing L with
  | ret a => exact h
  | fail => trivial
  | utcNow next ih => exact fun L' hl => ih _ (h L' hl)
  | begin next ih => exact fun L' hl => ih (h L' hl)
  | select next ih => exact fun L' hl s hs => ih _ _ (h L' hl s hs)
  | modify statement next ih =>
    intro L1 h1 L2 h2 now ks hnow hnodup hks
    exact ih _ _ (h L1 h1 L2 h2 now ks hnow hnodup hks)
  | insert k row next ih =>
    intro L' hl
    obtain ⟨hfalse, htrue⟩ := h L' hl
    exact ⟨ih _ hfalse, fun hrow hheld => ih _ (htrue hrow hheld)⟩
  | commit next ih =>
    intro L' hl now hnow
    obtain ⟨hp, hnext⟩ := h L' hl now hnow
    exact ⟨hp, ih hnext⟩

end Safe

/-! ### What the steps of one call do to the locks -/

namespace Cell

variable {γ : Type} (c : Cell γ) {t u : Nat}

/-- A row has one holder. -/
theorem held_eq_none_of_ne (hne : u ≠ t) (h : (c.held t).isSome) : c.held u = none := by
  unfold held at *
  cases hl : c.lock with
  | none => rfl
  | some l =>
    grind

theorem held_eq_none_of_lockable (hne : u ≠ t) (h : c.lockable t) : c.held u = none := by
  unfold lockable held at *
  grind

/-- What `t` sees of the row that another call has locked. -/
theorem view_of_held (hne : u ≠ t) (h : (c.held u).isSome) : c.view t = c.committed := by
  unfold view
  rw [c.held_eq_none_of_ne hne.symm h]
  rfl

/-- After `t` is done, the other calls have what they had. -/
theorem held_unlocked {committed : Option γ} :
    Cell.held ⟨committed, if c.lockable t then none else c.lock⟩ u =
      if u = t then none else c.held u := by
  unfold held lockable
  grind

theorem held_release : (c.release t).held u = if u = t then none else c.held u := c.held_unlocked

theorem held_publish : (c.publish t).held u = if u = t then none else c.held u := c.held_unlocked

variable (clock : Int) (set : γ → Option γ)

theorem committed_write : (c.write t clock set).committed = c.committed := by
  unfold write
  cases c.view t <;> rfl

theorem held_write_of_ne (hne : u ≠ t) (h : c.lockable t) :
    (c.write t clock set).held u = c.held u := by
  rw [c.held_eq_none_of_lockable hne h]
  unfold write
  cases c.view t with
  | none => exact c.held_eq_none_of_lockable hne h
  | some row => exact if_neg hne.symm

theorem held_write_self :
    (c.write t clock set).held t = takeRow (c.held t) (c.view t) clock set := by
  unfold write takeRow
  cases hv : c.view t with
  | none => rfl
  | some row => exact if_pos rfl

end Cell

namespace Store

variable (S : Store ρ) {t u : Nat} [DecidableEq κ] (clock : Int)

theorem committed_write (ks : List κ) (set : (k : κ) → ρ k → Option (ρ k)) :
    (S.write t clock ks set).committed = S.committed := by
  funext k
  unfold committed write
  dsimp only
  split_ifs
  · exact (S.cells k).committed_write clock (set k)
  · rfl

theorem held_write_of_ne (hne : u ≠ t) {ks : List κ} {set : (k : κ) → ρ k → Option (ρ k)}
    (h : ∀ k ∈ ks, (S.cells k).lockable t) : (S.write t clock ks set).held u = S.held u := by
  funext k
  unfold held write
  dsimp only
  split_ifs with hk
  · exact (S.cells k).held_write_of_ne clock (set k) hne (h k hk)
  · rfl

theorem held_write_self (ks : List κ) (set : (k : κ) → ρ k → Option (ρ k)) :
    (S.write t clock ks set).held t = fun k =>
      if k ∈ ks then takeRow (S.held t k) (S.view t k) clock (set k) else S.held t k := by
  funext k
  unfold held write
  dsimp only
  split_ifs
  · exact (S.cells k).held_write_self clock (set k)
  · rfl

variable (k : κ) (row : ρ k) (hk : k ∉ S.index)

theorem committed_insert : (S.insert t clock k row hk).committed = S.committed := by
  funext k'
  unfold committed insert
  dsimp only
  by_cases h : k' = k
  · subst h
    rw [update_self, S.covers k' hk]
  · rw [update_of_ne h]

theorem held_insert_of_ne (hne : u ≠ t) : (S.insert t clock k row hk).held u = S.held u := by
  funext k'
  unfold held insert
  dsimp only
  by_cases h : k' = k
  · subst h
    rw [update_self, S.covers k' hk]
    exact if_neg hne.symm
  · rw [update_of_ne h]

theorem held_insert_self : (S.insert t clock k row hk).held t =
    update (S.held t) k (some ⟨clock, some row⟩) := by
  funext k'
  by_cases h : k' = k
  · subst h
    rw [update_self]
    unfold held insert
    dsimp only
    rw [update_self]
    exact if_pos rfl
  · rw [update_of_ne h]
    unfold held insert
    dsimp only
    rw [update_of_ne h]

end Store

/-! ### The steps of the machine -/

namespace Db

variable {s s' : Db ρ C ε α} {t u : Nat} {th : Thread ρ C ε α}

/-- What call `t` knows. -/
def localOf (s : Db ρ C ε α) (t : Nat) (th : Thread ρ C ε α) : Local ρ :=
  ⟨s.store.held t, s.store.committed, s.clock, th.start, th.phase⟩

/-- A step of call `t` that commits nothing. -/
structure Quiet (t : Nat) (s s' : Db ρ C ε α) : Prop where
  clock : s'.clock = s.clock
  committed : s'.store.committed = s.store.committed
  commits : s'.commits = s.commits
  held : ∀ u, u ≠ t → s'.store.held u = s.store.held u
  threads : ∀ u, u ≠ t → s'.threads u = s.threads u

theorem quiet_set (th : Thread ρ C ε α) : Quiet t s (s.set t th) :=
  ⟨rfl, rfl, rfl, fun _ _ => rfl, fun _ h => update_of_ne h _ _⟩

theorem quiet_finish : Quiet t s (s.finish t) where
  clock := rfl
  committed := rfl
  commits := rfl
  held _ hu := funext fun k => ((s.store.cells k).held_release).trans (if_neg hu)
  threads _ hu := update_of_ne hu _ _

variable [DecidableEq κ]

variable (s t th) in
/-- The steps that only move the call: where it stands afterwards. -/
inductive GoesOn : Thread ρ C ε α → Prop where
  | utcNow {next} (hprog : th.prog = .utcNow next) : GoesOn { th with prog := next s.clock }
  | begins {next} (hprog : th.prog = .begin next) :
      GoesOn { th with start := some s.clock, prog := next }
  | selects {next} (hprog : th.prog = .select next) :
      GoesOn { th with
        phase := th.phase + 1
        prog := next (th.start.getD s.clock) (s.store.snapshot t) }
  /-- A statement finds its rows. -/
  | finds {statement next now} (hprog : th.prog = .modify statement next)
      (hnow : th.start = some now) :
      GoesOn { th with candidates := some (s.store.matching t (statement now) s.store.index) }
  /-- The key of a new row is in use. -/
  | occupied {k row next} (hprog : th.prog = .insert k row next) :
      GoesOn { th with phase := th.phase + 1, prog := next false }

variable (s t th) in
/-- What the next step of call `t` does: where the call stands afterwards,
if it is not over, and the database. -/
inductive RunStep : Option (Thread ρ C ε α) → Db ρ C ε α → Prop where
  | ends (hprog : (∃ a, th.prog = .ret a) ∨ ∃ e, th.prog = .fail e) : RunStep none (s.finish t)
  | goesOn {th' : Thread ρ C ε α} (h : GoesOn s t th th') : RunStep (some th') (s.set t th')
  /-- A statement takes its rows. -/
  | takes {statement next now} {found ks : List κ} (hprog : th.prog = .modify statement next)
      (hnow : th.start = some now) (hfound : th.candidates = some found)
      (hlock : found.all (fun k => (s.store.cells k).lockable t) = true)
      (hks : ks = s.store.matching t (statement now) found) :
      RunStep (some { th with
        phase := th.phase + 1, candidates := none, prog := next ks (s.store.view t) })
        (s.take t th ks (statement now).set (next ks (s.store.view t)))
  | inserts {k row next} (hprog : th.prog = .insert k row next) (hk : k ∉ s.store.index) :
      RunStep (some { th with phase := th.phase + 1, prog := next true })
        { s.set t { th with phase := th.phase + 1, prog := next true } with
          store := s.store.insert t s.clock k row hk }
  | commits {next now} (hprog : th.prog = .commit next) (hnow : th.start = some now) :
      RunStep (some { th with start := none, prog := next }) (s.commit t th now next)

/-- Each step of a call is one of these. -/
theorem runStep_of_runThread {o : Option (Thread ρ C ε α)} (h : s.runThread t th = some s')
    (ho : s'.threads t = o) : RunStep s t th o s' := by
  have hself : ∀ {x : Option (Thread ρ C ε α)}, update s.threads t x t = o → x = o :=
    fun hx => (update_self t _ s.threads).symm.trans hx
  unfold runThread at h
  split at h <;> rename_i hprog
  case h_6 =>
    split at h
    · cases h
    · cases h
      exact hself ho ▸ .goesOn (.finds hprog ‹_›)
    · split_ifs at h with hlock
      cases h
      exact hself ho ▸ .takes hprog ‹_› ‹_› hlock rfl
  case h_7 =>
    split_ifs at h with hstart hk
    · cases h
      exact hself ho ▸ .goesOn (.occupied hprog)
    · cases h
      exact hself ho ▸ .inserts hprog hk
  case h_8 =>
    split at h
    · cases h
    · cases h
      exact hself ho ▸ .commits hprog ‹_›
  all_goals cases h
  · exact hself ho ▸ .ends (.inl ⟨_, hprog⟩)
  · exact hself ho ▸ .ends (.inr ⟨_, hprog⟩)
  · exact hself ho ▸ .goesOn (.utcNow hprog)
  · exact hself ho ▸ .goesOn (.begins hprog)
  · exact hself ho ▸ .goesOn (.selects hprog)

/-- A step of a call is quiet or a commit. -/
theorem runThread_cases (h : s.runThread t th = some s') : Quiet t s s' ∨
      ∃ now next, th.prog = .commit next ∧ th.start = some now ∧ s' = s.commit t th now next := by
  have hstep := runStep_of_runThread h rfl
  generalize s'.threads t = o at hstep
  cases hstep with
  | ends => exact .inl quiet_finish
  | goesOn => exact .inl (quiet_set _)
  | takes _ _ _ hlock hks =>
    subst hks
    refine .inl ⟨rfl, s.store.committed_write _ _ _, rfl, fun u hu => ?_,
      fun u hu => update_of_ne hu _ _⟩
    refine s.store.held_write_of_ne _ hu fun k hk => ?_
    exact List.all_eq_true.1 hlock k (List.mem_filter.1 hk).1
  | inserts _ hk =>
    exact .inl ⟨rfl, s.store.committed_insert _ _ _ hk, rfl,
      fun u hu => s.store.held_insert_of_ne _ _ _ hk hu, fun u hu => update_of_ne hu _ _⟩
  | commits hprog hnow => exact .inr ⟨_, _, hprog, hnow, rfl⟩

variable {body : C → Sql ρ ε α}

theorem step_cases {l : DbLabel C} (h : (readCommitted body).step s l = some s') :
    (∃ d, l = .tick d ∧ s' = { s with clock := s.clock + d }) ∨
    (∃ t c, l = .call t c ∧ s.threads t = none ∧ s' = s.set t ⟨c, none, 0, none, body c⟩) ∨
    (∃ t th, l = .run t ∧ s.threads t = some th ∧ s.runThread t th = some s') ∨
    (∃ t, l = .abort t ∧ s' = s.finish t) := by
  cases l with
  | tick d => exact .inl ⟨d, rfl, (Option.some.inj h).symm⟩
  | call t c =>
    dsimp only [readCommitted] at h
    grind
  | run t =>
    dsimp only [readCommitted] at h
    grind
  | abort t =>
    dsimp only [readCommitted] at h
    grind

end Db

/-! ### All calls together -/

section Soundness

variable [DecidableEq κ] {body : C → Sql ρ ε α}
  {rely : C → Nat → Held ρ → Rows ρ → Rows ρ → Prop} {post : C → Int → Local ρ → Prop}

variable (rely post) in
/-- Call `t` is safe since `L`, where its current statement has found its
rows. -/
def ThreadSafe (s : Db ρ C ε α) (t : Nat) (th : Thread ρ C ε α) : Prop :=
  ∃ L, Later (rely th.call) L (s.localOf t th) ∧
    th.prog.Safe (rely th.call) (post th.call) (fun _ _ => True) L ∧
    ∀ ks, th.candidates = some ks →
      ∃ statement next now, th.prog = .modify statement next ∧ th.start = some now ∧ ks.Nodup ∧
        ∀ k, k ∈ ks ↔ L.Selects (statement now) k

variable (rely post) in
/-- Every call is safe, and nobody else has locks. -/
structure ThreadsSafe (s : Db ρ C ε α) : Prop where
  idle : ∀ t, s.threads t = none → s.store.held t = fun _ => none
  safe : ∀ t th, s.threads t = some th → ThreadSafe rely post s t th

variable (body rely post) in
/-- Each body keeps its condition at every commit, from its first step
on. What it relies on adds up over steps. -/
structure Protocol : Prop where
  refl : ∀ c n h rows, rely c n h rows rows
  trans : ∀ c n h rows rows' rows'', rely c n h rows rows' → rely c n h rows' rows'' →
    rely c n h rows rows''
  safe : ∀ c L, L.held = (fun _ => none) → L.start = none → L.phase = 0 →
    (body c).Safe (rely c) (post c) (fun _ _ => True) L

variable (rely post) in
/-- A commit gives the other calls what they rely on. -/
def Guarantees (G : Db ρ C ε α → DbLabel C → Prop) : Prop :=
  ∀ s t u th th' now next, G s (.run t) → s.threads t = some th → s.threads u = some th' → u ≠ t →
    th.start = some now → th.prog = .commit next → post th.call now (s.localOf t th) →
    rely th'.call th'.phase (s.store.held u) s.store.committed (s.store.view t)

variable {s s' : Db ρ C ε α} {t u : Nat} {th : Thread ρ C ε α}

section

variable (P : Protocol body rely post) (h : ThreadSafe rely post s t th)
include P h

theorem ThreadSafe.later (hl : Later (rely th.call) (s.localOf t th) (s'.localOf t th)) :
    ThreadSafe rely post s' t th := by
  obtain ⟨L, hL, hrest⟩ := h
  exact ⟨L, hL.trans (P.trans th.call) hl, hrest⟩

/-- A safe call is safe where it stands. -/
theorem ThreadSafe.current :
    th.prog.Safe (rely th.call) (post th.call) (fun _ _ => True) (s.localOf t th) := by
  obtain ⟨L, hL, hsafe, -⟩ := h
  exact hsafe.later (P.trans th.call) (fun _ _ _ _ _ => trivial) hL

/-- At its commit a safe call meets its condition. -/
theorem ThreadSafe.at_commit {now : Int} {next : Sql ρ ε α} (hnow : th.start = some now)
    (hprog : th.prog = .commit next) :
    post th.call now (s.localOf t th) := by
  have hcur := h.current P
  rw [hprog] at hcur
  exact (hcur _ (.refl (P.refl th.call) _) now hnow).1

end

theorem ThreadSafe.of_safe (P : Protocol body rely post) (hcand : th.candidates = none)
    (h : th.prog.Safe (rely th.call) (post th.call) (fun _ _ => True) (s.localOf t th)) :
    ThreadSafe rely post s t th := by
  refine ⟨_, .refl (P.refl th.call) _, h, fun ks hks => ?_⟩
  rw [hcand] at hks
  cases hks

/-- Between statements nothing is left of the last one. -/
theorem ThreadSafe.candidates_eq_none (h : ThreadSafe rely post s t th)
    (hprog : ∀ statement next, th.prog ≠ .modify statement next) : th.candidates = none := by
  obtain ⟨L, -, -, hcand⟩ := h
  cases hks : th.candidates with
  | none => rfl
  | some ks =>
    grind

variable {th' : Thread ρ C ε α}

/-- The step of a safe call leaves it safe. -/
theorem ThreadSafe.run (P : Protocol body rely post) (h : ThreadSafe rely post s t th)
    (hstep : s.runThread t th = some s') (hth' : s'.threads t = some th') :
    ThreadSafe rely post s' t th' := by
  have hcur := h.current P
  have hrefl := Later.refl (P.refl th.call) (s.localOf t th)
  -- between statements the call has no rows that it has found
  have hbetween : (∀ statement next, th.prog ≠ .modify statement next) → th.candidates = none :=
    h.candidates_eq_none
  cases Db.runStep_of_runThread hstep hth' with
  | goesOn hgoes =>
    cases hgoes with
    | utcNow hprog | begins hprog =>
      rw [hprog] at hcur hbetween
      exact .of_safe P (hbetween nofun) (hcur _ hrefl)
    | selects hprog =>
      rw [hprog] at hcur hbetween
      exact .of_safe P (hbetween nofun) (hcur _ hrefl _ rfl)
    | @finds statement next now hprog hnow =>
      refine ⟨_, hrefl, hcur, fun ks hks => ?_⟩
      cases hks
      refine ⟨statement, next, now, hprog, hnow, s.store.nodup.filter _, fun k => ?_⟩
      rw [Store.matching, List.mem_filter, Bool.and_eq_true]
      refine ⟨And.right, fun hk => ⟨?_, hk⟩⟩
      exact ((s.store.snapshot t).mem_keys k |>.2 hk.1 |> List.mem_filter.1).1
    | occupied hprog =>
      rw [hprog] at hcur hbetween
      exact .of_safe P (hbetween nofun) (hcur _ hrefl).1
  | @takes statement next now found ks hprog hnow hfound hlock hks =>
    obtain ⟨L, hL, hsafe, hcand⟩ := h
    obtain ⟨_, _, now', heq, hnow', hnodup, hmem⟩ := hcand found hfound
    cases hprog.symm.trans heq
    cases hnow.symm.trans hnow'
    rw [hprog] at hsafe
    have hnext := hsafe L (.refl (P.refl th.call) L) _ hL now ks (hL.start.symm.trans hnow)
      (hks ▸ hnodup.filter _) fun k => by
        rw [hks, Store.matching, List.mem_filter, Bool.and_eq_true, hmem k]
        rfl
    refine .of_safe P rfl ?_
    unfold Db.localOf Db.take
    dsimp only
    rw [Store.held_write_self, Store.committed_write]
    exact hnext
  | @inserts k row next hprog hk =>
    rw [hprog] at hcur hbetween
    have hcell := s.store.covers k hk
    have hrow : s.store.committed k = none := by
      unfold Store.committed
      rw [hcell]
    have hheld : s.store.held t k = none := by
      unfold Store.held
      rw [hcell]
      rfl
    refine .of_safe P (hbetween nofun) ?_
    have hnext := (hcur _ hrefl).2 hrow hheld
    unfold Db.localOf
    dsimp only
    rw [Store.held_insert_self, Store.committed_insert]
    exact hnext
  | commits hprog hnow =>
    rw [hprog] at hcur hbetween
    refine .of_safe P (hbetween nofun) ?_
    have hnext := (hcur _ hrefl _ hnow).2
    have hheld : (s.store.publish t).held t = fun _ => none :=
      funext fun k => ((s.store.cells k).held_publish).trans (if_pos rfl)
    unfold Db.localOf Db.commit
    dsimp only
    rw [hheld]
    exact hnext

/-- A call that has ended has no locks. -/
theorem idle_of_run (hstep : s.runThread t th = some s') (hnone : s'.threads t = none) :
    s'.store.held t = fun _ => none := by
  cases Db.runStep_of_runThread hstep hnone with
  | ends => exact funext fun k => ((s.store.cells k).held_release).trans (if_pos rfl)

variable {G : Db ρ C ε α → DbLabel C → Prop} {l : DbLabel C}

section

variable (hq : Db.Quiet t s s') (h : ThreadsSafe rely post s) (hu : u ≠ t)
include hq h hu

/-- A quiet step of `t` leaves the other calls where they are. -/
theorem Db.Quiet.others (hth' : s'.threads u = some th') :
    ThreadSafe rely post s' u th' := by
  have hlocal : s'.localOf u th' = s.localOf u th' := by
    unfold Db.localOf
    rw [hq.held u hu, hq.committed, hq.clock]
  unfold ThreadSafe
  rw [hlocal]
  exact h.safe u th' ((hq.threads u hu).symm.trans hth')

theorem Db.Quiet.idle (hnone : s'.threads u = none) : s'.store.held u = fun _ => none := by
  rw [hq.held u hu]
  exact h.idle u ((hq.threads u hu).symm.trans hnone)

end

section

variable (P : Protocol body rely post) (hG : Guarantees rely post G)
include P hG

/-- The commit of `t` as another call sees it. -/
theorem later_commit (h : ThreadsSafe rely post s) (hguard : G s (.run t))
    {now : Int} {next : Sql ρ ε α} (hth : s.threads t = some th) (hth' : s.threads u = some th')
    (hu : u ≠ t) (hnow : th.start = some now) (hprog : th.prog = .commit next) :
    Later (rely th'.call) (s.localOf u th') ((s.commit t th now next).localOf u th') where
  held := funext fun k => ((s.store.cells k).held_publish).trans (if_neg hu)
  start := rfl
  phase := rfl
  clock := le_rfl
  rows k hk := (s.store.cells k).view_of_held hu hk
  rely := hG s t u th th' now next hguard hth hth' hu hnow hprog
    ((h.safe t th hth).at_commit P hnow hprog)

/-- A step keeps every call safe. -/
theorem ThreadsSafe.step (h : ThreadsSafe rely post s) (hguard : G s l)
    (hstep : (readCommitted body).step s l = some s') : ThreadsSafe rely post s' := by
  rcases Db.step_cases hstep with ⟨d, rfl, rfl⟩ | ⟨t, c, rfl, hnone, rfl⟩ |
    ⟨t, th, rfl, hth, hrun⟩ | ⟨t, rfl, rfl⟩
  · -- time passes
    refine ⟨h.idle, fun u th' hth' => (h.safe u th' hth').later P ?_⟩
    exact ⟨rfl, rfl, rfl, by dsimp only [Db.localOf]; omega, fun _ _ => rfl, P.refl _ _ _ _⟩
  · -- a call starts
    have hq : Db.Quiet t s (s.set t ⟨c, none, 0, none, body c⟩) := Db.quiet_set _
    constructor
    · intro u hu
      by_cases hut : u = t
      · subst hut
        exact h.idle u hnone
      · exact hq.idle h hut hu
    · intro u th' hth'
      by_cases hut : u = t
      · subst hut
        cases (update_self u _ s.threads).symm.trans hth'
        exact .of_safe P rfl (P.safe c _ (h.idle u hnone) rfl rfl)
      · exact hq.others h hut hth'
  · -- call `t` takes a step
    rcases Db.runThread_cases hrun with hq | ⟨now, next, hprog, hnow, rfl⟩
    · constructor
      · intro u hu
        by_cases hut : u = t
        · subst hut
          exact idle_of_run hrun hu
        · exact hq.idle h hut hu
      · intro u th' hth'
        by_cases hut : u = t
        · subst hut
          exact (h.safe u th hth).run P hrun hth'
        · exact hq.others h hut hth'
    · constructor
      · intro u hu
        have hut : u ≠ t := by
          rintro rfl
          cases (update_self u _ s.threads).symm.trans hu
        funext k
        refine ((s.store.cells k).held_publish).trans ((if_neg hut).trans ?_)
        exact congrFun (h.idle u ((update_of_ne hut _ _).symm.trans hu)) k
      · intro u th' hth'
        by_cases hut : u = t
        · subst hut
          exact (h.safe u th hth).run P hrun hth'
        · have hth'' := (update_of_ne hut _ _).symm.trans hth'
          exact (h.safe u th' hth'').later P (later_commit P hG h hguard hth hth'' hut hnow hprog)
  · -- call `t` is cut off
    have hq : Db.Quiet t s (s.finish t) := Db.quiet_finish
    constructor
    · intro u hu
      by_cases hut : u = t
      · subst hut
        exact funext fun k => ((s.store.cells k).held_release).trans (if_pos rfl)
      · exact hq.idle h hut hu
    · intro u th' hth'
      by_cases hut : u = t
      · subst hut
        cases (update_self u _ s.threads).symm.trans hth'
      · exact hq.others h hut hth'

/-- In every run every call is safe. -/
theorem reaches_threadsSafe {s0 : Db ρ C ε α} (h0 : ThreadsSafe rely post s0)
    (h : (readCommitted body).Reaches G s0 s) : ThreadsSafe rely post s :=
  h.invariant h0 fun _ _ _ hs hg hstep => hs.step P hG hg hstep

end

/-- Where every call is idle, every call is safe. -/
theorem threadsSafe_of_idle (hidle : ∀ t, s.threads t = none)
    (hheld : ∀ t, s.store.held t = fun _ => none) : ThreadsSafe rely post s :=
  ⟨fun t _ => hheld t, fun t _ hth => nomatch (hidle t).symm.trans hth⟩

end Soundness

end Durable
