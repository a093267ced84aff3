import Centrald.Durable.RelyGuarantee

/-!
# `Durable.OwnedRows`: walking through a call

What a call knows about the rows that it has locked, and how each
statement changes it. `Owns` is about one row: since when it is locked,
how it is committed and what the call has made of it. `AllHeld P` says
that all locked rows are so. Both survive the steps of others. The rules
`safe_query` to `safe_commit` are one for each kind of statement.
-/

set_option autoImplicit false

namespace Durable

variable {κ : Type} {ρ : κ → Type} {ε α β : Type}
  {rely : Nat → Held ρ → Rows ρ → Rows ρ → Prop}

namespace Local

variable {L L' : Local ρ} {k : κ} {since : Int} {a b : Option (ρ k)}

/-- The call has locked the row at `since`. It is committed as `a`, and
the call has made it `b`. -/
structure Owns (L : Local ρ) (k : κ) (since : Int) (a b : Option (ρ k)) : Prop where
  held : L.held k = some ⟨since, b⟩
  rows : L.rows k = a

/-- Every row that the call has locked is so. -/
def AllHeld (P : (k : κ) → Version (ρ k) → Option (ρ k) → Prop) (L : Local ρ) : Prop :=
  ∀ k v, L.held k = some v → P k v (L.rows k)

variable {P : (k : κ) → Version (ρ k) → Option (ρ k) → Prop}

theorem view_of_held_eq_none (h : L.held k = none) : L.view k = L.rows k := by
  unfold view
  rw [h]
  rfl

theorem Owns.view (h : L.Owns k since a b) : L.view k = b := by
  unfold Local.view
  rw [h.held]
  rfl

theorem Owns.later (h : L.Owns k since a b) (hl : Later rely L L') : L'.Owns k since a b :=
  ⟨hl.held ▸ h.held, (hl.rows k (by rw [h.held]; rfl)).trans h.rows⟩

theorem Owns.isSome (h : L.Owns k since a b) : (L.held k).isSome := by
  rw [h.held]
  rfl

theorem AllHeld.later (h : L.AllHeld P) (hl : Later rely L L') : L'.AllHeld P := by
  intro k v hv
  rw [hl.held] at hv
  rw [hl.rows k (by rw [hv]; rfl)]
  exact h k v hv

/-- A row that is not locked is seen as it is committed; of a locked one
`P` holds. -/
theorem AllHeld.row (h : L.AllHeld P) (k : κ) :
    L.view k = L.rows k ∨ ∃ since, P k ⟨since, L.view k⟩ (L.rows k) := by
  cases hv : L.held k with
  | none => exact .inl (view_of_held_eq_none hv)
  | some v =>
    refine .inr ⟨v.since, ?_⟩
    have hview : L.view k = v.row := by
      unfold Local.view
      rw [hv]
      rfl
    rw [hview]
    exact h k v hv

variable {ks : List κ} {statement : Statement ρ} {L1 L2 : Local ρ}

/-- A statement has its rows: it finds them in `L1`, waits for their
locks, and writes them in `L2`. -/
structure Executed (rely : Nat → Held ρ → Rows ρ → Rows ρ → Prop) (L : Local ρ)
    (statement : Statement ρ) (L1 L2 : Local ρ) (ks : List κ) : Prop where
  began : Later rely L L1
  ended : Later rely L1 L2
  keys : ∀ k, k ∈ ks ↔ L1.Selects statement k ∧ L2.Selects statement k

theorem Executed.selects (h : Executed rely L statement L1 L2 ks) (hk : k ∈ ks) :
    L2.Selects statement k := ((h.keys k).1 hk).2

theorem Owns.executed (h : L.Owns k since a b) (hx : Executed rely L statement L1 L2 ks) :
    L2.Owns k since a b := (h.later hx.began).later hx.ended

variable [DecidableEq κ] {w : (k : κ) → ρ k → Option (ρ k)}

theorem held_write_of_not_mem (hk : k ∉ ks) : (L.write ks w).held k = L.held k := if_neg hk

variable {row : ρ k}

/-- A row that the statement takes, whether it was locked before or not. -/
theorem held_write_of_mem (hk : k ∈ ks) (hrow : L.view k = some row) : (L.write ks w).held k =
      some ⟨((L.held k).map Version.since).getD L.clock, w k row⟩ := by
  refine (if_pos hk).trans ?_
  rw [hrow]
  rfl

theorem isSome_held_write (h : (L.held k).isSome) : ((L.write ks w).held k).isSome := by
  by_cases hk : k ∈ ks
  · have hwrite : (L.write ks w).held k = takeRow (L.held k) (L.view k) L.clock (w k) := if_pos hk
    rw [hwrite]
    unfold takeRow
    grind
  · rw [held_write_of_not_mem hk]
    exact h

theorem Owns.write_of_not_mem (h : L.Owns k since a b) (hk : k ∉ ks) :
    (L.write ks w).Owns k since a b :=
  ⟨(held_write_of_not_mem hk).trans h.held, h.rows⟩

theorem Owns.write_of_mem (h : L.Owns k since a (some row)) (hk : k ∈ ks) :
    (L.write ks w).Owns k since a (w k row) := by
  refine ⟨?_, h.rows⟩
  rw [held_write_of_mem hk h.view, h.held]
  rfl

theorem owns_write (hheld : L.held k = none) (hrow : L.rows k = some row)
    (hk : k ∈ ks) : (L.write ks w).Owns k L.clock (some row) (w k row) := by
  refine ⟨?_, hrow⟩
  rw [held_write_of_mem hk ((view_of_held_eq_none hheld).trans hrow), hheld]
  rfl

/-- A statement keeps `P`, if `P` allows a row that is only locked and
what the statement makes of its rows. -/
theorem AllHeld.write (h : L.AllHeld P)
    (hlock : ∀ k ∈ ks, ∀ row, P k ⟨L.clock, some row⟩ (some row))
    (hset : ∀ k ∈ ks, ∀ since row, since = ((L.held k).map Version.since).getD L.clock →
      L.view k = some row → P k ⟨since, some row⟩ (L.rows k) →
      P k ⟨since, w k row⟩ (L.rows k)) : (L.write ks w).AllHeld P := by
  intro k v hv
  by_cases hk : k ∈ ks
  · cases hrow : L.view k with
    | none =>
      have hsame : (L.write ks w).held k = L.held k := by
        refine (if_pos hk).trans ?_
        rw [hrow]
        rfl
      exact h k v (hsame.symm.trans hv)
    | some row =>
      rw [held_write_of_mem hk hrow] at hv
      cases hv
      refine hset k hk _ row rfl hrow ?_
      cases hheld : L.held k with
      | none =>
        rw [view_of_held_eq_none hheld] at hrow
        rw [hrow]
        exact hlock k hk row
      | some v =>
        have hv := h k v hheld
        unfold Local.view at hrow
        rw [hheld] at hrow
        obtain ⟨since, w⟩ := v
        cases (show w = some row from hrow)
        exact hv
  · exact h k v ((held_write_of_not_mem hk).symm.trans hv)

/-- What a statement that waits for its rows makes of `P`. -/
theorem AllHeld.execute (h : L.AllHeld P) (hx : Executed rely L statement L1 L2 ks)
    (hlock : ∀ k since row, P k ⟨since, some row⟩ (some row))
    (hset : ∀ k since row, since = ((L2.held k).map Version.since).getD L2.clock →
      L2.Selects statement k → L2.view k = some row →
      P k ⟨since, some row⟩ (L2.rows k) → P k ⟨since, statement.set k row⟩ (L2.rows k)) :
    (L2.write ks statement.set).AllHeld P :=
  ((h.later hx.began).later hx.ended).write (fun k _ row => hlock k _ row)
    fun k hk since row hsince => hset k since row hsince (hx.selects hk)

/-- A statement that is about the locked row only, and does find it. -/
theorem Owns.execute (h : L.Owns k since a (some row))
    (hx : Executed rely L statement L1 L2 ks)
    (hfinds : ∀ L : Local ρ, L.view k = some row → L.Selects statement k) :
    (L2.write ks statement.set).Owns k since a (statement.set k row) :=
  (h.executed hx).write_of_mem
    ((hx.keys k).2 ⟨hfinds L1 (h.later hx.began).view, hfinds L2 (h.executed hx).view⟩)

variable {k0 : κ} {row0 : ρ k0}

theorem Owns.insert (h : L.Owns k since a b) (hk : k ≠ k0) : (L.insert k0 row0).Owns k since a b :=
  ⟨(Function.update_of_ne hk _ _).trans h.held, h.rows⟩

theorem owns_insert (hrow : L.rows k0 = none) :
    (L.insert k0 row0).Owns k0 L.clock none (some row0) :=
  ⟨Function.update_self _ _ _, hrow⟩

theorem AllHeld.insert (h : L.AllHeld P) (hnew : P k0 ⟨L.clock, some row0⟩ none)
    (hrow : L.rows k0 = none) : (L.insert k0 row0).AllHeld P := by
  intro k v hv
  by_cases hk : k = k0
  · subst hk
    cases (Function.update_self k _ L.held).symm.trans hv
    exact hrow.symm ▸ hnew
  · exact h k v ((Function.update_of_ne hk _ _).symm.trans hv)

end Local

/-! ### A rule for each kind of statement -/

section Rules

variable [DecidableEq κ] {post : Int → Local ρ → Prop} {ret : β → Local ρ → Prop} {L : Local ρ}

theorem safe_clock {g : Int → Sql ρ ε β}
    (h : ∀ L', Later rely L L' → (g L'.clock).Safe rely post ret L') :
    (Sql.clock >>= g).Safe rely post ret L := h

variable {g : Unit → Sql ρ ε β}

theorem safe_begin
    (h : ∀ L', Later rely L L' → (g ()).Safe rely post ret { L' with start := some L'.clock }) :
    (Sql.beginTransaction >>= g).Safe rely post ret L := h

theorem safe_query {f : Int → Snapshot ρ → α} {g : α → Sql ρ ε β}
    (h : ∀ L', Later rely L L' → ∀ s : Snapshot ρ, s.row = L'.view →
      (g (f L'.now s)).Safe rely post ret L'.tick) :
    (Sql.query f >>= g).Safe rely post ret L := h

theorem safe_execute {statement : Int → Statement ρ} {g : List κ → Sql ρ ε β}
    (h : ∀ L1 L2 now ks, L.start = some now → Local.Executed rely L (statement now) L1 L2 ks →
      (g ks).Safe rely post ret (L2.write ks (statement now).set)) :
    (Sql.execute statement >>= g).Safe rely post ret L :=
  fun L1 h1 L2 h2 now ks hnow _ hks => h L1 L2 now ks hnow ⟨h1, h2, hks⟩

/-- An insertion whose key is taken fails the call. -/
theorem safe_insertRow {k : κ} {row : ρ k} {e : ε}
    (h : ∀ L', Later rely L L' → L'.rows k = none → L'.held k = none →
      (g ()).Safe rely post ret (L'.insert k row)) :
    (Sql.insertRow k row e >>= g).Safe rely post ret L :=
  fun L' hl => ⟨trivial, h L' hl⟩

/-- A locking read that finds nothing locks nothing. -/
theorem safe_selectForUpdate
    (htrans : ∀ n h rows rows' rows'', rely n h rows rows' → rely n h rows' rows'' →
      rely n h rows rows'')
    {keys : List κ} {joined : Rows ρ → Bool} {g : Option (Rows ρ) → Sql ρ ε β}
    (hnone : ∀ L', (g none).Safe rely post ret L')
    (h : ∀ L', Later rely L L' → (∀ k ∈ keys, (L'.view k).isSome) → joined L'.view →
      (g (some L'.view)).Safe rely post ret (L'.write keys fun _ row => some row)) :
    (Sql.selectForUpdate keys joined >>= g).Safe rely post ret L := by
  intro L1 h1 L2 h2 now ks _ _ hks
  by_cases hnil : ks = []
  · subst hnil
    exact hnone _
  · obtain ⟨k0, hk0⟩ := List.exists_mem_of_ne_nil ks hnil
    obtain ⟨⟨-, hsel1⟩, -, hsel2⟩ := (hks k0).1 hk0
    simp only [Bool.and_eq_true, List.all_eq_true, decide_eq_true_eq] at hsel1 hsel2
    have hmem : ∀ k, k ∈ ks ↔ k ∈ keys := by
      intro k
      rw [hks k]
      simp only [Local.Selects, Bool.and_eq_true, List.all_eq_true, decide_eq_true_eq]
      exact ⟨fun hk => hk.1.2.2, fun hk => ⟨⟨hsel1.1.1 k hk, hsel1.1, hk⟩,
        hsel2.1.1 k hk, hsel2.1, hk⟩⟩
    have hwrite : L2.write ks (fun _ row => some row) = L2.write keys fun _ row => some row := by
      unfold Local.write
      simp only [hmem]
    have hnext := h L2 (h1.trans htrans h2) hsel2.1.1 hsel2.1.2
    rw [← hwrite] at hnext
    have hsome : (if ks = [] then none else some L2.view) = some L2.view := if_neg hnil
    show (g (if ks = [] then none else some L2.view)).Safe rely post ret _
    rw [hsome]
    exact hnext

/-- An advisory lock is had when the call goes on. -/
theorem safe_advisoryLock
    (htrans : ∀ n h rows rows' rows'', rely n h rows rows' → rely n h rows' rows'' →
      rely n h rows rows'')
    {k : κ} {e : ε}
    (h : ∀ L', Later rely L L' → ((L'.write [k] fun _ row => some row).held k).isSome →
      (g ()).Safe rely post ret (L'.write [k] fun _ row => some row)) :
    (Sql.advisoryLock k e >>= g).Safe rely post ret L := by
  refine Sql.Safe.bind (safe_selectForUpdate htrans (fun _ => trivial) fun L' hl hk _ => ?_)
  obtain ⟨row, hrow⟩ := Option.isSome_iff_exists.1 (hk k (List.mem_singleton.2 rfl))
  refine h L' hl ?_
  rw [Local.held_write_of_mem (List.mem_singleton.2 rfl) hrow]
  rfl

theorem safe_commit {ret : Unit → Local ρ → Prop}
    (h : ∀ L', Later rely L L' → ∀ now, L.start = some now → post now L' ∧ ret () L'.publish) :
    (Sql.commitTransaction : Sql ρ ε Unit).Safe rely post ret L := h

theorem safe_fail {e : ε} : (Sql.fail e : Sql ρ ε β).Safe rely post ret L := trivial

/-- A check that fails with `e`. -/
theorem safe_guard {c : Prop} [Decidable c] {e : ε} {q : Sql ρ ε β}
    (hq : ¬c → q.Safe rely post ret L) : (if c then .fail e else q).Safe rely post ret L := by
  split_ifs with hc
  · exact safe_fail
  · exact hq hc

theorem safe_ite {c : Prop} [Decidable c] {p q : Sql ρ ε β} (hp : c → p.Safe rely post ret L)
    (hq : ¬c → q.Safe rely post ret L) : (if c then p else q).Safe rely post ret L := by
  grind

end Rules

end Durable
