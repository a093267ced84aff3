import Centrald.Durable.Machine
import Mathlib.Data.Int.Order.Basic
import Mathlib.Data.List.Nodup
import Mathlib.Logic.Function.Basic

/-!
# `Durable.ReadCommitted`: interleaved transactions with row locks

A database is a family of rows by key. Many calls run at once, each a
program of statements (`Sql`). A plain statement sees the rows that are
committed when it runs and the ones its own transaction has written. A
statement that writes or locks rows runs in two steps. First it finds
its rows in what it sees. Then it waits until no other transaction has
any of them locked, tests each row again as it is now and takes the ones
that still match. A locked row has one holder until the holder commits
or rolls back, and the holder's version is the only one not committed.

A statement takes all its rows at once where a database takes them one
by one. Between the first and the last the rows it has are locked
already, so no other transaction sees a difference. A key is inserted
once: the identifiers are fresh. An advisory lock is a row that is only
ever locked.

`NOW()` is the time at which the transaction began, or the time of the
statement outside a transaction. One clock serves the database and the
callers. A call can stop at any point, which rolls its transaction back.
-/

set_option autoImplicit false

namespace Durable

/-! ### Rows and statements -/

/-- The rows of a database by key. -/
abbrev Rows {κ : Type} (ρ : κ → Type) : Type := (k : κ) → Option (ρ k)

/-- The rows that one statement sees. There are finitely many. -/
structure Snapshot {κ : Type} (ρ : κ → Type) where
  row : Rows ρ
  keys : List κ
  nodup : keys.Nodup
  mem_keys : ∀ k, k ∈ keys ↔ (row k).isSome

namespace Snapshot

variable {κ : Type} {ρ : κ → Type}

/-- `COUNT(*)`. -/
def count (s : Snapshot ρ) (test : (k : κ) → ρ k → Bool) : Nat :=
  s.keys.countP fun k => (s.row k).any (test k)

variable {s : Snapshot ρ} {test : (k : κ) → ρ k → Bool}

theorem mem_filter_keys {k : κ} :
    k ∈ s.keys.filter (fun k => (s.row k).any (test k)) ↔ (s.row k).any (test k) := by
  rw [List.mem_filter, s.mem_keys, and_iff_right_iff_imp]
  intro h
  obtain ⟨row, hrow, -⟩ := (Option.any_eq_true ..).1 h
  rw [hrow]
  rfl

theorem two_le_count : 2 ≤ s.count test ↔
    ∃ k k', k ≠ k' ∧ (s.row k).any (test k) ∧ (s.row k').any (test k') := by
  have hmem : ∀ k, k ∈ s.keys.filter (fun k => (s.row k).any (test k)) ↔ (s.row k).any (test k) :=
    fun _ => s.mem_filter_keys
  have hnodup := s.nodup.filter fun k => (s.row k).any (test k)
  rw [count, List.countP_eq_length_filter]
  match hks : s.keys.filter fun k => (s.row k).any (test k) with
  | [] =>
    grind
  | [x] =>
    grind
  | k :: k' :: rest =>
    rw [hks] at hmem hnodup
    refine ⟨fun _ => ⟨k, k', ?_, (hmem k).1 (by simp), (hmem k').1 (by simp)⟩, fun _ => by simp⟩
    rintro rfl
    simp at hnodup

end Snapshot

/-- An `UPDATE`, a `DELETE` or a `SELECT … FOR UPDATE`: which of the rows
it is about and what becomes of one. -/
structure Statement {κ : Type} (ρ : κ → Type) where
  selects : Rows ρ → κ → Bool
  set : (k : κ) → ρ k → Option (ρ k)

/-- A call: what it asks of the database and how it goes on. -/
inductive Sql {κ : Type} (ρ : κ → Type) (ε α : Type) : Type where
  /-- Return a value. -/
  | ret (a : α)
  /-- Return an error. An open transaction is rolled back. -/
  | fail (e : ε)
  /-- Read the caller's clock. -/
  | utcNow (next : Int → Sql ρ ε α)
  | begin (next : Sql ρ ε α)
  /-- A plain `SELECT`, with `NOW()` and what it sees. -/
  | select (next : Int → Snapshot ρ → Sql ρ ε α)
  /-- A statement that locks rows, with the rows it took as it found them. -/
  | modify (statement : Int → Statement ρ) (next : List κ → Rows ρ → Sql ρ ε α)
  /-- An `INSERT`, with whether the key was new. -/
  | insert (k : κ) (row : ρ k) (next : Bool → Sql ρ ε α)
  | commit (next : Sql ρ ε α)

namespace Sql

variable {κ : Type} {ρ : κ → Type} {ε α β : Type}

/-- Run `p`, then the call that `f` makes of its value. -/
protected def bind (p : Sql ρ ε α) (f : α → Sql ρ ε β) : Sql ρ ε β :=
  match p with
  | .ret a => f a
  | .fail e => .fail e
  | .utcNow next => .utcNow fun now => (next now).bind f
  | .begin next => .begin (next.bind f)
  | .select next => .select fun now s => (next now s).bind f
  | .modify statement next => .modify statement fun ks rows => (next ks rows).bind f
  | .insert k row next => .insert k row fun b => (next b).bind f
  | .commit next => .commit (next.bind f)

instance : Monad (Sql ρ ε) where
  pure := .ret
  bind := Sql.bind

def clock : Sql ρ ε Int := .utcNow .ret

def beginTransaction : Sql ρ ε Unit := .begin (.ret ())

def commitTransaction : Sql ρ ε Unit := .commit (.ret ())

/-- Ask what a plain statement says about what it sees. -/
def query (f : Int → Snapshot ρ → α) : Sql ρ ε α := .select fun now s => .ret (f now s)

/-- Run a statement that locks rows. -/
def execute (statement : Int → Statement ρ) : Sql ρ ε (List κ) :=
  .modify statement fun ks _ => .ret ks

/-- Insert a row, or fail with `e` if the key is taken. -/
def insertRow (k : κ) (row : ρ k) (e : ε) : Sql ρ ε Unit :=
  .insert k row fun new => if new then .ret () else .fail e

/-- `SELECT … FOR UPDATE` of the rows of `keys`, if all of them are there
and `joined`. -/
def selectForUpdate [DecidableEq κ] (keys : List κ) (joined : Rows ρ → Bool) :
    Sql ρ ε (Option (Rows ρ)) :=
  .modify (fun _ => ⟨fun rows k => keys.all (fun k => (rows k).isSome) && joined rows && k ∈ keys,
      fun _ row => some row⟩)
    fun ks rows => .ret (if ks = [] then none else some rows)

/-- Take an advisory lock. -/
def advisoryLock [DecidableEq κ] (k : κ) (e : ε) : Sql ρ ε Unit := do
  match ← selectForUpdate [k] fun _ => true with
  | some _ => .ret ()
  | none => .fail e

end Sql

/-! ### The store -/

/-- A locked row: its holder, since when, and the holder's version. -/
structure RowLock (α : Type) where
  holder : Nat
  since : Int
  row : Option α

/-- What a transaction has of a row that it has locked. -/
structure Version (α : Type) where
  since : Int
  row : Option α

/-- A row as its holder sees it, or else as it is committed. -/
def rowSeen {α : Type} (held : Option (Version α)) (committed : Option α) : Option α :=
  match held with
  | some v => v.row
  | none => committed

/-- A row as it is committed, and its lock. -/
structure Cell (α : Type) where
  committed : Option α
  lock : Option (RowLock α)

namespace Cell

variable {α : Type} (c : Cell α)

/-- What transaction `t` has of the row, if it has locked it. -/
def held (t : Nat) : Option (Version α) :=
  match c.lock with
  | some l => if l.holder = t then some ⟨l.since, l.row⟩ else none
  | none => none

/-- What a statement of transaction `t` sees of the row. -/
def view (t : Nat) : Option α := rowSeen (c.held t) c.committed

/-- No other transaction than `t` has the row locked. -/
def lockable (t : Nat) : Bool :=
  match c.lock with
  | some l => l.holder = t
  | none => true

/-- The lock of transaction `t` goes, and its version with it. -/
def release (t : Nat) : Cell α := ⟨c.committed, if c.lockable t then none else c.lock⟩

/-- The version of transaction `t` is committed. -/
def publish (t : Nat) : Cell α := ⟨c.view t, if c.lockable t then none else c.lock⟩

/-- Transaction `t` locks the row, if it is there, and writes it. -/
def write (t : Nat) (clock : Int) (set : α → Option α) : Cell α :=
  match c.view t with
  | some row => ⟨c.committed, some ⟨t, ((c.held t).map Version.since).getD clock, set row⟩⟩
  | none => c

end Cell

/-- The rows that a transaction has locked. -/
abbrev Held {κ : Type} (ρ : κ → Type) : Type := (k : κ) → Option (Version (ρ k))

/-- All rows. The index has every key that was ever inserted. -/
structure Store {κ : Type} (ρ : κ → Type) where
  cells : (k : κ) → Cell (ρ k)
  index : List κ
  nodup : index.Nodup
  covers : ∀ k, k ∉ index → cells k = ⟨none, none⟩

namespace Store

variable {κ : Type} {ρ : κ → Type} (S : Store ρ)

/-- The committed rows. -/
def committed : Rows ρ := fun k => (S.cells k).committed

/-- The rows that transaction `t` has locked. -/
def held (t : Nat) : Held ρ := fun k => (S.cells k).held t

/-- What a statement of transaction `t` sees. -/
def view (t : Nat) : Rows ρ := fun k => (S.cells k).view t

/-- What a plain statement of transaction `t` gets. -/
def snapshot (t : Nat) : Snapshot ρ where
  row := S.view t
  keys := S.index.filter fun k => (S.view t k).isSome
  nodup := S.nodup.filter _
  mem_keys k := by
    rw [List.mem_filter]
    refine ⟨And.right, fun h => ⟨?_, h⟩⟩
    by_contra hk
    unfold view at h
    rw [S.covers k hk] at h
    cases h

/-- The rows among `ks` that a statement of transaction `t` is about. -/
def matching (t : Nat) (statement : Statement ρ) (ks : List κ) : List κ :=
  ks.filter fun k => (S.view t k).isSome && statement.selects (S.view t) k

def release (t : Nat) : Store ρ where
  cells k := (S.cells k).release t
  index := S.index
  nodup := S.nodup
  covers k hk := by
    rw [S.covers k hk]
    rfl

def publish (t : Nat) : Store ρ where
  cells k := (S.cells k).publish t
  index := S.index
  nodup := S.nodup
  covers k hk := by
    rw [S.covers k hk]
    rfl

variable [DecidableEq κ]

/-- Transaction `t` locks the rows `ks` and writes them. -/
def write (t : Nat) (clock : Int) (ks : List κ) (set : (k : κ) → ρ k → Option (ρ k)) :
    Store ρ where
  cells k := if k ∈ ks then (S.cells k).write t clock (set k) else S.cells k
  index := S.index
  nodup := S.nodup
  covers k hk := by
    rw [S.covers k hk]
    exact ite_self _

/-- Transaction `t` inserts a row under a new key. -/
def insert (t : Nat) (clock : Int) (k : κ) (row : ρ k) (hk : k ∉ S.index) : Store ρ where
  cells := Function.update S.cells k ⟨none, some ⟨t, clock, some row⟩⟩
  index := k :: S.index
  nodup := List.nodup_cons.2 ⟨hk, S.nodup⟩
  covers k' hk' := by
    rw [List.mem_cons, not_or] at hk'
    rw [Function.update_of_ne hk'.1]
    exact S.covers k' hk'.2

end Store

/-! ### The interleaving -/

/-- A call under way: when its transaction began, how many statements it
has run, the rows that its current statement has found, and the rest. -/
structure Thread {κ : Type} (ρ : κ → Type) (C ε α : Type) where
  call : C
  start : Option Int
  phase : Nat
  candidates : Option (List κ)
  prog : Sql ρ ε α

/-- A committed transaction. -/
structure Commit {κ : Type} (ρ : κ → Type) (C : Type) where
  call : C
  started : Int
  time : Int
  before : Rows ρ
  after : Rows ρ

/-- The clock, the rows, the calls under way and what was committed so
far. -/
structure Db {κ : Type} (ρ : κ → Type) (C ε α : Type) where
  clock : Int
  store : Store ρ
  threads : Nat → Option (Thread ρ C ε α)
  commits : List (Commit ρ C)

/-- The steps: time passes, a call starts, call `t` goes on, call `t` is
cut off. -/
inductive DbLabel (C : Type) where
  | tick (d : Nat)
  | call (t : Nat) (c : C)
  | run (t : Nat)
  | abort (t : Nat)

namespace Db

variable {κ : Type} {ρ : κ → Type} {C ε α : Type}

def set (s : Db ρ C ε α) (t : Nat) (th : Thread ρ C ε α) : Db ρ C ε α :=
  { s with threads := Function.update s.threads t (some th) }

/-- The end of call `t`. A transaction that is still open is rolled back. -/
def finish (s : Db ρ C ε α) (t : Nat) : Db ρ C ε α :=
  { s with
    store := s.store.release t
    threads := Function.update s.threads t none }

/-- Call `t` commits what it sees. -/
def commit (s : Db ρ C ε α) (t : Nat) (th : Thread ρ C ε α) (now : Int) (next : Sql ρ ε α) :
    Db ρ C ε α :=
  { s.set t { th with start := none, prog := next } with
    store := s.store.publish t
    commits := s.commits ++ [⟨th.call, now, s.clock, s.store.committed, s.store.view t⟩] }

variable [DecidableEq κ]

/-- Call `t` takes the rows `ks` and writes them. -/
def take (s : Db ρ C ε α) (t : Nat) (th : Thread ρ C ε α) (ks : List κ)
    (set : (k : κ) → ρ k → Option (ρ k)) (next : Sql ρ ε α) : Db ρ C ε α :=
  { s.set t { th with phase := th.phase + 1, candidates := none, prog := next } with
    store := s.store.write t s.clock ks set }

/-- The next step of call `t`, which stands at `th`. -/
def runThread (s : Db ρ C ε α) (t : Nat) (th : Thread ρ C ε α) : Option (Db ρ C ε α) :=
  match th.prog with
  | .ret _ | .fail _ => some (s.finish t)
  | .utcNow next => some (s.set t { th with prog := next s.clock })
  | .begin next => some (s.set t { th with start := some s.clock, prog := next })
  | .select next =>
    some (s.set t { th with
      phase := th.phase + 1
      prog := next (th.start.getD s.clock) (s.store.snapshot t) })
  | .modify statement next =>
    match th.start, th.candidates with
    | none, _ => none
    | some now, none =>
      some (s.set t { th with
        candidates := some (s.store.matching t (statement now) s.store.index) })
    | some now, some ks =>
      if ks.all (fun k => (s.store.cells k).lockable t) then
        let ks := s.store.matching t (statement now) ks
        some (s.take t th ks (statement now).set (next ks (s.store.view t)))
      else none
  | .insert k row next =>
    if th.start.isNone then none
    else if hk : k ∈ s.store.index then
      some (s.set t { th with phase := th.phase + 1, prog := next false })
    else
      some { s.set t { th with phase := th.phase + 1, prog := next true } with
        store := s.store.insert t s.clock k row hk }
  | .commit next =>
    match th.start with
    | none => none
    | some now => some (s.commit t th now next)

end Db

/-- The interleaved calls, each running its `body`. -/
def readCommitted {κ : Type} {ρ : κ → Type} {C ε α : Type} [DecidableEq κ]
    (body : C → Sql ρ ε α) : Machine (Db ρ C ε α) (DbLabel C) where
  step s
    | .tick d => some { s with clock := s.clock + d }
    | .call t c =>
      match s.threads t with
      | none => some (s.set t ⟨c, none, 0, none, body c⟩)
      | some _ => none
    | .run t =>
      match s.threads t with
      | some th => s.runThread t th
      | none => none
    | .abort t =>
      match s.threads t with
      | some _ => some (s.finish t)
      | none => none

end Durable
