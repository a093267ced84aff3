import Centrald.Proofs.TamperEvidence
import Centrald.Server.AuditTransactions

/-!
# `Centrald.Proofs.AuditOrder`: the audit chain never forks

Only the transaction that has the advisory lock can have rows of its own
(`AuditInv.only`). So at any time there is one list of rows, the
committed ones followed by those of the holder of the lock
(`AuditDb.rows`), and a transaction that has the lock sees exactly that
list. The invariant says that this list is in the order of the sequence
and forms a chain.

A step keeps the list, cuts it (a rollback of the holder) or puts one
row at its end, with a sequence above all others (`AuditStep.rows`). A
row that appears later has a sequence above every row that is there now.
That settles what a reader can miss.
-/

set_option autoImplicit false

namespace Centrald.Proofs

open Durable Server

variable {env : AuditEnv} {μ : Type}

/-! ### Lists in the order of the sequence -/

/-- The rows stand in the order of the sequence. -/
abbrev Ordered (rows : List (AuditRow μ)) : Prop :=
  rows.Pairwise fun a b => a.sequence < b.sequence

theorem selectNewestHash_of_ordered {rows : List (AuditRow μ)} (h : Ordered rows) :
    selectNewestHash rows = newestHash rows := by
  cases rows using List.reverseRecOn with
  | nil => rfl
  | append_singleton rows a =>
    have hlast : (rows ++ [a]).maxOn? AuditRow.sequence = some a := by
      rw [List.maxOn?_append, List.maxOn?_singleton]
      cases hmax : rows.maxOn? AuditRow.sequence with
      | none => rfl
      | some c =>
        have hc : c.sequence < a.sequence :=
          (List.pairwise_append.1 h).2.2 c (List.maxOn?_mem hmax) a (by simp)
        exact congrArg some (maxOn_eq_right (not_le.2 hc))
    rw [selectNewestHash, hlast, newestHash, List.getLast?_concat]

theorem inSequenceOrder_of_ordered {rows : List (AuditRow μ)} (h : Ordered rows) :
    inSequenceOrder rows = rows := by
  refine List.mergeSort_of_pairwise (h.imp fun hab => ?_)
  exact decide_eq_true hab.le

theorem endHash_none_eq (rows : List (AuditRow μ)) :
    endHash AuditRow.entryHash none rows = newestHash rows := by
  rw [endHash, newestHash]
  cases rows.getLast? <;> rfl

/-! ### The steps -/

/-- What a step does. Most steps only move one transaction on. -/
inductive AuditStep (db : AuditDb env.Metadata) : AuditDb env.Metadata → Prop where
  | start {t : Nat} (htx : db.transactions t = none) : AuditStep db (db.set t ⟨[], .ready⟩)
  | move {t : Nat} {own : List (AuditRow env.Metadata)} {pc pc' : AppendPc env.Metadata}
      (htx : db.transactions t = some ⟨own, pc⟩) (hlocked : pc'.Locked → pc.Locked)
      (hinsert : ∀ append p queue, pc' = .insert append p queue →
        p = selectNewestHash (db.visible (some t))) :
      AuditStep db (db.set t ⟨own, pc'⟩)
  | lock {t : Nat} {own : List (AuditRow env.Metadata)} {queue : List (AuditAppend env.Metadata)}
      (htx : db.transactions t = some ⟨own, .lock queue⟩)
      (hfree : db.lockHolder = none ∨ db.lockHolder = some t) :
      AuditStep db { db.set t ⟨own, .next queue⟩ with lockHolder := some t }
  | clash {t : Nat} {own : List (AuditRow env.Metadata)} {pc : AppendPc env.Metadata}
      (htx : db.transactions t = some ⟨own, pc⟩) (hlocked : pc.Locked) :
      AuditStep db
        (AuditDb.set { db with nextSequence := db.nextSequence + 1 } t ⟨own, .failed⟩)
  | insert {t : Nat} {own : List (AuditRow env.Metadata)} {append : AuditAppend env.Metadata}
      {p : Option Bytes} {queue : List (AuditAppend env.Metadata)}
      (htx : db.transactions t = some ⟨own, .insert append p queue⟩) :
      AuditStep db
        (AuditDb.set { db with nextSequence := db.nextSequence + 1 } t
          ⟨own ++ [append.entry.row env db.nextSequence p], .next queue⟩)
  | commit {t : Nat} {own : List (AuditRow env.Metadata)}
      (htx : db.transactions t = some ⟨own, .ready⟩) :
      AuditStep db { db.close t with committed := db.committed ++ own }
  | rollback {t : Nat} {tx : AuditTx env.Metadata} (htx : db.transactions t = some tx) :
      AuditStep db (db.close t)

/-- Each statement of a transaction is one of the cases of `AuditStep`. -/
theorem auditStep_of_step {db db' : AuditDb env.Metadata} {l : AuditLabel env.Metadata}
    (h : (auditTransactions env).step db l = some db') : AuditStep db db' := by
  cases l with
  | start t =>
    simp only [auditTransactions] at h
    split at h <;> cases h
    exact .start (by assumption)
  | call t call =>
    simp only [auditTransactions] at h
    split at h <;> cases h
    rename_i htx
    exact .move htx id nofun
  | lock t =>
    simp only [auditTransactions] at h
    split at h
    · rename_i htx
      split_ifs at h with hfree
      cases h
      exact .lock htx hfree
    · cases h
  | next t =>
    simp only [auditTransactions] at h
    split at h
    · rename_i htx
      cases h
      exact .move htx (fun _ => trivial) nofun
    · rename_i htx
      split_ifs at h
      · cases h
        exact .move htx id nofun
      · cases h
        exact .move htx (fun _ => trivial) nofun
    · cases h
  | select t =>
    simp only [auditTransactions] at h
    split at h <;> cases h
    rename_i htx
    refine .move htx (fun _ => trivial) fun append p queue hpc => ?_
    cases hpc
    rfl
  | insert t =>
    simp only [auditTransactions] at h
    split at h
    · rename_i htx
      split_ifs at h
      · cases h
        exact .clash htx trivial
      · cases h
        rw [Int.add_sub_cancel]
        exact .insert htx
    · cases h
  | commit t =>
    simp only [auditTransactions] at h
    split at h <;> cases h
    rename_i htx
    exact .commit htx
  | rollback t =>
    simp only [auditTransactions] at h
    split at h <;> cases h
    rename_i htx
    exact .rollback htx

/-! ### Only the holder of the lock has rows -/

section Frame

variable {db : AuditDb μ} {t t' : Nat} {tx : AuditTx μ}

theorem own_of_tx (htx : db.transactions t = some tx) : db.own t = tx.own := by
  rw [AuditDb.own, htx]

theorem own_of_none (htx : db.transactions t = none) : db.own t = [] := by
  rw [AuditDb.own, htx]

@[simp] theorem own_set_self : (db.set t tx).own t = tx.own :=
  own_of_tx (by simp [AuditDb.set])

theorem own_set_of_ne (h : t' ≠ t) : (db.set t tx).own t' = db.own t' := by
  simp [AuditDb.own, AuditDb.set, Function.update_of_ne h]

theorem own_close_of_ne (h : t' ≠ t) : (db.close t).own t' = db.own t' := by
  simp [AuditDb.own, AuditDb.close, Function.update_of_ne h]

theorem held_of_holder (h : db.lockHolder = some t) : db.held = db.own t := by
  rw [AuditDb.held, h]

/-- A transaction that keeps its rows keeps the list. -/
theorem rows_set (hown : tx.own = db.own t) : (db.set t tx).rows = db.rows := by
  have hheld : (db.set t tx).held = db.held := by
    have hholder : (db.set t tx).lockHolder = db.lockHolder := rfl
    rw [AuditDb.held, AuditDb.held, hholder]
    cases db.lockHolder with
    | none => rfl
    | some t' =>
      by_cases ht : t' = t
      · subst ht
        exact own_set_self.trans hown
      · exact own_set_of_ne ht
  rw [AuditDb.rows, AuditDb.rows, hheld]
  rfl

theorem held_close (h : db.lockHolder ≠ some t) : (db.close t).held = db.held := by
  have hholder : (db.close t).lockHolder = db.lockHolder := if_neg h
  rw [AuditDb.held, AuditDb.held, hholder]
  cases hh : db.lockHolder with
  | none => rfl
  | some t' =>
    refine own_close_of_ne ?_
    rintro rfl
    exact h hh

theorem held_close_holder (h : db.lockHolder = some t) : (db.close t).held = [] := by
  have hholder : (db.close t).lockHolder = none := if_pos h
  rw [AuditDb.held, hholder]

end Frame

/-- The audit invariant: who does not have the lock has no rows and no
call past it; the rows form one chain in the order of the sequence; and
the hash that an `INSERT` is about to store is that of the newest row. -/
structure AuditInv (db : AuditDb μ) : Prop where
  only : ∀ t tx, db.transactions t = some tx → db.lockHolder ≠ some t →
    tx.own = [] ∧ ¬ tx.pc.Locked
  ordered : Ordered db.rows
  below : ∀ row ∈ db.rows, row.sequence < db.nextSequence
  chained : AuditChain none db.rows
  linked : ∀ t own append p queue,
    db.transactions t = some ⟨own, .insert append p queue⟩ → p = newestHash db.rows

namespace AuditInv

variable {db : AuditDb μ} {t : Nat}

theorem holder_of_locked (h : AuditInv db) {own : List (AuditRow μ)} {pc : AppendPc μ}
    (htx : db.transactions t = some ⟨own, pc⟩) (hpc : pc.Locked) : db.lockHolder = some t := by
  by_contra hholder
  exact (h.only t _ htx hholder).2 hpc

theorem own_eq_nil (h : AuditInv db) (hholder : db.lockHolder ≠ some t) : db.own t = [] := by
  cases htx : db.transactions t with
  | none => exact own_of_none htx
  | some tx => exact (own_of_tx htx).trans (h.only t tx htx hholder).1

/-- The holder of the lock sees the list. -/
theorem visible_holder (hholder : db.lockHolder = some t) : db.visible (some t) = db.rows := by
  rw [AuditDb.visible, AuditDb.rows, held_of_holder hholder]

/-- Every statement sees committed rows only, or the list. -/
theorem visible_cases (h : AuditInv db) (reader : Option Nat) :
    db.visible reader = db.committed ∨ db.visible reader = db.rows := by
  cases reader with
  | none => exact Or.inl rfl
  | some t =>
    by_cases hholder : db.lockHolder = some t
    · exact Or.inr (visible_holder hholder)
    · left
      rw [AuditDb.visible, h.own_eq_nil hholder, List.append_nil]

theorem visible_subset (h : AuditInv db) (reader : Option Nat) : db.visible reader ⊆ db.rows := by
  rcases h.visible_cases reader with hcommitted | hall
  · rw [hcommitted]
    exact List.subset_append_left _ _
  · rw [hall]
    exact List.Subset.refl _

/-- An `INSERT` that is about to run belongs to the holder of the lock, so
a step of another transaction must keep the list. -/
theorem linked_update (h : AuditInv db) {changed : Option (AuditTx μ)} {rows : List (AuditRow μ)}
    (hself : ∀ own append p queue, changed = some ⟨own, .insert append p queue⟩ →
      p = newestHash rows)
    (hrows : ∀ t', t' ≠ t → db.lockHolder = some t' → rows = db.rows) :
    ∀ t' own append p queue,
      Function.update db.transactions t changed t' = some ⟨own, .insert append p queue⟩ →
        p = newestHash rows := by
  intro t' own append p queue htx
  by_cases ht : t' = t
  · grind
  · rw [Function.update_of_ne ht] at htx
    rw [hrows t' ht (h.holder_of_locked htx trivial)]
    exact h.linked t' own append p queue htx

end AuditInv

/-! ### One step -/

section Step

variable {db db' : AuditDb env.Metadata}

section

variable (hI : AuditInv db) (h : AuditStep db db')
include hI h

/-- A step keeps the list, cuts it, or puts one row at its end, behind
the newest row and with the next sequence. -/
theorem AuditStep.rows : (db'.rows <+: db.rows ∧ db.nextSequence ≤ db'.nextSequence) ∨
      ∃ row, db'.rows = db.rows ++ [row] ∧ row.sequence = db.nextSequence ∧
        row.previousHash = newestHash db.rows ∧ db'.nextSequence = db.nextSequence + 1 := by
  cases h with
  | start htx =>
    left
    rw [rows_set (own_of_none htx).symm]
    exact ⟨List.prefix_rfl, le_rfl⟩
  | @move t own pc pc' htx _ _ =>
    left
    have hrows : (db.set t ⟨own, pc'⟩).rows = db.rows := rows_set (own_of_tx htx).symm
    rw [hrows]
    exact ⟨List.prefix_rfl, le_rfl⟩
  | @lock t own queue htx hfree =>
    left
    refine ⟨?_, le_rfl⟩
    -- before the lock was given, nobody had rows, or `t` already had it
    have hheld : db.held = own := by
      rcases hfree with hnone | hholder
      · have hne : db.lockHolder ≠ some t := by simp [hnone]
        rw [AuditDb.held, hnone]
        exact (hI.only t _ htx hne).1.symm
      · exact (held_of_holder hholder).trans (own_of_tx htx)
    have hheld' : AuditDb.held { db.set t ⟨own, .next queue⟩ with lockHolder := some t } = own :=
      own_set_self
    rw [AuditDb.rows, AuditDb.rows, hheld, hheld']
    exact List.prefix_rfl
  | @clash t own pc htx _ =>
    left
    have hrows : (AuditDb.set { db with nextSequence := db.nextSequence + 1 } t
        ⟨own, .failed⟩).rows = db.rows := rows_set (own_of_tx htx).symm
    rw [hrows]
    exact ⟨List.prefix_rfl, Int.le_add_one le_rfl⟩
  | @insert t own append p queue htx =>
    right
    have hholder := hI.holder_of_locked htx trivial
    refine ⟨append.entry.row env db.nextSequence p, ?_, rfl, hI.linked t own append p queue htx,
      rfl⟩
    rw [AuditDb.rows, AuditDb.rows, held_of_holder hholder, own_of_tx htx, List.append_assoc]
    congr 1
    exact (held_of_holder (by exact hholder)).trans own_set_self
  | @commit t own htx =>
    left
    refine ⟨?_, le_rfl⟩
    have hheld : own ++ (db.close t).held = db.held := by
      by_cases hholder : db.lockHolder = some t
      · rw [held_close_holder hholder, held_of_holder hholder, own_of_tx htx, List.append_nil]
      · obtain rfl : own = [] := (hI.only t _ htx hholder).1
        exact held_close hholder
    rw [AuditDb.rows, AuditDb.rows, ← hheld, ← List.append_assoc]
    exact List.prefix_rfl
  | @rollback t tx htx =>
    left
    refine ⟨?_, le_rfl⟩
    rw [AuditDb.rows, AuditDb.rows]
    by_cases hholder : db.lockHolder = some t
    · rw [held_close_holder hholder, List.append_nil]
      exact List.prefix_append _ _
    · rw [held_close hholder]
      exact List.prefix_rfl

theorem AuditStep.only : ∀ t tx, db'.transactions t = some tx → db'.lockHolder ≠ some t →
      tx.own = [] ∧ ¬ tx.pc.Locked := by
  have honly := hI.only
  cases h <;> dsimp only [AuditDb.set, AuditDb.close] at * <;> grind [AppendPc.Locked]

/-- A transaction about to insert knows the newest hash, as it holds the
lock that every other insertion needs. -/
theorem AuditStep.linked :
    ∀ t own append p queue, db'.transactions t = some ⟨own, .insert append p queue⟩ →
      p = newestHash db'.rows := by
  cases h with
  | start htx => exact hI.linked_update nofun fun _ _ _ => rows_set (own_of_none htx).symm
  | @move t own pc pc' htx hlocked hinsert =>
    have hrows : (db.set t ⟨own, pc'⟩).rows = db.rows := rows_set (own_of_tx htx).symm
    refine hI.linked_update ?_ fun _ _ _ => hrows
    rintro own' append p queue hpc
    cases hpc
    have hholder := hI.holder_of_locked htx (hlocked trivial)
    rw [hrows, ← selectNewestHash_of_ordered hI.ordered, ← AuditInv.visible_holder hholder]
    exact hinsert append p queue rfl
  | @lock t own queue _ hfree =>
    refine hI.linked_update nofun fun t' ht hholder => ?_
    grind
  | @clash t own pc htx hlocked =>
    refine hI.linked_update nofun fun t' ht hholder => ?_
    rw [hI.holder_of_locked htx hlocked] at hholder
    exact absurd (Option.some.inj hholder).symm ht
  | @insert t own append p queue htx =>
    refine hI.linked_update nofun fun t' ht hholder => ?_
    rw [hI.holder_of_locked htx trivial] at hholder
    exact absurd (Option.some.inj hholder).symm ht
  | @commit t own htx =>
    refine hI.linked_update nofun fun t' ht hholder => ?_
    have hne : db.lockHolder ≠ some t := by
      grind
    obtain rfl : own = [] := (hI.only t _ htx hne).1
    rw [AuditDb.rows, AuditDb.rows, List.append_nil]
    exact congrArg _ (held_close hne)
  | @rollback t tx htx =>
    refine hI.linked_update nofun fun t' ht hholder => ?_
    have hne : db.lockHolder ≠ some t := by
      grind
    rw [AuditDb.rows, AuditDb.rows, held_close hne]
    rfl

theorem AuditStep.inv : AuditInv db' := by
  have honly := h.only hI
  have hlinked := h.linked hI
  rcases h.rows hI with ⟨hlonger, hnext⟩ | ⟨row, hrows, hsequence, hprevious, hnext⟩
  · obtain ⟨cut, hcut⟩ := hlonger
    refine ⟨honly, ?_, ?_, ?_, hlinked⟩
    · exact (List.pairwise_append.1 (hcut ▸ hI.ordered)).1
    · intro row hrow
      have hold := hI.below row (hcut ▸ List.mem_append_left cut hrow)
      omega
    · exact Chained.of_append (hcut ▸ hI.chained)
  · refine ⟨honly, ?_, ?_, ?_, hlinked⟩
    · rw [hrows]
      refine List.pairwise_append.2 ⟨hI.ordered, by simp, fun a ha b hb => ?_⟩
      obtain rfl := List.mem_singleton.1 hb
      rw [hsequence]
      exact hI.below a ha
    · rw [hrows, hnext]
      intro a ha
      rcases List.mem_append.1 ha with ha | ha
      · have hold := hI.below a ha
        omega
      · grind
    · rw [hrows]
      exact chained_concat.2 ⟨hI.chained, by rw [hprevious, endHash_none_eq]⟩

end

end Step

/-! ### Every run -/

/-- The states that transactions reach from `db`, in any interleaving. -/
abbrev AuditReaches (env : AuditEnv) : AuditDb env.Metadata → AuditDb env.Metadata → Prop :=
  (auditTransactions env).Reaches fun _ _ => True

theorem auditInv_empty : AuditInv (AuditDb.empty : AuditDb μ) where
  only := nofun
  ordered := .nil
  below := nofun
  chained := trivial
  linked := nofun

section Runs

variable {db later : AuditDb env.Metadata}

theorem AuditReaches.inv (h : AuditReaches env AuditDb.empty db) : AuditInv db :=
  h.invariant auditInv_empty fun _ _ _ hI _ hstep => (auditStep_of_step hstep).inv hI

/-- A row that is there later was there before or has a later sequence. -/
theorem AuditReaches.mem_rows (hI : AuditInv db) (h : AuditReaches env db later) :
    AuditInv later ∧ db.nextSequence ≤ later.nextSequence ∧
      ∀ row ∈ later.rows, row ∈ db.rows ∨ db.nextSequence ≤ row.sequence := by
  refine h.invariant (I := fun s => AuditInv s ∧ db.nextSequence ≤ s.nextSequence ∧
    ∀ row ∈ s.rows, row ∈ db.rows ∨ db.nextSequence ≤ row.sequence)
    ⟨hI, le_rfl, fun _ => Or.inl⟩ ?_
  rintro s l s' ⟨hI, hnext, hmem⟩ - hstep
  have hs := auditStep_of_step hstep
  rcases hs.rows hI with ⟨hlonger, hnext'⟩ | ⟨row, hrows, hsequence, -, hnext'⟩
  · exact ⟨hs.inv hI, hnext.trans hnext', fun row hrow => hmem row (hlonger.subset hrow)⟩
  · refine ⟨hs.inv hI, by omega, fun a ha => ?_⟩
    grind

/-- The audit chain never forks: whatever the interleaving and the
rollbacks, the committed rows form one chain from genesis in the order of
the sequence, and who sees a row sees every row of a smaller sequence that
any transaction will ever have. -/
theorem audit_chain_never_forks (h : AuditReaches env AuditDb.empty db) :
    AuditChain none (inSequenceOrder db.committed) ∧
    ∀ reader : Option Nat, ∀ row ∈ db.visible reader, ∀ later, AuditReaches env db later →
        ∀ writer : Option Nat, ∀ other ∈ later.visible writer,
          other.sequence < row.sequence → other ∈ db.visible reader := by
  have hI := h.inv
  constructor
  · rw [inSequenceOrder_of_ordered (List.pairwise_append.1 hI.ordered).1]
    exact Chained.of_append hI.chained
  · intro reader row hrow later hlater writer other hother hlt
    obtain ⟨hIlater, -, hmem⟩ := hlater.mem_rows hI
    have hrow' : row ∈ db.rows := hI.visible_subset reader hrow
    have hnow : other ∈ db.rows := by
      rcases hmem other (hIlater.visible_subset writer hother) with hnow | hlate
      · exact hnow
      · have hbelow := hI.below row hrow'
        omega
    rcases hI.visible_cases reader with hcommitted | hall
    · rw [hcommitted] at hrow ⊢
      rcases List.mem_append.1 hnow with hnow | hheld
      · exact hnow
      · -- the rows of the holder come after the committed ones
        have hafter := (List.pairwise_append.1 hI.ordered).2.2 row hrow other hheld
        omega
    · rw [hall]
      exact hnow

end Runs

/-- Transaction 1 appends and rolls back while 2 waits for the lock. Then
2 appends, and 3 reconciles a journal with the record of 2 and another. -/
def sampleAuditLabels : List (AuditLabel Int) :=
  [.start 1, .start 2,
    .call 1 (.rpc 10 4000 (some 3) "primary" "identity.revoke" none "succeeded" (0 : Int)),
    .call 2 (.localRoot 11 5000 "server.started" none (0 : Int)),
    .lock 1, .next 1, .select 1, .insert 1, .next 1, .rollback 1,
    .lock 2, .next 2, .select 2, .insert 2, .next 2, .commit 2,
    .start 3,
    .call 3 (.reconcile [⟨11, 5000, "server.started", "succeeded", (0 : Int)⟩,
      ⟨12, 6000, "tls.rotate", "succeeded", (0 : Int)⟩]),
    .lock 3, .next 3, .next 3, .select 3, .insert 3, .next 3, .commit 3]

/-- The two rows that are committed in such a run form a chain. -/
theorem audit_chain_never_forks_sample : ∃ db, AuditReaches sampleAudit AuditDb.empty db ∧
      db.committed.map (fun row => (row.sequence, row.id)) = [(2, 11), (3, 12)] ∧
      AuditChain none (inSequenceOrder db.committed) := by
  have hrun : ((auditTransactions sampleAudit).run (fun _ _ => true) AuditDb.empty
      sampleAuditLabels).map (fun db => db.committed.map fun row => (row.sequence, row.id)) =
        some [(2, 11), (3, 12)] := by decide +kernel
  obtain ⟨db, hreach, hcommitted⟩ := Machine.exists_of_view hrun
  exact ⟨db, hreach, hcommitted, (audit_chain_never_forks hreach).1⟩

end Centrald.Proofs
