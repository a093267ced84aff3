import Centrald.Proofs.AuditOrder
import Centrald.Server.AuditedTables

/-!
# `Centrald.Proofs.AuditVerifies`: when the audit table passes its own check

An appender hashes what the row will say, so appending keeps the table
verifiable (`VerifiedInv.append`). Every operation but one only appends.
`maintenance_once` deletes pending identities whose deadline has passed,
and `ON DELETE SET NULL` then clears `actor_id` and `target_id` in the
audit rows that name them. Both columns are hashed. `enroll` writes such
a row for every identity it creates, so each abandoned enrollment breaks
the check for good.

`AuditedKept` is the condition that a maintenance pass deletes no
identity that an audit row names. In every run whose steps meet it,
every table with a row verifies from genesis.
-/

set_option autoImplicit false

namespace Centrald.Proofs

open Durable Server

variable {env : AuditEnv} {db db' : AuditedTables env}

/-- The audit rows verify, and the sequence is ahead of them. -/
structure VerifiedInv (db : AuditedTables env) : Prop where
  ordered : Ordered db.audit
  positive : ∀ row ∈ db.audit, 0 < row.sequence
  below : ∀ row ∈ db.audit, row.sequence < db.nextSequence
  nextPositive : 0 < db.nextSequence
  chained : AuditChain none db.audit
  hashed : ∀ row ∈ db.audit, recordHash env row = row.entryHash

/-- What the appenders take care of: the time is cut to microseconds. -/
abbrev Normalized (entry : AuditEntry env.Metadata) : Prop :=
  normalizedMicros entry.createdAt = entry.createdAt

namespace VerifiedInv

/-- The identities do not matter. -/
theorem withRegistry (h : VerifiedInv db) (registry : Registry) :
    VerifiedInv { db with registry } :=
  ⟨h.ordered, h.positive, h.below, h.nextPositive, h.chained, h.hashed⟩

section

variable (hjsonb : ∀ m, env.jsonb m = m) (h : VerifiedInv db)
include hjsonb h

/-- An appended row keeps the chain verifiable. -/
theorem append {entry : AuditEntry env.Metadata} (hentry : Normalized entry)
    (hdb' : db.append entry = some db') : VerifiedInv db' := by
  unfold AuditedTables.append at hdb'
  split_ifs at hdb'
  cases hdb'
  have hlast : selectNewestHash db.audit = newestHash db.audit :=
    selectNewestHash_of_ordered h.ordered
  refine ⟨?_, ?_, ?_, ?_, ?_, ?_⟩
  · refine List.pairwise_append.2 ⟨h.ordered, by simp, fun a ha b hb => ?_⟩
    obtain rfl := List.mem_singleton.1 hb
    exact h.below a ha
  · intro row hrow
    rcases List.mem_append.1 hrow with hrow | hrow
    · exact h.positive row hrow
    · obtain rfl := List.mem_singleton.1 hrow
      exact h.nextPositive
  · intro row hrow
    show row.sequence < db.nextSequence + 1
    rcases List.mem_append.1 hrow with hrow | hrow
    · have hbelow := h.below row hrow
      omega
    · obtain rfl := List.mem_singleton.1 hrow
      show db.nextSequence < db.nextSequence + 1
      omega
  · show 0 < db.nextSequence + 1
    have hnext := h.nextPositive
    omega
  · refine chained_concat.2 ⟨h.chained, ?_⟩
    rw [endHash_none_eq, ← hlast]
    rfl
  · intro row hrow
    rcases List.mem_append.1 hrow with hrow | hrow
    · exact h.hashed row hrow
    · obtain rfl := List.mem_singleton.1 hrow
      exact recordHash_row (hjsonb entry.metadata) hentry _ _

theorem change {registry : Option Registry} {entry : AuditEntry env.Metadata}
    (hentry : Normalized entry) (hdb' : db.change registry entry = some db') : VerifiedInv db' := by
  obtain ⟨registry, -, happend⟩ := Option.bind_eq_some_iff.1 hdb'
  exact (h.withRegistry registry).append hjsonb hentry happend

theorem reconcile {records : List (LocalAuditRecord env.Metadata)}
    (hdb' : db.reconcile records = some db') : VerifiedInv db' := by
  induction records generalizing db with
  | nil =>
    cases hdb'
    exact h
  | cons record rest ih =>
    rw [AuditedTables.reconcile] at hdb'
    split_ifs at hdb' with hpresent
    · exact ih h hdb'
    · obtain ⟨mid, hmid, hrest⟩ := Option.bind_eq_some_iff.1 hdb'
      exact ih (h.append hjsonb (normalizedMicros_normalizedMicros _) hmid) hrest

end

/-- Sequences that a rollback skips. -/
theorem skip (h : VerifiedInv db) (rows : Nat) :
    VerifiedInv { db with nextSequence := db.nextSequence + rows } := by
  refine ⟨h.ordered, h.positive, fun row hrow => ?_, ?_, h.chained, h.hashed⟩
  · have hbelow := h.below row hrow
    grind
  · have hnext := h.nextPositive
    grind

end VerifiedInv

/-! ### The maintenance pass -/

/-- A row names an identity, as its actor or as its target. -/
def Names (row : AuditRow env.Metadata) (identity : Nat) : Prop :=
  row.actorId = some identity ∨ row.targetId = some identity

/-- A maintenance pass deletes no identity that an audit row names. -/
def AuditedKept (db : AuditedTables env) : AuditedLabel env.Metadata → Prop
  | .maintenance now => ∀ row ∈ db.audit, ∀ identity, Names row identity →
      db.deletes now identity = false
  | _ => True

theorem setNull_eq_self {deleted : Nat → Bool} {row : AuditRow env.Metadata}
    (h : ∀ identity, Names row identity → deleted identity = false) :
    AuditedTables.setNull deleted row = row := by
  have hactor : row.actorId.filter (fun actor => !deleted actor) = row.actorId := by
    cases hrow : row.actorId with
    | none => rfl
    | some actor => simp [h actor (Or.inl hrow)]
  have htarget : row.targetId.filter (fun target => !deleted target) = row.targetId := by
    cases hrow : row.targetId with
    | none => rfl
    | some target => simp [h target (Or.inr hrow)]
  rw [AuditedTables.setNull, hactor, htarget]

theorem VerifiedInv.maintenance (h : VerifiedInv db) {now : Int}
    (hkept : AuditedKept db (.maintenance now)) : VerifiedInv (db.maintenance now) := by
  have haudit : db.audit.map (AuditedTables.setNull (db.deletes now)) = db.audit :=
    (List.map_congr_left fun row hrow => setNull_eq_self (hkept row hrow)).trans (List.map_id _)
  have hdb : db.maintenance now = { db with registry := db.registry.maintenance now } := by
    rw [AuditedTables.maintenance, haudit]
  rw [hdb]
  exact h.withRegistry _

/-! ### Every run -/

/-- One operation keeps the audit rows verifiable, if it meets the
condition. -/
theorem VerifiedInv.step (hjsonb : ∀ m, env.jsonb m = m) (h : VerifiedInv db)
    {l : AuditedLabel env.Metadata} (hkept : AuditedKept db l)
    (hstep : (auditedTables env).step db l = some db') : VerifiedInv db' := by
  cases l with
  | rpc => exact h.append hjsonb (normalizedMicros_normalizedMicros _) hstep
  | enroll => exact h.change hjsonb (normalizedMicros_normalizedMicros _) hstep
  | renew =>
    obtain ⟨identity, -, hchange⟩ := Option.bind_eq_some_iff.1 hstep
    exact h.change hjsonb (normalizedMicros_normalizedMicros _) hchange
  | activate =>
    obtain ⟨registry, -, hchange⟩ := Option.bind_eq_some_iff.1 hstep
    split_ifs at hchange
    · cases hchange
      exact h
    · exact h.change hjsonb (normalizedMicros_normalizedMicros _) hchange
  | revoke =>
    obtain ⟨actor, -, hchange⟩ := Option.bind_eq_some_iff.1 hstep
    exact h.change hjsonb (normalizedMicros_normalizedMicros _) hchange
  | revokeLocal => exact h.change hjsonb (normalizedMicros_normalizedMicros _) hstep
  | replace =>
    obtain ⟨identity, -, hchange⟩ := Option.bind_eq_some_iff.1 hstep
    exact h.change hjsonb (normalizedMicros_normalizedMicros _) hchange
  | localAudit => exact h.append hjsonb (normalizedMicros_normalizedMicros _) hstep
  | reconcile => exact h.reconcile hjsonb hstep
  | maintenance =>
    cases hstep
    exact h.maintenance hkept
  | rollback rows =>
    cases hstep
    exact h.skip rows

theorem verifiedInv_fresh : VerifiedInv (AuditedTables.fresh env) where
  ordered := .nil
  positive := nofun
  below := nofun
  nextPositive := Int.one_pos
  chained := trivial
  hashed := nofun

/-- If the `JSONB` column returns the metadata as written and no
maintenance pass deletes an identity that an audit row names, then every
audit table with a row verifies from genesis. -/
theorem audit_verifies_while_kept (hjsonb : ∀ m, env.jsonb m = m)
    (h : (auditedTables env).Reaches AuditedKept (.fresh env) db) (hrows : db.audit ≠ []) :
    verifyChain env (inSequenceOrder db.audit) 0 none = .ok () := by
  have hI : VerifiedInv db :=
    h.invariant verifiedInv_fresh fun _ _ _ hI hkept hstep => hI.step hjsonb hkept hstep
  rw [inSequenceOrder_of_ordered hI.ordered]
  obtain ⟨first, rest, haudit⟩ := List.exists_cons_of_ne_nil hrows
  have hfirst : 0 < first.sequence := hI.positive first (by simp [haudit])
  exact verifyChain_none_iff.2 ⟨⟨first, by simp [haudit], hfirst⟩,
    verifyRows_iff.2 ⟨hI.chained, hI.hashed⟩⟩

/-- The condition of a maintenance pass, as a test. -/
def auditedKept (db : AuditedTables env) : AuditedLabel env.Metadata → Bool
  | .maintenance now => db.audit.all fun row =>
      row.actorId.all (fun actor => !db.deletes now actor) &&
        row.targetId.all (fun target => !db.deletes now target)
  | _ => true

theorem auditedKept_of_test {l : AuditedLabel env.Metadata} (h : auditedKept db l = true) :
    AuditedKept db l := by
  cases l with
  | maintenance now =>
    intro row hrow identity hnames
    have htest := List.all_eq_true.1 h row hrow
    rcases hnames with hactor | htarget
    · simpa [hactor] using (Bool.and_eq_true_iff.1 htest).1
    · simpa [htarget] using (Bool.and_eq_true_iff.1 htest).2
  | _ => trivial

/-- An invitation is made and a client enrolls with it. -/
def enrolledLabels : List (AuditedLabel Int) :=
  [.localAudit 1 0 "enrollment_key.create" none 0,
    .enroll 2 1000 .client 9 5 (365 * identityActivationTtl) 0]

/-- The client enrolls and activates its identity within the day. Two days
later a maintenance pass runs, and the table verifies. -/
theorem audit_verifies_while_kept_activated :
    ∃ db, (auditedTables sampleAudit).Reaches AuditedKept (.fresh sampleAudit) db ∧
      db.audit.map (fun row => (row.actorId, row.action)) =
        [(none, "enrollment_key.create"), (some 9, "identity.enroll_pending"),
          (some 9, "identity.activate")] ∧
      verifyChain sampleAudit (inSequenceOrder db.audit) 0 none = .ok () := by
  have hrun : ((auditedTables sampleAudit).run auditedKept (.fresh sampleAudit)
      (enrolledLabels ++ [.activate 3 2000 9 5 .client 0,
        .maintenance (2 * identityActivationTtl)])).map
        (fun db => db.audit.map fun row => (row.actorId, row.action)) =
      some [(none, "enrollment_key.create"), (some 9, "identity.enroll_pending"),
        (some 9, "identity.activate")] := by decide +kernel
  obtain ⟨db, hreach, haudit⟩ := Machine.reached_of_view (fun _ _ _ => auditedKept_of_test) hrun
  refine ⟨db, hreach, haudit, audit_verifies_while_kept (fun _ => rfl) hreach ?_⟩
  grind

/-- The client never activates the identity. The maintenance pass deletes
it and the table no longer verifies. -/
theorem abandoned_enrollment_breaks_chain :
    ∃ db, (auditedTables sampleAudit).Reaches (fun _ _ => True) (.fresh sampleAudit) db ∧
      db.audit ≠ [] ∧ verifyChain sampleAudit (inSequenceOrder db.audit) 0 none ≠ .ok () := by
  have hrun : ((auditedTables sampleAudit).run (fun _ _ => true) (.fresh sampleAudit)
      (enrolledLabels ++ [.maintenance (2 * identityActivationTtl)])).map
        (fun db => decide (Ordered db.audit ∧ db.audit ≠ [] ∧
          verifyChain sampleAudit db.audit 0 none ≠ .ok ())) = some true := by decide +kernel
  obtain ⟨db, hreach, hview⟩ := Machine.exists_of_view hrun
  obtain ⟨hordered, hbroken⟩ := of_decide_eq_true hview
  exact ⟨db, hreach, (inSequenceOrder_of_ordered hordered).symm ▸ hbroken⟩

end Centrald.Proofs
