import Centrald.Durable.HashChain
import Centrald.Durable.Json
import Centrald.Server.Audit
import Mathlib.Algebra.Group.Nat.Defs
import Mathlib.Data.Set.Function

/-!
# `Centrald.Proofs.TamperEvidence`: what the last hash commits to

`verify_chain` accepts exactly the lists that form a chain behind the
hash it expects and whose rows carry the hash of their canonical record
(`verifyRows_iff`). If SHA-256 and the serialization are injective on the
records at hand, equal entry hashes mean equal canonical records, and so
equal links. The last hash then determines the list backwards
(`Durable.HashChain`).

From genesis the whole list is determined, its length included. A
continuation starts behind the hash of the previous export, and nothing
keeps a hash function from coming back to that hash. So two
continuations agree from the end up to where the shorter one starts, and
they agree throughout unless one of their rows has the previous tail as
its own hash.
-/

set_option autoImplicit false

namespace Centrald.Proofs

open Durable Server

variable {env : AuditEnv}

/-- The rows form a chain behind `p`. -/
abbrev AuditChain {μ : Type} (p : Option Bytes) (rows : List (AuditRow μ)) : Prop :=
  Chained AuditRow.previousHash AuditRow.entryHash p rows

/-! ### What is accepted -/

variable {rows : List (AuditRow env.Metadata)}

/-- The loop accepts the chains whose rows carry their own hash. -/
theorem verifyRows_iff {p : Option Bytes} : verifyRows env p rows = .ok () ↔
      AuditChain p rows ∧ ∀ row ∈ rows, recordHash env row = row.entryHash := by
  induction rows generalizing p with
  | nil => simp [verifyRows, Chained]
  | cons row rest ih =>
    rw [verifyRows, AuditChain, Chained, List.forall_mem_cons]
    by_cases hlink : row.previousHash = p
    · by_cases hhash : recordHash env row = row.entryHash
      · rw [if_neg (not_not.2 hlink), if_neg (not_not.2 hhash), ih]
        simp only [hlink, hhash, true_and]
      · rw [if_neg (not_not.2 hlink), if_pos hhash]
        simp [hhash]
    · rw [if_pos hlink]
      simp [hlink]

/-- From genesis, `verify_chain` accepts what the loop accepts from no
hash. -/
theorem verifyChain_none_iff {n : Int} : verifyChain env rows n none = .ok () ↔
      (∃ first ∈ rows.head?, n < first.sequence) ∧ verifyRows env none rows = .ok () := by
  cases rows with
  | nil => simp [verifyChain]
  | cons first rest =>
    rw [verifyChain]
    grind

/-- Behind a previous export, `verify_chain` accepts what the loop accepts
from the hash that the tail spells. -/
theorem verifyChain_some_iff {n : Int} {tail : String} :
    verifyChain env rows n (some tail) = .ok () ↔ (∃ first ∈ rows.head?, n < first.sequence) ∧
        ∃ previous, hexEncode previous = tail ∧ verifyRows env (some previous) rows = .ok () := by
  cases rows with
  | nil => simp [verifyChain]
  | cons first rest =>
    by_cases hseq : first.sequence ≤ n
    · simp [verifyChain, hseq]
    constructor
    · intro h
      by_cases hlink : first.previousHash.map hexEncode = some tail
      · cases hdecode : hexDecode tail with
        | none => simp [verifyChain, hseq, hlink, hdecode] at h
        | some previous =>
          have hrows : verifyRows env (some previous) (first :: rest) = .ok () := by
            simpa [verifyChain, hseq, hlink, hdecode] using h
          -- the loop has compared the first link with the decoded tail
          have hfirst := (verifyRows_iff.1 hrows).1.1
          grind
      · simp only [verifyChain, hseq, hlink, if_false, ne_eq, not_false_eq_true, if_true] at h
        cases h
    · rintro ⟨-, previous, rfl, hrows⟩
      have hfirst := (verifyRows_iff.1 hrows).1.1
      simpa [verifyChain, hseq, hfirst, hexDecode_hexEncode] using hrows

/-- A row that an appender inserted carries its own hash, if the column
returns the metadata as it was written. -/
theorem recordHash_row {entry : AuditEntry env.Metadata}
    (hjsonb : env.jsonb entry.metadata = entry.metadata)
    (hmicros : normalizedMicros entry.createdAt = entry.createdAt) (n : Int)
    (p : Option Bytes) : recordHash env (entry.row env n p) = (entry.row env n p).entryHash := by
  have hrecord : canonicalRecord env (entry.row env n p) = entry.canonical env p := by
    simp [canonicalRecord, AuditEntry.row, AuditEntry.canonical, hjsonb, hmicros]
  rw [recordHash, hrecord]
  rfl

/-! ### What the last hash determines -/

/-- The rows agree on every hashed field. -/
structure AgreesOnHashed {μ : Type} (a b : AuditRow μ) : Prop where
  id : a.id = b.id
  actorId : a.actorId = b.actorId
  actorLabel : a.actorLabel = b.actorLabel
  action : a.action = b.action
  targetId : a.targetId = b.targetId
  outcome : a.outcome = b.outcome
  metadata : a.metadata = b.metadata
  previousHash : a.previousHash = b.previousHash
  createdAt : normalizedMicros a.createdAt = normalizedMicros b.createdAt

theorem agreesOnHashed_of_canonicalRecord {a b : AuditRow env.Metadata}
    (h : canonicalRecord env a = canonicalRecord env b) : AgreesOnHashed a b := by
  simp only [canonicalRecord, CanonicalRecord.mk.injEq] at h
  obtain ⟨hid, hactorId, hlabel, haction, htarget, houtcome, hmetadata, hprevious, hcreated⟩ := h
  exact ⟨hid, hactorId, hlabel, haction, htarget, houtcome, hmetadata,
    Option.map_injective hexEncode_injective hprevious, hcreated⟩

/-- The canonical records of some rows. -/
def recordsOf (rows : List (AuditRow env.Metadata)) : Set (CanonicalRecord env.Metadata) :=
  { record | ∃ row ∈ rows, canonicalRecord env row = record }

section Agreement

variable {xs ys : List (AuditRow env.Metadata)}

/-- Rows that carry the same hash agree, if the hash is injective on the
records at hand. -/
theorem agreesOnHashed_of_entryHash (hserialize : Set.InjOn env.serialize (recordsOf (xs ++ ys)))
    (hsha : Set.InjOn env.sha256 (Set.image env.serialize (recordsOf (xs ++ ys))))
    (hx : ∀ row ∈ xs, recordHash env row = row.entryHash)
    (hy : ∀ row ∈ ys, recordHash env row = row.entryHash) :
    ∀ a ∈ xs, ∀ b ∈ ys, a.entryHash = b.entryHash →
      AgreesOnHashed a b ∧ a.previousHash = b.previousHash := by
  intro a ha b hb hhash
  have ha' : canonicalRecord env a ∈ recordsOf (xs ++ ys) := ⟨a, List.mem_append_left _ ha, rfl⟩
  have hb' : canonicalRecord env b ∈ recordsOf (xs ++ ys) := ⟨b, List.mem_append_right _ hb, rfl⟩
  have hsame : recordHash env a = recordHash env b := by rw [hx a ha, hy b hb, hhash]
  have htext := hsha (Set.mem_image_of_mem _ ha') (Set.mem_image_of_mem _ hb') hsame
  have hagree := agreesOnHashed_of_canonicalRecord (hserialize ha' hb' htext)
  exact ⟨hagree, hagree.previousHash⟩

theorem endHash_eq_of_ne_nil {p : Option Bytes} (h : xs ≠ []) :
    endHash AuditRow.entryHash p xs = newestHash xs := by
  rw [endHash, newestHash, List.getLast?_eq_getLast_of_ne_nil h]
  rfl

theorem ne_nil_of_verifyChain {n : Int} {tail : Option String}
    (h : verifyChain env xs n tail = .ok ()) : xs ≠ [] := by
  rintro rfl
  simp [verifyChain] at h

theorem endHash_eq_of_accepted {n m : Int} {tail : Option String}
    (hx : verifyChain env xs n tail = .ok ()) (hy : verifyChain env ys m tail = .ok ())
    (hend : newestHash xs = newestHash ys) (p : Option Bytes) :
    endHash AuditRow.entryHash p xs = endHash AuditRow.entryHash p ys := by
  rw [endHash_eq_of_ne_nil (ne_nil_of_verifyChain hx),
    endHash_eq_of_ne_nil (ne_nil_of_verifyChain hy), hend]

/-- Tamper evidence: lists accepted from genesis that end in the same hash
are as long as each other and agree on every hashed field. Continuations
of one export that end in the same hash agree from the end, as far as both
reach, and throughout if none of their rows has the previous tail as its
own hash. -/
theorem accepted_lists_agree (xs ys : List (AuditRow env.Metadata)) (n m : Int)
    (hserialize : Set.InjOn env.serialize (recordsOf (xs ++ ys)))
    (hsha : Set.InjOn env.sha256 (Set.image env.serialize (recordsOf (xs ++ ys))))
    (hend : newestHash xs = newestHash ys) :
    (verifyChain env xs n none = .ok () → verifyChain env ys m none = .ok () →
      xs.length = ys.length ∧ List.Forall₂ AgreesOnHashed xs ys) ∧
    ∀ tail : String,
      verifyChain env xs n (some tail) = .ok () → verifyChain env ys m (some tail) = .ok () →
        (∀ pair ∈ xs.reverse.zip ys.reverse, AgreesOnHashed pair.1 pair.2) ∧
        ((∀ row ∈ xs ++ ys, hexEncode row.entryHash ≠ tail) →
          xs.length = ys.length ∧ List.Forall₂ AgreesOnHashed xs ys) := by
  constructor
  · intro hx hy
    have hends := endHash_eq_of_accepted hx hy hend none
    obtain ⟨hxchain, hxhash⟩ := verifyRows_iff.1 (verifyChain_none_iff.1 hx).2
    obtain ⟨hychain, hyhash⟩ := verifyRows_iff.1 (verifyChain_none_iff.1 hy).2
    have hagree := agreesOnHashed_of_entryHash hserialize hsha hxhash hyhash
    have hall := hxchain.forall₂ hagree hychain hends fun _ _ => Option.some_ne_none _
    exact ⟨hall.length_eq, hall⟩
  · intro tail hx hy
    obtain ⟨-, previous, htail, hxrows⟩ := verifyChain_some_iff.1 hx
    obtain ⟨-, previous', htail', hyrows⟩ := verifyChain_some_iff.1 hy
    obtain rfl : previous' = previous := hexEncode_injective (htail'.trans htail.symm)
    have hends := endHash_eq_of_accepted hx hy hend (some previous')
    obtain ⟨hxchain, hxhash⟩ := verifyRows_iff.1 hxrows
    obtain ⟨hychain, hyhash⟩ := verifyRows_iff.1 hyrows
    have hagree := agreesOnHashed_of_entryHash hserialize hsha hxhash hyhash
    refine ⟨hxchain.agree_reverse hagree hychain fun _ _ => hends, fun hfresh => ?_⟩
    have hall := hxchain.forall₂ hagree hychain hends fun row hrow hsome =>
      hfresh row hrow (by rw [Option.some.inj hsome, htail])
    exact ⟨hall.length_eq, hall⟩

end Agreement

/-! ### Two exports of the same two records -/

/-- A checksum of 32 bytes, in the place of SHA-256. -/
def checksum (bytes : Bytes) : Bytes :=
  let sum := bytes.foldl (fun sum b => (sum * 257 + b.toNat + 1) % 2 ^ 256) 1
  (List.range 32).map fun i => UInt8.ofNat (sum / 256 ^ i % 256)

/-- The canonical record as a JSON object, with integers for identifiers,
times and metadata. -/
def recordJson (record : CanonicalRecord Int) : Json :=
  .obj [
    (ascii "action", .str (ascii record.action)),
    (ascii "actorId", (record.actorId.map fun id => Json.num id).getD .null),
    (ascii "actorLabel", .str (ascii record.actorLabel)),
    (ascii "createdAt", .num record.createdAt),
    (ascii "id", .num record.id),
    (ascii "metadata", .num record.metadata),
    (ascii "outcome", .str (ascii record.outcome)),
    (ascii "previousHash", (record.previousHash.map fun hash => Json.str (ascii hash)).getD .null),
    (ascii "targetId", (record.targetId.map fun id => Json.num id).getD .null)]

/-- Integers as metadata; a `JSONB` column returns them unchanged. -/
def sampleAudit : AuditEnv where
  Metadata := Int
  jsonb := id
  serialize record := (recordJson record).print
  sha256 := checksum

instance : DecidableEq sampleAudit.Metadata := inferInstanceAs (DecidableEq Int)

/-- The start of a server. -/
def startedEntry : AuditEntry sampleAudit.Metadata :=
  localEntry 1 5000 "server.started" none (0 : Int)

/-- The revocation of the identity 9 by the identity 3. -/
def revokedEntry : AuditEntry sampleAudit.Metadata :=
  rpcEntry 2 7000 (some 3) "primary" "identity.revoke" (some 9) "succeeded" (0 : Int)

/-- The two records under the sequences `n` and `m`. -/
def sampleRows (n m : Int) : List (AuditRow sampleAudit.Metadata) :=
  let started := startedEntry.row sampleAudit n none
  [started, revokedEntry.row sampleAudit m (some started.entryHash)]

/-- The text of the hash of the first record. -/
def sampleTail : String := hexEncode (startedEntry.row sampleAudit 1 none).entryHash

/-- A checksum that keeps the records apart. -/
theorem injOn_recordsOf {rows : List (AuditRow sampleAudit.Metadata)}
    (h : ∀ a ∈ rows, ∀ b ∈ rows, recordHash sampleAudit a = recordHash sampleAudit b →
      canonicalRecord sampleAudit a = canonicalRecord sampleAudit b) :
    Set.InjOn sampleAudit.serialize (recordsOf rows) ∧
    Set.InjOn sampleAudit.sha256 (Set.image sampleAudit.serialize (recordsOf rows)) := by
  have hinj : Set.InjOn (sampleAudit.sha256 ∘ sampleAudit.serialize) (recordsOf rows) := by
    rintro _ ⟨a, ha, rfl⟩ _ ⟨b, hb, rfl⟩ heq
    exact h a ha b hb heq
  exact ⟨hinj.of_comp, hinj.image_of_comp⟩

/-- The two records, exported under the sequences 1 and 2 and under the
sequences 4 and 9, and the second record as a continuation. -/
theorem accepted_lists_agree_sampleRows : ((sampleRows 1 2).length = (sampleRows 4 9).length ∧
      List.Forall₂ AgreesOnHashed (sampleRows 1 2) (sampleRows 4 9)) ∧
    ∀ pair ∈ (sampleRows 1 2).tail.reverse.zip (sampleRows 4 9).tail.reverse,
      AgreesOnHashed pair.1 pair.2 := by
  have hinj := injOn_recordsOf (show ∀ a ∈ sampleRows 1 2 ++ sampleRows 4 9, _ by decide +kernel)
  have hinjTail := injOn_recordsOf (show ∀ a ∈ (sampleRows 1 2).tail ++ (sampleRows 4 9).tail, _ by
    decide +kernel)
  constructor
  · exact (accepted_lists_agree (sampleRows 1 2) (sampleRows 4 9) 0 0 hinj.1 hinj.2 rfl).1
      (by decide +kernel) (by decide +kernel)
  · exact ((accepted_lists_agree (sampleRows 1 2).tail (sampleRows 4 9).tail 1 1 hinjTail.1
      hinjTail.2 rfl).2 sampleTail (by decide +kernel) (by decide +kernel)).1

end Centrald.Proofs
