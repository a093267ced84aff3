import Centrald.Client.Broker
import Mathlib.Data.Finset.Dedup
import Mathlib.Data.List.Nodup

/-!
# `Centrald.Proofs.GrantVerifier`: the two structures of the verifier stay in step

`Synced v` says that the consumed set of a verifier holds exactly the
identifiers of its expiry queue, each of which the queue holds once.
Every operation of the verifier keeps it. For a synced verifier pruning
removes exactly the expired entries (`mem_pruneExpired`), from the set
as well as from the queue.
-/

set_option autoImplicit false

namespace Centrald.Proofs

open Durable Common Platform Client

variable {sigs : Signatures}

/-- The identifiers in the expiry queue. -/
def queuedIds (v : GrantVerifier sigs) : List Nat := v.order.items.map Expiry.id

/-- The consumed set holds the identifiers of the queue, and the queue
holds each of them once. -/
structure Synced (v : GrantVerifier sigs) : Prop where
  consumed_eq : v.consumed = (queuedIds v).toFinset
  nodup : (queuedIds v).Nodup

variable {v : GrantVerifier sigs}

theorem Synced.mem_consumed (h : Synced v) {id : Nat} :
    id ∈ v.consumed ↔ ∃ e ∈ v.order.items, e.id = id := by
  rw [h.consumed_eq, List.mem_toFinset, queuedIds, List.mem_map]

theorem synced_new (deviceId : Nat) (key : sigs.Key) : Synced (GrantVerifier.new deviceId key) :=
  ⟨rfl, List.nodup_nil⟩

/-- A new entry keeps the two structures in step. -/
theorem synced_insert (h : Synced v) {id : Nat} (expiresAt : Int)
    (hid : id ∉ v.consumed) : Synced (v.insert id expiresAt) := by
  have hperm : (queuedIds (v.insert id expiresAt)).Perm (id :: queuedIds v) :=
    (MinHeap.push_perm v.order (toLex (expiresAt, id))).map Expiry.id
  refine ⟨?_, ?_⟩
  · rw [List.toFinset_eq_of_perm _ _ hperm, List.toFinset_cons, ← h.consumed_eq]
    rfl
  · rw [hperm.nodup_iff, List.nodup_cons]
    refine ⟨?_, h.nodup⟩
    rwa [h.consumed_eq, List.mem_toFinset] at hid

/-- Entries below an expired one have expired. -/
theorem expired_of_le (now : Int) (a b : Expiry) (hab : a ≤ b)
    (hb : decide (b.expiresAt ≤ now) = true) : decide (a.expiresAt ≤ now) = true := by
  have hle : a.expiresAt ≤ b.expiresAt := Prod.Lex.monotone_fst a b hab
  grind

/-- Pruning keeps exactly the entries that expire later. -/
theorem mem_pruneExpired {now : Int} {e : Expiry} :
    e ∈ (v.pruneExpired now).order.items ↔ e ∈ v.order.items ∧ now < e.expiresAt := by
  show e ∈ (v.order.popWhile _).items ↔ _
  rw [MinHeap.mem_popWhile_iff (expired_of_le now), decide_eq_false_iff_not, not_le]

/-- Erasing the identifiers of some entries from a set. -/
private theorem mem_foldl_erase (entries : List Expiry) (id : Nat) : ∀ ids : Finset Nat,
    id ∈ entries.foldl (fun ids e => ids.erase e.id) ids ↔ id ∈ ids ∧ ∀ e ∈ entries, e.id ≠ id := by
  induction entries with
  | nil => intro ids; simp
  | cons e rest ih =>
    grind

/-- Pruning takes the same grants from the set and from the heap. -/
theorem synced_pruneExpired (h : Synced v) (now : Int) : Synced (v.pruneExpired now) := by
  let expired : Expiry → Bool := fun e => e.expiresAt ≤ now
  have hsplit : (v.order.popped expired).map Expiry.id ++ queuedIds (v.pruneExpired now) =
      queuedIds v := by
    rw [queuedIds, queuedIds, ← List.map_append]
    exact congrArg (List.map Expiry.id) (MinHeap.popped_append_popWhile v.order expired)
  have hnodup := h.nodup
  rw [← hsplit, List.nodup_append'] at hnodup
  obtain ⟨-, hrest, hdisjoint⟩ := hnodup
  refine ⟨?_, hrest⟩
  ext id
  have hconsumed : id ∈ v.consumed ↔
      id ∈ (v.order.popped expired).map Expiry.id ∨ id ∈ queuedIds (v.pruneExpired now) := by
    rw [h.consumed_eq, List.mem_toFinset, ← hsplit, List.mem_append]
  have hpruned : id ∈ (v.pruneExpired now).consumed ↔
      id ∈ v.consumed ∧ id ∉ (v.order.popped expired).map Expiry.id := by
    refine (mem_foldl_erase _ id v.consumed).trans (and_congr_right fun _ => ?_)
    grind
  rw [hpruned, hconsumed, List.mem_toFinset]
  constructor
  · grind
  · intro hmem
    exact ⟨.inr hmem, fun hpopped => hdisjoint hpopped hmem⟩

theorem synced_restore (h : Synced v) (id : Nat)
    (expiresAt now : Int) : Synced (v.restore id expiresAt now) := by
  unfold GrantVerifier.restore
  by_cases hexp : expiresAt ≤ now
  · rwa [if_pos hexp]
  · by_cases hid : id ∈ v.consumed
    · rwa [if_neg hexp, if_pos hid]
    · rw [if_neg hexp, if_neg hid]
      exact synced_insert h expiresAt hid

/-- Restoring keeps every entry. -/
theorem mem_restore {e : Expiry} (he : e ∈ v.order.items) (id : Nat)
    (expiresAt now : Int) : e ∈ (v.restore id expiresAt now).order.items := by
  unfold GrantVerifier.restore
  by_cases hexp : expiresAt ≤ now
  · rwa [if_pos hexp]
  · by_cases hid : id ∈ v.consumed
    · rwa [if_neg hexp, if_pos hid]
    · rw [if_neg hexp, if_neg hid]
      exact MinHeap.mem_push.2 (.inr he)

/-! ### One acceptance -/

/-- What `verifyAndConsume` does to the verifier, and when it accepts. -/
theorem verifyAndConsume_cases (texts : Texts) (v : GrantVerifier sigs) (signed : SignedGrant)
    (now : Int) :
    (∃ e, v.verifyAndConsume texts signed now = (v, .error e)) ∨
    (∃ e, v.verifyAndConsume texts signed now = (v.pruneExpired now, .error e)) ∨
    (v.verifyAndConsume texts signed now =
        ((v.pruneExpired now).insert signed.grant.id signed.grant.expiresAt, .ok ()) ∧
      signed.verify texts sigs v.signingKey v.deviceId now = .ok () ∧
      signed.grant.id ∉ (v.pruneExpired now).consumed) := by
  unfold GrantVerifier.verifyAndConsume
  cases hverify : signed.verify texts sigs v.signingKey v.deviceId now with
  | error e => exact .inl ⟨_, rfl⟩
  | ok u =>
    by_cases hid : signed.grant.id ∈ (v.pruneExpired now).consumed
    · exact .inr (.inl ⟨.replay, by simp only [if_pos hid]⟩)
    · by_cases hfull : (v.pruneExpired now).order.len ≥ maxReplayEntries
      · exact .inr (.inl ⟨.replaySetFull, by simp only [if_neg hid, if_pos hfull]⟩)
      · exact .inr (.inr ⟨by simp only [if_neg hid, if_neg hfull], rfl, hid⟩)

/-- Pruning takes from the set only. -/
theorem consumed_pruneExpired_subset (v : GrantVerifier sigs) (now : Int) :
    (v.pruneExpired now).consumed ⊆ v.consumed :=
  fun id hid => ((mem_foldl_erase _ id v.consumed).1 hid).1

theorem len_pruneExpired_le (v : GrantVerifier sigs) (now : Int) :
    (v.pruneExpired now).order.len ≤ v.order.len :=
  (List.dropWhile_sublist _).length_le

/-- A valid grant that was not consumed is accepted, if there is room. -/
theorem verifyAndConsume_of_room {texts : Texts} {signed : SignedGrant}
    {now : Int} (hverify : signed.verify texts sigs v.signingKey v.deviceId now = .ok ())
    (hid : signed.grant.id ∉ v.consumed) (hroom : v.order.len < maxReplayEntries) :
    v.verifyAndConsume texts signed now =
      ((v.pruneExpired now).insert signed.grant.id signed.grant.expiresAt, .ok ()) := by
  have hid' : signed.grant.id ∉ (v.pruneExpired now).consumed :=
    fun hmem => hid (consumed_pruneExpired_subset v now hmem)
  have hroom' : ¬ (v.pruneExpired now).order.len ≥ maxReplayEntries :=
    Nat.not_le.2 (Nat.lt_of_le_of_lt (len_pruneExpired_le v now) hroom)
  simp only [GrantVerifier.verifyAndConsume, hverify, if_neg hid', if_neg hroom']

end Centrald.Proofs
