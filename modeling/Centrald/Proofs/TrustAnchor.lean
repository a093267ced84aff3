import Centrald.Durable.Disturbed
import Centrald.Proofs.Reenrollment

/-!
# `Centrald.Proofs.TrustAnchor`: re-enrollment and the broker's verifying key

`publish_grant_verifying_key` removes the old key and then creates the
new one, before the new configuration is published. Whatever ends the
run later, an error or a crash, does not bring the old key back.

Until the key is published a re-enrollment issues its operations in one
order, and the environment chooses the first one that fails or at which
the process stops (`Disturbance`):

* 0 to 5: the state is prepared, the pointer and the old configuration
  are read, the server enrolls the client, the generation is written;
* 6 to 8: the broker's directory is prepared, the old key is found and
  removed;
* 9 to 14: the new key is written to a temporary file and linked;
* 15 to 17: the temporary file is removed, the directory synced and the
  owner of the key set.

`reenroll_keeps_key` says that the old key is kept if the disturbance
comes no later than the removal, whatever the server's key is, and also
if the server has the same key and the disturbance comes after the link.
-/

set_option autoImplicit false

namespace Centrald.Proofs

open Durable Common Server Client Client.CredentialM

/-! ### Positions -/

/-- The number of the operation that removes the old key. -/
def removalPosition : Nat := 8

/-- The number of the operation that links the new key into place. -/
def linkPosition : Nat := 14

/-- The process does not stop before the new key is linked, and neither
the link fails nor the operation after it, the removal of the temporary
file, whose failure makes `write_new_file` remove the linked key again. -/
def AfterLink : Disturbance → Prop
  | .stops n => linkPosition < n
  | .fails n => linkPosition + 1 < n

instance : DecidablePred AfterLink
  | .stops _ => inferInstanceAs (Decidable (_ < _))
  | .fails _ => inferInstanceAs (Decidable (_ < _))

theorem AfterLink.lt_position {d : Disturbance} (h : AfterLink d) : linkPosition < d.position := by
  cases d with
  | stops n => exact h
  | fails n => exact Nat.lt_of_succ_lt h

/-- The removal of the temporary file does not fail. -/
theorem AfterLink.answers {d : Disturbance} (h : AfterLink d) {failure : Bool}
    (hanswers : d.Answers (linkPosition + 1) failure) : failure = false := by
  cases d with
  | stops n => exact hanswers.2
  | fails n => exact hanswers.1 h

/-! ### The program that writes the key -/

/-- The broker's files and the number of operations so far. -/
abbrev BrokerPlace := Fs BrokerFile Bytes × Nat

/-- A reply of the file system that reports an error. -/
def fileReplyFails : FileReply → Bool
  | .failed _ => true
  | _ => false

/-- The operations on the broker's files, any of which may fail. -/
def brokerFileSem : Sem (FileOp BrokerFile) FileReply (Fs BrokerFile Bytes) :=
  fileSem (fun _ => True) fun t t' => t' = t

/-- The key file holds `old`. -/
def HasKey (old : Bytes) (t : BrokerPlace) : Prop := t.1 .verifyingKey = some old

/-- The key file holds `old` before operation `i`, and nothing has gone
wrong so far. -/
def KeyAt (d : Disturbance) (old : Bytes) (i : Nat) (t : BrokerPlace) : Prop :=
  HasKey old t ∧ t.2 = i ∧ i ≤ d.position

/-- Operations that leave the key file alone. -/
def LeavesKey : FileOp BrokerFile → Prop
  | .stat _ | .read _ | .metadata => True
  | .createNew x | .write x _ | .sync x | .remove x => x = .temporary
  | _ => False

/-- The key file after an operation that leaves it alone, whether the
operation succeeds or fails or writes a part of its data. -/
theorem effect_leavesKey {op : FileOp BrokerFile} (hop : LeavesKey op)
    {fs fs' : Fs BrokerFile Bytes} {r : FileReply} (h : brokerFileSem.effect op fs fs' r) :
    fs' .verifyingKey = fs .verifyingKey := by
  have hrun (op : FileOp BrokerFile) (hop : LeavesKey op) :
      (op.run fs).1 .verifyingKey = fs .verifyingKey := by
    cases op with
    | stat x => rfl
    | metadata => rfl
    | read x =>
      simp only [FileOp.run]
      split <;> rfl
    | createNew x | write x data | sync x | remove x =>
      have hx : x = .temporary := hop
      subst hx
      simp only [FileOp.run]
      split <;> simp
    | _ => exact hop.elim
  rcases h with h | ⟨-, -, rfl | hpart⟩
  · rw [← hrun op hop, h]
  · rfl
  · cases op with
    | write x data =>
      obtain ⟨k, rfl⟩ := hpart
      exact hrun (.write x (data.take k)) hop
    | _ => exact hpart.elim

section

variable {x y : BrokerFile} {fs fs' : Fs BrokerFile Bytes} {r : FileReply}

/-- A removal is carried out, or it fails and does nothing. -/
theorem effect_remove (h : brokerFileSem.effect (.remove x) fs fs' r) :
    (r = .done ∧ fs' = Function.update fs x none) ∨ (fileReplyFails r = true ∧ fs' = fs) := by
  rcases h with h | ⟨-, rfl, rfl | hpart⟩
  · simp only [FileOp.run] at h
    split at h <;> cases h
    · exact .inl ⟨rfl, rfl⟩
    · exact .inr ⟨rfl, rfl⟩
  · exact .inr ⟨rfl, rfl⟩
  · exact hpart.elim

/-- A link to a name that exists fails and does nothing. -/
theorem effect_hardLink (h : brokerFileSem.effect (.hardLink x y) fs fs' r)
    (hy : (fs y).isSome = true) : r ≠ .done ∧ fs' = fs := by
  obtain ⟨f, hf⟩ := Option.isSome_iff_exists.1 hy
  rcases h with h | ⟨-, rfl, rfl | hpart⟩
  · simp only [FileOp.run, hf] at h
    grind
  · exact ⟨by simp, rfl⟩
  · exact hpart.elim

end

section Key

variable {d : Disturbance} {old pem : Bytes} {α β ε : Type}

/-- From `P` the program returns with `Q`. Whenever it fails or stops,
the old key is there. -/
def KeySpec (d : Disturbance) (old : Bytes) (P : BrokerPlace → Prop) (p : FileM ε BrokerFile α)
    (Q : α → BrokerPlace → Prop) : Prop :=
  ETriple (brokerFileSem.disturbed fileReplyFails d) P p Q (fun _ => HasKey old) (HasKey old)

variable {P : BrokerPlace → Prop} {op : FileOp BrokerFile} {Q : α → BrokerPlace → Prop} {e : ε}
  {i : Nat}

theorem KeySpec.bind {p : FileM ε BrokerFile α} {f : α → FileM ε BrokerFile β}
    {R : α → BrokerPlace → Prop} {Q : β → BrokerPlace → Prop}
    (hp : KeySpec d old P p R) (hf : ∀ a, KeySpec d old (R a) (f a) Q) :
    KeySpec d old P (p >>= f) Q :=
  ETriple.bind hp hf

theorem KeySpec.conseq {p : FileM ε BrokerFile α} {P' : BrokerPlace → Prop}
    {Q' : α → BrokerPlace → Prop} (h : KeySpec d old P p Q) (hP : ∀ t, P' t → P t)
    (hQ : ∀ a t, Q a t → Q' a t) : KeySpec d old P' p Q' :=
  ETriple.conseq h hP hQ (fun _ _ h => h) fun _ h => h

theorem keySpec_throw : KeySpec d old (HasKey old) (throw e : FileM ε BrokerFile α) Q :=
  ETriple.throw (fun _ h => h) fun t t' h hs => by
    rw [HasKey, hs.1]
    exact h

/-- One operation, whatever is made of its reply. Where the process may
stop, before, inside or after the operation, the key must be there. -/
theorem keySpec_call (k : FileReply → Except ε α) {R : FileReply → BrokerPlace → Prop}
    (hstop : ∀ t, P t → d.MayStop t.2 → HasKey old t)
    (htorn : ∀ t fs, P t → op.Partly t.1 fs → d.MayStop t.2 → HasKey old (fs, t.2))
    (heff : ∀ t fs r, P t → brokerFileSem.effect op t.1 fs r →
      d.Answers t.2 (fileReplyFails r) → R r (fs, t.2 + 1))
    (hok : ∀ r t a, R r t → k r = .ok a → Q a t)
    (hend : ∀ r t, R r t → (∃ e, k r = .error e) ∨ d.MayStop t.2 → HasKey old t) :
    KeySpec d old P (ExceptT.mk (.call op fun r => .ret (k r)) : FileM ε BrokerFile α) Q := by
  have hsame {t t' : BrokerPlace}
      (hs : (brokerFileSem.disturbed fileReplyFails d).survives t t')
      (h : HasKey old t) : HasKey old t' := by
    rw [HasKey, hs.1]
    exact h
  refine ETriple.call (R := R) (fun t t' ht hs => ?_) (fun t t' t'' ht hpart hs => ?_) ?_
    (fun r t h => ?_) fun r t t' h hs => ?_
  · exact hsame hs (hstop t ht hs.2.2)
  · refine hsame hs ?_
    rw [show t' = (t'.1, t.2) from Prod.ext rfl hpart.2]
    exact htorn t t'.1 ht hpart.1 (hpart.2 ▸ hs.2.2)
  · rintro t t' r ht ⟨hop, hcount, hanswers⟩
    rw [show t' = (t'.1, t.2 + 1) from Prod.ext rfl hcount]
    exact heff t t'.1 r ht hop hanswers
  · cases hk : k r with
    | ok a => exact hok r t a h hk
    | error e => exact hend r t h (.inl ⟨e, hk⟩)
  · exact hsame hs (hend r t h (.inr hs.2.2))

/-! #### While the key is there -/

/-- An operation that leaves the key alone keeps it there. `U` is what is
known of the number of the operation. -/
theorem keySpec_leavesKey (k : FileReply → Except ε α) (hop : LeavesKey op) (U : Nat → Prop) :
    KeySpec d old (fun t => HasKey old t ∧ U t.2)
      (ExceptT.mk (.call op fun r => .ret (k r)) : FileM ε BrokerFile α)
      fun a t => HasKey old t ∧
        ∃ r i, k r = .ok a ∧ U i ∧ d.Answers i (fileReplyFails r) ∧ t.2 = i + 1 := by
  refine keySpec_call k (R := fun r t => HasKey old t ∧
      ∃ i, U i ∧ d.Answers i (fileReplyFails r) ∧ t.2 = i + 1) (fun t ht _ => ht.1) ?_ ?_
    (fun r t a h hk => ⟨h.1, r, _, hk, h.2.choose_spec⟩) fun r t h _ => h.1
  · intro t fs ht hpart _
    exact (effect_leavesKey (r := .failed .other) hop (.inr ⟨trivial, rfl, .inr hpart⟩)).trans ht.1
  · rintro t fs r ⟨hkey, hU⟩ heff hanswers
    exact ⟨(effect_leavesKey hop heff).trans hkey, t.2, hU, hanswers, rfl⟩

/-- The same, when nothing is known of the position. -/
theorem keySpec_keeps (k : FileReply → Except ε α) (hop : LeavesKey op) :
    KeySpec d old (HasKey old) (ExceptT.mk (.call op fun r => .ret (k r)) : FileM ε BrokerFile α)
      fun _ => HasKey old :=
  (keySpec_leavesKey k hop fun _ => True).conseq (fun _ h => ⟨h, trivial⟩) fun _ _ h => h.1

/-- The same in an undisturbed run, which is undisturbed after it unless
the reply is a failure. -/
theorem keySpec_at (k : FileReply → Except ε α) (hop : LeavesKey op) :
    KeySpec d old (KeyAt d old i)
      (ExceptT.mk (.call op fun r => .ret (k r)) : FileM ε BrokerFile α)
      fun a t => HasKey old t ∧
        ∃ r, k r = .ok a ∧ (fileReplyFails r = false → KeyAt d old (i + 1) t) := by
  refine (keySpec_leavesKey k hop fun n => n = i ∧ i ≤ d.position).conseq (fun _ h => h) ?_
  rintro a t ⟨hkey, r, _, hk, ⟨rfl, hi⟩, hanswers, ht⟩
  refine ⟨hkey, r, hk, fun hr => ⟨hkey, ht, ?_⟩⟩
  rw [hr] at hanswers
  exact hanswers.lt_position hi

theorem keySpec_act (hop : LeavesKey op) :
    KeySpec d old (KeyAt d old i) (FileM.act op e) fun _ => KeyAt d old (i + 1) := by
  refine KeySpec.conseq (keySpec_at _ hop) (fun _ h => h) ?_
  rintro _ t ⟨-, r, hr, h⟩
  split at hr
  next hdone =>
    rw [hdone] at h
    exact h rfl
  next => cases hr

/-- With the key there, a failed look for it goes unnoticed, but the
write then finds it or cannot link over it. -/
theorem keySpec_writeGrantVerifyingKey_present :
    KeySpec d old (HasKey old) (writeGrantVerifyingKey pem) fun _ => HasKey old := by
  have hlink : KeySpec d old (HasKey old)
      (FileM.attempt (.hardLink .temporary .verifyingKey) : FileM SecureFileError _ _)
      fun r t => r ≠ .done ∧ HasKey old t := by
    refine keySpec_call .ok (R := fun r t => r ≠ .done ∧ HasKey old t) (fun t ht _ => ht)
      (fun _ _ _ h => h.elim) ?_ ?_ fun r t h _ => h.2
    · intro t fs r ht heff _
      obtain ⟨hr, rfl⟩ := effect_hardLink heff (by rw [show t.1 _ = _ from ht]; rfl)
      exact ⟨hr, ht⟩
    · rintro r t _ h ⟨⟩
      exact h
  have hnew : KeySpec d old (HasKey old) (writeNewFile .verifyingKey .temporary pem)
      fun _ => HasKey old := by
    refine .bind (keySpec_keeps _ trivial) fun found => ?_
    split
    · exact keySpec_throw
    · refine .bind (keySpec_keeps _ trivial) fun _ => .bind (keySpec_keeps _ rfl) fun _ =>
        .bind (keySpec_keeps _ rfl) fun _ => .bind (keySpec_keeps _ rfl) fun _ =>
        .bind hlink fun r => ?_
      cases r with
      | done => exact fun t ht => absurd rfl ht.1
      | _ =>
        exact .conseq (.bind (keySpec_keeps .ok rfl) fun _ => keySpec_throw) (fun _ h => h.2)
          fun _ _ h => h
  exact .bind (ETriple.adapt _ hnew) fun _ => keySpec_keeps _ trivial

/-! #### While there is no key -/

/-- The files satisfy `K` before operation `i`. -/
def FilesAt (i : Nat) (K : Fs BrokerFile Bytes → Prop) (t : BrokerPlace) : Prop :=
  t.2 = i ∧ K t.1

/-- There is no key. -/
def KeyGone (fs : Fs BrokerFile Bytes) : Prop := fs .verifyingKey = none

/-- An operation before the disturbance. Only what it does when it is
carried out matters, and the process does not stop before it. -/
theorem keySpec_undisturbed (k : FileReply → Except ε α) {K : Fs BrokerFile Bytes → Prop}
    {Q : α → Fs BrokerFile Bytes → Prop} (hi : i < d.position)
    (hrun : ∀ fs fs' r, K fs → op.run fs = (fs', r) → fileReplyFails r = false →
      ∃ a, k r = .ok a ∧ Q a fs')
    (hnext : d.MayStop (i + 1) → ∀ a fs, Q a fs → fs .verifyingKey = some old) :
    KeySpec d old (FilesAt i K)
      (ExceptT.mk (.call op fun r => .ret (k r)) : FileM ε BrokerFile α)
      fun a => FilesAt (i + 1) (Q a) := by
  have hstop (t : BrokerPlace) (ht : t.2 = i) : ¬ d.MayStop t.2 := by
    rw [ht]
    exact Disturbance.not_mayStop_of_lt hi
  refine keySpec_call k (R := fun r t => t.2 = i + 1 ∧ ∃ a, k r = .ok a ∧ Q a t.1)
    (fun t ht h => absurd h (hstop t ht.1)) (fun t _ ht _ h => absurd h (hstop t ht.1)) ?_ ?_ ?_
  · rintro t fs r ⟨rfl, hK⟩ heff hanswers
    have hr := hanswers.eq_false hi
    rcases heff with h | ⟨-, rfl, -⟩
    · exact ⟨rfl, hrun _ _ _ hK h hr⟩
    · cases hr
  · rintro r t a ⟨ht, a', hk, hQ⟩ hk'
    cases hk.symm.trans hk'
    exact ⟨ht, hQ⟩
  · rintro r t ⟨ht, a, hk, hQ⟩ (⟨e, he⟩ | hmay)
    · cases hk.symm.trans he
    · exact hnext (ht ▸ hmay) a t.1 hQ

/-- The temporary file holds `b`, and there is no key. -/
def Staged (b : Bytes) (fs : Fs BrokerFile Bytes) : Prop :=
  fs .verifyingKey = none ∧ fs .temporary = some b

section Window

variable (hi : i + 1 < d.position)
include hi

/-- An operation with another one before the disturbance. -/
theorem keySpec_window (k : FileReply → Except ε α) {K : Fs BrokerFile Bytes → Prop}
    {Q : α → Fs BrokerFile Bytes → Prop}
    (hrun : ∀ fs fs' r, K fs → op.run fs = (fs', r) → fileReplyFails r = false →
      ∃ a, k r = .ok a ∧ Q a fs') :
    KeySpec d old (FilesAt i K)
      (ExceptT.mk (.call op fun r => .ret (k r)) : FileM ε BrokerFile α)
      fun a => FilesAt (i + 1) (Q a) :=
  keySpec_undisturbed k (Nat.lt_of_succ_lt hi) hrun
    fun h => absurd h (Disturbance.not_mayStop_of_lt hi)

/-- The look for the key, which does not find it. -/
theorem keySpec_stat_gone : KeySpec d old (FilesAt i KeyGone)
      (FileM.stat .verifyingKey : FileM ε BrokerFile Bool)
      fun found => FilesAt (i + 1) fun fs => found = false ∧ KeyGone fs := by
  refine keySpec_window hi _ ?_
  rintro fs _ _ hnone ⟨⟩ -
  exact ⟨_, rfl, by rw [hnone]; rfl, hnone⟩

/-- The directory above the temporary file. -/
theorem keySpec_metadata_gone : KeySpec d old (FilesAt i KeyGone)
      (FileM.act .metadata e) fun _ => FilesAt (i + 1) KeyGone := by
  refine keySpec_window hi _ ?_
  rintro fs _ _ hnone ⟨⟩ -
  exact ⟨_, rfl, hnone⟩

/-- The temporary file is created. If it existed, this would be a failure. -/
theorem keySpec_createNew : KeySpec d old (FilesAt i KeyGone)
      (FileM.act (.createNew .temporary) e) fun _ => FilesAt (i + 1) (Staged []) := by
  refine keySpec_window hi _ ?_
  intro fs fs' r hnone hrun hr
  simp only [FileOp.run] at hrun
  split at hrun
  next => cases hrun; cases hr
  next => cases hrun; exact ⟨_, rfl, hnone, Function.update_self ..⟩

/-- It is written or synced. -/
theorem keySpec_staged {b b' : Bytes} (hop : ∀ fs : Fs BrokerFile Bytes, fs .temporary = some b →
      op.run fs = (Function.update fs .temporary (some b'), .done)) :
    KeySpec d old (FilesAt i (Staged b)) (FileM.act op e) fun _ => FilesAt (i + 1) (Staged b') := by
  refine keySpec_window hi _ ?_
  rintro fs fs' r ⟨hnone, htemp⟩ hrun -
  rw [hop fs htemp] at hrun
  cases hrun
  exact ⟨_, rfl, hnone, Function.update_self ..⟩

end Window

/-- The temporary file becomes the key. From here on the process may
stop, for the new key is the old one. -/
theorem keySpec_hardLink (hi : i < d.position) :
    KeySpec d old (FilesAt i (Staged old))
      (FileM.attempt (.hardLink .temporary .verifyingKey) : FileM ε BrokerFile FileReply)
      fun r => FilesAt (i + 1) fun fs => r = .done ∧ fs .verifyingKey = some old := by
  refine keySpec_undisturbed .ok hi ?_ fun _ _ _ h => h.2
  rintro fs fs' r ⟨hnone, htemp⟩ hrun -
  simp only [FileOp.run, htemp, hnone] at hrun
  cases hrun
  exact ⟨_, rfl, rfl, Function.update_self ..⟩

/-- The temporary file is removed, which does not fail. -/
theorem keySpec_remove_temporary (hlink : AfterLink d) :
    KeySpec d old (fun t => t.2 = linkPosition + 1 ∧ t.1 .verifyingKey = some old)
      (FileM.attempt (.remove .temporary) : FileM ε BrokerFile FileReply)
      fun r t => r = .done ∧ HasKey old t := by
  refine keySpec_call .ok (R := fun r t => r = .done ∧ HasKey old t) (fun t ht _ => ht.2)
    (fun _ _ _ h => h.elim) ?_ ?_ fun r t h _ => h.2
  · rintro t fs r ⟨ht, hkey⟩ heff hanswers
    rw [ht] at hanswers
    rcases effect_remove heff with ⟨rfl, -⟩ | ⟨hr, -⟩
    · exact ⟨rfl, (effect_leavesKey (show LeavesKey (.remove .temporary) from rfl) heff).trans hkey⟩
    · cases hr.symm.trans (hlink.answers hanswers)
  · rintro r t _ h ⟨⟩
    exact h

/-- The write of the new key after the old one is gone. -/
theorem keySpec_writeGrantVerifyingKey_gone (hlink : AfterLink d) :
    KeySpec d old (FilesAt (removalPosition + 1) KeyGone)
      (writeGrantVerifyingKey old) fun _ => HasKey old := by
  have hlt {i : Nat} (hi : i ≤ linkPosition) : i < d.position :=
    Nat.lt_of_le_of_lt hi hlink.lt_position
  have hnew : KeySpec d old (FilesAt (removalPosition + 1) KeyGone)
      (writeNewFile .verifyingKey .temporary old) fun _ => HasKey old := by
    refine .bind (keySpec_stat_gone (hlt (by decide))) fun found => ?_
    cases found with
    | true => exact fun t ht => absurd ht.2.1 (by decide)
    | false =>
      refine .conseq (P := FilesAt (removalPosition + 2) KeyGone) (.bind
        (keySpec_metadata_gone (hlt (by decide))) fun _ => .bind
        (keySpec_createNew (hlt (by decide))) fun _ => .bind
        (keySpec_staged (hlt (by decide)) fun _ h => by simp only [FileOp.run, h]; rfl) fun _ =>
        .bind (keySpec_staged (hlt (by decide)) fun _ h => by simp only [FileOp.run, h]; rfl)
        fun _ => .bind
        (keySpec_hardLink (hlt (by decide))) fun r => ?_) (fun t ht => ⟨ht.1, ht.2.2⟩)
        fun _ _ h => h
      cases r with
      | done =>
        refine .bind ((keySpec_remove_temporary hlink).conseq (fun t ht => ⟨ht.1, ht.2.2⟩)
          fun _ _ h => h) fun r => ?_
        cases r with
        | done =>
          exact KeySpec.conseq (keySpec_keeps _ (show LeavesKey .metadata from trivial))
            (fun _ h => h.2)
            fun _ _ h => h
        | _ => exact fun t ht => absurd ht.1 (by simp)
      | _ => exact fun t ht => absurd ht.2.1 (by simp)
  exact .bind (ETriple.adapt _ hnew) fun _ => keySpec_keeps _ trivial

/-- The removal of the old key. If it succeeds, the disturbance is still
to come, and so it comes after the link. -/
theorem keySpec_remove_key
    (hspares : d.position ≤ removalPosition ∨ (pem = old ∧ AfterLink d)) :
    KeySpec d old (KeyAt d old removalPosition) (FileM.act (.remove .verifyingKey) e)
      fun _ t => (pem = old ∧ AfterLink d) ∧ FilesAt (removalPosition + 1) KeyGone t := by
  refine keySpec_call _ (R := fun r t => (fileReplyFails r = true ∧ HasKey old t) ∨ (r = .done ∧
      (pem = old ∧ AfterLink d) ∧ FilesAt (removalPosition + 1) KeyGone t))
    (fun t ht _ => ht.1) (fun _ _ _ h => h.elim) ?_ ?_ ?_
  · rintro t fs r ⟨hkey, ht, hi⟩ heff hanswers
    rcases effect_remove heff with ⟨rfl, rfl⟩ | ⟨hr, rfl⟩
    · rw [ht] at hanswers
      have hlt : removalPosition < d.position := hanswers.lt_position hi
      have hgone : KeyGone (Function.update t.1 .verifyingKey none) := Function.update_self ..
      exact .inr ⟨rfl, hspares.resolve_left (Nat.not_le.2 hlt), congrArg (· + 1) ht, hgone⟩
    · exact .inl ⟨hr, hkey⟩
  · rintro r t a (⟨hr, -⟩ | ⟨-, h⟩) hk
    · split at hk
      next hdone => cases hdone; cases hr
      next => cases hk
    · exact h
  · rintro r t (⟨-, h⟩ | ⟨rfl, ⟨-, hlink⟩, ht, -⟩) hend
    · exact h
    · rcases hend with ⟨e, he⟩ | hmay
      · cases he
      · rw [ht] at hmay
        have hlt : removalPosition + 1 < d.position := Nat.lt_trans (by decide) hlink.lt_position
        exact absurd hmay (Disturbance.not_mayStop_of_lt hlt)

/-- From the old key, the program ends with the old key. -/
theorem keySpec_publishGrantVerifyingKey
    (hspares : d.position ≤ removalPosition ∨ (pem = old ∧ AfterLink d)) :
    KeySpec d old (KeyAt d old 6) (publishGrantVerifyingKey pem) fun _ => HasKey old := by
  have hstat : KeySpec d old (KeyAt d old 7) (FileM.stat .verifyingKey : FileM String _ _)
      fun found t => HasKey old t ∧ (found = true → KeyAt d old 8 t) := by
    refine KeySpec.conseq (keySpec_at _ (show LeavesKey (.stat .verifyingKey) from trivial))
      (fun _ h => h) ?_
    rintro found t ⟨hkey, r, hr, h⟩
    refine ⟨hkey, ?_⟩
    rintro rfl
    have hfound : r = .found true := by simpa using hr
    rw [hfound] at h
    exact h rfl
  unfold publishGrantVerifyingKey
  split
  · exact keySpec_throw.conseq (fun _ h => h.1) fun _ _ h => h
  · refine .bind (keySpec_act trivial) fun _ => .bind hstat fun found => ?_
    cases found with
    | true =>
      refine .conseq (.bind (keySpec_remove_key hspares) fun _ => ?_) (fun t ht => ht.2 rfl)
        fun _ _ h => h
      intro t ht
      obtain ⟨⟨rfl, hlink⟩, h⟩ := ht
      exact keySpec_writeGrantVerifyingKey_gone hlink t h
    | false =>
      exact keySpec_writeGrantVerifyingKey_present.conseq (fun _ h => h.1) fun _ _ h => h

end Key

/-! ### The whole run -/

/-- A reply that reports an error, of the client or of the server. -/
def replyFails : CredentialReply → Bool
  | .failed | .refused _ => true
  | .file r => fileReplyFails r
  | _ => false

/-- The runs of a credential program with the disturbance `d`. -/
def disturbedSem (w : CredentialWorld) (d : Disturbance) :
    Sem CredentialOp CredentialReply (CredentialState × Nat) :=
  (credentialSem w fun _ _ _ => True).disturbed replyFails d

section Run

variable {w : CredentialWorld} {d : Disturbance} {old : Bytes} {α β : Type}
  {s s' : CredentialState}

theorem broker_drift (h : Drift s s') : s'.broker = s.broker := by
  induction h with
  | refl => rfl
  | tail _ hstep ih => cases hstep <;> exact ih

theorem broker_request {result : Except Status Registry} {answer r : CredentialReply}
    (h : Request result answer s s' r) : s'.broker = s.broker := by
  rcases h with ⟨rfl, -⟩ | h
  · rfl
  · split at h <;> simp only [h.1]

variable {g : Generation}

theorem broker_requestAs {result : Except Status Registry}
    {answer r : CredentialReply} (h : RequestAs g result answer s s' r) :
    s'.broker = s.broker := by
  rcases h with ⟨rfl, -⟩ | ⟨-, h⟩
  · rfl
  · exact broker_request h

/-- Only the operations on the broker's files change them. -/
theorem broker_effect {op : CredentialOp} (hop : ∀ b, op ≠ .broker b) {r : CredentialReply}
    (h : op.Effect w s s' r) : s'.broker = s.broker := by
  cases op with
  | now => rw [h.1]
  | load g => rw [h.1]
  | secure => rw [h.1]
  | persist g | cleanup g | pointer call => rcases h with ⟨rfl, -⟩ | ⟨rfl, -⟩ <;> rfl
  | enroll =>
    rcases h with ⟨rfl, -⟩ | ⟨g, h⟩
    · rfl
    · exact broker_request h
  | renew g =>
    obtain ⟨issued, expiresAt, h⟩ := h
    exact broker_requestAs h
  | activate g => exact broker_requestAs h
  | replace g replacement => exact broker_requestAs h
  | broker b => exact (hop b rfl).elim

/-- The broker's part of the state, with the number of operations. -/
def brokerPlace (s : CredentialState × Nat) : BrokerPlace := (s.1.broker, s.2)

/-- From `P` the program returns with `Q`. Whenever it fails or stops,
the old key is there. -/
def AnchorSpec (w : CredentialWorld) (d : Disturbance) (old : Bytes) (P : BrokerPlace → Prop)
    (p : CredentialM α) (Q : α → BrokerPlace → Prop) : Prop :=
  ETriple (disturbedSem w d) (fun s => P (brokerPlace s)) p (fun a s => Q a (brokerPlace s))
    (fun _ s => HasKey old (brokerPlace s)) fun s => HasKey old (brokerPlace s)

namespace AnchorSpec

variable {P : BrokerPlace → Prop} {Q : α → BrokerPlace → Prop} {op : CredentialOp} {i : Nat}

variable {p : CredentialM α}

theorem bind {f : α → CredentialM β} {R : α → BrokerPlace → Prop}
    {Q : β → BrokerPlace → Prop} (hp : AnchorSpec w d old P p R)
    (hf : ∀ a, AnchorSpec w d old (R a) (f a) Q) : AnchorSpec w d old P (p >>= f) Q :=
  ETriple.bind hp hf

theorem conseq {P' : BrokerPlace → Prop} {Q' : α → BrokerPlace → Prop}
    (h : AnchorSpec w d old P p Q) (hP : ∀ t, P' t → P t) (hQ : ∀ a t, Q a t → Q' a t) :
    AnchorSpec w d old P' p Q' :=
  ETriple.conseq h (fun _ => hP _) (fun _ _ => hQ _ _) (fun _ _ h => h) fun _ h => h

theorem survives {t t' : CredentialState × Nat} (hs : (disturbedSem w d).survives t t')
    (h : HasKey old (brokerPlace t)) : HasKey old (brokerPlace t') := by
  rw [HasKey, brokerPlace, show t'.1 = t.1 from hs.1]
  exact h

theorem pure {a : α} :
    AnchorSpec w d old (HasKey old) (pure a : CredentialM α) fun _ => HasKey old :=
  ETriple.pure (fun _ h => h) fun _ _ h hs => survives hs h

theorem throw {e : ClientError} : AnchorSpec w d old (HasKey old) (throw e : CredentialM α) Q :=
  ETriple.throw (fun _ h => h) fun _ _ h hs => survives hs h

theorem attempt (hp : AnchorSpec w d old P p fun _ => HasKey old) :
    AnchorSpec w d old P (CredentialM.attempt p) fun _ => HasKey old :=
  ETriple.attempt (R := fun _ s => HasKey old (brokerPlace s)) hp

variable {R : CredentialReply → Prop}

/-- An operation on anything but the broker's files keeps the key. `R` is
what its reply satisfies, and `U` what is known of its number. -/
theorem ask (hop : ∀ b, op ≠ .broker b) (hR : ∀ s s' r, op.Effect w s s' r → R r)
    (U : Nat → Prop) :
    AnchorSpec w d old (fun t => HasKey old t ∧ U t.2) (CredentialM.ask op) fun r t =>
      HasKey old t ∧ R r ∧ ∃ i, U i ∧ d.Answers i (replyFails r) ∧ t.2 = i + 1 := by
  refine ETriple.call (R := fun r s => HasKey old (brokerPlace s) ∧ R r ∧
      ∃ i, U i ∧ d.Answers i (replyFails r) ∧ s.2 = i + 1)
    (fun _ _ h hs => survives hs h.1) ?_ ?_ (fun _ _ h => h) fun _ _ _ h hs => survives hs h.1
  · intro s s' s'' _ ht _
    cases op with
    | broker b => exact (hop b rfl).elim
    | _ => exact ht.1.elim
  · rintro s s' r ⟨hkey, hU⟩ ⟨⟨s1, hdrift, heff, -⟩, hcount, hanswers⟩
    refine ⟨?_, hR _ _ _ heff, s.2, hU, hanswers, hcount⟩
    rw [HasKey, brokerPlace, broker_effect hop heff, broker_drift hdrift]
    exact hkey

/-- The same, when nothing is known of the position. -/
theorem ask_keeps (hop : ∀ b, op ≠ .broker b) :
    AnchorSpec w d old (HasKey old) (CredentialM.ask op) fun _ => HasKey old :=
  (ask (R := fun _ => True) hop (fun _ _ _ _ => trivial) fun _ => True).conseq
    (fun _ h => ⟨h, trivial⟩) fun _ _ h => h.1

/-- The same in an undisturbed run. -/
theorem ask_at (hop : ∀ b, op ≠ .broker b) (hR : ∀ s s' r, op.Effect w s s' r → R r) :
    AnchorSpec w d old (KeyAt d old i) (CredentialM.ask op) fun r t =>
      HasKey old t ∧ R r ∧ (replyFails r = false → KeyAt d old (i + 1) t) := by
  refine (ask hop hR fun n => n = i ∧ i ≤ d.position).conseq (fun _ h => h) ?_
  rintro r t ⟨hkey, hr, _, ⟨rfl, hi⟩, hanswers, ht⟩
  refine ⟨hkey, hr, fun hfails => ⟨hkey, ht, ?_⟩⟩
  rw [hfails] at hanswers
  exact hanswers.lt_position hi

variable {text : String}

theorem act_keeps (hop : ∀ b, op ≠ .broker b) :
    AnchorSpec w d old (HasKey old) (CredentialM.act op text) fun _ => HasKey old := by
  refine (ask_keeps hop).bind fun r => ?_
  split
  · exact pure
  · exact throw

theorem request_keeps (hop : ∀ b, op ≠ .broker b) :
    AnchorSpec w d old (HasKey old) (CredentialM.request op text) fun _ => HasKey old := by
  refine (ask_keeps hop).bind fun r => ?_
  split
  · exact pure
  · exact throw
  · exact throw

theorem act_at (hop : ∀ b, op ≠ .broker b) :
    AnchorSpec w d old (KeyAt d old i) (CredentialM.act op text) fun _ => KeyAt d old (i + 1) := by
  refine (ask_at (R := fun _ => True) hop fun _ _ _ _ => trivial).bind fun r => ?_
  split
  · refine ETriple.pure (fun s h => h.2.2 rfl) fun s s' h hs => survives hs h.1
  · exact throw.conseq (fun _ h => h.1) fun _ _ h => h

end AnchorSpec

theorem anchorSpec_publishActive {texts : PublicationTexts} :
    AnchorSpec w d old (HasKey old) (publishActive texts g) fun _ => HasKey old := by
  refine .bind (.act_keeps nofun) fun _ => .bind (.act_keeps nofun) fun _ =>
    .bind (.ask_keeps nofun) fun r => ?_
  split
  · exact .pure
  · refine .bind (.ask_keeps nofun) fun r => ?_
    split <;> exact .throw

theorem anchorSpec_publishAndActivate {texts : PublicationTexts} :
    AnchorSpec w d old (HasKey old) (publishAndActivate texts (ensureIdentityActive g) g)
      fun _ => HasKey old := by
  refine .bind anchorSpec_publishActive.attempt fun r => ?_
  split
  · exact .bind (.ask_keeps nofun) fun _ => .throw
  · refine .bind (.attempt (.request_keeps nofun)) fun r => ?_
    split
    · refine .bind (.ask_keeps nofun) fun r => ?_
      split
      · exact .bind (.ask_keeps nofun) fun _ => .throw
      · exact .throw
    · exact .pure

theorem anchorSpec_replacePreviousIdentity {previous : Generation} {replacement : Nat} :
    AnchorSpec w d old (HasKey old) (replacePreviousIdentity previous replacement)
      fun _ => HasKey old := by
  unfold replacePreviousIdentity
  split
  · exact .pure
  · exact .request_keeps nofun

/-- The server hands out its own key. -/
theorem enrolled_grantKey {s s' : CredentialState} {r : CredentialReply}
    (h : CredentialOp.enroll.Effect w s s' r) :
    ∀ g grantKey, r = .enrolled g grantKey → grantKey = w.grantKey := by
  rintro g grantKey rfl
  rcases h with ⟨-, status, hr⟩ | ⟨g', ⟨-, hr | hr⟩ | h⟩
  · cases hr
  · cases hr
  · cases hr
  · grind

section Spared

variable {uuidText : Nat → String}
  (hspares : d.position ≤ removalPosition ∨ (w.grantKey = old ∧ AfterLink d))
include hspares

/-- The program that writes the key, as a part of the enrollment. -/
theorem anchorSpec_onBroker : AnchorSpec w d old (KeyAt d old 6)
      (onBroker (publishGrantVerifyingKey w.grantKey)) fun _ => HasKey old := by
  have hlift : Triple (disturbedSem w d) (fun s => KeyAt d old 6 (brokerPlace s))
      ((publishGrantVerifyingKey w.grantKey).run.lift .broker CredentialReply.toFile)
      (fun _ s => HasKey old (brokerPlace s)) fun s => HasKey old (brokerPlace s) := by
    refine Triple.lift brokerPlace ?_ ?_ ?_ (Triple.conseq
      (keySpec_publishGrantVerifyingKey hspares) (fun _ h => h)
      (fun r t h => by cases r <;> exact h) fun _ h => h)
    · rintro op s s' r ⟨⟨s1, hdrift, ⟨fs, reply, heff, hs', rfl⟩, -⟩, hcount, hanswers⟩
      refine ⟨?_, hcount, hanswers⟩
      rw [brokerPlace, brokerPlace, ← broker_drift hdrift, hs']
      exact heff
    · rintro op s s' ⟨⟨fs, hpart, hs'⟩, hcount⟩
      refine ⟨?_, hcount⟩
      rw [brokerPlace, brokerPlace, hs']
      exact hpart
    · rintro s s' ⟨hs', hcount, hmay⟩
      exact ⟨congrArg CredentialState.broker hs', hcount, hmay⟩
  refine Triple.bind hlift fun r => ?_
  cases r with
  | ok a => exact AnchorSpec.pure
  | error text => exact AnchorSpec.throw

theorem anchorSpec_installEnrollment {previous : Generation} :
    AnchorSpec w d old (KeyAt d old 5) (installEnrollment uuidText previous g w.grantKey)
      fun _ => HasKey old := by
  have hpersist : AnchorSpec w d old (KeyAt d old 5) (persistIdentityGeneration g w.grantKey)
      fun _ => HasKey old := .bind (.act_at nofun) fun _ => anchorSpec_onBroker hspares
  unfold installEnrollment
  split
  · exact AnchorSpec.throw.conseq (fun _ h => h.1) fun _ _ h => h
  · refine .bind hpersist.attempt fun r => ?_
    cases r with
    | error e => exact .bind (.ask_keeps nofun) fun _ => .throw
    | ok u =>
      -- after the key is written nothing touches the broker's files
      refine .bind anchorSpec_publishAndActivate fun _ =>
        .bind anchorSpec_replacePreviousIdentity.attempt fun r => ?_
      split
      · exact .throw
      · exact .bind (.act_keeps nofun) fun _ => .act_keeps nofun

/-- However a re-enrollment ends, the old key is there. -/
theorem anchorSpec_reenroll :
    AnchorSpec w d old (KeyAt d old 0) (reenroll uuidText) fun _ => HasKey old := by
  have hask {op : CredentialOp} {i : Nat} (hop : ∀ b, op ≠ .broker b) :
      AnchorSpec w d old (KeyAt d old i) (ask op) fun r t =>
        HasKey old t ∧ True ∧ (replyFails r = false → KeyAt d old (i + 1) t) :=
    .ask_at hop fun _ _ _ _ => trivial
  have hthrow (e : ClientError) {P : BrokerPlace → Prop} {R : Prop} :
      AnchorSpec w d old (fun t => HasKey old t ∧ R ∧ P t) (throw e : CredentialM Unit)
        fun _ => HasKey old := AnchorSpec.throw.conseq (fun _ h => h.1) fun _ _ h => h
  refine .bind (.act_at nofun) fun _ => .bind (hask nofun) fun r => ?_
  split
  · refine .conseq (.bind (hask nofun) fun r => ?_) (fun t h => h.2.2 rfl) fun _ _ h => h
    split
    · refine .conseq (.bind (.act_at nofun) fun _ => .bind
        (.ask_at nofun fun _ _ _ => enrolled_grantKey) fun r => ?_)
        (fun t h => h.2.2 rfl) fun _ _ h => h
      split
      next g grantKey =>
        intro s hs
        rw [hs.2.1 g grantKey rfl]
        exact anchorSpec_installEnrollment hspares s (hs.2.2 rfl)
      next => exact hthrow _
      next => exact hthrow _
    · exact hthrow _
    · exact hthrow _
  · exact hthrow _
  · exact hthrow _

end Spared

end Run

/-- Every run of a re-enrollment is disturbed somewhere. If the first
operation that fails, or the point at which the process stops, is no
later than the removal of the old key, the run leaves the old key. If the
server's grant key is the old one, it also does so when nothing fails or
stops from the removal to the link of the new file and the removal of the
temporary one. This holds however the run ends. -/
theorem reenroll_keeps_key (w : CredentialWorld) (uuidText : Nat → String) {s : CredentialState}
    {old : Bytes} (hkey : s.broker .verifyingKey = some old) :
    (∀ out, Exec (credentialSem w fun _ _ _ => True) (reenroll uuidText).run s out →
      ∃ d k, Exec (disturbedSem w d) (reenroll uuidText).run (s, 0) (out.map (·, k))) ∧
    ∀ d, d.position ≤ removalPosition ∨ (w.grantKey = old ∧ AfterLink d) →
      ∀ out, Exec (disturbedSem w d) (reenroll uuidText).run (s, 0) out →
        out.state.1.broker .verifyingKey = some old := by
  constructor
  · intro out h
    obtain ⟨d, k, -, hexec⟩ : ∃ d k, _ ∧ Exec (disturbedSem w d) _ _ _ := exec_disturbed h 0
    exact ⟨d, k, hexec⟩
  · intro d hspares out h
    have hend := anchorSpec_reenroll hspares (s, 0) ⟨hkey, rfl, Nat.zero_le _⟩ out h
    cases out with
    | crashed s' => exact hend
    | done r s' => cases r <;> exact hend

/-- A client whose broker has the verifying key `key`; the server's is
`[1]`. -/
def sampleAnchored (key : Bytes) : CredentialState :=
  { sampleState .client sampleOld with
    broker := fun x => if x = .verifyingKey then some key else none }

/-- The old key cannot be removed. -/
def removalRefused (op : CredentialOp) (s : CredentialState) : CredentialState × CredentialReply :=
  match op with
  | .broker (.remove .verifyingKey) => (s, .file (.failed .other))
  | op => carryOut (sampleWorld .client) sampleNew op s

theorem effect_removalRefused (op : CredentialOp) (s : CredentialState) :
    op.Effect (sampleWorld .client) s (removalRefused op s).1 (removalRefused op s).2 := by
  unfold removalRefused
  split
  · exact ⟨s.broker, _, .inr ⟨trivial, rfl, .inl rfl⟩, rfl, rfl⟩
  · exact effect_carryOut _ sampleNew _ _

/-- With the same key on both sides, a re-enrollment whose activation does
not reach the server fails and leaves the key. With another key, one that
cannot remove the old key does. -/
theorem reenroll_keeps_key_sample :
    (∃ e s, Exec (disturbedSem (sampleWorld .client) (.fails 21)) (reenroll toString).run
        (sampleAnchored [1], 0) (.done (.error e) s) ∧
      s.1.pointer = (sampleAnchored [1]).pointer ∧ s.1.broker .verifyingKey = some [1]) ∧
    ∃ e s, Exec (disturbedSem (sampleWorld .client) (.fails 8)) (reenroll toString).run
        (sampleAnchored [0], 0) (.done (.error e) s) ∧
      s.1.pointer = (sampleAnchored [0]).pointer ∧ s.1.broker .verifyingKey = some [0] := by
  have hsame : Exec (disturbedSem (sampleWorld .client) (.fails 21)) (reenroll toString).run
      (sampleAnchored [1], 0) _ := exec_runWith_disturbed
    (fun op s => ⟨s, .refl, effect_carryOutLosing _ sampleNew activationUnreachable op s, trivial⟩)
    (by decide +kernel)
  have hother : Exec (disturbedSem (sampleWorld .client) (.fails 8)) (reenroll toString).run
      (sampleAnchored [0], 0) _ := exec_runWith_disturbed (f := removalRefused)
    (fun op s => ⟨s, .refl, effect_removalRefused op s, trivial⟩) (by decide +kernel)
  have hkept := (reenroll_keeps_key (sampleWorld .client) toString (s := sampleAnchored [1]) rfl).2
    (.fails 21) (.inr (by decide)) _ hsame
  have hkept' := (reenroll_keeps_key (sampleWorld .client) toString (s := sampleAnchored [0]) rfl).2
    (.fails 8) (.inl (by decide)) _ hother
  exact ⟨⟨_, _, hsame, by decide +kernel, hkept⟩, _, _, hother, by decide +kernel, hkept'⟩

/-- The state after `n` operations of a re-enrollment whose activation does
not reach the server, when the keys differ. -/
def unreachableAfter (n : Nat) : CredentialState :=
  (reenroll toString).run.after
    (carryOutLosing (sampleWorld .client) sampleNew activationUnreachable) n (sampleAnchored [0])

/-- With another key, a re-enrollment whose activation does not reach the
server rolls the pointer back and leaves the new key. When the process
stops anywhere after the removal of the old key and before the new one is
linked, there is no key. -/
theorem failed_reenrollment_changes_key :
    (∃ e s, Exec (credentialSem (sampleWorld .client) fun _ _ _ => True) (reenroll toString).run
        (sampleAnchored [0]) (.done (.error e) s) ∧
      s.pointer = (sampleAnchored [0]).pointer ∧ s.broker .verifyingKey = some [1]) ∧
    ∀ n ≤ linkPosition, removalPosition < n →
      ∃ s, Exec (credentialSem (sampleWorld .client) fun _ _ _ => True) (reenroll toString).run
        (sampleAnchored [0]) (.crashed s) ∧
      s = unreachableAfter n ∧
      s.pointer = (sampleAnchored [0]).pointer ∧ s.broker .verifyingKey = none := by
  constructor
  · exact ⟨_, _, exec_losing _ sampleNew activationUnreachable _ _, by decide +kernel,
      by decide +kernel⟩
  · intro n hn hlt
    have hend : ∀ n ≤ linkPosition, removalPosition < n →
        (unreachableAfter n).pointer = (sampleAnchored [0]).pointer ∧
          (unreachableAfter n).broker .verifyingKey = none := by decide +kernel
    have hcrash := exec_crash_after (M := credentialSem (sampleWorld .client) fun _ _ _ => True)
      (fun op s =>
        ⟨s, .refl, effect_carryOutLosing _ sampleNew activationUnreachable op s, trivial⟩)
      (reenroll toString).run n (sampleAnchored [0]) _ rfl
    exact ⟨_, hcrash, rfl, hend n hn hlt⟩

end Centrald.Proofs
