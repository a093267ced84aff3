import Centrald.Admin.Profiles

/-!
# `Centrald.Proofs.Credentials`: what the credential programs keep

Two laws of the credential programs have one proof. Each says that the
generation the pointer names is `safe` on the server. A publication puts
a new generation in front of the old one; later the old one may stop
being safe, once the new one is `settled`. So the invariant is: the named
generation is safe, and while a publication is pending either the new
generation is settled or the old one is still safe (`Inv`).

`CredentialLaw` lists what a notion of `safe` and `settled` has to
satisfy on the server's functions, and one condition on the answers: when
an activation reports an error, the generation that a rollback would
restore is safe. From that, `spec_reenroll`, `spec_daemonPass` and
`spec_adminClient` walk through the programs once.
-/

set_option autoImplicit false

namespace Centrald.Proofs

open Durable Server Client Client.CredentialM Admin

/-- A property of the server's tables and the pointer. -/
abbrev CredentialPred := Registry → AtomicPointer Generation → Prop

/-- The property holds in a state. -/
def Holds (P : CredentialPred) (s : CredentialState) : Prop := P s.server s.pointer

/-- A property that maintenance keeps and that implies `I`, the property
that every crash has to leave. -/
structure Assertion (I : CredentialPred) where
  holds : CredentialPred
  stable : ∀ db A now, holds db A → holds (db.maintenance now) A
  inv : ∀ db A, holds db A → I db A

section Rules

variable {w : CredentialWorld}
  {permitted : CredentialOp → CredentialState → CredentialReply → Prop} {I : CredentialPred}
  {α β : Type}

theorem Assertion.drift (P : Assertion I) {s s' : CredentialState} (h : Drift s s')
    (hs : Holds P.holds s) : Holds P.holds s' := by
  induction h with
  | refl => exact hs
  | tail _ hstep ih =>
    cases hstep with
    | tick => exact ih
    | maintenance => exact P.stable _ _ _ ih

/-- From `P`, the program `p` returns with `Q`, fails with `E` and stops
with `I`. -/
def Spec (w : CredentialWorld)
    (permitted : CredentialOp → CredentialState → CredentialReply → Prop) {I : CredentialPred}
    (P : Assertion I) (p : CredentialM α) (Q : α → Assertion I) (E : Assertion I) : Prop :=
  ETriple (credentialSem w permitted) (Holds P.holds) p (fun a => Holds (Q a).holds)
    (fun _ => Holds E.holds) (Holds I)

namespace Spec

variable {P P' : Assertion I} {E : Assertion I}

variable {Q : α → Assertion I}

theorem pure {a : α} (h : ∀ db A, P.holds db A → (Q a).holds db A) :
    Spec w permitted P (pure a : CredentialM α) Q E := by
  refine ETriple.pure (fun s hs => h _ _ hs) ?_
  rintro s s' hs rfl
  exact P.inv _ _ hs

theorem ret {a : α} : Spec w permitted P (Pure.pure a : CredentialM α) (fun _ => P) E :=
  .pure fun _ _ h => h

theorem throw {e : ClientError} (h : ∀ db A, P.holds db A → E.holds db A) :
    Spec w permitted P (throw e : CredentialM α) Q E := by
  refine ETriple.throw (fun s hs => h _ _ hs) ?_
  rintro s s' hs rfl
  exact P.inv _ _ hs

variable {p : CredentialM α}

theorem bind {f : α → CredentialM β} {R : α → Assertion I}
    {Q : β → Assertion I} (hp : Spec w permitted P p R E)
    (hf : ∀ a, Spec w permitted (R a) (f a) Q E) : Spec w permitted P (p >>= f) Q E :=
  ETriple.bind hp hf

theorem weaken (h : Spec w permitted P' p Q E)
    (hP : ∀ db A, P.holds db A → P'.holds db A) : Spec w permitted P p Q E :=
  fun s hs => h s (hP _ _ hs)

theorem attempt {Q : Except ClientError α → Assertion I} {E' : Assertion I}
    (h : Spec w permitted P p (fun a => Q (.ok a)) E')
    (hE : ∀ e db A, E'.holds db A → (Q (.error e)).holds db A) :
    Spec w permitted P (CredentialM.attempt p) Q E :=
  ETriple.attempt (R := fun r => Holds (Q r).holds) (h.conseq (fun _ h => h) (fun _ _ h => h)
    (fun e _ h => hE e _ _ h) fun _ h => h)

/-- What a program returns and fails with is known afterwards. -/
theorem attempt_split {R E' : Assertion I} (h : Spec w permitted P p (fun _ => R) E') :
    Spec w permitted P (CredentialM.attempt p)
      (fun r => match r with | .ok _ => R | .error _ => E') E :=
  .attempt h fun _ _ _ h => h

theorem attempt_same {R : Assertion I} (h : Spec w permitted P p (fun _ => R) R) :
    Spec w permitted P (CredentialM.attempt p) (fun _ => R) E :=
  .attempt h fun _ _ _ h => h

/-- One operation, from what it may do to a state where `P` holds. -/
theorem ask {op : CredentialOp} {Q : CredentialReply → Assertion I}
    (htorn : ∀ s s', ¬ (credentialSem w permitted).torn op s s')
    (h : ∀ s s' r, Holds P.holds s → op.Effect w s s' r → permitted op s' r →
      Holds (Q r).holds s') :
    Spec w permitted P (CredentialM.ask op) Q E := by
  refine ETriple.call (R := fun r => Holds (Q r).holds) ?_ ?_ ?_ (fun _ _ h => h) ?_
  · rintro s s' hs rfl
    exact P.inv _ _ hs
  · grind
  · rintro s s' r hs ⟨s1, hdrift, heff, hperm⟩
    exact h s1 s' r (P.drift hdrift hs) heff hperm
  · rintro r s s' hs rfl
    exact (Q r).inv _ _ hs

/-- An operation that is done, or fails the program. -/
theorem act {op : CredentialOp} {text : String} {R E : Assertion I}
    (h : Spec w permitted P (CredentialM.ask op) (fun r => match r with | .done => R | _ => E) E) :
    Spec w permitted P (CredentialM.act op text) (fun _ => R) E := by
  refine h.bind fun r => ?_
  cases r with
  | done => exact .ret
  | _ => exact .throw fun _ _ h => h

end Spec

/-- Operations that touch neither the server nor the pointer. -/
def IsLocal : CredentialOp → Prop
  | .now | .load _ | .persist _ | .cleanup _ | .secure => True
  | _ => False

theorem spec_ask_local {P E : Assertion I} {op : CredentialOp} (hop : IsLocal op) :
    Spec w permitted P (ask op) (fun _ => P) E := by
  refine .ask (fun s s' ht => ?_) fun s s' r hs heff _ => ?_
  · cases op <;> first | exact ht | exact hop
  · have hsame : s'.server = s.server ∧ s'.pointer = s.pointer := by
      cases op with
      | now => rw [heff.1]; exact ⟨rfl, rfl⟩
      | load g => rw [heff.1]; exact ⟨rfl, rfl⟩
      | secure => rw [heff.1]; exact ⟨rfl, rfl⟩
      | persist g => rcases heff with ⟨rfl, -⟩ | ⟨rfl, -⟩ <;> exact ⟨rfl, rfl⟩
      | cleanup g => rcases heff with ⟨rfl, -⟩ | ⟨rfl, -⟩ <;> exact ⟨rfl, rfl⟩
      | _ => exact hop.elim
    rw [Holds, hsame.1, hsame.2]
    exact hs

theorem spec_act_local {P E : Assertion I} {op : CredentialOp} {text : String} (hop : IsLocal op)
    (hE : ∀ db A, P.holds db A → E.holds db A) :
    Spec w permitted P (act op text) (fun _ => P) E := by
  refine .bind (spec_ask_local hop) fun r => ?_
  split
  · exact .pure fun _ _ h => h
  · exact .throw hE

theorem spec_now {P E : Assertion I} (hE : ∀ db A, P.holds db A → E.holds db A) :
    Spec w permitted P now (fun _ => P) E := by
  refine .bind (spec_ask_local trivial) fun r => ?_
  split
  · exact .pure fun _ _ h => h
  · exact .throw hE

/-- A call of the pointer that succeeds or changes nothing. -/
theorem spec_pointer {P E : Assertion I} {call : PointerCall} {Q : CredentialReply → Assertion I}
    (hdone : ∀ db A, P.holds db A → (Q (call.run A).2).holds db (call.run A).1)
    (hfailed : ∀ db A, P.holds db A → (Q .failed).holds db A) :
    Spec w permitted P (ask (.pointer call)) Q E := by
  refine .ask (fun _ _ ht => ht) fun s s' r hs heff _ => ?_
  rcases heff with ⟨rfl, rfl⟩ | ⟨rfl, rfl⟩
  · exact hdone _ _ hs
  · exact hfailed _ _ hs

/-- Programs on the broker's files leave the server and the pointer
alone. -/
theorem spec_onBroker {P E : Assertion I} (p : FileM String BrokerFile α)
    (hE : ∀ db A, P.holds db A → E.holds db A) :
    Spec w permitted P (onBroker p) (fun _ => P) E := by
  have hlift (q : Prog (FileOp BrokerFile) FileReply (Except String α)) :
      Triple (credentialSem w permitted) (Holds P.holds)
        (q.lift .broker CredentialReply.toFile) (fun _ => Holds P.holds) (Holds I) := by
    -- by induction on the program, one file operation at a time
    induction q with
    | ret a =>
      refine Triple.ret (fun _ hs => hs) ?_
      rintro s s' hs rfl
      exact P.inv _ _ hs
    | call op k ih =>
      refine Triple.call ?_ ?_ fun r => ?_
      · rintro s s' hs rfl
        exact P.inv _ _ hs
      · rintro s s' s'' hs ⟨fs, -, rfl⟩ rfl
        exact P.inv _ _ hs
      · rintro s' ⟨s, hs, s1, hdrift, ⟨fs, reply, -, rfl, -⟩, -⟩ out hexec
        have hs1 : Holds P.holds s1 := P.drift hdrift hs
        exact ih _ _ (show Holds P.holds { s1 with broker := fs } from hs1)
          out hexec
  refine Triple.bind (hlift p.run) fun r => ?_
  cases r with
  | ok a => exact Spec.pure fun _ _ h => h
  | error text => exact Spec.throw hE

end Rules

/-! ### The law -/

/-- A property of generations on the server. -/
abbrev GenerationPred := Registry → Generation → Prop

/-- What `safe` and `settled` have to satisfy. -/
structure CredentialLaw (w : CredentialWorld)
    (permitted : CredentialOp → CredentialState → CredentialReply → Prop)
    (safe settled : GenerationPred) : Prop where
  safe_maintenance : ∀ db g now, safe db g → safe (db.maintenance now) g
  settled_maintenance : ∀ db g now, settled db g → settled (db.maintenance now) g
  /-- An enrolled generation is safe, and the others stay as they are. -/
  enroll : ∀ db db' now (g : Generation),
    enrollIdentity db now w.role g.identity g.fingerprint g.expiresAt = .ok db' →
    safe db' g ∧ (∀ a, safe db a → safe db' a) ∧ ∀ a, settled db a → settled db' a
  /-- So is the renewal of a safe one. -/
  renew : ∀ db db' now (g : Generation) issued expiresAt,
    renewCertificate db now g.fingerprint w.role issued expiresAt = .ok db' → safe db g →
    safe db' ⟨g.identity, issued, expiresAt⟩ ∧ (∀ a, safe db a → safe db' a) ∧
      ∀ a, settled db a → settled db' a
  /-- An activated generation stays safe; others stop only once it is settled. -/
  activate : ∀ db db' now (g : Generation),
    activateIdentityCertificate db now g.identity g.fingerprint w.role = .ok db' → safe db g →
    safe db' g ∧ (∀ a, safe db a → settled db' g ∨ safe db' a) ∧
      ∀ a, settled db a → settled db' a
  /-- A replacement leaves the replacing identity alone. -/
  replace : ∀ db db' now fingerprint (g : Generation),
    replaceIdentity db now fingerprint g.identity = .ok db' → safe db g →
    safe db' g ∧ (∀ a, safe db a → settled db' g ∨ safe db' a) ∧
      ∀ a, settled db a → settled db' a
  /-- An activation that reports an error leaves a safe generation to
  roll back to. -/
  restore : ∀ s r (g a : Generation), permitted (.activate g) s r → r ≠ .done →
    s.pointer.pending = some g → s.pointer.committed = some a →
    settled s.server g ∨ safe s.server a → safe s.server a

/-- The named generation is safe, and a pending one is settled or has a
safe one behind it. -/
def Inv (safe settled : GenerationPred) : CredentialPred := fun db A =>
  (∀ g, A.value = some g → safe db g) ∧
    ∀ g a, A.pending = some g → A.committed = some a → settled db g ∨ safe db a

theorem Inv.mono {safe settled : GenerationPred} {db db' : Registry}
    {A : AtomicPointer Generation} (h : Inv safe settled db A)
    (hsafe : ∀ a, safe db a → safe db' a) (hsettled : ∀ a, settled db a → settled db' a) :
    Inv safe settled db' A :=
  ⟨fun g hg => hsafe g (h.1 g hg), fun g a hg ha => (h.2 g a hg ha).imp (hsettled g) (hsafe a)⟩

namespace CredentialLaw

variable {w : CredentialWorld}
  {permitted : CredentialOp → CredentialState → CredentialReply → Prop}
  {safe settled : GenerationPred} (law : CredentialLaw w permitted safe settled)

include law

theorem inv_maintenance (db : Registry) (A : AtomicPointer Generation) (now : Int)
    (h : Inv safe settled db A) : Inv safe settled (db.maintenance now) A :=
  h.mono (fun a => law.safe_maintenance db a now) fun a => law.settled_maintenance db a now

/-- The invariant. -/
def inv : Assertion (Inv safe settled) where
  holds := Inv safe settled
  stable := law.inv_maintenance
  inv _ _ h := h

/-- `g` is safe. -/
def fresh (g : Generation) : Assertion (Inv safe settled) where
  holds db A := Inv safe settled db A ∧ safe db g
  stable db A now h := ⟨law.inv_maintenance db A now h.1, law.safe_maintenance _ _ _ h.2⟩
  inv _ _ h := h.1

/-- The pointer names `g`. -/
def naming (g : Generation) : Assertion (Inv safe settled) where
  holds db A := Inv safe settled db A ∧ A.value = some g
  stable db A now h := ⟨law.inv_maintenance db A now h.1, h.2⟩
  inv _ _ h := h.1

/-- The pointer names `g`, and a rollback restores a safe generation. -/
def restorable (g : Generation) : Assertion (Inv safe settled) where
  holds db A := (Inv safe settled db A ∧ A.value = some g) ∧
    ∀ a, A.previous = some a → safe db a
  stable db A now h := ⟨⟨law.inv_maintenance db A now h.1.1, h.1.2⟩,
    fun a ha => law.safe_maintenance _ _ _ (h.2 a ha)⟩
  inv _ _ h := h.1.1

variable {text : String} {α : Type} {P : Assertion (Inv safe settled)}

/-! A program that fails leaves the invariant, wherever it stops. -/

theorem fails {e : ClientError} {Q : α → Assertion (Inv safe settled)} :
    Spec w permitted P (throw e : CredentialM α) Q law.inv :=
  .throw P.inv

theorem act_local {op : CredentialOp} (hop : IsLocal op) :
    Spec w permitted P (act op text) (fun _ => P) law.inv :=
  spec_act_local hop P.inv

theorem clock : Spec w permitted P now (fun _ => P) law.inv :=
  spec_now P.inv

theorem spec_commit :
    Spec w permitted law.inv (act (.pointer .commit) text) (fun _ => law.inv) law.inv :=
  .act (spec_pointer (fun db A h => ⟨h.1, fun g a hg _ => by cases hg⟩) fun db A h => h)

variable {g : Generation}

/-- A rollback to a safe generation. -/
theorem spec_rollback {E : Assertion (Inv safe settled)} :
    Spec w permitted (law.restorable g) (ask (.pointer .rollback)) (fun _ => law.inv) E := by
  refine spec_pointer (fun db A h => ⟨fun a ha => ?_, fun g a hg _ => by cases hg⟩)
    fun db A h => h.1.1
  -- the committed generation is the previous one, or the one named already
  cases hpending : A.pending with
  | none =>
    refine h.1.1.1 a ?_
    rw [AtomicPointer.value, hpending]
    exact ha
  | some b =>
    refine h.2 a ?_
    rw [AtomicPointer.previous_of_isSome (by rw [hpending]; rfl)]
    exact ha

theorem spec_rollbackIfPrevious {E : Assertion (Inv safe settled)} :
    Spec w permitted (law.restorable g) (ask (.pointer .rollbackIfPrevious))
      (fun _ => law.inv) E := by
  refine spec_pointer (fun db A h => ?_) fun db A h => h.1.1
  simp only [PointerCall.run]
  split
  next hprevious =>
    refine ⟨fun a ha => h.2 a ?_, fun g a hg _ => by cases hg⟩
    rw [AtomicPointer.previous_of_isSome (AtomicPointer.pending_of_previous hprevious)]
    exact ha
  next => exact h.1.1

/-- A request that keeps the named generation safe, and others until it
is settled. -/
theorem naming_requestAs {a : Generation} {result : Except Status Registry}
    {answer r : CredentialReply} {s s' : CredentialState} (hs : Holds (law.naming g).holds s)
    (hlaw : ∀ db, result = .ok db → safe s.server g → safe db g ∧
      (∀ a, safe s.server a → settled db g ∨ safe db a) ∧ ∀ a, settled s.server a → settled db a)
    (h : RequestAs a result answer s s' r) : Holds (law.naming g).holds s' := by
  rcases h with ⟨rfl, -⟩ | ⟨-, ⟨rfl, -⟩ | hresult⟩
  · exact hs
  · exact hs
  · split at hresult
    next db =>
      obtain ⟨rfl, -⟩ := hresult
      obtain ⟨hg, hothers, hsettled⟩ := hlaw db rfl (hs.1.1 g hs.2)
      refine ⟨⟨fun a ha => ?_, fun b a hb ha => ?_⟩, hs.2⟩
      · have hag : a = g := Option.some.inj (ha.symm.trans hs.2)
        rw [hag]
        exact hg
      · have hbg : b = g :=
          Option.some.inj ((AtomicPointer.value_of_pending hb).symm.trans hs.2)
        rw [hbg] at hb ⊢
        rcases hs.1.2 g a hb ha with h | h
        · exact .inl (hsettled g h)
        · exact hothers a h
    next => exact hresult.1 ▸ hs

/-- An activation of the named generation. -/
theorem spec_activate :
    Spec w permitted (law.naming g) (request (.activate g) text) (fun _ => law.naming g)
      (law.restorable g) := by
  have hask : Spec w permitted (law.naming g) (ask (.activate g))
      (fun r => match r with | .done => law.naming g | _ => law.restorable g)
      (law.restorable g) := by
    refine .ask (fun _ _ ht => ht) fun s s' r hs heff hperm => ?_
    -- whatever the answer, the invariant holds and the pointer is the same
    have hinv : Holds (law.naming g).holds s' :=
      law.naming_requestAs hs (fun _ hdb => law.activate _ _ _ _ hdb) heff
    have hrestore (hr : r ≠ .done) : Holds (law.restorable g).holds s' := by
      refine ⟨hinv, fun a ha => ?_⟩
      have hpending : s'.pointer.pending.isSome = true :=
        AtomicPointer.pending_of_previous (by rw [ha]; rfl)
      rw [AtomicPointer.previous_of_isSome hpending] at ha
      obtain ⟨b, hb⟩ := Option.isSome_iff_exists.1 hpending
      have hbg : b = g :=
        Option.some.inj ((AtomicPointer.value_of_pending hb).symm.trans hinv.2)
      rw [hbg] at hb
      exact law.restore s' r g a hperm hr hb ha (hinv.1.2 g a hb ha)
    grind
  refine .bind hask fun r => ?_
  cases r with
  | done => exact .ret
  | _ => exact .throw fun _ _ h => h

/-- A replacement by the identity that the pointer names. -/
theorem spec_replacePreviousIdentity {previous g : Generation} :
    Spec w permitted (law.naming g) (replacePreviousIdentity previous g.identity)
      (fun _ => law.naming g) (law.naming g) := by
  have hask : Spec w permitted (law.naming g) (ask (.replace previous g.identity))
      (fun _ => law.naming g) (law.naming g) :=
    .ask (fun _ _ ht => ht) fun s s' r hs heff _ =>
      law.naming_requestAs hs (fun _ hdb => law.replace _ _ _ _ _ hdb) heff
  unfold replacePreviousIdentity
  split
  · exact .ret
  · refine .bind hask fun r => ?_
    split
    · exact .ret
    · exact .throw fun _ _ h => h
    · exact .throw fun _ _ h => h

theorem spec_enroll {E : Assertion (Inv safe settled)} : Spec w permitted law.inv (ask .enroll)
      (fun r => match r with | .enrolled g _ => law.fresh g | _ => law.inv) E := by
  refine .ask (fun _ _ ht => ht) fun s s' r hs heff _ => ?_
  rcases heff with ⟨rfl, status, rfl⟩ | ⟨g, ⟨rfl, rfl | rfl⟩ | hresult⟩
  · exact hs
  · exact hs
  · exact hs
  · split at hresult
    next db' hdb =>
      obtain ⟨hg, hsafe, hsettled⟩ := law.enroll _ _ _ _ hdb
      obtain ⟨rfl, hr⟩ := hresult
      rcases hr with rfl | rfl
      · exact ⟨hs.mono hsafe hsettled, hg⟩
      · exact hs.mono hsafe hsettled
    next status _ =>
      grind

theorem spec_renew {E : Assertion (Inv safe settled)} :
    Spec w permitted (law.naming g) (ask (.renew g))
      (fun r => match r with | .renewed g' => law.fresh g' | _ => law.inv) E := by
  refine .ask (fun _ _ ht => ht) fun s s' r hs heff _ => ?_
  obtain ⟨issued, expiresAt, ⟨rfl, rfl⟩ | ⟨-, ⟨rfl, rfl | rfl⟩ | hresult⟩⟩ := heff
  · exact hs.1
  · exact hs.1
  · exact hs.1
  · split at hresult
    next db' hdb =>
      obtain ⟨hg, hsafe, hsettled⟩ := law.renew _ _ _ _ _ _ hdb (hs.1.1 g hs.2)
      obtain ⟨rfl, hr⟩ := hresult
      rcases hr with rfl | rfl
      · exact ⟨hs.1.mono hsafe hsettled, hg⟩
      · exact hs.1.mono hsafe hsettled
    next status _ =>
      obtain ⟨rfl, rfl⟩ := hresult
      exact hs.1

/-! ### The programs -/

/-- Publishing puts a safe generation in front of a safe one. -/
theorem spec_publishActive {texts : PublicationTexts} :
    Spec w permitted (law.fresh g) (publishActive texts g) (fun _ => law.restorable g)
      law.inv := by
  have hpublish : Spec w permitted (law.fresh g) (ask (.pointer (.publish g)))
      (fun r => match r with | .done => law.restorable g | _ => law.inv) law.inv := by
    refine spec_pointer (fun db A h => ?_) fun db A h => h.1
    by_cases hprevious : A.previous.isSome = true
    · have hrun : (PointerCall.publish g).run A = (A, .failed) := if_pos hprevious
      rw [hrun]
      exact h.1
    · have hrun : (PointerCall.publish g).run A = (A.publish g, .done) := if_neg hprevious
      rw [hrun]
      refine ⟨⟨⟨fun a ha => ?_, fun b a hb ha => .inr (h.1.1 a ha)⟩, rfl⟩, fun a ha => h.1.1 a ha⟩
      have hag : a = g := (Option.some.inj ha).symm
      rw [hag]
      exact h.2
  refine .bind (law.act_local trivial) fun _ => .bind (.act hpublish) fun _ =>
    .bind (spec_ask_local trivial) fun r => ?_
  split
  · exact .ret
  · refine .bind law.spec_rollback fun r => ?_
    split <;> exact law.fails

theorem spec_publishAndActivate {texts : PublicationTexts} :
    Spec w permitted (law.fresh g) (publishAndActivate texts (request (.activate g) text) g)
      (fun _ => law.naming g) law.inv := by
  refine .bind (.attempt_split law.spec_publishActive) fun r => ?_
  cases r with
  | error e => exact .bind (spec_ask_local trivial) fun _ => law.fails
  | ok u =>
    refine .bind (.attempt_split (.weaken law.spec_activate fun _ _ h => h.1)) fun r => ?_
    cases r with
    | ok u => exact .ret
    | error e =>
      refine .bind law.spec_rollback fun r => ?_
      split
      · exact .bind (spec_ask_local trivial) fun _ => law.fails
      · exact law.fails

theorem spec_commitActive :
    Spec w permitted (law.naming g) (commitActive text) (fun _ => law.naming g) law.inv := by
  refine .bind (.act (spec_pointer ?_ fun _ _ h => h.1)) fun _ => law.act_local trivial
  exact fun db A h => ⟨⟨h.1.1, fun g a hg _ => by cases hg⟩, h.2⟩

/-- An enrollment is installed, or the old credential is back in place. -/
theorem spec_installEnrollment {uuidText : Nat → String} {previous g : Generation}
    {grantKey : Bytes} :
    Spec w permitted (law.fresh g) (installEnrollment uuidText previous g grantKey)
      (fun _ => law.inv) law.inv := by
  unfold installEnrollment
  split
  · exact law.fails
  · have hpersist : Spec w permitted (law.fresh g) (persistIdentityGeneration g grantKey)
        (fun _ => law.fresh g) (law.fresh g) :=
      .bind (spec_act_local trivial fun _ _ h => h) fun _ => spec_onBroker _ fun _ _ h => h
    refine .bind (.attempt_same hpersist) fun r => ?_
    cases r with
    | error e => exact .bind (spec_ask_local trivial) fun _ => law.fails
    | ok u =>
      refine .bind law.spec_publishAndActivate fun _ => ?_
      refine .bind (.attempt_same law.spec_replacePreviousIdentity) fun r => ?_
      cases r with
      | error e => exact law.fails
      | ok u =>
        exact .weaken (.bind law.spec_commit fun _ => spec_act_local trivial fun _ _ h => h)
          fun _ _ h => h.1

theorem spec_read {E : Assertion (Inv safe settled)} :
    Spec w permitted law.inv (ask (.pointer .read))
      (fun r => match r with | .generation (some g) => law.naming g | _ => law.inv) E := by
  refine spec_pointer (fun db A h => ?_) fun db A h => h
  simp only [PointerCall.run]
  cases hvalue : A.value with
  | none => exact h
  | some g => exact ⟨h, hvalue⟩

theorem spec_reenroll {uuidText : Nat → String} :
    Spec w permitted law.inv (reenroll uuidText) (fun _ => law.inv) law.inv := by
  have hprevious : Spec w permitted law.inv (ask (.pointer .previous)) (fun _ => law.inv)
      law.inv := spec_pointer (fun _ _ h => h) fun _ _ h => h
  refine .bind (spec_act_local trivial fun _ _ h => h) fun _ => .bind hprevious fun r => ?_
  split
  · refine .bind law.spec_read fun r => ?_
    cases r with
    | generation active =>
      cases active with
      | some previous =>
        refine .weaken (.bind (spec_act_local trivial fun _ _ h => h) fun _ =>
          .bind law.spec_enroll fun r => ?_) fun _ _ h => h.1
        cases r with
        | enrolled g grantKey => exact law.spec_installEnrollment
        | _ => exact law.fails
      | none => exact law.fails
    | _ => exact law.fails
  · exact law.fails
  · exact law.fails

/-- Activation of the named generation, with its rollback. -/
theorem spec_activateOrRestore {restored kept : ClientError → ClientError} :
    Spec w permitted (law.naming g) (activateOrRestore (request (.activate g) text) restored kept)
      (fun _ => law.naming g) law.inv := by
  refine .bind (.attempt_split law.spec_activate) fun r => ?_
  cases r with
  | ok u => exact .ret
  | error e =>
    refine .bind law.spec_rollbackIfPrevious fun r => ?_
    split
    · exact .bind (spec_act_local trivial fun _ _ h => h) fun _ => law.fails
    · exact law.fails

/-- `finalize_active_publication` keeps the invariant, and the pointer
still names `g` when it succeeds. -/
theorem spec_finalizeActivePublication :
    Spec w permitted (law.naming g) (finalizeActivePublication g) (fun _ => law.naming g)
      law.inv := by
  have hprevious : Spec w permitted (law.naming g) (ask (.pointer .previous))
      (fun _ => law.naming g) law.inv := spec_pointer (fun _ _ h => h) fun _ _ h => h
  refine .bind law.spec_activateOrRestore fun _ => .bind hprevious fun r => ?_
  split
  next previous =>
    refine .bind (law.act_local trivial) fun _ => ?_
    split
    · exact law.spec_commitActive
    · refine .bind (.attempt_same law.spec_replacePreviousIdentity) fun r => ?_
      cases r with
      | ok u => exact law.spec_commitActive
      | error e =>
        dsimp only
        split
        · exact law.spec_commitActive
        · exact law.fails
  next => exact law.spec_commitActive
  next => exact law.fails

/-- The renewal of the daemon keeps the invariant, whichever operation
fails. -/
theorem spec_renewCertificateIfNeeded :
    Spec w permitted (law.naming g) (renewCertificateIfNeeded g) (fun _ => law.inv) law.inv := by
  have hinstall (g' : Generation) : Spec w permitted (law.fresh g') (installRenewal g g')
      (fun _ => law.inv) law.inv := by
    refine .bind (law.act_local trivial) fun _ => .bind
      (.attempt_same (spec_act_local trivial fun _ _ h => h)) fun r => ?_
    cases r with
    | error e => exact .bind (spec_ask_local trivial) fun _ => law.fails
    | ok u =>
      exact .bind law.spec_publishAndActivate fun _ => .weaken (.bind law.spec_commit fun _ =>
        .ret) fun _ _ h => h.1
  refine .bind law.clock fun t => ?_
  split
  · exact .pure fun _ _ h => h.1
  · refine .bind law.spec_renew fun r => ?_
    cases r with
    | renewed g' =>
      refine .bind (P := law.fresh g') law.clock fun t => ?_
      split
      · exact law.fails
      · exact hinstall g'
    | _ => exact law.fails

/-- One pass of the daemon keeps the invariant. -/
theorem spec_daemonPass : Spec w permitted law.inv daemonPass (fun _ => law.inv) law.inv := by
  refine .bind law.spec_read fun r => ?_
  cases r with
  | generation active =>
    cases active with
    | some g =>
      refine .bind (law.act_local trivial) fun _ =>
        .bind law.spec_finalizeActivePublication fun _ =>
        .bind (.attempt_same law.spec_renewCertificateIfNeeded) fun r => ?_
      cases r with
      | ok renewed => exact .ret
      | error e =>
        refine .bind law.clock fun t => ?_
        split
        · exact .ret
        · exact law.fails
    | none => exact law.fails
  | _ => exact law.fails

/-- The renewal of a profile keeps the invariant, whichever operation
fails. -/
theorem spec_renewAdminProfile {profile : Generation} :
    Spec w permitted (law.naming profile) (renewAdminProfile profile) (fun _ => law.inv)
      law.inv := by
  have hpersist (g : Generation) : Spec w permitted (law.fresh g) (persistProfileGeneration g)
      (fun _ => law.fresh g) law.inv := by
    refine .bind (.attempt_same (spec_act_local trivial fun _ _ h => h)) fun r => ?_
    cases r with
    | error e => exact .bind (spec_ask_local trivial) fun _ => law.fails
    | ok u => exact .ret
  refine .bind law.clock fun t => ?_
  split
  · exact law.fails
  · refine .bind law.spec_renew fun r => ?_
    cases r with
    | renewed g =>
      refine .bind (P := law.fresh g) law.clock fun t => ?_
      split
      · exact law.fails
      · refine .bind (law.act_local trivial) fun _ => .bind (hpersist g)
          fun _ => .bind law.spec_publishAndActivate fun _ => .weaken (.bind law.spec_commit
            fun _ => .bind (spec_act_local trivial fun _ _ h => h) fun _ => .ret) fun _ _ h => h.1
    | _ => exact law.fails

/-- One call of the Admin application keeps the invariant. -/
theorem spec_adminClient : Spec w permitted law.inv adminClient (fun _ => law.inv) law.inv := by
  refine .bind law.spec_read fun r => ?_
  cases r with
  | generation active =>
    cases active with
    | some profile =>
      refine .bind (law.act_local trivial) fun _ =>
        .bind law.spec_activateOrRestore fun _ => .bind law.spec_commitActive fun _ =>
        .bind law.clock fun t => ?_
      split
      · refine .bind (.attempt_same law.spec_renewAdminProfile) fun r => ?_
        cases r with
        | ok replacement => exact .ret
        | error e =>
          refine .bind law.clock fun t => ?_
          split
          · exact .ret
          · exact law.fails
      · exact .pure fun _ _ h => h.1
    | none => exact law.fails
  | _ => exact law.fails

end CredentialLaw

end Centrald.Proofs
