import Centrald.Proofs.Credentials

/-!
# `Centrald.Proofs.CredentialRuns`: sequences of credential programs

A client re-enrolls and its daemon passes through its loop, the Admin
application opens connections, each any number of times, completed,
failed or stopped by a crash. A law of the programs holds in every state
that such a run reaches. `carryOut` gives runs that can be evaluated.
-/

set_option autoImplicit false

namespace Centrald.Proofs

open Durable Server Client Client.CredentialM Admin

/-! ### Sequences of programs -/

section Runs

variable (w : CredentialWorld)
  (permitted : CredentialOp → CredentialState → CredentialReply → Prop)

/-- What happens on a client: a re-enrollment or a pass of the daemon,
completed or not, and time in between. -/
inductive ClientStep (uuidText : Nat → String) : CredentialState → CredentialState → Prop where
  | reenroll {s : CredentialState} {out : Outcome CredentialState (Except ClientError Unit)}
      (h : Exec (credentialSem w permitted) (reenroll uuidText).run s out) :
      ClientStep uuidText s out.state
  | daemon {s : CredentialState} {out : Outcome CredentialState (Except ClientError Bool)}
      (h : Exec (credentialSem w permitted) daemonPass.run s out) : ClientStep uuidText s out.state
  | drift {s s' : CredentialState} (h : Drift s s') : ClientStep uuidText s s'

/-- What happens to the profile of an Admin application. -/
inductive AdminStep : CredentialState → CredentialState → Prop where
  | adminClient {s : CredentialState}
      {out : Outcome CredentialState (Except ClientError Generation)}
      (h : Exec (credentialSem w permitted) adminClient.run s out) : AdminStep s out.state
  | drift {s s' : CredentialState} (h : Drift s s') : AdminStep s s'

def ClientRun (uuidText : Nat → String) : CredentialState → CredentialState → Prop :=
  Relation.ReflTransGen (ClientStep w permitted uuidText)

def AdminRun : CredentialState → CredentialState → Prop :=
  Relation.ReflTransGen (AdminStep w permitted)

variable {w permitted} {safe settled : GenerationPred}

/-- However a program ends, it leaves the invariant. -/
theorem Spec.state {α : Type} {I : CredentialPred} {P : Assertion I} {p : CredentialM α}
    {Q : α → Assertion I} {E : Assertion I} (h : Spec w permitted P p Q E)
    {s : CredentialState} {out : Outcome CredentialState (Except ClientError α)}
    (hs : Holds P.holds s) (hexec : Exec (credentialSem w permitted) p.run s out) :
    Holds I out.state := by
  have hout := h s hs out hexec
  cases out with
  | crashed s' => exact hout
  | done r s' =>
    cases r with
    | ok a => exact (Q a).inv _ _ hout
    | error e => exact E.inv _ _ hout

theorem CredentialLaw.clientRun (law : CredentialLaw w permitted safe settled)
    {uuidText : Nat → String} {s s' : CredentialState}
    (h : ClientRun w permitted uuidText s s') (hs : Holds (Inv safe settled) s) :
    Holds (Inv safe settled) s' := by
  induction h with
  | refl => exact hs
  | tail _ hstep ih =>
    cases hstep with
    | reenroll hexec => exact law.spec_reenroll.state ih hexec
    | daemon hexec => exact law.spec_daemonPass.state ih hexec
    | drift hdrift => exact law.inv.drift hdrift ih

theorem CredentialLaw.adminRun (law : CredentialLaw w permitted safe settled)
    {s s' : CredentialState} (h : AdminRun w permitted s s')
    (hs : Holds (Inv safe settled) s) : Holds (Inv safe settled) s' := by
  induction h with
  | refl => exact hs
  | tail _ hstep ih =>
    cases hstep with
    | adminClient hexec => exact law.spec_adminClient.state ih hexec
    | drift hdrift => exact law.inv.drift hdrift ih

end Runs

/-! ### Runs that can be evaluated -/

/-- The state and the reply after a request that was carried out. -/
def answered (s : CredentialState) (result : Except Status Registry) (answer : CredentialReply) :
    CredentialState × CredentialReply :=
  match result with
  | .ok db => ({ s with server := db }, answer)
  | .error status => (s, .refused status)

/-- Every operation succeeds if it can. The server issues `g` to an
enrollment and the certificate of `g` to a renewal. -/
def carryOut (w : CredentialWorld) (g : Generation) :
    CredentialOp → CredentialState → CredentialState × CredentialReply
  | .now, s => (s, .time s.clock)
  | .enroll, s => answered s
      (enrollIdentity s.server s.clock w.role g.identity g.fingerprint g.expiresAt)
      (.enrolled g w.grantKey)
  | .renew a, s =>
    if s.stored a then answered s
      (renewCertificate s.server s.clock a.fingerprint w.role g.fingerprint g.expiresAt)
      (.renewed ⟨a.identity, g.fingerprint, g.expiresAt⟩)
    else (s, .failed)
  | .activate a, s =>
    if s.stored a then answered s
      (activateIdentityCertificate s.server s.clock a.identity a.fingerprint w.role) .done
    else (s, .failed)
  | .replace a replacement, s =>
    if s.stored a then answered s
      (replaceIdentity s.server s.clock a.fingerprint replacement) .done
    else (s, .failed)
  | .load a, s => (s, if s.stored a then .done else .failed)
  | .persist a, s => ({ s with stored := Function.update s.stored a true }, .done)
  | .cleanup a, s => ({ s with stored := Function.update s.stored a false }, .done)
  | .secure, s => (s, .done)
  | .pointer call, s =>
    ({ s with pointer := (call.run s.pointer).1 }, (call.run s.pointer).2)
  | .broker op, s =>
    ({ s with broker := (op.run s.broker).1 }, .file (op.run s.broker).2)

theorem request_answered (s : CredentialState) (result : Except Status Registry)
    (answer : CredentialReply) :
    Request result answer s (answered s result answer).1 (answered s result answer).2 := by
  cases result with
  | ok db => exact .inr ⟨rfl, .inl rfl⟩
  | error status => exact .inr ⟨rfl, rfl⟩

section

variable (a : Generation) (s : CredentialState) (result : Except Status Registry)
  (answer : CredentialReply)
include a s result answer

theorem requestAs_answered : RequestAs a result answer s
      (if s.stored a then answered s result answer else (s, .failed)).1
      (if s.stored a then answered s result answer else (s, .failed)).2 := by
  split
  next h => exact .inr ⟨h, request_answered s result answer⟩
  next => exact .inl ⟨rfl, rfl⟩

/-- The answer to a request may be lost. -/
theorem requestAs_unanswered : RequestAs a result answer s
      (if s.stored a then answered s result answer else (s, .failed)).1 .failed := by
  split
  next h =>
    cases result with
    | ok db => exact .inr ⟨h, .inr ⟨rfl, .inr rfl⟩⟩
    | error status => exact .inl ⟨rfl, rfl⟩
  next => exact .inl ⟨rfl, rfl⟩

end

/-- Carrying an operation out is one of its effects. -/
theorem effect_carryOut (w : CredentialWorld) (g : Generation) (op : CredentialOp)
    (s : CredentialState) : op.Effect w s (carryOut w g op s).1 (carryOut w g op s).2 := by
  cases op with
  | now => exact ⟨rfl, rfl⟩
  | enroll => exact .inr ⟨g, request_answered _ _ _⟩
  | renew a => exact ⟨_, _, requestAs_answered a s _ _⟩
  | activate a => exact requestAs_answered a s _ _
  | replace a replacement => exact requestAs_answered a s _ _
  | load a =>
    refine ⟨rfl, ?_⟩
    simp only [carryOut]
    grind
  | persist a => exact .inl ⟨rfl, rfl⟩
  | cleanup a => exact .inl ⟨rfl, rfl⟩
  | secure => exact ⟨rfl, .inl rfl⟩
  | pointer call => exact .inl ⟨rfl, rfl⟩
  | broker op => exact ⟨_, _, .inl rfl, rfl, rfl⟩

/-- What gets lost of a request. -/
inductive Loss where
  | nothing
  | request
  | answer

section

variable (w : CredentialWorld) (g : Generation) (loss : CredentialOp → Loss)

/-- As `carryOut`, with losses of activations and replacements. -/
def carryOutLosing (op : CredentialOp) (s : CredentialState) : CredentialState × CredentialReply :=
  match op, loss op with
  | .activate _, .request | .replace _ _, .request => (s, .failed)
  | .activate _, .answer | .replace _ _, .answer => ((carryOut w g op s).1, .failed)
  | _, _ => carryOut w g op s

theorem effect_carryOutLosing (op : CredentialOp) (s : CredentialState) :
    op.Effect w s (carryOutLosing w g loss op s).1 (carryOutLosing w g loss op s).2 := by
  unfold carryOutLosing
  split
  · exact .inl ⟨rfl, rfl⟩
  · exact .inl ⟨rfl, rfl⟩
  · exact requestAs_unanswered _ s _ _
  · exact requestAs_unanswered _ s _ _
  · exact effect_carryOut w g _ s

variable {α : Type} (p : CredentialM α) (s : CredentialState)

/-- The run of a program with these losses. -/
theorem exec_losing : Exec (credentialSem w fun _ _ _ => True) p.run s
    (.done (p.run.runWith (carryOutLosing w g loss) s).1
      (p.run.runWith (carryOutLosing w g loss) s).2) :=
  exec_runWith (M := credentialSem w fun _ _ _ => True)
    (fun op s => ⟨s, .refl, effect_carryOutLosing w g loss op s, trivial⟩) p.run s

theorem exec_losing_of_allow {ok : CredentialOp → CredentialState → CredentialReply → Bool}
    (h : p.run.allow (carryOutLosing w g loss) ok s = true) :
    Exec (credentialSem w fun op s r => ok op s r = true) p.run s
      (.done (p.run.runWith (carryOutLosing w g loss) s).1
        (p.run.runWith (carryOutLosing w g loss) s).2) :=
  exec_runWith_of_allow (M := credentialSem w fun op s r => ok op s r = true)
    (fun op s hok => ⟨s, .refl, effect_carryOutLosing w g loss op s, hok⟩) p.run s h

end

end Centrald.Proofs
