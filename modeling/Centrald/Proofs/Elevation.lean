import Centrald.Proofs.ShellGrants
import Centrald.Server.Elevation

/-!
# `Centrald.Proofs.Elevation`: one challenge for one elevated shell

An elevated grant rests on a challenge that its call has checked and then
consumed. `Authorises` says what such a challenge must be, and `Matched`
that every elevated grant has one of its own. The calls race with each
other and with the clean-up of old rows. The `UPDATE` decides the race:
it takes a row that is not consumed and not expired, and a row that is
not consumed was never consumed before (`Tables.rows`). From then on the
challenge belongs to one call (`holds`), until the call signs
its grant.

Ed25519 is ideal in the sense of `Unforged`: a call presents a signature
that verifies only for a key and a payload that were signed.

The reason of the request is hashed into the challenge, and the session
records the reason of the open frame. Nothing compares the two. The
relation between them is a parameter here (`Presents`): whatever holds
between the two reasons when a challenge is checked holds between the
challenge and the session. `elevated_grants_authorised` takes equality,
which is a condition on the Admins, and the relation that is always true.
`elevated_for_another_reason` is a run without the condition.
-/

set_option autoImplicit false

namespace Centrald.Proofs.Elevation

open Durable Common Server Server.Elevation Function

/-! ### What a challenge is for -/

/-- The challenge was consumed before it expired. -/
def Consumed (s : ElevationState) (c : IssuedChallenge) : Prop :=
  ∃ now, (c.row.id, now) ∈ s.consumed ∧ now < c.row.expiresAt

/-- The elevation key of the Admin has signed the challenge. -/
def SignedBy (s : ElevationState) (admin : Nat) (c : IssuedChallenge) : Prop :=
  ∃ key, s.identities admin = some (some key) ∧ (key, c.row.payload) ∈ s.signatures

/-- The challenge `c` is for the grant `g`. The reason that `c` was
issued for and the one that is recorded for the session are in the
relation `R`. -/
structure Authorises (R : String → String → Prop) (s : ElevationState) (c : IssuedChallenge)
    (g : PrivilegedGrant) : Prop where
  issued : c ∈ s.issued
  admin : c.row.adminId = g.adminId
  target : c.row.targetId = g.deviceId
  reason : ∃ session ∈ s.sessions, session.id = g.jobOrSessionId ∧ session.actorId = g.adminId ∧
    session.targetId = g.deviceId ∧ R c.reason session.reason
  consumed : Consumed s c
  signed : SignedBy s g.adminId c

/-- The grants for elevated shells. -/
def elevatedGrants (s : ElevationState) : List PrivilegedGrant :=
  s.grants.filter fun g => g.operation = .openElevatedShell

/-- Every elevated grant has a challenge of its own. -/
def Matched (R : String → String → Prop) (s : ElevationState) : Prop :=
  ∃ cs : List IssuedChallenge, (cs.map (·.row.id)).Nodup ∧
    List.Forall₂ (Authorises R s) cs (elevatedGrants s)

/-- No challenge is consumed twice, and no two sessions have one
identifier. -/
def SingleUse (s : ElevationState) : Prop :=
  (s.consumed.map Prod.fst).Nodup ∧ (s.sessions.map (·.id)).Nodup

/-! ### The guards -/

/-- A signature of the request that verifies was made with the key. -/
def Genuine (env : ElevationEnv) (s : ElevationState) (request : ElevatedOpen) : Prop :=
  ∀ key payload, env.verify key payload request.challengeSignature = true →
    (key, payload) ∈ s.signatures

/-- A call presents no made-up signature. -/
def Unforged (env : ElevationEnv) (s : ElevationState) : ElevationLabel → Prop
  | .openShell _ _ request => Genuine env s request
  | _ => True

/-- When an elevated call is validated, the reason of the challenge that
it presents and its own reason are in the relation `R`. -/
def Presents (R : String → String → Prop) (s : ElevationState) : ElevationLabel → Prop
  | .validate t _ _ _ _ => ∀ call, s.calls t = some call → call.request.privilege = 2 →
      ∀ c ∈ s.issued, call.request.challengeId = some c.row.id → R c.reason call.request.reason
  | _ => True

/-! ### The invariant -/

/-- The request of `actor` presents the challenge `c`. -/
structure Presented (R : String → String → Prop) (s : ElevationState) (actor : Nat)
    (request : ElevatedOpen) (c : IssuedChallenge) : Prop where
  issued : c ∈ s.issued
  id : request.challengeId = some c.row.id
  admin : c.row.adminId = actor
  target : c.row.targetId = request.targetId
  reason : R c.reason request.reason
  signed : SignedBy s actor c

/-- The plan is for the target of the request. If it is for an elevated
shell, then the challenge of the request is consumed. -/
structure Validated (R : String → String → Prop) (s : ElevationState) (actor : Nat)
    (request : ElevatedOpen) (plan : ShellOpenPlan) : Prop where
  target : plan.targetId = request.targetId
  challenge : plan.operation = .openElevatedShell →
    ∃ c, Presented R s actor request c ∧ Consumed s c

/-- What is known of a call where it stands. -/
def Reached (R : String → String → Prop) (s : ElevationState) : OpenCall → Prop
  | ⟨_, _, .requested⟩ => True
  | ⟨actor, request, .checked plan⟩ => plan.targetId = request.targetId ∧
      plan.operation = .openElevatedShell ∧ ∃ c, Presented R s actor request c
  | ⟨actor, request, .validated plan⟩ => Validated R s actor request plan
  | ⟨actor, request, .recorded plan⟩ => Validated R s actor request plan ∧
      ∃ session ∈ s.sessions, session.id = plan.sessionId ∧ session.actorId = actor ∧
        session.targetId = plan.targetId ∧ session.reason = request.reason

/-- The challenge that a call has consumed and not yet signed a grant for. -/
def holds : OpenCall → Option Nat
  | ⟨_, request, .validated plan⟩ | ⟨_, request, .recorded plan⟩ =>
    if plan.operation = .openElevatedShell then request.challengeId else none
  | _ => none

def heldBy (s : ElevationState) (t : Nat) : Option Nat := (s.calls t).bind holds

/-- The tables agree with what has happened. -/
structure Tables (s : ElevationState) : Prop where
  singleUse : SingleUse s
  issued : (s.issued.map (·.row.id)).Nodup
  consumed : s.consumed.map Prod.fst ⊆ s.issued.map (·.row.id)
  rows : ∀ row ∈ s.challenges,
    (∃ c ∈ s.issued, row = { c.row with consumedAt := row.consumedAt }) ∧
      (row.consumedAt = none → row.id ∉ s.consumed.map Prod.fst)

/-- A consumed challenge is held by one call, or it is the challenge of
one grant. -/
structure Inv (env : ElevationEnv) (R : String → String → Prop) (s : ElevationState) : Prop where
  tables : Tables s
  calls : ∀ t call, s.calls t = some call → Genuine env s call.request ∧ Reached R s call
  distinct : ∀ t u id, heldBy s t = some id → heldBy s u = some id → t = u
  matched : ∃ cs : List IssuedChallenge, (cs.map (·.row.id)).Nodup ∧
    List.Forall₂ (Authorises R s) cs (elevatedGrants s) ∧
    ∀ t id, heldBy s t = some id → id ∉ cs.map (·.row.id)

/-! ### What every step keeps -/

section Steps

variable {env : ElevationEnv} {R : String → String → Prop} {s s' : ElevationState}
  {l : ElevationLabel} {t actor : Nat} {request : ElevatedOpen} {plan : ShellOpenPlan}
  {call : OpenCall} {c : IssuedChallenge} {g : PrivilegedGrant}

/-- The records of `s` are still there in `s'`. -/
structure Grows (s s' : ElevationState) : Prop where
  identities : ∀ id key, s.identities id = some key → s'.identities id = some key
  issued : s.issued ⊆ s'.issued
  signatures : s.signatures ⊆ s'.signatures
  consumed : s.consumed ⊆ s'.consumed
  sessions : s.sessions ⊆ s'.sessions

theorem grows_of_step (hstep : (elevationSystem env).step s l = some s') : Grows s s' := by
  cases l <;> dsimp only [elevationSystem, ElevationState.setCall] at hstep <;>
    repeat' (split at hstep)
  all_goals cases hstep
  all_goals constructor <;> grind

theorem Grows.authorises (hg : Grows s s') (h : Authorises R s c g) : Authorises R s' c g := by
  grind [Authorises, Grows, SignedBy, Consumed]

@[grind →]
theorem Grows.presented (hg : Grows s s') (h : Presented R s actor request c) :
    Presented R s' actor request c := by
  grind [Presented, Grows, SignedBy]

@[grind →]
theorem Grows.validated (hg : Grows s s') (h : Validated R s actor request plan) :
    Validated R s' actor request plan := by
  have hconsumed : ∀ c, Consumed s c → Consumed s' c := by grind [Grows, Consumed]
  grind [Validated]

theorem Grows.reached (hg : Grows s s') (h : Reached R s call) : Reached R s' call := by
  obtain ⟨actor, request, pc⟩ := call
  cases pc <;> grind [Reached, Grows]

/-- A row that can be consumed is of a challenge that never was. -/
theorem Tables.fresh {challengeId : Nat} {now : Int} (h : Tables s)
    (hrow : s.challenges.any (·.consumable challengeId now) = true) :
    challengeId ∉ s.consumed.map Prod.fst ∧
      ∃ c ∈ s.issued, c.row.id = challengeId ∧ now < c.row.expiresAt := by
  obtain ⟨row, hmem, hrow⟩ := List.any_eq_true.1 hrow
  obtain ⟨rfl, hunconsumed, hnow⟩ := of_decide_eq_true hrow
  obtain ⟨⟨c, hc, heq⟩, hfresh⟩ := h.rows row hmem
  exact ⟨hfresh hunconsumed, c, hc, by grind, by grind⟩

theorem Tables.eq_of_id (h : Tables s) {c c' : IssuedChallenge} (hc : c ∈ s.issued)
    (hc' : c' ∈ s.issued) (heq : c.row.id = c'.row.id) : c = c' :=
  List.inj_on_of_nodup_map h.issued hc hc' heq

theorem Tables.step (h : Tables s) (hstep : (elevationSystem env).step s l = some s') :
    Tables s' := by
  cases l <;> simp only [elevationSystem, ElevationState.setCall] at hstep
  case beginElevation => grind [Tables, SingleUse, ElevationEnv.beginElevation]
  case consume t now =>
    repeat' (split at hstep)
    all_goals cases hstep
    · next hrow =>
      obtain ⟨hfresh, c, hc, hid, hnow⟩ := h.fresh hrow
      refine ⟨⟨?_, h.singleUse.2⟩, h.issued, ?_, fun row hmem => ?_⟩
      · exact List.nodup_cons.2 ⟨hfresh, h.singleUse.1⟩
      · exact List.cons_subset.2 ⟨hid ▸ List.mem_map_of_mem hc, h.consumed⟩
      · obtain ⟨old, hold, rfl⟩ := List.mem_map.1 hmem
        have hsame := @Tables.eq_of_id s h
        have hrows := h.rows old hold
        grind [ChallengeRow.consume, ChallengeRow.consumable]
    · grind [Tables, SingleUse]
  all_goals grind [Tables, SingleUse]

/-- A challenge that a call holds is consumed. -/
theorem Inv.mem_consumed {u id : Nat} (h : Inv env R s) (hu : heldBy s u = some id) :
    id ∈ s.consumed.map Prod.fst := by
  obtain ⟨⟨actor, request, pc⟩, hcall, hholds⟩ := Option.bind_eq_some_iff.1 hu
  have hreached := (h.calls u _ hcall).2
  cases pc <;> grind [holds, Reached, Validated, Presented, Consumed]

theorem consumed_of_forall₂ {cs : List IssuedChallenge} {gs : List PrivilegedGrant}
    (h : List.Forall₂ (Authorises R s) cs gs) : ∀ c ∈ cs, Consumed s c := by
  induction h with
  | nil => simp
  | cons hauthorises _ ih => simpa using ⟨hauthorises.consumed, ih⟩

section

variable (h : Inv env R s) (hg : Grows s s')
include h hg

/-- A call that does not move stays where it was. -/
theorem Inv.call_kept (hcall : s.calls t = some call) :
    Genuine env s' call.request ∧ Reached R s' call := by
  obtain ⟨hgenuine, hreached⟩ := h.calls t call hcall
  exact ⟨fun key payload hverify => hg.signatures (hgenuine key payload hverify),
    hg.reached hreached⟩

variable (ht : Tables s')
include ht

/-- No call moves, and no grant is signed. -/
theorem Inv.grow (hcalls : s'.calls = s.calls) (hgrants : s'.grants = s.grants) : Inv env R s' := by
  obtain ⟨cs, hnodup, hmatched, hfree⟩ := h.matched
  have hheld : heldBy s' = heldBy s := funext fun t => by rw [heldBy, hcalls, heldBy]
  refine ⟨ht, fun u call hcall => ?_, hheld ▸ h.distinct, cs, hnodup, ?_, hheld ▸ hfree⟩
  · exact h.call_kept hg (hcalls ▸ hcall)
  · rw [elevatedGrants, hgrants]
    exact hmatched.imp fun _ _ => hg.authorises

/-- One call moves. It holds a challenge that was not consumed, or the one
that it held. No grant is signed. -/
theorem Inv.move {next : Option OpenCall} (hcalls : s'.calls = update s.calls t next)
    (hgrants : s'.grants = s.grants)
    (hnext : ∀ call ∈ next, Genuine env s call.request ∧ Reached R s' call)
    (hholds : ∀ id, next.bind holds = some id → heldBy s t = some id ∨
      id ∉ s.consumed.map Prod.fst) : Inv env R s' := by
  obtain ⟨cs, hnodup, hmatched, hfree⟩ := h.matched
  have hcs := consumed_of_forall₂ hmatched
  -- what a call holds after the step
  have hheld : ∀ u id, heldBy s' u = some id →
      heldBy s u = some id ∨ u = t ∧ id ∉ s.consumed.map Prod.fst := by
    intro u id hu
    rw [heldBy, hcalls, update_apply] at hu
    grind [heldBy]
  have hconsumed := @Inv.mem_consumed env R s
  refine ⟨ht, fun u call hcall => ?_, ?_, cs, hnodup, ?_, ?_⟩
  · rw [hcalls, update_apply] at hcall
    split at hcall
    · exact ⟨fun key payload hverify => hg.signatures ((hnext call hcall).1 key payload hverify),
        (hnext call hcall).2⟩
    · exact h.call_kept hg hcall
  · have hdistinct := h.distinct
    grind
  · rw [elevatedGrants, hgrants]
    exact hmatched.imp fun _ _ => hg.authorises
  · grind [Consumed]

/-- The grant `g` of a plan is signed, and its challenge goes from the
call to it. -/
theorem Inv.grant (hcall : s.calls t = some ⟨actor, request, .recorded plan⟩)
    (hcalls : s'.calls = update s.calls t none) (hgrants : s'.grants = g :: s.grants)
    (hoperation : g.operation = plan.operation) (hadmin : g.adminId = actor)
    (hdevice : g.deviceId = plan.targetId) (hsessionId : g.jobOrSessionId = plan.sessionId) :
    Inv env R s' := by
  obtain ⟨-, hvalidated, session, hsession, hrest⟩ := h.calls t _ hcall
  obtain ⟨cs, hnodup, hmatched, hfree⟩ := h.matched
  have hdistinct := h.distinct
  -- the other calls hold what they held
  have hheld : ∀ u id, heldBy s' u = some id → u ≠ t ∧ heldBy s u = some id := by
    intro u id hu
    rw [heldBy, hcalls, update_apply] at hu
    grind [heldBy]
  refine ⟨ht, fun u call hu => ?_, by grind, ?_⟩
  · rw [hcalls, update_apply] at hu
    split at hu
    · cases hu
    · exact h.call_kept hg hu
  replace hmatched := hmatched.imp fun _ _ => hg.authorises
  by_cases helevated : g.operation = .openElevatedShell
  · obtain ⟨c, hc, hconsumed⟩ := hvalidated.challenge (hoperation ▸ helevated)
    have hcheld : heldBy s t = some c.row.id := by grind [heldBy, holds, Presented]
    refine ⟨c :: cs, List.nodup_cons.2 ⟨hfree t _ hcheld, hnodup⟩, ?_, by grind⟩
    rw [elevatedGrants, hgrants, List.filter_cons_of_pos (by simpa using helevated)]
    refine .cons (hg.authorises ?_) hmatched
    exact ⟨hc.issued, by rw [hc.admin, hadmin], by rw [hc.target, hdevice, hvalidated.target],
      ⟨session, hsession, by grind [Presented]⟩, hconsumed, hadmin ▸ hc.signed⟩
  · refine ⟨cs, hnodup, ?_, by grind⟩
    rw [elevatedGrants, hgrants, List.filter_cons_of_neg (by simpa using helevated)]
    exact hmatched

end

/-- What the check of a challenge has seen. -/
theorem checkElevationChallenge_ok {find : Nat → Option (ChallengeRow × Option Bytes)} {now : Int}
    (h : env.checkElevationChallenge actor request find now = .ok ()) :
    ∃ row key, request.challengeId.bind find = some (row, some key) ∧ row.adminId = actor ∧
      row.targetId = request.targetId ∧
      env.verify key row.payload request.challengeSignature = true := by
  grind [ElevationEnv.checkElevationChallenge]

/-- A request whose challenge passes the check presents an issued one. -/
theorem Tables.presented {now : Int} (h : Tables s) (hgenuine : Genuine env s request)
    (hcheck : env.checkElevationChallenge actor request s.findChallenge now = .ok ())
    (hreason : ∀ c ∈ s.issued, request.challengeId = some c.row.id → R c.reason request.reason) :
    ∃ c, Presented R s actor request c := by
  obtain ⟨row, key, hfind, hadmin, htarget, hverify⟩ := checkElevationChallenge_ok hcheck
  obtain ⟨challengeId, hid, hfind⟩ := Option.bind_eq_some_iff.1 hfind
  obtain ⟨found, hfound, heq⟩ := Option.map_eq_some_iff.1 hfind
  obtain ⟨rfl, hjoin⟩ := Prod.mk.inj heq
  have hfoundId : found.id = challengeId := by simpa using List.find?_some hfound
  obtain ⟨⟨c, hc, hrow⟩, -⟩ := h.rows found (List.mem_of_find?_eq_some hfound)
  have hkey : s.identities actor = some (some key) := by grind [Option.join_eq_some_iff]
  have hpayload : found.payload = c.row.payload := by rw [hrow]; rfl
  exact ⟨c, hc, by grind, by grind, by grind, by grind, key, hkey,
    hpayload ▸ hgenuine key _ hverify⟩

/-- The plan of a call is for its target, and an elevated plan has passed
the check of the challenge. -/
theorem elevated_of_validateShellOpen {typedJobs : Option Bool} {online : Bool}
    {challenge : Except String Unit} {sessionId : Nat}
    (hplan : validateShellOpen env.sha256Hex env.settings typedJobs online challenge
      request.toShellOpen sessionId = .ok plan) :
    plan.targetId = request.targetId ∧
      (plan.operation = .openElevatedShell ↔ plan.privilege = ascii "elevated") ∧
      (plan.privilege = ascii "elevated" → request.privilege = 2 ∧ challenge = .ok ()) := by
  obtain ⟨privilege, hname, rfl, hchallenge⟩ := plan_of_validateShellOpen hplan
  have hne : ascii "low" ≠ ascii "elevated" := by decide
  have hcases := shellPrivilegeName_cases hname
  grind [shellOpenPlan, shellPrivilegeName]

theorem Inv.step (h : Inv env R s) (hunforged : Unforged env s l) (hpresents : Presents R s l)
    (hstep : (elevationSystem env).step s l = some s') : Inv env R s' := by
  have hg := grows_of_step hstep
  have ht := h.tables.step hstep
  -- a call that ends holds nothing
  have hends : ∀ t, s'.calls = update s.calls t none → s'.grants = s.grants →
      Inv env R s' := fun t hcalls hgrants => h.move hg ht hcalls hgrants nofun nofun
  cases l <;> dsimp only [elevationSystem] at hstep
  case openShell t actor request =>
    split at hstep <;> cases hstep
    exact h.move hg ht rfl rfl (by rintro _ ⟨⟩; exact ⟨hunforged, trivial⟩) nofun
  case validate t typedJobs online now sessionId =>
    split at hstep
    · next actor request hcall =>
      split at hstep <;> cases hstep
      · exact hends t rfl rfl
      · next plan hplan =>
        obtain ⟨htarget, hoperation, hchallenge⟩ := elevated_of_validateShellOpen hplan
        obtain ⟨hgenuine, -⟩ := h.calls t _ hcall
        refine h.move hg ht rfl rfl ?_ (by intro id hid; split at hid <;> grind [holds])
        rintro _ ⟨⟩
        refine ⟨hgenuine, hg.reached ?_⟩
        split
        · next helevated =>
          obtain ⟨hprivilege, hcheck⟩ := hchallenge helevated
          exact ⟨htarget, hoperation.2 helevated,
            h.tables.presented hgenuine hcheck (hpresents _ hcall hprivilege)⟩
        · next helevated => exact ⟨htarget, fun heq => absurd (hoperation.1 heq) helevated⟩
    · cases hstep
  case consume t now =>
    split at hstep
    · next actor request plan hcall =>
      obtain ⟨hgenuine, htarget, helevated, c, hc⟩ := h.calls t _ hcall
      split at hstep
      · cases hstep
      · next challengeId hid =>
        split at hstep <;> cases hstep
        · next hrow =>
          obtain ⟨hfresh, c', hc', hid', hnow⟩ := h.tables.fresh hrow
          -- the challenge that the call presents is the one whose row is updated
          obtain rfl : c = c' := h.tables.eq_of_id hc.issued hc' (by grind [Presented])
          refine h.move hg ht rfl rfl ?_ (by grind [holds])
          rintro _ ⟨⟩
          exact ⟨hgenuine, htarget, fun _ => ⟨c, hg.presented hc, now, by grind, hnow⟩⟩
        · exact hends t rfl rfl
    · cases hstep
  case record t =>
    split at hstep
    · next actor request plan hcall =>
      obtain ⟨hgenuine, hvalidated⟩ := h.calls t _ hcall
      split at hstep <;> cases hstep
      · exact hends t rfl rfl
      · refine h.move hg ht rfl rfl ?_ (by grind [holds, heldBy])
        rintro _ ⟨⟩
        exact ⟨hgenuine, hg.validated hvalidated, _, List.mem_cons_self, rfl, rfl, rfl, rfl⟩
    · cases hstep
  case grant t grantId issueTime expiryTime =>
    split at hstep
    · next actor request plan hcall =>
      cases hstep
      exact h.grant hg ht hcall rfl rfl rfl rfl rfl rfl
    · cases hstep
  case fail t =>
    cases hstep
    exact hends t rfl rfl
  all_goals
    repeat' (split at hstep)
    all_goals cases hstep
    all_goals exact h.grow hg ht rfl rfl

theorem inv_start : Inv env R .start :=
  ⟨⟨⟨.nil, .nil⟩, .nil, List.nil_subset _, nofun⟩, nofun, nofun, [], .nil, .nil, nofun⟩

/-- The invariant of every run in which the reasons are in the relation. -/
theorem inv_of_reaches (h : (elevationSystem env).Reaches
    (fun s l => Unforged env s l ∧ Presents R s l) .start s) : Inv env R s :=
  h.invariant inv_start fun _ _ _ hinv hG hstep => hinv.step hG.1 hG.2 hstep

theorem Inv.singleUse_matched (h : Inv env R s) : SingleUse s ∧ Matched R s := by
  obtain ⟨cs, hnodup, hmatched, -⟩ := h.matched
  exact ⟨h.tables.singleUse, cs, hnodup, hmatched⟩

end Steps

/-! ### The elevated grants -/

/-- In every run without forged signatures, every elevated grant has a
challenge of its own: issued to the Admin for the target, unexpired and
not consumed before, and signed with the Admin's elevation key. If the
elevated calls moreover present challenges for the reason that they
state, then the sessions record the reasons of the challenges. -/
theorem elevated_grants_authorised (env : ElevationEnv) :
    (∀ s, (elevationSystem env).Reaches (Unforged env) .start s →
      SingleUse s ∧ Matched (fun _ _ => True) s) ∧
    (∀ s, (elevationSystem env).Reaches
      (fun s l => Unforged env s l ∧ Presents (fun issued stated => issued = stated) s l) .start s →
      SingleUse s ∧ Matched (fun issued recorded => issued = recorded) s) := by
  constructor
  · intro s hreach
    have hfree : (elevationSystem env).Reaches
        (fun s l => Unforged env s l ∧ Presents (fun _ _ => True) s l) .start s := by
      refine hreach.mono fun s l hunforged => ⟨hunforged, ?_⟩
      cases l with
      | validate => exact fun _ _ _ _ _ _ => trivial
      | _ => trivial
    exact (inv_of_reaches hfree).singleUse_matched
  · intro s hreach
    exact (inv_of_reaches hreach).singleUse_matched

/-- Hashes are the texts themselves, and a signature is the key with the
payload behind it. -/
def sampleEnv : ElevationEnv where
  settings := ⟨65536, 900⟩
  sha256 := id
  sha256Hex := id
  uuidBytes := fun id => List.replicate 16 (UInt8.ofNat id)
  uuidText := fun id => List.replicate 36 (UInt8.ofNat id)
  isSignature := fun signature => decide (64 ≤ signature.length)
  isKey := fun key => decide (key.length = 32)
  verify := fun key payload signature =>
    decide (key.length = 32) && decide (signature = key ++ payload)

def sampleKey : Bytes := List.replicate 32 7

def sampleNonce : Bytes := List.replicate 32 1

/-- What the key signs for a challenge with the reason `patch`. -/
def samplePayload : Bytes :=
  elevationDomain ++ sampleNonce ++
    (sampleEnv.uuidBytes 1 ++ utf8Bytes "open_shell" ++ utf8Bytes "patch")

def sampleOpen (reason : String) : ElevatedOpen where
  targetId := 1
  privilege := 2
  columns := 80
  rows := 24
  reason := reason
  accountUser := "ops"
  accountPassword := []
  saveCredentials := false
  challengeId := some 5
  challengeSignature := sampleKey ++ samplePayload

/-- A challenge for the reason `patch`, and an open with `reason`. -/
def sampleLabels (reason : String) : List ElevationLabel :=
  [.enroll 3 (some sampleKey), .beginElevation 3 ⟨1, "open_shell", "patch"⟩ true 0 5 sampleNonce,
    .sign sampleKey samplePayload, .openShell 0 3 (sampleOpen reason),
    .validate 0 (some true) true 1 8, .consume 0 2, .record 0, .grant 0 9 3 3]

/-- The guard `Unforged` of `sampleEnv`. -/
def unforgedSample (s : ElevationState) : ElevationLabel → Bool
  | .openShell _ _ request => decide
      ((request.challengeSignature.take 32, request.challengeSignature.drop 32) ∈ s.signatures)
  | _ => true

theorem unforged_of_unforgedSample {s : ElevationState} {l : ElevationLabel}
    (h : unforgedSample s l = true) : Unforged sampleEnv s l := by
  cases l with
  | openShell t actor request =>
    intro key payload hverify
    obtain ⟨hlength, hsignature⟩ := Bool.and_eq_true_iff.1 hverify
    replace hlength : key.length = 32 := of_decide_eq_true hlength
    replace hsignature : request.challengeSignature = key ++ payload := of_decide_eq_true hsignature
    have hmem := of_decide_eq_true h
    grind
  | _ => trivial

/-- The guard `Presents`, with equal reasons. -/
def presentsSample (s : ElevationState) : ElevationLabel → Bool
  | .validate t _ _ _ _ => (s.calls t).all fun call => s.issued.all fun c =>
      decide (call.request.challengeId = some c.row.id → c.reason = call.request.reason)
  | _ => true

theorem presents_of_presentsSample {s : ElevationState} {l : ElevationLabel}
    (h : presentsSample s l = true) : Presents (fun issued stated => issued = stated) s l := by
  cases l with
  | validate t typedJobs online now sessionId =>
    intro call hcall _ c hc hid
    have hall := (Option.all_eq_true ..).1 h call hcall
    exact of_decide_eq_true (List.all_eq_true.1 hall c hc) hid
  | _ => trivial

/-- An elevated shell for the reason of its challenge. -/
theorem elevated_grants_authorised_patch : ∃ s, (elevationSystem sampleEnv).Reaches
        (fun s l => Unforged sampleEnv s l ∧ Presents (fun issued stated => issued = stated) s l)
        .start s ∧
      (elevatedGrants s).length = 1 ∧ SingleUse s ∧
      Matched (fun issued recorded => issued = recorded) s := by
  have hrun : ((elevationSystem sampleEnv).run (fun s l => unforgedSample s l && presentsSample s l)
      .start (sampleLabels "patch")).any
        (fun s => decide ((elevatedGrants s).length = 1)) = true := by
    decide +kernel
  obtain ⟨s, hs, hlength⟩ := (Option.any_eq_true ..).1 hrun
  have hreach : (elevationSystem sampleEnv).Reaches
      (fun s l => Unforged sampleEnv s l ∧ Presents (fun issued stated => issued = stated) s l)
      .start s := by
    refine .of_run (fun _ _ _ hl => ?_) .refl hs
    obtain ⟨hunforged, hpresents⟩ := Bool.and_eq_true_iff.1 hl
    exact ⟨unforged_of_unforgedSample hunforged, presents_of_presentsSample hpresents⟩
  exact ⟨s, hreach, of_decide_eq_true hlength, (elevated_grants_authorised sampleEnv).2 s hreach⟩

/-- The challenge is for `patch`, and the session is recorded with
another reason. -/
theorem elevated_for_another_reason :
    ∃ s, (elevationSystem sampleEnv).Reaches (Unforged sampleEnv) .start s ∧
      ¬Matched (fun issued recorded => issued = recorded) s := by
  have hrun : ((elevationSystem sampleEnv).run unforgedSample .start
      (sampleLabels "shutdown")).any (fun s => decide (s.issued.map (·.reason) = ["patch"] ∧
        s.sessions.map (·.reason) = ["shutdown"] ∧ (elevatedGrants s).length = 1)) = true := by
    decide +kernel
  obtain ⟨s, hs, hdata⟩ := (Option.any_eq_true ..).1 hrun
  obtain ⟨hissued, hsessions, hlength⟩ := of_decide_eq_true hdata
  refine ⟨s, .of_run (fun _ _ _ hl => unforged_of_unforgedSample hl) .refl hs, ?_⟩
  rintro ⟨cs, -, hmatched⟩
  obtain ⟨g, hg⟩ := List.length_eq_one_iff.1 hlength
  rw [hg] at hmatched
  obtain ⟨c, _, hauthorises, -, -⟩ := List.forall₂_cons_right_iff.1 hmatched
  obtain ⟨session, hsession, -, -, -, hreason⟩ := hauthorises.reason
  have hc : c.reason ∈ s.issued.map (·.reason) := List.mem_map_of_mem hauthorises.issued
  have hr : session.reason ∈ s.sessions.map (·.reason) := List.mem_map_of_mem hsession
  rw [hissued, List.mem_singleton] at hc
  rw [hsessions, List.mem_singleton, ← hreason, hc] at hr
  exact absurd hr (by decide)

end Centrald.Proofs.Elevation
