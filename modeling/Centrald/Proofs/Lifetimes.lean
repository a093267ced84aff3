import Centrald.Client.Daemon
import Centrald.Proofs.ServerRenewal

/-!
# `Centrald.Proofs.Lifetimes`: certificates end before their parents

`certificates_nested` is about the whole life of a server, from its first
root through any renewals, rotations and replacements. Every certificate
ends a day before those above it, and no leaf is due for renewal when it
is issued: it lasts for 31 days, less the second that is cut off, and its
holder renews it 30 days before its end.

A running server signs with the issuers it has read at its start. So an
identity may be issued below issuers that were rotated since.
-/

set_option autoImplicit false

namespace Centrald.Proofs

open Durable Server Common

theorem certificateTime_le (t : Int) : certificateTime t ≤ t := by
  have hnonneg : 0 ≤ t % second := Int.emod_nonneg t (by decide)
  rw [certificateTime]
  omega

/-- Every certificate of a server ends a day before those above it. -/
structure Nested (files : PkiFiles) : Prop where
  serverIssuer : files.serverIssuer + day ≤ files.root
  clientIssuer : files.clientIssuer + day ≤ files.root
  adminIssuer : files.adminIssuer + day ≤ files.root
  leaf : files.leaf + day ≤ files.serverIssuer

/-! ### One certificate -/

section Issue

variable {now issuer root : Int}

theorem boundedNotAfter_ends {days minimum : Int} {kind : String} {parents : List Int} :
    Ends (fun _ => True) (fun t => now + minimum * day < t ∧ t + day ≤ parents.foldl min issuer)
      (boundedNotAfter now days kind issuer parents minimum) := by
  refine .ite (fun _ => trivial) fun hlong => ?_
  rw [signingChainSafetyMarginDays] at hlong ⊢
  exact ⟨by omega, by omega⟩

theorem signedCa_ends : Ends (fun _ => True) (fun t => t + day ≤ root) (signedCa now root) := by
  refine boundedNotAfter_ends.bind fun t ⟨_, ht⟩ => .pure ?_
  have hle := certificateTime_le t
  rw [List.foldl_nil] at ht
  omega

/-- A leaf lasts for more than 30 days, and ends before its parents. -/
theorem leaf_ends {days : Int} {kind : String} :
    Ends (fun _ => True) (fun t => now + 30 * day < certificateTime t ∧ now + 30 * day < t ∧
        certificateTime t + day ≤ issuer ∧ certificateTime t + day ≤ root)
      (boundedNotAfter now days kind issuer [root] minimumLeafValidityDays) := by
  refine boundedNotAfter_ends.imp fun t ⟨hlong, ht⟩ => ?_
  rw [minimumLeafValidityDays] at hlong
  rw [List.foldl_cons, List.foldl_nil] at ht
  have hle := certificateTime_le t
  have hcut := lt_certificateTime t
  have hsecond := second_lt_day
  exact ⟨by omega, by omega, by omega, by omega⟩

theorem issueServerIdentity_ends :
    Ends (fun _ => True) (fun t => now + 30 * day < t ∧ t + day ≤ issuer)
      (issueServerIdentity now issuer root) :=
  leaf_ends.bind fun _ ⟨hlong, _, hissuer, _⟩ => .pure ⟨hlong, hissuer⟩

theorem issueIdentityCsr_ends : Ends (fun _ => True)
    (fun t => now + 30 * day < t.1 ∧ now + 30 * day < t.2 ∧ t.1 + day ≤ issuer ∧ t.1 + day ≤ root)
      (Pki.issueIdentityCsr now issuer root) :=
  leaf_ends.bind fun _ h => .pure h

end Issue

/-! ### The files of a server -/

/-- The new files are nested, and their leaf is not due. -/
def Issued (now : Int) (files : PkiFiles) : Prop :=
  Nested files ∧ now + 30 * day < files.leaf

theorem issuePki_ends {now root : Int} :
    Ends (fun _ => True) (Issued now) (issuePki now root) := by
  refine signedCa_ends.bind fun serverIssuer hserver => ?_
  refine signedCa_ends.bind fun clientIssuer hclient => ?_
  refine signedCa_ends.bind fun adminIssuer hadmin => ?_
  refine issueServerIdentity_ends.bind fun leaf hleaf => ?_
  exact .pure ⟨⟨hserver, hclient, hadmin, hleaf.2⟩, hleaf.1⟩

section Step

variable {s : ServerPki} (h : Nested s.files)
include h

theorem rotateServerIdentity_ends {now : Int} : Ends (fun _ => True) (Issued now)
    (rotateServerIdentityAndSave s.files s.retirement now) := by
  rw [rotateServerIdentityAndSave]
  cases s.retirement with
  | true => trivial
  | false =>
    refine issueServerIdentity_ends.bind fun leaf hleaf => .pure ⟨?_, hleaf.1⟩
    exact ⟨h.serverIssuer, h.clientIssuer, h.adminIssuer, hleaf.2⟩

theorem renew_ends {pause : Nat} :
    Ends (fun _ => True) (fun files => ∀ f ∈ files, Issued (s.clock + pause) f)
      (renewServerIdentityIfNeeded s.files s.retirement s.clock (s.clock + pause)) := by
  refine .ite (fun _ => nofun) fun _ => .map ?_
  refine (rotateServerIdentity_ends h).imp fun files hissued f hf => ?_
  grind

/-- A step keeps the files, or issues new ones at the time it ends. -/
theorem step_issued {s' : ServerPki} {label : ServerPkiLabel}
    (hstep : serverPki.step s label = some s') : s'.files = s.files ∨ Issued s'.clock s'.files := by
  -- an operation that fails leaves the files as they were
  have hgetD : ∀ {x : Except PkiFailure ServerPki} {s0 : ServerPki}, s0.files = s.files →
      Ends (fun _ => True) (fun s' => s'.files = s.files ∨ Issued s'.clock s'.files) x →
      (x.toOption.getD s0).files = s.files ∨
        Issued (x.toOption.getD s0).clock (x.toOption.getD s0).files := by
    intro x s0 hs0 hx
    cases x with
    | error e => exact .inl hs0
    | ok s' => exact hx
  cases label with
  | tick _ | stop | giveUp => exact .inl (congrArg ServerPki.files (Option.some.inj hstep)).symm
  | retire =>
    simp only [serverPki, Option.ite_none_right_eq_some, Option.some.injEq] at hstep
    exact .inl (congrArg ServerPki.files hstep.2).symm
  | start pause =>
    simp only [serverPki, Option.ite_none_left_eq_some, Option.some.injEq] at hstep
    obtain ⟨-, rfl⟩ := hstep
    refine hgetD rfl (Ends.any.bind fun _ _ => (renew_ends h).bind fun files hfiles => ?_)
    cases files with
    | none => exact .pure (.inl rfl)
    | some files => exact Ends.any.bind fun _ _ => .pure (.inr (hfiles files rfl))
  | check pause =>
    simp only [serverPki, Option.ite_none_right_eq_some, Option.some.injEq] at hstep
    obtain ⟨-, rfl⟩ := hstep
    refine hgetD rfl ((renew_ends h).bind fun files hfiles => ?_)
    cases files with
    | none => exact .pure (.inl rfl)
    | some files => exact .pure (.inr (hfiles files rfl))
  | rotateTls =>
    obtain rfl := Option.some.inj hstep
    exact hgetD rfl (.map ((rotateServerIdentity_ends h).imp fun _ hissued => .inr hissued))
  | rotateIssuers | replaceRoot =>
    obtain rfl := Option.some.inj hstep
    refine hgetD rfl (issuePki_ends.bind fun files hissued => ?_)
    cases s.retirement with
    | true => trivial
    | false => exact .inr hissued

end Step

/-- The files of a server that was set up at any time are nested. -/
theorem nested_of_reaches {files : PkiFiles} {now : Int} {s : ServerPki}
    (hissued : Issued now files)
    (hs : serverPki.Reaches (fun _ _ => True) (.installed files now) s) : Nested s.files := by
  refine hs.invariant (I := fun s => Nested s.files) hissued.1 fun t l t' ht _ hstep => ?_
  rcases step_issued ht hstep with hsame | hnew
  · exact hsame ▸ ht
  · exact hnew.1

/-- The certificates of a server that was set up at any time. The issuers
that sign an identity were read in `s`, and `t` is any time: `s` may be
long past, with its issuers rotated since. An identity ends a day before
its issuer, and so two days before the root. -/
theorem certificates_nested {files : PkiFiles} {now : Int} {s : ServerPki}
    (hfiles : replaceRoot now = .ok files)
    (hs : serverPki.Reaches (fun _ _ => True) (.installed files now) s) :
    renewServerIdentityIfNeeded files false now now = .ok none ∧ Nested s.files ∧
      (∀ label s'', serverPki.step s label = some s'' → s''.files = s.files ∨
        renewServerIdentityIfNeeded s''.files s''.retirement s''.clock s''.clock = .ok none) ∧
      ∀ t, ∀ issuer ∈ [s.files.clientIssuer, s.files.adminIssuer],
        (∀ stored reported,
          Pki.issueIdentityCsr t issuer s.files.root = .ok (stored, reported) →
          stored + day ≤ issuer ∧ stored + 2 * day ≤ s.files.root ∧
          t + Client.certificateRenewalWindow < stored ∧
          t + Client.certificateRenewalWindow < reported) ∧
        ∀ stored, issueEphemeralIdentity t issuer s.files.root = .ok stored →
          stored + day ≤ issuer ∧ stored + 2 * day ≤ s.files.root := by
  have hissued : Issued now files := Ends.of_ok issuePki_ends hfiles
  have hnested := nested_of_reaches hissued hs
  have hnotDue : ∀ {files : PkiFiles} {retirement : Bool} {now : Int}, Issued now files →
      renewServerIdentityIfNeeded files retirement now now = .ok none := fun h => if_pos h.2
  refine ⟨hnotDue hissued, hnested, fun label s'' hstep => ?_, fun t issuer hissuer => ?_⟩
  · exact (step_issued hnested hstep).imp_right hnotDue
  -- both issuers of identities end a day before the root
  have hroot : issuer + day ≤ s.files.root := by
    rcases List.mem_cons.1 hissuer with rfl | hissuer
    · exact hnested.clientIssuer
    · rw [List.mem_singleton.1 hissuer]
      exact hnested.adminIssuer
  constructor
  · intro stored reported h
    obtain ⟨hstored, hreported, hbelow, -⟩ := issueIdentityCsr_ends.of_ok h
    exact ⟨hbelow, by omega, hstored, hreported⟩
  · intro stored h
    have hends : Ends (fun _ => True) (fun end' => end' + day ≤ issuer)
        (issueEphemeralIdentity t issuer s.files.root) := leaf_ends.bind fun _ ht => .pure ht.2.2.1
    have hbelow := hends.of_ok h
    exact ⟨hbelow, by omega⟩

/-- The issuers of a server are rotated after 400 days, and 70 days later
its leaf is renewed. After ten more days it issues an identity. -/
theorem certificates_nested_sample :
    ∃ s, serverPki.run (fun _ _ => true) (.installed samplePki 0)
        [.start 0, .tick (400 * day).toNat, .rotateIssuers, .stop, .start 0, .retire,
          .tick (70 * day).toNat, .check 0] = some s ∧
      s.files = ⟨5475 * day, 1495 * day, 1495 * day, 1495 * day, 560 * day⟩ ∧ Nested s.files ∧
      Pki.issueIdentityCsr (480 * day) s.files.clientIssuer s.files.root =
        .ok (570 * day, 570 * day) ∧
      570 * day + day ≤ s.files.clientIssuer ∧ 570 * day + 2 * day ≤ s.files.root := by
  have hrun : serverPki.run (fun _ _ => true) (.installed samplePki 0)
      [.start 0, .tick (400 * day).toNat, .rotateIssuers, .stop, .start 0, .retire,
        .tick (70 * day).toNat, .check 0] =
      some { ServerPki.installed
        ⟨5475 * day, 1495 * day, 1495 * day, 1495 * day, 560 * day⟩ (470 * day) with
          retirement := true } := by decide +kernel
  refine ⟨_, hrun, rfl, ?_⟩
  obtain ⟨-, hnested, -, hidentity⟩ :=
    certificates_nested replaceRoot_zero (Machine.reaches_of_run hrun)
  have hissued : Pki.issueIdentityCsr (480 * day) (1495 * day) (5475 * day) =
      .ok (570 * day, 570 * day) := by decide +kernel
  obtain ⟨hbelow, hroot, -, -⟩ := (hidentity _ _ List.mem_cons_self).1 _ _ hissued
  exact ⟨hnested, hissued, hbelow, hroot⟩

end Centrald.Proofs
