import Centrald.Durable.Fallible
import Centrald.Server.Pki

/-!
# `Centrald.Proofs.ServerRenewal`: when the server starts

A start renews the TLS leaf when 30 days or fewer remain, and fails if
it cannot. `server_starts_iff` says when it can: there is no retirement
journal, and the server issuer and the root are valid for more than 32
days. That is the minimum of 31 days for a leaf and the day by which a
leaf ends before its parents. So the start fails while all certificates
are valid, if the leaf is due and one of the two does not hold.

`pending_rotation_blocks_server` shows how the journal ends a server.
A rotation is made and the server is not restarted for two months. Then
the leaf is due again, the check stops the server, and every later start
fails, since only a server that has started removes the journal. No
rotation is possible either.
-/

set_option autoImplicit false

namespace Centrald.Proofs

open Durable Server Common

/-! ### Lifetimes -/

theorem second_lt_day : second < day := by decide

theorem day_pos : 0 < day := by decide

/-- A stored time is less than a second early. -/
theorem lt_certificateTime (t : Int) : t - second < certificateTime t := by
  have hlt : t % second < second := Int.emod_lt_of_pos t (by decide)
  rw [certificateTime]
  omega

/-- A server leaf can be issued while both parents last 32 days. -/
theorem issueServerIdentity_eq (now issuer root : Int) : issueServerIdentity now issuer root =
      if now + 32 * day < min issuer root then
        .ok (certificateTime (min (now + 90 * day) (min issuer root - day)))
      else .error (.insufficientSigningValidity "server TLS certificate"
        (min issuer root - day)) := by
  have hday := day_pos
  have hlimit : min issuer root - 1 * day = min issuer root - day := by omega
  simp only [issueServerIdentity, boundedNotAfter, List.foldl_cons, List.foldl_nil,
    serverValidityDays, signingChainSafetyMarginDays, minimumLeafValidityDays, hlimit]
  by_cases hlong : now + 32 * day < min issuer root
  · rw [if_pos hlong, if_neg (by omega)]
    rfl
  · rw [if_neg hlong, if_pos (by omega)]
    rfl

theorem rejectExpired_ok_iff {now : Int} {certificates : List (String × Int)} :
    rejectExpired now certificates = .ok () ↔ ∀ entry ∈ certificates, now < entry.2 := by
  induction certificates with
  | nil => simp [rejectExpired]
  | cons entry rest ih =>
    rw [rejectExpired, List.forall_mem_cons, ← ih]
    grind

/-- Certificates that are valid at a time were valid before. -/
theorem checkPkiExpiry_mono {files : PkiFiles} {now later : Int} (hle : now ≤ later)
    (h : checkPkiExpiry files later = .ok ()) : checkPkiExpiry files now = .ok () := by
  rw [checkPkiExpiry, rejectExpired_ok_iff] at h ⊢
  grind

/-! ### Renewal -/

/-- The server has its leaf for more than 30 days, or can make a new
one: no rotation is pending, and the server issuer and the root last for
more than 32 days. -/
def CanRenew (s : ServerPki) (pause : Nat) : Prop :=
  s.clock + 30 * day < s.files.leaf ∨
    (s.retirement = false ∧ s.clock + pause + 32 * day < min s.files.serverIssuer s.files.root)

/-- What a check of the leaf returns. -/
theorem renew_cases (s : ServerPki) (pause : Nat) : (CanRenew s pause ∧
      (renewServerIdentityIfNeeded s.files s.retirement s.clock (s.clock + pause) = .ok none ∨
        ∃ leaf, renewServerIdentityIfNeeded s.files s.retirement s.clock (s.clock + pause) =
          .ok (some { s.files with leaf := leaf }) ∧ s.clock + pause + 30 * day < leaf)) ∨
    (¬ CanRenew s pause ∧
      ∃ e, renewServerIdentityIfNeeded s.files s.retirement s.clock (s.clock + pause) =
        .error e) := by
  rw [CanRenew, renewServerIdentityIfNeeded, serverRenewBeforeDays]
  by_cases hlong : s.clock + 30 * day < s.files.leaf
  · grind
  rw [if_neg hlong, rotateServerIdentityAndSave, issueServerIdentity_eq]
  cases s.retirement with
  | true => exact .inr ⟨by simp [hlong], _, rfl⟩
  | false =>
    by_cases hparents : s.clock + pause + 32 * day < min s.files.serverIssuer s.files.root
    · rw [if_pos hparents]
      refine .inl ⟨.inr ⟨rfl, hparents⟩, .inr ⟨_, rfl, ?_⟩⟩
      -- the day between 30 and 31 is more than the second that is cut off
      have hcut := lt_certificateTime (min (s.clock + pause + 90 * day)
        (min s.files.serverIssuer s.files.root - day))
      have hsecond := second_lt_day
      have hday := day_pos
      omega
    · rw [if_neg hparents]
      exact .inr ⟨by simp [hlong, hparents], _, rfl⟩

section Start

variable {s : ServerPki} {pause : Nat}

theorem start_of_valid (hvalid : checkPkiExpiry s.files (s.clock + pause) = .ok ()) :
    s.start pause =
      (renewServerIdentityIfNeeded s.files s.retirement s.clock (s.clock + pause)).bind fun
        | none => .ok s.listen
        | some files => do
          checkPkiExpiry files (s.clock + pause)
          return ({ s with clock := s.clock + pause }.rotated files).listen := by
  rw [ServerPki.start, checkPkiExpiry_mono (by omega) hvalid]
  rfl

/-- A server with a leaf that is not due starts. -/
theorem start_of_leaf (hvalid : checkPkiExpiry s.files s.clock = .ok ())
    (hleaf : s.clock + 30 * day < s.files.leaf) : s.start 0 = .ok s.listen := by
  rw [ServerPki.start, hvalid, renewServerIdentityIfNeeded, serverRenewBeforeDays, if_pos hleaf]
  rfl

/-- Whether a server starts, and whether the check leaves it alone. A
check that renews the leaf ends the process, and it then starts with the
new leaf. -/
theorem server_starts_iff (s : ServerPki) (pause : Nat)
    (hvalid : checkPkiExpiry s.files (s.clock + pause) = .ok ()) :
    ((∃ s', s.start pause = .ok s' ∧ s'.running = true) ↔ CanRenew s pause) ∧
    ((∃ s', s.check pause = .ok s') ↔ CanRenew s pause) ∧
    (∀ s', s.check pause = .ok s' → s' = s ∨ ∃ s'', s'.start 0 = .ok s'' ∧ s''.running = true) := by
  rw [start_of_valid hvalid, ServerPki.check]
  rcases renew_cases s pause with ⟨hcan, hnone | ⟨leaf, hsome, hleaf⟩⟩ | ⟨hcannot, e, herror⟩
  · -- the leaf is kept
    rw [hnone]
    refine ⟨⟨fun _ => hcan, fun _ => ⟨s.listen, rfl, rfl⟩⟩, ⟨fun _ => hcan, fun _ => ⟨s, rfl⟩⟩, ?_⟩
    intro s' hs'
    exact .inl (Except.ok.inj hs').symm
  · -- the leaf is renewed
    have hvalid' : checkPkiExpiry { s.files with leaf := leaf } (s.clock + pause) = .ok () := hvalid
    rw [hsome]
    refine ⟨⟨fun _ => hcan, fun _ => ?_⟩, ⟨fun _ => hcan, fun _ => ⟨_, rfl⟩⟩, ?_⟩
    · refine ⟨({ s with clock := s.clock + pause }.rotated { s.files with leaf := leaf }).listen,
        ?_, rfl⟩
      show (checkPkiExpiry { s.files with leaf := leaf } (s.clock + pause) >>= _) = _
      rw [hvalid']
      rfl
    · intro s' hs'
      obtain rfl := Except.ok.inj hs'
      exact .inr ⟨_, start_of_leaf hvalid' hleaf, rfl⟩
  · rw [herror]
    refine ⟨⟨?_, fun hcan => absurd hcan hcannot⟩, ⟨?_, fun hcan => absurd hcan hcannot⟩, ?_⟩
    · rintro ⟨s', hs', -⟩
      cases hs'
    · rintro ⟨s', hs'⟩
      cases hs'
    · intro s' hs'
      cases hs'

end Start

/-- The first certificates of a server that is set up at the time 0. -/
def samplePki : PkiFiles where
  root := 5475 * day
  serverIssuer := 1095 * day
  clientIssuer := 1095 * day
  adminIssuer := 1095 * day
  leaf := 90 * day

theorem replaceRoot_zero : replaceRoot 0 = .ok samplePki := by decide +kernel

/-- After 70 days the leaf is due, and the start renews it. -/
theorem server_starts_iff_due :
    ∃ s, serverPki.Reaches (fun _ _ => True) (.installed samplePki 0) s ∧
      s.files.leaf ≤ s.clock + 30 * day ∧
      ∃ s', s.start 0 = .ok s' ∧ s'.running = true := by
  have hrun : serverPki.run (fun _ _ => true) (.installed samplePki 0)
      [.start 0, .stop, .tick (70 * day).toNat] =
        some { ServerPki.installed samplePki 0 with clock := 70 * day } := by decide +kernel
  refine ⟨_, Machine.reaches_of_run hrun, by decide +kernel, ?_⟩
  have hcan : CanRenew { ServerPki.installed samplePki 0 with clock := 70 * day } 0 :=
    .inr ⟨rfl, by decide +kernel⟩
  exact (server_starts_iff _ 0 (by decide +kernel)).1.2 hcan

/-! ### The trap -/

/-- The server is stopped and its leaf is due, with a rotation pending. -/
structure Blocked (s : ServerPki) : Prop where
  stopped : s.running = false
  quiet : s.probing = false
  pending : s.retirement = true
  due : s.files.leaf ≤ s.clock + 30 * day

/-- A rotation that fails leaves the server as it is. -/
theorem getD_of_error {x : Except PkiFailure ServerPki} {s : ServerPki} (h : ∀ s', x ≠ .ok s') :
    x.toOption.getD s = s := by
  cases x with
  | error e => rfl
  | ok s' => exact absurd rfl (h s')

theorem Blocked.start_fails {s : ServerPki} (h : Blocked s) (pause : Nat) (s' : ServerPki) :
    s.start pause ≠ .ok s' := by
  intro hs'
  rw [ServerPki.start, bind_eq_ok] at hs'
  obtain ⟨-, -, hs'⟩ := hs'
  rw [renewServerIdentityIfNeeded, serverRenewBeforeDays, if_neg (by have := h.due; omega),
    rotateServerIdentityAndSave, h.pending] at hs'
  cases hs'

/-- No rotation is made while another one is pending. -/
theorem rotate_fails_of_pending {s : ServerPki} (h : s.retirement = true) (s' : ServerPki) :
    (rotateServerIdentityAndSave s.files s.retirement s.clock).map s.rotated ≠ .ok s' ∧
      s.rotateIssuers ≠ .ok s' ∧ s.replaceRoot ≠ .ok s' := by
  refine ⟨fun hs' => ?_, fun hs' => ?_, fun hs' => ?_⟩
  · rw [rotateServerIdentityAndSave, h] at hs'
    cases hs'
  · rw [ServerPki.rotateIssuers, bind_eq_ok] at hs'
    obtain ⟨files, -, hs'⟩ := hs'
    rw [h] at hs'
    cases hs'
  · rw [ServerPki.replaceRoot, bind_eq_ok] at hs'
    obtain ⟨files, -, hs'⟩ := hs'
    rw [h] at hs'
    cases hs'

/-- A stopped server with a due leaf and a pending rotation stays as it
is. -/
theorem Blocked.step {s s' : ServerPki} (h : Blocked s) {label : ServerPkiLabel}
    (hstep : serverPki.step s label = some s') : Blocked s' := by
  have hrotations := rotate_fails_of_pending h.pending
  cases label with
  | tick elapsed =>
    obtain rfl := Option.some.inj hstep
    refine ⟨h.stopped, h.quiet, h.pending, ?_⟩
    have hdue := h.due
    grind
  | start pause =>
    simp only [serverPki, h.stopped, Bool.false_eq_true, if_false,
      getD_of_error (h.start_fails pause)] at hstep
    grind
  | stop =>
    obtain rfl := Option.some.inj hstep
    exact ⟨rfl, rfl, h.pending, h.due⟩
  | check pause =>
    simp only [serverPki, h.stopped, Bool.false_eq_true, if_false] at hstep
    cases hstep
  | rotateTls =>
    simp only [serverPki, getD_of_error fun s' => (hrotations s').1] at hstep
    grind
  | rotateIssuers =>
    simp only [serverPki, getD_of_error fun s' => (hrotations s').2.1] at hstep
    grind
  | replaceRoot =>
    simp only [serverPki, getD_of_error fun s' => (hrotations s').2.2] at hstep
    grind
  | retire =>
    simp only [serverPki, h.quiet, Bool.false_eq_true, false_and, if_false] at hstep
    cases hstep
  | giveUp =>
    obtain rfl := Option.some.inj hstep
    exact ⟨h.stopped, rfl, h.pending, h.due⟩

/-- A blocked server never runs again. -/
theorem blocked_forever {s s' : ServerPki} (h : Blocked s)
    (hs' : serverPki.Reaches (fun _ _ => True) s s') : Blocked s' :=
  hs'.invariant h fun _ _ _ hblocked _ => hblocked.step

/-- Two servers with valid certificates that do not start. The TLS name
of the first one was changed while it ran, 61 days before the check that
stops it; no step brings it back. The issuers of the second one last for
31 days. -/
theorem pending_rotation_blocks_server : replaceRoot 0 = .ok samplePki ∧
    (∃ s, serverPki.Reaches (fun _ _ => True) (.installed samplePki 0) s ∧
      checkPkiExpiry s.files s.clock = .ok () ∧ s.clock < s.files.leaf ∧
      (∃ message, s.start 0 = .error (.bail message)) ∧
      ∀ s', serverPki.Reaches (fun _ _ => True) s s' → s'.running = false) ∧
    ∃ s, serverPki.Reaches (fun _ _ => True) (.installed samplePki 0) s ∧
      s.retirement = false ∧ checkPkiExpiry s.files s.clock = .ok () ∧
      s.clock < s.files.leaf ∧
      ∃ kind until', s.start 0 = .error (.insufficientSigningValidity kind until') := by
  refine ⟨replaceRoot_zero, ?_, ?_⟩
  · have hrun : serverPki.run (fun _ _ => true) (.installed samplePki 0)
        [.start 0, .rotateTls, .tick (61 * day).toNat, .check 0] =
          some { ServerPki.installed samplePki 0 with
            retirement := true, clock := 61 * day } := by decide +kernel
    refine ⟨_, Machine.reaches_of_run hrun, by decide +kernel,
      by decide +kernel, ⟨_, rfl⟩, fun s' hs' => ?_⟩
    exact (blocked_forever ⟨rfl, rfl, rfl, by decide +kernel⟩ hs').stopped
  · -- the start at 1060 days renews the leaf, which ends a day before the issuer
    have hrun : serverPki.run (fun _ _ => true) (.installed samplePki 0)
        [.tick (1060 * day).toNat, .start 0, .retire, .tick (4 * day).toNat, .stop] =
          some { ServerPki.installed { samplePki with leaf := 1094 * day } 0 with
            clock := 1064 * day } := by decide +kernel
    exact ⟨_, Machine.reaches_of_run hrun, rfl, by decide +kernel, by decide +kernel, _, _, rfl⟩

end Centrald.Proofs
