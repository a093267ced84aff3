import Centrald.Client.BrokerSession
import Centrald.Durable.Issues
import Centrald.Proofs.Grant

/-!
# `Centrald.Proofs.BrokerSession`: what a session has checked

`admitted_of_startsShell` says what `serve_session` has checked when it
starts a shell: `Admitted` lists it. The other connections of the broker
may do anything in between, so the proof follows the program from one
operation to the next and looks only at the replies.
-/

set_option autoImplicit false

namespace Centrald.Proofs

open Durable Common Platform Client

variable {env : ShellEnv}

/-! ### What a session has checked -/

/-- The broker's device and key, which no connection changes. -/
structure OfDevice (s : SessionState env) : Prop where
  deviceId : s.verifier.deviceId = env.deviceId
  signingKey : s.verifier.signingKey = env.signingKey

/-- The replies that an operation can have. -/
def SessionCan (env : ShellEnv) (op : SessionOp) (r : SessionReply) : Prop :=
  ∃ s s' : SessionState env, OfDevice s ∧ op.Effect s s' r

abbrev SessionHistory := History SessionOp SessionReply

/-- What the first frame asks for: an open frame, and its parameters. -/
structure Presents (env : ShellEnv) (openBytes : Bytes) (frame : OpenFrame)
    (parametersJson : Bytes) (params : SessionParameters) : Prop where
  opens : (Json.parse openBytes).bind (SessionWireFrame.ofJson env.texts) = some (.open frame)
  parameters : env.sigs.decode frame.parametersBase64 = some parametersJson
  valid : sessionParameters parametersJson = .ok params

/-- A password goes with the signed parameters. -/
def MatchesSigned (env : ShellEnv) (params : SessionParameters) (password : Bytes) : Prop :=
  params.credentialsSha256 ≠ [] → env.sha256Hex password = params.credentialsSha256

/-- The system has accepted the password for the account, in this call. -/
def PasswordChecked (h : SessionHistory) (user password : Bytes) : Prop :=
  (SessionOp.validateAccount user password, .done) ∈ h

/-- The password of the frame, which the system has accepted for the named
account. -/
structure Accepted (env : ShellEnv) (params : SessionParameters) (frame : OpenFrame)
    (h : SessionHistory) (password : Bytes) : Prop where
  named : namedUser params frame.accountUser ≠ []
  decoded : decodePassword env frame.accountPasswordBase64 = .ok (some password)
  signed : MatchesSigned env params password
  checked : PasswordChecked h (namedUser params frame.accountUser) password
  valid : env.validateAccountCredentials (namedUser params frame.accountUser) password = .ok ()

/-- The checks that a session has passed when its shell is started with
`command`. -/
structure Admitted (env : ShellEnv) (frame : OpenFrame) (parametersJson : Bytes)
    (params : SessionParameters) (command : ShellCommand) (h : SessionHistory) : Prop where
  digest : env.sha256Hex parametersJson = frame.grant.grant.parametersSha256
  verified : ∃ now, Verifies env.texts env.sigs frame.grant env.signingKey env.deviceId now
  account : ∃ credentials, checkAccount env params frame.accountUser credentials = .ok () ∧
    ∀ password, credentials = some password → Accepted env params frame h password
  command : shellCommand env.os (sessionSpec params frame) = .ok command

/-- A shell is started only after these checks. -/
def OpensAdmitted (env : ShellEnv) (openBytes : Bytes) (h : SessionHistory) (op : SessionOp) :
    Prop :=
  ∀ command columns rows, op = .openPty command columns rows →
    ∃ frame parametersJson params, Presents env openBytes frame parametersJson params ∧
      Admitted env frame parametersJson params command h

section Replies

variable {s s' : SessionState env} {r : SessionReply}

/-- Grants are consumed, but the device and the key stay. -/
theorem verifyAndConsume_same {sigs : Signatures} (texts : Texts) (v : GrantVerifier sigs)
    (signed : SignedGrant) (now : Int) :
    (v.verifyAndConsume texts signed now).1.deviceId = v.deviceId ∧
      (v.verifyAndConsume texts signed now).1.signingKey = v.signingKey := by
  unfold GrantVerifier.verifyAndConsume
  split
  · exact ⟨rfl, rfl⟩
  · simp only
    split_ifs <;> exact ⟨rfl, rfl⟩

theorem OfDevice.effect {op : SessionOp} (hs : OfDevice s) (h : op.Effect s s' r) :
    OfDevice s' := by
  cases op with
  | verifyAndConsume grant now =>
    obtain ⟨rfl, -⟩ := h
    obtain ⟨hdevice, hkey⟩ := verifyAndConsume_same env.texts s.verifier grant now
    exact ⟨hdevice.trans hs.deviceId, hkey.trans hs.signingKey⟩
  | recordConsumedGrant grantId expiresAt =>
    obtain ⟨rfl, -⟩ | ⟨rfl, -⟩ := h <;> exact ⟨hs.deviceId, hs.signingKey⟩
  | reserve sessionId =>
    simp only [SessionOp.Effect] at h
    split_ifs at h <;> obtain ⟨rfl, -⟩ := h <;> exact ⟨hs.deviceId, hs.signingKey⟩
  | utcNow | grantWasConsumed | validateAccount | openPty | writeFrame | runSession =>
    obtain ⟨rfl, -⟩ := h
    exact hs
  | release sessionId =>
    obtain ⟨rfl, -⟩ := h
    exact ⟨hs.deviceId, hs.signingKey⟩

/-- A step of a session, with the steps of the others before it. -/
theorem sessionCan_of_effect (op : SessionOp) (s s' : SessionState env) (r : SessionReply)
    (hs : OfDevice s) (h : (sessionSem env).effect op s s' r) :
    SessionCan env op r ∧ OfDevice s' := by
  obtain ⟨t, ht, heffect⟩ := h
  have htdevice : OfDevice t := ⟨ht.deviceId.trans hs.deviceId, ht.signingKey.trans hs.signingKey⟩
  exact ⟨⟨t, s', htdevice, heffect⟩, htdevice.effect heffect⟩

/-- The verifier has accepted the grant. -/
theorem verifies_of_can {signed : SignedGrant} {now : Int}
    (h : SessionCan env (.verifyAndConsume signed now) r) (hr : ∀ e, r ≠ .failed e) :
    Verifies env.texts env.sigs signed env.signingKey env.deviceId now := by
  obtain ⟨s, s', hs, -, hreply⟩ := h
  rw [← verify_eq_ok_iff, ← hs.deviceId, ← hs.signingKey]
  unfold GrantVerifier.verifyAndConsume at hreply
  cases hverify : signed.verify env.texts env.sigs s.verifier.signingKey s.verifier.deviceId
    now with
  | ok _ => rfl
  | error e =>
    simp only [hverify] at hreply
    exact (hr _ hreply).elim

/-- The system has accepted the password. -/
theorem validates_of_can {user password : Bytes}
    (h : SessionCan env (.validateAccount user password) r) (hr : ∀ e, r ≠ .failed e) :
    r = .done ∧ env.validateAccountCredentials user password = .ok () := by
  obtain ⟨s, s', -, -, hreply⟩ := h
  cases hvalidate : env.validateAccountCredentials user password with
  | ok _ =>
    rw [hvalidate] at hreply
    exact ⟨hreply, rfl⟩
  | error e =>
    rw [hvalidate] at hreply
    exact (hr e hreply).elim

end Replies

/-! ### The program, operation by operation -/

section Program

variable {α β : Type} {R : SessionHistory → SessionOp → Prop} {h : SessionHistory}

section

variable {Q : Except String α → SessionHistory → Prop} {p : SessionM α}
  (hp : p.run.Issues (SessionCan env) R Q h)
include hp

/-- A part, and the rest if it succeeds. -/
theorem issues_bind {T : Except String β → SessionHistory → Prop} {f : α → SessionM β}
    (herr : ∀ e h', T (.error e) h')
    (hf : ∀ a h', Q (.ok a) h' → (f a).run.Issues (SessionCan env) R T h') :
    (p >>= f).run.Issues (SessionCan env) R T h := by
  rw [ExceptT.run_bind]
  refine hp.bind fun r h' hr => ?_
  cases r with
  | ok a => exact hf a h' hr
  | error e => exact herr e h'

/-- A part whose error is looked at. -/
theorem issues_result {f : Except String α → SessionM β}
    (hf : ∀ r h', Q r h' → (f r).run.Issues (SessionCan env) R (fun _ _ => True) h') :
    (SessionM.result p >>= f).run.Issues (SessionCan env) R (fun _ _ => True) h := by
  rw [ExceptT.run_bind]
  refine Prog.Issues.bind (Q := fun r h' => ∃ r', r = .ok r' ∧ Q r' h') ?_ ?_
  · exact hp.bind fun r h' hr => ⟨r, rfl, hr⟩
  · grind

end

section

variable {op : SessionOp} (hop : R h op)
include hop

theorem issues_act {Q : Except String Unit → SessionHistory → Prop}
    (hok : ∀ r, SessionCan env op r → (∀ e, r ≠ .failed e) → Q (.ok ()) (h ++ [(op, r)]))
    (hfail : ∀ e, Q (.error e) (h ++ [(op, .failed e)])) :
    (SessionM.act op).run.Issues (SessionCan env) R Q h := by
  refine ⟨hop, fun r hr => ?_⟩
  cases r with
  | failed e => exact hfail e
  | done => exact hok _ hr nofun
  | time now => exact hok _ hr nofun
  | flag b => exact hok _ hr nofun

/-- An operation after which nothing is known. -/
theorem issues_act_any : (SessionM.act op).run.Issues (SessionCan env) R (fun _ _ => True) h :=
  issues_act hop (fun _ _ _ => trivial) fun _ => trivial

theorem issues_ask : (SessionM.ask op).run.Issues (SessionCan env) R (fun _ _ => True) h :=
  ⟨hop, fun _ _ => trivial⟩

end

theorem issues_utcNow (hop : R h .utcNow) :
    SessionM.utcNow.run.Issues (SessionCan env) R (fun _ _ => True) h :=
  ⟨hop, fun _ _ => trivial⟩

end Program

section Parts

variable {openBytes parametersJson : Bytes} {frame : OpenFrame} {params : SessionParameters}
  {h : SessionHistory}

theorem issues_refuseSession (sessionId : Nat) (message : String) :
    (refuseSession sessionId message).run.Issues (SessionCan env) (OpensAdmitted env openBytes)
      (fun _ _ => True) h :=
  issues_bind (issues_act_any nofun) (fun _ _ => trivial) fun _ _ _ => issues_act_any nofun

/-- The password is returned only when it was checked. -/
theorem issues_resolveCredentials :
    (resolveCredentials env params frame).run.Issues (SessionCan env) (OpensAdmitted env openBytes)
      (fun r h' => ∀ password, r = .ok (some password) → Accepted env params frame h' password)
      h := by
  unfold resolveCredentials
  split_ifs with hsave hnamed
  · exact nofun
  · exact nofun
  · split
    · exact nofun
    · exact nofun
    · rename_i password hdecoded
      split_ifs with hdigest
      · exact nofun
      · -- the digest matches, and then the system is asked
        have hmatches : MatchesSigned env params password := by
          intro hsome
          grind
        refine issues_bind (issues_act (Q := fun r h' => r = .ok () →
          PasswordChecked h' (namedUser params frame.accountUser) password ∧
          env.validateAccountCredentials (namedUser params frame.accountUser) password = .ok ())
          nofun ?_ nofun) nofun ?_
        · intro r hcan hr _
          obtain ⟨rfl, hvalid⟩ := validates_of_can hcan hr
          exact ⟨List.mem_append_right _ (List.mem_singleton_self _), hvalid⟩
        · intro _ h' hr password' heq
          obtain rfl := Option.some.inj (Except.ok.inj heq)
          obtain ⟨hchecked, hvalid⟩ := hr rfl
          exact ⟨hnamed, hdecoded, hmatches, hchecked, hvalid⟩

section

variable (hpresents : Presents env openBytes frame parametersJson params)
include hpresents

theorem issues_runShell {command : ShellCommand}
    (hadmitted : Admitted env frame parametersJson params command h) :
    (runShell frame params command).run.Issues (SessionCan env) (OpensAdmitted env openBytes)
      (fun _ _ => True) h := by
  unfold runShell
  refine issues_result (Q := fun _ _ => True) (issues_act_any ?_) fun opened h1 _ => ?_
  · intro command' columns rows heq
    grind
  cases opened with
  | error e => exact issues_refuseSession _ _
  | ok done =>
    refine issues_result (Q := fun _ _ => True) (issues_act_any nofun) fun written h2 _ => ?_
    cases written with
    | error e =>
      exact issues_bind (issues_act_any nofun) (fun _ _ => trivial) fun _ _ _ => trivial
    | ok done =>
      refine issues_result (Q := fun _ _ => True) (issues_act_any nofun) fun result h3 _ => ?_
      refine issues_bind (issues_act_any nofun) (fun _ _ => trivial) fun _ _ _ => ?_
      cases result <;> exact trivial

/-- Behind a consumed grant every shell that is started was admitted. -/
theorem issues_startSession
    (hdigest : env.sha256Hex parametersJson = frame.grant.grant.parametersSha256)
    (hverified : ∃ now, Verifies env.texts env.sigs frame.grant env.signingKey env.deviceId now) :
    (startSession env frame params).run.Issues (SessionCan env) (OpensAdmitted env openBytes)
      (fun _ _ => True) h := by
  unfold startSession
  refine issues_bind (issues_act_any nofun) (fun _ _ => trivial) fun _ h1 _ => ?_
  refine issues_result issues_resolveCredentials fun r h2 hr => ?_
  cases r with
  | error e => exact issues_refuseSession _ _
  | ok credentials =>
    simp only
    split
    · exact issues_refuseSession _ _
    · rename_i hcheck
      split
      · exact issues_refuseSession _ _
      · rename_i command hcommand
        refine issues_runShell hpresents ⟨hdigest, hverified, ⟨credentials, hcheck, ?_⟩, hcommand⟩
        grind

end

/-- A grant is consumed only with the right digest and a signature that
verifies. -/
theorem issues_consumeGrant : (consumeGrant env frame parametersJson).run.Issues (SessionCan env)
      (OpensAdmitted env openBytes) (fun r _ => r = .ok () →
        env.sha256Hex parametersJson = frame.grant.grant.parametersSha256 ∧
        ∃ now, Verifies env.texts env.sigs frame.grant env.signingKey env.deviceId now) h := by
  unfold consumeGrant
  simp only
  split_ifs with hdigest
  · exact nofun
  · refine issues_bind (issues_utcNow nofun) nofun fun _ _ _ => ?_
    refine issues_bind (issues_ask nofun) nofun fun consumed _ _ => ?_
    split_ifs
    · exact nofun
    · refine issues_bind (issues_utcNow nofun) nofun fun now _ _ => ?_
      refine issues_bind (issues_act (Q := fun r _ => r = .ok () →
        Verifies env.texts env.sigs frame.grant env.signingKey env.deviceId now) nofun ?_ nofun)
        nofun fun _ _ hverified => ?_
      · intro r hcan hr _
        exact verifies_of_can hcan hr
      · exact (issues_act_any nofun).imp fun _ _ _ _ =>
          ⟨not_not.1 hdigest, now, hverified rfl⟩

/-- Whatever the other connections do, a shell is started only after the
checks. -/
theorem issues_serveSession :
    (serveSession env openBytes).run.Issues (SessionCan env) (OpensAdmitted env openBytes)
      (fun _ _ => True) h := by
  unfold serveSession
  split_ifs
  · exact trivial
  · split
    · exact trivial
    · rename_i frame hframe
      split
      · exact trivial
      · rename_i parametersJson hparameters
        split
        · exact trivial
        · rename_i params hparams
          refine issues_bind issues_consumeGrant (fun _ _ => trivial) fun _ _ hconsumed => ?_
          obtain ⟨hdigest, hverified⟩ := hconsumed rfl
          exact issues_startSession ⟨hframe, hparameters, hparams⟩ hdigest hverified
    · exact trivial

end Parts

/-- A call of `serve_session` with this first frame starts a shell with
`command`, after the operations in `before`. -/
def StartsShell (env : ShellEnv) (openBytes : Bytes) (before : SessionHistory)
    (command : ShellCommand) : Prop :=
  isSessionOpen openBytes = true ∧ ∃ s out columns rows after, OfDevice s ∧
    Exec (sessionSem env).traced (serveSession env openBytes).run (s, []) out ∧
    out.state.2 = before ++ (.openPty command columns rows, .done) :: after

/-- The frame and the parameters are those of the bytes. -/
theorem Presents.unique {openBytes json json' : Bytes} {frame frame' : OpenFrame}
    {params params' : SessionParameters} (h : Presents env openBytes frame json params)
    (h' : Presents env openBytes frame' json' params') :
    frame' = frame ∧ json' = json ∧ params' = params := by
  have hframe := h'.opens.symm.trans h.opens
  cases hframe
  have hjson := h'.parameters.symm.trans h.parameters
  cases hjson
  have hparams := h'.valid.symm.trans h.valid
  grind

/-- A shell that was started has passed the checks. -/
theorem admitted_of_startsShell {openBytes json : Bytes} {frame : OpenFrame}
    {params : SessionParameters} {before : SessionHistory} {command : ShellCommand}
    (hpresents : Presents env openBytes frame json params)
    (hstarts : StartsShell env openBytes before command) :
    Admitted env frame json params command before := by
  obtain ⟨-, s, out, columns, rows, after, hs, hexec, hsplit⟩ := hstarts
  have hissued := issues_serveSession.of_exec sessionCan_of_effect hs hexec hsplit (Nat.zero_le _)
  obtain ⟨frame', json', params', hpresents', hadmitted⟩ := hissued.1 command columns rows rfl
  obtain ⟨rfl, rfl, rfl⟩ := hpresents.unique hpresents'
  exact hadmitted

end Centrald.Proofs
