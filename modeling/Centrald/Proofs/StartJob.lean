import Centrald.Proofs.JobLog
import Centrald.Server.StartJob

/-!
# `Centrald.Proofs.StartJob`: a request starts one job

`start_job_idempotent` is about every interleaving of calls of
`start_job`. There is at most one job for an actor and a request. An
answered call has that job, or was refused because the job is another
one. The parameters of an update-client request are the approved ones
here: the server replaces what the request asks for, and refuses the
request when the release is no longer the verified one.

A call that inserts its row compares the parameters it sent with those
that come back from the column. They are the same for every value whose
numbers survive that (`JsonNumber.Survives`). A float that is printed
with an exponent and is an integer of 64 bits comes back as an integer.
`start_job_refusals` shows what the call answers then, although nobody
has used its request before. It also shows an update-client request that
is refused when it is repeated.

The invariant is about the call that has a key. If it has inserted its
row, then no job has that key or that identifier until it commits. If it
has found a job, then this job stays, with changes of its state at most.
-/

set_option autoImplicit false

namespace Centrald.Proofs

open Durable Server Function

variable {env : StartEnv}

/-! ### What other transactions leave of a job -/

section Same

variable {π : Type}

theorem hasKey_of_same {old new : JobRecord π} (h : SameJob old.row new.row)
    (actor requestId : Nat) : new.hasKey actor requestId = old.hasKey actor requestId := by
  rw [JobRecord.hasKey, h]
  rfl

theorem sameJob_of_same [DecidableEq π] {old new : JobRow π} (h : SameJob old new)
    (request : StartJobRequest π) : request.sameJob new = request.sameJob old := by
  rw [StartJobRequest.sameJob, h]
  rfl

theorem hasKey_iff {record : JobRecord π} {actor requestId : Nat} :
    record.hasKey actor requestId = true ↔
      record.row.actorId = actor ∧ record.row.requestId = requestId :=
  decide_eq_true_iff

/-- Each old job is among the new ones, perhaps in another state. -/
def KeepsStarts (old new : JobsDb π) : Prop :=
  ∀ record ∈ old, ∃ later ∈ new, SameJob record.row later.row

theorem KeepsStarts.of_longer {old new : JobsDb π} (h : old <+: new) : KeepsStarts old new :=
  fun record hrecord => ⟨record, h.subset hrecord, rfl⟩

end Same

/-! ### The invariant -/

/-- The job of a key, with what is known about its row. -/
def JobOf (db : JobsDb env.Value) (actor requestId : Nat) (P : JobRow env.Value → Prop) : Prop :=
  ∃ record ∈ db, record.hasKey actor requestId = true ∧ P record.row

theorem JobOf.mono {old new : JobsDb env.Value} {actor requestId : Nat}
    {P : JobRow env.Value → Prop} (h : JobOf old actor requestId P) (hkeeps : KeepsStarts old new)
    (hP : ∀ a b, SameJob a b → P a → P b) : JobOf new actor requestId P := by
  obtain ⟨record, hrecord, hkey, hrow⟩ := h
  obtain ⟨later, hlater, hsame⟩ := hkeeps record hrecord
  refine ⟨later, hlater, ?_, hP _ _ hsame hrow⟩
  rw [hasKey_of_same hsame]
  exact hkey

/-- What an answer says about the jobs. -/
structure AnswerInv (db : JobsDb env.Value) (actor : Nat) (request : StartJobRequest env.Value)
    (answer : Except JobError (JobRow env.Value)) : Prop where
  ok : ∀ row, answer = .ok row → JobOf db actor request.requestId fun job =>
    job.id = row.id ∧ request.sameJob job = true
  used : answer = .error requestIdUsed →
    (∀ n ∈ request.parameters.numbers, n.Survives env.codec) →
      JobOf db actor request.requestId fun job => request.sameJob job = false

/-- A row that its call has inserted and not committed. -/
structure PendingInv (db : JobsDb env.Value) (drawn : List Nat) (actor : Nat)
    (request : StartJobRequest env.Value) (row : JobRow env.Value) : Prop where
  inserted : ∃ now expiresAt,
    row = request.row (JsonValue.stored env.codec) row.id actor now expiresAt
  drawn : row.id ∈ drawn
  newId : ∀ record ∈ db, record.row.id ≠ row.id
  newKey : ∀ record ∈ db, record.hasKey actor request.requestId = false

/-- The invariant of the call `t`. -/
def StartPcInv (db : JobsDb env.Value) (keys : Nat × Nat → Option Nat) (drawn : List Nat)
    (t : Nat) : StartPc env → Prop
  | .idle => True
  | .ready _ _ => True
  | .upserted actor request row fresh =>
    keys (actor, request.requestId) = some t ∧
      if fresh then PendingInv db drawn actor request row
      else JobOf db actor request.requestId fun job => SameJob row job
  | .answered actor request answer => AnswerInv db actor request answer

/-- The jobs are sound and one for each request of an actor. Between its
two statements a call holds the key of its request, and the row that it
inserted is nobody else's. -/
structure StartInv (s : StartSystem env) : Prop where
  jobs : JobsInv s.db
  drawn : ∀ record ∈ s.db, record.row.id ∈ s.drawn
  unique : ∀ a ∈ s.db, ∀ b ∈ s.db, a.row.actorId = b.row.actorId →
    a.row.requestId = b.row.requestId → a = b
  keys : ∀ key t, s.keys key = some t → ∃ request row fresh,
    s.calls t = .upserted key.1 request row fresh ∧ request.requestId = key.2
  calls : ∀ t, StartPcInv s.db s.keys s.drawn t (s.calls t)
  distinct : ∀ t u actor actor' request request' row row',
    s.calls t = .upserted actor request row true →
    s.calls u = .upserted actor' request' row' true → row.id = row'.id → t = u

theorem startInv_fresh (updates : UpdateSection) : StartInv (StartSystem.fresh env updates) where
  jobs := jobsInv_nil
  drawn record hrecord := absurd hrecord List.not_mem_nil
  unique a ha := absurd ha List.not_mem_nil
  keys _ _ hkey := by cases hkey
  calls _ := trivial
  distinct _ _ _ _ _ _ _ _ ht := by cases ht

variable {request : StartJobRequest env.Value}

theorem AnswerInv.mono {old new : JobsDb env.Value} {actor : Nat}
    {answer : Except JobError (JobRow env.Value)} (h : AnswerInv old actor request answer)
    (hkeeps : KeepsStarts old new) :
    AnswerInv new actor request answer := by
  constructor
  · intro row hrow
    refine (h.ok row hrow).mono hkeeps fun a b hsame ha => ?_
    rw [sameJob_of_same hsame, hsame]
    exact ha
  · intro hused hsurvives
    refine (h.used hused hsurvives).mono hkeeps fun a b hsame ha => ?_
    rw [sameJob_of_same hsame]
    exact ha

/-- An error that does not speak of the key says nothing. -/
theorem answerInv_error {db : JobsDb env.Value} {actor : Nat} {e : JobError}
    (h : e ≠ requestIdUsed) :
    AnswerInv db actor request (.error e) where
  ok _ hrow := by cases hrow
  used hused := absurd (Except.error.inj hused) h

variable {pc : StartPc env}

/-- A step of another call. -/
theorem StartPcInv.mono {db db' : JobsDb env.Value} {keys keys' : Nat × Nat → Option Nat}
    {drawn drawn' : List Nat} {t : Nat} (h : StartPcInv db keys drawn t pc)
    (hkeeps : KeepsStarts db db') (hkeys : ∀ key, keys key = some t → keys' key = some t)
    (hdrawn : ∀ id ∈ drawn, id ∈ drawn')
    (hpending : ∀ actor request row, pc = .upserted actor request row true →
      PendingInv db drawn actor request row →
      ∀ record ∈ db', record.row.id ≠ row.id ∧ record.hasKey actor request.requestId = false) :
    StartPcInv db' keys' drawn' t pc := by
  cases pc with
  | idle => exact trivial
  | ready actor request => exact trivial
  | upserted actor request row fresh =>
    obtain ⟨hkey, hrow⟩ := h
    refine ⟨hkeys _ hkey, ?_⟩
    cases fresh with
    | true =>
      have hpending' := hpending actor request row rfl hrow
      exact ⟨hrow.inserted, hdrawn _ hrow.drawn, fun record hrecord => (hpending' record hrecord).1,
        fun record hrecord => (hpending' record hrecord).2⟩
    | false => exact hrow.mono hkeeps fun a b hsame ha => ha.trans hsame
  | answered actor request answer => exact AnswerInv.mono h hkeeps

/-! ### A step of one call -/

section Step

variable {s s' : StartSystem env} {t : Nat}

variable {db : JobsDb env.Value} {drawn : List Nat}

/-- The call `t` goes on, and the tables change with it. -/
theorem StartInv.step_call (h : StartInv s)
    {keys : Nat × Nat → Option Nat} (hjobs : JobsInv db)
    (hids : ∀ record ∈ db, record.row.id ∈ drawn)
    (hunique : ∀ a ∈ db, ∀ b ∈ db, a.row.actorId = b.row.actorId →
      a.row.requestId = b.row.requestId → a = b)
    (hkeeps : KeepsStarts s.db db) (hdrawn : ∀ id ∈ s.drawn, id ∈ drawn)
    (hkeys : ∀ key u, u ≠ t → (keys key = some u ↔ s.keys key = some u))
    (hown : ∀ key, keys key = some t → ∃ request row fresh,
      pc = .upserted key.1 request row fresh ∧ request.requestId = key.2)
    (hpc : StartPcInv db keys drawn t pc)
    (hpending : ∀ u, u ≠ t → ∀ actor request row, s.calls u = .upserted actor request row true →
      PendingInv s.db s.drawn actor request row →
      ∀ record ∈ db, record.row.id ≠ row.id ∧ record.hasKey actor request.requestId = false)
    (hdistinct : ∀ u, u ≠ t → ∀ actor actor' request request' row row',
      pc = .upserted actor request row true → s.calls u = .upserted actor' request' row' true →
      row.id ≠ row'.id) :
    StartInv { s with
      db := db, keys := keys, drawn := drawn, calls := update s.calls t pc } where
  jobs := hjobs
  drawn := hids
  unique := hunique
  keys key u hkey := by
    by_cases hu : u = t
    · grind
    · simpa only [update_of_ne hu] using h.keys key u ((hkeys key u hu).1 hkey)
  calls := by
    refine (Function.forall_update_iff s.calls _).2 ⟨hpc, fun u hu => ?_⟩
    exact (h.calls u).mono hkeeps (fun key => (hkeys key u hu).2) hdrawn (hpending u hu)
  distinct u v actor actor' request request' row row' hrow hrow' hid := by
    -- only the call `t` may have a new row
    dsimp only at hrow hrow'
    by_cases hu : u = t
    · by_cases hv : v = t
      · rw [hu, hv]
      · rw [hu, update_self] at hrow
        rw [update_of_ne hv] at hrow'
        exact absurd hid (hdistinct v hv _ _ _ _ _ _ hrow hrow')
    · rw [update_of_ne hu] at hrow
      by_cases hv : v = t
      · grind
      · rw [update_of_ne hv] at hrow'
        exact h.distinct u v _ _ _ _ _ _ hrow hrow' hid

variable {request : StartJobRequest env.Value} {row : JobRow env.Value} {actor : Nat}

/-- A pending row stays pending while the jobs are the same. -/
theorem PendingInv.same (h : PendingInv db drawn actor request row) :
    ∀ record ∈ db, record.row.id ≠ row.id ∧ record.hasKey actor request.requestId = false :=
  fun record hrecord => ⟨h.newId record hrecord, h.newKey record hrecord⟩

variable {fresh : Bool}

/-- The key of a call that has a row is its own. -/
theorem StartInv.key_eq (h : StartInv s) (ht : s.calls t = .upserted actor request row fresh) :
    s.keys (actor, request.requestId) = some t := by
  have hpc := h.calls t
  rw [ht] at hpc
  exact hpc.1

/-- A call without a row has no key. -/
def StartPc.hasRow : StartPc env → Bool
  | .upserted _ _ _ _ => true
  | .idle | .ready _ _ | .answered _ _ _ => false

section

variable (h : StartInv s) (ht : StartPc.hasRow (s.calls t) = false)
include h ht

theorem StartInv.no_key (key : Nat × Nat) : s.keys key ≠ some t := by
  intro hkey
  obtain ⟨request, row, fresh, hcall, -⟩ := h.keys key t hkey
  rw [hcall] at ht
  cases ht

/-- A call without a row goes on without one. -/
theorem StartInv.setCall (hrow : StartPc.hasRow pc = false)
    (hpc : StartPcInv s.db s.keys s.drawn t pc) : StartInv (s.setCall t pc) := by
  refine h.step_call h.jobs h.drawn h.unique (.of_longer List.prefix_rfl) (fun _ => id)
    (fun _ _ _ => Iff.rfl) (fun key hkey => absurd hkey (h.no_key ht key)) hpc
    (fun _ _ _ _ _ _ hpending => hpending.same) ?_
  intro u _ actor actor' request request' row row' hpc' _
  rw [hpc'] at hrow
  cases hrow

/-- A call that has no row gets one, and the key. -/
theorem StartInv.lockKey (hfree : s.keys (actor, request.requestId) = none)
    (hdrawn : ∀ id ∈ s.drawn, id ∈ drawn)
    (hrow : if fresh then PendingInv s.db drawn actor request row else
      JobOf s.db actor request.requestId fun job => SameJob row job)
    (hnew : fresh = true → row.id ∉ s.drawn) :
    StartInv { s.lockKey t actor request row fresh with drawn := drawn } := by
  refine h.step_call h.jobs (fun record hrecord => hdrawn _ (h.drawn record hrecord)) h.unique
    (.of_longer List.prefix_rfl) hdrawn ?_ ?_ ⟨update_self _ _ _, hrow⟩
    (fun _ _ _ _ _ _ hpending => hpending.same) ?_
  · intro key u hu
    show update s.keys (actor, request.requestId) (some t) key = some u ↔ _
    by_cases hkey : key = (actor, request.requestId)
    · grind
    · rw [update_of_ne hkey]
  · intro key hkey
    change update s.keys (actor, request.requestId) (some t) key = some t at hkey
    by_cases hkey' : key = (actor, request.requestId)
    · rw [hkey']
      exact ⟨request, row, fresh, rfl, rfl⟩
    · rw [update_of_ne hkey'] at hkey
      exact absurd hkey (h.no_key ht key)
  · intro u hu actor1 actor2 request1 request2 row1 row2 hpc hcall hid
    cases hpc
    -- the identifier of another pending row was drawn before
    have hpending := h.calls u
    rw [hcall] at hpending
    exact hnew rfl (hid ▸ hpending.2.drawn)

end

section

variable (h : StartInv s) (ht : s.calls t = .upserted actor request row fresh)
include h ht

/-- The end of a transaction gives the key back. -/
theorem StartInv.answer_keys (key : Nat × Nat) (u : Nat) :
    update s.keys (actor, request.requestId) none key = some u ↔ u ≠ t ∧ s.keys key = some u := by
  have hkey := h.key_eq ht
  by_cases hsame : key = (actor, request.requestId)
  · grind
  · rw [update_of_ne hsame]
    refine ⟨fun hu => ⟨?_, hu⟩, fun hu => hu.2⟩
    rintro rfl
    obtain ⟨request', row', fresh', hcall, hid⟩ := h.keys key u hu
    grind

/-- The call is answered; a committed row is added to the jobs. -/
theorem StartInv.answer {result : Except JobError (JobRow env.Value)}
    (hdb : db = s.db ∨ fresh = true ∧ db = s.db ++ [⟨row, []⟩])
    (hanswer : AnswerInv db actor request result) :
    StartInv { s.answer t actor request result with db := db } := by
  have hpc := h.calls t
  rw [ht] at hpc
  obtain ⟨hkey, hrow⟩ := hpc
  have hown : ∀ key, update s.keys (actor, request.requestId) none key = some t →
      ∃ request' row fresh, StartPc.answered actor request result =
        .upserted key.1 request' row fresh ∧ request'.requestId = key.2 :=
    fun key hheld => absurd rfl ((h.answer_keys ht key t).1 hheld).1
  have hkeys : ∀ key u, u ≠ t → (update s.keys (actor, request.requestId) none key = some u ↔
        s.keys key = some u) := fun key u hu => by
    grind
  rcases hdb with rfl | ⟨rfl, rfl⟩
  · refine h.step_call h.jobs h.drawn h.unique (.of_longer List.prefix_rfl) (fun _ => id) hkeys
      hown hanswer (fun _ _ _ _ _ _ hpending => hpending.same) ?_
    intro u _ _ _ _ _ _ _ hpc
    cases hpc
  · have hpending : PendingInv s.db s.drawn actor request row := hrow
    obtain ⟨now, expiresAt, hinserted⟩ := hpending.inserted
    have hactor : row.actorId = actor := by rw [hinserted]; rfl
    have hrequest : row.requestId = request.requestId := by rw [hinserted]; rfl
    have hother : ∀ record ∈ s.db, record.row.actorId = actor →
        record.row.requestId ≠ request.requestId := by
      intro record hrecord hactor' hrequest'
      have hnone := hpending.newKey record hrecord
      rw [hasKey_iff.2 ⟨hactor', hrequest'⟩] at hnone
      cases hnone
    refine h.step_call ?_ ?_ ?_ (.of_longer (List.prefix_append _ _)) (fun _ => id) hkeys hown
      hanswer ?_ ?_
    · have hqueued : row.state = .queued := by rw [hinserted]; rfl
      have hcolumns : ColumnsInv row := by rw [hinserted]; exact columnsInv_row _ _ _ _ _ _
      exact h.jobs.concat hcolumns hqueued hpending.newId
    · exact List.forall_mem_append.2 ⟨h.drawn, List.forall_mem_singleton.2 hpending.drawn⟩
    · refine List.forall_mem_append.2 ⟨fun a ha => ?_, List.forall_mem_singleton.2 ?_⟩
      · refine List.forall_mem_append.2 ⟨h.unique a ha, List.forall_mem_singleton.2 ?_⟩
        intro hactors hrequests
        exact absurd (hrequests.trans hrequest) (hother a ha (hactors.trans hactor))
      · refine List.forall_mem_append.2 ⟨fun b hb hactors hrequests => ?_, by simp⟩
        exact absurd (hrequests.symm.trans hrequest) (hother b hb (hactors.symm.trans hactor))
    · -- another pending row has another identifier and another key
      intro u hu actor' request' row' hcall hpending'
      refine List.forall_mem_append.2 ⟨hpending'.same, List.forall_mem_singleton.2 ?_⟩
      refine ⟨fun hid => hu (h.distinct u t _ _ _ _ _ _ hcall ht hid.symm), ?_⟩
      by_contra hkey'
      rw [Bool.not_eq_false, hasKey_iff] at hkey'
      have hheld := h.key_eq hcall
      rw [← hkey'.1, ← hkey'.2] at hheld
      change s.keys (row.actorId, row.requestId) = some u at hheld
      rw [hactor, hrequest, hkey] at hheld
      exact hu (Option.some.inj hheld).symm
    · intro u _ _ _ _ _ _ _ hpc
      cases hpc

end

/-! ### The labels -/

/-- The approval never speaks of the key. -/
theorem ends_approvedRequest (updates : UpdateSection) (verified : Option (String × Int))
    (request : StartJobRequest env.Value) :
    Ends (fun e => e ≠ requestIdUsed) (fun approved => approved.requestId = request.requestId)
      (approvedRequest env updates verified request) := by
  rw [approvedRequest]
  refine Ends.ite (fun _ => ?_) fun _ => Ends.pure rfl
  have happrove : Ends (fun e => e ≠ requestIdUsed) (fun _ => True)
      (approveClientUpdateParameters env updates verified request.parameters) := by
    rw [approveClientUpdateParameters]
    refine Ends.bind (ends_require (by simp [requestIdUsed])) fun _ _ => ?_
    dsimp only
    split
    · simp [Ends, requestIdUsed]
    · split
      · simp [Ends, requestIdUsed]
      · split
        · simp [Ends, requestIdUsed]
        · split
          · simp [Ends, requestIdUsed]
          · exact Ends.bind (ends_require (by simp [requestIdUsed])) fun _ _ => Ends.pure trivial
  exact Ends.bind happrove fun parameters _ => Ends.pure rfl

/-- The row that a call inserts fits its request exactly when the
parameters survive the column. -/
theorem sameJob_row_iff (request : StartJobRequest env.Value) (id actor : Nat)
    (now expiresAt : Int) :
    request.sameJob (request.row (JsonValue.stored env.codec) id actor now expiresAt) = true ↔
      ∀ n ∈ request.parameters.numbers, n.Survives env.codec := by
  rw [← JsonValue.stored_eq_iff env.codec]
  simp [StartJobRequest.sameJob, StartJobRequest.row]

theorem internalError_ne_used : internalError ≠ requestIdUsed := by
  simp [internalError, requestIdUsed]

/-- What a step of a call can do. -/
inductive StartMove (s : StartSystem env) : StartSystem env → Prop
  | policy (updates : UpdateSection) (verified : Option (String × Int)) :
    StartMove s { s with updates := updates, verified := verified }
  | setCall {t : Nat} {pc : StartPc env} (ht : StartPc.hasRow (s.calls t) = false)
    (hrow : StartPc.hasRow pc = false) (hpc : StartPcInv s.db s.keys s.drawn t pc) :
    StartMove s (s.setCall t pc)
  | upsert {t actor : Nat} {request : StartJobRequest env.Value}
    (ht : s.calls t = .ready actor request) (hfree : s.keys (actor, request.requestId) = none)
    (id : Nat) (now expiresAt : Int) : StartMove s (s.upsert t actor request id now expiresAt)
  | finish {t actor : Nat} {request : StartJobRequest env.Value} {row : JobRow env.Value}
    {fresh : Bool} (ht : s.calls t = .upserted actor request row fresh) :
    StartMove s (s.finish t actor request row fresh)
  | fail {t actor : Nat} {request : StartJobRequest env.Value} {row : JobRow env.Value}
    {fresh : Bool} (ht : s.calls t = .upserted actor request row fresh) :
    StartMove s (s.answer t actor request (.error internalError))

variable {label : StartLabel env}

/-- Each step of a call is one of the cases of `StartMove`. -/
theorem move_of_step (hlabel : ∀ other, label ≠ .other other)
    (hstep : (startSystem env).step s label = some s') : StartMove s s' := by
  cases label with
  | policy updates verified =>
    obtain rfl := Option.some.inj hstep
    exact .policy updates verified
  | receive t actor request =>
    simp only [startSystem] at hstep
    split at hstep
    case h_2 => cases hstep
    case h_1 hidle =>
      have happroved := ends_approvedRequest s.updates s.verified request
      split at hstep
      case h_1 approved _ =>
        obtain rfl := Option.some.inj hstep
        exact .setCall (by rw [hidle]; rfl) rfl trivial
      case h_2 e he =>
        obtain rfl := Option.some.inj hstep
        exact .setCall (by rw [hidle]; rfl) rfl (answerInv_error (happroved.of_error he))
  | upsert t id now expiresAt =>
    simp only [startSystem] at hstep
    split at hstep
    case h_1 actor request hready =>
      split_ifs at hstep with hfree
      obtain rfl := Option.some.inj hstep
      exact .upsert hready hfree id now expiresAt
    case h_2 => cases hstep
  | finish t =>
    simp only [startSystem] at hstep
    split at hstep
    case h_1 actor request row fresh hcall =>
      obtain rfl := Option.some.inj hstep
      exact .finish hcall
    case h_2 => cases hstep
  | fail t =>
    simp only [startSystem] at hstep
    split at hstep
    case h_1 actor request hready =>
      obtain rfl := Option.some.inj hstep
      exact .setCall (by rw [hready]; rfl) rfl (answerInv_error internalError_ne_used)
    case h_2 actor request row fresh hcall =>
      obtain rfl := Option.some.inj hstep
      exact .fail hcall
    case h_3 => cases hstep
  | other label => exact absurd rfl (hlabel label)

section

variable (h : StartInv s)
include h

theorem StartInv.upsert (ht : s.calls t = .ready actor request)
    (hfree : s.keys (actor, request.requestId) = none) (id : Nat) (now expiresAt : Int) :
    StartInv (s.upsert t actor request id now expiresAt) := by
  have hrow : StartPc.hasRow (s.calls t) = false := by
    rw [ht]
    rfl
  have hfailed : StartInv (s.setCall t (.answered actor request (.error internalError))) :=
    h.setCall hrow rfl (answerInv_error internalError_ne_used)
  rw [StartSystem.upsert]
  by_cases hstorable : isStorable env request.parameters = true
  · rw [if_pos hstorable]
    split
    · rename_i record hfound
      have hmem := List.mem_of_find?_eq_some hfound
      have hkey := List.find?_some hfound
      have hjob : JobOf s.db actor request.requestId fun job => SameJob record.row job :=
        ⟨record, hmem, hkey, rfl⟩
      exact h.lockKey hrow hfree (fun _ hid => hid) hjob nofun
    · rename_i hnone
      split_ifs with hdrawn
      · exact hfailed
      · rw [List.contains_iff_mem] at hdrawn
        refine h.lockKey hrow hfree (fun _ => List.mem_cons_of_mem _) ?_ fun _ => hdrawn
        refine ⟨⟨now, expiresAt, rfl⟩, List.mem_cons_self, ?_, ?_⟩
        · intro record hrecord hid
          have hold := h.drawn record hrecord
          rw [hid] at hold
          exact hdrawn hold
        · grind
  · rw [if_neg hstorable]
    exact hfailed

theorem StartInv.finish (ht : s.calls t = .upserted actor request row fresh) :
    StartInv (s.finish t actor request row fresh) := by
  have hpc := h.calls t
  rw [ht] at hpc
  obtain ⟨-, hrow⟩ := hpc
  rw [StartSystem.finish]
  by_cases hsame : request.sameJob row = true
  · rw [if_pos hsame]
    cases fresh with
    | true =>
      -- the row that the call has inserted is committed
      refine h.answer ht (.inr ⟨rfl, rfl⟩) ⟨fun row' hrow' => ?_, fun hused => by cases hused⟩
      cases hrow'
      obtain ⟨now, expiresAt, hinserted⟩ := PendingInv.inserted hrow
      refine ⟨⟨row, []⟩, List.mem_append_right _ (List.mem_singleton_self _), ?_, rfl, hsame⟩
      rw [hasKey_iff]
      show row.actorId = actor ∧ row.requestId = request.requestId
      rw [hinserted]
      exact ⟨rfl, rfl⟩
    | false =>
      refine h.answer ht (.inl rfl) ⟨fun row' hrow' => ?_, fun hused => by cases hused⟩
      cases hrow'
      obtain ⟨record, hrecord, hkey, hjob⟩ := hrow
      refine ⟨record, hrecord, hkey, ?_, ?_⟩
      · rw [hjob]
      · rw [sameJob_of_same hjob]
        exact hsame
  · rw [if_neg hsame]
    refine h.answer ht (.inl rfl) ⟨(fun row' hrow' => by cases hrow'), fun _ hsurvives => ?_⟩
    cases fresh with
    | true =>
      -- parameters that survive the column are those of the row
      obtain ⟨now, expiresAt, hinserted⟩ := PendingInv.inserted hrow
      rw [hinserted] at hsame
      exact absurd ((sameJob_row_iff request _ actor now expiresAt).2 hsurvives) hsame
    | false =>
      obtain ⟨record, hrecord, hkey, hjob⟩ := hrow
      refine ⟨record, hrecord, hkey, ?_⟩
      show request.sameJob record.row = false
      rw [sameJob_of_same hjob]
      exact Bool.eq_false_iff.2 hsame

/-- The other transactions leave the keys and the identifiers alone. -/
theorem StartInv.evolve (hdb : Evolves s.db db) : StartInv { s with db := db } := by
  have hjobs := (jobsInv_of_forall₂ h.jobs hdb).1
  have hback : ∀ later ∈ db, ∃ record ∈ s.db, SameJob record.row later.row := by
    intro later hlater
    obtain ⟨record, hrecord, -, hextends⟩ := exists_left_of_forall₂ hdb hlater
    exact ⟨record, hrecord, hextends.same⟩
  have hkeeps : KeepsStarts s.db db := by
    intro record hrecord
    obtain ⟨later, hlater, -, hextends⟩ := exists_right_of_forall₂ hdb hrecord
    exact ⟨later, hlater, hextends.same⟩
  refine ⟨hjobs, ?_, ?_, h.keys, ?_, h.distinct⟩
  · intro later hlater
    obtain ⟨record, hrecord, hsame⟩ := hback later hlater
    rw [hsame]
    exact h.drawn record hrecord
  · intro a ha b hb hactor hrequest
    obtain ⟨a0, ha0, hsame⟩ := hback a ha
    obtain ⟨b0, hb0, hsame'⟩ := hback b hb
    refine hjobs.eq_of_id ha hb ?_
    rw [hsame, hsame'] at hactor hrequest ⊢
    rw [h.unique a0 ha0 b0 hb0 hactor hrequest]
  · intro u
    refine (h.calls u).mono hkeeps (fun _ => id) (fun _ => id) ?_
    intro actor request row _ hpending later hlater
    obtain ⟨record, hrecord, hsame⟩ := hback later hlater
    rw [hasKey_of_same hsame, hsame]
    exact hpending.same record hrecord

theorem StartInv.step (hstep : (startSystem env).step s label = some s') :
    StartInv s' := by
  by_cases hlabel : ∃ other, label = .other other
  · obtain ⟨other, rfl⟩ := hlabel
    simp only [startSystem] at hstep
    split_ifs at hstep with hstart
    obtain ⟨db, hdb, rfl⟩ := Option.map_eq_some_iff.1 hstep
    have hevolves := performJob_evolves id h.jobs (Bool.eq_false_iff.2 hstart)
    exact h.evolve (hevolves.of_ok (eq_ok_of_toOption hdb))
  · cases move_of_step (not_exists.1 hlabel) hstep with
    | policy => exact ⟨h.jobs, h.drawn, h.unique, h.keys, h.calls, h.distinct⟩
    | setCall ht hrow hpc => exact h.setCall ht hrow hpc
    | upsert ht hfree => exact h.upsert ht hfree _ _ _
    | finish ht => exact h.finish ht
    | fail ht => exact h.answer ht (.inl rfl) (answerInv_error internalError_ne_used)

end

/-! ### What a call answers -/

/-- What a call that need not wait does: it has the job of its key if
that fits, and is refused if not; without such a job it starts one. -/
structure CallSpec (s s' : StartSystem env) (t actor : Nat) (request : StartJobRequest env.Value)
    (id : Nat) (now expiresAt : Int) : Prop where
  known : ∀ record ∈ s.db, record.hasKey actor request.requestId = true →
    s'.db = s.db ∧ s'.calls t = .answered actor request
      (if request.sameJob record.row then .ok record.row else .error requestIdUsed)
  new : (∀ record ∈ s.db, record.hasKey actor request.requestId = false) →
    (∀ n ∈ request.parameters.numbers, n.Survives env.codec) →
      s'.db = s.db ++ [⟨request.row (JsonValue.stored env.codec) id actor now expiresAt, []⟩] ∧
      s'.calls t = .answered actor request
        (.ok (request.row (JsonValue.stored env.codec) id actor now expiresAt))

theorem StartInv.find_eq (h : StartInv s) {record : JobRecord env.Value} {actor requestId : Nat}
    (hrecord : record ∈ s.db) (hkey : record.hasKey actor requestId = true) :
    s.db.find? (JobRecord.hasKey actor requestId) = some record := by
  cases hfound : s.db.find? (JobRecord.hasKey actor requestId) with
  | none => exact absurd hkey (List.find?_eq_none.1 hfound record hrecord)
  | some other =>
    have hother := hasKey_iff.1 (List.find?_some hfound)
    have hown := hasKey_iff.1 hkey
    rw [h.unique other (List.mem_of_find?_eq_some hfound) record hrecord
      (hother.1.trans hown.1.symm) (hother.2.trans hown.2.symm)]

/-- The statement and the comparison, one after the other. -/
theorem run_upsert_finish {id : Nat} {now expiresAt : Int}
    (ht : s.calls t = .ready actor request) (hfree : s.keys (actor, request.requestId) = none)
    (hrow : (s.upsert t actor request id now expiresAt).calls t =
      .upserted actor request row fresh) :
    (startSystem env).run (fun _ _ => true) s [.upsert t id now expiresAt, .finish t] =
      some ((s.upsert t actor request id now expiresAt).finish t actor request row fresh) := by
  have hfirst : (startSystem env).step s (.upsert t id now expiresAt) =
      some (s.upsert t actor request id now expiresAt) := by
    simp only [startSystem, ht, hfree, if_true]
  have hsecond : (startSystem env).step (s.upsert t actor request id now expiresAt) (.finish t) =
      some ((s.upsert t actor request id now expiresAt).finish t actor request row fresh) := by
    simp only [startSystem, hrow]
  simp only [Machine.run, if_true, hfirst, Option.bind_some, hsecond]

theorem finish_calls : (s.finish t actor request row fresh).calls t = .answered actor request
      (if request.sameJob row then .ok row else .error requestIdUsed) := by
  rw [StartSystem.finish]
  split_ifs
  · exact update_self _ _ _
  · exact update_self _ _ _
  · exact update_self _ _ _

theorem finish_db : (s.finish t actor request row fresh).db =
      if request.sameJob row ∧ fresh then s.db ++ [⟨row, []⟩] else s.db := by
  rw [StartSystem.finish]
  by_cases hsame : request.sameJob row = true
  · cases fresh <;> simp [hsame]
  · rw [if_neg hsame, if_neg fun hboth => hsame hboth.1]
    rfl

/-- A call that finds its key free is answered. -/
theorem StartInv.call_spec (h : StartInv s)
    (ht : s.calls t = .ready actor request) (hfree : s.keys (actor, request.requestId) = none)
    (hstorable : isStorable env request.parameters = true) {id : Nat} (hid : id ∉ s.drawn)
    (now expiresAt : Int) :
    ∃ s', (startSystem env).run (fun _ _ => true) s [.upsert t id now expiresAt, .finish t] =
      some s' ∧ CallSpec s s' t actor request id now expiresAt := by
  have hdrawn : s.drawn.contains id = false := by
    grind
  cases hfound : s.db.find? (JobRecord.hasKey actor request.requestId) with
  | some record =>
    have hupsert : s.upsert t actor request id now expiresAt =
        s.lockKey t actor request record.row false := by
      rw [StartSystem.upsert, if_pos hstorable, hfound]
    have hrow : (s.upsert t actor request id now expiresAt).calls t =
        .upserted actor request record.row false := by
      rw [hupsert]
      exact update_self _ _ _
    refine ⟨_, run_upsert_finish ht hfree hrow, ?_, ?_⟩
    · intro other hother hkey
      obtain rfl : record = other := by
        rw [h.find_eq hother hkey] at hfound
        exact (Option.some.inj hfound).symm
      refine ⟨?_, finish_calls⟩
      rw [finish_db, hupsert, if_neg fun hboth => nomatch hboth.2]
      rfl
    · grind
  | none =>
    have hupsert : s.upsert t actor request id now expiresAt = { s.lockKey t actor request
        (request.row (JsonValue.stored env.codec) id actor now expiresAt) true with
        drawn := id :: s.drawn } := by
      rw [StartSystem.upsert, if_pos hstorable, hfound]
      simp only [hdrawn, Bool.false_eq_true, if_false]
    have hrow : (s.upsert t actor request id now expiresAt).calls t = .upserted actor request
        (request.row (JsonValue.stored env.codec) id actor now expiresAt) true := by
      rw [hupsert]
      exact update_self _ _ _
    refine ⟨_, run_upsert_finish ht hfree hrow, ?_, ?_⟩
    · grind
    · intro _ hsurvives
      have hsame := (sameJob_row_iff request id actor now expiresAt).2 hsurvives
      rw [finish_calls, finish_db, if_pos hsame, if_pos ⟨hsame, rfl⟩, hupsert]
      exact ⟨rfl, rfl⟩

/-- The call that has a key can finish and gives it back. -/
theorem StartInv.key_released (h : StartInv s) {key : Nat × Nat} (hkey : s.keys key = some t) :
    ∃ s', (startSystem env).step s (.finish t) = some s' ∧ s'.keys key = none := by
  obtain ⟨request, row, fresh, hcall, hid⟩ := h.keys key t hkey
  refine ⟨s.finish t key.1 request row fresh, by simp only [startSystem, hcall], ?_⟩
  have hown : key = (key.1, request.requestId) := by rw [hid]
  rw [StartSystem.finish]
  split_ifs
  · rw [hown]
    exact update_self _ _ _
  · rw [hown]
    exact update_self _ _ _
  · rw [hown]
    exact update_self _ _ _

/-- No call changes a job that is there. -/
theorem db_prefix_of_step (hlabel : ∀ other, label ≠ .other other)
    (hstep : (startSystem env).step s label = some s') : s.db <+: s'.db := by
  cases move_of_step hlabel hstep with
  | policy | setCall | fail => exact List.prefix_rfl
  | upsert =>
    rw [StartSystem.upsert]
    split_ifs
    · split <;> exact List.prefix_rfl
    · split <;> exact List.prefix_rfl
    · exact List.prefix_rfl
  | finish =>
    rw [finish_db]
    grind

end Step

/-! ### Every interleaving -/

/-- The states that calls of `start_job` and other transactions reach. -/
abbrev StartReaches (updates : UpdateSection) : StartSystem env → Prop :=
  (startSystem env).Reaches (fun _ _ => True) (StartSystem.fresh env updates)

/-- `start_job` is idempotent for an actor and a request. There is at
most one job for them; every answer fits it; a call that need not wait
gets that job, is refused because it is another one, or starts it; a
call that others wait for can finish; and no call changes a job. -/
theorem start_job_idempotent (updates : UpdateSection) (s : StartSystem env)
    (h : StartReaches updates s) :
    (∀ a ∈ s.db, ∀ b ∈ s.db, a.row.actorId = b.row.actorId →
      a.row.requestId = b.row.requestId → a = b) ∧
    (∀ t actor request answer, s.calls t = .answered actor request answer →
      AnswerInv s.db actor request answer) ∧
    (∀ t actor request, s.calls t = .ready actor request →
      s.keys (actor, request.requestId) = none → isStorable env request.parameters = true →
      ∀ id now expiresAt, id ∉ s.drawn →
        ∃ s', (startSystem env).run (fun _ _ => true) s [.upsert t id now expiresAt, .finish t] =
          some s' ∧ CallSpec s s' t actor request id now expiresAt) ∧
    (∀ key t, s.keys key = some t →
      ∃ s', (startSystem env).step s (.finish t) = some s' ∧ s'.keys key = none) ∧
    (∀ label s', (∀ other, label ≠ .other other) → (startSystem env).step s label = some s' →
      s.db <+: s'.db) := by
  have hinv : StartInv s := h.invariant (startInv_fresh updates) fun _ _ _ hs _ => hs.step
  refine ⟨hinv.unique, ?_, ?_, fun key t => hinv.key_released, fun label s' => db_prefix_of_step⟩
  · intro t actor request answer hanswered
    have hpc := hinv.calls t
    rw [hanswered] at hpc
    exact hpc
  · intro t actor request hready hfree hstorable id now expiresAt hid
    exact hinv.call_spec hready hfree hstorable hid now expiresAt

/-! ### A sample -/

/-- A number without zeros at its end. -/
def stripZeros : Nat → DecimalText → DecimalText
  | 0, text => text
  | fuel + 1, text =>
    if text.digits = 0 then ⟨false, 0, 0⟩
    else if text.digits % 10 = 0 then
      stripZeros fuel { text with digits := text.digits / 10, exponent := text.exponent + 1 }
    else text

/-- Decimal floats, printed as binary ones are: with a point as long as
there are at most 16 digits before it, with an exponent after that. -/
def decimalCodec : FloatCodec DecimalText where
  print f :=
    if 0 ≤ f.exponent ∧ (Nat.toDigits 10 f.digits).length + f.exponent ≤ 16 then
      ⟨f.negative, f.digits * 10 ^ (f.exponent.toNat + 1), -1⟩
    else f
  parse d := stripZeros (Nat.toDigits 10 d.coefficient).length ⟨d.negative, d.coefficient, -d.scale⟩

/-- Versions are texts of digits and points. -/
def sampleStartEnv : StartEnv where
  Float := DecimalText
  floatEq := inferInstance
  codec := decimalCodec
  Version := String
  versionEq := inferInstance
  parseVersion text :=
    if text.toList.all fun c => c.isDigit || c = '.' then some text else none
  showVersion := id
  showTime := toString

def sampleUpdates : UpdateSection where
  enabled := true
  channel := "stable"
  manifestUrl := "manifest"
  allowPrerelease := false

/-- The admin asks for a restart after 2.5 seconds. -/
def sampleRestart : StartJobRequest sampleStartEnv.Value where
  requestId := 1
  targetId := 7
  kind := .restartMachine
  parameters := .object [("delay", .number (.float ⟨false, 25, -1⟩))]
  reason := "maintenance"

deriving instance DecidableEq for StartPc

/-- Two calls with the same request, and a third one with another
reason. -/
theorem start_job_idempotent_sample :
    ∃ s : StartSystem sampleStartEnv, StartReaches sampleUpdates s ∧ s.db.length = 1 ∧
      JobOf s.db 3 1 (fun job => job.id = 5 ∧ sampleRestart.sameJob job = true) ∧
      s.calls 2 = .answered 3 { sampleRestart with reason := "urgent" } (.error requestIdUsed) := by
  have hrun : ((startSystem sampleStartEnv).run (fun _ _ => true)
      (StartSystem.fresh sampleStartEnv sampleUpdates)
      [.receive 0 3 sampleRestart, .receive 1 3 sampleRestart, .upsert 0 5 0 900, .finish 0,
        .upsert 1 6 1 901, .finish 1, .receive 2 3 { sampleRestart with reason := "urgent" },
        .upsert 2 7 2 902, .finish 2]).map
      (fun s => decide (s.db.length = 1 ∧ (∃ record ∈ s.db, record.row.id = 5 ∧
        s.calls 1 = .answered 3 sampleRestart (.ok record.row)) ∧
        s.calls 2 = .answered 3 { sampleRestart with reason := "urgent" } (.error requestIdUsed))) =
      some true := by decide +kernel
  obtain ⟨s, hreach, hend⟩ := Machine.exists_of_view hrun
  obtain ⟨hlength, ⟨record, -, hid, hsecond⟩, hthird⟩ := of_decide_eq_true hend
  obtain ⟨-, hanswers, -⟩ := start_job_idempotent sampleUpdates s hreach
  refine ⟨s, hreach, hlength, ?_, hthird⟩
  rw [← hid]
  exact (hanswers 1 _ _ _ hsecond).ok _ rfl

/-- An update to the release 1.0.0. -/
def sampleUpdate : StartJobRequest sampleStartEnv.Value where
  requestId := 2
  targetId := 7
  kind := .updateClient
  parameters := .object [("expected_version", .string "1.0.0")]
  reason := "release"

/-- The first request with the delay 1e16 is refused as used, with no
job there. An update-client request is refused when it is repeated after
the next release was verified. -/
theorem start_job_refusals : (∃ s : StartSystem sampleStartEnv,
      (startSystem sampleStartEnv).run (fun _ _ => true)
        (StartSystem.fresh sampleStartEnv sampleUpdates)
        [.receive 0 3 { sampleRestart with
            parameters := .object [("delay", .number (.float ⟨false, 1, 16⟩))] },
          .upsert 0 5 0 900, .finish 0] = some s ∧
      s.db.length = 0 ∧
      ∃ request, s.calls 0 = .answered 3 request (.error requestIdUsed)) ∧
    ∃ s : StartSystem sampleStartEnv, (startSystem sampleStartEnv).run (fun _ _ => true)
        (StartSystem.fresh sampleStartEnv sampleUpdates)
        [.policy sampleUpdates (some ("1.0.0", 0)), .receive 0 3 sampleUpdate, .upsert 0 5 1 900,
          .finish 0, .policy sampleUpdates (some ("1.1.0", 50)), .receive 1 3 sampleUpdate] =
        some s ∧
      s.db.length = 1 ∧
      ∃ message, s.calls 1 =
        .answered 3 sampleUpdate (.error (.status .failedPrecondition message)) := by
  constructor
  · refine exists_some_of_view (fun s => (s.db.length, s.calls 0))
      (v := (0, .answered 3 { sampleRestart with
        parameters := .object [("delay", .number (.float ⟨false, 1, 16⟩))] }
        (.error requestIdUsed))) (by decide +kernel) fun s hend => ?_
    exact ⟨congrArg Prod.fst hend, _, congrArg Prod.snd hend⟩
  · refine exists_some_of_view (fun s => (s.db.length, s.calls 1))
      (v := (1, .answered 3 sampleUpdate (.error (.status .failedPrecondition
        ("the approved version must match the server-verified version 1.1.0 " ++
          "(checked at 50)"))))) (by decide +kernel) fun s hend => ?_
    exact ⟨congrArg Prod.fst hend, _, congrArg Prod.snd hend⟩

end Centrald.Proofs
