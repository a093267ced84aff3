import Centrald.Client.Ledger
import Centrald.Durable.JsonProofs

/-!
# `Centrald.Proofs.ConsumedGrants`: the consumed-grant journal

What `recordConsumedGrant` appends, `loadConsumedGrants` returns
(`loadConsumedGrants_recordAll`). The journal has no torn-tail recovery:
a cut append either leaves a line that does not parse, or a complete
line without its newline that the next append glues to its own. So the
journal tolerates a cut exactly when nothing or all of the line reached
the file (`toleratesTornAppend_iff`).
-/

set_option autoImplicit false

namespace Centrald.Proofs

open Durable Common Client.Ledger

variable (env : LedgerEnv)

/-- The JSON text of one consumed grant. -/
def consumedGrantText (grant : Nat × Int) : Bytes :=
  (consumedGrantEnvelope env grant.1 grant.2).print

/-- Record some grants in order. -/
def recordAll (file : Option Bytes) (grants : List (Nat × Int)) : Option Bytes :=
  grants.foldl (recordConsumedGrant env) file

/-! ### One line -/

@[simp] theorem orFail_some {α : Type} (a : α) (text : String) : orFail (some a) text = .ok a := rfl

@[simp] theorem orFail_none {α : Type} (text : String) :
    orFail (none : Option α) text = .error text := rfl

@[simp] theorem except_ok_bind {ε α β : Type} (a : α) (f : α → Except ε β) :
    (Except.ok a >>= f) = f a := rfl

@[simp] theorem except_error_bind {ε α β : Type} (e : ε) (f : α → Except ε β) :
    ((Except.error e : Except ε α) >>= f) = .error e := rfl

/-- The envelope is an object; its keys stand in the order of a map. -/
theorem consumedGrantText_eq (grant : Nat × Int) : consumedGrantText env grant = (Json.obj [
      (ascii "checksum_sha256",
        .str (env.sha256Hex (consumedGrantPayload env grant.1 grant.2).print)),
      (ascii "record", consumedGrantPayload env grant.1 grant.2)]).print := rfl

theorem newline_not_mem_consumedGrantText (grant : Nat × Int) :
    newline ∉ consumedGrantText env grant :=
  newline_not_mem_print _

theorem isBlank_consumedGrantText (grant : Nat × Int) :
    isBlank (consumedGrantText env grant) = false := by
  rw [consumedGrantText_eq, isBlank_print_obj]

/-- The reader gets back the grant a line was written for. -/
theorem parseConsumedGrant_text (index : Nat) (grant : Nat × Int) :
    parseConsumedGrant env index (consumedGrantText env grant) = .ok grant := by
  let envelope := consumedGrantEnvelope env grant.1 grant.2
  let payload := consumedGrantPayload env grant.1 grant.2
  have hvalue : envelope.toValue = envelope := rfl
  have hrecord : envelope.get (ascii "record") = some payload := rfl
  have hsum : envelope.get (ascii "checksum_sha256") =
      some (.str (env.sha256Hex payload.print)) := rfl
  have hid : payload.get (ascii "grant_id") = some (.str (env.texts.uuid grant.1)) := rfl
  have hexp : payload.get (ascii "expires_at") = some (.str (env.texts.time grant.2)) := rfl
  rw [parseConsumedGrant, consumedGrantText, parse_print, orFail_some, except_ok_bind]
  show (orFail (envelope.toValue.get (ascii "record")) _ >>= _) = _
  rw [hvalue, hrecord, hsum]
  simp only [Option.bind_some, orFail_some, except_ok_bind, Json.asStr, ne_eq,
    not_true_eq_false, if_false, hid, hexp, env.texts.parseUuid_uuid, env.texts.parseTime_time]
  rfl

/-- A line that is no JSON text makes the reader fail. -/
theorem parseConsumedGrant_error {line : Bytes} (h : Json.parse line = none) (index : Nat) :
    ∃ e, parseConsumedGrant env index line = .error e := by
  rw [parseConsumedGrant, h, orFail_none, except_error_bind]
  exact ⟨_, rfl⟩

/-! ### The journal -/

theorem recordAll_some (raw : Bytes) (grants : List (Nat × Int)) : recordAll env (some raw) grants =
      some (raw ++ grants.flatMap fun g => consumedGrantText env g ++ [newline]) := by
  induction grants generalizing raw with
  | nil => simp [recordAll]
  | cons g rest ih =>
    show recordAll env (some (raw ++ consumedGrantLine env g)) rest = _
    rw [ih, List.flatMap_cons, List.append_assoc]
    rfl

theorem recordAll_append (file : Option Bytes) (xs ys : List (Nat × Int)) :
    recordAll env file (xs ++ ys) = recordAll env (recordAll env file xs) ys :=
  List.foldl_append ..

/-- A journal that does not exist reads as an empty one. -/
theorem recordAll_none_getD (grants : List (Nat × Int)) : (recordAll env none grants).getD [] =
      grants.flatMap fun g => consumedGrantText env g ++ [newline] := by
  cases grants with
  | nil => rfl
  | cons g rest =>
    show (recordAll env (some ([] ++ consumedGrantLine env g)) rest).getD [] = _
    rw [recordAll_some]
    rfl

/-- What is recorded is loaded, without the grants that have expired. -/
theorem loadConsumedGrants_some (grants : List (Nat × Int)) (now : Int) : loadConsumedGrants env
        (some (grants.flatMap fun g => consumedGrantText env g ++ [newline])) now =
      .ok (grants.filter fun g => g.2 > now) :=
  readLines_of_recordLines (parseConsumedGrant_text env) 0
    (recordLines_flatMap (newline_not_mem_consumedGrantText env)
      (isBlank_consumedGrantText env) grants)

theorem loadConsumedGrants_recordAll (grants : List (Nat × Int)) (now : Int) :
    loadConsumedGrants env (recordAll env none grants) now =
      .ok (grants.filter fun g => g.2 > now) := by
  cases grants with
  | nil => rfl
  | cons g rest =>
    have hfile : recordAll env none (g :: rest) =
        some ((g :: rest).flatMap fun g => consumedGrantText env g ++ [newline]) := by
      show recordAll env (some ([] ++ consumedGrantLine env g)) rest = _
      rw [recordAll_some]
      rfl
    rw [hfile, loadConsumedGrants_some]

/-! ### A cut append -/

/-- An append of which `k` bytes reached the file before a crash. -/
def tornAppend (file : Option Bytes) (grant : Nat × Int) (k : Nat) : Option Bytes :=
  some (file.getD [] ++ (consumedGrantLine env grant).take k)

/-- The journal tolerates a cut of the append of `last` after `k` bytes:
whatever is recorded later, every load succeeds and returns all grants
recorded before and after that have not expired. -/
def ToleratesTornAppend (earlier : List (Nat × Int)) (last : Nat × Int) (k : Nat) : Prop :=
  ∀ later now, ∃ loaded,
    loadConsumedGrants env
      (recordAll env (tornAppend env (recordAll env none earlier) last k) later) now =
        .ok loaded ∧
    ∀ g ∈ earlier ++ later, g.2 > now → g ∈ loaded

/-- The journal after the cut and the later records. -/
theorem recordAll_tornAppend (earlier later : List (Nat × Int)) (last : Nat × Int) (k : Nat) :
    recordAll env (tornAppend env (recordAll env none earlier) last k) later =
      some ((earlier.flatMap fun g => consumedGrantText env g ++ [newline]) ++
        ((consumedGrantText env last ++ [newline]).take k ++
          later.flatMap fun g => consumedGrantText env g ++ [newline])) := by
  rw [tornAppend, recordAll_none_getD, recordAll_some, List.append_assoc]
  rfl

/-- A line of the journal that is no JSON text makes the load fail. -/
theorem loadConsumedGrants_error (earlier : List (Nat × Int)) (now : Int) {bytes line : Bytes}
    (hline : line ∈ recordLines bytes) (hparse : Json.parse line = none) :
    ∃ e, loadConsumedGrants env
      (some ((earlier.flatMap fun g => consumedGrantText env g ++ [newline]) ++ bytes)) now =
        .error e := by
  have hmem : line ∈ recordLines
      ((earlier.flatMap fun g => consumedGrantText env g ++ [newline]) ++ bytes) := by
    rw [recordLines_append_of_terminated (terminated_flatMap _ _)]
    exact List.mem_append_right _ hline
  rw [recordLines, List.mem_filter] at hmem
  exact readLines_error (fun i => parseConsumedGrant_error env hparse i) _ 0 hmem.1
    (by simpa using hmem.2)

/-- A cut inside the JSON text leaves a line that does not parse. -/
theorem not_toleratesTornAppend_inside (earlier : List (Nat × Int)) (last : Nat × Int) {k : Nat}
    (hpos : 0 < k) (hk : k < (consumedGrantText env last).length) :
    ¬ ToleratesTornAppend env earlier last k := by
  intro htol
  obtain ⟨loaded, hload, -⟩ := htol [] 0
  let torn := (consumedGrantText env last).take k
  have htake : (consumedGrantText env last ++ [newline]).take k = torn :=
    List.take_append_of_le_length (Nat.le_of_lt hk)
  have hsplit : consumedGrantText env last = torn ++ (consumedGrantText env last).drop k :=
    (List.take_append_drop k _).symm
  have hparse : Json.parse torn = none := by
    refine parse_prefix_print_obj hsplit ?_
    rw [Ne, List.drop_eq_nil_iff]
    omega
  have hline : torn ∈ recordLines torn := by
    have hnl : newline ∉ torn := fun h =>
      newline_not_mem_consumedGrantText env last (List.mem_of_mem_take h)
    have hblank : isBlank torn = false := by
      obtain ⟨rest, hrest⟩ : ∃ rest, consumedGrantText env last = 123 :: rest :=
        print_obj_head _
      obtain ⟨n, rfl⟩ : ∃ n, k = n + 1 := ⟨k - 1, by omega⟩
      show isBlank ((consumedGrantText env last).take (n + 1)) = false
      rw [hrest, List.take_succ_cons, isBlank_brace]
    rw [recordLines_of_not_mem hnl hblank]
    exact List.mem_singleton_self _
  obtain ⟨e, he⟩ := loadConsumedGrants_error env earlier 0 hline hparse
  rw [recordAll_tornAppend, List.flatMap_nil, List.append_nil, htake, he] at hload
  cases hload

/-- A cut right before the newline lets the next append continue the line. -/
theorem not_toleratesTornAppend_newline (earlier : List (Nat × Int)) (last : Nat × Int) :
    ¬ ToleratesTornAppend env earlier last (consumedGrantText env last).length := by
  intro htol
  -- the grant recorded next ends up on the line of the cut record
  obtain ⟨loaded, hload, -⟩ := htol [last] 0
  let glued := consumedGrantText env last ++ consumedGrantText env last
  have hparse : Json.parse glued = none :=
    parse_print_append_nonblank _ (isBlank_consumedGrantText env last)
  have hline : glued ∈ recordLines (glued ++ [newline]) := by
    have hnl : newline ∉ glued := by
      simp only [glued, List.mem_append, or_self]
      exact newline_not_mem_consumedGrantText env last
    have hblank : isBlank glued = false := by
      rw [isBlank, List.all_append, ← isBlank, isBlank_consumedGrantText, Bool.false_and]
    rw [recordLines_line hnl hblank]
    exact List.mem_singleton_self _
  obtain ⟨e, he⟩ := loadConsumedGrants_error env earlier 0 hline hparse
  rw [recordAll_tornAppend, List.take_left, List.flatMap_singleton,
    ← List.append_assoc (consumedGrantText env last), he] at hload
  cases hload

/-- The journal tolerates a cut exactly when nothing or all of the line
reached the file. -/
theorem toleratesTornAppend_iff (earlier : List (Nat × Int)) (last : Nat × Int) (k : Nat) :
    ToleratesTornAppend env earlier last k ↔ k = 0 ∨ (consumedGrantLine env last).length ≤ k := by
  have hlen : (consumedGrantLine env last).length = (consumedGrantText env last).length + 1 := by
    rw [consumedGrantLine, List.length_append]
    rfl
  constructor
  · intro htol
    by_cases hpos : 0 < k
    · by_cases hinside : k < (consumedGrantText env last).length
      · exact absurd htol (not_toleratesTornAppend_inside env earlier last hpos hinside)
      · by_cases heq : k = (consumedGrantText env last).length
        · exact absurd (heq ▸ htol) (not_toleratesTornAppend_newline env earlier last)
        · omega
    · omega
  · rintro (rfl | hk) later now
    · refine ⟨(earlier ++ later).filter fun g => g.2 > now, ?_, ?_⟩
      · rw [recordAll_tornAppend, List.take_zero, List.nil_append, ← List.flatMap_append,
          loadConsumedGrants_some]
      · grind
    · refine ⟨(earlier ++ last :: later).filter fun g => g.2 > now, ?_, ?_⟩
      · have htake : (consumedGrantText env last ++ [newline]).take k =
            consumedGrantText env last ++ [newline] := List.take_of_length_le hk
        have hload := loadConsumedGrants_some env (earlier ++ last :: later) now
        rw [List.flatMap_append, List.flatMap_cons] at hload
        rw [recordAll_tornAppend, htake, hload]
      · grind

/-! ### An instance -/

/-- Identifiers and times written as decimal numbers. -/
def decimalTexts : Texts where
  uuid id := printNat id
  parseUuid bytes :=
    match Json.parse bytes with
    | some (.num (.ofNat n)) => some n
    | _ => none
  time t := printInt t
  parseTime bytes :=
    match Json.parse bytes with
    | some (.num n) => some n
    | _ => none
  parseUuid_uuid id := by
    have h := parse_print (.num (.ofNat id))
    rw [Json.print, printInt] at h
    rw [h]
  parseTime_time t := by
    have h := parse_print (.num t)
    rw [Json.print] at h
    rw [h]

/-- Decimal texts with the sum of the bytes for a checksum. -/
def decimalEnv : LedgerEnv where
  texts := decimalTexts
  sha256Hex bytes := printNat (bytes.foldl (fun sum b => sum + b.toNat) 0)

/-- After one recorded grant, a crash that leaves the first byte of the
next record makes every load fail. -/
theorem tornAppend_bricks_journal : ¬ ToleratesTornAppend decimalEnv [(7, 100)] (8, 100) 1 :=
  not_toleratesTornAppend_inside decimalEnv [(7, 100)] (8, 100) (by decide) (by decide)

end Centrald.Proofs
