import Centrald.Durable.Json

/-!
# `Durable.JsonProofs`: what the JSON parser does on printed values

`parseRun_print` is the induction over the value: after the bytes of a
printed value the parser is where it was, with the value complete. The
facts about whole texts follow. A text that parses leaves the parser
with an empty stack (`Idle`), and from there every byte but whitespace
and digits is refused; so no printed object has a proper first part
that parses.
-/

set_option autoImplicit false

namespace Durable

/-- One byte that the parser accepts. -/
theorem parseRun_step {b : UInt8} {rest : Bytes} {st st' : ParseState}
    (h : parseStep st b = some st') : parseRun (b :: rest) st = parseRun rest st' := by
  rw [parseRun, h, Option.bind_some]

theorem parseRun_append (xs ys : Bytes) (st : ParseState) :
    parseRun (xs ++ ys) st = (parseRun xs st).bind (parseRun ys) := by
  induction xs generalizing st with
  | nil => rfl
  | cons b rest ih =>
    rw [List.cons_append, parseRun, parseRun]
    cases parseStep st b with
    | none => rfl
    | some st' => exact ih st'

/-! ### Strings -/

theorem hexValue_hexDigit : ∀ d, d < 16 → hexValue (hexDigit d) = some d := by decide

section Strings

variable {keyOf : Option (List (Bytes × Json))} {acc : Bytes} {stack : List Frame}

theorem parseStep_hex {c : UInt8} {d n left : Nat} (h : hexValue c = some d) (hleft : 1 < left) :
    parseStep (.hex keyOf acc n left, stack) c =
      some (.hex keyOf acc (n * 16 + d) (left - 1), stack) := by
  simp only [parseStep, h]
  rw [if_neg (by omega)]

theorem parseStep_hex_last {c : UInt8} {d n : Nat} (h : hexValue c = some d)
    (hn : n * 16 + d < 128) :
    parseStep (.hex keyOf acc n 1, stack) c =
      some (.str keyOf (UInt8.ofNat (n * 16 + d) :: acc), stack) := by
  simp only [parseStep, h]
  rw [if_pos (by decide), if_pos hn]

/-- The parser reads an escaped byte as that byte. -/
theorem parseRun_escapeByte (b : UInt8) (rest : Bytes) :
    parseRun (escapeByte b ++ rest) (.str keyOf acc, stack) =
      parseRun rest (.str keyOf (b :: acc), stack) := by
  unfold escapeByte
  split_ifs with h1 h2 h3 h4 h5 h6 h7 h8
  · subst h1; rfl
  · subst h2; rfl
  · subst h3; rfl
  · subst h4; rfl
  · subst h5; rfl
  · subst h6; rfl
  · subst h7; rfl
  · -- a control byte without a short escape: `\u00` and two digits
    have hb : b.toNat < 32 := h8
    have hzero : hexValue 48 = some 0 := by decide
    have hhi : hexValue (hexDigit (b.toNat / 16)) = some (b.toNat / 16) :=
      hexValue_hexDigit _ (by omega)
    have hlo : hexValue (hexDigit (b.toNat % 16)) = some (b.toNat % 16) :=
      hexValue_hexDigit _ (by omega)
    have hbyte : (((0 * 16 + 0) * 16 + 0) * 16 + b.toNat / 16) * 16 + b.toNat % 16 =
        b.toNat := by omega
    show parseRun (48 :: 48 :: _ :: _ :: rest) (.hex keyOf acc 0 4, stack) = _
    rw [parseRun_step (parseStep_hex hzero (by decide)),
      parseRun_step (parseStep_hex hzero (by decide)),
      parseRun_step (parseStep_hex hhi (by decide)),
      parseRun_step (parseStep_hex_last hlo (by omega)), hbyte, UInt8.ofNat_toNat]
  · refine parseRun_step ?_
    simp only [parseStep, if_neg h1, if_neg h2, if_neg h8]

theorem parseRun_escaped (text rest : Bytes) :
    parseRun (text.flatMap escapeByte ++ rest) (.str keyOf acc, stack) =
      parseRun rest (.str keyOf (text.reverse ++ acc), stack) := by
  induction text generalizing acc with
  | nil => rfl
  | cons b text ih =>
    rw [List.flatMap_cons, List.append_assoc, parseRun_escapeByte, ih, List.reverse_cons,
      List.append_assoc]
    rfl

/-- The body of a string and its closing quote. -/
theorem parseRun_stringBody (text rest : Bytes) :
    parseRun (text.flatMap escapeByte ++ 34 :: rest) (.str keyOf [], stack) =
      parseRun rest (endString keyOf text stack) := by
  rw [parseRun_escaped, List.append_nil]
  refine parseRun_step ?_
  show some (endString keyOf text.reverse.reverse stack) = _
  rw [List.reverse_reverse]

end Strings

/-! ### Numbers -/

theorem digitValue_digitChar :
    ∀ d, d < 10 → digitValue (UInt8.ofNat d.digitChar.toNat) = some d := by decide

/-- No digit opens another kind of value. -/
theorem digitChar_not_opening : ∀ d, d < 10 →
    UInt8.ofNat d.digitChar.toNat ∉ ([32, 9, 10, 13, 91, 93, 123, 34, 45, 110, 116, 102] :
      List UInt8) := by decide

theorem printNat_of_lt {n : Nat} (h : n < 10) : printNat n = [UInt8.ofNat n.digitChar.toNat] := by
  rw [printNat, Nat.toDigits_of_lt_base h]
  rfl

theorem printNat_of_le {n : Nat} (h : 10 ≤ n) :
    printNat n = printNat (n / 10) ++ [UInt8.ofNat (n % 10).digitChar.toNat] := by
  rw [printNat, Nat.toDigits_of_base_le (by decide) h, List.map_append]
  rfl

/-- A decimal starts with a digit. -/
theorem printNat_head (n : Nat) :
    ∃ d rest, d < 10 ∧ printNat n = UInt8.ofNat d.digitChar.toNat :: rest := by
  induction n using Nat.strongRecOn with
  | ind n ih =>
    by_cases h : n < 10
    · exact ⟨n, [], h, printNat_of_lt h⟩
    · obtain ⟨d, rest, hd, heq⟩ := ih (n / 10) (by omega)
      refine ⟨d, rest ++ [UInt8.ofNat (n % 10).digitChar.toNat], hd, ?_⟩
      rw [printNat_of_le (by omega), heq, List.cons_append]

/-- A decimal has digits only. -/
theorem not_mem_printNat {b : UInt8} (hb : digitValue b = none) (n : Nat) : b ∉ printNat n := by
  intro h
  obtain ⟨c, hc, rfl⟩ := List.mem_map.1 h
  have hdigit : 48 ≤ c.toNat ∧ c.toNat ≤ 57 := Char.isDigit_iff_toNat.1
    (Nat.isDigit_of_mem_toDigits (by decide) (by decide) hc)
  rw [digitValue, UInt8.toNat_ofNat', Nat.mod_eq_of_lt (by omega), if_pos hdigit] at hb
  cases hb

/-- A value starts with one of its own digits exactly as digits after a sign do. -/
theorem startValue_digit {d : Nat} (hd : d < 10) (stack : List Frame) :
    startValue (UInt8.ofNat d.digitChar.toNat) stack = some (.num false (some d), stack) := by
  have hne := digitChar_not_opening d hd
  simp only [List.mem_cons, not_or] at hne
  obtain ⟨-, -, -, -, h91, -, h123, h34, h45, h110, h116, h102, -⟩ := hne
  rw [startValue, if_neg h91, if_neg h123, if_neg h34, if_neg h45, if_neg h110, if_neg h116,
    if_neg h102, digitValue_digitChar d hd]
  rfl

/-- The digits of a number after its sign. -/
theorem parseRun_printNat (neg : Bool) (stack : List Frame) (n : Nat) (rest : Bytes) :
    parseRun (printNat n ++ rest) (.num neg none, stack) =
      parseRun rest (.num neg (some n), stack) := by
  induction n using Nat.strongRecOn generalizing rest with
  | ind n ih =>
    by_cases h : n < 10
    · rw [printNat_of_lt h, List.singleton_append]
      refine parseRun_step ?_
      simp only [parseStep, digitValue_digitChar n h]
      rfl
    · have hlt : n % 10 < 10 := Nat.mod_lt _ (by decide)
      have hpos : n / 10 ≠ 0 := by omega
      have hval : n / 10 * 10 + n % 10 = n := by omega
      rw [printNat_of_le (by omega), List.append_assoc, ih (n / 10) (by omega),
        List.singleton_append]
      refine parseRun_step ?_
      simp only [parseStep, digitValue_digitChar _ hlt, if_neg hpos, hval]

/-- A number without a sign, where a value is expected. -/
theorem parseRun_printNat_value (stack : List Frame) (n : Nat) (rest : Bytes) :
    parseRun (printNat n ++ rest) (.value, stack) = parseRun rest (.num false (some n), stack) := by
  obtain ⟨d, digits, hd, heq⟩ := printNat_head n
  have hspace : isJsonSpace (UInt8.ofNat d.digitChar.toNat) = false := by
    have hne := digitChar_not_opening d hd
    simp only [List.mem_cons, not_or] at hne
    simp [isJsonSpace, hne]
  have hvalue : parseStep (.value, stack) (UInt8.ofNat d.digitChar.toNat) =
      some (.num false (some d), stack) := by
    simp only [parseStep, hspace, Bool.false_eq_true, if_false, startValue_digit hd]
  have hnum : parseStep (.num false none, stack) (UInt8.ofNat d.digitChar.toNat) =
      some (.num false (some d), stack) := by
    simp only [parseStep, digitValue_digitChar d hd]
    rfl
  rw [← parseRun_printNat false stack n rest, heq, List.cons_append, parseRun_step hvalue,
    parseRun_step hnum]

/-! ### Values -/

/-- What the parser expects after the bytes of a value. Only after a
number is the value not known to be complete. -/
def doneMode : Json → Mode
  | .num (.ofNat n) => .num false (some n)
  | .num (.negSucc n) => .num true (some (n + 1))
  | v => .after v

/-- A byte that is no digit completes a number as well. -/
theorem parseStep_doneMode (v : Json) (stack : List Frame) {b : UInt8}
    (hb : digitValue b = none) : parseStep (doneMode v, stack) b = stepAfter v stack b := by
  cases v with
  | num n =>
    cases n with
    | ofNat n =>
      show parseStep (.num false (some n), stack) b = _
      simp only [parseStep, hb]
      rfl
    | negSucc n =>
      show parseStep (.num true (some (n + 1)), stack) b = _
      simp only [parseStep, hb]
      rfl
  | _ => rfl

/-- No printed value starts with whitespace or a closing bracket. -/
theorem print_head (v : Json) : ∃ b rest, v.print = b :: rest ∧ isJsonSpace b = false ∧ b ≠ 93 := by
  have hdigit : ∀ n : Nat, ∃ b rest, printNat n = b :: rest ∧ isJsonSpace b = false ∧ b ≠ 93 := by
    intro n
    obtain ⟨d, rest, hd, heq⟩ := printNat_head n
    have hne := digitChar_not_opening d hd
    simp only [List.mem_cons, not_or] at hne
    exact ⟨_, rest, heq, by simp [isJsonSpace, hne], hne.2.2.2.2.2.1⟩
  match v with
  | .null => exact ⟨_, _, rfl, by decide, by decide⟩
  | .bool true => exact ⟨_, _, rfl, by decide, by decide⟩
  | .bool false => exact ⟨_, _, rfl, by decide, by decide⟩
  | .num (.ofNat n) => exact hdigit n
  | .num (.negSucc n) => exact ⟨45, printNat (n + 1), rfl, by decide, by decide⟩
  | .str text => exact ⟨_, _, rfl, by decide, by decide⟩
  | .arr [] => exact ⟨_, _, rfl, by decide, by decide⟩
  | .arr (x :: rest) => exact ⟨91, _, by rw [Json.print], by decide, by decide⟩
  | .obj [] => exact ⟨_, _, rfl, by decide, by decide⟩
  | .obj ((key, x) :: rest) => exact ⟨123, _, by rw [Json.print], by decide, by decide⟩

/-- The first item of an array is read as any other. -/
theorem parseRun_firstItem (v : Json) (stack : List Frame) (rest : Bytes) :
    parseRun (v.print ++ rest) (.firstItem, stack) =
      parseRun (v.print ++ rest) (.value, .arr [] :: stack) := by
  obtain ⟨b, tail, heq, hspace, hclose⟩ := print_head v
  have hstep : parseStep (.firstItem, stack) b = parseStep (.value, .arr [] :: stack) b := by
    simp only [parseStep, hspace, Bool.false_eq_true, if_false, if_neg hclose]
  rw [heq, List.cons_append, parseRun, parseRun, hstep]

/-- A key, its colon, and the place of its value. -/
theorem parseRun_key (key : Bytes) (done : List (Bytes × Json)) (stack : List Frame)
    (rest : Bytes) :
    parseRun (key.flatMap escapeByte ++ 34 :: 58 :: rest) (.str (some done) [], stack) =
      parseRun rest (.value, .obj done key :: stack) := by
  rw [parseRun_stringBody]
  exact parseRun_step rfl

mutual
/-- After the bytes of a printed value the parser is where it was, with
the value complete. -/
theorem parseRun_print : ∀ (v : Json) (stack : List Frame) (rest : Bytes),
    parseRun (v.print ++ rest) (.value, stack) = parseRun rest (doneMode v, stack)
  | .null, stack, rest => rfl
  | .bool true, stack, rest => rfl
  | .bool false, stack, rest => rfl
  | .num (.ofNat n), stack, rest => parseRun_printNat_value stack n rest
  | .num (.negSucc n), stack, rest => by
    show parseRun (printNat (n + 1) ++ rest) (.num true none, stack) = _
    rw [parseRun_printNat]
    rfl
  | .str text, stack, rest => by
    show parseRun ((text.flatMap escapeByte ++ [34]) ++ rest) (.str none [], stack) = _
    rw [List.append_assoc, List.singleton_append, parseRun_stringBody]
    rfl
  | .arr [], stack, rest => rfl
  | .arr (x :: xs), stack, rest => by
    rw [Json.print, List.cons_append, List.append_assoc]
    show parseRun (x.print ++ _) (.firstItem, stack) = _
    rw [parseRun_firstItem, parseRun_print x, parseRun_moreItems xs]
    rfl
  | .obj [], stack, rest => rfl
  | .obj ((key, x) :: fields), stack, rest => by
    rw [Json.print, printString]
    simp only [List.cons_append, List.append_assoc, List.nil_append]
    show parseRun (key.flatMap escapeByte ++ _) (.str (some []) [], stack) = _
    rw [parseRun_key, parseRun_print x, parseRun_moreFields fields]
    rfl

/-- The items after a complete one, and the closing bracket. -/
theorem parseRun_moreItems : ∀ (xs : List Json) (v : Json) (done : List Json)
    (stack : List Frame) (rest : Bytes),
    parseRun (printMoreItems xs ++ rest) (doneMode v, .arr done :: stack) =
      parseRun rest (.after (.arr (done.reverse ++ v :: xs)), stack)
  | [], v, done, stack, rest => by
    rw [printMoreItems, List.singleton_append]
    exact parseRun_step (parseStep_doneMode v _ (by decide))
  | x :: xs, v, done, stack, rest => by
    have hcomma : parseStep (doneMode v, .arr done :: stack) 44 =
        some (.value, .arr (v :: done) :: stack) := parseStep_doneMode v _ (by decide)
    rw [printMoreItems, List.cons_append, List.append_assoc, parseRun_step hcomma,
      parseRun_print x, parseRun_moreItems xs, List.reverse_cons, List.append_assoc]
    rfl

/-- The fields after a complete one, and the closing brace. -/
theorem parseRun_moreFields : ∀ (fields : List (Bytes × Json)) (v : Json) (key : Bytes)
    (done : List (Bytes × Json)) (stack : List Frame) (rest : Bytes),
    parseRun (printMoreFields fields ++ rest) (doneMode v, .obj done key :: stack) =
      parseRun rest (.after (.obj (done.reverse ++ (key, v) :: fields)), stack)
  | [], v, key, done, stack, rest => by
    rw [printMoreFields, List.singleton_append]
    exact parseRun_step (parseStep_doneMode v _ (by decide))
  | (key', x) :: fields, v, key, done, stack, rest => by
    have hcomma : parseStep (doneMode v, .obj done key :: stack) 44 =
        some (.nextKey ((key, v) :: done), stack) := parseStep_doneMode v _ (by decide)
    rw [printMoreFields, printString, List.cons_append, parseRun_step hcomma]
    simp only [List.cons_append, List.append_assoc, List.nil_append]
    show parseRun (key'.flatMap escapeByte ++ _) (.str (some ((key, v) :: done)) [], stack) = _
    rw [parseRun_key, parseRun_print x, parseRun_moreFields fields, List.reverse_cons,
      List.append_assoc]
    rfl
end

/-! ### Whole texts -/

/-- A printed value parses back to itself. -/
theorem parse_print (v : Json) : Json.parse v.print = some v := by
  have hrun : parseRun v.print (.value, []) = some (doneMode v, []) := by
    have h := parseRun_print v [] []
    rwa [List.append_nil] at h
  rw [Json.parse, hrun]
  match v with
  | .num (.ofNat n) => rfl
  | .num (.negSucc n) => rfl
  | .null | .bool _ | .str _ | .arr _ | .obj _ => rfl

/-- A state in which the input may end. -/
def Idle (st : ParseState) : Prop := (parseEnd st).isSome

/-- At the end of a value outside every array and object, whatever is
accepted leaves the parser there. -/
theorem idle_step {st st' : ParseState} {b : UInt8} (hst : Idle st)
    (h : parseStep st b = some st') : Idle st' ∧ b ≠ 125 := by
  have hafter : ∀ v st', stepAfter v [] b = some st' → Idle st' ∧ b ≠ 125 := by
    intro v st' h
    by_cases hb : isJsonSpace b
    · simp only [stepAfter, if_pos hb, Option.some.injEq] at h
      subst h
      refine ⟨rfl, ?_⟩
      rintro rfl
      exact absurd hb (by decide)
    · simp [stepAfter, hb] at h
  match st, hst with
  | (.after v, []), _ => exact hafter v st' h
  | (.num neg (some n), []), _ =>
    simp only [parseStep] at h
    cases hd : digitValue b with
    | none =>
      rw [hd] at h
      exact hafter _ st' h
    | some d =>
      rw [hd] at h
      by_cases hn : n = 0
      · simp [hn] at h
      · simp only [if_neg hn, Option.some.injEq] at h
        subst h
        refine ⟨rfl, ?_⟩
        rintro rfl
        rw [show digitValue 125 = none by decide] at hd
        cases hd

/-- So a closing brace is never accepted there. -/
theorem parseRun_idle_brace (xs : Bytes) : ∀ st, Idle st → parseRun (xs ++ [125]) st = none := by
  induction xs with
  | nil =>
    intro st hst
    cases h : parseStep st 125 with
    | none => simp [parseRun, h]
    | some st' => exact absurd rfl (idle_step hst h).2
  | cons b xs ih =>
    intro st hst
    rw [List.cons_append, parseRun]
    cases h : parseStep st b with
    | none => rfl
    | some st' => exact ih st' (idle_step hst h).1

/-- The text of an object ends in a closing brace. -/
theorem printMoreFields_last : ∀ fields : List (Bytes × Json),
    ∃ xs, printMoreFields fields = xs ++ [125] := by
  intro fields
  induction fields with
  | nil => exact ⟨[], by rw [printMoreFields]; rfl⟩
  | cons field fields ih =>
    obtain ⟨key, v⟩ := field
    obtain ⟨xs, hxs⟩ := ih
    refine ⟨44 :: (printString key ++ 58 :: (v.print ++ xs)), ?_⟩
    rw [printMoreFields, hxs]
    simp

theorem print_obj_last (fields : List (Bytes × Json)) :
    ∃ xs, (Json.obj fields).print = xs ++ [125] := by
  match fields with
  | [] => exact ⟨[123], rfl⟩
  | (key, v) :: rest =>
    obtain ⟨xs, hxs⟩ := printMoreFields_last rest
    refine ⟨123 :: (printString key ++ 58 :: (v.print ++ xs)), ?_⟩
    rw [Json.print, hxs]
    simp

/-- A proper first part of a printed object does not parse. -/
theorem parse_prefix_print_obj {fields : List (Bytes × Json)} {p q : Bytes}
    (h : (Json.obj fields).print = p ++ q) (hq : q ≠ []) : Json.parse p = none := by
  obtain ⟨xs, hxs⟩ := print_obj_last fields
  obtain ⟨q', rfl⟩ : ∃ q', q = q' ++ [125] := by
    have hlast : (p ++ q).getLast? = some 125 := by rw [← h, hxs, List.getLast?_append]; rfl
    rw [List.getLast?_append, List.getLast?_eq_some_getLast hq, Option.some_or,
      ← List.getLast?_eq_some_getLast hq, List.getLast?_eq_some_iff] at hlast
    exact hlast
  have hwhole : parseRun (p ++ (q' ++ [125])) (.value, []) ≠ none := by
    have hrun := parseRun_print (.obj fields) [] []
    rw [List.append_nil, h] at hrun
    rw [hrun]
    simp [parseRun]
  rw [parseRun_append] at hwhole
  rw [Json.parse]
  cases hp : parseRun p (.value, []) with
  | none => rfl
  | some st =>
    rw [hp, Option.bind_some] at hwhole
    rw [Option.bind_some]
    cases hend : parseEnd st with
    | none => rfl
    | some v =>
      have hidle : Idle st := by rw [Idle, hend]; rfl
      exact absurd (parseRun_idle_brace q' st hidle) hwhole

theorem isAsciiWhitespace_of_isJsonSpace {b : UInt8} (h : isJsonSpace b = true) :
    isAsciiWhitespace b = true := by
  simp only [isJsonSpace, isAsciiWhitespace, Bool.or_eq_true] at h ⊢
  rcases h with ((h | h) | h) | h <;> simp [h]

/-- After a complete object nothing but whitespace is accepted. -/
theorem parseRun_after_nonblank (v : Json) (xs : Bytes) (h : isBlank xs = false) :
    parseRun xs (.after v, []) = none := by
  induction xs with
  | nil => exact absurd h (by decide)
  | cons b xs ih =>
    by_cases hb : isJsonSpace b = true
    · have hxs : isBlank xs = false := by
        simpa [isBlank, isAsciiWhitespace_of_isJsonSpace hb] using h
      rw [parseRun_step (show parseStep (.after v, []) b = some (.after v, []) by
        simp [parseStep, stepAfter, hb])]
      exact ih hxs
    · rw [parseRun, show parseStep (.after v, []) b = none by simp [parseStep, stepAfter, hb]]
      rfl

/-- A printed object followed by anything but whitespace does not parse. -/
theorem parse_print_append_nonblank (fields : List (Bytes × Json)) {xs : Bytes}
    (h : isBlank xs = false) : Json.parse ((Json.obj fields).print ++ xs) = none := by
  rw [Json.parse, parseRun_print, show doneMode (.obj fields) = .after (.obj fields) from rfl,
    parseRun_after_nonblank _ xs h]
  rfl

/-! ### Printed values are single lines -/

theorem newline_not_mem_escapeByte : ∀ b : UInt8, newline ∉ escapeByte b := by
  have hbytes : ∀ n, n < 256 → newline ∉ escapeByte (UInt8.ofNat n) := by decide +kernel
  intro b
  have h := hbytes b.toNat b.toNat_lt
  rwa [UInt8.ofNat_toNat] at h

theorem newline_not_mem_printString (text : Bytes) : newline ∉ printString text := by
  have hbody : newline ∉ text.flatMap escapeByte := by
    intro h
    obtain ⟨b, -, hb⟩ := List.mem_flatMap.1 h
    exact newline_not_mem_escapeByte b hb
  simp only [printString, List.mem_cons, List.mem_append, List.not_mem_nil, or_false, not_or]
  exact ⟨by decide, hbody, by decide⟩

mutual
/-- A printed value has no newline. -/
theorem newline_not_mem_print : ∀ v : Json, newline ∉ v.print
  | .null => by decide
  | .bool true => by decide
  | .bool false => by decide
  | .num (.ofNat n) => not_mem_printNat (by decide) n
  | .num (.negSucc n) => by
    simp only [Json.print, printInt, List.mem_cons, not_or]
    exact ⟨by decide, not_mem_printNat (by decide) (n + 1)⟩
  | .str text => newline_not_mem_printString text
  | .arr [] => by decide
  | .arr (x :: xs) => by
    simp only [Json.print, List.mem_cons, List.mem_append, not_or]
    exact ⟨by decide, newline_not_mem_print x, newline_not_mem_moreItems xs⟩
  | .obj [] => by decide
  | .obj ((key, x) :: fields) => by
    simp only [Json.print, List.mem_cons, List.mem_append, not_or]
    exact ⟨by decide, newline_not_mem_printString key, by decide, newline_not_mem_print x,
      newline_not_mem_moreFields fields⟩

theorem newline_not_mem_moreItems : ∀ xs : List Json, newline ∉ printMoreItems xs
  | [] => by rw [printMoreItems]; decide
  | x :: xs => by
    simp only [printMoreItems, List.mem_cons, List.mem_append, not_or]
    exact ⟨by decide, newline_not_mem_print x, newline_not_mem_moreItems xs⟩

theorem newline_not_mem_moreFields : ∀ fields : List (Bytes × Json),
    newline ∉ printMoreFields fields
  | [] => by rw [printMoreFields]; decide
  | (key, x) :: fields => by
    simp only [printMoreFields, List.mem_cons, List.mem_append, not_or]
    exact ⟨by decide, newline_not_mem_printString key, by decide, newline_not_mem_print x,
      newline_not_mem_moreFields fields⟩
end

/-- A printed object starts with its opening brace, so no first part of
it is blank but the empty one. -/
theorem print_obj_head (fields : List (Bytes × Json)) :
    ∃ rest, (Json.obj fields).print = 123 :: rest := by
  match fields with
  | [] => exact ⟨[125], rfl⟩
  | (key, v) :: rest => exact ⟨_, by rw [Json.print]⟩

theorem isBlank_brace (rest : Bytes) : isBlank (123 :: rest) = false := by
  rw [isBlank, List.all_cons, show isAsciiWhitespace 123 = false by decide, Bool.false_and]

theorem isBlank_print_obj (fields : List (Bytes × Json)) :
    isBlank (Json.obj fields).print = false := by
  obtain ⟨rest, heq⟩ := print_obj_head fields
  rw [heq, isBlank_brace]

end Durable
