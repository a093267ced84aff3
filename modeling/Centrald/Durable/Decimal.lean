import Centrald.Durable.JsonProofs
import Mathlib.Algebra.Group.Int.Defs
import Mathlib.Algebra.Group.Nat.Defs

/-!
# `Durable.Decimal`: decimal numbers as bytes

`parseI64` is the parser of signed 64-bit decimals: an optional sign,
at least one digit, and a value in range. It reads back what
`printNat` prints (`parseI64_printNat`). `splitOnce` cuts a byte string
at the first occurrence of a byte.
-/

set_option autoImplicit false

namespace Durable

/-- The value of some digits after the value of those before them. -/
def parseDigits : Nat → Bytes → Option Nat
  | n, [] => some n
  | n, b :: rest =>
    match digitValue b with
    | some d => parseDigits (10 * n + d) rest
    | none => none

/-- A sign, where there is one, and the rest. The flag is set for a minus. -/
def splitSign : Bytes → Bool × Bytes
  | 45 :: rest => (true, rest)
  | 43 :: rest => (false, rest)
  | digits => (false, digits)

/-- `str::parse::<i64>`. -/
def parseI64 (text : Bytes) : Option Int :=
  if (splitSign text).2 = [] then none
  else
    match parseDigits 0 (splitSign text).2 with
    | none => none
    | some n =>
      let value : Int := if (splitSign text).1 then -n else n
      if -2 ^ 63 ≤ value ∧ value < 2 ^ 63 then some value else none

/-- `str::split_once` at a byte. -/
def splitOnce (b : UInt8) : Bytes → Option (Bytes × Bytes)
  | [] => none
  | c :: rest => if c = b then some ([], rest) else (splitOnce b rest).map fun p => (c :: p.1, p.2)

theorem parseDigits_append (n : Nat) (xs ys : Bytes) :
    parseDigits n (xs ++ ys) = (parseDigits n xs).bind fun m => parseDigits m ys := by
  induction xs generalizing n with
  | nil => rfl
  | cons b rest ih =>
    rw [List.cons_append, parseDigits, parseDigits]
    cases digitValue b with
    | none => rfl
    | some d => exact ih (10 * n + d)

theorem parseDigits_printNat (n : Nat) : parseDigits 0 (printNat n) = some n := by
  induction n using Nat.strongRecOn with
  | ind n ih =>
    by_cases h : n < 10
    · rw [printNat_of_lt h, parseDigits, digitValue_digitChar n h]
      simp [parseDigits]
    · have hlt : n % 10 < 10 := Nat.mod_lt _ (by decide)
      have hvalue : 10 * (n / 10) + n % 10 = n := by omega
      rw [printNat_of_le (by omega), parseDigits_append, ih (n / 10) (by omega),
        Option.bind_some, parseDigits, digitValue_digitChar _ hlt]
      simp [parseDigits, hvalue]

theorem splitSign_cons {b : UInt8} (h45 : b ≠ 45) (h43 : b ≠ 43) (rest : Bytes) :
    splitSign (b :: rest) = (false, b :: rest) := by
  unfold splitSign
  grind

/-- A decimal has no sign. -/
theorem splitSign_printNat (n : Nat) : splitSign (printNat n) = (false, printNat n) := by
  obtain ⟨d, rest, -, heq⟩ := printNat_head n
  have hminus : (45 : UInt8) ∉ printNat n := not_mem_printNat (by decide) n
  have hplus : (43 : UInt8) ∉ printNat n := not_mem_printNat (by decide) n
  rw [heq] at hminus hplus ⊢
  exact splitSign_cons (fun hc => hminus (hc ▸ List.mem_cons_self))
    (fun hc => hplus (hc ▸ List.mem_cons_self)) rest

theorem printNat_ne_nil (n : Nat) : printNat n ≠ [] := by
  obtain ⟨d, rest, -, heq⟩ := printNat_head n
  rw [heq]
  exact List.cons_ne_nil _ _

/-- A number in range reads back. -/
theorem parseI64_printNat {n : Nat} (h : n < 2 ^ 63) : parseI64 (printNat n) = some (n : Int) := by
  have hrange : -2 ^ 63 ≤ (n : Int) ∧ (n : Int) < 2 ^ 63 := by omega
  rw [parseI64, splitSign_printNat, if_neg (printNat_ne_nil n), parseDigits_printNat]
  grind

/-- The first occurrence of a byte. -/
theorem splitOnce_append {b : UInt8} {xs : Bytes} (hxs : b ∉ xs) (ys : Bytes) :
    splitOnce b (xs ++ b :: ys) = some (xs, ys) := by
  induction xs with
  | nil => simp [splitOnce]
  | cons c rest ih =>
    have hc : c ≠ b := fun h => hxs (h ▸ List.mem_cons_self)
    have hrest : b ∉ rest := fun h => hxs (List.mem_cons_of_mem c h)
    rw [List.cons_append, splitOnce, if_neg hc, ih hrest]
    rfl

end Durable
