import Mathlib.Algebra.Group.Int.Defs
import Mathlib.Algebra.Group.Nat.Defs
import Mathlib.Data.List.Basic

/-!
# `Durable.JsonValue`: JSON values and a store of exact decimals

A program keeps a JSON number in one of three forms: a natural number or
a negative one of 64 bits, or a float. A text without a point and an
exponent is read into the first form that can hold it, any other text
into a float. Equality of values tells the forms apart.

A store of exact decimals reads the printed text of a number, keeps its
value and its digits behind the point, and prints it without an
exponent. `JsonNumber.stored` is the way there and back. An integer
survives it. A float survives if its expanded text is not one of an
integer of 64 bits, and if the float read from it is the old one
(`JsonNumber.stored_eq_iff`). A value survives if its numbers do
(`JsonValue.stored_eq_iff`).

Floats are a type `F` with a `FloatCodec`: how the program prints them,
and what it reads from an expanded decimal.
-/

set_option autoImplicit false

namespace Durable

/-! ### Numbers -/

/-- A printed number: `digits · 10 ^ exponent`, with a sign. -/
structure DecimalText where
  negative : Bool
  digits : Nat
  exponent : Int
  deriving DecidableEq

/-- An exact decimal: `coefficient / 10 ^ scale`, with a sign. Its text
has `scale` digits behind the point and no exponent. -/
structure Decimal where
  negative : Bool
  coefficient : Nat
  scale : Nat

/-- The decimal of a text. Zero has no sign. -/
def DecimalText.exact (text : DecimalText) : Decimal :=
  let negative := text.negative && decide (text.digits ≠ 0)
  match text.exponent with
  | .ofNat n => ⟨negative, text.digits * 10 ^ n, 0⟩
  | .negSucc n => ⟨negative, text.digits, n + 1⟩

/-- How a program prints a float, and what it reads from a decimal. -/
structure FloatCodec (F : Type) where
  print : F → DecimalText
  parse : Decimal → F

/-- A number as `serde_json` holds it: an integer of 64 bits, or else a
float. -/
inductive JsonNumber (F : Type) where
  | posInt (n : Fin (2 ^ 64))
  /-- The number `-(n + 1)`. -/
  | negInt (n : Fin (2 ^ 63))
  | float (f : F)
  deriving DecidableEq

/-- Whether the text of the decimal is read as an integer. -/
def Decimal.isInteger (d : Decimal) : Bool :=
  decide (d.scale = 0) &&
    if d.negative then decide (0 < d.coefficient ∧ d.coefficient ≤ 2 ^ 63)
    else decide (d.coefficient < 2 ^ 64)

section Numbers

variable {F : Type} (codec : FloatCodec F)

/-- What is read from the text of a decimal. -/
def Decimal.read (d : Decimal) : JsonNumber F :=
  if d.scale = 0 then
    if d.negative then
      if h : 0 < d.coefficient ∧ d.coefficient ≤ 2 ^ 63 then
        .negInt ⟨d.coefficient - 1, by omega⟩
      else .float (codec.parse d)
    else if h : d.coefficient < 2 ^ 64 then .posInt ⟨d.coefficient, h⟩
    else .float (codec.parse d)
  else .float (codec.parse d)

/-- The text of a number. -/
def JsonNumber.text : JsonNumber F → DecimalText
  | .posInt n => ⟨false, n, 0⟩
  | .negInt n => ⟨true, n + 1, 0⟩
  | .float f => codec.print f

/-- A number after it was stored. -/
def JsonNumber.stored (n : JsonNumber F) : JsonNumber F :=
  (n.text codec).exact.read codec

/-- An integer; or a float whose decimal is not read as an integer, and
is read as this float. -/
def JsonNumber.Survives : JsonNumber F → Prop
  | .posInt _ => True
  | .negInt _ => True
  | .float f => (codec.print f).exact.isInteger = false ∧ codec.parse (codec.print f).exact = f

theorem Decimal.read_of_not_integer {d : Decimal} (h : d.isInteger = false) :
    d.read codec = .float (codec.parse d) := by
  rw [Decimal.isInteger, Bool.and_eq_false_iff] at h
  rw [Decimal.read]
  grind

/-- An integer is never read as a float. -/
theorem Decimal.read_ne_float {d : Decimal} (h : d.isInteger = true) (f : F) :
    d.read codec ≠ .float f := by
  rw [Decimal.isInteger, Bool.and_eq_true, decide_eq_true_eq] at h
  obtain ⟨hscale, hrange⟩ := h
  rw [Decimal.read, if_pos hscale]
  grind

theorem JsonNumber.stored_posInt (n : Fin (2 ^ 64)) :
    (JsonNumber.posInt n : JsonNumber F).stored codec = .posInt n := by
  simp [JsonNumber.stored, JsonNumber.text, DecimalText.exact, Decimal.read]

theorem JsonNumber.stored_negInt (n : Fin (2 ^ 63)) :
    (JsonNumber.negInt n : JsonNumber F).stored codec = .negInt n := by
  have hle : (n : Nat) ≤ 2 ^ 63 - 1 := by omega
  simpa [JsonNumber.stored, JsonNumber.text, DecimalText.exact, Decimal.read] using hle

/-- The numbers that come back as they were. -/
theorem JsonNumber.stored_eq_iff (n : JsonNumber F) : n.stored codec = n ↔ n.Survives codec := by
  cases n with
  | posInt n => exact ⟨fun _ => trivial, fun _ => stored_posInt codec n⟩
  | negInt n => exact ⟨fun _ => trivial, fun _ => stored_negInt codec n⟩
  | float f =>
    constructor
    · intro hstored
      cases hinteger : (codec.print f).exact.isInteger with
      | true => exact absurd hstored (Decimal.read_ne_float codec hinteger f)
      | false =>
        have hread := Decimal.read_of_not_integer codec hinteger
        exact ⟨hinteger, JsonNumber.float.inj (hread.symm.trans hstored)⟩
    · rintro ⟨hinteger, hparse⟩
      show (codec.print f).exact.read codec = _
      rw [Decimal.read_of_not_integer codec hinteger, hparse]

end Numbers

/-! ### Values -/

/-- A JSON value. The fields of an object stand in the order of a map:
by their keys, each once. -/
inductive JsonValue (F : Type) where
  | null
  | bool (b : Bool)
  | number (n : JsonNumber F)
  | string (text : String)
  | array (items : List (JsonValue F))
  | object (fields : List (String × JsonValue F))

section Equality

variable {F : Type} [DecidableEq F]

mutual
/-- Equality of values. -/
def JsonValue.same : JsonValue F → JsonValue F → Bool
  | .null, .null => true
  | .bool a, .bool b => decide (a = b)
  | .number a, .number b => decide (a = b)
  | .string a, .string b => decide (a = b)
  | .array xs, .array ys => sameItems xs ys
  | .object xs, .object ys => sameFields xs ys
  | _, _ => false

def sameItems : List (JsonValue F) → List (JsonValue F) → Bool
  | [], [] => true
  | x :: xs, y :: ys => x.same y && sameItems xs ys
  | _, _ => false

def sameFields : List (String × JsonValue F) → List (String × JsonValue F) → Bool
  | [], [] => true
  | (k, x) :: xs, (l, y) :: ys => decide (k = l) && x.same y && sameFields xs ys
  | _, _ => false
end

mutual
theorem JsonValue.same_iff : ∀ x y : JsonValue F, x.same y = true ↔ x = y
  | .null, y => by cases y <;> simp [JsonValue.same]
  | .bool a, y => by cases y <;> simp [JsonValue.same]
  | .number a, y => by cases y <;> simp [JsonValue.same]
  | .string a, y => by cases y <;> simp [JsonValue.same]
  | .array xs, y => by cases y <;> simp [JsonValue.same, sameItems_iff xs]
  | .object xs, y => by cases y <;> simp [JsonValue.same, sameFields_iff xs]

theorem sameItems_iff : ∀ xs ys : List (JsonValue F), sameItems xs ys = true ↔ xs = ys
  | [], ys => by cases ys <;> simp [sameItems]
  | x :: xs, ys => by cases ys <;> simp [sameItems, x.same_iff, sameItems_iff xs]

theorem sameFields_iff : ∀ xs ys : List (String × JsonValue F), sameFields xs ys = true ↔ xs = ys
  | [], ys => by cases ys <;> simp [sameFields]
  | (k, x) :: xs, ys => by
    cases ys with
    | nil => simp [sameFields]
    | cons y ys => simp [sameFields, x.same_iff, sameFields_iff xs, Prod.ext_iff]
end

instance : DecidableEq (JsonValue F) := fun x y => decidable_of_iff _ (x.same_iff y)

end Equality

section Values

variable {F : Type} (codec : FloatCodec F)

mutual
/-- A value after it was stored. -/
def JsonValue.stored : JsonValue F → JsonValue F
  | .null => .null
  | .bool b => .bool b
  | .number n => .number (n.stored codec)
  | .string text => .string text
  | .array items => .array (storedItems items)
  | .object fields => .object (storedFields fields)

def storedItems : List (JsonValue F) → List (JsonValue F)
  | [] => []
  | x :: rest => x.stored :: storedItems rest

def storedFields : List (String × JsonValue F) → List (String × JsonValue F)
  | [] => []
  | (key, x) :: rest => (key, x.stored) :: storedFields rest
end

mutual
/-- The numbers of a value. -/
def JsonValue.numbers : JsonValue F → List (JsonNumber F)
  | .null | .bool _ | .string _ => []
  | .number n => [n]
  | .array items => numbersOfItems items
  | .object fields => numbersOfFields fields

def numbersOfItems : List (JsonValue F) → List (JsonNumber F)
  | [] => []
  | x :: rest => x.numbers ++ numbersOfItems rest

def numbersOfFields : List (String × JsonValue F) → List (JsonNumber F)
  | [] => []
  | (_, x) :: rest => x.numbers ++ numbersOfFields rest
end

mutual
/-- The texts and keys of a value. -/
def JsonValue.texts : JsonValue F → List String
  | .null | .bool _ | .number _ => []
  | .string text => [text]
  | .array items => textsOfItems items
  | .object fields => textsOfFields fields

def textsOfItems : List (JsonValue F) → List String
  | [] => []
  | x :: rest => x.texts ++ textsOfItems rest

def textsOfFields : List (String × JsonValue F) → List String
  | [] => []
  | (key, x) :: rest => key :: (x.texts ++ textsOfFields rest)
end

/-- The value of a key, if the value is an object. -/
def JsonValue.get (v : JsonValue F) (key : String) : Option (JsonValue F) :=
  match v with
  | .object fields => fields.lookup key
  | _ => none

/-- The text of a value, if it is one. -/
def JsonValue.asStr : JsonValue F → Option String
  | .string text => some text
  | _ => none

mutual
/-- The values that come back as they were. -/
theorem JsonValue.stored_eq_iff :
    ∀ v : JsonValue F, v.stored codec = v ↔ ∀ n ∈ v.numbers, n.Survives codec
  | .null => by simp [JsonValue.stored, JsonValue.numbers]
  | .bool b => by simp [JsonValue.stored, JsonValue.numbers]
  | .number n => by simp [JsonValue.stored, JsonValue.numbers, n.stored_eq_iff codec]
  | .string text => by simp [JsonValue.stored, JsonValue.numbers]
  | .array items => by simp [JsonValue.stored, JsonValue.numbers, storedItems_eq_iff items]
  | .object fields => by simp [JsonValue.stored, JsonValue.numbers, storedFields_eq_iff fields]

theorem storedItems_eq_iff : ∀ items : List (JsonValue F), storedItems codec items = items ↔
      ∀ n ∈ numbersOfItems items, n.Survives codec
  | [] => by simp [storedItems, numbersOfItems]
  | x :: rest => by
    simp only [storedItems, numbersOfItems, List.cons.injEq, List.forall_mem_append]
    rw [x.stored_eq_iff, storedItems_eq_iff rest]

theorem storedFields_eq_iff :
    ∀ fields : List (String × JsonValue F), storedFields codec fields = fields ↔
      ∀ n ∈ numbersOfFields fields, n.Survives codec
  | [] => by simp [storedFields, numbersOfFields]
  | (key, x) :: rest => by
    simp only [storedFields, numbersOfFields, List.cons.injEq, Prod.mk.injEq, true_and,
      List.forall_mem_append]
    rw [x.stored_eq_iff, storedFields_eq_iff rest]
end

end Values

end Durable
