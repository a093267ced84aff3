import Mathlib.Order.Compare
import Mathlib.Data.List.Basic
import Mathlib.Data.Char

/-!
# `Centrald.Release.Semver`: versions and their order

The model of `parseSemver` and `compareSemver` of the release scripts
(`scripts/lib/release-metadata.js`). A version is read character by
character where the script has a regular expression. Its three numbers
and the numeric identifiers are `BigInt`s there and naturals here.
-/

set_option autoImplicit false

namespace Centrald.Release

/-- An identifier of the pre-release part: a text of digits, letters and
hyphens. -/
abbrev Identifier := List Char

/-- What `parseSemver` returns. -/
structure Semver where
  major : Nat
  minor : Nat
  patch : Nat
  prerelease : List Identifier
  deriving DecidableEq

/-- `/^\d+$/u`. -/
def isNumeric (text : List Char) : Bool := text != [] && text.all Char.isDigit

/-- The number that digits stand for. -/
def numberOf (digits : List Char) : Nat :=
  digits.foldl (fun n c => 10 * n + (c.toNat - '0'.toNat)) 0

/-- `0|[1-9]\d*`. -/
def parseNumber (text : List Char) : Option Nat :=
  if isNumeric text && (text == ['0'] || text.head? != some '0') then some (numberOf text) else none

/-- `[0-9A-Za-z-]+(?:\.[0-9A-Za-z-]+)*`. -/
def parseIdentifiers (text : List Char) : Option (List Identifier) :=
  let identifiers := text.splitOn '.'
  if identifiers.all fun i => i != [] && i.all fun c => c.isAlphanum || c == '-' then
    some identifiers
  else none

/-- A numeric identifier of more than one digit that starts with a zero. -/
def hasLeadingZero (identifier : Identifier) : Bool :=
  isNumeric identifier && decide (1 < identifier.length) && identifier.head? == some '0'

def parseSemver (value : String) : Option Semver := do
  let text := value.toList
  -- no character of the numbers is a hyphen or a plus
  let core := text.takeWhile fun c => c != '-' && c != '+'
  let rest := text.drop core.length
  let (prerelease, build) ← match rest with
    | '-' :: rest =>
      let prerelease := rest.takeWhile (· != '+')
      some (some prerelease, (rest.drop prerelease.length))
    | build => some (none, build)
  match build with
  | [] => pure ()
  | _ :: build => discard (parseIdentifiers build)
  let identifiers ← match prerelease with
    | none => some []
    | some text => parseIdentifiers text
  if identifiers.any hasLeadingZero then none
  match core.splitOn '.' with
  | [major, minor, patch] =>
    return ⟨← parseNumber major, ← parseNumber minor, ← parseNumber patch, identifiers⟩
  | _ => none

/-- One round of the loop over the identifiers. -/
def compareIdentifiers (left right : Identifier) : Ordering :=
  if isNumeric left && isNumeric right then compare (numberOf left) (numberOf right)
  else if isNumeric left then .lt
  else if isNumeric right then .gt
  else compare left right

/-- The loop over the identifiers. -/
def comparePrerelease : List Identifier → List Identifier → Ordering
  | [], [] => .eq
  | [], _ => .lt
  | _, [] => .gt
  | left :: lefts, right :: rights =>
    (compareIdentifiers left right).then (comparePrerelease lefts rights)

/-- `compareSemver` on what was parsed. -/
def compareSemver (a b : Semver) : Ordering :=
  (compare a.major b.major).then <| (compare a.minor b.minor).then <|
    (compare a.patch b.patch).then <|
      match a.prerelease, b.prerelease with
      | [], [] => .eq
      | [], _ => .gt
      | _, [] => .lt
      | left, right => comparePrerelease left right

end Centrald.Release
