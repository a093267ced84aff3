import Mathlib.Logic.Basic

/-!
# `Centrald.Common.Text`: the character classes of the standard library

What Rust's `char::is_control`, `char::is_whitespace`, `str::trim` and the
`{:?}` of a text say, where a check or the text of an error depends on
them.
-/

set_option autoImplicit false

namespace Centrald.Common

/-- `char::is_control`. -/
def isControl (c : Char) : Bool := c.toNat < 32 || (127 ≤ c.toNat && c.toNat < 160)

/-- `char::is_whitespace`, which is the property `White_Space` of Unicode. -/
def isWhitespace (c : Char) : Bool :=
  (9 ≤ c.toNat && c.toNat ≤ 13) || (8192 ≤ c.toNat && c.toNat ≤ 8202) ||
    [32, 133, 160, 5760, 8232, 8233, 8239, 8287, 12288].contains c.toNat

/-- `text.trim().is_empty()`. -/
def isBlankText (text : String) : Bool := text.toList.all isWhitespace

/-- A character in the `{:?}` of a text. Of the characters that are
escaped as `\u`, the model has the control characters only. -/
def debugChar (c : Char) : String :=
  if c = '"' then "\\\""
  else if c = '\\' then "\\\\"
  else if c = '\n' then "\\n"
  else if c = '\r' then "\\r"
  else if c = '\t' then "\\t"
  else if c.toNat = 0 then "\\0"
  else if isControl c then
    "\\u\x7b" ++ String.ofList (Nat.toDigits 16 c.toNat) ++ "\x7d"
  else c.toString

/-- The `{:?}` of a text. -/
def debugText (text : String) : String :=
  "\"" ++ String.join (text.toList.map debugChar) ++ "\""

example : debugText "/bin/z\"sh\n" = "\"/bin/z\\\"sh\\n\"" := by decide

end Centrald.Common
