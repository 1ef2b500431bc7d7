/-
**Writing JSON.**

Values are written over several lines, two spaces deeper for each level; an empty list or object
stays on its line. Quotes, backslashes and control characters are escaped, everything else is
written as it is.

* `quoted`: text between quotes;
* `written`: the characters of a value at a given level;
* `render`: the text of a document.
-/

import ShaderForge.Decimal.Shortest
import ShaderForge.Json.Value

namespace ShaderForge.Json

/-! ## Part 1 — text and numbers -/

/-- A hexadecimal digit in lower case. -/
def hexDigit (value : Nat) : Char := Nat.digitChar (value % 16)

/-- A character as it is written between quotes. -/
def escaped (c : Char) : List Char :=
  if c = '"' then ['\\', '"']
  else if c = '\\' then ['\\', '\\']
  else if c.toNat = 8 then ['\\', 'b']
  else if c.toNat = 12 then ['\\', 'f']
  else if c = '\n' then ['\\', 'n']
  else if c = '\r' then ['\\', 'r']
  else if c = '\t' then ['\\', 't']
  else if c.toNat < 0x20 then ['\\', 'u', '0', '0', hexDigit (c.toNat / 16), hexDigit c.toNat]
  else [c]

/-- Text between quotes. -/
def quoted (text : String) : List Char := '"' :: (text.toList.flatMap escaped ++ ['"'])

/-- A number. -/
def writtenNumber : JsonNumber → List Char
  | .integer value =>
    if value < 0 then '-' :: Nat.toDigits 10 value.natAbs else Nat.toDigits 10 value.natAbs
  | .real value => Decimal.render .document value

/-! ## Part 2 — values -/

/-- A new line at a level. -/
def newline (level : Nat) : List Char := '\n' :: List.replicate (2 * level) ' '

mutual

/-- **The characters of a value** whose lines are at the given level. -/
def written (level : Nat) : Json → List Char
  | .null => ['n', 'u', 'l', 'l']
  | .bool true => ['t', 'r', 'u', 'e']
  | .bool false => ['f', 'a', 'l', 's', 'e']
  | .number value => writtenNumber value
  | .text content => quoted content
  | .list [] => ['[', ']']
  | .list (item :: items) =>
    '[' :: newline (level + 1) ++ written (level + 1) item ++ writtenItems (level + 1) items
      ++ newline level ++ [']']
  | .object [] => ['{', '}']
  | .object ((name, value) :: fields) =>
    '{' :: newline (level + 1) ++ quoted name ++ ':' :: ' ' :: written (level + 1) value
      ++ writtenFields (level + 1) fields ++ newline level ++ ['}']

/-- Further items of a list, each on a line of its own. -/
def writtenItems (level : Nat) : List Json → List Char
  | [] => []
  | item :: items => ',' :: newline level ++ written level item ++ writtenItems level items

/-- Further fields of an object, each on a line of its own. -/
def writtenFields (level : Nat) : List (String × Json) → List Char
  | [] => []
  | (name, value) :: fields =>
    ',' :: newline level ++ quoted name ++ ':' :: ' ' :: written level value
      ++ writtenFields level fields

end

/-- **The text of a document.** -/
def render (value : Json) : String := String.ofList (written 0 value)

end ShaderForge.Json
