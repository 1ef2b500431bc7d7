/-
**Letters without case.**

Suffixes, tags, markers and output formats are compared without regard to the case of ASCII letters;
every other character counts as it is.

* `sameIgnoringCase`: equal up to the case of ASCII letters;
* `endsIgnoringCase`: ends in a suffix that is itself written in lower case;
* `decimal?`: a number in ASCII digits, within a bound.
-/

import ShaderForge.Text.Pieces

namespace ShaderForge.Text

/-- ASCII letters in lower case. -/
def lower (text : String) : String := String.ofList (text.toList.map Char.toLower)

/-- ASCII letters in upper case. -/
def upper (text : String) : String := String.ofList (text.toList.map Char.toUpper)

/-- Equal up to the case of ASCII letters. -/
def sameIgnoringCase (left right : String) : Bool := lower left == lower right

/-- Whether `text` ends in the lower-case `suffix`, up to the case of ASCII letters. -/
def endsIgnoringCase (suffix text : String) : Bool :=
  suffix.toList.isSuffixOf (text.toList.map Char.toLower)

/-- The number that ASCII digits write. -/
def digitsValue (digits : List Char) : Nat :=
  digits.foldl (fun value digit => value * 10 + (digit.toNat - '0'.toNat)) 0

/-- **A number below a bound**: one or more ASCII digits, with any number of leading zeros. -/
def decimal? (bound : Nat) (digits : List Char) : Option Nat :=
  if digits.isEmpty || !digits.all Char.isDigit then none
  else if digitsValue digits < bound then some (digitsValue digits)
  else none

end ShaderForge.Text
