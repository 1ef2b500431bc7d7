/-
**Numbers with a fixed number of places.**

A rational number is written with a given number of decimal places, rounded to the nearest such
number, ties to the even one. The sign of a negative number is kept even when it rounds to zero.

* `fixed`: the text of a number;
* `Double.toRat`: a floating point number as a rational one.
-/

import ShaderForge.Decimal.Double

namespace ShaderForge.Decimal

/-- A floating point number as a rational one. -/
def Double.toRat (number : Double) : Rat :=
  let magnitude : Rat := (number.ratio.1 : Rat) / (number.ratio.2 : Rat)
  if number.negative then -magnitude else magnitude

/-- The digits of a number, at least `width` of them. -/
def paddedDigits (width value : Nat) : List Char :=
  let digits := (toString value).toList
  List.replicate (width - digits.length) '0' ++ digits

/-- The magnitude of a number in units of the last place. -/
def unitsOf (places : Nat) (value : Rat) : Nat :=
  Double.roundDiv (value.num.natAbs * Nat.pow 10 places) value.den

/-- **The text of a number** with a fixed number of places. -/
def fixed (places : Nat) (value : Rat) : String :=
  let units := unitsOf places value
  let mark := if value < 0 then "-" else ""
  let whole := toString (units / Nat.pow 10 places)
  if places = 0 then mark ++ whole
  else mark ++ whole ++ "." ++ String.ofList (paddedDigits places (units % Nat.pow 10 places))

end ShaderForge.Decimal
