/-
**Binary floating point, exactly.**

A finite number in the 64-bit binary format is `± significand · 2 ^ scale`, with at most 53 bits in
the significand and the scale between `-1074` and `971`; the significand has all 53 bits unless the
scale is the least. Numbers of this form are made by rounding a quotient of natural numbers to the
nearest one, ties to the even significand.

* `rounded?`: the nearest such number, or none when it is too large;
* `times?`, `over?`: rounded product and quotient of magnitudes.
-/

namespace ShaderForge.Decimal

/-- Whether significand and scale are those of a finite number, written in its one normal form. -/
def isNormalForm (significand : Nat) (scale : Int) : Bool :=
  decide (significand < Nat.pow 2 53) && decide (-1074 ≤ scale) && decide (scale ≤ 971)
    && (decide (Nat.pow 2 52 ≤ significand) || scale == -1074)

/-- **A finite number** `± significand · 2 ^ scale`. -/
structure Double where
  negative : Bool
  significand : Nat
  scale : Int
  normal : isNormalForm significand scale = true
deriving DecidableEq

namespace Double

/-- Zero, of either sign. -/
def zero (negative : Bool) : Double := ⟨negative, 0, -1074, by decide⟩

/-- Whether the number is zero. -/
def isZero (number : Double) : Bool := number.significand == 0

/-- The number with another sign. -/
def withSign (number : Double) (negative : Bool) : Double := { number with negative }

/-- The magnitude as a numerator and a denominator. -/
def ratio (number : Double) : Nat × Nat :=
  if 0 ≤ number.scale then (number.significand * Nat.pow 2 number.scale.toNat, 1)
  else (number.significand, Nat.pow 2 (-number.scale).toNat)

/-- A quotient rounded to the nearest natural number, ties to the even one. -/
def roundDiv (numerator denominator : Nat) : Nat :=
  let whole := numerator / denominator
  let twice := 2 * (numerator % denominator)
  if twice < denominator then whole
  else if denominator < twice then whole + 1
  else if whole % 2 = 0 then whole else whole + 1

/-- `numerator / denominator` in units of `2 ^ scale`, rounded. -/
def inUnits (numerator denominator : Nat) (scale : Int) : Nat :=
  if 0 ≤ scale then roundDiv numerator (denominator * Nat.pow 2 scale.toNat)
  else roundDiv (numerator * Nat.pow 2 (-scale).toNat) denominator

/-- The least scale at which a quotient takes at most 53 bits, or one more than that. -/
def scaleFor (numerator denominator : Nat) : Int :=
  max (-1074) ((Nat.log2 numerator : Int) - (Nat.log2 denominator : Int) - 53)

/-- **A quotient rounded to the nearest finite number**, if there is one. -/
def rounded? (negative : Bool) (numerator denominator : Nat) : Option Double :=
  let scale := scaleFor numerator denominator
  let attempt (scale : Int) : Option Double :=
    if normal : isNormalForm (inUnits numerator denominator scale) scale = true then
      some ⟨negative, inUnits numerator denominator scale, scale, normal⟩
    else none
  if numerator = 0 then some (zero negative)
  else (attempt scale).or ((attempt (scale + 1)).or (attempt (scale + 2)))

/-- The rounded product of two magnitudes. -/
def times? (left right : Double) : Option Double :=
  rounded? false (left.ratio.1 * right.ratio.1) (left.ratio.2 * right.ratio.2)

/-- The rounded quotient of two magnitudes. -/
def over? (left right : Double) : Option Double :=
  rounded? false (left.ratio.1 * right.ratio.2) (left.ratio.2 * right.ratio.1)

/-- The natural number nearest in the format. -/
def ofNat? (value : Nat) : Option Double := rounded? false value 1

end Double

end ShaderForge.Decimal
