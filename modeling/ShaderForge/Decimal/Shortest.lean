/-
**The fewest digits that read back.**

A finite number is written with the fewest decimal digits that still round to it, and among those
with the digits nearest to it. The reals that round to `m · 2 ^ q` form an interval around it, with
its ends if `m` is even. From coarse to fine decimal grids, the first grid that has a point in the
interval gives the digits; of two points the nearer one is taken, of two equally near the even one.

* `shortest`: digits and decimal exponent of a magnitude;
* `Layout`: how digits are laid out: where plain notation ends, and what an exponent looks like;
* `render`: the text of a number.
-/

import ShaderForge.Decimal.Double

namespace ShaderForge.Decimal

/-! ## Part 1 — digits -/

/-- A magnitude with the interval that rounds to it, in units of which `denominator` make one. -/
structure Neighbourhood where
  value : Nat
  low : Nat
  high : Nat
  denominator : Nat
  closed : Bool

/-- The reals around a number that round to it. -/
def neighbourhood (number : Double) : Neighbourhood :=
  let grow := Nat.pow 2 (number.scale - 2).toNat
  let value := 4 * number.significand
  let below := if number.significand = Nat.pow 2 52 && decide (-1074 < number.scale) then 1 else 2
  { value := value * grow
    low := (value - below) * grow
    high := (value + 2) * grow
    denominator := Nat.pow 2 (2 - number.scale).toNat
    closed := number.significand % 2 == 0 }

/-- Whether `count` steps of `10 ^ exponent` lie in the interval. -/
def Neighbourhood.holds (around : Neighbourhood) (count : Nat) (exponent : Int) : Bool :=
  let point := count * Nat.pow 10 exponent.toNat * around.denominator
  let shrink := Nat.pow 10 (-exponent).toNat
  if around.closed then
    decide (around.low * shrink ≤ point) && decide (point ≤ around.high * shrink)
  else decide (around.low * shrink < point) && decide (point < around.high * shrink)

/-- The point of a decimal grid that is written for the number, if the grid has one. -/
def gridPoint? (around : Neighbourhood) (exponent : Int) : Option (Nat × Int) :=
  let scaled := around.value * Nat.pow 10 (-exponent).toNat
  let step := Nat.pow 10 exponent.toNat * around.denominator
  let under := scaled / step
  let nearer :=
    if 2 * (scaled % step) < step then under
    else if step < 2 * (scaled % step) then under + 1
    else if under % 2 = 0 then under else under + 1
  let other := if nearer = under then under + 1 else under
  if around.holds nearer exponent then some (nearer, exponent)
  else if around.holds other exponent then some (other, exponent)
  else none

/-- A decimal exponent that is surely too large for the number by one, and by three at most. -/
def exponentAbove (number : Double) : Int :=
  ((Nat.log2 number.significand : Int) + number.scale + 1) * 30103 / 100000 + 2

/-- **The shortest digits of a number** that is not zero, with the exponent of the last one. -/
def shortest (number : Double) : Nat × Int :=
  ((List.range 24).findSome? fun (step : Nat) =>
    gridPoint? (neighbourhood number) (exponentAbove number - step)).getD (0, 0)

/-! ## Part 2 — layout -/

/-- How digits are laid out. The exponent meant is that of the first digit. -/
structure Layout where
  plainFrom : Int
  plainTo : Int
  positiveSign : String

/-- The layout of numbers in documents: plain from `0.00001` to below `1e+16`. -/
def Layout.document : Layout := ⟨-5, 15, "+"⟩

/-- Digits with a point after the first `count` of them, filled up with zeros. -/
def withPoint (digits : List Char) (count : Nat) : List Char :=
  let whole := digits.take count ++ List.replicate (count - digits.length) '0'
  let fraction := digits.drop count
  whole ++ '.' :: (if fraction.isEmpty then ['0'] else fraction)

/-- The text of digits whose first one stands for `10 ^ exponent`. -/
def layOut (layout : Layout) (digits : List Char) (exponent : Int) : List Char :=
  if layout.plainFrom ≤ exponent && exponent ≤ layout.plainTo then
    if 0 ≤ exponent then withPoint digits (exponent.toNat + 1)
    else '0' :: '.' :: List.replicate (-exponent - 1).toNat '0' ++ digits
  else
    let mantissa := match digits with
      | [] => []
      | [digit] => [digit]
      | digit :: more => digit :: '.' :: more
    let sign := if 0 ≤ exponent then layout.positiveSign.toList else ['-']
    mantissa ++ 'e' :: sign ++ Nat.toDigits 10 exponent.natAbs

/-- **The text of a number.** -/
def render (layout : Layout) (number : Double) : List Char :=
  let magnitude :=
    if number.isZero then ['0', '.', '0']
    else
      let (value, exponent) := shortest number
      let digits := Nat.toDigits 10 value
      layOut layout digits (exponent + digits.length - 1)
  if number.negative then '-' :: magnitude else magnitude

end ShaderForge.Decimal
