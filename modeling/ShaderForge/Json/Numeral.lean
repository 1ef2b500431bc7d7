/-
**Numbers in JSON text.**

A numeral is a sign, whole digits without superfluous zeros, and optionally a fraction and an
exponent. It is read in two stages: `scan` cuts it into its digits, `value?` says which number they
write.

A numeral with neither fraction nor exponent is an integer if it fits 64 bits (`-0` is not one). Any
other number is read in floating point: the leading digits that fit 64 bits are rounded to a
floating point number, which is then multiplied or divided once by a power of ten, or several times
when that power is out of range. This is fast and off by little; it is not always the nearest
number.

* `scan`: the digits of a numeral and the text after it;
* `value?`: its number, or none when it is too large.
-/

import ShaderForge.Json.Value

namespace ShaderForge.Json

open Decimal (Double)

/-! ## Part 1 — cutting a numeral into digits -/

/-- The digits of a numeral. -/
structure Numeral where
  negative : Bool
  whole : List Nat
  fraction : Option (List Nat)
  exponent : Option (Bool × List Nat)
deriving DecidableEq

/-- The digits that a text begins with. -/
def digitsOf (cs : List Char) : List Nat :=
  (cs.takeWhile Char.isDigit).map fun c => c.toNat - '0'.toNat

/-- The text after the digits that it begins with. -/
def afterDigits (cs : List Char) : List Char := cs.dropWhile Char.isDigit

/-- The whole digits of a numeral: a zero stands alone. -/
def scanWhole (cs : List Char) : Option (List Nat × List Char) :=
  match digitsOf cs with
  | [] => none
  | 0 :: _ :: _ => none
  | digits => some (digits, afterDigits cs)

/-- A fraction, if a point is there; it has at least one digit. -/
def scanFraction : List Char → Option (Option (List Nat) × List Char)
  | '.' :: cs =>
    match digitsOf cs with
    | [] => none
    | digits => some (some digits, afterDigits cs)
  | cs => some (none, cs)

/-- The sign of an exponent: whether it is negative, and the text after it. -/
def scanSign : List Char → Bool × List Char
  | '+' :: cs => (false, cs)
  | '-' :: cs => (true, cs)
  | cs => (false, cs)

/-- An exponent, if its mark is there; it has at least one digit. -/
def scanExponent : List Char → Option (Option (Bool × List Nat) × List Char)
  | c :: cs =>
    if c = 'e' ∨ c = 'E' then
      match digitsOf (scanSign cs).2 with
      | [] => none
      | digits => some (some ((scanSign cs).1, digits), afterDigits (scanSign cs).2)
    else some (none, c :: cs)
  | [] => some (none, [])

/-- A numeral without its sign. -/
def scanUnsigned (negative : Bool) (cs : List Char) : Option (Numeral × List Char) := do
  let (whole, cs) ← scanWhole cs
  let (fraction, cs) ← scanFraction cs
  let (exponent, cs) ← scanExponent cs
  pure (⟨negative, whole, fraction, exponent⟩, cs)

/-- **The numeral that a text begins with**, and the text after it. -/
def scan : List Char → Option (Numeral × List Char)
  | '-' :: cs => scanUnsigned true cs
  | cs => scanUnsigned false cs

/-! ## Part 2 — leading digits -/

/-- The bound of the numbers that fit 64 bits. -/
def wordBound : Nat := Nat.pow 2 64

/-- Digits appended to a number while it fits 64 bits; what does not fit is left over. -/
def takeFitting (value : Nat) : List Nat → Nat × List Nat
  | [] => (value, [])
  | digit :: digits =>
    if value * 10 + digit < wordBound then takeFitting (value * 10 + digit) digits
    else (value, digit :: digits)

/-! ## Part 3 — floating point -/

/-- The floating point number nearest to a power of ten in range. -/
def powerOfTen (exponent : Nat) : Option Double := Double.ofNat? (Nat.pow 10 exponent)

/-- A magnitude divided by `10 ^ exponent`: by `10 ^ 308` as long as the exponent is out of range,
then by what is left of it. A quotient of zero ends it. -/
def divideByTens (value : Double) (exponent : Nat) : Option Double :=
  if value.isZero then some value
  else if exponent ≤ 308 then do value.over? (← powerOfTen exponent)
  else do divideByTens (← value.over? (← powerOfTen 308)) (exponent - 308)
termination_by exponent

/-- A magnitude times `10 ^ exponent`. -/
def multiplyByTens (value : Double) (exponent : Nat) : Option Double :=
  if exponent ≤ 308 then do value.times? (← powerOfTen exponent)
  else if value.isZero then some value
  else none

/-- `significand · 10 ^ exponent` in floating point. -/
def fromParts (significand : Nat) (exponent : Int) : Option Double := do
  let value ← Double.ofNat? significand
  if 0 ≤ exponent then multiplyByTens value exponent.toNat
  else divideByTens value (-exponent).toNat

/-- The number that digits write. -/
def digitsToNat (digits : List Nat) : Nat := digits.foldl (fun value digit => value * 10 + digit) 0

/-- Exponents are kept within 32 bits with sign. -/
def exponentBound : Nat := Nat.pow 2 31

/-- A sum of exponents that stays within 32 bits. -/
def clampExponent (exponent : Int) : Int :=
  max (-(exponentBound : Int)) (min (exponentBound - 1) exponent)

/-- The magnitude of a numeral in floating point: leading digits, then the exponent of the last. -/
def magnitude? (numeral : Numeral) : Option Double :=
  let (leading, left) := takeFitting 0 numeral.whole
  let (significand, unread) := takeFitting leading (numeral.fraction.getD [])
  let taken : Nat := (numeral.fraction.getD []).length - unread.length
  let places : Int := (left.length : Int) - taken
  match numeral.exponent with
  | none => fromParts significand places
  | some (negative, digits) =>
    if digitsToNat digits < exponentBound then
      let shift : Int := if negative then -(digitsToNat digits : Int) else digitsToNat digits
      fromParts significand (clampExponent (places + shift))
    else if significand ≠ 0 && !negative then none
    else some (Double.zero false)

/-! ## Part 4 — the number -/

/-- The integer that a numeral without fraction and exponent writes, if it fits 64 bits. -/
def integer? (numeral : Numeral) : Option Int :=
  let value := digitsToNat numeral.whole
  if numeral.fraction.isSome || numeral.exponent.isSome then none
  else if !numeral.negative then (if value < wordBound then some value else none)
  else if 0 < value && value ≤ Nat.pow 2 63 then some (-value)
  else none

/-- **The number that a numeral writes**, unless it is too large. -/
def value? (numeral : Numeral) : Option JsonNumber :=
  match integer? numeral with
  | some value => some (.integer value)
  | none => (magnitude? numeral).map fun value => .real (value.withSign numeral.negative)

end ShaderForge.Json
