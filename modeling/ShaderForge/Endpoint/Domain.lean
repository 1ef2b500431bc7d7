/-
**Domain names.**

A host name may hold letters of any script. What is sent over the network is ASCII: capital letters
become small ones, wide forms become narrow ones, and a label with other letters is written in
*punycode*: first its ASCII letters, then, in ascending order, the others, each as the distance to
it in a count of all places where it could stand, in digits of base 36 whose worth adapts.

A label that is already written this way, after `xn--`, must stand for letters that this form is the
form of.

* `punycode`, `decodePunycode?`: a label in punycode, and the label that punycode stands for;
* `asciiLabel?`: one label in ASCII;
* `asciiDomain?`: a whole name in ASCII, unless it holds what no name may hold.
-/

import ShaderForge.Text.Pieces

namespace ShaderForge.Endpoint

/-! ## Part 1 — punycode -/

/-- The digit of a value below 36. -/
def digitChar (value : Nat) : Char :=
  if value < 26 then Char.ofNat ('a'.toNat + value) else Char.ofNat ('0'.toNat + (value - 26))

/-- The value below which a digit is the last one of its number. -/
def threshold (place bias : Nat) : Nat :=
  if place ≤ bias then 1 else if bias + 26 ≤ place then 26 else place - bias

/-- A threshold is one of `1` to `26`. -/
theorem threshold_bounds (place bias : Nat) :
    1 ≤ threshold place bias ∧ threshold place bias ≤ 26 := by
  unfold threshold
  split
  · exact ⟨by omega, by omega⟩
  · split <;> omega

/-- A distance as digits from a given place on. -/
def distanceDigits (bias place distance : Nat) : List Char :=
  let limit := threshold place bias
  if distance < limit then [digitChar distance]
  else
    digitChar (limit + (distance - limit) % (36 - limit))
      :: distanceDigits bias (place + 36) ((distance - limit) / (36 - limit))
termination_by distance
decreasing_by
  have bounds := threshold_bounds place bias
  have smaller := Nat.div_le_self (distance - threshold place bias) (36 - threshold place bias)
  omega

/-- A distance scaled down until it is small, with the places that this takes. -/
def scaleDown (distance places : Nat) : Nat × Nat :=
  if 455 < distance then scaleDown (distance / 35) (places + 36) else (distance, places)
termination_by distance
decreasing_by omega

/-- The bias for the next distance. -/
def nextBias (distance count : Nat) (first : Bool) : Nat :=
  let halved := if first then distance / 700 else distance / 2
  let (rest, places) := scaleDown (halved + halved / count) 0
  places + 36 * rest / (rest + 38)

/-- A label while it is written: its digits, the distance so far, the bias, and the letters done. -/
structure Writing where
  digits : List Char
  distance : Nat
  bias : Nat
  done : Nat

/-- The writing after one letter of the label was passed, looking for the letter `code`. -/
def Writing.pass (plain code : Nat) (writing : Writing) (c : Char) : Writing :=
  if c.toNat < code then { writing with distance := writing.distance + 1 }
  else if c.toNat = code then
    { digits := writing.digits ++ distanceDigits writing.bias 36 writing.distance
      distance := 0
      bias := nextBias writing.distance (writing.done + 1) (writing.done == plain)
      done := writing.done + 1 }
  else writing

/-- The writing after all letters with the given codes, in ascending order. -/
def Writing.passAll (label : List Char) (plain : Nat) : Nat → List Nat → Writing → Writing
  | _, [], writing => writing
  | least, code :: codes, writing =>
    let begun := { writing with
      distance := writing.distance + (code - least) * (writing.done + 1) }
    let passed := label.foldl (Writing.pass plain code) begun
    passAll label plain (code + 1) codes { passed with distance := passed.distance + 1 }

/-- The codes of the letters that are no ASCII, ascending, each once. -/
def wideCodes (label : List Char) : List Nat :=
  (((label.map Char.toNat).filter fun code => decide (0x80 ≤ code)).mergeSort
    (fun left right => decide (left ≤ right))).eraseDups

/-- A label in punycode. -/
def punycode (label : List Char) : List Char :=
  let plain := label.filter fun c => decide (c.toNat < 0x80)
  let written := Writing.passAll label plain.length 0x80 (wideCodes label) ⟨[], 0, 72, plain.length⟩
  plain ++ (if plain.isEmpty then [] else ['-']) ++ written.digits

/-! ## Part 2 — reading punycode -/

/-- The value of a digit. -/
def digitValue? (c : Char) : Option Nat :=
  if 'a' ≤ c && c ≤ 'z' then some (c.toNat - 'a'.toNat)
  else if c.isDigit then some (c.toNat - '0'.toNat + 26)
  else none

/-- The distance that digits write from a given place on, each digit worth `weight`, and the
rest. -/
def readDistance? (bias place weight : Nat) : List Char → Option (Nat × List Char)
  | [] => none
  | c :: cs =>
    match digitValue? c with
    | none => none
    | some value =>
      if value < threshold place bias then some (value * weight, cs)
      else
        (readDistance? bias (place + 36) (weight * (36 - threshold place bias)) cs).map
          fun (more, rest) => (value * weight + more, rest)

/-- A distance takes at least one digit. -/
theorem readDistance?_shorter {bias place weight distance : Nat} {cs rest : List Char}
    (read : readDistance? bias place weight cs = some (distance, rest)) :
    rest.length < cs.length := by
  induction cs generalizing place weight distance rest with
  | nil => exact absurd read (by simp [readDistance?])
  | cons c cs shorter =>
    rw [readDistance?] at read
    split at read
    · exact absurd read (by simp)
    · split at read
      · have same : cs = rest := (Prod.mk.inj (Option.some.inj read)).2
        rw [same]
        exact Nat.lt_succ_self _
      · obtain ⟨⟨more, left⟩, found, taken⟩ := Option.map_eq_some_iff.mp read
        have same : left = rest := (Prod.mk.inj taken).2
        rw [← same]
        exact Nat.lt_succ_of_lt (shorter found)

/-- A character with a code, if there is one. -/
def charOf? (code : Nat) : Option Char :=
  if code.isValidChar then some (Char.ofNat code) else none

/-- The letters of a label when the digits that are left have put their letters between those
already there; `place` and `code` are those of the letter before. -/
def insertLetters? (plain bias place code : Nat) (digits letters : List Char) :
    Option (List Char) :=
  match digits with
  | [] => some letters
  | digit :: later =>
    match _read : readDistance? bias 36 1 (digit :: later) with
    | none => none
    | some (distance, rest) =>
      let count := letters.length + 1
      let next := code + (place + distance) / count
      let spot := (place + distance) % count
      match charOf? next with
      | none => none
      | some letter =>
        insertLetters? plain (nextBias distance count (letters.length == plain)) (spot + 1) next
          rest (letters.take spot ++ letter :: letters.drop spot)
termination_by digits.length
decreasing_by exact readDistance?_shorter _read

/-- **The label that punycode stands for**: what is before the last hyphen, with the letters that
the digits behind it put in. -/
def decodePunycode? (text : List Char) : Option (List Char) :=
  let digits := (text.reverse.takeWhile (· != '-')).reverse
  let plain := text.take (text.length - digits.length - 1)
  insertLetters? plain.length 72 0 0x80 digits plain

/-! ## Part 3 — letters -/

/-- A character as it is compared: small, narrow, and with one kind of full stop. -/
def folded (c : Char) : List Char :=
  let code := c.toNat
  if code < 0x80 then [c.toLower]
  else if code = 0xAD || code = 0x200B || code = 0x2060 || code = 0xFEFF then []
  else if code = 0x3002 || code = 0xFF0E || code = 0xFF61 then ['.']
  else if 0xFF01 ≤ code && code ≤ 0xFF5E then [(Char.ofNat (code - 0xFEE0)).toLower]
  else if (0xC0 ≤ code && code ≤ 0xDE && code != 0xD7) || (0x391 ≤ code && code ≤ 0x3A9)
      || (0x410 ≤ code && code ≤ 0x42F) then [Char.ofNat (code + 32)]
  else if 0x400 ≤ code && code ≤ 0x40F then [Char.ofNat (code + 80)]
  else if 0x531 ≤ code && code ≤ 0x556 then [Char.ofNat (code + 48)]
  else if ((0x100 ≤ code && code ≤ 0x137) || (0x14A ≤ code && code ≤ 0x177)
      || (0x460 ≤ code && code ≤ 0x4FF) || (0x1E00 ≤ code && code ≤ 0x1EFF)) && code % 2 = 0 then
    [Char.ofNat (code + 1)]
  else if ((0x139 ≤ code && code ≤ 0x148) || (0x179 ≤ code && code ≤ 0x17E)) && code % 2 = 1 then
    [Char.ofNat (code + 1)]
  else [c]

/-- A character that no name may hold. -/
def isForbidden (c : Char) : Bool :=
  decide (c.toNat ≤ 0x20) || c.toNat == 0x7F || c.toNat == 0xFFFD
    || "#/:<>?@[\\]^|%".toList.contains c
    || (decide (0x80 ≤ c.toNat) && decide (c.toNat < 0xA0))
    || (decide (0xE000 ≤ c.toNat) && decide (c.toNat ≤ 0xF8FF))

/-- Whether all letters are ASCII. -/
def isAscii (label : List Char) : Bool := label.all fun c => decide (c.toNat < 0x80)

/-- Whether a label that is written in punycode stands for letters with that form. -/
def isWellWritten (text : List Char) : Bool :=
  match decodePunycode? text with
  | none => false
  | some label =>
    !isAscii label && label.flatMap folded == label && !label.any isForbidden
      && punycode label == text

/-- **One label in ASCII.** -/
def asciiLabel? (label : List Char) : Option (List Char) :=
  match label with
  | 'x' :: 'n' :: '-' :: '-' :: text => if isWellWritten text then some label else none
  | _ => some (if isAscii label then label else "xn--".toList ++ punycode label)

/-- **A whole name in ASCII**, unless it holds what no name may hold. -/
def asciiDomain? (name : String) : Option (List Char) :=
  let small := name.toList.flatMap folded
  if small.any isForbidden then none
  else ((Text.pieces '.' small).mapM asciiLabel?).map (Text.joinPieces '.')

end ShaderForge.Endpoint
