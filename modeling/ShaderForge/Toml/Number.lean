/-
**Numbers and dates in TOML.**

Settings hold text only; numbers, truth values and dates of a document are read to know where they
end and whether they are written as they should be.

* `readNumber`: an integer within 64 bits, or a floating point number that is not too large;
* `readMoment`: a date, a time, or both, with days that the calendar has.
-/

import ShaderForge.Toml.Value

namespace ShaderForge.Toml

/-! ## Part 1 — digits -/

/-- Digits with single underscores between them; the first character must be a digit. -/
def readDigits (isDigit : Char → Bool) : List Char → Option (List Char × List Char)
  | [] => none
  | [c] => if isDigit c then some ([c], []) else none
  | c :: d :: rest =>
    if !isDigit c then none
    else match readDigits isDigit (d :: rest) with
      | some (digits, after) => some (c :: digits, after)
      | none =>
        if d = '_' then
          match readDigits isDigit rest with
          | some (digits, after) => some (c :: digits, after)
          | none => none
        else some ([c], d :: rest)

/-- The value of digits in a base. -/
def valueOf (base : Nat) (digits : List Char) : Nat :=
  digits.foldl (fun value digit =>
    value * base + (if digit.isDigit then digit.toNat - '0'.toNat
      else digit.toLower.toNat - 'a'.toNat + 10)) 0

/-- A hexadecimal digit. -/
def isHex (c : Char) : Bool :=
  c.isDigit || (decide ('a' ≤ c) && decide (c ≤ 'f')) || (decide ('A' ≤ c) && decide (c ≤ 'F'))

/-- Whole decimal digits: a zero stands alone. -/
def readWhole (cs : List Char) : Option (List Char × List Char) :=
  match cs with
  | '0' :: rest => some (['0'], rest)
  | _ => readDigits Char.isDigit cs

/-- A sign, if there is one: whether it is a minus, and the rest. -/
def readSign : List Char → Bool × List Char
  | '+' :: rest => (false, rest)
  | '-' :: rest => (true, rest)
  | cs => (false, cs)

/-! ## Part 2 — numbers -/

/-- An integer in another base than ten. -/
def readBased : List Char → Option (List Char)
  | '0' :: 'x' :: rest => bounded 16 (readDigits isHex rest)
  | '0' :: 'o' :: rest => bounded 8 (readDigits (fun c => '0' ≤ c && c ≤ '7') rest)
  | '0' :: 'b' :: rest => bounded 2 (readDigits (fun c => c == '0' || c == '1') rest)
  | _ => none
where
  /-- The rest after digits whose value is within bounds. -/
  bounded (base : Nat) : Option (List Char × List Char) → Option (List Char)
    | some (digits, rest) => if valueOf base digits < Nat.pow 2 63 then some rest else none
    | none => none

/-- An integer in base ten. -/
def readInteger (cs : List Char) : Option (List Char) :=
  match readWhole (readSign cs).2 with
  | none => none
  | some (digits, rest) =>
    let bound := if (readSign cs).1 then Nat.pow 2 63 else Nat.pow 2 63 - 1
    if valueOf 10 digits ≤ bound then some rest else none

/-- A fraction: a point and digits. -/
def readFraction : List Char → Option (List Char × List Char)
  | '.' :: rest => readDigits Char.isDigit rest
  | _ => none

/-- An exponent: its mark, a sign, and digits. -/
def readExponent : List Char → Option (Int × List Char)
  | c :: rest =>
    if c = 'e' ∨ c = 'E' then
      match readDigits Char.isDigit (readSign rest).2 with
      | none => none
      | some (digits, after) =>
        let value : Int := valueOf 10 digits
        some (if (readSign rest).1 then -value else value, after)
    else none
  | [] => none

/-- Whether `digits · 10 ^ exponent` is nearer to infinity than to any finite number. -/
def isTooLarge (digits : Nat) (exponent : Int) : Bool :=
  let size : Int := (Nat.toDigits 10 digits).length + exponent
  if digits = 0 || decide (size < 300) then false
  else if 320 < size then true
  else
    decide ((Nat.pow 2 1024 - Nat.pow 2 970) * Nat.pow 10 (-exponent).toNat
      ≤ digits * Nat.pow 10 exponent.toNat)

/-- A floating point number with a fraction or an exponent; one that is too large is refused unless
it is negative. -/
def readFloat (cs : List Char) : Option (List Char) :=
  match readWhole (readSign cs).2 with
  | none => none
  | some (whole, rest) =>
    let fraction := readFraction rest
    let digits := whole ++ (fraction.map Prod.fst).getD []
    let places := ((fraction.map Prod.fst).getD []).length
    let afterFraction := (fraction.map Prod.snd).getD rest
    let exponent := readExponent afterFraction
    if fraction.isNone && exponent.isNone then none
    else if (rest.head? == some '.' && fraction.isNone) then none
    else
      let power := (exponent.map Prod.fst).getD 0
      let after := (exponent.map Prod.snd).getD afterFraction
      if !(readSign cs).1 && isTooLarge (valueOf 10 digits) (power - places) then none
      else some after

/-- Infinity, and what is no number. -/
def readSpecial (cs : List Char) : Option (List Char) :=
  match (readSign cs).2 with
  | 'i' :: 'n' :: 'f' :: rest => some rest
  | 'n' :: 'a' :: 'n' :: rest => some rest
  | _ => none

/-- **A number**, and what follows it. -/
def readNumber (cs : List Char) : Option (PlainKind × List Char) :=
  ((readFloat cs).map fun rest => (.real, rest)).or
    (((readSpecial cs).map fun rest => (.real, rest)).or
      (((readBased cs).map fun rest => (.integer, rest)).or
        ((readInteger cs).map fun rest => (.integer, rest))))

/-! ## Part 3 — dates and times -/

/-- Exactly `count` digits, as a number. -/
def readFixed (count : Nat) (cs : List Char) : Option (Nat × List Char) :=
  let digits := cs.take count
  if digits.length = count && digits.all Char.isDigit then
    some (valueOf 10 digits, cs.drop count)
  else none

/-- A given character at the front. -/
def readMark (mark : Char) : List Char → Option (List Char)
  | c :: rest => if c = mark then some rest else none
  | [] => none

/-- Whether a year has a leap day. -/
def isLeap (year : Nat) : Bool := year % 4 == 0 && (year % 100 != 0 || year % 400 == 0)

/-- The number of days of a month. -/
def daysIn (year month : Nat) : Nat :=
  if month = 2 then (if isLeap year then 29 else 28)
  else if month = 4 ∨ month = 6 ∨ month = 9 ∨ month = 11 then 30
  else 31

/-- A date. -/
def readDate (cs : List Char) : Option (List Char) := do
  let (year, cs) ← readFixed 4 cs
  let cs ← readMark '-' cs
  let (month, cs) ← readFixed 2 cs
  let cs ← readMark '-' cs
  let (day, cs) ← readFixed 2 cs
  if 1 ≤ month && month ≤ 12 && 1 ≤ day && day ≤ daysIn year month then some cs else none

/-- Parts of a second, if a point is there. -/
def readParts : List Char → Option (List Char)
  | '.' :: rest =>
    if (rest.head?.map Char.isDigit).getD false then some (rest.dropWhile Char.isDigit) else none
  | cs => some cs

/-- A time of day. -/
def readTime (cs : List Char) : Option (List Char) := do
  let (hour, cs) ← readFixed 2 cs
  let cs ← readMark ':' cs
  let (minute, cs) ← readFixed 2 cs
  let cs ← readMark ':' cs
  let (second, cs) ← readFixed 2 cs
  let cs ← readParts cs
  if hour ≤ 23 && minute ≤ 59 && second ≤ 60 then some cs else none

/-- An offset from universal time, if there is one. -/
def readOffset : List Char → Option (List Char)
  | c :: cs =>
    if c = 'Z' ∨ c = 'z' then some cs
    else if c = '+' ∨ c = '-' then do
      let (hour, cs) ← readFixed 2 cs
      let cs ← readMark ':' cs
      let (minute, cs) ← readFixed 2 cs
      if hour ≤ 23 && minute ≤ 59 then some cs else none
    else some (c :: cs)
  | [] => some []

/-- The time after a date, if there is one. -/
def readTimeAfter : List Char → Option (List Char)
  | c :: cs =>
    if c = 'T' ∨ c = 't' then (readTime cs).bind readOffset
    else if c = ' ' then
      match readFixed 2 cs with
      | some (_, ':' :: _) => (readTime cs).bind readOffset
      | _ => some (c :: cs)
    else some (c :: cs)
  | [] => some []

/-- **A date, a time, or both**, and what follows. -/
def readMoment (cs : List Char) : Option (List Char) :=
  ((readDate cs).bind readTimeAfter).or (readTime cs)

end ShaderForge.Toml
