/-
**Places in compiler output.**

A block may begin with a place: `path: message`, `path:line: message` or
`path:line:column: message`, with blanks allowed before colons and numbers. The path runs to the
first colon, but a drive such as `C:\` in front of it does not end there; a path is one line.

The output of a nested tool begins with the tool's name, a colon, and `ERROR:` or `WARNING:`. Each
such marker in it, at the beginning of a word, starts a message of its own, which may again begin
with a place, then always with a line.

* `placePrefix?`: the place at the front of a block, and the rest;
* `lineLocation?`: the place at the front of a nested message, and the rest;
* `isToolReport`: whether a text is the output of a nested tool;
* `reports`: the nested messages of such a text.
-/

import ShaderForge.Text.Blank
import ShaderForge.Text.Word

namespace ShaderForge

open Text (dropBlank dropBlankEnd trimChars)

/-! ## Part 1 — a path up to a colon -/

/-- A character that is on the same line as what it follows. -/
def isLineBreak (c : Char) : Bool := c == '\n' || c == '\r'

/-- The path that a text before a colon writes, blanks at its end dropped; at least one character.
-/
def pathBefore? (before : List Char) : Option (List Char) :=
  let path := match dropBlankEnd before with
    | [] => before.take 1
    | path => path
  if path.isEmpty || path.any isLineBreak then none else some path

/-- A path up to the first colon, and what follows the colon. -/
def upToColon? (cs : List Char) : Option (List Char × List Char) :=
  match cs.dropWhile (· != ':') with
  | [] => none
  | _ :: after => (pathBefore? (cs.takeWhile (· != ':'))).map fun path => (path, after)

/-- A drive at the front of a text, and the rest. -/
def driveOf : List Char → Option (List Char × List Char)
  | letter :: ':' :: slash :: rest =>
    if letter.isAlpha && (slash == '\\' || slash == '/') then some ([letter, ':', slash], rest)
    else none
  | _ => none

/-- **A path up to a colon**, which may begin with a drive. -/
def pathPrefix? (cs : List Char) : Option (List Char × List Char) :=
  let plain := upToColon? cs
  match driveOf cs with
  | none => plain
  | some (drive, rest) =>
    ((upToColon? rest).map fun (path, after) => (drive ++ path, after)).or plain

/-! ## Part 2 — numbers between colons -/

/-- A number and a colon after it, blanks around it aside: its digits and the rest. -/
def number? (cs : List Char) : Option (List Char × List Char) :=
  let start := dropBlank cs
  let digits := start.takeWhile Text.isDigit
  match dropBlank (start.drop digits.length) with
  | ':' :: after => if digits.isEmpty then none else some (digits, after)
  | _ => none

/-- A place at the front of a text: a path, and the digits of line and column if they are there. -/
structure PlacePrefix where
  path : List Char
  line : Option (List Char)
  column : Option (List Char)
  rest : List Char
deriving DecidableEq

/-- **The place at the front of a block**, and the rest of the block. -/
def placePrefix? (body : List Char) : Option PlacePrefix :=
  match pathPrefix? body with
  | none => none
  | some (path, after) =>
    match number? after with
    | none => some ⟨path, none, none, after⟩
    | some (line, after) =>
      match number? after with
      | none => some ⟨path, some line, none, after⟩
      | some (column, after) => some ⟨path, some line, some column, after⟩

/-- **The place at the front of a nested message**: a path, the digits of a line, and the rest. -/
def lineLocation? (segment : List Char) : Option (List Char × List Char × List Char) :=
  match upToColon? segment with
  | none => none
  | some (path, after) => (number? after).map fun (line, rest) => (path, line, rest)

/-! ## Part 3 — nested tools -/

/-- The text after one of the words `ERROR` and `WARNING` and a colon, blanks before it aside. -/
def afterMarker? (cs : List Char) : Option (List Char) :=
  let word? (word : List Char) : Option (List Char) :=
    if word.isPrefixOf cs then
      match dropBlank (cs.drop word.length) with
      | ':' :: rest => some rest
      | _ => none
    else none
  (word? "ERROR".toList).or (word? "WARNING".toList)

/-- A character of a tool's name after the first. -/
def isToolChar (c : Char) : Bool := Text.isWord c || c == '.' || c == '-'

/-- **Whether a text is the output of a nested tool**: a name, a colon, and a marker. -/
def isToolReport (message : List Char) : Bool :=
  match dropBlank message with
  | [] => false
  | first :: rest =>
    first.isAlpha && match dropBlank (rest.dropWhile isToolChar) with
      | ':' :: after => (afterMarker? (dropBlank after)).isSome
      | _ => false

/-- Blanks at the front are no longer than the text. -/
theorem length_dropBlank_le (cs : List Char) : (dropBlank cs).length ≤ cs.length := by
  induction cs with
  | nil => exact Nat.le_refl _
  | cons c cs shorter =>
    unfold dropBlank at shorter ⊢
    rw [List.dropWhile]
    split
    · exact Nat.le_succ_of_le shorter
    · exact Nat.le_refl _

/-- What follows a marker is shorter than what it was cut from. -/
theorem afterMarker?_shorter {cs rest : List Char} (here : afterMarker? cs = some rest) :
    rest.length < cs.length := by
  have step : ∀ word : List Char,
      (if word.isPrefixOf cs then
        match dropBlank (cs.drop word.length) with
        | ':' :: rest => some rest
        | _ => none
      else none) = some rest → rest.length < cs.length := by
    intro word found
    split at found
    · split at found
      · next after blank =>
        have same : after = rest := Option.some.inj found
        have bound := length_dropBlank_le (cs.drop word.length)
        rw [blank, same, List.length_cons, List.length_drop] at bound
        omega
      · exact absurd found (by simp)
    · exact absurd found (by simp)
  unfold afterMarker? at here
  dsimp only at here
  rcases Option.or_eq_some_iff.mp here with first | ⟨_, second⟩
  · exact step _ first
  · exact step _ second

/-- The text after a marker at the beginning of a word. -/
def wordMarker? (before : Option Char) (cs : List Char) : Option (List Char) :=
  if Text.boundaryBefore before then afterMarker? cs else none

/-- What follows a marker at the beginning of a word is shorter than what it was cut from. -/
theorem wordMarker?_shorter {before : Option Char} {cs rest : List Char}
    (here : wordMarker? before cs = some rest) : rest.length < cs.length := by
  unfold wordMarker? at here
  split at here
  · exact afterMarker?_shorter here
  · exact absurd here (by simp)

/-- A text cut at its markers: what stands before the first one, and what follows each. -/
def cutMarkers (before : Option Char) : List Char → List Char × List (List Char)
  | [] => ([], [])
  | c :: cs =>
    match _here : wordMarker? before (c :: cs) with
    | some rest =>
      let parts := cutMarkers (some ':') rest
      ([], parts.1 :: parts.2)
    | none =>
      let parts := cutMarkers (some c) cs
      (c :: parts.1, parts.2)
termination_by cs => cs.length
decreasing_by
  · exact wordMarker?_shorter _here
  · exact Nat.lt_succ_self _

/-- **The nested messages of a text**: what follows each marker, trimmed, if anything does. -/
def reports (message : List Char) : List (List Char) :=
  (((cutMarkers none message).2).map trimChars).filter fun segment => !segment.isEmpty

end ShaderForge
