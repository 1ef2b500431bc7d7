/-
**The console.**

A job that runs on a console prints its log and its findings on the standard output, and its
progress and its questions on the error output. Progress is a running total of the increments, at
most 100.

A choice is made by its number, counted from one, or by its name in any case.

* `pickChoice`: the choice that an answer makes;
* `Total.advance`, `totals`: the running total;
* `logText`, `noteText`: what a trace prints on the two outputs.
-/

import ShaderForge.Decimal.Fixed
import ShaderForge.Job.Event
import ShaderForge.Text.Ascii
import ShaderForge.Text.Blank

namespace ShaderForge.CommandLine

/-! ## Part 1 — choices -/

/-- The number that an answer writes, within 64 bits; a plus sign may be in front. -/
def answeredNumber? (answer : String) : Option Nat :=
  match answer.toList with
  | '+' :: digits => Text.decimal? (Nat.pow 2 64) digits
  | digits => Text.decimal? (Nat.pow 2 64) digits

/-- **The choice that an answer makes**: by its number, or by its name. -/
def pickChoice (answer : String) (choices : List String) : Option String :=
  if answer.isEmpty then none
  else match answeredNumber? answer with
    | some 0 => none
    | some (place + 1) => choices[place]?
    | none => choices.find? fun choice => Text.sameIgnoringCase choice answer

/-- The first line of what was typed; either key for the end of a line ends it. -/
def firstLine (typed : String) : String :=
  String.ofList (typed.toList.takeWhile fun c => c != '\n' && c != '\r')

/-- The choice of a user at a terminal; nobody chooses without one. -/
def chooseAt (terminal : Option String) (choices : List String) : Option String :=
  terminal.bind fun typed => pickChoice (Text.trim (firstLine typed)) choices

/-! ## Part 2 — progress -/

/-- The running total after an increment. -/
def advance (total increment : Rat) : Rat :=
  if total + increment ≤ 100 then total + increment else 100

/-- The running totals after each of some increments. -/
def totals : Rat → List Rat → List Rat
  | _, [] => []
  | total, increment :: rest =>
    advance total increment :: totals (advance total increment) rest

/-- A text with blanks in front, up to a width. -/
def padded (width : Nat) (text : String) : String :=
  String.ofList (List.replicate (width - text.length) ' ') ++ text

/-- The line of a message, with the running total. -/
def progressLine (total : Rat) (message : String) : String :=
  "[" ++ padded 3 (Decimal.fixed 0 total) ++ "%] " ++ message ++ "\n"

/-! ## Part 3 — the two outputs -/

/-- What a trace prints on the standard output. -/
def logText (trace : Trace) : String := String.join (trace.log.map (· ++ "\n"))

/-- The question that offers choices. -/
def question (choices : List String) : String :=
  "Output format [" ++ "/".intercalate choices ++ "]: "

/-- What events, first to last, print on the error output; questions need a terminal. -/
def noteTextFrom (terminal : Bool) : Rat → List Event → String
  | _, [] => ""
  | total, .progressed increment message :: rest =>
    let next := advance total increment
    (message.elim "" (progressLine next)) ++ noteTextFrom terminal next rest
  | total, .prompted choices :: rest =>
    (if terminal then question choices else "") ++ noteTextFrom terminal total rest
  | total, _ :: rest => noteTextFrom terminal total rest

/-- **What a trace prints on the error output.** -/
def noteText (terminal : Bool) (trace : Trace) : String := noteTextFrom terminal 0 trace.reverse

end ShaderForge.CommandLine
