/-
**The compiler's part of a log.**

The log of the service holds what its compiler printed between two marker lines, a line that
contains `output begin` and a later one that contains `output end`, in any case. Without the first
marker the whole log is the compiler's; without the second its part goes on to the end.

* `scanLines`: one pass over the lines of a log, which keeps byte offsets and cuts the part out;
* `outputBlock`: the compiler's part of a log.
-/

import ShaderForge.Text.Pieces

namespace ShaderForge

/-- The text of the line before the compiler's part. -/
def beginMarker : String := "output begin"

/-- The text of the line after the compiler's part. -/
def endMarker : String := "output end"

/-- Whether a line contains a marker, in any case. -/
def marks (marker : String) (line : List Char) : Bool :=
  Text.occurs marker.toList (line.map Char.toLower)

/-- **One pass over lines of a log**, which stand at a byte offset of it. Once a line that begins
the compiler's part was passed, `start` is the offset behind that line. -/
def scanLines (log : String) (start : Option String.Pos.Raw) (offset : String.Pos.Raw) :
    List (List Char) → String
  | [] =>
    match start with
    | none => log
    | some begins => String.Pos.Raw.extract log begins log.rawEndPos
  | line :: rest =>
    let next := offset + String.ofList line
    match start with
    | none => scanLines log (if marks beginMarker line then some next else none) next rest
    | some begins =>
      if marks endMarker line then String.Pos.Raw.extract log begins offset
      else scanLines log (some begins) next rest

/-- **The compiler's part of a log.** -/
def outputBlock (log : String) : String :=
  scanLines log none 0 (Text.linesKept log.toList)

end ShaderForge
