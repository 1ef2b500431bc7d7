/-
**Diagnostics as text.**

A finding is printed as `file:line:column: severity: message`, a column only with a line, and each
place it relates to on a line of its own, four spaces in.
-/

import ShaderForge.Diagnostic.Basic

namespace ShaderForge

/-- A number after a colon, if there is one. -/
def positionText : Option Nat → String
  | none => ""
  | some value => ":" ++ toString value

/-- The place of a finding; a column needs a line. -/
def SourceLocation.render (location : SourceLocation) : String :=
  location.file.text ++ positionText location.line
    ++ (if location.line.isSome then positionText location.column else "")

/-- A related place on its own line. -/
def RelatedLocation.render (related : RelatedLocation) : String :=
  "\n    " ++ related.file.text ++ positionText related.line ++ ": " ++ related.message

/-- **The text of a finding.** -/
def Diagnostic.render (diagnostic : Diagnostic) : String :=
  diagnostic.location.render ++ ": " ++ diagnostic.severity.text ++ ": " ++ diagnostic.message
    ++ String.join (diagnostic.related.map RelatedLocation.render)

end ShaderForge
