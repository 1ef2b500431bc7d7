/-
**Diagnostics.**

A diagnostic is one finding of a compiler: how grave it is, the file it is about and where in it,
what it says, and other places that it relates to. A line without a column is possible.

* `columnRange?`: the columns to highlight, one more on either side;
* `errorCount`: how many of some diagnostics are errors.
-/

import ShaderForge.Path.Basic

namespace ShaderForge

/-- How grave a finding is. -/
inductive Severity
  | error
  | warning
deriving DecidableEq

/-- The name of a severity. -/
def Severity.text : Severity → String
  | error => "error"
  | warning => "warning"

/-- The file that a finding is about, and where in it. -/
structure SourceLocation where
  file : Path
  line : Option Nat
  column : Option Nat
deriving DecidableEq

/-- Another place that a finding relates to, and what it says there. -/
structure RelatedLocation where
  file : Path
  line : Option Nat
  message : String
deriving DecidableEq

/-- **One finding of a compiler.** -/
structure Diagnostic where
  severity : Severity
  location : SourceLocation
  message : String
  related : List RelatedLocation
deriving DecidableEq

/-- Lines and columns are numbers of 32 bits. -/
def positionBound : Nat := Nat.pow 2 32

namespace Diagnostic

/-- Whether a finding is an error. -/
def isError (diagnostic : Diagnostic) : Bool := diagnostic.severity = .error

/-- The columns to highlight: one more on either side, within 32 bits. -/
def columnRange? (diagnostic : Diagnostic) : Option (Nat × Nat) :=
  diagnostic.location.column.map fun column =>
    (column - 1, min (column + 1) (positionBound - 1))

end Diagnostic

/-- How many findings are errors. -/
def errorCount (diagnostics : List Diagnostic) : Nat := diagnostics.countP Diagnostic.isError

/-- How many findings are no errors. -/
def warningCount (diagnostics : List Diagnostic) : Nat :=
  diagnostics.countP fun diagnostic => !diagnostic.isError

end ShaderForge
