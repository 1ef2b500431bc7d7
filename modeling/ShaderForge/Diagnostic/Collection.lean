/-
**Diagnostics by file.**

A collection holds the findings of one job, grouped by file: files in the order of paths, findings
of a file in the order in which they came. Two spellings of a path are one file, and the first one
names it. Each job replaces the whole collection.

* `insertFinding`: a finding in the group of its file;
* `groupByFile`: the groups of some findings;
* `DiagnosticCollection`: what the last job left, with `replace` and `clear`.
-/

import ShaderForge.Diagnostic.Basic
import ShaderForge.Path.Order
import ShaderForge.Total

namespace ShaderForge

/-- **Groups with a further finding**: it joins the group of its file, behind what was found there
before, or opens one where the file comes in the order of paths. -/
def insertFinding (groups : List (Path × List Diagnostic)) (diagnostic : Diagnostic) :
    List (Path × List Diagnostic) :=
  let file := diagnostic.location.file
  match groups with
  | [] => [(file, [diagnostic])]
  | (first, findings) :: later =>
    if first.same file then (first, findings ++ [diagnostic]) :: later
    else if file.precedes first then (file, [diagnostic]) :: (first, findings) :: later
    else (first, findings) :: insertFinding later diagnostic

/-- **The groups of findings**, which are inserted one at a time. -/
def groupByFile (diagnostics : List Diagnostic) : List (Path × List Diagnostic) :=
  diagnostics.foldl insertFinding []

/-- **The findings of a job, by file.** -/
structure DiagnosticCollection where
  groups : List (Path × List Diagnostic)
deriving DecidableEq

namespace DiagnosticCollection

/-- The collection without findings. -/
def empty : DiagnosticCollection := ⟨[]⟩

/-- The collection emptied. -/
def clear (_ : DiagnosticCollection) : DiagnosticCollection := empty

/-- **The collection with new findings** in place of all it held. -/
def replace (_ : DiagnosticCollection) (diagnostics : List Diagnostic) : DiagnosticCollection :=
  ⟨groupByFile diagnostics⟩

/-- The findings about a file. -/
def get (collection : DiagnosticCollection) (file : Path) : List Diagnostic :=
  ((collection.groups.find? fun group => group.1.same file).map Prod.snd).getD []

/-- The files with their findings. -/
def files (collection : DiagnosticCollection) : List (Path × List Diagnostic) := collection.groups

/-- All findings, file by file. -/
def all (collection : DiagnosticCollection) : List Diagnostic := collection.groups.flatMap Prod.snd

/-- How many findings there are. -/
def size (collection : DiagnosticCollection) : Nat :=
  total (collection.groups.map fun group => group.2.length)

/-- Whether there are no findings. -/
def isEmpty (collection : DiagnosticCollection) : Bool := collection.groups.isEmpty

/-- How many findings are errors. -/
def errors (collection : DiagnosticCollection) : Nat :=
  total (collection.groups.map fun group => errorCount group.2)

end DiagnosticCollection

end ShaderForge
