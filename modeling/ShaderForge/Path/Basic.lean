/-
**Paths.**

A path is the text that names a place, kept as it was written. It is read as a list of *components*:
the root, a leading `.`, `..` and names. Empty parts and every `.` that does not lead the path are
not components, so `a//b`, `a/./b` and `a/b/` have the components of `a/b`.

* `steps`: the components in order, each with the text before it and the text through its end;
* `join`: one path below another, or in its place when it is absolute;
* `parent?`, `parents`: the path without its last component, and so on up;
* `fileName?`: the last component, when it is a name;
* `stripped?`: what is left of a path below another, by components.

Nothing here looks at a disk, and nothing is ever normalised away from the text.
-/

import ShaderForge.Text.Pieces

namespace ShaderForge

/-- A path as it was written. -/
structure Path where
  text : String
deriving DecidableEq, Inhabited

namespace Path

open Text (pieces)

/-! ## Part 1 — components -/

/-- What a path is made of. -/
inductive Component
  | root
  | here
  | up
  | name (text : String)
deriving DecidableEq

/-- A component, the text of the path before it, and the text through its end. -/
structure Step where
  component : Component
  before : List Char
  through : List Char

/-- The component that a part between slashes writes; `leading` says that the path begins with it.
-/
def component? (leading : Bool) (part : List Char) : Option Component :=
  if part = [] then none
  else if part = ['.'] then (if leading then some .here else none)
  else if part = ['.', '.'] then some .up
  else some (.name (String.ofList part))

/-- The steps of parts between slashes that follow the text `walked`. -/
def stepsFrom (leading : Bool) (walked : List Char) : List (List Char) → List Step
  | [] => []
  | part :: parts =>
    let through := walked ++ part
    let rest := stepsFrom false (through ++ ['/']) parts
    match component? leading part with
    | none => rest
    | some component => ⟨component, walked, through⟩ :: rest

/-- The steps of a text: an absolute one begins at the root. -/
def stepsOf : List Char → List Step
  | '/' :: rest => ⟨.root, [], ['/']⟩ :: stepsFrom false ['/'] (pieces '/' rest)
  | text => stepsFrom true [] (pieces '/' text)

/-- The steps of a path. -/
def steps (path : Path) : List Step := stepsOf path.text.toList

/-- **The components of a path**, in order. -/
def components (path : Path) : List Component := path.steps.map Step.component

/-- Whether a path begins at the root. -/
def isAbsolute (path : Path) : Bool := path.text.toList.head? == some '/'

/-- The empty path. -/
def empty : Path := ⟨""⟩

/-- Whether a path is the empty text. -/
def isEmpty (path : Path) : Bool := path.text.isEmpty

/-! ## Part 2 — joining -/

/-- The text of `left` with `right` below it; a slash goes between them when it is needed. -/
def joinChars (left right : List Char) : List Char :=
  if right.head? = some '/' then right
  else match left.getLast? with
    | none => right
    | some '/' => left ++ right
    | some _ => left ++ '/' :: right

/-- **A path below a path**; an absolute right side takes the place of the left one. -/
def join (left right : Path) : Path :=
  ⟨String.ofList (joinChars left.text.toList right.text.toList)⟩

/-- The place with a given name below a path. -/
def below (path : Path) (name : String) : Path := path.join ⟨name⟩

/-! ## Part 3 — parents and names -/

/-- The steps without the last one, last first; none for the empty path and for the root alone. -/
def ancestry? (path : Path) : Option (List Step) :=
  match path.steps.reverse with
  | [] => none
  | last :: rest => if last.component = .root then none else some rest

/-- The path that steps, last first, lead to. -/
def reached : List Step → Path
  | [] => empty
  | last :: _ => ⟨String.ofList last.through⟩

/-- **The path without its last component**, and without the slashes before that. -/
def parent? (path : Path) : Option Path := path.ancestry?.map reached

/-- The paths that steps, last first, and all shorter lists of them lead to. -/
def reachedAll : List Step → List Path
  | [] => [empty]
  | last :: rest =>
    if last.component = .root then [⟨String.ofList last.through⟩]
    else ⟨String.ofList last.through⟩ :: reachedAll rest

/-- **The parents of a path**, nearest first, up to the root or the empty path. -/
def parents (path : Path) : List Path :=
  match path.ancestry? with
  | none => []
  | some rest => reachedAll rest

/-- **The name of what a path leads to**: its last component, when that is a name. -/
def fileName? (path : Path) : Option String :=
  match path.steps.getLast? with
  | some ⟨.name text, _, _⟩ => some text
  | _ => none

/-! ## Part 4 — what is left below another path -/

/-- The steps after those that `base` takes, if the path begins with them. -/
def stepsAfter : List Component → List Step → Option (List Step)
  | [], rest => some rest
  | _ :: _, [] => none
  | first :: base, step :: rest =>
    if step.component = first then stepsAfter base rest else none

/-- The text that steps cover, from the start of the first to the end of the last. -/
def covered (steps : List Step) : Path :=
  match steps.head?, steps.getLast? with
  | some first, some last => ⟨String.ofList (last.through.drop first.before.length)⟩
  | _, _ => empty

/-- **What is left of a path below `base`**, if it begins with the components of `base`. -/
def stripped? (path base : Path) : Option Path :=
  (stepsAfter base.components path.steps).map covered

/-- The parts of a path that are names, in order. -/
def names (path : Path) : List String :=
  path.components.filterMap fun
    | .name text => some text
    | _ => none

/-- Whether a path begins by leaving the directory it is read in. -/
def leavesFirst (path : Path) : Bool := path.components.head? == some .up

end Path

end ShaderForge
