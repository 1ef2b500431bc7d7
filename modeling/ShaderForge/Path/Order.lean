/-
**The order of paths.**

Lists of files are sorted by components and not by text: `b` comes before `b/a`, that before `b-a`,
and two spellings of the same components count as one path. Kinds of components are ordered root,
`.`, `..`, names; names by their characters.

* `key`: the components as numbers, compared lexicographically;
* `same`, `precedes`: equal up to spelling, and strictly before;
* `sorted`: a list of paths in order, the first of each run of equal ones kept.
-/

import ShaderForge.Path.Basic

namespace ShaderForge.Path

/-- A component as numbers: its kind, then the characters of a name. -/
def Component.key : Component → List Nat
  | .root => [0]
  | .here => [1]
  | .up => [2]
  | .name text => 3 :: text.toList.map Char.toNat

/-- **The key that paths are ordered by.** -/
def key (path : Path) : List (List Nat) := path.components.map Component.key

/-- Whether two paths have the same components. -/
def same (left right : Path) : Bool := left.key == right.key

/-- Whether a path comes before another. -/
def precedes (left right : Path) : Bool :=
  left.key.lex right.key fun first second => first.lex second Nat.blt

/-- Whether a path does not come after another. -/
def notAfter (left right : Path) : Bool := !right.precedes left

/-- A list without the items that are the same as the one before them. -/
def withoutRepeats : List Path → List Path
  | first :: next :: rest =>
    if first.same next then withoutRepeats (first :: rest)
    else first :: withoutRepeats (next :: rest)
  | short => short
termination_by paths => paths.length

/-- Paths in order; of equal ones the earlier stays in front. -/
def inOrder (paths : List Path) : List Path := paths.mergeSort notAfter

/-- **Paths in order, each once.** -/
def sorted (paths : List Path) : List Path := withoutRepeats (inOrder paths)

end ShaderForge.Path
