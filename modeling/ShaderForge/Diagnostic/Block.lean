/-
**Blocks of compiler output.**

Output is cut at *tags*: the words `ERROR`, `WARNING`, `INFO`, `DEBUG` and `VERBOSE` in square
brackets, in any case. The text after a tag up to the next one is its body. Other brackets mean
nothing, and text before the first tag belongs to no block.

* `tagAt?`: the tag whose bracket has just opened;
* `cut`: the text before the first tag, and the blocks with their bodies as they are;
* `blocks`: the blocks with trimmed bodies.
-/

import ShaderForge.Diagnostic.Basic
import ShaderForge.Text.Ascii
import ShaderForge.Text.Blank

namespace ShaderForge

/-- The tags of compiler output. -/
inductive Tag
  | error
  | warning
  | info
  | debug
  | verbose
deriving DecidableEq

namespace Tag

/-- Every tag with its name. -/
def named : List (String × Tag) :=
  [("ERROR", error), ("WARNING", warning), ("INFO", info), ("DEBUG", debug), ("VERBOSE", verbose)]

/-- The length of the longest name. -/
def longest : Nat := 7

/-- The tag with a given name in any case. -/
def ofName? (name : List Char) : Option Tag :=
  named.lookup (Text.upper (String.ofList name))

/-- The severity of what a tag introduces, if that is a finding. -/
def severity? : Tag → Option Severity
  | error => some .error
  | warning => some .warning
  | info | debug | verbose => none

end Tag

/-- A tag with its body. -/
structure Block where
  tag : Tag
  body : List Char
deriving DecidableEq

/-- **The tag whose bracket has just opened**, and the text after its closing bracket. -/
def tagAt? (cs : List Char) : Option (Tag × List Char) :=
  let name := (cs.take (Tag.longest + 1)).takeWhile (· != ']')
  match cs.drop name.length with
  | ']' :: rest => (Tag.ofName? name).map fun tag => (tag, rest)
  | _ => none

/-- What follows a tag is shorter than what it was cut from. -/
theorem tagAt?_shorter {cs rest : List Char} {tag : Tag} (here : tagAt? cs = some (tag, rest)) :
    rest.length < cs.length := by
  unfold tagAt? at here
  dsimp only at here
  split at here
  · next after found =>
    have same : after = rest := by
      rw [Option.map_eq_some_iff] at here
      obtain ⟨_, _, pair⟩ := here
      exact congrArg Prod.snd pair
    have bound := List.length_drop
      (i := ((cs.take (Tag.longest + 1)).takeWhile (· != ']')).length) (l := cs)
    rw [found, same, List.length_cons] at bound
    omega
  · exact absurd here (by simp)

/-- **A text cut at its tags**: what stands before the first one, and the blocks. -/
def cut : List Char → List Char × List Block
  | [] => ([], [])
  | c :: cs =>
    if c = '[' then
      match _here : tagAt? cs with
      | some (tag, rest) =>
        let parts := cut rest
        ([], ⟨tag, parts.1⟩ :: parts.2)
      | none =>
        let parts := cut cs
        ('[' :: parts.1, parts.2)
    else
      let parts := cut cs
      (c :: parts.1, parts.2)
termination_by cs => cs.length
decreasing_by
  · exact Nat.lt_succ_of_lt (tagAt?_shorter _here)
  · exact Nat.lt_succ_self _
  · exact Nat.lt_succ_self _

/-- **The blocks of a text**, with blanks around their bodies dropped. -/
def blocks (text : String) : List Block :=
  (cut text.toList).2.map fun block => { block with body := Text.trimChars block.body }

end ShaderForge
