/-
**A step against the token.**

A step that waits is polled again and again until it has a result. In each poll it may do some work,
it may cancel the token itself, and it may finish. Before each poll the token is looked at: if it
has fired, the step is not polled any more, and whoever started it is told to abort it.

* `Poll`, `Step`: what a step does in each poll;
* `race`: the end of a step against the token, if it comes within a number of polls.
-/

import ShaderForge.JobError

namespace ShaderForge

/-- **One poll of a step**: whether it cancels the token, and the result if the step finishes. -/
structure Poll (α : Type) where
  cancels : Bool
  result : Option (Except JobError α)

/-- A step: what it does in each poll, for as long as it is polled. -/
abbrev Step (α : Type) := Nat → Poll α

/-- The step that does given polls and then waits for ever. -/
def Step.ofPolls {α : Type} (polls : List (Poll α)) : Step α := fun index =>
  (polls[index]?).getD ⟨false, none⟩

/-- **How a race ends**: the result, how often the step was told to abort, how often it was polled,
and whether the token has fired. -/
structure RaceEnd (α : Type) where
  result : Except JobError α
  aborts : Nat
  polls : Nat
  fired : Bool

/-- The race from poll `index` on; `outside index` says that the token is cancelled from outside
just before that poll. -/
def raceFrom {α : Type} (step : Step α) (outside : Nat → Bool) :
    Nat → Nat → Bool → Option (RaceEnd α)
  | 0, _, _ => none
  | bound + 1, index, fired =>
    if fired || outside index then some ⟨.error .canceled, 1, index, true⟩
    else
      let poll := step index
      match poll.result with
      | some result => some ⟨result, 0, index + 1, poll.cancels⟩
      | none => raceFrom step outside bound (index + 1) poll.cancels

/-- **A step against the token**, for at most `bound` looks at it. -/
def race {α : Type} (step : Step α) (outside : Nat → Bool) (bound : Nat) : Option (RaceEnd α) :=
  raceFrom step outside bound 0 false

end ShaderForge
