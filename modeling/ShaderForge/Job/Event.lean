/-
**What happens in a job.**

A job is watched through its events: what it reports and logs, what it asks, and what it starts. The
list of them, latest first, is its trace.

A job is cancelled by a token. A token fires at some moment of the trace and stays fired. Each time
a job looks at the token is an event of its own, and so a token can fire between any two steps.

* `Event`, `Trace`;
* `Token`: which traces it has fired on, with `never`, `always` and `upon`.
-/

import ShaderForge.Path.Basic

namespace ShaderForge

/-! ## Part 1 — events -/

/-- A run of the local compiler: the program, its arguments, and the directory it runs in. -/
structure Invocation where
  binary : Path
  arguments : List String
  directory : Path
deriving DecidableEq

/-- A request to the service: where it goes, the output format asked for, the entries sent. -/
structure Upload where
  url : String
  format : String
  members : List (String × ByteArray)

/-- **One event of a job.** -/
inductive Event
  | progressed (increment : Rat) (message : Option String)
  | logged (line : String)
  | prompted (choices : List String)
  | looked
  | packed (done total : Nat)
  | started (invocation : Invocation)
  | sent (upload : Upload)

/-- The events of a job so far, latest first. -/
abbrev Trace := List Event

namespace Trace

/-- The increments that a job reported, in order, with their messages. -/
def progress (trace : Trace) : List (Rat × Option String) :=
  trace.reverse.filterMap fun
    | .progressed increment message => some (increment, message)
    | _ => none

/-- The lines that a job logged, in order. -/
def log (trace : Trace) : List String :=
  trace.reverse.filterMap fun
    | .logged line => some line
    | _ => none

/-- The choices that a job offered, in order. -/
def prompts (trace : Trace) : List (List String) :=
  trace.reverse.filterMap fun
    | .prompted choices => some choices
    | _ => none

/-- The steps of packing, in order: the bytes packed so far and the bytes to pack. -/
def packing (trace : Trace) : List (Nat × Nat) :=
  trace.reverse.filterMap fun
    | .packed done total => some (done, total)
    | _ => none

/-- The runs of the compiler, in order. -/
def invocations (trace : Trace) : List Invocation :=
  trace.reverse.filterMap fun
    | .started invocation => some invocation
    | _ => none

/-- The requests to the service, in order. -/
def uploads (trace : Trace) : List Upload :=
  trace.reverse.filterMap fun
    | .sent upload => some upload
    | _ => none

end Trace

/-! ## Part 2 — tokens -/

/-- **When a job is cancelled**: the traces on which the token has fired. It never unfires. -/
structure Token where
  fired : Trace → Bool
  latched : ∀ event trace, fired trace = true → fired (event :: trace) = true

namespace Token

/-- The token that never fires. -/
def never : Token := ⟨fun _ => false, fun _ _ there => there⟩

/-- The token that has fired before the job. -/
def always : Token := ⟨fun _ => true, fun _ _ _ => rfl⟩

/-- The token that fires upon a kind of event. -/
def upon (trigger : Event → Bool) : Token where
  fired trace := trace.any trigger
  latched event trace there := by rw [List.any_cons, there, Bool.or_true]

/-- The token that fires when an event of a kind has happened a number of times. -/
def after (count : Nat) (counted : Event → Bool) : Token where
  fired trace := decide (count ≤ trace.countP counted)
  latched event trace there := by
    rw [decide_eq_true_iff] at there ⊢
    exact Nat.le_trans there (List.sublist_cons_self event trace).countP_le

end Token

end ShaderForge
