/-
**Jobs.**

A job is an action on a session: the world of files, the trace of what happened, and the findings
that were published last. It has collaborators that others supply: the token that cancels it, the
prompt that asks the user, the compiler and the service. It ends with a result or an error, and what
it did to the session remains in either case.

* `Job.checkpoint`: ends the job if the token has fired;
* `Job.awaited`: work that the job waits for; its outcome counts only if the token did not fire
  meanwhile;
* `Job.guarded`: a checkpoint, then such work;
* `Job.attempt`: the outcome of an action as a value.
-/

import ShaderForge.Diagnostic.Collection
import ShaderForge.Job.Event
import ShaderForge.JobError
import ShaderForge.World.Change

namespace ShaderForge

/-! ## Part 1 — collaborators -/

/-- How a run of the compiler ends: it exits with what it printed, or its time runs out. -/
inductive CompilerOutcome
  | exited (stdout stderr : ByteArray) (status : Int)
  | timedOut

/-- A compiler: what a run does in a world after a trace, or why it cannot be started. -/
abbrev CompilerBehaviour := Trace → Invocation → World → Except IoFault (CompilerOutcome × World)

/-- What the service answers to a request: nothing, or a status and the pieces of a body, which may
break off. -/
inductive Reply
  | unreachable (fault : TransferFault)
  | answered (status : Nat) (pieces : List ByteArray) (broken : Bool)

/-- A service: its answer to a request after a trace. -/
abbrev ServiceBehaviour := Trace → Upload → Reply

/-- **What a job works with**: its token, the prompt, the compiler and the service. -/
structure Hooks where
  token : Token
  prompt : List String → Option String
  compiler : CompilerBehaviour
  service : ServiceBehaviour

/-! ## Part 2 — sessions -/

/-- **What a job acts on**: the files, what happened so far, and the findings published last. -/
structure Session where
  world : World
  trace : Trace
  findings : DiagnosticCollection

/-- The session of a job that has not begun. -/
def Session.fresh (world : World) : Session := ⟨world, [], .empty⟩

/-- **An action of a job.** -/
abbrev Job := ReaderT Hooks (ExceptT JobError (StateM Session))

namespace Job

variable {α : Type}

/-- What a job gives, and the session that it leaves. -/
def perform (job : Job α) (hooks : Hooks) (session : Session) : Except JobError α × Session :=
  ((job.run hooks).run).run session

/-- The outcome of an action as a value. -/
def attempt (job : Job α) : Job (Except JobError α) := fun hooks session =>
  let (outcome, after) := job.perform hooks session
  (.ok outcome, after)

/-- A value, or the error that there is instead. -/
def settle : Except JobError α → Job α
  | .ok value => pure value
  | .error error => throw error

/-! ## Part 3 — events -/

/-- An event is added to the trace. -/
def emit (event : Event) : Job Unit :=
  modify fun session => { session with trace := event :: session.trace }

/-- Progress is reported; it never goes back. -/
def progress (increment : Rat) (message : Option String) : Job Unit :=
  emit (.progressed (if increment < 0 then 0 else increment) message)

/-- A line is logged. -/
def log (line : String) : Job Unit := emit (.logged line)

/-- The lines of a text that are not blank are logged. -/
def logLines (text : String) : Job Unit :=
  ((Text.lines text).filter fun line => !Text.isBlankText line).forM log

/-- The user is asked to choose. -/
def choose (choices : List String) : Job (Option String) := do
  emit (.prompted choices)
  pure ((← read).prompt choices)

/-! ## Part 4 — cancellation -/

/-- Whether the token has fired. -/
def look : Job Bool := do
  emit .looked
  pure ((← read).token.fired (← get).trace)

/-- **The job ends here if the token has fired.** -/
def checkpoint : Job Unit := do
  if ← look then throw .canceled

/-- **Work that the job waits for.** If the token fires meanwhile, its outcome does not count. -/
def awaited (work : Job α) : Job α := do
  let outcome ← work.attempt
  checkpoint
  settle outcome

/-- A checkpoint, then work that the job waits for. -/
def guarded (work : Job α) : Job α := do
  checkpoint
  work.awaited

/-! ## Part 5 — files -/

/-- A question about the files. -/
def inspect (question : World → Except JobError α) : Job α := do
  settle (question (← get).world)

/-- An action on the files. -/
def onDisk (action : Disk α) : Job α := do
  let session ← get
  let (outcome, world) := action.run.run session.world
  set { session with world }
  settle (liftIo outcome)

/-- New findings take the place of those published before. -/
def publish (diagnostics : List Diagnostic) : Job Unit :=
  modify fun session => { session with findings := session.findings.replace diagnostics }

/-- The findings published before are dropped. -/
def clearFindings : Job Unit :=
  modify fun session => { session with findings := session.findings.clear }

end Job

end ShaderForge
