/-
**Generation.**

A generator holds settings, the place where relative paths begin, and the findings of its last job.
A job first drops those findings. Then it chooses who compiles, finds out what the given path is
meant as, has it compiled, and publishes what was found; a job with errors among its findings fails.

* `Backend.select`: who compiles;
* `Job.generate`: a whole job;
* `Generator.generate`: a job of a generator, with the generator and the world after it.
-/

import ShaderForge.Job.Format
import ShaderForge.Job.Local
import ShaderForge.Job.Remote
import ShaderForge.Settings

namespace ShaderForge

/-! ## Part 1 — who compiles -/

/-- Who compiles. -/
inductive Backend
  | here (compiler : Compiler)
  | remote (service : Service)

/-- Which of the two compiles. -/
inductive BackendKind
  | here
  | remote
deriving DecidableEq

/-- The name of a kind. -/
def BackendKind.text : BackendKind → String
  | here => "Local"
  | remote => "Remote"

/-- **Who compiles, by the settings**: the local compiler if there is one, or else the service. -/
def Backend.select (settings : Settings) (resolver : Resolver) (timeout : Nat) :
    Except JobError Backend :=
  if settings.usesLocalCompiler then
    let text := Text.trim settings.binaryPath
    match resolver.expand text with
    | .error fault => throw (.invalidBinary text fault)
    | .ok binary => pure (.here ⟨binary, timeout⟩)
  else (Service.at? settings.apiUrl).map .remote

/-! ## Part 2 — jobs -/

/-- What is asked of a generator: a path, and an output format if it matters. -/
structure JobRequest where
  path : String
  format : Option String

/-- **What a job comes to.** -/
structure JobReport where
  backend : BackendKind
  root : Path
  format : Option String
  extracted : List Path
  invocations : Nat
  warnings : Nat

namespace Job

/-- The path of a request as an absolute one. -/
def requestedPath (resolver : Resolver) (path : String) : Except JobError Path :=
  match resolver.absolute path with
  | .error _ => throw (.invalidInput ⟨path⟩)
  | .ok absolute => pure absolute

/-- A job of the local compiler, with its findings published. -/
def generateHere (compiler : Compiler) (resolver : Resolver) (input : JobInput) :
    Job JobReport := do
  let (run, failure) ← compiler.compileAll resolver input
  match failure with
  | some .canceled => throw .canceled
  | some error =>
    publish run.diagnostics
    throw error
  | none =>
    publish run.diagnostics
    if 0 < errorCount run.diagnostics then throw (.compilerErrors (errorCount run.diagnostics))
    else pure {
      backend := .here
      root := input.root
      format := none
      extracted := []
      invocations := run.invocations
      warnings := warningCount run.diagnostics }

/-- A job of the service, with its findings published. -/
def generateRemotely (service : Service) (resolver : Resolver) (hint : Option String)
    (input : JobInput) : Job JobReport := do
  checkpoint
  let format ← outputFormat hint input
  log ("output format: " ++ format)
  let run ← service.run resolver input format
  publish run.diagnostics
  match run.failedLog with
  | some path => throw (.generationFailed path)
  | none => pure {
      backend := .remote
      root := input.root
      format := some format
      extracted := run.extracted
      invocations := 1
      warnings := warningCount run.diagnostics }

/-- **A whole job.** -/
def generate (settings : Settings) (resolver : Resolver) (timeout : Nat) (request : JobRequest) :
    Job JobReport := do
  clearFindings
  checkpoint
  let backend ← settle (Backend.select settings resolver timeout)
  let path ← settle (requestedPath resolver request.path)
  let input ← guarded (inspect fun world => JobInput.resolve world path)
  match backend with
  | .here compiler => generateHere compiler resolver input
  | .remote service => generateRemotely service resolver request.format input

end Job

/-! ## Part 3 — generators -/

/-- **A generator**: settings, where relative paths begin, how long a run of the compiler may take,
and the findings of the last job. -/
structure Generator where
  settings : Settings
  resolver : Resolver
  timeout : Nat
  findings : DiagnosticCollection

namespace Generator

/-- A generator that has done nothing. -/
def fresh (settings : Settings) (resolver : Resolver) (timeout : Nat) : Generator :=
  ⟨settings, resolver, timeout, .empty⟩

/-- What a job of a generator comes to, and the session that it leaves. -/
def generate (generator : Generator) (request : JobRequest) (hooks : Hooks) (world : World) :
    Except JobError JobReport × Session :=
  (Job.generate generator.settings generator.resolver generator.timeout request).perform hooks
    ⟨world, [], generator.findings⟩

/-- A generator after a job that left a session. -/
def afterJob (generator : Generator) (session : Session) : Generator :=
  { generator with findings := session.findings }

end Generator

end ShaderForge
