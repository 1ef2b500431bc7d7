/-
**Compiling here.**

The local compiler is run once for each config of a job, one after the other, in the root directory,
with every directory below it as a search path. A run may write files that later runs need. What it
prints is logged, and what it prints as errors is read for findings, in the world that it left.

When a run takes too long or cannot be started the later ones do not happen, but the findings of the
earlier ones remain.

* `compilerArguments`: what the compiler is told;
* `Compiler.compile`: one run, with its findings;
* `Compiler.compileAll`: all runs, with their findings and the error that ended them.
-/

import ShaderForge.Diagnostic.Parser
import ShaderForge.Input.Basic
import ShaderForge.Job.Basic
import ShaderForge.Text.Utf8

namespace ShaderForge

/-! ## Part 1 — the compiler -/

/-- How long a run may take, in milliseconds, when nothing else is said. -/
def standardTimeout : Nat := 10000

/-- **A local compiler**: the program, and how long a run may take. -/
structure Compiler where
  binary : Path
  timeout : Nat

/-- What the compiler is told: the config, and where to look for files. -/
def compilerArguments (config : Path) (searchPaths : List Path) : List String :=
  ["--batch-template", config.text, "--output-to-json-file-path"]
    ++ searchPaths.flatMap fun path => ["--search-path", path.text]

/-- A path relative to the root, or the path itself. -/
def relativeTo (root path : Path) : Path := (path.stripped? root).getD path

/-- **What a local job produced**: findings, and the number of runs that ended. -/
structure LocalRun where
  diagnostics : List Diagnostic
  invocations : Nat

/-- A local job that produced nothing yet. -/
def LocalRun.empty : LocalRun := ⟨[], 0⟩

/-- A local job after one more run. -/
def LocalRun.extend (run : LocalRun) (diagnostics : List Diagnostic) : LocalRun :=
  ⟨run.diagnostics ++ diagnostics, run.invocations + 1⟩

/-- The share of one config in the progress of a job. -/
def compileShare (count : Nat) : Rat := 100 / count

namespace Compiler

/-! ## Part 2 — one run -/

/-- The compiler runs; what it printed. -/
def launch (compiler : Compiler) (config : Path) (invocation : Invocation) :
    Job (ByteArray × ByteArray) := do
  let session ← get
  match (← read).compiler session.trace invocation session.world with
  | .error fault => throw (.spawn compiler.binary fault)
  | .ok (outcome, world) =>
    set { session with world }
    Job.emit (.started invocation)
    match outcome with
    | .exited stdout stderr _ => pure (stdout, stderr)
    | .timedOut => throw (.timeout config compiler.timeout)

/-- A run for a config, given relative to the root; what it printed. -/
def invoke (compiler : Compiler) (root config : Path) (searchPaths : List Path) :
    Job (ByteArray × ByteArray) := do
  Job.log ("running " ++ compiler.binary.text ++ " for " ++ config.text)
  Job.guarded (compiler.launch config ⟨compiler.binary, compilerArguments config searchPaths, root⟩)

/-- **A run for a config**, with its findings. -/
def compile (compiler : Compiler) (resolver : Resolver) (root : Path) (searchPaths : List Path)
    (share : Rat) (config : Path) : Job (List Diagnostic) := do
  Job.checkpoint
  let relative := relativeTo root config
  let (stdout, stderr) ← compiler.invoke root relative searchPaths
  let errors := Text.decodeLossy stderr
  Job.logLines (Text.decodeLossy stdout)
  Job.logLines errors
  let reader : OutputReader := ⟨(← get).world, resolver, root, config⟩
  Job.progress share (some ("compiled " ++ relative.text))
  pure (reader.parse errors)

/-! ## Part 3 — all runs -/

/-- The runs for the configs that are left; the first error ends them. -/
def compileEach (compiler : Compiler) (resolver : Resolver) (root : Path) (searchPaths : List Path)
    (share : Rat) : LocalRun → List Path → Job (LocalRun × Option JobError)
  | run, [] => pure (run, none)
  | run, config :: rest => do
    match ← Job.attempt (compiler.compile resolver root searchPaths share config) with
    | .error error => pure (run, some error)
    | .ok diagnostics =>
      compiler.compileEach resolver root searchPaths share (run.extend diagnostics) rest

/-- **All runs of a job**: what they produced, and the error that ended them. -/
def compileAll (compiler : Compiler) (resolver : Resolver) (input : JobInput) :
    Job (LocalRun × Option JobError) := do
  let root := input.root
  let configs := input.configFiles (← get).world
  if configs.isEmpty then throw (.invalidInput root)
  let searchPaths ← Job.guarded (Job.inspect fun world => pure (subdirectories world root))
  compiler.compileEach resolver root searchPaths (compileShare configs.length) .empty configs

end Compiler

end ShaderForge
