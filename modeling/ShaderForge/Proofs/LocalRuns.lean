/-
**Local jobs, run by run.**

`Compiler.runs` is what a local job comes to when nobody interferes: for each config in turn the
compiler is asked with the same search paths, in the world that the run before it left; the findings
of a run are read in the world right after it; and the first run that times out or cannot be started
is the last one. `perform_compileEach` says that the job does just this, by induction on the configs
that are left, and `generate_runs` follows it through a whole job.

Whoever interferes, a local job adds runs, lines, reports and looks at the token to the trace, and
nothing else (`Compiler.adds_compileAll`).

What the compiler writes to its standard output, and the status it exits with, are not looked at:
compilers that agree in all else (`silenced`) give the same jobs (`Compiler.runs_congr`).
-/

import Mathlib
import ShaderForge.Job.Generate
import ShaderForge.Proofs.Perform
import ShaderForge.Proofs.Resolved
import ShaderForge.Proofs.SourceFiles

namespace ShaderForge

variable {hooks : Hooks} {session : Session} {resolver : Resolver} {root : Path}
  {searchPaths : List Path} {share : Rat} {compiler : Compiler}

/-! ## Part 1 — runs in a row -/

/-- What runs of a compiler come to: the findings of each run that ended, the failure that stopped
them, and the world and the trace that they leave. -/
structure LocalRuns where
  findings : List (List Diagnostic)
  failure : Option JobError
  world : World
  trace : Trace

namespace Compiler

/-- What the compiler is asked for a config. -/
def asked (compiler : Compiler) (root : Path) (searchPaths : List Path) (config : Path) :
    Invocation :=
  ⟨compiler.binary, compilerArguments (relativeTo root config) searchPaths, root⟩

/-- The trace with which the compiler is started. -/
def before (compiler : Compiler) (root config : Path) (trace : Trace) : Trace :=
  .looked :: .logged ("running " ++ compiler.binary.text ++ " for " ++
    (relativeTo root config).text) :: .looked :: trace

/-- The trace after a run that ended. -/
def ended (root config : Path) (share : Rat) (invocation : Invocation) (stdout stderr : ByteArray)
    (trace : Trace) : Trace :=
  .progressed share (some ("compiled " ++ (relativeTo root config).text)) ::
    (Trace.printed (Text.decodeLossy stderr) ++ (Trace.printed (Text.decodeLossy stdout) ++
      .looked :: .started invocation :: trace))

/-- **The runs of a compiler for some configs**, one after the other. -/
def runs (compiler : Compiler) (behaviour : CompilerBehaviour) (resolver : Resolver) (root : Path)
    (searchPaths : List Path) (share : Rat) : List Path → World → Trace → LocalRuns
  | [], world, trace => ⟨[], none, world, trace⟩
  | config :: rest, world, trace =>
    let invocation := compiler.asked root searchPaths config
    let before := compiler.before root config trace
    match behaviour before invocation world with
    | .error fault => ⟨[], some (.spawn compiler.binary fault), world, .looked :: before⟩
    | .ok (.timedOut, after) =>
      ⟨[], some (.timeout (relativeTo root config) compiler.timeout), after,
        .looked :: .started invocation :: before⟩
    | .ok (.exited stdout stderr _, after) =>
      let reader : OutputReader := ⟨after, resolver, root, config⟩
      let later := compiler.runs behaviour resolver root searchPaths share rest after
        (ended root config share invocation stdout stderr before)
      { later with findings := reader.parse (Text.decodeLossy stderr) :: later.findings }

theorem runs_cons {behaviour : CompilerBehaviour} (config : Path) (rest : List Path) (world : World)
    (trace : Trace) :
    compiler.runs behaviour resolver root searchPaths share (config :: rest) world trace =
      match behaviour (compiler.before root config trace) (compiler.asked root searchPaths config)
        world with
      | .error fault =>
        ⟨[], some (.spawn compiler.binary fault), world,
          .looked :: compiler.before root config trace⟩
      | .ok (.timedOut, after) =>
        ⟨[], some (.timeout (relativeTo root config) compiler.timeout), after,
          .looked :: .started (compiler.asked root searchPaths config) ::
            compiler.before root config trace⟩
      | .ok (.exited stdout stderr _, after) =>
        let later := compiler.runs behaviour resolver root searchPaths share rest after
          (ended root config share (compiler.asked root searchPaths config) stdout stderr
            (compiler.before root config trace))
        { later with
          findings :=
            (OutputReader.mk after resolver root config).parse (Text.decodeLossy stderr) ::
              later.findings } := rfl

/-! ## Part 2 — a job makes these runs -/

theorem perform_launch (config : Path) (invocation : Invocation) :
    (compiler.launch config invocation).perform hooks session =
      match hooks.compiler session.trace invocation session.world with
      | .error fault => (.error (.spawn compiler.binary fault), session)
      | .ok (.timedOut, world) =>
        (.error (.timeout config compiler.timeout),
          { session with world, trace := .started invocation :: session.trace })
      | .ok (.exited stdout stderr _, world) =>
        (.ok (stdout, stderr),
          { session with world, trace := .started invocation :: session.trace }) := by
  unfold launch
  rw [Job.perform_bind_ok Job.perform_get, Job.perform_bind_ok Job.perform_read]
  cases hooks.compiler session.trace invocation session.world with
  | error fault => rfl
  | ok result =>
    obtain ⟨outcome, world⟩ := result
    cases outcome with
    | exited stdout stderr status => rfl
    | timedOut => rfl

theorem perform_invoke (quiet : hooks.Quiet) (config : Path) :
    (compiler.invoke root (relativeTo root config) searchPaths).perform hooks session.looked =
      match hooks.compiler (compiler.before root config session.trace)
        (compiler.asked root searchPaths config) session.world with
      | .error fault =>
        (.error (.spawn compiler.binary fault),
          { session with trace := .looked :: compiler.before root config session.trace })
      | .ok (.timedOut, world) =>
        (.error (.timeout (relativeTo root config) compiler.timeout),
          { session with
            world
            trace := .looked :: .started (compiler.asked root searchPaths config) ::
              compiler.before root config session.trace })
      | .ok (.exited stdout stderr _, world) =>
        (.ok (stdout, stderr),
          { session with
            world
            trace := .looked :: .started (compiler.asked root searchPaths config) ::
              compiler.before root config session.trace }) := by
  unfold invoke
  rw [Job.perform_bind_ok (Job.perform_log _), Job.perform_guarded quiet]
  let ready : Session := { session with trace := compiler.before root config session.trace }
  show (((compiler.launch (relativeTo root config) (compiler.asked root searchPaths config)).perform
    hooks ready).1, ((compiler.launch (relativeTo root config)
      (compiler.asked root searchPaths config)).perform hooks ready).2.looked) = _
  rw [perform_launch]
  cases hooks.compiler (compiler.before root config session.trace)
    (compiler.asked root searchPaths config) session.world with
  | error fault => rfl
  | ok result =>
    obtain ⟨outcome, world⟩ := result
    cases outcome with
    | exited stdout stderr status => rfl
    | timedOut => rfl

/-- **One run of a job**: what the compiler does decides what it comes to. -/
theorem perform_compile (quiet : hooks.Quiet) (forward : 0 ≤ share) (config : Path) :
    (compiler.compile resolver root searchPaths share config).perform hooks session =
      match hooks.compiler (compiler.before root config session.trace)
        (compiler.asked root searchPaths config) session.world with
      | .error fault =>
        (.error (.spawn compiler.binary fault),
          { session with trace := .looked :: compiler.before root config session.trace })
      | .ok (.timedOut, world) =>
        (.error (.timeout (relativeTo root config) compiler.timeout),
          { session with
            world
            trace := .looked :: .started (compiler.asked root searchPaths config) ::
              compiler.before root config session.trace })
      | .ok (.exited stdout stderr _, world) =>
        (.ok ((OutputReader.mk world resolver root config).parse (Text.decodeLossy stderr)),
          { session with
            world
            trace := ended root config share (compiler.asked root searchPaths config) stdout stderr
              (compiler.before root config session.trace) }) := by
  unfold compile
  rw [Job.perform_bind_ok (Job.perform_checkpoint quiet), Job.perform_bind, perform_invoke quiet]
  cases hooks.compiler (compiler.before root config session.trace)
    (compiler.asked root searchPaths config) session.world with
  | error fault => rfl
  | ok result =>
    obtain ⟨outcome, world⟩ := result
    cases outcome with
    | timedOut => rfl
    | exited stdout stderr status =>
      dsimp only
      rw [Job.perform_bind_ok (Job.perform_logLines _),
        Job.perform_bind_ok (Job.perform_logLines _),
        Job.perform_bind_ok Job.perform_get, Job.perform_bind_ok (Job.perform_progress forward _)]
      rfl

/-- **All runs of a job**, from what earlier ones produced. -/
theorem perform_compileEach (quiet : hooks.Quiet) (forward : 0 ≤ share) (run : LocalRun)
    (configs : List Path) :
    (compiler.compileEach resolver root searchPaths share run configs).perform hooks session =
      let runs := compiler.runs hooks.compiler resolver root searchPaths share configs session.world
        session.trace
      (.ok (⟨run.diagnostics ++ runs.findings.flatten, run.invocations + runs.findings.length⟩,
        runs.failure), ⟨runs.world, runs.trace, session.findings⟩) := by
  induction configs generalizing run session with
  | nil =>
    unfold compileEach runs
    dsimp only
    rw [Job.perform_pure, List.flatten_nil, List.append_nil, List.length_nil, Nat.add_zero]
  | cons config rest ih =>
    unfold compileEach
    rw [Job.perform_bind_ok (Job.perform_attempt _), perform_compile quiet forward, runs_cons]
    cases hooks.compiler (compiler.before root config session.trace)
      (compiler.asked root searchPaths config) session.world with
    | error fault =>
      dsimp only
      rw [Job.perform_pure, List.flatten_nil, List.append_nil, List.length_nil, Nat.add_zero]
    | ok result =>
      obtain ⟨outcome, world⟩ := result
      cases outcome with
      | timedOut =>
        dsimp only
        rw [Job.perform_pure, List.flatten_nil, List.append_nil, List.length_nil, Nat.add_zero]
      | exited stdout stderr status =>
        dsimp only
        rw [ih]
        dsimp only [LocalRun.extend]
        rw [List.flatten_cons, List.length_cons, List.append_assoc, Nat.add_assoc, Nat.add_comm 1]

/-- A run that stops the others is no cancellation, and if none does there is one for each
config. -/
theorem runs_failure {behaviour : CompilerBehaviour} (configs : List Path) (world : World)
    (trace : Trace) :
    let runs := compiler.runs behaviour resolver root searchPaths share configs world trace
    runs.failure ≠ some .canceled ∧
      (runs.failure = none → runs.findings.length = configs.length) := by
  induction configs generalizing world trace with
  | nil => exact ⟨fun nothing => (by cases nothing), fun _ => rfl⟩
  | cons config rest ih =>
    rw [runs_cons]
    split
    · exact ⟨fun canceled => (by cases canceled), fun whole => by cases whole⟩
    · exact ⟨fun canceled => (by cases canceled), fun whole => by cases whole⟩
    · next stdout stderr status after answer =>
      obtain ⟨hard, each⟩ := ih after
        (ended root config share (compiler.asked root searchPaths config) stdout stderr
          (compiler.before root config trace))
      refine ⟨hard, fun whole => ?_⟩
      rw [List.length_cons, List.length_cons, each whole]

theorem compileShare_nonneg (count : Nat) : 0 ≤ compileShare count := by
  have inverse : 0 ≤ (count : Rat)⁻¹ := by
    rw [← Rat.num_nonneg, Rat.num_inv]
    exact Int.mul_nonneg (Int.sign_nonneg_iff.mpr (Int.natCast_nonneg count)) (Int.natCast_nonneg _)
  rw [compileShare, Rat.div_def]
  exact Rat.mul_nonneg (by decide) inverse

/-- **The runs of a local job** for an input, from the world and the trace that it begins with. -/
def jobRuns (compiler : Compiler) (behaviour : CompilerBehaviour) (resolver : Resolver)
    (input : JobInput) (world : World) (trace : Trace) : LocalRuns :=
  compiler.runs behaviour resolver input.root (subdirectories world input.root)
    (compileShare (input.configFiles world).length) (input.configFiles world) world trace

theorem jobRuns_failure {behaviour : CompilerBehaviour} {input : JobInput} {world : World}
    {trace : Trace} :
    let runs := compiler.jobRuns behaviour resolver input world trace
    runs.failure ≠ some .canceled ∧
      (runs.failure = none → runs.findings.length = (input.configFiles world).length) :=
  runs_failure _ _ _

/-- The runs for some configs, which the search paths are looked up for first. -/
def compileListed (compiler : Compiler) (resolver : Resolver) (root : Path) (configs : List Path) :
    Job (LocalRun × Option JobError) := do
  let searchPaths ← Job.guarded (Job.inspect fun world => pure (subdirectories world root))
  compiler.compileEach resolver root searchPaths (compileShare configs.length) .empty configs

/-- A job that has configs compiles those that it finds in the world that it begins in. -/
theorem perform_compileAll_eq {input : JobInput}
    (some_config : input.configFiles session.world ≠ []) :
    (compiler.compileAll resolver input).perform hooks session =
      (compiler.compileListed resolver input.root (input.configFiles session.world)).perform hooks
        session := by
  have proper : (input.configFiles session.world).isEmpty = false :=
    List.isEmpty_eq_false_iff.mpr some_config
  unfold compileAll
  rw [Job.perform_bind_ok Job.perform_get]
  dsimp only
  rw [proper, if_neg Bool.false_ne_true]
  rfl

/-- **A local job makes the runs** for its configs, which it finds in the world that it begins
in. -/
theorem perform_compileAll (quiet : hooks.Quiet) {input : JobInput}
    (some_config : input.configFiles session.world ≠ []) :
    (compiler.compileAll resolver input).perform hooks session =
      let runs := compiler.jobRuns hooks.compiler resolver input session.world
        (.looked :: .looked :: session.trace)
      (.ok (⟨runs.findings.flatten, runs.findings.length⟩, runs.failure),
        ⟨runs.world, runs.trace, session.findings⟩) := by
  rw [perform_compileAll_eq some_config, compileListed,
    Job.perform_bind_ok (Job.perform_guarded_inspect quiet fun world =>
      pure (subdirectories world input.root)),
    perform_compileEach quiet (compileShare_nonneg _)]
  dsimp only [LocalRun.empty]
  rw [List.nil_append, Nat.zero_add]
  rfl

/-! ## Part 3 — what runs add to the trace -/

section Adds

variable {allowed : Event → Prop} (looks : allowed .looked) (logs : ∀ line, allowed (.logged line))
  (starts : ∀ invocation, allowed (.started invocation))
  (reports : ∀ increment message, allowed (.progressed increment message))

include starts

/-- Starting the compiler adds the run, if it can be started. -/
theorem adds_launch (config : Path) (invocation : Invocation) :
    Job.Adds allowed hooks (compiler.launch config invocation) := by
  intro session
  rw [perform_launch]
  have fits : ∀ event ∈ [Event.started invocation], allowed event := fun event among =>
    List.mem_singleton.mp among ▸ starts invocation
  split
  · exact ⟨[], rfl, fun _ among => absurd among List.not_mem_nil⟩
  · exact ⟨[.started invocation], rfl, fits⟩
  · exact ⟨[.started invocation], rfl, fits⟩

include looks logs

theorem adds_invoke (root config : Path) (searchPaths : List Path) :
    Job.Adds allowed hooks (compiler.invoke root config searchPaths) :=
  (Job.adds_emit (logs _)).bind fun _ => (adds_launch starts _ _).guarded looks

include reports

/-- A run for a config adds what it logs, the run itself, and its report. -/
theorem adds_compile (config : Path) :
    Job.Adds allowed hooks (compiler.compile resolver root searchPaths share config) :=
  (Job.adds_checkpoint looks).bind fun _ =>
    (adds_invoke looks logs starts _ _ _).bind fun _ => (Job.adds_logLines logs _).bind fun _ =>
      (Job.adds_logLines logs _).bind fun _ => (Job.Adds.of_trace_eq fun _ => rfl).bind fun _ =>
        (Job.adds_progress reports _ _).bind fun _ => Job.adds_pure _

theorem adds_compileEach (run : LocalRun) (configs : List Path) :
    Job.Adds allowed hooks
      (compiler.compileEach resolver root searchPaths share run configs) := by
  induction configs generalizing run with
  | nil => exact Job.adds_pure _
  | cons config rest ih =>
    refine (adds_compile looks logs starts reports config).attempt.bind fun outcome => ?_
    cases outcome with
    | error error => exact Job.adds_pure _
    | ok diagnostics => exact ih _

/-- **All runs of a job add nothing but that**, and looks at the token. -/
theorem adds_compileAll (input : JobInput) :
    Job.Adds allowed hooks (compiler.compileAll resolver input) := by
  have runs : ∀ configs, Job.Adds allowed hooks
      (compiler.compileListed resolver input.root configs) := fun configs =>
    ((Job.adds_inspect _).guarded looks).bind fun _ =>
      adds_compileEach looks logs starts reports _ configs
  refine (Job.Adds.of_trace_eq fun _ => rfl).bind fun session => ?_
  dsimp only
  split
  · exact (Job.adds_throw _).bind fun _ => runs _
  · exact runs _

end Adds

end Compiler

/-! ## Part 4 — what the runs do not depend on -/

/-- An outcome without standard output and exit status. -/
def CompilerOutcome.silenced : CompilerOutcome → CompilerOutcome
  | exited _ stderr _ => exited ByteArray.empty stderr 0
  | timedOut => timedOut

/-- What a run comes to, standard output and exit status aside. -/
def silenced (answer : Except IoFault (CompilerOutcome × World)) :
    Except IoFault (CompilerOutcome × World) :=
  answer.map fun result => (result.1.silenced, result.2)

/-- **Compilers that differ in standard output and exit status only**: after the same runs, they do
the same to the files and print the same errors. -/
def SameErrors (first second : CompilerBehaviour) : Prop :=
  ∀ trace other invocation world, Trace.invocations trace = Trace.invocations other →
    silenced (first trace invocation world) = silenced (second other invocation world)

namespace Compiler

theorem invocations_append (later earlier : Trace) :
    Trace.invocations (later ++ earlier) = earlier.invocations ++ later.invocations := by
  unfold Trace.invocations
  rw [List.reverse_append, List.filterMap_append]

theorem invocations_printed (text : String) : (Trace.printed text).invocations = [] := by
  unfold Trace.invocations Trace.printed
  rw [List.reverse_reverse, List.filterMap_map]
  exact List.filterMap_eq_nil_iff.mpr fun _ _ => rfl

theorem invocations_before (config : Path) (trace : Trace) :
    (compiler.before root config trace).invocations = trace.invocations :=
  (invocations_append [.looked, .logged _, .looked] trace).trans (List.append_nil _)

theorem invocations_ended (config : Path) (invocation : Invocation) (stdout stderr : ByteArray)
    (trace : Trace) :
    (ended root config share invocation stdout stderr trace).invocations =
      trace.invocations ++ [invocation] := by
  have shape : ended root config share invocation stdout stderr trace =
      [.progressed share (some ("compiled " ++ (relativeTo root config).text))] ++
        (Trace.printed (Text.decodeLossy stderr) ++ (Trace.printed (Text.decodeLossy stdout) ++
          ([.looked, .started invocation] ++ trace))) := rfl
  rw [shape, invocations_append, invocations_append, invocations_append, invocations_append,
    invocations_printed, invocations_printed, List.append_nil, List.append_nil]
  exact List.append_nil _

/-- **Standard output and exit status change nothing**: not the findings, the failure or the world.
-/
theorem runs_congr {first second : CompilerBehaviour} (agree : SameErrors first second)
    (configs : List Path) (world : World) {trace other : Trace}
    (same : trace.invocations = other.invocations) :
    let runs := compiler.runs first resolver root searchPaths share configs world trace
    let others := compiler.runs second resolver root searchPaths share configs world other
    runs.findings = others.findings ∧ runs.failure = others.failure ∧
      runs.world = others.world := by
  induction configs generalizing world trace other with
  | nil => exact ⟨rfl, rfl, rfl⟩
  | cons config rest ih =>
    have alike := agree (compiler.before root config trace) (compiler.before root config other)
      (compiler.asked root searchPaths config) world
      (by rw [invocations_before, invocations_before, same])
    rw [runs_cons, runs_cons]
    revert alike
    cases first (compiler.before root config trace) (compiler.asked root searchPaths config)
      world with
    | error fault =>
      cases second (compiler.before root config other) (compiler.asked root searchPaths config)
        world with
      | error fault' =>
        intro alike
        cases alike
        exact ⟨rfl, rfl, rfl⟩
      | ok result =>
        intro alike
        cases alike
    | ok result =>
      obtain ⟨outcome, after⟩ := result
      cases second (compiler.before root config other) (compiler.asked root searchPaths config)
        world with
      | error fault =>
        intro alike
        cases alike
      | ok result =>
        obtain ⟨outcome', after'⟩ := result
        intro alike
        cases outcome with
        | timedOut =>
          cases outcome' with
          | timedOut =>
            cases alike
            exact ⟨rfl, rfl, rfl⟩
          | exited stdout stderr status => cases alike
        | exited stdout stderr status =>
          cases outcome' with
          | timedOut => cases alike
          | exited stdout' stderr' status' =>
            have pairs := Prod.mk.inj (Except.ok.inj alike)
            have errors : stderr = stderr' := (CompilerOutcome.exited.inj pairs.1).2.1
            have worlds : after = after' := pairs.2
            subst errors worlds
            have asked : (ended root config share (compiler.asked root searchPaths config) stdout
                stderr (compiler.before root config trace)).invocations =
                (ended root config share (compiler.asked root searchPaths config) stdout' stderr
                  (compiler.before root config other)).invocations := by
              rw [invocations_ended, invocations_ended, invocations_before, invocations_before,
                same]
            obtain ⟨findings, failure, left⟩ := ih after asked
            exact ⟨congrArg (_ :: ·) findings, failure, left⟩

theorem jobRuns_congr {first second : CompilerBehaviour} (agree : SameErrors first second)
    {input : JobInput} {world : World} {trace : Trace} :
    let runs := compiler.jobRuns first resolver input world trace
    let others := compiler.jobRuns second resolver input world trace
    runs.findings = others.findings ∧ runs.failure = others.failure ∧ runs.world = others.world :=
  runs_congr agree _ _ rfl

end Compiler

/-! ## Part 5 — whole jobs -/

/-- **What a local job comes to**, by its runs: the failure that stopped them; or else that there
were errors; or else a report. -/
def LocalRuns.outcome (runs : LocalRuns) (root : Path) (count : Nat) : Except JobError JobReport :=
  match runs.failure with
  | some failure => .error failure
  | none =>
    if 0 < errorCount runs.findings.flatten then
      .error (.compilerErrors (errorCount runs.findings.flatten))
    else .ok {
      backend := .here
      root
      format := none
      extracted := []
      invocations := count
      warnings := runs.findings.flatten.length }

/-- Without errors, every finding is a warning. -/
theorem warningCount_of_no_error {diagnostics : List Diagnostic}
    (none : ¬ 0 < errorCount diagnostics) : warningCount diagnostics = diagnostics.length := by
  unfold errorCount at none
  unfold warningCount
  rw [List.countP_pos_iff] at none
  refine List.countP_eq_length.mpr fun diagnostic member => ?_
  rw [Bool.not_eq_true', ← Bool.not_eq_true]
  exact fun error => none ⟨diagnostic, member, error⟩

namespace Job

theorem perform_generateHere (quiet : hooks.Quiet) {input : JobInput}
    (some_config : input.configFiles session.world ≠ []) :
    (generateHere compiler resolver input).perform hooks session =
      let runs := compiler.jobRuns hooks.compiler resolver input session.world
        (.looked :: .looked :: session.trace)
      (runs.outcome input.root (input.configFiles session.world).length,
        ⟨runs.world, runs.trace, session.findings.replace runs.findings.flatten⟩) := by
  have fates := @Compiler.jobRuns_failure resolver compiler hooks.compiler input session.world
    (.looked :: .looked :: session.trace)
  unfold generateHere
  rw [perform_bind_ok (Compiler.perform_compileAll quiet some_config)]
  revert fates
  dsimp only
  generalize compiler.jobRuns hooks.compiler resolver input session.world
    (.looked :: .looked :: session.trace) = runs
  rintro ⟨hard, each⟩
  unfold LocalRuns.outcome
  cases stop : runs.failure with
  | some failure =>
    cases failure with
    | canceled => exact absurd stop hard
    | _ => rfl
  | none =>
    dsimp only
    rw [perform_bind_ok (perform_publish _), each stop]
    by_cases errors : 0 < errorCount runs.findings.flatten
    · rw [if_pos errors, if_pos errors]
      rfl
    · rw [if_neg errors, if_neg errors, warningCount_of_no_error errors]
      rfl

end Job

variable {generator : Generator} {request : JobRequest} {world : World} {path : Path}
  {input : JobInput}

/-- **A whole local job is its runs**: with the findings of all of them, in their order, in place of
whatever was found before, and the outcome that the runs have. What the compiler writes to its
standard output and the status that it exits with change neither the outcome nor the findings nor
the files. -/
theorem generate_runs (quiet : hooks.Quiet)
    (selected : Backend.select generator.settings generator.resolver generator.timeout =
      .ok (.here compiler))
    (requested : Job.requestedPath generator.resolver request.path = .ok path)
    (resolved : JobInput.resolve world path = .ok input) :
    (generator.generate request hooks world =
      let runs := compiler.runs hooks.compiler generator.resolver input.root
        (subdirectories world input.root) (100 / (input.configFiles world).length)
        (input.configFiles world) world [.looked, .looked, .looked, .looked, .looked]
      (runs.outcome input.root (input.configFiles world).length,
        ⟨runs.world, runs.trace, generator.findings.replace runs.findings.flatten⟩)) ∧
      ∀ other : Hooks, other.Quiet → SameErrors hooks.compiler other.compiler →
        (generator.generate request other world).1 = (generator.generate request hooks world).1 ∧
          (generator.generate request other world).2.findings =
            (generator.generate request hooks world).2.findings ∧
          (generator.generate request other world).2.world =
            (generator.generate request hooks world).2.world := by
  have follows : ∀ {hooks : Hooks}, hooks.Quiet → generator.generate request hooks world =
      let runs := compiler.jobRuns hooks.compiler generator.resolver input world
        [.looked, .looked, .looked, .looked, .looked]
      (runs.outcome input.root (input.configFiles world).length,
        ⟨runs.world, runs.trace, generator.findings.replace runs.findings.flatten⟩) := by
    intro hooks quiet
    rw [generate_resolved quiet selected requested resolved]
    exact Job.perform_generateHere quiet (JobInput.configFiles_ne_nil resolved)
  refine ⟨follows quiet, fun other silent agree => ?_⟩
  obtain ⟨findings, failure, left⟩ := @Compiler.jobRuns_congr generator.resolver compiler
    hooks.compiler other.compiler agree input world [.looked, .looked, .looked, .looked, .looked]
  rw [follows silent, follows quiet]
  dsimp only
  unfold LocalRuns.outcome
  rw [findings, failure, left]
  exact ⟨rfl, rfl, rfl⟩

/-! ## Part 6 — a row of runs -/

/-- A world with four configs and a shader in a directory. -/
def rowWorld : World := World.ofNodes [] [([⟨"job", rfl⟩], .directory),
  ([⟨"a.sl.json", rfl⟩, ⟨"job", rfl⟩], .file ⟨#[]⟩),
  ([⟨"b.sl.json", rfl⟩, ⟨"job", rfl⟩], .file ⟨#[]⟩),
  ([⟨"c.sl.json", rfl⟩, ⟨"job", rfl⟩], .file ⟨#[]⟩),
  ([⟨"d.sl.json", rfl⟩, ⟨"job", rfl⟩], .file ⟨#[]⟩),
  ([⟨"x.vert", rfl⟩, ⟨"job", rfl⟩], .file ⟨#[]⟩)] (by decide) (by decide)

/-- The configs of that world. -/
def rowConfigs : List Path :=
  [⟨"/job/a.sl.json"⟩, ⟨"/job/b.sl.json"⟩, ⟨"/job/c.sl.json"⟩, ⟨"/job/d.sl.json"⟩]

theorem row_discoverConfigs : discoverConfigs rowWorld ⟨"/job"⟩ =
    [⟨"a.sl.json"⟩, ⟨"b.sl.json"⟩, ⟨"c.sl.json"⟩, ⟨"d.sl.json"⟩] :=
  filesNamed_of_ordered (by decide +kernel) (by decide +kernel)

theorem row_configFiles : (JobInput.directory ⟨"/job"⟩).configFiles rowWorld = rowConfigs := by
  rw [JobInput.configFiles, row_discoverConfigs]
  rfl

theorem row_resolve : JobInput.resolve rowWorld ⟨"/job"⟩ = .ok (.directory ⟨"/job"⟩) := by
  have there : rowWorld.find? ⟨"/job"⟩ = some ([⟨"job", rfl⟩], .directory) := rfl
  have shaders : discoverShaders rowWorld ⟨"/job"⟩ = [⟨"x.vert"⟩] :=
    filesNamed_singleton (by decide +kernel)
  have valid : validateRoot rowWorld ⟨"/job"⟩ = .ok ⟨⟩ := by
    rw [validateRoot_iff, row_discoverConfigs, shaders]
    exact ⟨List.cons_ne_nil _ _, List.cons_ne_nil _ _⟩
  rw [JobInput.resolve, there]
  show (validateRoot rowWorld ⟨"/job"⟩ >>= fun _ => pure (JobInput.directory ⟨"/job"⟩)) = _
  rw [valid]
  rfl

/-- That world with a shader that was made. -/
def madeWorld : World := (rowWorld.write ⟨"/job/made.vert"⟩ ⟨#[]⟩).toOption.getD rowWorld

/-- A compiler that makes the shader for the first config, finds an error in it for the second one
if it is there, and does not come to an end for any other. -/
def rowBehaviour : CompilerBehaviour := fun _ invocation world =>
  match invocation.arguments[1]? with
  | some "a.sl.json" =>
    .ok (.exited ⟨#[]⟩ "[WARNING] x.vert:1: old".toUTF8 1,
      (world.write ⟨"/job/made.vert"⟩ ⟨#[]⟩).toOption.getD world)
  | some "b.sl.json" =>
    let errors := if world.isFile ⟨"/job/made.vert"⟩ then "[ERROR] made.vert:3: bad" else ""
    .ok (.exited ⟨#[]⟩ errors.toUTF8 0, world)
  | _ => .ok (.timedOut, world)

theorem made_isFile : madeWorld.isFile ⟨"/job/made.vert"⟩ = true := by decide +kernel

/-- What is found in the runs of that compiler. -/
def rowFindings : List (List Diagnostic) :=
  [[⟨.warning, ⟨⟨"/job/x.vert"⟩, some 1, none⟩, "old", []⟩],
    [⟨.error, ⟨⟨"/job/made.vert"⟩, some 3, none⟩, "bad", []⟩]]

/-- Its runs: the second one finds what the first one made, the third one takes too long, and there
is no fourth. -/
theorem runs_row (compiler : Compiler) (searchPaths : List Path) (share : Rat) (trace : Trace) :
    ∃ left, compiler.runs rowBehaviour ⟨⟨"/"⟩, ⟨[], none⟩⟩ ⟨"/job"⟩ searchPaths share
        rowConfigs rowWorld trace =
      ⟨rowFindings, some (.timeout ⟨"c.sl.json"⟩ compiler.timeout), madeWorld, left⟩ ∧
    left.invocations = trace.invocations ++
      [⟨"/job/a.sl.json"⟩, ⟨"/job/b.sl.json"⟩, ⟨"/job/c.sl.json"⟩].map
        (compiler.asked ⟨"/job"⟩ searchPaths) := by
  have first : ∀ earlier, rowBehaviour earlier
      (compiler.asked ⟨"/job"⟩ searchPaths ⟨"/job/a.sl.json"⟩) rowWorld =
        .ok (.exited ⟨#[]⟩ "[WARNING] x.vert:1: old".toUTF8 1, madeWorld) := fun _ => rfl
  have second : ∀ earlier, rowBehaviour earlier
      (compiler.asked ⟨"/job"⟩ searchPaths ⟨"/job/b.sl.json"⟩) madeWorld =
        .ok (.exited ⟨#[]⟩ "[ERROR] made.vert:3: bad".toUTF8 0, madeWorld) := by
    intro earlier
    show Except.ok (CompilerOutcome.exited _ (String.toUTF8
      (if madeWorld.isFile ⟨"/job/made.vert"⟩ = true then _ else _)) 0, madeWorld) = _
    rw [if_pos made_isFile]
  have third : ∀ earlier, rowBehaviour earlier
      (compiler.asked ⟨"/job"⟩ searchPaths ⟨"/job/c.sl.json"⟩) madeWorld =
        .ok (.timedOut, madeWorld) := fun _ => rfl
  have warned : (OutputReader.mk madeWorld ⟨⟨"/"⟩, ⟨[], none⟩⟩ ⟨"/job"⟩ ⟨"/job/a.sl.json"⟩).parse
      (Text.decodeLossy "[WARNING] x.vert:1: old".toUTF8) =
        [⟨.warning, ⟨⟨"/job/x.vert"⟩, some 1, none⟩, "old", []⟩] := by
    decide +kernel
  have failed : (OutputReader.mk madeWorld ⟨⟨"/"⟩, ⟨[], none⟩⟩ ⟨"/job"⟩ ⟨"/job/b.sl.json"⟩).parse
      (Text.decodeLossy "[ERROR] made.vert:3: bad".toUTF8) =
        [⟨.error, ⟨⟨"/job/made.vert"⟩, some 3, none⟩, "bad", []⟩] := by
    decide +kernel
  rw [rowConfigs, Compiler.runs_cons, first]
  dsimp only
  rw [Compiler.runs_cons, second]
  dsimp only
  rw [Compiler.runs_cons, third, warned, failed]
  refine ⟨_, rfl, ?_⟩
  have last : ∀ (invocation : Invocation) (earlier : Trace),
      Trace.invocations (.looked :: .started invocation :: earlier) =
        earlier.invocations ++ [invocation] :=
    fun invocation => Compiler.invocations_append [.looked, .started invocation]
  rw [last, Compiler.invocations_before, Compiler.invocations_ended, Compiler.invocations_before,
    Compiler.invocations_ended, Compiler.invocations_before, List.append_assoc, List.append_assoc]
  rfl

/-- That compiler without its standard output and its status. -/
def silentBehaviour : CompilerBehaviour := fun trace invocation world =>
  silenced (rowBehaviour trace invocation world)

theorem sameErrors_silent : SameErrors rowBehaviour silentBehaviour := by
  intro trace other invocation world _
  show silenced (rowBehaviour trace invocation world) =
    silenced (silenced (rowBehaviour trace invocation world))
  cases rowBehaviour trace invocation world with
  | error fault => rfl
  | ok result =>
    obtain ⟨outcome, after⟩ := result
    cases outcome with
    | exited stdout stderr status => rfl
    | timedOut => rfl

/-- A job of four configs: the second run sees what the first one made, the third one takes too
long, and the fourth does not happen. -/
theorem generate_runs_in_turn :
    let generator := Generator.fresh ⟨"/bin/compile", ""⟩ ⟨⟨"/"⟩, ⟨[], none⟩⟩ standardTimeout
    let hooks : CompilerBehaviour → Hooks := fun behaviour =>
      ⟨.never, fun _ => none, behaviour, fun _ _ => .unreachable .broken⟩
    let ended := generator.generate ⟨"/job", none⟩ (hooks rowBehaviour) rowWorld
    ended.1 = .error (.timeout ⟨"c.sl.json"⟩ standardTimeout) ∧
      ended.2.findings.files =
        [(⟨"/job/made.vert"⟩, [⟨.error, ⟨⟨"/job/made.vert"⟩, some 3, none⟩, "bad", []⟩]),
          (⟨"/job/x.vert"⟩, [⟨.warning, ⟨⟨"/job/x.vert"⟩, some 1, none⟩, "old", []⟩])] ∧
      ended.2.world = madeWorld ∧
      ended.2.trace.invocations.map (fun invocation => invocation.arguments[1]?) =
        [some "a.sl.json", some "b.sl.json", some "c.sl.json"] ∧
      (generator.generate ⟨"/job", none⟩ (hooks silentBehaviour) rowWorld).1 = ended.1 := by
  intro generator hooks ended
  obtain ⟨stated, agrees⟩ := @generate_runs (hooks rowBehaviour)
    ⟨⟨"/bin/compile"⟩, standardTimeout⟩ generator ⟨"/job", none⟩ rowWorld ⟨"/job"⟩
    (.directory ⟨"/job"⟩) (fun _ => rfl) (by cbv) (by cbv) row_resolve
  have alike := (agrees (hooks silentBehaviour) (fun _ => rfl) sameErrors_silent).1
  obtain ⟨left, runs, invocations⟩ := runs_row ⟨⟨"/bin/compile"⟩, standardTimeout⟩
    (subdirectories rowWorld ⟨"/job"⟩) (100 / (4 : Nat))
    [.looked, .looked, .looked, .looked, .looked]
  have ends : ended = (.error (.timeout ⟨"c.sl.json"⟩ standardTimeout),
      ⟨madeWorld, left, generator.findings.replace rowFindings.flatten⟩) := by
    rw [row_configFiles] at stated
    exact stated.trans (congrArg (fun runs : LocalRuns => (runs.outcome ⟨"/job"⟩ 4,
      Session.mk runs.world runs.trace (generator.findings.replace runs.findings.flatten))) runs)
  have grouped : (DiagnosticCollection.empty.replace rowFindings.flatten).files =
      [(⟨"/job/made.vert"⟩, [⟨.error, ⟨⟨"/job/made.vert"⟩, some 3, none⟩, "bad", []⟩]),
        (⟨"/job/x.vert"⟩, [⟨.warning, ⟨⟨"/job/x.vert"⟩, some 1, none⟩, "old", []⟩])] := by
    decide +kernel
  rw [ends]
  refine ⟨rfl, grouped, rfl, ?_, alike.trans (congrArg Prod.fst ends)⟩
  dsimp only
  rw [invocations]
  rfl

end ShaderForge
