/-
**How jobs end.**

Whatever the prompt, the compiler and the service do, and whenever the token fires, a job ends in
one of three ways (`Ended`):

* early, before anything was started elsewhere: the files are as they were, and nothing is
  published;
* without findings, canceled or because the service or its answer failed: nothing is published;
* with findings, which are published and decide the verdict.

`heedsAt_generate` is the law of a whole job, put together from those of its stages. From it follows
that a job which is refused has left no traces: the refusals that a job looks for late, when work
was done already, cannot come up there (`generate_refused`).

All jobs begin in the same way (`Generator.begins`): they look at their token, and then it is known
who compiles and what the given path is meant as, or they end early.
-/

import ShaderForge.Proofs.Stages

namespace ShaderForge

variable {hooks : Hooks} {session after : Session} {world : World} {path : Path} {input : JobInput}

/-! ## Part 1 — from the answer to a run -/

/-- What is shown when unpacking begins. -/
def unpackingShown : Event := .progressed 0 (some "extracting result...")

/-- **The token had fired when unpacking began**, if it began. -/
def Token.FiredBeforeUnpacking (token : Token) (trace : Trace) : Prop :=
  ∀ before, unpackingShown :: before <:+ trace → token.fired (unpackingShown :: before) = true

/-- **What is made of the body of an answer.** -/
def Job.unpackAnswer (resolver : Resolver) (input : JobInput) (body : ByteArray) :
    Job RemoteRun := do
  let extracted ← extract body input.root
  let primary ← inspect fun world => input.primaryConfig world
  let (diagnostics, failed) ← collectLog resolver input.root primary
  progress extractShare (some "starlight generate done")
  pure ⟨diagnostics, extracted, if failed then some (input.root.below logName) else none⟩

theorem Service.finish_eq (service : Service) (resolver : Resolver) (input : JobInput)
    (answer : List ByteArray × Bool) :
    service.finish resolver input answer =
      Job.receive service.url answer.1 answer.2 >>= fun body =>
        Job.progress 0 (some "extracting result...") >>= fun _ =>
          Job.unpackAnswer resolver input body := rfl

namespace Job

/-- **How an answer ends**: nothing is published yet; if the job is canceled after the token had
fired early, the files are as they were; and a run without a failed log found no errors. -/
structure AnswerEnds (early : Prop) (session : Session) (outcome : Except JobError RemoteRun)
    (after : Session) : Prop where
  findings : after.findings = session.findings
  late : FailsAs (fun error => error.isLate = true) outcome
  untouched : outcome = .error .canceled → early → after.world = session.world
  verdict : ∀ run, outcome = .ok run → run.failedLog = none → errorCount run.diagnostics = 0

/-- A late failure that is no cancellation. -/
theorem AnswerEnds.of_late {early : Prop} {error : JobError}
    (findings : after.findings = session.findings) (late : error.isLate = true) :
    AnswerEnds early session (.error error) after := by
  refine ⟨findings, ?_, ?_, fun _ same => (nomatch same)⟩
  · rintro other ⟨⟩
    exact .inl late
  · rintro ⟨⟩
    cases late

theorem adds_unpackAnswer (resolver : Resolver) (body : ByteArray) :
    Adds Event.NoRequest hooks (unpackAnswer resolver input body) :=
  (adds_extract (fun _ => nofun) _ _).bind fun _ => (adds_inspect _).bind fun _ =>
    (adds_collectLog (fun _ _ => nofun) _ _ _).bind fun _ =>
      (adds_progress (fun _ _ _ => nofun) _ _).bind fun _ => adds_pure _

theorem heedsAt_unpackAnswer (resolver : Resolver) (body : ByteArray)
    (resolved : JobInput.resolve session.world path = .ok input) :
    HeedsAt hooks (unpackAnswer resolver input body) session
      (AnswerEnds (hooks.token.fired session.trace = true) session) := by
  refine (heedsAt_extract body input.root session).bind (fun error after ends => ?_)
    fun extracted unpacked _ ends => ?_
  · refine ⟨ends.findings, ends.late.carry, fun _ => ends.untouched, fun _ same => (nomatch same)⟩
  obtain ⟨primary, first⟩ := primaryConfig_changed resolved ends.changed
  have loud : input.primaryConfig unpacked.world ≠ .error .canceled := fun same => by
    rw [first] at same
    cases same
  refine (heedsAt_inspect loud).bind (fun error _ ⟨failed, _⟩ => ?_) ?_
  · rw [first] at failed
    cases failed
  rintro config unpacked - ⟨-, rfl⟩
  refine (heedsAt_collectLog resolver input.root config _).bind (fun error left collected => ?_)
    fun ⟨records, failed⟩ left _ collected => ?_
  · exact .of_late (collected.findings.trans ends.findings) (collected.late error rfl)
  · have whole : AnswerEnds (hooks.token.fired session.trace = true) session
        (.ok ⟨records, extracted, if failed then some (input.root.below logName) else none⟩)
        (left.noting (.progressed extractShare (some "starlight generate done"))) := by
      refine ⟨collected.findings.trans ends.findings, failsAs_ok _, fun same => (nomatch same), ?_⟩
      rintro run ⟨⟩ passed
      cases failed with
      | true => cases passed
      | false => exact collected.verdict records rfl
    refine .of_perform (fun _ _ => ?_) whole (fun same => nomatch same) fun before =>
      before.cons fun starts => nomatch starts
    exact perform_bind_ok (perform_progress (by decide) _)

theorem heedsAt_finish (service : Service) (resolver : Resolver) (answer : List ByteArray × Bool)
    (resolved : JobInput.resolve session.world path = .ok input) :
    HeedsAt hooks (service.finish resolver input answer) session fun outcome after =>
      AnswerEnds (hooks.token.FiredBeforeUnpacking after.trace) session outcome after := by
  rw [Service.finish_eq]
  refine (idles_receive service.url answer.1 answer.2 session).bind
    (fun error after ⟨idle, failed⟩ => ?_) fun body received _ ⟨idle, _⟩ => ?_
  · exact ⟨idle.findings, failed.carry, fun _ _ => idle.world, fun _ same => (nomatch same)⟩
  have shows : HeedsAt hooks (progress 0 (some "extracting result...")) received
      fun outcome after => outcome = .ok ⟨⟩ ∧ after = received.noting unpackingShown :=
    .of_perform (fun _ _ => perform_progress Rat.le_refl _) ⟨rfl, rfl⟩ (fun same => nomatch same)
      fun before => before.cons fun starts => nomatch starts
  refine shows.bind (fun _ _ ⟨failed, _⟩ => nomatch failed) ?_
  rintro _ _ - ⟨-, rfl⟩
  have still : JobInput.resolve (received.noting unpackingShown).world path = .ok input := by
    rw [Session.noting_world, idle.world, resolved]
  refine ((heedsAt_unpackAnswer resolver body still).adding (adds_unpackAnswer resolver body)).mono
    fun outcome after ⟨ends, later⟩ => ?_
  refine ⟨ends.findings.trans idle.findings, ends.late, fun same early => ?_, ends.verdict⟩
  exact (ends.untouched same (early received.trace later)).trans idle.world

end Job

/-! ## Part 2 — three ways to end -/

/-- **The findings decide the verdict.** A report counts them, and none of them is an error; a job
that fails for the errors among them counts those. -/
def Verdict (records : List Diagnostic) : Except JobError JobReport → Prop
  | .ok report => errorCount records = 0 ∧ report.warnings = records.length
  | .error (.compilerErrors count) => count = errorCount records ∧ 0 < count
  | .error (.generationFailed _) => True
  | .error error => error.isOfRun = true

/-- No findings come with a refusal. -/
theorem Verdict.not_refused {records : List Diagnostic} {error : JobError}
    (verdict : Verdict records (.error error)) : error.isRefusal = false := by
  cases error with
  | invalidInput path => cases verdict
  | invalidConfig path fault => cases verdict
  | invalidBinary text fault => cases verdict
  | invalidEndpoint url fault => cases verdict
  | _ => rfl

/-- **How a job ends** that began in a world. `here` tells whether the local compiler was
selected. -/
inductive Ended (token : Token) (here : Bool) (world : World) :
    Except JobError JobReport → Session → Prop
  /-- Nothing was started elsewhere. -/
  | early {error : JobError} {after : Session} (kind : error.isEarly = true ∨ error = .canceled)
      (idle : (Session.fresh world).Idle after) : Ended token here world (.error error) after
  /-- Nothing is published. -/
  | late {error : JobError} {after : Session} (kind : error.isLate = true ∨ error = .canceled)
      (findings : after.findings = .empty)
      (untouched : error = .canceled → here = false → token.FiredBeforeUnpacking after.trace →
        after.world = world) : Ended token here world (.error error) after
  /-- What was found is published. -/
  | published {outcome : Except JobError JobReport} {after : Session} (records : List Diagnostic)
      (findings : after.findings = DiagnosticCollection.empty.replace records)
      (verdict : Verdict records outcome) : Ended token here world outcome after

namespace Job

variable {here : Bool}

/-- **Before anything is started elsewhere**, a step that only waits ends the job early or leads
on. -/
theorem heedsAt_early {first : Job α} {next : α → Job JobReport} (waits : IdlesEarly hooks first)
    (idle : (Session.fresh world).Idle session)
    (goes : ∀ value middle, first.perform hooks session = (.ok value, middle) →
      (Session.fresh world).Idle middle →
        HeedsAt hooks (next value) middle (Ended hooks.token here world)) :
    HeedsAt hooks (first >>= next) session (Ended hooks.token here world) :=
  (waits session).bind
    (fun error _ ⟨led, failed⟩ => .early (failed error rfl) (idle.trans led))
    fun value middle ran ⟨led, _⟩ => goes value middle ran (idle.trans led)

/-! ## Part 3 — local jobs -/

/-- **Findings that are published decide the verdict.** -/
theorem published {outcome : Except JobError JobReport} {here : Bool} {token : Token}
    (findings : session.findings = .empty) (records : List Diagnostic)
    (verdict : Verdict records outcome) :
    Ended token here world outcome
      { session with findings := session.findings.replace records } :=
  .published records (congrArg (DiagnosticCollection.replace · records) findings) verdict

theorem heedsAt_publish {rest : Job JobReport} (outcome : Except JobError JobReport)
    (findings : session.findings = .empty) (records : List Diagnostic)
    (verdict : Verdict records outcome)
    (ran : ∀ (other : Hooks) (later : Session), rest.perform other later = (outcome, later)) :
    HeedsAt hooks (publish records >>= fun _ => rest) session (Ended hooks.token here world) := by
  refine .of_perform (fun other _ => (perform_bind_ok (perform_publish records)).trans (ran _ _))
    (published findings records verdict) ?_ id
  rintro rfl
  cases verdict

/-- **A local job.** -/
theorem heedsAt_generateHere (compiler : Compiler) (resolver : Resolver)
    (idle : (Session.fresh world).Idle session) :
    HeedsAt hooks (generateHere compiler resolver input) session
      (Ended hooks.token true world) := by
  refine (compiler.heedsAt_compileAll resolver input session).bind (fun error after ends => ?_)
    fun value after _ ends => ?_
  · cases ends with
    | unbegun kind waited => exact .early kind (idle.trans waited)
    | ended ends =>
      obtain ⟨run, failure, same, -⟩ := ends.value
      cases same
  · cases ends with
    | ended ends =>
      obtain ⟨run, failure, same, known⟩ := ends.value
      cases same
      have findings : after.findings = .empty := Eq.trans ends.keeps idle.findings
      cases failure with
      | none =>
        by_cases some_error : 0 < errorCount run.diagnostics
        · refine heedsAt_publish (.error (.compilerErrors (errorCount run.diagnostics))) findings _
            ⟨rfl, some_error⟩ fun _ _ => ?_
          rw [if_pos some_error, perform_throw]
        · let report : JobReport :=
            ⟨.here, input.root, none, [], run.invocations, warningCount run.diagnostics⟩
          refine heedsAt_publish (.ok report) findings _
            ⟨Nat.eq_zero_of_not_pos some_error, warningCount_of_no_error some_error⟩ fun _ _ => ?_
          rw [if_neg some_error, perform_pure]
      | some error =>
        rcases known error rfl with stopped | ⟨rfl, fired⟩
        · cases error with
          | timeout config milliseconds =>
            exact heedsAt_publish (.error (.timeout config milliseconds)) findings _ rfl
              fun _ _ => rfl
          | spawn binary fault =>
            exact heedsAt_publish (.error (.spawn binary fault)) findings _ rfl fun _ _ => rfl
          | _ => cases stopped
        · refine .of_perform (fun _ _ => rfl) (.late (.inr rfl) findings fun _ => ?_)
            (fun _ => fired) id
          rintro ⟨⟩

/-! ## Part 4 — remote jobs -/

theorem heedsAt_conclude (format : String) (run : RemoteRun) (findings : session.findings = .empty)
    (verdict : run.failedLog = none → errorCount run.diagnostics = 0) :
    HeedsAt hooks (conclude input format run) session (Ended hooks.token here world) := by
  unfold conclude
  cases failed : run.failedLog with
  | some path =>
    exact heedsAt_publish (.error (.generationFailed path)) findings _ ⟨⟩ fun _ _ => rfl
  | none =>
    have clean := verdict failed
    let report : JobReport :=
      ⟨.remote, input.root, some format, run.extracted, 1, warningCount run.diagnostics⟩
    refine heedsAt_publish (.ok report) findings _ ⟨clean, warningCount_of_no_error ?_⟩
      fun _ _ => rfl
    rw [clean]
    exact Nat.lt_irrefl 0

/-- **A remote job.** -/
theorem heedsAt_generateRemotely (service : Service) (resolver : Resolver) (hint : Option String)
    (idle : (Session.fresh world).Idle session)
    (resolved : JobInput.resolve world path = .ok input) :
    HeedsAt hooks (generateRemotely service resolver hint input) session
      (Ended hooks.token false world) := by
  rw [generateRemotely_eq]
  refine heedsAt_early idles_checkpoint idle fun _ session _ idle =>
    heedsAt_early (idles_outputFormat hint input) idle fun format session _ idle =>
      heedsAt_early (idles_log _) idle fun _ session _ idle => ?_
  rw [Service.run_eq, bind_assoc]
  refine heedsAt_early (idles_bundle input) idle fun archive session _ idle => ?_
  rw [bind_assoc]
  refine (staysLate_upload service format archive session).bind
    (fun error after ⟨stays, failed⟩ => ?_) fun answer sent _ ⟨stays, _⟩ => ?_
  · exact .late (failed error rfl) (stays.2.trans idle.findings) fun _ _ _ =>
      stays.1.trans idle.world
  have still : JobInput.resolve sent.world path = .ok input := by
    rw [stays.1, idle.world]
    exact resolved
  refine (heedsAt_finish service resolver answer still).bind (fun error after ends => ?_)
    fun run after _ ends => ?_
  · refine .late (ends.late error rfl) (ends.findings.trans (stays.2.trans idle.findings)) ?_
    rintro rfl - early
    exact (ends.untouched rfl early).trans (stays.1.trans idle.world)
  · exact heedsAt_conclude format run (ends.findings.trans (stays.2.trans idle.findings))
      (ends.verdict run rfl)

/-! ## Part 5 — whole jobs -/

/-- Who compiles is who was selected. -/
theorem usesLocalCompiler_of_select {settings : Settings} {resolver : Resolver} {timeout : Nat}
    {backend : Backend} (selected : Backend.select settings resolver timeout = .ok backend) :
    settings.usesLocalCompiler = match backend with | .here _ => true | .remote _ => false := by
  unfold Backend.select at selected
  split at selected
  · next here =>
    dsimp only at selected
    split at selected
    · cases selected
    · cases selected
      exact here
  · next there =>
    cases given : Service.at? settings.apiUrl with
    | error fault =>
      rw [given] at selected
      cases selected
    | ok service =>
      rw [given] at selected
      cases selected
      exact Bool.eq_false_iff.mpr there

/-- **A whole job**, whatever was published before. -/
theorem heedsAt_generate (settings : Settings) (resolver : Resolver) (timeout : Nat)
    (request : JobRequest) (world : World) (findings : DiagnosticCollection) :
    HeedsAt hooks (generate settings resolver timeout request) ⟨world, [], findings⟩
      (Ended hooks.token settings.usesLocalCompiler world) := by
  have clears : HeedsAt hooks clearFindings ⟨world, [], findings⟩ fun outcome after =>
      outcome = .ok ⟨⟩ ∧ after = Session.fresh world :=
    .of_perform (fun _ _ => rfl) ⟨rfl, rfl⟩ (fun same => nomatch same) id
  refine clears.bind (fun _ _ ⟨failed, _⟩ => nomatch failed) ?_
  rintro _ _ - ⟨-, rfl⟩
  refine heedsAt_early idles_checkpoint (.refl _) fun _ _ _ idle =>
    heedsAt_early (idles_early (failsEarly_select settings resolver timeout)) idle
      fun backend session selected idle =>
        heedsAt_early (idles_early (failsEarly_requestedPath resolver request.path)) idle
          fun path session _ idle => heedsAt_early
            (idles_question fun world => failsEarly_resolve world path).guarded idle
              fun input after found done => ?_
  rw [perform_settle] at selected
  have here := usesLocalCompiler_of_select (congrArg Prod.fst selected)
  have means := perform_guarded_gives (congrArg Prod.fst found)
  rw [perform_inspect, Session.looked_world, idle.world] at means
  rw [here]
  cases backend with
  | here compiler => exact heedsAt_generateHere compiler resolver done
  | remote service => exact heedsAt_generateRemotely service resolver request.format done means

end Job

/-! ## Part 6 — how a job begins -/

/-- Nothing but looks at the token happened. -/
structure Session.Looks (before after : Session) : Prop where
  idle : before.Idle after
  looks : ∃ events, after.trace = events ++ before.trace ∧ ∀ event ∈ events, event = .looked

theorem Session.Looks.trans {before middle : Session} (first : before.Looks middle)
    (second : middle.Looks after) : before.Looks after := by
  obtain ⟨events, traced, looks⟩ := first.looks
  obtain ⟨later, traced', looks'⟩ := second.looks
  refine ⟨first.idle.trans second.idle, later ++ events, ?_, fun event among => ?_⟩
  · rw [traced', traced, List.append_assoc]
  · exact (List.mem_append.mp among).elim (looks' event) (looks event)

/-- **A step that only looks** ends the job early, or leads on. -/
theorem Job.looks_bind {step : Job α} {next : α → Job β} (waits : IdlesEarly hooks step)
    (adds : Adds (· = Event.looked) hooks step) (session : Session) :
    (∃ error after, (step >>= next).perform hooks session = (.error error, after) ∧
        (error.isEarly = true ∨ error = .canceled) ∧ session.Looks after) ∨
      ∃ value middle, step.perform hooks session = (.ok value, middle) ∧ session.Looks middle ∧
        (step >>= next).perform hooks session = (next value).perform hooks middle := by
  have ends := (waits session).ends
  have looks := adds session
  rcases ran : step.perform hooks session with ⟨outcome, middle⟩
  rw [ran] at ends looks
  cases outcome with
  | error error =>
    exact .inl ⟨error, middle, perform_bind_error ran, ends.2 error rfl, ends.1, looks⟩
  | ok value => exact .inr ⟨value, middle, rfl, ⟨ends.1, looks⟩, perform_bind_ok ran⟩

/-- The job of the one who was selected. -/
def Backend.generates (backend : Backend) (resolver : Resolver) (hint : Option String)
    (input : JobInput) : Job JobReport :=
  match backend with
  | .here compiler => Job.generateHere compiler resolver input
  | .remote service => Job.generateRemotely service resolver hint input

/-- **How a job begins**: it ends early, or it is known who compiles, which path was asked for, and
what that path is meant as. Until then it only looks at its token. -/
inductive Begins (hooks : Hooks) (generator : Generator) (request : JobRequest) (world : World) :
    Except JobError JobReport × Session → Prop
  | stopped {error : JobError} {after : Session} (kind : error.isEarly = true ∨ error = .canceled)
      (looks : (Session.fresh world).Looks after) :
      Begins hooks generator request world (.error error, after)
  | begun {backend : Backend} {path : Path} {input : JobInput} {session : Session}
      (selected : Backend.select generator.settings generator.resolver generator.timeout =
        .ok backend)
      (requested : Job.requestedPath generator.resolver request.path = .ok path)
      (resolved : JobInput.resolve world path = .ok input)
      (looks : (Session.fresh world).Looks session) :
      Begins hooks generator request world
        ((backend.generates generator.resolver request.format input).perform hooks session)

/-- **Every job begins so.** -/
theorem Generator.begins (generator : Generator) (request : JobRequest) (hooks : Hooks)
    (world : World) :
    Begins hooks generator request world (generator.generate request hooks world) := by
  have looked : Event.looked = .looked := rfl
  unfold generate Job.generate
  rw [Job.perform_bind_ok Job.perform_clearFindings]
  show Begins hooks generator request world ((_ >>= _ : Job JobReport).perform hooks
    (Session.fresh world))
  obtain ⟨error, after, ends, kind, looks⟩ | ⟨_, first, -, looks, goes⟩ :=
    Job.looks_bind Job.idles_checkpoint (Job.adds_checkpoint looked) (Session.fresh world)
  · rw [ends]
    exact .stopped kind looks
  rw [goes]
  cases selected : Backend.select generator.settings generator.resolver generator.timeout with
  | error error =>
    rw [Job.perform_bind_error (Job.perform_settle _)]
    exact .stopped (.inl (failsEarly_select _ _ _ error selected)) looks
  | ok backend =>
    rw [Job.perform_bind_ok (Job.perform_settle _)]
    cases requested : Job.requestedPath generator.resolver request.path with
    | error error =>
      rw [Job.perform_bind_error (Job.perform_settle _)]
      exact .stopped (.inl (failsEarly_requestedPath _ _ error requested)) looks
    | ok path =>
      rw [Job.perform_bind_ok (Job.perform_settle _)]
      obtain ⟨error, after, ends, kind, waits⟩ | ⟨input, second, asked, waits, goes⟩ :=
        Job.looks_bind (Job.idles_question fun world => failsEarly_resolve world path).guarded
          ((Job.adds_inspect _).guarded looked) first
      · rw [ends]
        exact .stopped kind (looks.trans waits)
      · rw [goes]
        have means := Job.perform_guarded_gives (congrArg Prod.fst asked)
        rw [Job.perform_inspect, Session.looked_world, looks.idle.world] at means
        cases backend <;> exact .begun selected requested means (looks.trans waits)

/-- Once the token has fired, a job has only looked at it. -/
theorem Job.perform_generate_fired (settings : Settings) (resolver : Resolver) (timeout : Nat)
    (request : JobRequest) (world : World) (findings : DiagnosticCollection)
    (fired : hooks.token.fired [] = true) :
    (generate settings resolver timeout request).perform hooks ⟨world, [], findings⟩ =
      (.error .canceled, ⟨world, [.looked], .empty⟩) := by
  have later : hooks.token.fired (Session.fresh world).looked.trace = true :=
    hooks.token.latched _ _ fired
  have stopped : checkpoint.perform hooks (Session.fresh world) =
      (.error .canceled, (Session.fresh world).looked) := by
    rw [perform_checkpoint_eq, if_pos later]
  exact (perform_bind_ok perform_clearFindings).trans (perform_bind_error stopped)

namespace Ended

variable {token : Token} {here : Bool} {error : JobError}

/-- **A canceled job** publishes nothing. -/
theorem of_canceled (ended : Ended token here world (.error .canceled) after) :
    after.findings = .empty ∧
      (here = false → token.FiredBeforeUnpacking after.trace → after.world = world) := by
  cases ended with
  | early kind idle => exact ⟨idle.findings, fun _ _ => idle.world⟩
  | late kind findings untouched => exact ⟨findings, untouched rfl⟩
  | published records findings verdict => cases verdict

/-- **A job that is refused** has only waited. -/
theorem of_refused (ended : Ended token here world (.error error) after)
    (refusal : error.isRefusal = true) : (Session.fresh world).Idle after := by
  cases ended with
  | early kind idle => exact idle
  | late kind findings untouched =>
    rcases kind with late | rfl
    · rw [JobError.isLate_of_isRefusal refusal] at late
      cases late
    · cases refusal
  | published records findings verdict =>
    rw [verdict.not_refused] at refusal
    cases refusal

end Ended

/-! ## Part 7 — cancellation and refusal -/

/-- Where no work was started, no compiler ran and nothing was sent. -/
theorem Trace.nothing_started {trace : Trace} (idle : ∀ event ∈ trace, event.isWork = false) :
    trace.invocations = [] ∧ trace.uploads = [] := by
  constructor
  · rw [invocations, List.filterMap_eq_nil_iff]
    intro event among
    have kind := idle event (List.mem_reverse.mp among)
    cases event with
    | started invocation => cases kind
    | _ => rfl
  · refine uploads_eq_nil ?_
    rintro event among upload rfl
    cases idle _ among

variable {generator : Generator} {request : JobRequest}

/-- The law of a job of a generator. -/
theorem Generator.heedsAt (generator : Generator) (request : JobRequest) (hooks : Hooks)
    (world : World) :
    Job.HeedsAt hooks
      (Job.generate generator.settings generator.resolver generator.timeout request)
      ⟨world, [], generator.findings⟩
      (Ended hooks.token generator.settings.usesLocalCompiler world) :=
  Job.heedsAt_generate generator.settings generator.resolver generator.timeout request world
    generator.findings

/-- **Every job of a generator ends in one of the three ways.** -/
theorem Generator.ended (generator : Generator) (request : JobRequest) (hooks : Hooks)
    (world : World) :
    Ended hooks.token generator.settings.usesLocalCompiler world
      (generator.generate request hooks world).1 (generator.generate request hooks world).2 :=
  (generator.heedsAt request hooks world).ends

/-- **A job heeds its token**, whenever it fires.

* It ends as canceled only if the token fired.
* Compiler and service are set to work only while the token has not fired, and what they would do
  later makes no difference.
* A canceled job publishes nothing; if it is a remote one whose token had fired when unpacking
  began, the files are as they were.
* If the token had fired before, the job looks at it once, and that is all it does. -/
theorem generate_heeds_token (generator : Generator) (request : JobRequest) (hooks : Hooks)
    (world : World) :
    let ended := generator.generate request hooks world
    (ended.1 = .error .canceled → hooks.token.fired ended.2.trace = true) ∧
      (hooks.token.Respected ended.2.trace ∧
        ∀ other, hooks.Until other → generator.generate request other world = ended) ∧
      (ended.1 = .error .canceled → ended.2.findings = .empty ∧
        (generator.settings.usesLocalCompiler = false →
          hooks.token.FiredBeforeUnpacking ended.2.trace → ended.2.world = world)) ∧
      (hooks.token.fired [] = true → ended = (.error .canceled, ⟨world, [.looked], .empty⟩)) := by
  intro ended
  have law := generator.heedsAt request hooks world
  refine ⟨law.canceled, ⟨law.respects Token.respected_nil, law.unasked⟩, fun canceled => ?_,
    Job.perform_generate_fired _ _ _ _ _ _⟩
  have ends : Ended hooks.token _ world ended.1 ended.2 := generator.ended request hooks world
  rw [canceled] at ends
  exact ends.of_canceled

/-- Canceled while the first run of the compiler goes on. -/
theorem generate_heeds_token_running :
    let generator := Generator.fresh ⟨"/bin/slc", ""⟩ ⟨⟨"/"⟩, ⟨[], none⟩⟩ standardTimeout
    let hooks : Hooks := ⟨.upon Event.isWork, fun _ => none,
      fun _ _ world => .ok (.exited ByteArray.empty "[ERROR] x.vert:1: no".toUTF8 1, world),
      fun _ _ => .answered 200 [] false⟩
    let ended := generator.generate ⟨"/job/x.sl.json", none⟩ hooks smallWorld
    ended.1 = .error .canceled ∧ ended.2.trace.invocations.length = 1 ∧
      hooks.token.fired ended.2.trace = true ∧ ended.2.findings = .empty := by
  intro generator hooks ended
  obtain ⟨fired, -, nothing, -⟩ :=
    generate_heeds_token generator ⟨"/job/x.sl.json", none⟩ hooks smallWorld
  have canceled : ended.1 = .error .canceled := Job.eq_canceled (by decide +kernel)
  exact ⟨canceled, by decide +kernel, fired canceled, (nothing canceled).1⟩

/-- **A refused job leaves no traces**: it started no run of the compiler, sent no request, and left
the files as they were. -/
theorem generate_refused {error : JobError} {after : Session}
    (ended : generator.generate request hooks world = (.error error, after))
    (refusal : error.isRefusal = true) :
    after.trace.invocations = [] ∧ after.trace.uploads = [] ∧ after.world = world := by
  have ends := generator.ended request hooks world
  rw [ended] at ends
  have idle := ends.of_refused refusal
  obtain ⟨events, traced, nothing⟩ := idle.trace
  obtain ⟨unstarted, unsent⟩ := Trace.nothing_started nothing
  have whole : after.trace = events := traced.trans (List.append_nil events)
  rw [whole]
  exact ⟨unstarted, unsent, idle.world⟩

/-- A world with a config that names a shader by no name. -/
def namelessWorld : World :=
  World.ofNodes [] [([⟨"job", usable_job⟩], .directory),
    ([⟨"x.sl.json", usable_config⟩, ⟨"job", usable_job⟩],
      .file "\x7b\"data\":[\x7b\"vsh\":\"x.vert\",\"fsh\":\"../..\"\x7d]\x7d".toUTF8),
    ([⟨"x.vert", usable_shader⟩, ⟨"job", usable_job⟩], .file ⟨#[]⟩)] (by decide) (by decide)

/-- Refused when the plan is made: the config is there, but names no shader. -/
theorem generate_refused_planning :
    let generator := Generator.fresh ⟨"", "http://localhost:9/"⟩ ⟨⟨"/"⟩, ⟨[], none⟩⟩ standardTimeout
    let ended := generator.generate ⟨"/job/x.sl.json", some "cpp"⟩ smallHooks namelessWorld
    (∃ error, ended.1 = .error error ∧ error.isRefusal = true) ∧
      ended.2.trace.uploads = [] ∧ ended.2.world = namelessWorld := by
  intro generator ended
  have refused : (match ended.1 with
      | .error error => error.isRefusal
      | .ok _ => false) = true := by decide +kernel
  rcases ran : ended with ⟨outcome, after⟩
  rw [ran] at refused
  cases outcome with
  | ok report => cases refused
  | error error =>
    obtain ⟨-, unsent, same⟩ := generate_refused ran refused
    exact ⟨⟨error, rfl, refused⟩, unsent, same⟩

end ShaderForge
