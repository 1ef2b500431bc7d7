/-
**What progress adds up to.**

A remote job reports its progress when it has packed, when its answer begins, when that is received
and when it is unpacked; a local one after each config. `generate_progress` says of every job,
whatever the prompt, the compiler and the service do and whenever the token fires:

* no increment is negative, and at no moment have they come to more than 100;
* they come to exactly 100 if and only if the job was worked to its end (`Finished`): it succeeded,
  or its findings are what it failed for;
* a console that adds them up shows these sums: it never has to cut one off, and none is below the
  one before;
* a local job reports one share for each config, up to the first one that is not compiled.

For a remote job the shares of the stages are put together (`fills_run`), whatever the number of
members, pieces and files; for a local one the reports are those of the first configs, by induction
on the configs that are left (`reports_compileEach`).
-/

import ShaderForge.CommandLine.Console
import ShaderForge.Proofs.PrimaryConfigs
import ShaderForge.Proofs.ReportedProgress

namespace ShaderForge

variable {α : Type} {hooks : Hooks} {session : Session} {world : World} {path : Path}
  {input : JobInput} {resolver : Resolver} {service : Service} {root : Path} {share : Rat}

/-! ## Part 1 — stages of a remote job -/

namespace Job

theorem still_looked : Event.Still .looked := fun _ _ => nofun

/-- Progress of nothing adds nothing. -/
theorem adds_progress_still (message : Option String) :
    Adds Event.Still hooks (progress 0 message) := by
  refine adds_emit fun increment text same => ?_
  rw [if_neg (lt_irrefl 0)] at same
  cases same
  rfl

/-- A step that waits for the files, before the request. -/
theorem fills_early {job : Job α} (adds : Adds Event.Still hooks job)
    (idles : IdlesEarly hooks job) : Fills hooks 0 0 job :=
  fills_still adds (fun session => (idles session).ends.2) fun _ => JobError.isVerdict_of_isEarly

/-- A step that what the service sent can end. -/
theorem fills_late {job : Job α} (adds : Adds Event.Still hooks job)
    (fails : ∀ session, FailsAs (fun error => error.isLate = true) (job.perform hooks session).1) :
    Fills hooks 0 0 job :=
  fills_still adds fails fun _ => JobError.isVerdict_of_isLate

theorem fills_checkpoint : Fills hooks 0 0 checkpoint :=
  fills_early (adds_checkpoint still_looked) idles_checkpoint

/-- Asking for the format adds nothing. -/
theorem fills_outputFormat (hint : Option String) (input : JobInput) :
    Fills hooks 0 0 (outputFormat hint input) := by
  have asks : Adds Event.Still hooks
      (awaited (inspect fun world => pure (input.declaredFormat? world))) :=
    (adds_inspect _).awaited still_looked
  have chooses : Adds Event.Still hooks chosenFormat :=
    (Adds.of_noting (fun _ _ => nofun : Event.Still (.prompted outputFormats)) fun _ => rfl).bind
      fun _ => adds_pure _
  refine fills_early ?_ (idles_outputFormat hint input)
  unfold outputFormat
  split
  · exact adds_pure _
  · refine asks.bind fun declared => ?_
    cases declared with
    | some format => exact adds_pure format
    | none => exact chooses

/-- **Packing fills its share**, however many members there are. -/
theorem fills_bundle (input : JobInput) : Fills hooks 0 packShare (bundle input) := by
  have planned : Fills hooks 0 0 (guarded (inspect fun world => input.plan world)) :=
    fills_early ((adds_inspect _).guarded still_looked)
      (idles_question fun world => failsEarly_plan world input).guarded
  have packs : ∀ plan, Fills hooks 0 packShare (guarded (pack reportPacking plan) >>= fun archive =>
      progress packShare none >>= fun _ => pure archive) := by
    intro plan
    refine (fills_early ?_ ?_).after (fun archive => fills_last (by decide) none archive) le_rfl
    · exact (adds_pack still_looked (fun _ _ => adds_progress_still _) plan).guarded still_looked
    · exact (idles_pack (fun _ => rfl) (fun _ _ => idles_progress _ _) (by decide) plan).guarded
  refine (fills_progress le_rfl _).after (fun _ => planned.after (fun plan => ?_) le_rfl) le_rfl
  cases plan with
  | nil => exact (fills_throw rfl).after (fun _ => packs _) le_rfl
  | cons first rest => exact packs _

/-- Sending adds nothing. -/
theorem fills_upload (format : String) (archive : Archive) :
    Fills hooks 0 0 (upload service format archive) :=
  fills_late (adds_upload still_looked (fun _ _ _ => nofun) fun _ _ => nofun)
    fun session => (staysLate_upload service format archive session).ends.2

/-- The end of the answer adds nothing, whether it broke off or not. -/
theorem fills_ending (url : String) (broken : Bool) :
    Fills hooks 0 0 (guarded (if broken then throw (.transfer url .broken) else pure ())) := by
  cases broken with
  | false =>
    exact fills_late ((adds_pure _).guarded still_looked) fun session =>
      ((idles_pure _).guarded session).ends.2
  | true =>
    have breaks : Idles hooks (fun error => error.isLate = true)
        (throw (.transfer url .broken) : Job Unit) := idles_throw rfl (by decide)
    exact fills_late ((adds_throw _).guarded still_looked) fun session =>
      (breaks.guarded session).ends.2

/-- Pieces that come when the answer is acknowledged add nothing. -/
theorem fills_acknowledged (url : String) (broken : Bool) (pieces : List ByteArray) :
    Fills hooks 0 0 (receiveEach url broken true pieces) := by
  induction pieces with
  | nil => exact (fills_ending url broken).after (fun _ => fills_pure _) le_rfl
  | cons piece rest ih =>
    exact fills_checkpoint.after (fun _ => ih.after (fun _ => fills_pure _) le_rfl) le_rfl

/-- **The answer is acknowledged once**, with its first piece, or at its end if it has none. -/
theorem fills_receiveEach (url : String) (broken : Bool) (pieces : List ByteArray) :
    Fills hooks receiveShare receiveShare (receiveEach url broken false pieces) := by
  cases pieces with
  | nil =>
    refine (fills_ending url broken).after (fun _ => ?_) (by decide)
    exact (fills_last (by decide) _ _).within (by decide)
  | cons piece rest =>
    refine fills_checkpoint.after (fun _ => ?_) (by decide)
    have later : Fills hooks 0 0 (receiveEach url broken true rest >>= fun later =>
        pure (piece ++ later)) :=
      (fills_acknowledged url broken rest).after (fun _ => fills_pure _) le_rfl
    have acknowledges : Fills hooks 0 receiveShare acknowledge := fills_progress (by decide) _
    have both := acknowledges.bind (fun _ => later) (by decide +kernel)
    rw [add_zero] at both
    exact both

/-- **Receiving fills its shares**, however many pieces there are. -/
theorem fills_receive (url : String) (pieces : List ByteArray) (broken : Bool) :
    Fills hooks receiveShare (receiveShare + downloadShare) (receive url pieces broken) := by
  have ends : ∀ body : ByteArray, Fills hooks 0 downloadShare
      (progress downloadShare (some "result received") >>= fun _ => pure body) :=
    fills_last (by decide) _
  have both := (fills_receiveEach url broken pieces).bind ends (add_zero receiveShare).ge
  rwa [add_zero] at both

/-- **Unpacking fills its share**, however many files there are; it is reported last. -/
theorem fills_unpackAnswer (resolver : Resolver) (input : JobInput) (body : ByteArray) :
    Fills hooks 0 extractShare (unpackAnswer resolver input body) := by
  have unpacks : Fills hooks 0 0 (extract body input.root) :=
    fills_late (adds_extract still_looked _ _) fun session =>
      (heedsAt_extract _ _ session).ends.late
  have finds : Fills hooks 0 0 (inspect fun world => input.primaryConfig world) :=
    fills_early (adds_inspect _) (idles_question fun world => failsEarly_primaryConfig world input)
  have reads : ∀ primary, Fills hooks 0 0 (collectLog resolver input.root primary) := fun primary =>
    fills_late (adds_collectLog (fun _ _ _ => nofun) _ _ _) fun session =>
      failsAs_of (heedsAt_collectLog resolver input.root primary session).ends.late
  exact unpacks.after (fun _ => finds.after (fun _ => (reads _).after
    (fun _ => fills_last (by decide) _ _) le_rfl) le_rfl) le_rfl

/-- **A remote run fills the whole**, and at most three quarters of it if it fails. -/
theorem fills_run (service : Service) (resolver : Resolver) (input : JobInput) (format : String) :
    Fills hooks 75 100 (service.run resolver input format) := by
  have received : 0 ≤ receiveShare + downloadShare := by norm_num [receiveShare, downloadShare]
  have finishes : ∀ answer, Fills hooks (receiveShare + downloadShare)
      (receiveShare + downloadShare + extractShare) (service.finish resolver input answer) := by
    intro answer
    have extracts : ∀ body, Fills hooks 0 extractShare
        (progress 0 (some "extracting result...") >>= fun _ => unpackAnswer resolver input body) :=
      fun body => (fills_progress le_rfl _).after (fun _ => fills_unpackAnswer _ _ body) le_rfl
    have both := (fills_receive service.url answer.1 answer.2).bind extracts (by
      norm_num [receiveShare, downloadShare])
    rwa [add_zero] at both
  have sends : ∀ archive, Fills hooks (receiveShare + downloadShare)
      (receiveShare + downloadShare + extractShare)
      (upload service format archive >>= service.finish resolver input) :=
    fun archive => (fills_upload format archive).after finishes received
  have part_filled : packShare + (receiveShare + downloadShare) = 75 := by
    norm_num [packShare, receiveShare, downloadShare]
  have whole_filled : packShare + (receiveShare + downloadShare + extractShare) = 100 := by
    norm_num [packShare, receiveShare, downloadShare, extractShare]
  rw [Service.run_eq, ← part_filled, ← whole_filled]
  exact (fills_bundle input).bind sends (add_nonneg (by decide) received)

end Job

/-! ## Part 2 — whole jobs of the service -/

/-- **A job was worked to its end**: it succeeded, or its findings are what it failed for. -/
def Finished : Except JobError JobReport → Prop
  | .ok _ => True
  | .error error => error.isVerdict = true

instance : DecidablePred Finished
  | .ok _ => inferInstanceAs (Decidable True)
  | .error error => inferInstanceAs (Decidable (error.isVerdict = true))

theorem not_finished {error : JobError} (unjudged : error.isVerdict = false) :
    ¬ Finished (.error error) := by
  intro judged
  rw [Finished, unjudged] at judged
  cases judged

/-- **The progress of a job adds up**: it comes to 100 if the job was worked to its end, and to less
if not. -/
structure AddsUp (outcome : Except JobError JobReport) (reports : Progress) : Prop where
  forward : reports.Forward
  whole : Finished outcome → reports.gained = 100
  short : ¬ Finished outcome → reports.gained < 100

/-- A job that reported nothing was not worked to its end. -/
theorem addsUp_nil {error : JobError} (unjudged : error.isVerdict = false) :
    AddsUp (.error error) [] where
  forward := Progress.forward_nil
  whole finished := absurd finished (not_finished unjudged)
  short _ := by decide

namespace Job

theorem addsUp_stopped {reports : Progress} {part share : Rat} {error : JobError}
    (filled : Filled part share (.error error : Except JobError α) reports) (less : part < 100) :
    AddsUp (.error error) reports := by
  obtain ⟨some_part, unjudged⟩ := filled.stopped error rfl
  exact ⟨filled.forward, fun finished => absurd finished (not_finished unjudged),
    fun _ => some_part.trans_lt less⟩

/-- What is made of a run decides how the job ends, and reports nothing. -/
theorem reports_conclude (format : String) (run : RemoteRun) :
    Reports (fun outcome reports => Finished outcome ∧ reports = []) hooks
      (conclude input format run) := by
  intro session
  rw [perform_conclude]
  refine ⟨[], rfl, ?_, rfl⟩
  cases run.failedLog with
  | none => trivial
  | some path => rfl

/-- A step that adds nothing may come first. -/
theorem Fills.addsUp {job : Job α} {next : α → Job JobReport} (first : Fills hooks 0 0 job)
    (second : ∀ value, Reports AddsUp hooks (next value)) :
    Reports AddsUp hooks (job >>= next) := by
  refine Reports.bind first (fun error reports filled => addsUp_stopped filled (by decide))
    fun value reports filled => (second value).mono fun outcome later sums => ?_
  have same : Progress.gained (reports ++ later) = later.gained := by
    rw [Progress.gained_append, filled.given value rfl, zero_add]
  refine ⟨filled.forward.append sums.forward, fun finished => ?_, fun unfinished => ?_⟩
  · rw [same]
    exact sums.whole finished
  · rw [same]
    exact sums.short unfinished

/-- **The progress of a remote job adds up.** -/
theorem reports_generateRemotely (service : Service) (resolver : Resolver) (hint : Option String)
    (input : JobInput) : Reports AddsUp hooks (generateRemotely service resolver hint input) := by
  have logs : ∀ line, Fills hooks 0 0 (log line) := fun line =>
    fills_early (adds_emit fun _ _ => nofun) (idles_log line)
  rw [generateRemotely_eq]
  refine fills_checkpoint.addsUp fun _ => (fills_outputFormat hint input).addsUp fun format =>
    (logs _).addsUp fun _ => ?_
  refine Reports.bind (fills_run service resolver input format)
    (fun error reports filled => addsUp_stopped filled (by decide)) fun run reports filled => ?_
  refine (reports_conclude format run).mono ?_
  rintro outcome _ ⟨finished, rfl⟩
  rw [List.append_nil]
  exact ⟨filled.forward, fun _ => filled.given run rfl,
    fun unfinished => absurd finished unfinished⟩

end Job

/-! ## Part 3 — local jobs -/

namespace Compiler

variable {compiler : Compiler} {searchPaths : List Path}

/-- **What is reported of a config** once it is compiled. -/
def compiledReport (share : Rat) (root config : Path) : Rat × Option String :=
  (share, some ("compiled " ++ (relativeTo root config).text))

/-- **A config is reported once it is compiled**, and not before. -/
theorem reports_compile (forward : 0 ≤ share) (config : Path) :
    Job.Reports (fun outcome reports => reports = match outcome with
        | .ok _ => [compiledReport share root config]
        | .error _ => []) hooks
      (compiler.compile resolver root searchPaths share config) := by
  have looked : Event.NoProgress .looked := fun _ _ => nofun
  have logs : ∀ text, Job.Adds Event.NoProgress hooks (Job.logLines text) :=
    Job.adds_logLines fun _ _ _ => nofun
  have invokes : Job.Adds Event.NoProgress hooks
      (compiler.invoke root (relativeTo root config) searchPaths) :=
    adds_invoke looked (fun _ _ _ => nofun) (fun _ _ _ => nofun) _ _ _
  have stops : ∀ error : JobError, ([] : Progress) =
      match (.error error : Except JobError (List Diagnostic)) with
        | .ok _ => [compiledReport share root config]
        | .error _ => [] := fun _ => rfl
  refine Job.Reports.after (Job.adds_checkpoint looked) stops fun _ =>
    Job.Reports.after invokes stops fun printed => Job.Reports.after (logs _) stops fun _ =>
      Job.Reports.after (logs _) stops fun _ =>
        Job.Reports.after (Job.Adds.of_trace_eq fun _ => rfl) stops fun current session => ?_
  rw [Job.perform_bind_ok (Job.perform_progress forward _)]
  exact ⟨[.progressed share _], rfl, rfl⟩

/-- **Runs that were reported**: one share for each config, up to the first that is not compiled. -/
structure RunsReported (share : Rat) (root : Path) (configs : List Path) (count : Nat)
    (failure : Option JobError) (reports : Progress) : Prop where
  within : count ≤ configs.length
  reported : reports = (configs.take count).map (compiledReport share root)
  complete : failure = none ↔ count = configs.length
  unjudged : ∀ error, failure = some error → error.isVerdict = false

theorem reports_compileEach (forward : 0 ≤ share) (run : LocalRun) (configs : List Path) :
    Job.Reports (fun outcome reports => ∃ diagnostics count failure,
        outcome = .ok (⟨diagnostics, run.invocations + count⟩, failure) ∧
          RunsReported share root configs count failure reports) hooks
      (compiler.compileEach resolver root searchPaths share run configs) := by
  induction configs generalizing run with
  | nil => exact Job.reports_pure ⟨run.diagnostics, 0, none, rfl, le_rfl, rfl, by simp, nofun⟩
  | cons config rest ih =>
    have first : Job.Reports _ hooks (compiler.compile resolver root searchPaths share config) :=
      (reports_compile forward config).failing fun session =>
        (runsHere_compile compiler config session).ends.2
    refine first.attempt.bind (fun error reports ⟨_, failed, _⟩ => nomatch failed) ?_
    rintro value reports ⟨_, same, rfl, failed⟩
    cases same
    cases value with
    | error error =>
      refine Job.reports_pure ⟨run.diagnostics, 0, some error, rfl, Nat.zero_le _, rfl, by simp, ?_⟩
      rintro other ⟨⟩
      exact JobError.isVerdict_of (failed error rfl) fun _ => JobError.isVerdict_of_isOfRun
    | ok diagnostics =>
      refine (ih (run.extend diagnostics)).mono ?_
      rintro outcome later ⟨found, count, failure, rfl, each⟩
      refine ⟨found, count + 1, failure, ?_, Nat.succ_le_succ each.within, ?_, ?_, each.unjudged⟩
      · rw [LocalRun.extend, Nat.add_assoc, Nat.add_comm 1]
      · rw [each.reported, List.take_succ_cons, List.map_cons]
        rfl
      · rw [each.complete, List.length_cons, Nat.add_right_cancel_iff]

/-- How all runs of a job are reported: none was begun, or they are reported in their order. -/
inductive AllReported (configs : List Path) (root : Path) :
    Except JobError (LocalRun × Option JobError) → Progress → Prop
  | unbegun {error : JobError} (unjudged : error.isVerdict = false) :
      AllReported configs root (.error error) []
  | ended {diagnostics : List Diagnostic} {count : Nat} {failure : Option JobError}
      {reports : Progress}
      (each : RunsReported (compileShare configs.length) root configs count failure reports) :
      AllReported configs root (.ok (⟨diagnostics, count⟩, failure)) reports

theorem reports_compileListed (configs : List Path) :
    Job.Reports (AllReported configs root) hooks
      (compiler.compileListed resolver root configs) := by
  have searches : Job.Reports (fun outcome reports => reports = [] ∧
      Job.FailsAs (fun error => error.isEarly = true) outcome) hooks
      (Job.guarded (Job.inspect fun world => pure (subdirectories world root))) :=
    (Job.reports_nothing ((Job.adds_inspect _).guarded fun _ _ => nofun)).failing fun session =>
      ((Job.idles_question fun _ => failsEarly_ok _).guarded session).ends.2
  refine searches.bind ?_ ?_
  · rintro error _ ⟨rfl, failed⟩
    exact .unbegun (JobError.isVerdict_of (failed error rfl) fun _ => JobError.isVerdict_of_isEarly)
  · rintro searchPaths _ ⟨rfl, -⟩
    refine (reports_compileEach (compileShare_nonneg _) .empty configs).mono ?_
    rintro outcome reports ⟨diagnostics, count, failure, rfl, each⟩
    rw [LocalRun.empty, Nat.zero_add]
    exact .ended each

end Compiler

/-- **What is made of local runs**: what they found is published, unless the job was canceled. -/
def Job.concludeHere (input : JobInput) (run : LocalRun) (failure : Option JobError) :
    Job JobReport :=
  match failure with
  | some .canceled => throw .canceled
  | some error => do
    publish run.diagnostics
    throw error
  | none => do
    publish run.diagnostics
    if 0 < errorCount run.diagnostics then throw (.compilerErrors (errorCount run.diagnostics))
    else pure {
      backend := .here
      root := input.root
      format := none
      extracted := []
      invocations := run.invocations
      warnings := warningCount run.diagnostics }

theorem Job.generateHere_eq (compiler : Compiler) (resolver : Resolver) (input : JobInput) :
    generateHere compiler resolver input = compiler.compileAll resolver input >>= fun result =>
      concludeHere input result.1 result.2 := rfl

/-- It reports nothing, and the job was worked to its end unless something stopped its runs. -/
theorem Job.reports_concludeHere (run : LocalRun) (failure : Option JobError)
    (unjudged : ∀ error, failure = some error → error.isVerdict = false) :
    Reports (fun outcome reports => reports = [] ∧ (Finished outcome ↔ failure = none) ∧
      ∀ report, outcome = .ok report → report.invocations = run.invocations) hooks
      (concludeHere input run failure) := by
  intro session
  cases failure with
  | none =>
    unfold concludeHere
    rw [perform_bind_ok (perform_publish _)]
    by_cases some_error : 0 < errorCount run.diagnostics
    · rw [if_pos some_error]
      exact ⟨[], rfl, rfl, iff_of_true rfl rfl, nofun⟩
    · rw [if_neg some_error]
      refine ⟨[], rfl, rfl, iff_of_true trivial rfl, ?_⟩
      rintro report ⟨⟩
      rfl
  | some error =>
    have fails : ((concludeHere input run (some error)).perform hooks session).1 = .error error ∧
        ((concludeHere input run (some error)).perform hooks session).2.trace = session.trace := by
      cases error <;> exact ⟨rfl, rfl⟩
    rw [fails.1, fails.2]
    exact ⟨[], rfl, rfl, iff_of_false (not_finished (unjudged error rfl)) nofun, nofun⟩

/-- **How a local job goes**: one share is reported for each of the first configs, and the job was
worked to its end if that is all of them. -/
structure CountsConfigs (configs : List Path) (root : Path) (outcome : Except JobError JobReport)
    (reports : Progress) (count : Nat) : Prop where
  within : count ≤ configs.length
  reported : reports =
    (configs.take count).map (Compiler.compiledReport (compileShare configs.length) root)
  complete : Finished outcome ↔ count = configs.length
  counted : ∀ report, outcome = .ok report → report.invocations = count

/-- **A local job reports one share for each config that it compiles.** -/
theorem Job.reports_generateHere (compiler : Compiler) (resolver : Resolver)
    (some_config : input.configFiles session.world ≠ []) :
    let ended := (generateHere compiler resolver input).perform hooks session
    ∃ events count, ended.2.trace = events ++ session.trace ∧
      CountsConfigs (input.configFiles session.world) input.root ended.1 (Trace.progress events)
        count := by
  intro ended
  have begins : ended = (compiler.compileListed resolver input.root
      (input.configFiles session.world) >>= fun result =>
        concludeHere input result.1 result.2).perform hooks session := by
    show (generateHere compiler resolver input).perform hooks session = _
    rw [generateHere_eq, perform_bind, Compiler.perform_compileAll_eq some_config, ← perform_bind]
  have law : Reports (fun outcome reports => ∃ count,
      CountsConfigs (input.configFiles session.world) input.root outcome reports count) hooks
      (compiler.compileListed resolver input.root (input.configFiles session.world) >>=
        fun result => concludeHere input result.1 result.2) := by
    refine (Compiler.reports_compileListed (input.configFiles session.world)).bind ?_ ?_
    · rintro error _ (unjudged | _)
      refine ⟨0, Nat.zero_le _, rfl, iff_of_false (not_finished unjudged) fun same => ?_, nofun⟩
      exact some_config (List.length_eq_zero_iff.mp same.symm)
    · rintro ⟨⟨diagnostics, count⟩, failure⟩ reports (_ | each)
      refine (reports_concludeHere _ failure each.unjudged).mono ?_
      rintro outcome _ ⟨rfl, finished, counted⟩
      rw [List.append_nil]
      exact ⟨count, each.within, each.reported, finished.trans each.complete, counted⟩
  rw [begins]
  obtain ⟨events, traced, count, counts⟩ := law session
  exact ⟨events, count, traced, counts⟩

/-- Shares of equal size come to the whole exactly if there is one for each config. -/
theorem CountsConfigs.addsUp {configs : List Path} {outcome : Except JobError JobReport}
    {reports : Progress} {count : Nat} (counts : CountsConfigs configs root outcome reports count)
    (some_config : configs ≠ []) : AddsUp outcome reports := by
  have increments : reports.increments = List.replicate count (compileShare configs.length) := by
    rw [counts.reported, Progress.increments, List.map_map]
    show (configs.take count).map (fun _ => compileShare configs.length) = _
    rw [List.map_const', List.length_take, Nat.min_eq_left counts.within]
  have positive : (0 : Rat) < configs.length :=
    Nat.cast_pos.mpr (List.length_pos_iff.mpr some_config)
  have gained : reports.gained = count * (100 / configs.length) := by
    rw [Progress.gained, increments, List.sum_replicate, nsmul_eq_mul, compileShare]
  refine ⟨fun increment among => ?_, fun finished => ?_, fun unfinished => ?_⟩
  · rw [increments] at among
    rw [List.eq_of_mem_replicate among]
    exact Compiler.compileShare_nonneg _
  · rw [gained, counts.complete.mp finished]
    exact mul_div_cancel₀ 100 positive.ne'
  · have fewer : (count : Rat) < configs.length :=
      Nat.cast_lt.mpr (counts.within.lt_of_ne fun all => unfinished (counts.complete.mpr all))
    rw [gained, mul_div_assoc', div_lt_iff₀ positive, mul_comm]
    exact mul_lt_mul_of_pos_left fewer (by decide)

/-! ## Part 4 — on a console -/

namespace CommandLine

variable {start increment : Rat} {increments : List Rat}

theorem advance_le (start increment : Rat) : advance start increment ≤ 100 := by
  unfold advance
  split
  · next within => exact within
  · exact le_rfl

theorem le_advance (forward : 0 ≤ increment) (within : start ≤ 100) :
    start ≤ advance start increment := by
  unfold advance
  split
  · exact le_add_of_nonneg_right forward
  · exact within

/-- **A console never shows more than 100.** -/
theorem totals_le : ∀ total ∈ totals start increments, total ≤ 100 := by
  induction increments generalizing start with
  | nil => exact fun _ among => absurd among List.not_mem_nil
  | cons increment rest ih =>
    intro total among
    rcases List.mem_cons.mp among with rfl | later
    · exact advance_le start increment
    · exact ih total later

/-- **Nor less than before.** -/
theorem totals_ordered (forward : ∀ increment ∈ increments, 0 ≤ increment) (within : start ≤ 100) :
    (start :: totals start increments).Pairwise (· ≤ ·) := by
  induction increments generalizing start with
  | nil => exact List.pairwise_singleton _ _
  | cons increment rest ih =>
    have step : start ≤ advance start increment := le_advance (forward _ List.mem_cons_self) within
    have later := ih (fun other among => forward other (List.mem_cons_of_mem _ among))
      (advance_le start increment)
    refine List.pairwise_cons.mpr ⟨fun total among => ?_, later⟩
    rcases List.mem_cons.mp among with rfl | among
    · exact step
    · exact step.trans ((List.pairwise_cons.mp later).1 total among)

/-- **What a console shows are the sums themselves** if they stay within 100. -/
theorem totals_exact (forward : ∀ increment ∈ increments, 0 ≤ increment)
    (within : start + increments.sum ≤ 100) :
    start :: totals start increments = increments.scanl (· + ·) start := by
  induction increments generalizing start with
  | nil => rfl
  | cons increment rest ih =>
    have later : ∀ other ∈ rest, 0 ≤ other := fun other among =>
      forward other (List.mem_cons_of_mem _ among)
    rw [List.sum_cons, ← add_assoc] at within
    have fits : start + increment ≤ 100 :=
      (le_add_of_nonneg_right (List.sum_nonneg later)).trans within
    have step : advance start increment = start + increment := if_pos fits
    rw [totals, step, ih later within, List.scanl_cons]

end CommandLine

/-! ## Part 5 — every job -/

/-- **Progress adds up**, at every moment of a job and on a console that adds the increments. -/
structure ProgressAddsUp (outcome : Except JobError JobReport) (trace : Trace) : Prop where
  forward : ∀ increment ∈ Progress.increments trace.progress, 0 ≤ increment
  whole : Progress.gained trace.progress = 100 ↔ Finished outcome
  moments : ∀ earlier : Trace, earlier <:+ trace → Progress.gained earlier.progress ≤ 100
  shown : 0 :: CommandLine.totals 0 (Progress.increments trace.progress) =
    (Progress.increments trace.progress).scanl (· + ·) 0
  ordered : (CommandLine.totals 0 (Progress.increments trace.progress)).Pairwise (· ≤ ·)
  bounded : ∀ total ∈ CommandLine.totals 0 (Progress.increments trace.progress), total ≤ 100

/-- It does so at every moment if it does in the end. -/
theorem AddsUp.everywhere {outcome : Except JobError JobReport} {trace : Trace}
    (sums : AddsUp outcome trace.progress) : ProgressAddsUp outcome trace := by
  have within : Progress.gained trace.progress ≤ 100 := by
    by_cases finished : Finished outcome
    · exact (sums.whole finished).le
    · exact (sums.short finished).le
  have empty : (0 : Rat) ≤ 100 := by decide
  have ordered := CommandLine.totals_ordered sums.forward empty
  refine ⟨sums.forward, ⟨fun whole => ?_, sums.whole⟩, ?_, ?_, (List.pairwise_cons.mp ordered).2,
    CommandLine.totals_le⟩
  · by_contra unfinished
    exact (sums.short unfinished).ne whole
  · rintro earlier ⟨later, rfl⟩
    have forward := sums.forward
    rw [Trace.progress_append] at within forward
    exact forward.gained_le.trans within
  · refine CommandLine.totals_exact sums.forward ?_
    rw [zero_add]
    exact within

/-- Looks at the token report nothing. -/
theorem Session.Looks.progress {after : Session} (looks : (Session.fresh world).Looks after) :
    after.trace.progress = [] := by
  obtain ⟨events, traced, only⟩ := looks.looks
  rw [traced]
  refine Trace.progress_eq_nil fun event among => ?_
  rw [only event ((List.append_nil events).subst among)]
  exact fun _ _ => nofun

/-- What is reported after such looks is all that is reported. -/
theorem Session.Looks.progress_append (looks : (Session.fresh world).Looks session)
    (events : Trace) : Trace.progress (events ++ session.trace) = events.progress := by
  rw [Trace.progress_append, looks.progress, List.nil_append]

namespace Begins

variable {generator : Generator} {request : JobRequest}
  {ended : Except JobError JobReport × Session}

theorem unjudged {error : JobError} (kind : error.isEarly = true ∨ error = .canceled) :
    error.isVerdict = false :=
  JobError.isVerdict_of kind fun _ => JobError.isVerdict_of_isEarly

/-- **A local job** counts the configs that are there when it begins. -/
theorem countsConfigs {compiler : Compiler} (begins : Begins hooks generator request world ended)
    (selected : Backend.select generator.settings generator.resolver generator.timeout =
      .ok (.here compiler))
    (requested : Job.requestedPath generator.resolver request.path = .ok path)
    (resolved : JobInput.resolve world path = .ok input) :
    ∃ count, CountsConfigs (input.configFiles world) input.root ended.1 ended.2.trace.progress
      count := by
  have some_config := JobInput.configFiles_ne_nil resolved
  cases begins with
  | stopped kind looks =>
    rw [looks.progress]
    refine ⟨0, Nat.zero_le _, rfl, ?_, nofun⟩
    refine iff_of_false (not_finished (unjudged kind)) fun same => ?_
    exact some_config (List.length_eq_zero_iff.mp same.symm)
  | @begun backend path' input' session chosen asked means looks =>
    obtain rfl : backend = .here compiler := Except.ok.inj (chosen.symm.trans selected)
    obtain rfl : path' = path := Except.ok.inj (asked.symm.trans requested)
    obtain rfl : input' = input := Except.ok.inj (means.symm.trans resolved)
    obtain rfl : world = session.world := looks.idle.world.symm
    obtain ⟨events, count, traced, counts⟩ :=
      @Job.reports_generateHere hooks session input' compiler generator.resolver some_config
    refine ⟨count, ?_⟩
    rw [← looks.progress_append, ← traced] at counts
    exact counts

/-- **The progress of every job adds up.** -/
theorem addsUp (begins : Begins hooks generator request world ended) :
    AddsUp ended.1 ended.2.trace.progress := by
  cases begins with
  | stopped kind looks =>
    rw [looks.progress]
    exact addsUp_nil (unjudged kind)
  | @begun backend path input session selected requested resolved looks =>
    cases backend with
    | here compiler =>
      obtain ⟨count, counts⟩ :=
        (Begins.begun selected requested resolved looks).countsConfigs selected requested resolved
      exact counts.addsUp (JobInput.configFiles_ne_nil resolved)
    | remote service =>
      have law : Job.Reports AddsUp hooks (Job.generateRemotely service generator.resolver
        request.format input) := Job.reports_generateRemotely _ _ _ _
      obtain ⟨events, traced, sums⟩ := law session
      rw [← looks.progress_append, ← traced] at sums
      exact sums

end Begins

/-- **Progress adds up in every job.** A local job reports one share for each config, up to the
first one that is not compiled. -/
theorem generate_progress (generator : Generator) (request : JobRequest) (hooks : Hooks)
    (world : World) :
    let ended := generator.generate request hooks world
    ProgressAddsUp ended.1 ended.2.trace ∧
      ∀ compiler path input,
        Backend.select generator.settings generator.resolver generator.timeout =
          .ok (.here compiler) →
        Job.requestedPath generator.resolver request.path = .ok path →
        JobInput.resolve world path = .ok input →
        ∃ count, CountsConfigs (input.configFiles world) input.root ended.1
          ended.2.trace.progress count := by
  intro ended
  have begins := generator.begins request hooks world
  exact ⟨begins.addsUp.everywhere, fun compiler path input => begins.countsConfigs⟩

/-- Runs that nothing stops work a job to its end, whatever they find. -/
theorem LocalRuns.finished {runs : LocalRuns} (whole : runs.failure = none) (count : Nat) :
    Finished (runs.outcome root count) := by
  rw [LocalRuns.outcome, whole]
  dsimp only
  split
  · exact rfl
  · trivial

/-- Hooks whose compiler has nothing to say. -/
def muteHooks : Hooks :=
  ⟨.never, fun _ => none, fun _ _ world => .ok (.exited ⟨#[]⟩ ⟨#[]⟩ 0, world),
    fun _ _ => .unreachable .broken⟩

/-- Hooks whose service breaks off. -/
def tornHooks : Hooks := { smallHooks with service := fun _ _ => .answered 200 [⟨#[]⟩] true }

/-- A generator that compiles here. -/
def nearGenerator : Generator := .fresh ⟨"/bin/slc", ""⟩ ⟨⟨"/"⟩, ⟨[], none⟩⟩ standardTimeout

/-- A generator that asks a service. -/
def farGenerator : Generator :=
  .fresh ⟨"", "http://localhost:9/"⟩ ⟨⟨"/"⟩, ⟨[], none⟩⟩ standardTimeout

theorem near_selected : Backend.select nearGenerator.settings nearGenerator.resolver
    nearGenerator.timeout = .ok (.here ⟨⟨"/bin/slc"⟩, standardTimeout⟩) := by cbv

theorem near_requested : Job.requestedPath nearGenerator.resolver "/job" = .ok ⟨"/job"⟩ := by cbv

/-- Four configs are compiled to the end. -/
theorem near_finished :
    Finished (nearGenerator.generate ⟨"/job", none⟩ muteHooks rowWorld).1 := by
  have quiet : muteHooks.Quiet := fun _ => rfl
  have some_config := JobInput.configFiles_ne_nil row_resolve
  have goes : nearGenerator.generate ⟨"/job", none⟩ muteHooks rowWorld = _ :=
    generate_resolved quiet near_selected near_requested row_resolve
  rw [goes]
  dsimp only
  rw [Job.perform_generateHere quiet some_config]
  refine LocalRuns.finished ?_ _
  rw [Compiler.jobRuns, row_configFiles]
  rfl

/-- A log with an error is what a job was sent for. -/
theorem far_finished :
    Finished (farGenerator.generate ⟨"/job/x.sl.json", some "cpp"⟩ smallHooks smallWorld).1 := by
  decide +kernel

/-- An answer that breaks off is not. -/
theorem far_unfinished :
    ¬ Finished (farGenerator.generate ⟨"/job/x.sl.json", some "cpp"⟩ tornHooks smallWorld).1 := by
  decide +kernel

/-- A job of four configs; one that is sent to a service, whose log has an error; and the same one
when the answer breaks off. -/
theorem generate_progress_each :
    let made := nearGenerator.generate ⟨"/job", none⟩ muteHooks rowWorld
    let sent := farGenerator.generate ⟨"/job/x.sl.json", some "cpp"⟩ smallHooks smallWorld
    let lost := farGenerator.generate ⟨"/job/x.sl.json", some "cpp"⟩ tornHooks smallWorld
    made.2.trace.progress = [(25, some "compiled a.sl.json"), (25, some "compiled b.sl.json"),
        (25, some "compiled c.sl.json"), (25, some "compiled d.sl.json")] ∧
      Progress.gained made.2.trace.progress = 100 ∧
      Finished sent.1 ∧ Progress.gained sent.2.trace.progress = 100 ∧
      ¬ Finished lost.1 ∧ Progress.gained lost.2.trace.progress < 100 := by
  obtain ⟨sums, counts⟩ := generate_progress nearGenerator ⟨"/job", none⟩ muteHooks rowWorld
  obtain ⟨whole, -⟩ := generate_progress farGenerator ⟨"/job/x.sl.json", some "cpp"⟩ smallHooks
    smallWorld
  obtain ⟨part, -⟩ := generate_progress farGenerator ⟨"/job/x.sl.json", some "cpp"⟩ tornHooks
    smallWorld
  obtain ⟨count, counted⟩ := counts _ _ _ near_selected near_requested row_resolve
  have reported := counted.reported
  rw [counted.complete.mp near_finished, row_configFiles] at reported
  refine ⟨reported.trans (by decide +kernel), sums.whole.mpr near_finished, far_finished,
    whole.whole.mpr far_finished, far_unfinished, ?_⟩
  refine lt_of_le_of_ne (part.moments _ (List.suffix_refl _)) fun all => ?_
  exact far_unfinished (part.whole.mp all)

end ShaderForge
