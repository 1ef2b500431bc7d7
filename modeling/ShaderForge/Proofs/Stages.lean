/-
**The stages of a job, whatever the token does.**

What can go wrong tells how far a job came. Settings, the path that was asked for, configs and files
that cannot be read end it early (`JobError.isEarly`), before anything is started elsewhere; a run
of the compiler ends it in two ways of its own (`JobError.isOfRun`); the answer of the service and
what is made of it end it late (`JobError.isLate`).

Each stage has one law here, at every session and under every token.

* `failsEarly_resolve`, `idles_outputFormat`, `idles_bundle`: up to the request, a job only waits;
* `heedsAt_compileEach`: runs of the compiler are started only while the token has not fired, and
  what ends them is reported with what they found;
* `staysLate_upload`, `idles_receive`: the request is sent only while the token has not fired;
* `heedsAt_placeMembers`: nothing is unpacked if the token had fired before.
-/

import ShaderForge.Proofs.Heeding
import ShaderForge.Proofs.LocalRuns
import ShaderForge.Proofs.RemoteRun

namespace ShaderForge

variable {α : Type} {hooks : Hooks} {session after : Session}

/-! ## Part 1 — ways to fail -/

namespace JobError

/-- What is wrong with what a job was given: the path, a config, or the settings. -/
def isRefusal : JobError → Bool
  | invalidInput _ | invalidConfig _ _ | invalidBinary _ _ | invalidEndpoint _ _ => true
  | _ => false

/-- What ends a job before anything is started elsewhere: what it was given, or a file that cannot
be read. -/
def isEarly : JobError → Bool
  | io _ => true
  | error => error.isRefusal

/-- What ends a run of the compiler. -/
def isOfRun : JobError → Bool
  | timeout _ _ | spawn _ _ => true
  | _ => false

/-- What ends a job after its plan was packed. -/
def isLate : JobError → Bool
  | transfer _ _ | archive | io _ => true
  | _ => false

/-- A refusal is not looked for late. -/
theorem isLate_of_isRefusal {error : JobError} (refusal : error.isRefusal = true) :
    error.isLate = false := by
  cases error with
  | transfer url fault => cases refusal
  | archive => cases refusal
  | io fault => cases refusal
  | _ => rfl

end JobError

/-- **Nothing but an early error** is given instead of a value. -/
def FailsEarly {α : Type} (outcome : Except JobError α) : Prop :=
  ∀ error, outcome = .error error → error.isEarly = true

section Early

variable {β : Type} {world : World}

theorem failsEarly_ok (value : α) : FailsEarly (.ok value) := fun _ same => nomatch same

theorem failsEarly_error {error : JobError} (early : error.isEarly = true) :
    FailsEarly (.error error : Except JobError α) := by
  rintro other ⟨⟩
  exact early

theorem FailsEarly.bind {first : Except JobError α} {next : α → Except JobError β}
    (early : FailsEarly first) (later : ∀ value, FailsEarly (next value)) :
    FailsEarly (first >>= next) := by
  cases first with
  | error error => exact failsEarly_error (early error rfl)
  | ok value => exact later value

theorem FailsEarly.map {outcome : Except JobError α} (early : FailsEarly outcome)
    (change : α → β) : FailsEarly (outcome.map change) := by
  cases outcome with
  | error error => exact failsEarly_error (early error rfl)
  | ok value => exact failsEarly_ok _

theorem failsEarly_load (world : World) (path : Path) :
    FailsEarly (ConfigFile.load world path) := by
  unfold ConfigFile.load
  split
  · exact failsEarly_error rfl
  · next text _ =>
    cases ConfigFile.parse text with
    | error fault => exact failsEarly_error rfl
    | ok config => exact failsEarly_ok config

theorem failsEarly_fileNameOf (path : Path) : FailsEarly (fileNameOf path) := by
  unfold fileNameOf
  split
  · exact failsEarly_error rfl
  · exact failsEarly_ok _

theorem failsEarly_validateRoot (world : World) (root : Path) :
    FailsEarly (validateRoot world root) := by
  unfold validateRoot
  split
  · exact failsEarly_ok _
  · exact failsEarly_error rfl

theorem failsEarly_validateConfig (world : World) (config root : Path) :
    FailsEarly (validateConfig world config root) := by
  refine (failsEarly_load world config).bind fun file => ?_
  split
  · exact failsEarly_ok _
  · exact failsEarly_validateRoot world root

theorem failsEarly_owner? (world : World) (shader : Path) : FailsEarly (owner? world shader) := by
  unfold owner?
  split
  · exact failsEarly_error rfl
  · exact failsEarly_ok _

theorem failsEarly_resolveFile (world : World) (path : Path) :
    FailsEarly (JobInput.resolveFile world path) := by
  unfold JobInput.resolveFile
  split
  · exact failsEarly_error rfl
  · dsimp only
    split
    · exact (failsEarly_validateConfig world _ _).bind fun _ => failsEarly_ok _
    · split
      · refine (failsEarly_owner? world path).bind fun owner => ?_
        split
        · exact failsEarly_error rfl
        · split
          · exact failsEarly_ok _
          · exact failsEarly_error rfl
      · exact (failsEarly_validateRoot world _).bind fun _ => failsEarly_ok _

/-- **A path that means nothing is an early error.** -/
theorem failsEarly_resolve (world : World) (path : Path) :
    FailsEarly (JobInput.resolve world path) := by
  unfold JobInput.resolve
  split
  · exact failsEarly_error rfl
  · exact (failsEarly_validateRoot world path).bind fun _ => failsEarly_ok _
  · exact failsEarly_resolveFile world path

theorem failsEarly_flattenPath (world : World) (root configPath : Path) (path : String) :
    FailsEarly (flattenPath world root configPath path) := by
  unfold flattenPath
  split
  · exact failsEarly_ok _
  · split
    · exact failsEarly_error rfl
    · split
      · exact failsEarly_error rfl
      · exact failsEarly_ok _

theorem failsEarly_flattenEntries (world : World) (root configPath : Path)
    (entries : List ConfigEntry) : FailsEarly (flattenEntries world root configPath entries) := by
  induction entries with
  | nil => exact failsEarly_ok _
  | cons entry rest ih =>
    have first : FailsEarly (flattenEntry world root configPath entry) :=
      (failsEarly_flattenPath world root configPath _).bind fun _ =>
        (failsEarly_flattenPath world root configPath _).bind fun _ => failsEarly_ok _
    exact first.bind fun _ => ih.bind fun _ => failsEarly_ok _

/-- **A plan that cannot be made is an early error.** -/
theorem failsEarly_plan (world : World) (input : JobInput) : FailsEarly (input.plan world) := by
  refine FailsEarly.map ?_ firstOfEachName
  cases input with
  | shader target =>
    exact (failsEarly_fileNameOf _).bind fun _ => (failsEarly_fileNameOf _).bind fun _ =>
      failsEarly_ok _
  | config root path =>
    exact (failsEarly_load world path).bind fun _ => (failsEarly_fileNameOf path).bind fun _ =>
      (failsEarly_flattenEntries world root path _).bind fun _ => failsEarly_ok _
  | directory root => exact failsEarly_ok _

theorem failsEarly_primaryConfig (world : World) (input : JobInput) :
    FailsEarly (input.primaryConfig world) := by
  unfold JobInput.primaryConfig
  split
  · exact failsEarly_error rfl
  · exact failsEarly_ok _

theorem failsEarly_select (settings : Settings) (resolver : Resolver) (timeout : Nat) :
    FailsEarly (Backend.select settings resolver timeout) := by
  unfold Backend.select
  split
  · dsimp only
    split
    · exact failsEarly_error rfl
    · exact failsEarly_ok _
  · refine FailsEarly.map ?_ _
    unfold Service.at?
    split
    · exact failsEarly_error rfl
    · exact failsEarly_ok _

theorem failsEarly_requestedPath (resolver : Resolver) (path : String) :
    FailsEarly (Job.requestedPath resolver path) := by
  unfold Job.requestedPath
  split
  · exact failsEarly_error rfl
  · exact failsEarly_ok _

end Early

namespace Job

/-! ## Part 2 — stages that only wait -/

/-- A job that only waits, and fails early if it does. -/
abbrev IdlesEarly (hooks : Hooks) (job : Job α) : Prop :=
  Idles hooks (fun error => error.isEarly = true) job

theorem idles_early {outcome : Except JobError α} (early : FailsEarly outcome) :
    IdlesEarly hooks (settle outcome) :=
  idles_settle early (by decide)

theorem idles_refuse {error : JobError} (early : error.isEarly = true) :
    IdlesEarly hooks (throw error : Job α) := idles_early (failsEarly_error early)

theorem idles_question {question : World → Except JobError α}
    (early : ∀ world, FailsEarly (question world)) : IdlesEarly hooks (inspect question) :=
  idles_inspect early (by decide)

theorem idles_outputFormat (hint : Option String) (input : JobInput) :
    IdlesEarly hooks (outputFormat hint input) := by
  have chosen : IdlesEarly hooks chosenFormat := (idles_choose _).bind fun _ => idles_pure _
  have asked : IdlesEarly hooks
      (awaited (inspect fun world => pure (input.declaredFormat? world))) :=
    (idles_question fun _ => failsEarly_ok _).awaited
  unfold outputFormat
  split
  · exact idles_pure _
  · refine asked.bind fun declared => ?_
    cases declared with
    | some format => exact idles_pure format
    | none => exact chosen

/-- **How packing ends**: nothing but events happened, and the fault that ended it was not a
cancellation unless the token has fired. -/
structure PackingEnds (hooks : Hooks) (fails : JobError → Prop) (session : Session)
    (outcome : Except JobError Packing) (after : Session) : Prop where
  idle : session.Idle after
  early : FailsAs fails outcome
  fault : ∀ packing fault, outcome = .ok packing → packing.fault = some fault →
    fails fault ∨ fault = .canceled ∧ hooks.token.fired after.trace = true

section Packing

variable {fails : JobError → Prop}

/-- Packing that ends with a value. -/
theorem PackingEnds.of_ok {packing : Packing} (idle : session.Idle after)
    (fault : ∀ fault, packing.fault = some fault →
      fails fault ∨ fault = .canceled ∧ hooks.token.fired after.trace = true) :
    PackingEnds hooks fails session (.ok packing) after where
  idle := idle
  early := failsAs_ok _
  fault := by
    rintro _ error ⟨⟩ same
    exact fault error same

/-- Packing that a step ends. -/
theorem PackingEnds.of_error {error : JobError} (idle : session.Idle after)
    (early : FailsAs fails (.error error : Except JobError α)) :
    PackingEnds hooks fails session (.error error) after :=
  ⟨idle, early.carry, fun _ _ same => nomatch same⟩

theorem content_error {world : World} {source : EntrySource} {error : JobError}
    (failed : source.content world = .error error) : ∃ fault, error = .io fault := by
  cases source with
  | file path => exact liftIo_error failed
  | bytes content => cases failed

variable (unread : ∀ fault, fails (.io fault)) {report : Nat → Nat → Job Unit}
  (reports : ∀ done total, Idles hooks fails (report done total))

include unread reports

/-- Packing the entries that are left. -/
theorem heedsAt_packFrom (total done : Nat) (plan : List ArchiveEntry) (session : Session) :
    HeedsAt hooks (packFrom report total done plan) session (PackingEnds hooks fails session) := by
  induction plan generalizing done session with
  | nil =>
    exact .of_perform (fun _ _ => rfl) (.of_ok (.refl session) fun fault same => nomatch same)
      (fun same => nomatch same) id
  | cons entry rest ih =>
    refine (heedsAt_look hooks session).bind (fun error after stopped => nomatch stopped.2) ?_
    rintro fired looked - ⟨rfl, same⟩
    have there := Except.ok.inj same
    have stops : ∀ fault : JobError, fails fault ∨ fault = .canceled ∧
        hooks.token.fired session.looked.trace = true →
        HeedsAt hooks (pure ⟨[], some fault⟩ : Job Packing) session.looked
          (PackingEnds hooks fails session) := by
      intro fault known
      refine .of_perform (fun _ _ => rfl) (.of_ok (.looked session) ?_)
        (fun same => nomatch same) id
      rintro error ⟨⟩
      exact known
    cases fired with
    | true => exact stops .canceled (.inr ⟨rfl, there.symm⟩)
    | false =>
      refine HeedsAt.get ?_
      dsimp only [Session.looked_world]
      cases read : entry.source.content session.world with
      | error error =>
        obtain ⟨fault, rfl⟩ := content_error read
        exact stops (.io fault) (.inl (unread fault))
      | ok content =>
        have before := Session.Idle.looked session
        refine (reports _ _ session.looked).bind
          (fun _ _ reported => .of_error (before.trans reported.1) reported.2)
          fun _ shown _ reported => ?_
        have idle := before.trans reported.1
        refine (ih _ shown).bind
          (fun _ _ ends => .of_error (idle.trans ends.idle) ends.early)
          fun later packed _ ends => ?_
        exact .of_perform (fun _ _ => rfl)
          (.of_ok (idle.trans ends.idle) fun fault same => ends.fault later fault rfl same)
          (fun same => nomatch same) id

/-- **Packing only waits**, and fails as its reports do or if a file cannot be read. -/
theorem idles_pack (loud : ¬ fails .canceled) (plan : List ArchiveEntry) :
    Idles hooks fails (pack report plan) := by
  intro session
  refine HeedsAt.get ((heedsAt_packFrom unread reports _ _ plan session).bind
    (fun error after ends => ⟨ends.idle, ends.early.carry⟩) fun packing packed _ ends => ?_)
  cases stopped : packing.fault with
  | none =>
    exact .of_perform (fun _ _ => rfl) ⟨ends.idle, failsAs_ok _⟩ (fun same => nomatch same) id
  | some fault =>
    have known := ends.fault packing fault rfl stopped
    refine .of_perform (fun _ _ => rfl) ⟨ends.idle, ?_⟩ (fun same => ?_) id
    · rintro error ⟨⟩
      exact known.imp_right And.left
    · cases same
      exact known.elim (fun failed => absurd failed loud) And.right

end Packing

/-- **Up to the request a job only waits.** -/
theorem idles_bundle (input : JobInput) : IdlesEarly hooks (bundle input) := by
  refine (idles_progress _ _).bind fun _ =>
    (idles_question fun world => failsEarly_plan world input).guarded.bind fun plan => ?_
  have packs : IdlesEarly hooks (guarded (pack reportPacking plan) >>= fun archive =>
      progress packShare none >>= fun _ => pure archive) :=
    (idles_pack (fun _ => rfl) (fun _ _ => idles_progress _ _) (by decide)
      plan).guarded.bind fun archive =>
      (idles_progress _ _).bind fun _ => idles_pure archive
  cases plan with
  | nil => exact (idles_refuse rfl).bind fun _ => packs
  | cons first rest => exact packs

end Job

/-! ## Part 3 — runs of the compiler -/

/-- The findings that were published are those of before. -/
def Session.Keeps (before after : Session) : Prop := after.findings = before.findings

theorem Session.Keeps.trans {before middle : Session} (first : before.Keeps middle)
    (second : middle.Keeps after) : before.Keeps after := Eq.trans second first

namespace Compiler

variable {resolver : Resolver} {root : Path} {searchPaths : List Path} {share : Rat}

/-- A job that keeps the findings, and fails as a run of the compiler does. -/
abbrev RunsHere (hooks : Hooks) (job : Job α) : Prop :=
  Job.Follows Session.Keeps hooks (fun error => error.isOfRun = true) job

theorem runsHere_of_idles {job : Job α}
    (idles : Job.Idles hooks (fun error => error.isOfRun = true) job) : RunsHere hooks job :=
  idles.mono (fun _ _ idle => idle.findings) fun _ => id

/-- **The compiler is started** with a token that has not fired. -/
theorem heedsAt_launch (compiler : Compiler) (config : Path) (invocation : Invocation)
    (unfired : hooks.token.fired session.trace = false) :
    Job.HeedsAt hooks (compiler.launch config invocation) session fun outcome after =>
      session.Keeps after ∧ Job.FailsAs (fun error => error.isOfRun = true) outcome := by
  have asked : ∀ other, hooks.Until other →
      (compiler.launch config invocation).perform other session =
        (compiler.launch config invocation).perform hooks session := by
    intro other same
    rw [perform_launch, perform_launch, same.compiler session.trace unfired]
  suffices ends : ∀ outcome after,
      (compiler.launch config invocation).perform hooks session = (outcome, after) →
        session.Keeps after ∧ (∀ error, outcome = .error error → error.isOfRun = true) ∧
          (hooks.token.Respected session.trace → hooks.token.Respected after.trace) by
    obtain ⟨keeps, failed, respects⟩ := ends _ _ rfl
    exact ⟨⟨keeps, Job.failsAs_of failed⟩, fun same => (nomatch failed _ same), respects, asked⟩
  intro outcome after ran
  rw [perform_launch] at ran
  have starts : hooks.token.Respected session.trace →
      hooks.token.Respected (.started invocation :: session.trace) := fun before =>
    before.cons fun _ => unfired
  split at ran
  · cases ran
    exact ⟨rfl, by rintro error ⟨⟩; rfl, id⟩
  · cases ran
    exact ⟨rfl, by rintro error ⟨⟩; rfl, starts⟩
  · cases ran
    exact ⟨rfl, fun _ same => (nomatch same), starts⟩

theorem runsHere_invoke (compiler : Compiler) (root config : Path) (searchPaths : List Path) :
    RunsHere hooks (compiler.invoke root config searchPaths) := by
  refine Job.Follows.bind Session.Keeps.trans (runsHere_of_idles (Job.idles_log _)) fun _ => ?_
  exact Job.follows_guarded (fun _ => rfl) Session.Keeps.trans fun _ unfired =>
    heedsAt_launch compiler config _ unfired

/-- **One run** keeps what was published. -/
theorem runsHere_compile (compiler : Compiler) (config : Path) :
    RunsHere hooks (compiler.compile resolver root searchPaths share config) := by
  refine Job.Follows.bind Session.Keeps.trans (runsHere_of_idles Job.idles_checkpoint) fun _ =>
    Job.Follows.bind Session.Keeps.trans (runsHere_invoke _ _ _ _) fun printed =>
      runsHere_of_idles ?_
  exact (Job.idles_logLines _).bind fun _ => (Job.idles_logLines _).bind fun _ =>
    Job.idles_get fun current => (Job.idles_progress _ _).bind fun _ => Job.idles_pure _

/-- How runs end: what they came to is a value, which tells the error that stopped them. -/
structure RunsEnd (hooks : Hooks) (session : Session)
    (outcome : Except JobError (LocalRun × Option JobError)) (after : Session) : Prop where
  keeps : session.Keeps after
  value : ∃ run failure, outcome = .ok (run, failure) ∧ ∀ error, failure = some error →
    error.isOfRun = true ∨ error = .canceled ∧ hooks.token.fired after.trace = true

/-- **Runs end with what they found.** -/
theorem heedsAt_compileEach (compiler : Compiler) (run : LocalRun) (configs : List Path)
    (session : Session) :
    Job.HeedsAt hooks (compiler.compileEach resolver root searchPaths share run configs) session
      (RunsEnd hooks session) := by
  induction configs generalizing run session with
  | nil =>
    exact .of_perform (fun _ _ => rfl) ⟨rfl, run, none, rfl, fun _ same => nomatch same⟩
      (fun same => nomatch same) id
  | cons config rest ih =>
    refine (runsHere_compile compiler config session).attempt.bind
      (fun error after ⟨_, failed, _⟩ => nomatch failed) ?_
    rintro result middle - ⟨_, same, ⟨keeps, failed⟩, canceled⟩
    cases same
    cases result with
    | error error =>
      refine .of_perform (fun _ _ => rfl) ⟨keeps, run, some error, rfl, ?_⟩
        (fun same => nomatch same) id
      rintro other ⟨⟩
      refine (failed error rfl).imp_right fun same => ⟨same, canceled (congrArg _ same)⟩
    | ok diagnostics =>
      exact (ih (run.extend diagnostics) middle).mono fun _ _ ends =>
        ⟨keeps.trans ends.keeps, ends.value⟩

/-- How all runs of a job end: none was begun, or they came to their end. -/
inductive AllRunsEnd (hooks : Hooks) (session : Session) :
    Except JobError (LocalRun × Option JobError) → Session → Prop
  | unbegun {error : JobError} {after : Session} (kind : error.isEarly = true ∨ error = .canceled)
      (idle : session.Idle after) : AllRunsEnd hooks session (.error error) after
  | ended {outcome : Except JobError (LocalRun × Option JobError)} {after : Session}
      (ends : RunsEnd hooks session outcome after) : AllRunsEnd hooks session outcome after

theorem heedsAt_compileAll (compiler : Compiler) (resolver : Resolver) (input : JobInput)
    (session : Session) :
    Job.HeedsAt hooks (compiler.compileAll resolver input) session (AllRunsEnd hooks session) := by
  have searches : Job.IdlesEarly hooks
      (Job.guarded (Job.inspect fun world => pure (subdirectories world input.root))) :=
    (Job.idles_question fun _ => failsEarly_ok _).guarded
  have refuses : Job.IdlesEarly hooks (throw (.invalidInput input.root) : Job PUnit) :=
    Job.idles_refuse rfl
  have stops : ∀ {α : Type} (error : JobError) (after : Session), session.Idle after ∧
      Job.FailsAs (fun error => error.isEarly = true) (.error error : Except JobError α) →
      AllRunsEnd hooks session (.error error) after := fun error _ ⟨idle, failed⟩ =>
    .unbegun (failed error rfl) idle
  refine Job.HeedsAt.get ?_
  dsimp only
  split
  · exact (refuses session).bind stops fun _ _ ran => nomatch ran
  · refine (searches session).bind stops fun searchPaths middle _ ⟨idle, _⟩ => ?_
    exact (heedsAt_compileEach compiler _ _ middle).mono fun _ _ ends =>
      .ended ⟨Session.Keeps.trans idle.findings ends.keeps, ends.value⟩

end Compiler

/-! ## Part 4 — the service and its answer -/

/-- Files and findings are those of before. -/
def Session.Stays (before after : Session) : Prop :=
  after.world = before.world ∧ after.findings = before.findings

theorem Session.Stays.trans {before middle : Session} (first : before.Stays middle)
    (second : middle.Stays after) : before.Stays after :=
  ⟨second.1.trans first.1, second.2.trans first.2⟩

namespace Job

/-- A job that leaves files and findings alone, and fails late if it does. -/
abbrev StaysLate (hooks : Hooks) (job : Job α) : Prop :=
  Follows Session.Stays hooks (fun error => error.isLate = true) job

theorem staysLate_of_idles {job : Job α}
    (idles : Idles hooks (fun error => error.isLate = true) job) : StaysLate hooks job :=
  idles.mono (fun _ _ idle => ⟨idle.world, idle.findings⟩) fun _ => id

theorem received_late {url : String} {reply : Reply} {error : JobError}
    (failed : received url reply = .error error) : error.isLate = true := by
  unfold received at failed
  split at failed
  · cases failed
    rfl
  · split at failed
    · cases failed
      rfl
    · cases failed

/-- **A request is sent** with a token that has not fired. -/
theorem heedsAt_request (upload : Upload) (unfired : hooks.token.fired session.trace = false) :
    HeedsAt hooks (request upload) session fun outcome after =>
      session.Stays after ∧ FailsAs (fun error => error.isLate = true) outcome := by
  have ran : ∀ other, hooks.Until other → (request upload).perform other session =
      (received upload.url (hooks.service session.trace upload),
        session.noting (.sent upload)) := by
    intro other same
    rw [perform_request, same.service session.trace unfired]
  exact .of_perform ran ⟨⟨rfl, rfl⟩, failsAs_of fun _ failed => received_late failed⟩
    (fun same => nomatch received_late same) fun before => before.cons fun _ => unfired

theorem staysLate_upload (service : Service) (format : String) (archive : Archive) :
    StaysLate hooks (upload service format archive) :=
  Follows.bind Session.Stays.trans (staysLate_of_idles (idles_log _)) fun _ =>
    Follows.bind Session.Stays.trans (staysLate_of_idles idles_checkpoint) fun _ =>
      follows_guarded (fun _ => ⟨rfl, rfl⟩) Session.Stays.trans fun _ unfired =>
        heedsAt_request _ unfired

/-- **Receiving only waits.** -/
theorem idles_receive (url : String) (pieces : List ByteArray) (broken : Bool) :
    Idles hooks (fun error => error.isLate = true) (receive url pieces broken) := by
  have acknowledges : ∀ (already : Bool) (next : Job ByteArray),
      Idles hooks (fun error => error.isLate = true) next →
      Idles hooks (fun error => error.isLate = true)
        (if !already then acknowledge >>= fun _ => next else next) := by
    intro already next idles
    cases already with
    | false => exact (idles_progress _ _).bind fun _ => idles
    | true => exact idles
  have each : ∀ acknowledged, Idles hooks (fun error => error.isLate = true)
      (receiveEach url broken acknowledged pieces) := by
    induction pieces with
    | nil =>
      intro acknowledged
      refine (Idles.guarded ?_).bind fun _ => acknowledges acknowledged _ (idles_pure _)
      cases broken with
      | false => exact idles_pure _
      | true => exact idles_throw rfl (by decide)
    | cons piece rest ih =>
      intro acknowledged
      exact idles_checkpoint.bind fun _ => acknowledges acknowledged _ ((ih true).bind fun _ =>
        idles_pure _)
  exact (each false).bind fun _ => (idles_progress _ _).bind fun _ => idles_pure _

/-- **How unpacking ends**: no directory is lost, and nothing was done if the token had fired
before. -/
structure UnpackEnds (hooks : Hooks) (session : Session) (outcome : Except JobError α)
    (after : Session) : Prop where
  findings : after.findings = session.findings
  changed : World.ChangedBelow [] session.world after.world
  untouched : hooks.token.fired session.trace = true → after.world = session.world
  late : FailsAs (fun error => error.isLate = true) outcome

theorem heedsAt_placeMembers (root : Path) (members : List Zip.Member) (session : Session) :
    HeedsAt hooks (placeMembers root members) session (UnpackEnds hooks session) := by
  induction members generalizing session with
  | nil =>
    exact .of_perform (fun _ _ => rfl) ⟨rfl, .refl _ _, fun _ => rfl, failsAs_ok _⟩
      (fun same => nomatch same) id
  | cons member rest ih =>
    refine (heedsAt_checkpoint hooks session).bind ?_ ?_
    · rintro error after ⟨rfl, same | ⟨passed, -⟩⟩
      · cases same
        exact ⟨rfl, .refl _ _, fun _ => rfl, failsAs_canceled⟩
      · cases passed
    · rintro value middle - ⟨rfl, same | ⟨-, unfired⟩⟩
      · cases same
      · have passed : hooks.token.fired session.trace ≠ true := by
          intro fired
          rw [Session.looked_trace, hooks.token.latched _ _ fired] at unfired
          cases unfired
        have placed := Zip.placeMember_changes
          (fun _ other _ later _ => World.confines_nil other later)
          (rfl : (Zip.placeMember root member).run.run session.world = _)
        refine (heedsAt_onDisk _).bind (fun error after ⟨failed, left⟩ => ?_)
          fun _ middle _ ⟨_, left⟩ => ?_
        · subst left
          refine ⟨rfl, placed, fun fired => absurd fired passed, failsAs_of ?_⟩
          rintro other ⟨⟩
          obtain ⟨fault, rfl⟩ := liftIo_error failed.symm
          rfl
        · subst left
          refine (ih _).bind (fun error after ends => ?_) fun later after _ ends => ?_
          · exact ⟨ends.findings, placed.trans ends.changed, fun fired => absurd fired passed,
              ends.late.carry⟩
          · exact .of_perform (fun _ _ => rfl) ⟨ends.findings, placed.trans ends.changed,
              fun fired => absurd fired passed, failsAs_ok _⟩ (fun same => nomatch same) id

theorem heedsAt_extract (archive : ByteArray) (root : Path) (session : Session) :
    HeedsAt hooks (extract archive root) session (UnpackEnds hooks session) := by
  unfold extract
  split
  · refine .of_perform (fun _ _ => rfl) ⟨rfl, .refl _ _, fun _ => rfl, ?_⟩
      (fun same => nomatch same) id
    rintro error ⟨⟩
    exact .inl rfl
  · exact heedsAt_placeMembers root _ session

/-- **How reading the log ends**: a log without errors is no failure. -/
structure LogEnds (session : Session) (outcome : Except JobError (List Diagnostic × Bool))
    (after : Session) : Prop where
  findings : after.findings = session.findings
  late : ∀ error, outcome = .error error → error.isLate = true
  verdict : ∀ records, outcome = .ok (records, false) → errorCount records = 0

theorem heedsAt_discard (path : Path) :
    HeedsAt hooks (discard path) session fun outcome after =>
      outcome = .ok ⟨⟩ ∧ session.Keeps after := by
  refine (heedsAt_onDisk _).attempt.bind (fun error after ⟨_, failed, _⟩ => nomatch failed) ?_
  rintro outcome middle - ⟨_, _, ⟨_, left⟩, _⟩
  subst left
  exact .of_perform (fun _ _ => rfl) ⟨rfl, rfl⟩ (fun same => nomatch same) id

theorem logText?_late {world : World} {path : Path} {error : JobError}
    (failed : logText? world path = .error error) : error.isLate = true := by
  unfold logText? at failed
  split at failed
  · cases failed
  · cases failed
  · cases failed
    rfl

theorem heedsAt_collectLog (resolver : Resolver) (root primary : Path) (session : Session) :
    HeedsAt hooks (collectLog resolver root primary) session (LogEnds session) := by
  have loud : logText? session.world (root.below logName) ≠ .error .canceled := fun same =>
    nomatch logText?_late same
  refine (heedsAt_inspect loud).bind ?_ ?_
  · rintro error after ⟨failed, rfl⟩
    refine ⟨rfl, ?_, fun _ same => (nomatch same)⟩
    rintro other ⟨⟩
    exact logText?_late failed.symm
  · rintro found session - ⟨-, rfl⟩
    cases found with
    | none =>
      refine .of_perform (fun _ _ => rfl) ⟨rfl, fun _ same => (nomatch same), ?_⟩
        (fun same => nomatch same) id
      rintro records ⟨⟩
      rfl
    | some content =>
      refine (heedsAt_discard _).bind (fun _ _ ⟨failed, _⟩ => nomatch failed) ?_
      rintro _ taken - ⟨-, keeps⟩
      let block := outputBlock content
      let records := (OutputReader.mk taken.world resolver root primary).parse block
      have ends : LogEnds session
          (.ok (records, decide (0 < errorCount records) || reportsError content))
          { taken with trace := Trace.printed block ++ taken.trace } := by
        refine ⟨keeps, fun _ same => (nomatch same), fun found same => ?_⟩
        obtain ⟨rfl, passed⟩ := Prod.mk.inj (Except.ok.inj same)
        have none_found := of_decide_eq_false (Bool.or_eq_false_iff.mp passed).1
        exact Nat.eq_zero_of_not_pos none_found
      refine .of_perform (fun _ _ => ?_) ends (fun same => ?_) fun before => ?_
      · exact perform_bind_ok (perform_logLines _)
      · cases same
      · exact before.append fun _ => Trace.printed_idle

end Job

end ShaderForge
