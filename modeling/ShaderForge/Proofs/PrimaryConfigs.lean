/-
**The config that findings without a place belong to.**

A remote job asks for its first config only after the answer of the service was unpacked over the
root (`generate_publishes`). Unpacking takes no config away, and neither does taking the log away
(`LogTaken.discoverConfigs`), so the first config found before the job is still listed then. It is
the first one still exactly if none of the configs that came is listed before it
(`first_stays_iff`).

So findings without a place are about the first config found before the job if no config of the
answer is listed before that one (`generate_unlocated`). If one is, they are about it
(`generate_unlocated_displaced`).
-/

import ShaderForge.Proofs.ForgottenLog
import ShaderForge.Proofs.JobEnds
import ShaderForge.Proofs.Listings
import ShaderForge.Proofs.LocatedFindings
import ShaderForge.Proofs.PublishedFindings

namespace ShaderForge

open World (Beside ChangedBelow)

variable {world left after unpacked : World} {path root first : Path} {place : Location}
  {hooks : Hooks} {input : JobInput} {log : Option String} {bytes : ByteArray}

/-! ## Part 1 — configs beside the log -/

/-- A world without a file differs from the world in nothing else. -/
theorem World.beside_eraseTree (file : world.node? place = some (.file bytes)) :
    Beside place world (world.eraseTree place) where
  cwd := rfl
  others := by
    rw [World.others, World.others, World.eraseTree, List.filter_filter]
    refine List.filter_congr ?_
    rintro ⟨location, node⟩ listed
    by_cases here : location = place
    · simp [here]
    · have outside : place.isSuffixOf location = false := by
        rw [← Bool.not_eq_true, List.isSuffixOf_iff_suffix]
        rintro ⟨below, rfl⟩
        have some_below : below ≠ [] := by
          rintro rfl
          exact here rfl
        have above := World.directory_of_below some_below
          (Option.isSome_iff_exists.mpr ⟨node, World.node?_of_mem listed⟩)
        rw [World.IsDirectoryAt, file] at above
        cases above
      simp [here, outside]
  left_free there := by
    rw [World.IsDirectoryAt, file] at there
    cases there
  right_free there := by
    rw [World.IsDirectoryAt, World.node?_eraseTree_file file, if_pos rfl] at there
    cases there

/-- **Taking the log away leaves all configs.** -/
theorem LogTaken.discoverConfigs (taken : LogTaken (root.below logName) left after log)
    (other : Path) : ShaderForge.discoverConfigs after other =
      ShaderForge.discoverConfigs left other := by
  cases log with
  | none => rw [show after = left from taken]
  | some text =>
    obtain ⟨place, bytes, found, rfl⟩ := World.removeFile_erases taken
    obtain ⟨⟨⟩, -⟩ | ⟨parent, name, slashed, leads, rfl, held, -⟩ := World.find_ok found
    obtain ⟨init, part, shape, walked, here, up, named⟩ :=
      World.targetFrom_entry (World.target_ok leads).1
    have settles := World.settle_entry walked here up named
    rw [← shape] at settles
    obtain ⟨above, log⟩ := place_of_log settles
    -- What was taken away is named like a log, and no config is.
    exact (World.beside_eraseTree held).filesNamed log (by decide) other

/-! ## Part 2 — the first config -/

theorem filesNamed_ordered (wanted : String → Bool) (world : World) (root : Path) :
    (filesNamed wanted world root).Pairwise fun left right => left.precedes right = true := by
  rw [filesNamed, sorted_kept]
  exact inOrder_ordered world root _

/-- What is listed is listed still where directories and files only come. -/
theorem mem_filesNamed_changed {wanted : String → Bool} (changed : ChangedBelow [] world unpacked)
    (listed : path ∈ filesNamed wanted world root) : path ∈ filesNamed wanted unpacked root := by
  obtain ⟨node, there, file, named⟩ := mem_filesNamed listed
  obtain ⟨later, still, same⟩ := changed.found there
  exact mem_filesNamed_iff.mpr ⟨later, still, same.trans file, named⟩

/-- **The first config is the first one still** where directories and files only come, exactly if
none of the configs that came is listed before it. -/
theorem first_stays_iff {others : List Path} (changed : ChangedBelow [] world unpacked)
    (listed : discoverConfigs world root = first :: others) :
    (∃ later, discoverConfigs unpacked root = first :: later) ↔
      ∀ config ∈ discoverConfigs unpacked root, config ∉ discoverConfigs world root →
        config.precedes first = false := by
  have old : first ∈ discoverConfigs world root := listed ▸ List.mem_cons_self
  have kept : first ∈ discoverConfigs unpacked root := mem_filesNamed_changed changed old
  have ordered := filesNamed_ordered isConfigName world root
  have still := filesNamed_ordered isConfigName unpacked root
  rw [← discoverConfigs] at ordered still
  simp only [← Bool.not_eq_true, Path.precedes_iff] at ordered still ⊢
  constructor
  · rintro ⟨later, shape⟩ config there fresh
    rw [shape] at there still
    rcases List.mem_cons.mp there with rfl | behind
    · exact absurd old fresh
    · exact (List.rel_of_pairwise_cons still behind).asymm
  · intro clear
    obtain ⟨head, later, shape⟩ := List.exists_cons_of_ne_nil (List.ne_nil_of_mem kept)
    have among : head ∈ discoverConfigs unpacked root := shape ▸ List.mem_cons_self
    have after : ¬ head.key < first.key := by
      by_cases known : head ∈ discoverConfigs world root
      · rw [listed] at known ordered
        rcases List.mem_cons.mp known with rfl | behind
        · exact lt_irrefl _
        · exact (List.rel_of_pairwise_cons ordered behind).asymm
      · exact clear head among known
    rw [shape] at kept still
    rcases List.mem_cons.mp kept with rfl | behind
    · exact ⟨later, shape⟩
    · exact absurd (List.rel_of_pairwise_cons still behind) after

/-! ## Part 3 — remote jobs that come to a verdict -/

/-- **A job came to a verdict**: it gave a report, or its log tells of a failure. -/
def ComesToVerdict : Except JobError JobReport → Prop
  | .ok _ => True
  | .error (.generationFailed _) => True
  | .error _ => False

/-- **What a remote job publishes**: the service answered with an archive, and the archive was
unpacked over the root; the findings are those of the log that is there then and is taken away, read
for the first config of that world. -/
structure Publishes (hooks : Hooks) (resolver : Resolver) (input : JobInput)
    (world unpacked : World) (primary : Path) (log : Option String) (after : Session) : Prop where
  answered : ∃ trace upload status pieces broken paths,
    hooks.service trace upload = .answered status pieces broken ∧
      Job.unpack (Job.joined pieces) input.root world = (.ok paths, unpacked)
  found : Job.logText? unpacked (input.root.below logName) = .ok log
  first : input.primaryConfig unpacked = .ok primary
  taken : LogTaken (input.root.below logName) unpacked after.world log
  findings : after.findings = DiagnosticCollection.empty.replace
    ((OutputReader.mk after.world resolver input.root primary).findingsOf log)

namespace Job

variable {α : Type} {session ended middle : Session} {outcome : Except JobError JobReport}
  {service : Service} {resolver : Resolver}

/-- A job that comes to a verdict comes past every step that fails in another way. -/
theorem verdict_bind {step : Job α} {next : α → Job JobReport}
    (ran : (step >>= next).perform hooks session = (outcome, ended))
    (verdict : ComesToVerdict outcome)
    (fails : FailsAs (fun error => error.isEarly = true ∨ error.isLate = true)
      (step.perform hooks session).1) :
    ∃ value middle, step.perform hooks session = (.ok value, middle) ∧
      (next value).perform hooks middle = (outcome, ended) := by
  rw [perform_bind] at ran
  rcases stepped : step.perform hooks session with ⟨result, middle⟩
  rw [stepped] at ran fails
  cases result with
  | ok value => exact ⟨value, middle, rfl, ran⟩
  | error error =>
    cases ran
    rcases fails error rfl with (early | late) | rfl
    · cases error with
      | generationFailed log => cases early
      | _ => cases verdict
    · cases error with
      | generationFailed log => cases late
      | _ => cases verdict
    · cases verdict

/-- A step that only waits is passed. -/
theorem verdict_idles {step : Job α} {next : α → Job JobReport} (idles : IdlesEarly hooks step)
    (ran : (step >>= next).perform hooks session = (outcome, ended))
    (verdict : ComesToVerdict outcome) :
    ∃ value middle, step.perform hooks session = (.ok value, middle) ∧ session.Idle middle ∧
      (next value).perform hooks middle = (outcome, ended) := by
  have ends := (idles session).ends
  obtain ⟨value, middle, stepped, rest⟩ :=
    verdict_bind ran verdict (ends.2.weaken fun _ => .inl)
  rw [stepped] at ends
  exact ⟨value, middle, stepped, ends.1, rest⟩

theorem placeMembers_gives {members : List Zip.Member} {paths : List Path}
    (ran : (placeMembers root members).perform hooks session = (.ok paths, ended)) :
    (Zip.placeAll root members).run.run session.world = (.ok paths, ended.world) ∧
      ended.findings = session.findings := by
  induction members generalizing session paths with
  | nil =>
    cases ran
    exact ⟨rfl, rfl⟩
  | cons member rest ih =>
    obtain ⟨_, looked, looks, ran⟩ := perform_bind_leaves ran
    obtain ⟨_, placed, places, ran⟩ := perform_bind_leaves ran
    obtain ⟨later, left, others, gives⟩ := perform_bind_leaves ran
    cases gives
    obtain rfl : looked = session.looked := by
      rw [perform_checkpoint_eq] at looks
      exact (congrArg Prod.snd looks).symm
    rw [perform_onDisk] at places
    obtain ⟨outcome, rfl⟩ := Prod.mk.inj places
    obtain ⟨goes, findings⟩ := ih others
    refine ⟨?_, findings⟩
    rw [Zip.run_placeAll_cons]
    rcases first : (Zip.placeMember root member).run.run session.world with ⟨result, middle⟩
    dsimp only [Session.looked_world] at outcome goes
    rw [first] at outcome goes
    cases result with
    | error fault => cases outcome
    | ok value =>
      dsimp only
      rw [goes]

/-- **An archive that was unpacked** leaves the world that unpacking leads to, whenever the token
fires. -/
theorem extract_gives {archive : ByteArray} {paths : List Path}
    (ran : (extract archive root).perform hooks session = (.ok paths, ended)) :
    unpack archive root session.world = (.ok paths, ended.world) ∧
      ended.findings = session.findings := by
  unfold extract at ran
  rw [unpack]
  cases opened : Zip.members? archive with
  | none =>
    rw [opened] at ran
    cases ran
  | some members =>
    rw [opened] at ran
    obtain ⟨goes, findings⟩ := placeMembers_gives ran
    dsimp only
    rw [goes]
    exact ⟨rfl, findings⟩

/-- **What follows an answer**, when it gives a result. -/
theorem finish_gives {answer : List ByteArray × Bool} {run : RemoteRun}
    (ran : (service.finish resolver input answer).perform hooks session = (.ok run, ended)) :
    ∃ paths unpacked primary log,
      unpack (joined answer.1) input.root session.world = (.ok paths, unpacked) ∧
      logText? unpacked (input.root.below logName) = .ok log ∧
      input.primaryConfig unpacked = .ok primary ∧
      LogTaken (input.root.below logName) unpacked ended.world log ∧
      ended.findings = session.findings ∧
      run.diagnostics =
        (OutputReader.mk ended.world resolver input.root primary).findingsOf log ∧
      ∀ place, run.failedLog = some place →
        place = input.root.below logName ∧ ReportsFailure log := by
  obtain ⟨body, received, receives, ran⟩ := perform_bind_leaves ran
  have idle := (@idles_receive hooks service.url answer.1 answer.2 session).ends.1
  rw [receives] at idle
  obtain rfl := receive_gives (congrArg Prod.fst receives)
  rw [perform_bind_ok (perform_progress Rat.le_refl _)] at ran
  obtain ⟨paths, opened, unpacks, ran⟩ := perform_bind_leaves ran
  obtain ⟨goes, kept⟩ := extract_gives unpacks
  obtain ⟨primary, same, asks, ran⟩ := perform_bind_leaves ran
  rw [perform_inspect] at asks
  obtain ⟨first, rfl⟩ := Prod.mk.inj asks
  obtain ⟨⟨records, failed⟩, collected, collects, ran⟩ := perform_bind_leaves ran
  cases looked : logText? opened.world (input.root.below logName) with
  | error error =>
    have stopped : (inspect fun world => logText? world (input.root.below logName)).perform hooks
        opened = (.error error, opened) := by
      rw [perform_inspect, looked]
    rw [collectLog, perform_bind_error stopped] at collects
    cases collects
  | ok log =>
    obtain ⟨after, trace, failed, taken, reports, collecting⟩ :=
      @perform_collectLog hooks resolver log input.root primary opened looked
    rw [collecting] at collects
    cases collects
    cases ran
    rw [Session.noting_world, idle.world] at goes
    refine ⟨paths, opened.world, primary, log, goes, looked, first, taken,
      kept.trans idle.findings, rfl, fun place same => ?_⟩
    cases failed with
    | true => exact ⟨(Option.some.inj same).symm, reports.mp rfl⟩
    | false => cases same

/-- **What a remote job publishes**, when it comes to a verdict. -/
theorem generateRemotely_publishes {hint : Option String}
    (ran : (generateRemotely service resolver hint input).perform hooks session = (outcome, ended))
    (resolved : JobInput.resolve session.world path = .ok input)
    (empty : session.findings = .empty) (verdict : ComesToVerdict outcome) :
    ∃ unpacked primary log,
      Publishes hooks resolver input session.world unpacked primary log ended ∧
        ∀ place, outcome = .error (.generationFailed place) →
          place = input.root.below logName ∧ ReportsFailure log := by
  rw [generateRemotely_eq] at ran
  obtain ⟨_, first, -, waits, ran⟩ := verdict_idles idles_checkpoint ran verdict
  obtain ⟨format, second, -, asks, ran⟩ := verdict_idles (idles_outputFormat hint input) ran verdict
  obtain ⟨_, third, -, logs, ran⟩ := verdict_idles (idles_log _) ran verdict
  rw [Service.run_eq, bind_assoc] at ran
  obtain ⟨archive, packed, -, packs, ran⟩ := verdict_idles (idles_bundle input) ran verdict
  rw [bind_assoc] at ran
  -- The files are those that the input was resolved in until the answer is unpacked.
  have idle := ((waits.trans asks).trans logs).trans packs
  have stays := (@staysLate_upload hooks service format archive packed).ends
  obtain ⟨answer, sent, uploads, ran⟩ :=
    verdict_bind ran verdict (stays.2.weaken fun _ => .inr)
  rw [uploads] at stays
  have still : JobInput.resolve sent.world path = .ok input := by
    rw [stays.1.1, idle.world, resolved]
  have finishes := (@heedsAt_finish hooks sent path input service resolver answer still).ends
  obtain ⟨run, left, finished, ran⟩ :=
    verdict_bind ran verdict (finishes.late.weaken fun _ => .inr)
  obtain ⟨paths, unpacked, primary, log, unpacks, found, first, taken, findings, records, fails⟩ :=
    finish_gives finished
  obtain ⟨trace, upload, status, answered⟩ := upload_gives (congrArg Prod.fst uploads)
  rw [perform_conclude] at ran
  cases ran
  rw [stays.1.1, idle.world] at unpacks
  refine ⟨unpacked, primary, log, ⟨⟨trace, upload, status, answer.1, answer.2, paths, answered,
    unpacks⟩, found, first, taken, ?_⟩, fun place failed => ?_⟩
  · show left.findings.replace run.diagnostics = _
    rw [findings, stays.1.2, idle.findings, empty, records]
  · cases named : run.failedLog with
    | none =>
      rw [named] at failed
      cases failed
    | some other =>
      rw [named] at failed
      cases failed
      exact fails place named

end Job

/-- **What a remote job publishes**, when it comes to a verdict: the findings of the log that its
answer leaves, read for the first config that is there once the answer is unpacked. If it fails,
that log reports a failure. -/
theorem generate_publishes {generator : Generator} {request : JobRequest} {service : Service}
    {outcome : Except JobError JobReport} {ended : Session}
    (selected : Backend.select generator.settings generator.resolver generator.timeout =
      .ok (.remote service))
    (ran : generator.generate request hooks world = (outcome, ended))
    (verdict : ComesToVerdict outcome) :
    ∃ path input unpacked primary log,
      Job.requestedPath generator.resolver request.path = .ok path ∧
      JobInput.resolve world path = .ok input ∧
      Publishes hooks generator.resolver input world unpacked primary log ended ∧
      ∀ place, outcome = .error (.generationFailed place) →
        place = input.root.below logName ∧ ReportsFailure log := by
  have begins := generator.begins request hooks world
  generalize generator.generate request hooks world = whole at ran begins
  cases begins with
  | @stopped error after kind =>
    cases ran
    cases error with
    | generationFailed => rcases kind with early | other <;> contradiction
    | _ => cases verdict
  | @begun backend path input session chosen requested resolved looks =>
    rw [selected] at chosen
    cases chosen
    have same : session.world = world := looks.idle.world
    obtain ⟨unpacked, primary, log, publishes⟩ := Job.generateRemotely_publishes ran
      (same.symm ▸ resolved) looks.idle.findings verdict
    rw [same] at publishes
    exact ⟨path, input, unpacked, primary, log, requested, resolved, publishes⟩

/-! ## Part 4 — findings without a place -/

/-- The blocks of a log that are reported, if there is one. -/
def blocksOf (log : Option String) : List Block :=
  (log.map fun text => OutputReader.reported (outputBlock text)).getD []

/-- **Findings without a place are about a config.** What was published are the findings of the
blocks of a log, and those of blocks that locate no file are about the config as a whole. -/
def BlamedOn (config : Path) (resolver : Resolver) (root : Path) (log : Option String)
    (after : Session) : Prop :=
  ∃ records, after.findings.all.Perm records ∧
    List.Forall₂ (fun (block : Block) (record : Diagnostic) =>
      (∀ file, ¬ (OutputReader.mk after.world resolver root config).Locates block.body file) →
        record.location = ⟨config, none, none⟩) (blocksOf log) records

/-- What is published without a place is about the first config that is there then. -/
theorem Publishes.blamedOn {resolver : Resolver} {primary : Path} {after : Session}
    (published : Publishes hooks resolver input world unpacked primary log after) :
    BlamedOn primary resolver input.root log after := by
  refine ⟨(OutputReader.mk after.world resolver input.root primary).findingsOf log, ?_, ?_⟩
  · rw [published.findings]
    exact DiagnosticCollection.all_replace
  · cases log with
    | none => exact .nil
    | some text =>
      refine OutputReader.forall₂_parse _ _ fun block severity grave begins unlocated => ?_
      rcases (OutputReader.diagnosticOf_gated _ grave begins).gate with ⟨locates, -⟩ | ⟨-, place, -⟩
      · exact absurd locates (unlocated _)
      · exact place

/-- **Findings without a place are about the first config found before the job**, if no config that
the answer brings is listed before it. -/
theorem generate_unlocated {generator : Generator} {request : JobRequest} {service : Service}
    {others : List Path} {outcome : Except JobError JobReport} {ended : Session}
    (selected : Backend.select generator.settings generator.resolver generator.timeout =
      .ok (.remote service))
    (requested : Job.requestedPath generator.resolver request.path = .ok path)
    (resolved : JobInput.resolve world path = .ok (.directory root))
    (ran : generator.generate request hooks world = (outcome, ended))
    (verdict : ComesToVerdict outcome)
    (listed : discoverConfigs world root = first :: others)
    (clear : ∀ config ∈ discoverConfigs ended.world root, config ∉ discoverConfigs world root →
      config.precedes first = false) :
    ∃ unpacked primary log,
      Publishes hooks generator.resolver (.directory root) world unpacked primary log ended ∧
        BlamedOn (root.join first) generator.resolver root log ended := by
  obtain ⟨path', input, unpacked, primary, log, asked, means, published, -⟩ :=
    generate_publishes selected ran verdict
  rw [requested] at asked
  cases asked
  rw [resolved] at means
  cases means
  refine ⟨unpacked, primary, log, published, ?_⟩
  obtain ⟨_, _, _, _, _, _, -, unpacks⟩ := published.answered
  have same : discoverConfigs ended.world root = discoverConfigs unpacked root :=
    published.taken.discoverConfigs root
  rw [same] at clear
  obtain ⟨later, still⟩ :=
    (first_stays_iff (unpack_changes (congrArg Prod.snd unpacks)) listed).mpr clear
  obtain rfl : primary = root.join first := by
    have found := published.first
    rw [JobInput.primaryConfig, JobInput.configFiles, still] at found
    exact (Except.ok.inj found).symm
  exact published.blamedOn

/-! ## Part 5 — a config that the answer brings -/

/-- An archive with a config of a name, and a log with an error that names no file. -/
def lostAnswer (name : String) : ByteArray :=
  Zip.write [(name, ⟨#[]⟩), (".starlight.log", "[ERROR] lost".toUTF8)]

/-- Hooks whose service sends that archive. -/
def lostHooks (name : String) : Hooks :=
  ⟨.never, fun _ => none, fun _ _ world => .ok (.timedOut, world),
    fun _ _ => .answered 200 [lostAnswer name] false⟩

/-- The members of that archive. -/
def lostMembers (name : String) : List Zip.Member :=
  [⟨name, ⟨#[]⟩, none⟩, ⟨".starlight.log", "[ERROR] lost".toUTF8, none⟩]

/-- The world with the small config once they are written, and what was written. -/
def lostWorld (name : String) : Except IoFault (List Path) × World :=
  (Zip.placeAll ⟨"/job"⟩ (Zip.extractionOrder (lostMembers name))).run.run smallWorld

theorem small_configs : discoverConfigs smallWorld ⟨"/job"⟩ = [⟨"x.sl.json"⟩] :=
  filesNamed_singleton (by decide +kernel)

theorem small_resolve_directory :
    JobInput.resolve smallWorld ⟨"/job"⟩ = .ok (.directory ⟨"/job"⟩) := by
  have shaders : discoverShaders smallWorld ⟨"/job"⟩ = [⟨"x.vert"⟩] :=
    filesNamed_singleton (by decide +kernel)
  have valid : validateRoot smallWorld ⟨"/job"⟩ = .ok ⟨⟩ := by
    rw [validateRoot_iff, small_configs, shaders]
    exact ⟨List.cons_ne_nil _ _, List.cons_ne_nil _ _⟩
  have there : smallWorld.find? ⟨"/job"⟩ = some ([⟨"job", usable_job⟩], .directory) := by rfl
  rw [JobInput.resolve, there]
  show (do validateRoot smallWorld ⟨"/job"⟩; pure _) = _
  rw [valid]
  rfl

theorem small_archived_directory : JobInput.archived smallWorld (.directory ⟨"/job"⟩) =
    .ok [("x.sl.json", smallText.toUTF8), ("x.vert", ⟨#[]⟩)] := by
  have files : discoverFiles smallWorld ⟨"/job"⟩ = [⟨"x.sl.json"⟩, ⟨"x.vert"⟩] :=
    filesNamed_of_ordered (by decide +kernel) (by decide +kernel)
  rw [JobInput.archived, JobInput.plan, JobInput.candidates, files]
  rfl

/-- The error of that log is about the config that findings without a place are about. -/
theorem lost_blamedOn {config root : Path} {resolver : Resolver} {after : Session}
    (blamed : BlamedOn config resolver root (some "[ERROR] lost") after) :
    ∃ record, after.findings.all = [record] ∧ record.location = ⟨config, none, none⟩ := by
  have blocks : blocksOf (some "[ERROR] lost") = [⟨.error, "lost".toList⟩] := by decide +kernel
  obtain ⟨records, published, each⟩ := blamed
  rw [blocks] at each
  cases each with
  | cons place none =>
    cases none
    exact ⟨_, List.perm_singleton.mp published, place (OutputReader.not_locates (by decide))⟩

/-- Hooks whose service answers with an archive. -/
def answeringHooks (archive : ByteArray) : Hooks :=
  ⟨.never, fun _ => none, fun _ _ world => .ok (.timedOut, world),
    fun _ _ => .answered 200 [archive] false⟩

/-- The world with the small config once members are written, and what was written. -/
def filledWorld (members : List Zip.Member) : Except IoFault (List Path) × World :=
  (Zip.placeAll ⟨"/job"⟩ (Zip.extractionOrder members)).run.run smallWorld

/-- **A job that is sent an archive with a log that has an error tag** fails, and its log is the one
in the archive. -/
theorem answered_fails {archive : ByteArray} {members : List Zip.Member} {paths : List Path}
    {text : String} (opened : Zip.members? (Job.joined [archive]) = some members)
    (written : (filledWorld members).1.toOption = some paths)
    (logged : (Job.logText? (filledWorld members).2 (Path.below ⟨"/job"⟩ logName)).toOption =
      some (some text)) (tagged : HasErrorTag text) :
    ∃ ended, smallGenerator.generate ⟨"/job", some "cpp"⟩ (answeringHooks archive) smallWorld =
        (.error (.generationFailed (Path.below ⟨"/job"⟩ logName)), ended) ∧
      discoverConfigs ended.world ⟨"/job"⟩ = discoverConfigs (filledWorld members).2 ⟨"/job"⟩ ∧
      ∀ unpacked primary log, Publishes (answeringHooks archive) smallGenerator.resolver
        (.directory ⟨"/job"⟩) smallWorld unpacked primary log ended →
          unpacked = (filledWorld members).2 ∧ log = some text := by
  have unpacks : Job.unpack (Job.joined [archive]) ⟨"/job"⟩ smallWorld =
      (.ok paths, (filledWorld members).2) := by
    rw [Job.unpack, opened]
    show (liftIo (filledWorld members).1, (filledWorld members).2) = _
    rw [toOption_eq_some.mp written]
    rfl
  have found := toOption_eq_some.mp logged
  obtain ⟨service, selected⟩ := small_selected
  obtain ⟨format, records, collected⟩ := @generate_collects _ (answeringHooks archive)
    (.directory ⟨"/job"⟩) smallGenerator ⟨"/job", some "cpp"⟩ service smallWorld _ _ _ _ _
    (fun _ => rfl) selected (by cbv) small_resolve_directory small_archived_directory
    (fun _ _ => rfl) unpacks found
  refine ⟨_, Prod.ext (collected.fails ⟨_, rfl, tagged⟩) rfl,
    collected.taken.discoverConfigs _, ?_⟩
  intro unpacked primary log published
  obtain ⟨_, _, _, _, _, _, answered, goes⟩ := published.answered
  cases answered
  obtain ⟨-, rfl⟩ := Prod.mk.inj (unpacks.symm.trans goes)
  exact ⟨rfl, Except.ok.inj (published.found.symm.trans found)⟩

/-- The archive with an error that names no file is one. -/
theorem lost_fails {name : String} {paths : List Path}
    (opened : Zip.members? (Job.joined [lostAnswer name]) = some (lostMembers name))
    (written : (lostWorld name).1.toOption = some paths)
    (logged : (Job.logText? (lostWorld name).2 (Path.below ⟨"/job"⟩ logName)).toOption =
      some (some "[ERROR] lost")) :
    ∃ ended, smallGenerator.generate ⟨"/job", some "cpp"⟩ (lostHooks name) smallWorld =
        (.error (.generationFailed (Path.below ⟨"/job"⟩ logName)), ended) ∧
      discoverConfigs ended.world ⟨"/job"⟩ = discoverConfigs (lostWorld name).2 ⟨"/job"⟩ ∧
      ∀ unpacked primary log, Publishes (lostHooks name) smallGenerator.resolver
        (.directory ⟨"/job"⟩) smallWorld unpacked primary log ended →
          unpacked = (lostWorld name).2 ∧ log = some "[ERROR] lost" :=
  answered_fails opened written logged
    ⟨[], "ERROR".toList, " lost".toList, by decide, by decide⟩

/-- A config that comes with the answer and is listed after the first one takes no findings from it.
-/
theorem generate_unlocated_behind :
    let outcome := smallGenerator.generate ⟨"/job", some "cpp"⟩ (lostHooks "z.sl.json") smallWorld
    outcome.1 = .error (.generationFailed (Path.below ⟨"/job"⟩ logName)) ∧
      ⟨"z.sl.json"⟩ ∉ discoverConfigs smallWorld ⟨"/job"⟩ ∧
      ⟨"z.sl.json"⟩ ∈ discoverConfigs outcome.2.world ⟨"/job"⟩ ∧
      ∃ record, outcome.2.findings.all = [record] ∧
        record.location = ⟨⟨"/job/x.sl.json"⟩, none, none⟩ := by
  intro outcome
  obtain ⟨ended, ran, configs, known⟩ := @lost_fails "z.sl.json"
    [⟨"/job/z.sl.json"⟩, ⟨"/job/.starlight.log"⟩] (by decide +kernel) (by decide +kernel)
    (by decide +kernel)
  have same : outcome = _ := ran
  rw [same, configs, small_configs]
  obtain ⟨service, selected⟩ := small_selected
  have behind : ∀ entry ∈ found (lostWorld "z.sl.json").2 ⟨"/job"⟩,
      hasName isConfigName entry.1 = true → entry.1.precedes ⟨"x.sl.json"⟩ = false := by
    decide +kernel
  have came : ∃ entry ∈ found (lostWorld "z.sl.json").2 ⟨"/job"⟩,
      entry.2.isFile = true ∧ hasName isConfigName entry.1 = true ∧ entry.1 = ⟨"z.sl.json"⟩ := by
    decide +kernel
  obtain ⟨unpacked, primary, log, published, blamed⟩ := generate_unlocated selected (by cbv)
    small_resolve_directory ran ⟨⟩ small_configs fun config there _ => by
      rw [configs] at there
      obtain ⟨node, held, -, named⟩ := mem_filesNamed there
      exact behind (config, node) held named
  obtain ⟨-, rfl⟩ := known _ _ _ published
  have place : Path.join ⟨"/job"⟩ ⟨"x.sl.json"⟩ = ⟨"/job/x.sl.json"⟩ := by decide +kernel
  rw [place] at blamed
  refine ⟨rfl, by decide, ?_, lost_blamedOn blamed⟩
  obtain ⟨⟨path, node⟩, held, file, named, rfl⟩ := came
  exact mem_filesNamed_iff.mpr ⟨node, held, file, named⟩

/-- **A config of the answer takes findings from the first one** if it is listed before it. -/
theorem generate_unlocated_displaced :
    ¬ ∀ (generator : Generator) (request : JobRequest) (hooks : Hooks) (service : Service)
      (world : World) (path root first : Path) (others : List Path)
      (outcome : Except JobError JobReport) (ended : Session),
      Backend.select generator.settings generator.resolver generator.timeout =
        .ok (.remote service) →
      Job.requestedPath generator.resolver request.path = .ok path →
      JobInput.resolve world path = .ok (.directory root) →
      generator.generate request hooks world = (outcome, ended) → ComesToVerdict outcome →
      discoverConfigs world root = first :: others →
      ∃ unpacked primary log,
        Publishes hooks generator.resolver (.directory root) world unpacked primary log ended ∧
          BlamedOn (root.join first) generator.resolver root log ended := by
  intro claim
  obtain ⟨after, ran, -, known⟩ := @lost_fails "a.sl.json"
    [⟨"/job/a.sl.json"⟩, ⟨"/job/.starlight.log"⟩] (by decide +kernel) (by decide +kernel)
    (by decide +kernel)
  obtain ⟨service, selected⟩ := small_selected
  obtain ⟨unpacked, primary, log, published, blamed⟩ := claim _ _ _ _ _ _ _ _ _ _ _ selected
    (by cbv) small_resolve_directory ran ⟨⟩ small_configs
  obtain ⟨unpacks, rfl⟩ := known _ _ _ published
  have configs : discoverConfigs (lostWorld "a.sl.json").2 ⟨"/job"⟩ =
      [⟨"a.sl.json"⟩, ⟨"x.sl.json"⟩] :=
    filesNamed_of_ordered (by decide +kernel) (by decide +kernel)
  have first := published.first
  rw [unpacks, JobInput.primaryConfig, JobInput.configFiles, configs] at first
  cases first
  obtain ⟨claimed, alone, there⟩ := lost_blamedOn blamed
  obtain ⟨record, same, here⟩ := lost_blamedOn published.blamedOn
  rw [alone] at same
  cases same
  rw [there] at here
  exact absurd (congrArg SourceLocation.file here) (by decide +kernel)

end ShaderForge
