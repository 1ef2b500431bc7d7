/-
**Whether a job depends on the log of an earlier one.**

A job may find the log of an earlier one where its own will be written. If the answer of the service
brings a log, that one takes the place of the old one before it is read, and nothing is left of the
old one: a job in two worlds that differ in the old log comes to the same, with the same findings
(`generate_forgets_log`). This needs that nothing else reads the old log first: that neither a path
in a config nor a member of the answer leads to it or through it.

If the answer brings no log, the old one is read as if it had come with the answer
(`stale_log_decides`).

* `JobInput.reads`: the files that a job reads before it is answered;
* `Hooks.BringsLog`: every answer of the service brings a log;
* `alike_placeMembers`: an answer that brings a log, unpacked in both worlds, makes them one.
-/

import Mathlib.Data.List.Infix
import ShaderForge.Proofs.TwinRuns
import ShaderForge.Proofs.TwinWorlds

namespace ShaderForge

open World (Beside StillBeside)

variable {left right : World} {place : Location} {root path : Path} {hooks : Hooks}
  {input : JobInput} {entry : ArchiveEntry} {entries : List ArchiveEntry}

/-! ## Part 1 — what a job reads -/

/-- **The files that a job reads before it is answered.** -/
def JobInput.reads (world : World) : JobInput → List Path
  | shader target => [target.shader, target.companion]
  | directory root => (discoverConfigs world root ++ discoverFiles world root).map root.join
  | config root path =>
    path :: (discoverShaders world root).map root.join ++
      match ConfigFile.load world path with
      | .ok file => file.parentReferences.map root.below
      | .error _ => []

/-- The name of the log. -/
def logEntry : EntryName := ⟨logName, by decide⟩

namespace World.Beside

variable (beside : Beside place left right)

include beside

theorem flattenPath {written : String}
    (avoids : referencesParent written = true → left.Avoids place (root.below written)) :
    flattenPath right root path written = flattenPath left root path written := by
  unfold ShaderForge.flattenPath
  cases leaves : referencesParent written with
  | false => rfl
  | true => rw [beside.read (avoids leaves)]

theorem flattenEntries {entries : List ConfigEntry}
    (avoids : ∀ written ∈ (entries.flatMap ConfigEntry.shaderPaths).filter referencesParent,
      left.Avoids place (root.below written)) :
    flattenEntries right root path entries = flattenEntries left root path entries := by
  induction entries with
  | nil => rfl
  | cons entry entries ih =>
    have own : ∀ written ∈ entry.shaderPaths, referencesParent written = true →
        left.Avoids place (root.below written) := by
      intro written member leaves
      refine avoids written (List.mem_filter.mpr ⟨?_, leaves⟩)
      rw [List.flatMap_cons]
      exact List.mem_append_left _ member
    have others := ih fun written member => avoids written (by
      rw [List.flatMap_cons, List.filter_append]
      exact List.mem_append_right _ member)
    have vertex : entry.vertex ∈ entry.shaderPaths := List.mem_cons_self
    have fragment : entry.fragment ∈ entry.shaderPaths :=
      List.mem_cons_of_mem _ List.mem_cons_self
    have flat : flattenEntry right root path entry = flattenEntry left root path entry := by
      unfold flattenEntry
      rw [beside.flattenPath (own _ vertex), beside.flattenPath (own _ fragment)]
    rw [ShaderForge.flattenEntries, ShaderForge.flattenEntries, flat, others]

variable {above : Location} (log : place = logEntry :: above)

include log

theorem configFiles (input : JobInput) : input.configFiles right = input.configFiles left := by
  cases input with
  | directory root =>
    show (discoverConfigs right root).map root.join = (discoverConfigs left root).map root.join
    rw [discoverConfigs, discoverConfigs, beside.filesNamed log (by decide)]
  | config root path => rfl
  | shader target => rfl

variable (apart : ∀ path ∈ input.reads left, left.Avoids place path)

include apart

/-- **The plan of a job is the same in both worlds.** -/
theorem plan : input.plan right = input.plan left := by
  have files : ∀ wanted : String → Bool, wanted logEntry.text = false → ∀ root,
      ShaderForge.filesNamed wanted right root = ShaderForge.filesNamed wanted left root :=
    fun wanted other root => beside.filesNamed log other root
  unfold JobInput.plan
  cases input with
  | shader target => rfl
  | directory root =>
    show (Except.ok (filed root (discoverFiles right root))).map firstOfEachName = _
    rw [discoverFiles, files isSourceName (by decide)]
    rfl
  | config root path =>
    have loads : ConfigFile.load right path = ConfigFile.load left path :=
      beside.load (apart path (List.mem_append_left _ List.mem_cons_self))
    have shaders : discoverShaders right root = discoverShaders left root :=
      files isShaderName (by decide) root
    show (configCandidates right root path).map firstOfEachName =
      (configCandidates left root path).map firstOfEachName
    unfold configCandidates
    rw [loads, shaders]
    cases loaded : ConfigFile.load left path with
    | error error => rfl
    | ok config =>
      have flat : ShaderForge.flattenEntries right root path config.entries =
          ShaderForge.flattenEntries left root path config.entries := by
        refine beside.flattenEntries fun written member => apart _ ?_
        refine List.mem_append_right _ ?_
        rw [loaded]
        exact List.mem_map_of_mem member
      dsimp only [bind, Except.bind]
      rw [flat]

end World.Beside

/-! ## Part 2 — plans -/

/-- What is brought in is there as bytes. -/
theorem bring?_ne_file {world : World} {reference : String} {file : Path}
    (made : bring? world root reference = some entry) : entry.source ≠ .file file := by
  unfold bring? at made
  split at made
  · cases made
    rintro ⟨⟩
  · cases made

/-- **Every file of a plan is one that the job reads.** -/
theorem JobInput.mem_reads {world : World} {file : Path} (planned : input.plan world = .ok entries)
    (member : entry ∈ entries) (source : entry.source = .file file) :
    file ∈ input.reads world := by
  obtain ⟨candidates, given, rfl⟩ := JobInput.plan_ok planned
  have among := mem_of_mem_firstOfEachName member
  have below : ∀ (root : Path) (paths : List Path), entry ∈ filed root paths →
      file ∈ paths.map root.join := by
    intro root paths inside
    obtain ⟨path, listed, rfl⟩ := List.mem_map.mp inside
    cases source
    exact List.mem_map_of_mem listed
  cases input with
  | shader target =>
    obtain ⟨shaderName, _, given⟩ := except_bind_ok given
    obtain ⟨companionName, _, given⟩ := except_bind_ok given
    cases given
    simp only [List.mem_cons, List.not_mem_nil, or_false] at among
    rcases among with rfl | rfl | rfl
    · cases source
    · cases source
      exact List.mem_cons_self
    · cases source
      exact List.mem_cons_of_mem _ List.mem_cons_self
  | directory root =>
    cases given
    have listed := below root _ among
    rw [JobInput.reads, List.map_append]
    exact List.mem_append_right _ listed
  | config root path =>
    obtain ⟨config, loaded, given⟩ := except_bind_ok given
    obtain ⟨name, named, given⟩ := except_bind_ok given
    obtain ⟨⟨flats, brought⟩, flat, given⟩ := except_bind_ok given
    cases given
    refine List.mem_append_left _ ?_
    rcases List.mem_append.mp among with brings | among
    · obtain ⟨reference, -, made⟩ := List.mem_filterMap.mp ((flattenEntries_ok flat).2.1 ▸ brings)
      exact absurd source (bring?_ne_file made)
    · rcases List.mem_cons.mp among with rfl | shader
      · unfold configSource at source
        split at source
        · cases source
          exact List.mem_cons_self
        · cases source
      · exact List.mem_cons_of_mem _ (below root _ shader)

namespace World.Beside

variable (beside : Beside place left right)

include beside

/-- What an entry gives is the same in both worlds. -/
theorem content (avoids : ∀ file, entry.source = .file file → left.Avoids place file) :
    entry.source.content right = entry.source.content left := by
  cases shape : entry.source with
  | bytes content => rfl
  | file file =>
    show liftIo (right.read file) = liftIo (left.read file)
    rw [beside.read (avoids file shape)]

theorem entrySize (avoids : ∀ file, entry.source = .file file → left.Avoids place file) :
    entry.source.size right = entry.source.size left := by
  cases shape : entry.source with
  | bytes content => rfl
  | file file => exact beside.size (avoids file shape)

theorem expectedSize
    (avoids : ∀ entry ∈ entries, ∀ file, entry.source = .file file → left.Avoids place file) :
    expectedSize right entries = expectedSize left entries := by
  unfold ShaderForge.expectedSize
  rw [List.map_congr_left fun entry member => beside.entrySize (avoids entry member)]

/-- **The format that the configs declare is the same in both worlds.** -/
theorem declaredFormat? {above : Location} (log : place = logEntry :: above)
    (apart : ∀ path ∈ input.reads left, left.Avoids place path) :
    input.declaredFormat? right = input.declaredFormat? left := by
  have formats : ∀ paths : List Path, (∀ path ∈ paths, left.Avoids place path) →
      paths.findSome? (formatIn? right) = paths.findSome? (formatIn? left) := by
    intro paths avoids
    induction paths with
    | nil => rfl
    | cons path paths ih =>
      rw [List.findSome?_cons, List.findSome?_cons, formatIn?, formatIn?,
        beside.load (avoids path List.mem_cons_self),
        ih fun other among => avoids other (List.mem_cons_of_mem _ among)]
  have configs := beside.configFiles log input
  cases input with
  | shader target => rfl
  | directory root =>
    rw [JobInput.declaredFormat?, JobInput.declaredFormat?, configs]
    refine formats _ fun path member => apart path ?_
    rw [JobInput.reads, List.map_append]
    exact List.mem_append_left _ member
  | config root path =>
    rw [JobInput.declaredFormat?, JobInput.declaredFormat?, configs]
    refine formats _ fun other member => apart other ?_
    rw [List.mem_singleton.mp member]
    exact List.mem_append_left _ List.mem_cons_self

end World.Beside

/-! ## Part 3 — an answer that brings a log -/

/-- **The service brings a log**: each of its archives has a member that is written to the place of
the log, and the others spare that place. -/
def Hooks.BringsLog (hooks : Hooks) (place : Location) (root : Path) (world : World) : Prop :=
  ∀ trace upload status pieces broken members,
    hooks.service trace upload = .answered status pieces broken →
    Zip.members? (Job.joined pieces) = some members →
    (∀ member ∈ members, member.Spares place root world) ∧
      ∃ member ∈ members, member.Fills place root world

/-- Two given worlds. -/
def These (left right first second : World) : Prop := first = left ∧ second = right

/-- Worlds that are one, or alike beside a place still. -/
def World.Merging (place cwd : Location) (left right : World) : Prop :=
  left = right ∨ StillBeside place cwd left right

namespace Zip

variable {member : Member} {world after : World}

theorem Member.Spares.of_cwd (spares : member.Spares place root world)
    (cwd : after.cwd = world.cwd) : member.Spares place root after := by
  intro safe
  obtain ⟨passes, avoids⟩ := spares safe
  refine ⟨?_, fun unwritten => (avoids unwritten).of_cwd cwd⟩
  rwa [World.GoesThrough, World.start_of_cwd cwd]

theorem Member.Fills.of_cwd (fills : member.Fills place root world)
    (cwd : after.cwd = world.cwd) : member.Fills place root after := by
  refine ⟨fills.1, ?_⟩
  rw [World.start_of_cwd cwd]
  exact fills.2

end Zip

namespace Job

open World (Merging)
open Zip (Member)

variable {member : Member} {members : List Member} {world : World}

/-- A member that spares a place is unpacked alike. -/
theorem alike_placeMember (spares : member.Spares place root world) :
    GoesAlike (Merging place world.cwd) (Merging place world.cwd) hooks
      (onDisk (Zip.placeMember root member)) := by
  refine alike_onDisk fun left right merging => ?_
  rcases merging with rfl | ⟨cwd, beside⟩
  · exact ⟨rfl, fun _ _ => .inl rfl⟩
  · have twin := Zip.placeMember_twin beside (spares.of_cwd cwd)
    refine ⟨twin.outcome, fun _ _ => ?_⟩
    rw [← cwd]
    exact twin.worlds

/-- **A member that is written to the place makes the worlds one.** -/
theorem alike_placeMember_fills (spares : member.Spares place root world)
    (fills : member.Fills place root world) :
    GoesAlike (Merging place world.cwd) Eq hooks (onDisk (Zip.placeMember root member)) := by
  refine alike_onDisk fun left right merging => ?_
  rcases merging with rfl | ⟨cwd, beside⟩
  · exact ⟨rfl, fun _ _ => rfl⟩
  · have twin := Zip.placeMember_twin beside (spares.of_cwd cwd)
    exact ⟨twin.outcome, fun _ succeeded => twin.filled succeeded (fills.of_cwd cwd)⟩

/-- **Members one of which is written to the place**, unpacked in worlds alike beside it, make the
worlds one. -/
theorem alike_placeMembers (spares : ∀ member ∈ members, member.Spares place root world)
    (fills : ∃ member ∈ members, member.Fills place root world) :
    GoesAlike (Merging place world.cwd) Eq hooks (placeMembers root members) := by
  induction members with
  | nil =>
    obtain ⟨member, among, -⟩ := fills
    exact absurd among List.not_mem_nil
  | cons member rest ih =>
    have here := spares member List.mem_cons_self
    obtain ⟨filling, among, lands⟩ := fills
    refine alike_checkpoint.then fun _ => ?_
    rcases List.mem_cons.mp among with rfl | later
    · exact (alike_placeMember_fills here lands).then fun _ => alike_of_eq _
    · have goes := ih (fun other inside => spares other (List.mem_cons_of_mem _ inside))
        ⟨filling, later, lands⟩
      exact (alike_placeMember here).then fun _ => goes.then fun _ => alike_pure _

/-- **An archive that brings a log**, unpacked in worlds alike beside its place, makes them one. -/
theorem alike_extract {archive : ByteArray}
    (brings : ∀ members, Zip.members? archive = some members →
      (∀ member ∈ members, member.Spares place root world) ∧
        ∃ member ∈ members, member.Fills place root world) :
    GoesAlike (Merging place world.cwd) Eq hooks (extract archive root) := by
  unfold extract
  cases opened : Zip.members? archive with
  | none => exact alike_throw _
  | some members =>
    obtain ⟨spares, member, among, fills⟩ := brings members opened
    exact alike_placeMembers (fun other inside => spares other (Zip.mem_extractionOrder.mp inside))
      ⟨member, Zip.mem_extractionOrder.mpr among, fills⟩

/-! ## Part 4 — what is received -/

/-- The body that is received is made up of all pieces. -/
theorem receiveEach_gives {session : Session} {url : String} {broken acknowledged : Bool}
    {pieces : List ByteArray} {body : ByteArray}
    (given : ((receiveEach url broken acknowledged pieces).perform hooks session).1 = .ok body) :
    body = joined pieces := by
  have skips : ∀ (already : Bool) (next : Job ByteArray) (session : Session) (body : ByteArray),
      ((if !already then acknowledge >>= fun _ => next else next).perform hooks session).1 =
        .ok body → ∃ middle, (next.perform hooks middle).1 = .ok body := by
    intro already next session body given
    cases already with
    | true => exact ⟨session, given⟩
    | false =>
      obtain ⟨_, middle, _, given⟩ := perform_bind_gives given
      exact ⟨middle, given⟩
  induction pieces generalizing session acknowledged body with
  | nil =>
    obtain ⟨_, _, _, given⟩ := perform_bind_gives given
    obtain ⟨_, ends⟩ := skips _ _ _ _ given
    cases ends
    rfl
  | cons piece rest ih =>
    obtain ⟨_, _, _, given⟩ := perform_bind_gives given
    obtain ⟨_, given⟩ := skips _ _ _ _ given
    obtain ⟨later, _, ran, ends⟩ := perform_bind_gives given
    cases ends
    rw [ih (congrArg Prod.fst ran)]
    rfl

theorem receive_gives {session : Session} {url : String} {broken : Bool}
    {pieces : List ByteArray} {body : ByteArray}
    (given : ((receive url pieces broken).perform hooks session).1 = .ok body) :
    body = joined pieces := by
  obtain ⟨whole, _, ran, given⟩ := perform_bind_gives given
  obtain ⟨_, _, _, ends⟩ := perform_bind_gives given
  cases ends
  exact receiveEach_gives (congrArg Prod.fst ran)

/-- The pieces that are received are those of an answer. -/
theorem upload_gives {session : Session} {service : Service} {format : String} {archive : Archive}
    {answer : List ByteArray × Bool}
    (given : ((upload service format archive).perform hooks session).1 = .ok answer) :
    ∃ trace sent status, hooks.service trace sent = .answered status answer.1 answer.2 := by
  obtain ⟨_, _, _, given⟩ := perform_bind_gives given
  obtain ⟨_, _, _, given⟩ := perform_bind_gives given
  have replied := perform_guarded_gives given
  rw [perform_request] at replied
  generalize answers : hooks.service _ _ = reply at replied
  cases reply with
  | unreachable fault => cases replied
  | answered status pieces broken =>
    unfold received at replied
    dsimp only at replied
    split at replied
    · cases replied
    · cases replied
      exact ⟨_, _, status, answers⟩

/-! ## Part 5 — whole jobs -/

theorem alike_packFrom {report : Nat → Nat → Job Unit} {total done : Nat}
    {entries : List ArchiveEntry} {Before : World → World → Prop}
    (reports : ∀ done total, GoesAlike Before Before hooks (report done total))
    (agree : ∀ entry ∈ entries, ∀ left right, Before left right →
      entry.source.content right = entry.source.content left) :
    GoesAlike Before Before hooks (packFrom report total done entries) := by
  induction entries generalizing done with
  | nil => exact alike_pure _
  | cons entry rest ih =>
    refine alike_look.then fun fired => ?_
    cases fired with
    | true => exact alike_pure _
    | false =>
      refine alike_get (fun one other worlds => ?_) fun session => ?_
      · rw [agree entry List.mem_cons_self one.world other.world worlds]
      · cases entry.source.content session.world with
        | error fault => exact alike_pure _
        | ok content =>
          exact (reports _ _).then fun _ =>
            (ih fun other among => agree other (List.mem_cons_of_mem _ among)).then fun _ =>
              alike_pure _

theorem alike_pack {report : Nat → Nat → Job Unit} {entries : List ArchiveEntry}
    {Before : World → World → Prop}
    (reports : ∀ done total, GoesAlike Before Before hooks (report done total))
    (sizes : ∀ left right, Before left right →
      expectedSize right entries = expectedSize left entries)
    (agree : ∀ entry ∈ entries, ∀ left right, Before left right →
      entry.source.content right = entry.source.content left) :
    GoesAlike Before Before hooks (pack report entries) := by
  refine alike_get (fun one other worlds => ?_) fun session => ?_
  · rw [sizes one.world other.world worlds]
  · refine (alike_packFrom reports agree).then fun packing => ?_
    cases packing.fault with
    | none => exact alike_pure _
    | some fault => exact alike_throw _

section Twins

variable (beside : Beside place left right) {above : Location} (log : place = logEntry :: above)
  (apart : ∀ path ∈ input.reads left, left.Avoids place path)

include beside log apart

theorem alike_outputFormat (hint : Option String) :
    GoesAlike (These left right) (These left right) hooks (outputFormat hint input) := by
  unfold outputFormat
  cases hint.bind meaningful? with
  | some format => exact alike_pure _
  | none =>
    have asks : GoesAlike (These left right) (These left right) hooks
        (inspect fun world => pure (input.declaredFormat? world)) := by
      refine alike_inspect ?_
      rintro first second ⟨rfl, rfl⟩
      rw [beside.declaredFormat? log apart]
    refine asks.awaited.then fun declared => ?_
    cases declared with
    | some format => exact alike_pure _
    | none => exact (alike_choose _).then fun _ => alike_pure _

theorem alike_bundle : GoesAlike (These left right) (These left right) hooks (bundle input) := by
  have asks : GoesAlike (These left right) (These left right) hooks
      (inspect fun world => input.plan world) := by
    refine alike_inspect ?_
    rintro first second ⟨rfl, rfl⟩
    exact beside.plan log apart
  refine (alike_progress _ _).then fun _ => asks.guarded.bind fun plan given => ?_
  obtain ⟨session, _, alike, given⟩ := given
  have planned := perform_guarded_gives given
  rw [perform_inspect, Session.looked_world, alike.worlds.1] at planned
  have files : ∀ entry ∈ plan, ∀ file, entry.source = .file file → left.Avoids place file :=
    fun entry member file source => apart file (JobInput.mem_reads planned member source)
  have packs : GoesAlike (These left right) (These left right) hooks
      (guarded (pack reportPacking plan)) := by
    refine GoesAlike.guarded (alike_pack (fun _ _ => alike_progress _ _) ?_ ?_)
    · rintro first second ⟨rfl, rfl⟩
      exact beside.expectedSize files
    · rintro entry member first second ⟨rfl, rfl⟩
      exact beside.content (files entry member)
  cases plan with
  | nil =>
    exact (alike_throw _).then fun _ => packs.then fun _ => (alike_progress _ _).then fun _ =>
      alike_pure _
  | cons first rest => exact packs.then fun _ => (alike_progress _ _).then fun _ => alike_pure _

omit log apart in
/-- **What follows an answer that brings a log** goes alike. -/
theorem alike_finish (service : Service) (resolver : Resolver) {answer : List ByteArray × Bool}
    (brings : ∀ members, Zip.members? (joined answer.1) = some members →
      (∀ member ∈ members, member.Spares place input.root left) ∧
        ∃ member ∈ members, member.Fills place input.root left) :
    GoesAlike (These left right) Eq hooks (service.finish resolver input answer) := by
  have unpacks : GoesAlike (These left right) Eq hooks
      (extract (joined answer.1) input.root) := by
    refine (alike_extract brings).narrow ?_
    rintro first second ⟨rfl, rfl⟩
    exact .inr ⟨rfl, beside⟩
  refine (alike_receive _ _ _).bind fun body given => (alike_progress _ _).then fun _ => ?_
  obtain ⟨_, _, _, given⟩ := given
  rw [receive_gives given]
  exact unpacks.then fun extracted => alike_of_eq _

/-- **A remote job goes alike** in worlds that differ in the old log, if the answer brings one. -/
theorem alike_generateRemotely (service : Service) (resolver : Resolver) (hint : Option String)
    (brings : hooks.BringsLog place input.root left) :
    GoesAlike (These left right) Eq hooks (generateRemotely service resolver hint input) := by
  rw [generateRemotely_eq]
  refine alike_checkpoint.then fun _ => (alike_outputFormat beside log apart hint).then
    fun format => (alike_log _).then fun _ => GoesAlike.then ?_ fun run => alike_of_eq _
  rw [Service.run_eq]
  refine (alike_bundle beside log apart).then fun archive =>
    (alike_upload service format archive).bind fun answer given => ?_
  obtain ⟨_, _, _, given⟩ := given
  obtain ⟨trace, sent, status, answered⟩ := upload_gives given
  exact alike_finish beside service resolver fun members => brings trace sent status _ _ members
    answered

end Twins

end Job

/-- The place of the log is named like the log. -/
theorem place_of_log {start : Location}
    (leads : World.settle start (root.below logName).parts = some place) :
    ∃ above, place = logEntry :: above := by
  have last : Path.parts ⟨logName⟩ = [logName.toList] := by decide
  have parts : (root.below logName).parts = root.parts ++ [logName.toList] := by
    cases empty : root.isEmpty with
    | false => rw [Path.below, Path.parts_join empty (by decide), last]
    | true =>
      have whole : (root.below logName).text.toList = logName.toList := by
        rw [Path.below, Path.toList_join, Path.isEmpty_iff.mp empty]
        rfl
      rw [Path.parts_of_isEmpty empty, Path.parts, whole]
      exact last
  rw [parts, World.settle_append] at leads
  obtain ⟨above, -, settles⟩ := Option.bind_eq_some_iff.mp leads
  refine ⟨above, (Option.some.inj settles).symm.trans ?_⟩
  rfl

/-- **A job forgets the log of an earlier one.** Let two worlds differ in nothing but what is at the
place of the log, which is no directory. Let no path that the job reads lead to that place or
through it, and let every answer of the service bring a log. Then the job comes to the same in both,
and publishes the same findings, whenever the token fires. -/
theorem generate_forgets_log {generator : Generator} {request : JobRequest} {service : Service}
    (selected : Backend.select generator.settings generator.resolver generator.timeout =
      .ok (.remote service))
    (requested : Job.requestedPath generator.resolver request.path = .ok path)
    (resolved : JobInput.resolve left path = .ok input)
    (same : JobInput.resolve right path = .ok input)
    (leads : World.settle (left.start (input.root.below logName))
      (input.root.below logName).parts = some place)
    (beside : Beside place left right)
    (apart : ∀ file ∈ input.reads left, left.Avoids place file)
    (brings : hooks.BringsLog place input.root left) :
    (generator.generate request hooks right).1 = (generator.generate request hooks left).1 ∧
      (generator.generate request hooks right).2.findings =
        (generator.generate request hooks left).2.findings := by
  obtain ⟨above, log⟩ := place_of_log leads
  have goes : Job.GoesAlike (These left right) Eq hooks
      (Job.generate generator.settings generator.resolver generator.timeout request) := by
    unfold Job.generate
    rw [selected, requested]
    have asks : Job.GoesAlike (These left right) (These left right) hooks
        (Job.inspect fun world => JobInput.resolve world path) := by
      refine Job.alike_inspect ?_
      rintro first second ⟨rfl, rfl⟩
      rw [resolved, same]
    refine Job.alike_clearFindings.then fun _ => Job.alike_checkpoint.then fun _ =>
      (Job.alike_pure (Backend.remote service)).bind fun backend selects => ?_
    obtain ⟨_, _, _, selects⟩ := selects
    cases selects
    refine (Job.alike_pure path).bind fun asked requests => ?_
    obtain ⟨_, _, _, requests⟩ := requests
    cases requests
    refine asks.guarded.bind fun found given => ?_
    obtain ⟨session, _, alike, given⟩ := given
    have means := Job.perform_guarded_gives given
    rw [Job.perform_inspect, Session.looked_world, alike.worlds.1, resolved] at means
    cases means
    exact Job.alike_generateRemotely beside log apart service _ _ brings
  have ends := goes ⟨left, [], generator.findings⟩ ⟨right, [], generator.findings⟩
    ⟨⟨rfl, rfl⟩, rfl, rfl⟩
  exact ⟨ends.outcome, ends.findings⟩

/-- What is sent is the same in both worlds. -/
theorem World.Beside.archived (beside : Beside place left right) {above : Location}
    (log : place = logEntry :: above)
    (apart : ∀ file ∈ input.reads left, left.Avoids place file) :
    input.archived right = input.archived left := by
  unfold JobInput.archived
  rw [beside.plan log apart]
  cases planned : input.plan left with
  | error error => rfl
  | ok plan =>
    have members :
        plan.mapM (ArchiveEntry.member right) = plan.mapM (ArchiveEntry.member left) := by
      have same : ∀ entry ∈ plan, entry.member right = entry.member left := by
        intro entry among
        rw [ArchiveEntry.member, ArchiveEntry.member, beside.content fun file source =>
          apart file (JobInput.mem_reads planned among source)]
      clear planned
      induction plan with
      | nil => rfl
      | cons entry rest ih =>
        rw [List.mapM_cons, List.mapM_cons, same entry List.mem_cons_self,
          ih fun other among => same other (List.mem_cons_of_mem _ among)]
    dsimp only [bind, Except.bind]
    rw [members]

/-- **A job that is sent an answer ends with the log that is there once the answer is unpacked**,
whether or not it came with the answer. -/
theorem generate_collects {generator : Generator} {request : JobRequest} {service : Service}
    {world unpacked : World} {members : List (String × ByteArray)} {pieces : List ByteArray}
    {paths : List Path} {log : Option String} (quiet : hooks.Quiet)
    (selected : Backend.select generator.settings generator.resolver generator.timeout =
      .ok (.remote service))
    (requested : Job.requestedPath generator.resolver request.path = .ok path)
    (resolved : JobInput.resolve world path = .ok input)
    (gathered : input.archived world = .ok members)
    (answers : ∀ trace upload, hooks.service trace upload = .answered 200 pieces false)
    (unpacks : Job.unpack (Job.joined pieces) input.root world = (.ok paths, unpacked))
    (found : Job.logText? unpacked (input.root.below logName) = .ok log) :
    ∃ format records, Collected generator input format paths unpacked log records
      (generator.generate request hooks world) := by
  obtain ⟨format, trace, -, -, -, begins⟩ := generate_begins quiet selected requested resolved
  obtain ⟨plan, planned, some_entry, gathered⟩ := JobInput.archived_ok gathered
  obtain ⟨before, -, -, runs⟩ := run_sends service generator.resolver format
    ⟨world, trace, generator.findings.clear⟩ quiet planned some_entry gathered
  have ends := begins.trans runs
  rw [answers, Job.received, if_neg (by decide), Job.perform_bind_ok (Job.perform_settle _)] at ends
  obtain ⟨primary, -, collected⟩ := @finish_collects hooks
    ⟨world, .looked :: .sent ⟨service.url, format, members⟩ :: before, generator.findings.clear⟩
    unpacked path input format service generator.resolver paths log generator pieces quiet resolved
    unpacks found
  rw [ends]
  exact ⟨format, _, collected⟩

/-! ## Part 6 — an old log beside a small config -/

/-- The place of the log of the small config. -/
def smallLog : Location := [logEntry, ⟨"job", usable_job⟩]

/-- The world with the small config, its shader and an old log. -/
def staleWorld : World :=
  World.ofNodes [] ((smallLog, .file "[ERROR] old".toUTF8) :: smallWorld.nodes) (by decide)
    (by decide)

/-- A generator for a service. -/
def smallGenerator : Generator :=
  Generator.fresh ⟨"", "http://localhost:9/"⟩ ⟨⟨"/"⟩, ⟨[], none⟩⟩ standardTimeout

theorem small_selected : ∃ service, Backend.select smallGenerator.settings smallGenerator.resolver
    smallGenerator.timeout = .ok (.remote service) :=
  select_service (by decide +kernel) (by decide +kernel)

theorem small_beside : Beside smallLog smallWorld staleWorld where
  cwd := rfl
  others := by rfl
  left_free there := by
    have no : smallWorld.hasDirectory smallLog = false := by rfl
    rw [World.hasDirectory_iff.mpr there] at no
    cases no
  right_free there := by
    have no : staleWorld.hasDirectory smallLog = false := by rfl
    rw [World.hasDirectory_iff.mpr there] at no
    cases no

theorem small_avoids {path : Path} (apart : ∀ init ∈ path.parts.inits,
    World.settle (smallWorld.start path) init ≠ some smallLog) :
    smallWorld.Avoids smallLog path :=
  fun init first => apart init ((List.mem_inits init _).mpr first)

theorem small_apart : ∀ file ∈ (JobInput.config ⟨"/job"⟩ ⟨"/job/x.sl.json"⟩).reads smallWorld,
    smallWorld.Avoids smallLog file := by
  have shaders : discoverShaders smallWorld ⟨"/job"⟩ = [⟨"x.vert"⟩] :=
    filesNamed_singleton (by decide +kernel)
  have reads : (JobInput.config ⟨"/job"⟩ ⟨"/job/x.sl.json"⟩).reads smallWorld =
      [⟨"/job/x.sl.json"⟩, ⟨"/job/x.vert"⟩] := by
    rw [JobInput.reads, shaders, small_load]
    decide +kernel
  intro file member
  rw [reads] at member
  simp only [List.mem_cons, List.not_mem_nil, or_false] at member
  rcases member with rfl | rfl
  · exact small_avoids (by decide +kernel)
  · exact small_avoids (by decide +kernel)

theorem stale_resolve : JobInput.resolve staleWorld ⟨"/job/x.sl.json"⟩ =
    .ok (.config ⟨"/job"⟩ ⟨"/job/x.sl.json"⟩) := by
  have there : staleWorld.find? ⟨"/job/x.sl.json"⟩ =
      some ([⟨"x.sl.json", by decide⟩, ⟨"job", by decide⟩], .file smallText.toUTF8) := by rfl
  have loads : ConfigFile.load staleWorld ⟨"/job/x.sl.json"⟩ = .ok smallConfig :=
    (small_beside.load (small_avoids (by decide +kernel))).trans small_load
  have valid : validateConfig staleWorld ⟨"/job/x.sl.json"⟩ ⟨"/job"⟩ = .ok ⟨⟩ := by
    rw [validateConfig, loads]
    rfl
  have parent : directoryOf ⟨"/job/x.sl.json"⟩ = ⟨"/job"⟩ := by rfl
  have named : Path.fileName? ⟨"/job/x.sl.json"⟩ = some "x.sl.json" := by rfl
  rw [JobInput.resolve, there]
  dsimp only
  rw [JobInput.resolveFile, named]
  dsimp only
  rw [parent, if_pos (by decide), valid]
  rfl

theorem small_leads : World.settle (smallWorld.start (Path.below ⟨"/job"⟩ logName))
    (Path.below ⟨"/job"⟩ logName).parts = some smallLog := by rfl

theorem small_opened : Zip.members?
    (Job.joined [Zip.write [(".starlight.log", "an [error]".toUTF8)]]) =
      some [⟨".starlight.log", "an [error]".toUTF8, none⟩] := by
  decide +kernel

theorem small_brings : smallHooks.BringsLog smallLog ⟨"/job"⟩ smallWorld := by
  intro trace upload status pieces broken members answered opened
  cases answered
  rw [small_opened] at opened
  cases opened
  have target : Zip.Member.target ⟨"/job"⟩ ⟨".starlight.log", "an [error]".toUTF8, none⟩ =
      Path.below ⟨"/job"⟩ logName := rfl
  have written : Zip.Member.isWritten ⟨".starlight.log", "an [error]".toUTF8, none⟩ = true := by
    decide
  refine ⟨fun member among safe => ?_, _, List.mem_singleton_self _, written, small_leads⟩
  rw [List.mem_singleton.mp among, target]
  refine ⟨fun ⟨init, first, short, settles⟩ => ?_, fun unwritten => ?_⟩
  · have apart : ∀ init ∈ (Path.below ⟨"/job"⟩ logName).parts.inits,
        init ≠ (Path.below ⟨"/job"⟩ logName).parts →
          World.settle (smallWorld.start (Path.below ⟨"/job"⟩ logName)) init ≠ some smallLog := by
      decide +kernel
    exact apart init ((List.mem_inits init _).mpr first) short settles
  · rw [written] at unwritten
    cases unwritten

/-- The old log with an error is forgotten for the new one. -/
theorem generate_forgets_log_small :
    let request : JobRequest := ⟨"/job/x.sl.json", some "cpp"⟩
    (smallGenerator.generate request smallHooks staleWorld).1 =
        (smallGenerator.generate request smallHooks smallWorld).1 ∧
      (smallGenerator.generate request smallHooks staleWorld).2.findings =
        (smallGenerator.generate request smallHooks smallWorld).2.findings := by
  intro request
  obtain ⟨service, selected⟩ := small_selected
  exact @generate_forgets_log smallWorld staleWorld smallLog ⟨"/job/x.sl.json"⟩ smallHooks
    (.config ⟨"/job"⟩ ⟨"/job/x.sl.json"⟩) smallGenerator request service selected (by cbv)
    small_resolve stale_resolve small_leads small_beside small_apart small_brings

/-- Hooks whose service answers with nothing. -/
def silentHooks : Hooks :=
  ⟨.never, fun _ => none, fun _ _ world => .ok (.timedOut, world),
    fun _ _ => .answered 200 [Zip.write []] false⟩

/-- **An old log decides if the answer brings none**: then a job fails that succeeds without it. -/
theorem stale_log_decides :
    ¬ ∀ (generator : Generator) (request : JobRequest) (hooks : Hooks) (service : Service)
      (path : Path) (input : JobInput) (place : Location) (left right : World), hooks.Quiet →
      Backend.select generator.settings generator.resolver generator.timeout =
        .ok (.remote service) →
      Job.requestedPath generator.resolver request.path = .ok path →
      JobInput.resolve left path = .ok input → JobInput.resolve right path = .ok input →
      World.settle (left.start (input.root.below logName)) (input.root.below logName).parts =
        some place →
      Beside place left right → (∀ file ∈ input.reads left, left.Avoids place file) →
      (generator.generate request hooks right).1 = (generator.generate request hooks left).1 := by
  intro claim
  obtain ⟨service, selected⟩ := small_selected
  have requested : Job.requestedPath smallGenerator.resolver "/job/x.sl.json" =
      .ok ⟨"/job/x.sl.json"⟩ := by cbv
  have quiet : silentHooks.Quiet := fun _ => rfl
  have same := claim smallGenerator ⟨"/job/x.sl.json", some "cpp"⟩ silentHooks service
    ⟨"/job/x.sl.json"⟩ (.config ⟨"/job"⟩ ⟨"/job/x.sl.json"⟩) smallLog smallWorld staleWorld quiet
    selected requested small_resolve stale_resolve small_leads small_beside small_apart
  have opened : Zip.members? (Job.joined [Zip.write []]) = some [] := by decide +kernel
  have unpacks : ∀ world, Job.unpack (Job.joined [Zip.write []]) ⟨"/job"⟩ world =
      (.ok [], world) := by
    intro world
    rw [Job.unpack, opened]
    rfl
  have absent : Job.logText? smallWorld (Path.below ⟨"/job"⟩ logName) = .ok none := by rfl
  have found : Job.logText? staleWorld (Path.below ⟨"/job"⟩ logName) =
      .ok (some (Text.decodeLossy "[ERROR] old".toUTF8)) := by rfl
  obtain ⟨format, records, clean⟩ := @generate_collects _ silentHooks _ smallGenerator
    ⟨"/job/x.sl.json", some "cpp"⟩ service smallWorld smallWorld _ _ _ _ quiet selected requested
    small_resolve small_archived (fun _ _ => rfl) (unpacks smallWorld) absent
  have gathered := (small_beside.archived rfl small_apart).trans small_archived
  obtain ⟨format', records', stale⟩ := @generate_collects _ silentHooks _ smallGenerator
    ⟨"/job/x.sl.json", some "cpp"⟩ service staleWorld staleWorld _ _ _ _ quiet selected requested
    stale_resolve gathered (fun _ _ => rfl) (unpacks staleWorld) found
  have text : Text.decodeLossy "[ERROR] old".toUTF8 = "[ERROR] old" := by decide +kernel
  have tagged : HasErrorTag (Text.decodeLossy "[ERROR] old".toUTF8) := by
    rw [text]
    exact ⟨[], "ERROR".toList, " old".toList, by decide, by decide⟩
  have succeeds := clean.succeeds (by rintro ⟨_, nothing, _⟩; cases nothing)
  have fails := stale.fails ⟨_, rfl, tagged⟩
  rw [succeeds, fails] at same
  cases same

end ShaderForge
