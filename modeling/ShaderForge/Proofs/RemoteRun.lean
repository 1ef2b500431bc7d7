/-
**Remote jobs.**

A remote job packs its plan, sends it, and unpacks what the service answers. `generate_remotely`
says of every such job, whatever the prompt and the service do:

* Nothing is sent unless every entry of the plan could be read, and then one request is, after the
  packing was reported to its end. It carries the output format and one member for each entry of the
  plan, in order, with the bytes of its source.
* When the answer was unpacked and the log is absent or a file, the job fails if and only if the log
  has an error tag (`HasErrorTag`). Either way the findings of the log are published, read in the
  world that the job leaves; the log is gone; and all else is as unpacking left it (`Collected`).

Unpacking does not lose the configs of the job, so there is always one that findings without a place
belong to (`primaryConfig_unpacked`).
-/

import Mathlib
import ShaderForge.Proofs.Discovered
import ShaderForge.Proofs.ErrorTags
import ShaderForge.Proofs.Extraction
import ShaderForge.Proofs.Packing
import ShaderForge.Proofs.Resolved

namespace ShaderForge

variable {hooks : Hooks} {session : Session} {world left : World} {path : Path}
  {input : JobInput} {hint : Option String} {format : String} {service : Service}
  {resolver : Resolver} {paths : List Path} {log : Option String}

/-! ## Part 1 — requests and progress on a trace -/

/-- An event other than a request. -/
def Event.NoRequest (event : Event) : Prop := ∀ upload, event ≠ .sent upload

namespace Trace

theorem uploads_append (later earlier : Trace) :
    (later ++ earlier).uploads = earlier.uploads ++ later.uploads := by
  rw [uploads, List.reverse_append, List.filterMap_append]
  rfl

theorem progress_append (later earlier : Trace) :
    (later ++ earlier).progress = earlier.progress ++ later.progress := by
  rw [progress, List.reverse_append, List.filterMap_append]
  rfl

/-- The requests on a trace are its events that are requests. -/
theorem mem_uploads {trace : Trace} {upload : Upload} :
    upload ∈ trace.uploads ↔ .sent upload ∈ trace := by
  refine List.mem_filterMap.trans ⟨?_, fun among => ⟨_, List.mem_reverse.mpr among, rfl⟩⟩
  rintro ⟨event, there, shown⟩
  cases event with
  | sent other =>
    cases shown
    exact List.mem_reverse.mp there
  | _ => cases shown

/-- Events that are no requests show none. -/
theorem uploads_eq_nil {events : Trace} (other : ∀ event ∈ events, event.NoRequest) :
    events.uploads = [] :=
  List.eq_nil_iff_forall_not_mem.mpr fun upload among => other _ (mem_uploads.mp among) upload rfl

end Trace

/-- **A job that only adds other events sends nothing.** -/
theorem Job.Adds.sends_nothing {α : Type} {job : Job α} (adds : Job.Adds Event.NoRequest hooks job)
    (session : Session) :
    ∃ events : Trace, (job.perform hooks session).2.trace = events ++ session.trace ∧
      events.uploads = [] := by
  obtain ⟨events, traced, kind⟩ := adds session
  exact ⟨events, traced, Trace.uploads_eq_nil kind⟩

/-- **What is reported of packing**: the bytes so far after each member, and its share when it is
done. -/
def packingReports (total : Nat) : Nat → List (String × ByteArray) → List (Rat × Option String)
  | _, [] => [(packShare, none)]
  | done, member :: rest =>
    (0, some ("creating zip archive... " ++ toString (done + member.2.size) ++ "B/" ++
      toString total ++ "B")) :: packingReports total (done + member.2.size) rest

namespace Job

/-- A step of packing as an event. -/
def packingShown (done total : Nat) : Event :=
  .progressed 0 (some ("creating zip archive... " ++ toString done ++ "B/" ++ toString total ++
    "B"))

theorem shows_reportPacking : Shows hooks reportPacking packingShown :=
  fun _ _ _ => perform_progress Rat.le_refl _

theorem mem_packSteps {shown : Nat → Nat → Event} {total done : Nat}
    {members : List (String × ByteArray)} {event : Event}
    (member : event ∈ packSteps shown total done members) :
    event = .looked ∨ ∃ so_far, event = shown so_far total := by
  induction members generalizing done with
  | nil => cases member
  | cons first rest ih =>
    rcases List.mem_cons.mp member with look | member
    · exact .inl look
    · rcases List.mem_cons.mp member with report | later
      · exact .inr ⟨_, report⟩
      · exact ih later

/-- The trace that packing leaves when it succeeds. -/
def packingTrace (total : Nat) (members : List (String × ByteArray)) : Trace :=
  .progressed packShare none :: .looked :: ((packSteps packingShown total 0 members).reverse ++
    [.looked, .looked, .looked, .progressed 0 (some "creating zip archive...")])

theorem packingTrace_eq (total : Nat) (members : List (String × ByteArray)) :
    packingTrace total members = [.progressed packShare none, .looked] ++
      ((packSteps packingShown total 0 members).reverse ++
        [.looked, .looked, .looked, .progressed 0 (some "creating zip archive...")]) := rfl

theorem uploads_packSteps (total done : Nat) (members : List (String × ByteArray)) :
    Trace.uploads (packSteps packingShown total done members).reverse = [] := by
  refine Trace.uploads_eq_nil fun event member => ?_
  rcases mem_packSteps (List.mem_reverse.mp member) with rfl | ⟨_, rfl⟩
  · exact fun _ => nofun
  · exact fun _ => nofun

theorem uploads_packingTrace (total : Nat) (members : List (String × ByteArray)) :
    (packingTrace total members).uploads = [] := by
  rw [packingTrace_eq, Trace.uploads_append, Trace.uploads_append, uploads_packSteps]
  rfl

theorem progress_packSteps (total done : Nat) (members : List (String × ByteArray)) :
    Trace.progress (packSteps packingShown total done members).reverse ++ [(packShare, none)] =
      packingReports total done members := by
  induction members generalizing done with
  | nil => rfl
  | cons member rest ih =>
    rw [packingReports, ← ih, packSteps, List.reverse_cons, List.reverse_cons, List.append_assoc,
      Trace.progress_append, List.append_assoc]
    rfl

theorem progress_packingTrace (total : Nat) (members : List (String × ByteArray)) :
    (packingTrace total members).progress =
      (0, some "creating zip archive...") :: packingReports total 0 members := by
  rw [← progress_packSteps, packingTrace_eq, Trace.progress_append, Trace.progress_append]
  rfl

end Job

/-! ## Part 2 — up to the request -/

/-- **The members that are sent for an input**: those of its plan, which must not be empty. -/
def JobInput.archived (world : World) (input : JobInput) :
    Except JobError (List (String × ByteArray)) := do
  let plan ← input.plan world
  if plan.isEmpty then throw (.invalidInput input.root)
  plan.mapM (ArchiveEntry.member world)

theorem JobInput.archived_ok {members : List (String × ByteArray)}
    (gathered : input.archived world = .ok members) :
    ∃ plan, input.plan world = .ok plan ∧ plan ≠ [] ∧
      plan.mapM (ArchiveEntry.member world) = .ok members := by
  obtain ⟨plan, planned, gathered⟩ := except_bind_ok gathered
  refine ⟨plan, planned, ?_⟩
  cases plan with
  | nil => cases gathered
  | cons first rest => exact ⟨List.cons_ne_nil _ _, gathered⟩

namespace Job

/-- **The format does not depend on what happened before**, and asking for it sends and reports
nothing. -/
theorem perform_outputFormat (quiet : hooks.Quiet) (hint : Option String) (input : JobInput)
    (world : World) :
    ∃ format events, Trace.uploads events = [] ∧ Trace.progress events = [] ∧
      ∀ session : Session, session.world = world →
        (outputFormat hint input).perform hooks session =
          (.ok format, { session with trace := events ++ session.trace }) := by
  unfold outputFormat
  cases hint.bind meaningful? with
  | some format => exact ⟨format, [], rfl, rfl, fun _ _ => rfl⟩
  | none =>
    have asked : ∀ session : Session, session.world = world →
        (awaited (inspect fun world => pure (input.declaredFormat? world))).perform hooks session =
          (.ok (input.declaredFormat? world), session.looked) := by
      intro session same
      rw [perform_awaited quiet, perform_inspect, same]
      rfl
    cases declared : input.declaredFormat? world with
    | some format =>
      refine ⟨format, [.looked], rfl, rfl, fun session same => ?_⟩
      rw [declaredFormat, perform_bind_ok (asked session same), declared]
      rfl
    | none =>
      refine ⟨((hooks.prompt outputFormats).bind meaningful?).getD fallbackFormat,
        [.prompted outputFormats, .looked], rfl, rfl, fun session same => ?_⟩
      rw [declaredFormat, perform_bind_ok (asked session same), declared]
      show (choose outputFormats >>= fun answer => _).perform hooks session.looked = _
      rw [perform_bind_ok (perform_choose _)]
      rfl

/-- Packing for a job: its plan is made first, and must not be empty. -/
theorem perform_bundle (quiet : hooks.Quiet) :
    (bundle input).perform hooks session =
      let begun := (session.noting (.progressed 0 (some "creating zip archive..."))).looked.looked
      match input.plan session.world with
      | .error fault => (.error fault, begun)
      | .ok plan =>
        if plan.isEmpty then (.error (.invalidInput input.root), begun)
        else (guarded (pack reportPacking plan) >>= fun archive =>
          progress packShare none >>= fun _ => pure archive).perform hooks begun := by
  unfold bundle
  rw [perform_bind_ok (perform_progress Rat.le_refl _), perform_bind,
    perform_guarded_inspect quiet, Session.noting_world]
  cases input.plan session.world with
  | error fault => rfl
  | ok plan =>
    cases plan with
    | nil => rfl
    | cons first rest => rfl

theorem perform_guarded_pack (quiet : hooks.Quiet) (same : session.world = world)
    (plan : List ArchiveEntry) :
    (guarded (pack reportPacking plan)).perform hooks session =
      ((plan.mapM (ArchiveEntry.member world)).map Archive.mk,
        { session with
          trace := .looked :: ((packed world plan).trace packingShown (expectedSize world plan) 0 ++
            .looked :: session.trace) }) := by
  rw [perform_guarded quiet, perform_pack quiet shows_reportPacking, Session.looked_world, same]
  rfl

/-- **A plan whose entries can all be read is packed**, and that is reported to its end. -/
theorem perform_bundle_ok {plan : List ArchiveEntry} {members : List (String × ByteArray)}
    (quiet : hooks.Quiet) (planned : input.plan session.world = .ok plan) (some_entry : plan ≠ [])
    (gathered : plan.mapM (ArchiveEntry.member session.world) = .ok members) :
    (bundle input).perform hooks session =
      (.ok ⟨members⟩, { session with
        trace := packingTrace (expectedSize session.world plan) members ++ session.trace }) := by
  have nonempty : plan.isEmpty = false := List.isEmpty_eq_false_iff.mpr some_entry
  have packs : packed session.world plan = ⟨members, none⟩ :=
    Packing.eq_of_outcome ((packed_outcome _ _).trans gathered)
  have done : ∀ begun : Session, begun.world = session.world →
      (guarded (pack reportPacking plan)).perform hooks begun =
        (.ok ⟨members⟩, { begun with
          trace := .looked :: ((packSteps packingShown (expectedSize session.world plan) 0
            members).reverse ++ .looked :: begun.trace) }) := by
    intro begun same
    rw [perform_guarded_pack quiet same, gathered, packs]
    rfl
  rw [perform_bundle quiet, planned]
  dsimp only
  rw [nonempty, if_neg Bool.false_ne_true,
    perform_bind_ok (done (session.noting _).looked.looked rfl),
    perform_bind_ok (perform_progress (by decide) _), perform_pure]
  simp [packingTrace, Session.noting]

/-- **A plan that is empty or cannot be read ends the job.** -/
theorem perform_bundle_error {fault : JobError} (quiet : hooks.Quiet)
    (failed : input.archived session.world = .error fault) :
    ∃ trace, (bundle input).perform hooks session = (.error fault, { session with trace }) := by
  rw [perform_bundle quiet]
  unfold JobInput.archived at failed
  cases planned : input.plan session.world with
  | error fault' =>
    rw [planned] at failed
    cases failed
    exact ⟨_, rfl⟩
  | ok plan =>
    rw [planned] at failed
    cases plan with
    | nil =>
      cases failed
      exact ⟨_, rfl⟩
    | cons first rest =>
      have unread : (first :: rest).mapM (ArchiveEntry.member session.world) = .error fault :=
        failed
      have stopped : ∀ begun : Session, begun.world = session.world →
          (guarded (pack reportPacking (first :: rest))).perform hooks begun =
            (.error fault, { begun with
              trace := .looked :: ((packed session.world (first :: rest)).trace packingShown
                (expectedSize session.world (first :: rest)) 0 ++ .looked :: begun.trace) }) := by
        intro begun same
        rw [perform_guarded_pack quiet same, unread]
        rfl
      exact ⟨_, perform_bind_error (stopped (session.noting _).looked.looked rfl)⟩

/-- **What a reply comes to**: the pieces of its body, or why there is none. -/
def received (url : String) : Reply → Except JobError (List ByteArray × Bool)
  | .unreachable fault => .error (.transfer url fault)
  | .answered status pieces broken =>
    if 400 ≤ status ∧ status < 600 then .error (.transfer url (.refused status))
    else .ok (pieces, broken)

theorem perform_request (upload : Upload) :
    (request upload).perform hooks session =
      (received upload.url (hooks.service session.trace upload),
        session.noting (.sent upload)) := by
  unfold request
  rw [perform_bind_ok perform_read, perform_bind_ok perform_get, perform_bind_ok (perform_emit _)]
  cases hooks.service session.trace upload with
  | unreachable fault => rfl
  | answered status pieces broken =>
    unfold received
    dsimp only
    split
    · rfl
    · rfl

/-- What happens between packing and the request. -/
def uploadingTrace (service : Service) (archive : Archive) : Trace :=
  [.looked, .looked, .logged ("uploading " ++ archiveName ++ " (" ++ toString archive.size ++
    " bytes) to " ++ service.url)]

/-- **One request is made**, and the service is asked with what happened before it. -/
theorem perform_upload (quiet : hooks.Quiet) (archive : Archive) :
    (upload service format archive).perform hooks session =
      let before := uploadingTrace service archive ++ session.trace
      let sent : Upload := ⟨service.url, format, archive.members⟩
      (received service.url (hooks.service before sent),
        { session with trace := .looked :: .sent sent :: before }) := by
  unfold upload
  rw [perform_bind_ok (perform_log _), perform_bind_ok (perform_checkpoint quiet),
    perform_guarded quiet, perform_request]
  rfl

end Job

/-! ## Part 3 — what sends nothing -/

/-- **What follows the answer of the service.** -/
def Service.finish (service : Service) (resolver : Resolver) (input : JobInput)
    (answer : List ByteArray × Bool) : Job RemoteRun := do
  let body ← Job.receive service.url answer.1 answer.2
  Job.progress 0 (some "extracting result...")
  let extracted ← Job.extract body input.root
  let primary ← Job.inspect fun world => input.primaryConfig world
  let (diagnostics, failed) ← Job.collectLog resolver input.root primary
  Job.progress extractShare (some "starlight generate done")
  pure ⟨diagnostics, extracted, if failed then some (input.root.below logName) else none⟩

/-- **What is made of a remote run**: its findings are published, and it counts unless its log
reports a failure. -/
def Job.conclude (input : JobInput) (format : String) (run : RemoteRun) : Job JobReport := do
  publish run.diagnostics
  match run.failedLog with
  | some path => throw (.generationFailed path)
  | none => pure {
      backend := .remote
      root := input.root
      format := some format
      extracted := run.extracted
      invocations := 1
      warnings := warningCount run.diagnostics }

theorem Service.run_eq (service : Service) (resolver : Resolver) (input : JobInput)
    (format : String) :
    service.run resolver input format =
      Job.bundle input >>= fun archive =>
        Job.upload service format archive >>= service.finish resolver input := rfl

theorem Job.generateRemotely_eq (service : Service) (resolver : Resolver) (hint : Option String)
    (input : JobInput) :
    Job.generateRemotely service resolver hint input =
      Job.checkpoint >>= fun _ => Job.outputFormat hint input >>= fun format =>
        Job.log ("output format: " ++ format) >>= fun _ =>
          service.run resolver input format >>= Job.conclude input format := rfl

namespace Job

theorem adds_bundle (input : JobInput) : Adds Event.NoRequest hooks (bundle input) := by
  have looks : Event.NoRequest .looked := fun _ => nofun
  have reports : ∀ increment message, Adds Event.NoRequest hooks (progress increment message) :=
    adds_progress fun _ _ _ => nofun
  have packs : ∀ plan, Adds Event.NoRequest hooks (guarded (pack reportPacking plan)) :=
    fun plan => (adds_pack looks (fun _ _ => reports _ _) plan).guarded looks
  refine (reports _ _).bind fun _ => ((adds_inspect _).guarded looks).bind fun plan => ?_
  cases plan with
  | nil => exact (adds_throw _).bind fun _ => (packs _).bind fun _ => (reports _ _).bind fun _ =>
      adds_pure _
  | cons first rest => exact (packs _).bind fun _ => (reports _ _).bind fun _ => adds_pure _

/-- **Sending adds one request**, and what is logged and looked at before it. -/
theorem adds_upload {allowed : Event → Prop} (looks : allowed .looked)
    (logs : ∀ line, allowed (.logged line)) {archive : Archive}
    (sends : allowed (.sent ⟨service.url, format, archive.members⟩)) :
    Adds allowed hooks (upload service format archive) := by
  have requests :
      Adds allowed hooks (request ⟨service.url, format, archive.members⟩) :=
    Adds.of_noting sends fun session => by
      rw [perform_request]
      rfl
  exact (adds_emit (logs _)).bind fun _ => (adds_checkpoint looks).bind fun _ =>
    requests.guarded looks

theorem adds_receiveEach (url : String) (broken acknowledged : Bool) (pieces : List ByteArray) :
    Adds Event.NoRequest hooks (receiveEach url broken acknowledged pieces) := by
  have acknowledges : ∀ (already : Bool) (next : Job ByteArray), Adds Event.NoRequest hooks next →
      Adds Event.NoRequest hooks (if !already then acknowledge >>= fun _ => next else next) := by
    intro already next adds
    cases already with
    | false => exact (adds_progress (fun _ _ _ => nofun) _ _).bind fun _ => adds
    | true => exact adds
  induction pieces generalizing acknowledged with
  | nil =>
    refine (Adds.guarded (fun _ => nofun) ?_).bind fun _ =>
      acknowledges acknowledged _ (adds_pure _)
    cases broken with
    | false => exact adds_pure _
    | true => exact adds_throw _
  | cons piece rest ih =>
    exact (adds_checkpoint fun _ => nofun).bind fun _ =>
      acknowledges acknowledged _ ((ih true).bind fun _ => adds_pure _)

/-- Unpacking adds looks at the token. -/
theorem adds_extract {allowed : Event → Prop} (looks : allowed .looked) (archive : ByteArray)
    (root : Path) : Adds allowed hooks (extract archive root) := by
  have places : ∀ members, Adds allowed hooks (placeMembers root members) := by
    intro members
    induction members with
    | nil => exact adds_pure _
    | cons member rest ih =>
      exact (adds_checkpoint looks).bind fun _ => (adds_onDisk _).bind fun _ =>
        ih.bind fun _ => adds_pure _
  unfold extract
  split
  · exact adds_throw _
  · exact places _

/-- Reading the log adds the lines of its block. -/
theorem adds_collectLog {allowed : Event → Prop} (logs : ∀ line, allowed (.logged line))
    (resolver : Resolver) (root primary : Path) :
    Adds allowed hooks (collectLog resolver root primary) := by
  refine (adds_inspect _).bind fun found => ?_
  cases found with
  | none => exact adds_pure _
  | some content =>
    exact ((adds_onDisk _).attempt.bind fun _ => adds_pure _).bind fun _ =>
      (adds_logLines logs _).bind fun _ =>
        (Adds.of_trace_eq fun _ => rfl).bind fun _ => adds_pure _

/-- **What follows the answer sends nothing.** -/
theorem adds_finish (answer : List ByteArray × Bool) :
    Adds Event.NoRequest hooks (service.finish resolver input answer) := by
  have reports : ∀ increment message, Adds Event.NoRequest hooks (progress increment message) :=
    adds_progress fun _ _ _ => nofun
  exact ((adds_receiveEach _ _ _ _).bind fun _ => (reports _ _).bind fun _ => adds_pure _).bind
    fun _ => (reports _ _).bind fun _ => (adds_extract (fun _ => nofun) _ _).bind fun _ =>
      (adds_inspect _).bind fun _ => (adds_collectLog (fun _ _ => nofun) _ _ _).bind fun _ =>
        (reports _ _).bind fun _ => adds_pure _

theorem adds_conclude (run : RemoteRun) :
    Adds Event.NoRequest hooks (conclude input format run) := by
  refine (adds_publish _).bind fun _ => ?_
  cases run.failedLog with
  | none => exact adds_pure _
  | some path => exact adds_throw _

end Job

/-! ## Part 4 — what an answer comes to -/

namespace Job

/-- The body that pieces make up. -/
def joined (pieces : List ByteArray) : ByteArray := pieces.foldr (· ++ ·) ByteArray.empty

theorem perform_receiveEach (quiet : hooks.Quiet) (url : String) (acknowledged : Bool)
    (pieces : List ByteArray) :
    ∃ trace, (receiveEach url false acknowledged pieces).perform hooks session =
      (.ok (joined pieces), { session with trace }) := by
  induction pieces generalizing acknowledged session with
  | nil =>
    rw [receiveEach, perform_bind_ok (perform_guarded quiet _)]
    cases acknowledged with
    | false => exact ⟨_, rfl⟩
    | true => exact ⟨_, rfl⟩
  | cons piece rest ih =>
    rw [receiveEach, perform_bind_ok (perform_checkpoint quiet)]
    cases acknowledged with
    | false =>
      obtain ⟨trace, goes⟩ := @ih (session.looked.noting
        (.progressed receiveShare (some "receiving result from server..."))) true
      refine ⟨trace, ?_⟩
      show (acknowledge >>= fun _ => receiveEach url false true rest >>= fun later =>
        pure (piece ++ later)).perform hooks session.looked = _
      rw [acknowledge, perform_bind_ok (perform_progress (by decide) _), perform_bind_ok goes]
      rfl
    | true =>
      obtain ⟨trace, goes⟩ := @ih session.looked true
      refine ⟨trace, ?_⟩
      show (receiveEach url false true rest >>= fun later => pure (piece ++ later)).perform hooks
        session.looked = _
      rw [perform_bind_ok goes]
      rfl

/-- **A body that does not break off is received whole.** -/
theorem perform_receive (quiet : hooks.Quiet) (url : String) (pieces : List ByteArray) :
    ∃ trace, (receive url pieces false).perform hooks session =
      (.ok (joined pieces), { session with trace }) := by
  obtain ⟨trace, goes⟩ := @perform_receiveEach hooks session quiet url false pieces
  refine ⟨.progressed downloadShare (some "result received") :: trace, ?_⟩
  rw [receive, perform_bind_ok goes, perform_bind_ok (perform_progress (by decide) _)]
  rfl

end Job

/-- The findings of a log, if there is one. -/
def OutputReader.findingsOf (reader : OutputReader) : Option String → List Diagnostic
  | none => []
  | some text => reader.parse (outputBlock text)

/-- **A log reports a failure**: it is there, and has an error tag. -/
def ReportsFailure (log : Option String) : Prop := ∃ text, log = some text ∧ HasErrorTag text

/-- **A log is taken away**, if there is one. -/
def LogTaken (path : Path) (left after : World) : Option String → Prop
  | none => after = left
  | some _ => left.removeFile path = .ok after

namespace LogTaken

variable {after : World} (taken : LogTaken path left after log)

include taken

/-- Afterwards there is no log. -/
theorem absent (found : Job.logText? left path = .ok log) :
    after.read path = .error .notFound := by
  cases log with
  | some text => exact World.read_removeFile taken
  | none =>
    obtain rfl : after = left := taken
    unfold Job.logText? at found
    split at found
    · cases found
    · next missing => exact missing
    · cases found

/-- Everything else is as it was. -/
theorem others :
    after.cwd = left.cwd ∧ ∀ place, (∀ node, left.find path ≠ .ok (place, node)) →
      after.node? place = left.node? place := by
  cases log with
  | none =>
    obtain rfl : after = left := taken
    exact ⟨rfl, fun _ _ => rfl⟩
  | some text =>
    obtain ⟨place, bytes, found, rfl⟩ := World.removeFile_erases taken
    refine ⟨rfl, fun other elsewhere => ?_⟩
    have different : other ≠ place := fun same => elsewhere _ (same ▸ found)
    rw [World.node?_eraseTree_file (World.find_file found), if_neg different]

end LogTaken

namespace Job

theorem removeFile_of_logText? {text : String} (found : logText? world path = .ok (some text)) :
    ∃ after, world.removeFile path = .ok after := by
  unfold logText? World.read at found
  unfold World.removeFile
  cases leads : world.find path with
  | error fault =>
    rw [leads] at found
    cases fault <;> cases found
  | ok there =>
    obtain ⟨place, node⟩ := there
    cases node with
    | file bytes => exact ⟨_, rfl⟩
    | directory =>
      rw [leads] at found
      cases found

/-- **The log is read and taken away**; it reports a failure exactly if it has an error tag. -/
theorem perform_collectLog {root primary : Path} (session : Session)
    (found : logText? session.world (root.below logName) = .ok log) :
    ∃ after trace failed, LogTaken (root.below logName) session.world after log ∧
      (failed = true ↔ ReportsFailure log) ∧
      (collectLog resolver root primary).perform hooks session =
        (.ok ((OutputReader.mk after resolver root primary).findingsOf log, failed),
          ⟨after, trace, session.findings⟩) := by
  have asked : (inspect fun world => logText? world (root.below logName)).perform hooks session =
      (.ok log, session) := by
    rw [perform_inspect, found]
  unfold collectLog
  cases log with
  | none =>
    refine ⟨session.world, session.trace, false, rfl, ?_, ?_⟩
    · exact iff_of_false Bool.false_ne_true fun ⟨_, nothing, _⟩ => nomatch nothing
    · rw [perform_bind_ok asked]
      rfl
  | some text =>
    obtain ⟨after, removed⟩ := removeFile_of_logText? found
    refine ⟨after, Trace.printed (outputBlock text) ++ session.trace, _, removed,
      (failed_iff (OutputReader.mk after resolver root primary) text).trans ?_, ?_⟩
    · exact ⟨fun tagged => ⟨text, rfl, tagged⟩,
        fun ⟨_, same, tagged⟩ => Option.some.inj same ▸ tagged⟩
    · rw [perform_bind_ok asked]
      show (discard _ >>= fun _ => logLines (outputBlock text) >>= fun _ => _).perform hooks _ = _
      rw [perform_bind_ok (perform_discard removed), perform_bind_ok (perform_logLines _)]
      rfl

end Job

/-! ## Part 5 — the whole job -/

/-- **Where directories and files only come, no config is lost**, so there is one that findings
without a place belong to. -/
theorem primaryConfig_changed (resolved : JobInput.resolve world path = .ok input)
    (changed : World.ChangedBelow [] world left) :
    ∃ primary, input.primaryConfig left = .ok primary := by
  have some_config : input.configFiles left ≠ [] := by
    have before := JobInput.configFiles_ne_nil resolved
    cases input with
    | shader target => exact List.cons_ne_nil _ _
    | config root path => exact List.cons_ne_nil _ _
    | directory root =>
      intro nothing
      refine before (List.map_eq_nil_iff.mpr ?_)
      by_contra listed
      exact changed.filesNamed listed (List.map_eq_nil_iff.mp nothing)
  unfold JobInput.primaryConfig
  cases listed : input.configFiles left with
  | nil => exact absurd listed some_config
  | cons first rest => exact ⟨first, rfl⟩

/-- **By unpacking, directories and files only come.** -/
theorem unpack_changes {archive : ByteArray} {root : Path}
    (unpacked : (Job.unpack archive root world).2 = left) : World.ChangedBelow [] world left := by
  rw [← unpacked, Job.unpack]
  split
  · exact World.ChangedBelow.refl _ _
  · next members _ =>
    refine Zip.placeAll_changes (fun member _ => ?_) rfl
    exact fun _ other _ later _ => World.confines_nil other later

/-- **Unpacking loses no config.** -/
theorem primaryConfig_unpacked {archive : ByteArray} {root : Path}
    (resolved : JobInput.resolve world path = .ok input)
    (unpacked : (Job.unpack archive root world).2 = left) :
    ∃ primary, input.primaryConfig left = .ok primary :=
  primaryConfig_changed resolved (unpack_changes unpacked)

/-- **Unpacking depends on the files only.** -/
theorem unpack_of_extract {archive : ByteArray} {root : Path} {unpacked : Session}
    {outcome : Except JobError (List Path)} (quiet : hooks.Quiet)
    (extracted : (Job.extract archive root).perform hooks session = (outcome, unpacked)) :
    Job.unpack archive root session.world = (outcome, unpacked.world) := by
  obtain ⟨looks, goes⟩ : ∃ looks, (Job.extract archive root).perform hooks session =
      ((Job.unpack archive root session.world).1, { session with
        world := (Job.unpack archive root session.world).2
        trace := List.replicate looks .looked ++ session.trace }) := Job.perform_extract quiet
  rw [extracted] at goes
  have first : outcome = (Job.unpack archive root session.world).1 := congrArg Prod.fst goes
  have second : unpacked.world = (Job.unpack archive root session.world).2 :=
    congrArg (fun result => result.2.world) goes
  rw [first, second]

theorem extract_of_unpack {archive : ByteArray} {root : Path}
    {outcome : Except JobError (List Path)} (quiet : hooks.Quiet)
    (unpacks : Job.unpack archive root session.world = (outcome, left)) :
    ∃ trace, (Job.extract archive root).perform hooks session =
      (outcome, ⟨left, trace, session.findings⟩) := by
  obtain ⟨looks, goes⟩ : ∃ looks, (Job.extract archive root).perform hooks session =
      ((Job.unpack archive root session.world).1, { session with
        world := (Job.unpack archive root session.world).2
        trace := List.replicate looks .looked ++ session.trace }) := Job.perform_extract quiet
  rw [unpacks] at goes
  exact ⟨_, goes⟩

/-- **An answer whose archive can be unpacked**: its log is collected, and the rest is as unpacking
left it. -/
theorem perform_finish (service : Service) (resolver : Resolver) {pieces : List ByteArray}
    (quiet : hooks.Quiet)
    (resolved : JobInput.resolve session.world path = .ok input)
    (unpacks : Job.unpack (Job.joined pieces) input.root session.world = (.ok paths, left))
    (found : Job.logText? left (input.root.below logName) = .ok log) :
    ∃ primary after trace failed, input.primaryConfig left = .ok primary ∧
      LogTaken (input.root.below logName) left after log ∧ (failed = true ↔ ReportsFailure log) ∧
      (service.finish resolver input (pieces, false)).perform hooks session =
        (.ok ⟨(OutputReader.mk after resolver input.root primary).findingsOf log, paths,
          if failed then some (input.root.below logName) else none⟩,
          ⟨after, trace, session.findings⟩) := by
  obtain ⟨primary, first⟩ := primaryConfig_unpacked resolved (congrArg Prod.snd unpacks)
  obtain ⟨received, receives⟩ : ∃ trace, (Job.receive service.url pieces false).perform hooks
      session = (.ok (Job.joined pieces), { session with trace }) :=
    Job.perform_receive quiet service.url pieces
  obtain ⟨extracted, extracts⟩ : ∃ trace, (Job.extract (Job.joined pieces) input.root).perform hooks
      ⟨session.world, .progressed 0 (some "extracting result...") :: received, session.findings⟩ =
        (.ok paths, ⟨left, trace, session.findings⟩) :=
    extract_of_unpack quiet unpacks
  obtain ⟨after, collected, failed, taken, reports, collects⟩ :
      ∃ after trace failed, LogTaken (input.root.below logName) left after log ∧
        (failed = true ↔ ReportsFailure log) ∧
        (Job.collectLog resolver input.root primary).perform hooks
          ⟨left, extracted, session.findings⟩ =
            (.ok ((OutputReader.mk after resolver input.root primary).findingsOf log, failed),
              ⟨after, trace, session.findings⟩) :=
    Job.perform_collectLog ⟨left, extracted, session.findings⟩ found
  refine ⟨primary, after, .progressed extractShare (some "starlight generate done") :: collected,
    failed, first, taken, reports, ?_⟩
  have asked : (Job.inspect fun world => input.primaryConfig world).perform hooks
      ⟨left, extracted, session.findings⟩ = (.ok primary, ⟨left, extracted, session.findings⟩) := by
    rw [Job.perform_inspect, first]
  unfold Service.finish
  rw [Job.perform_bind_ok receives, Job.perform_bind_ok (Job.perform_progress Rat.le_refl _)]
  show (Job.extract (Job.joined pieces) input.root >>= fun _ => _).perform hooks
    ⟨session.world, .progressed 0 (some "extracting result...") :: received, session.findings⟩ = _
  rw [Job.perform_bind_ok extracts, Job.perform_bind_ok asked, Job.perform_bind_ok collects]
  dsimp only
  rw [Job.perform_bind_ok (Job.perform_progress (by decide) _)]
  rfl

theorem Job.perform_conclude (run : RemoteRun) :
    (Job.conclude input format run).perform hooks session =
      (match run.failedLog with
        | some path => .error (.generationFailed path)
        | none => .ok
          ⟨.remote, input.root, some format, run.extracted, 1, warningCount run.diagnostics⟩,
        { session with findings := session.findings.replace run.diagnostics }) := by
  unfold Job.conclude
  rw [Job.perform_bind_ok (Job.perform_publish _)]
  cases run.failedLog with
  | none => rfl
  | some path => rfl

/-- **How a job ends whose answer was unpacked into a world**, with the log that was found there:
`records` are the findings of the log. -/
structure Collected (generator : Generator) (input : JobInput) (format : String)
    (paths : List Path) (left : World) (log : Option String) (records : List Diagnostic)
    (outcome : Except JobError JobReport × Session) : Prop where
  fails : ReportsFailure log →
    outcome.1 = .error (.generationFailed (input.root.below logName))
  succeeds : ¬ ReportsFailure log →
    outcome.1 = .ok ⟨.remote, input.root, some format, paths, 1, warningCount records⟩
  published : outcome.2.findings = generator.findings.replace records
  taken : LogTaken (input.root.below logName) left outcome.2.world log
  absent : outcome.2.world.read (input.root.below logName) = .error .notFound
  others : outcome.2.world.cwd = left.cwd ∧
    ∀ place, (∀ node, left.find (input.root.below logName) ≠ .ok (place, node)) →
      outcome.2.world.node? place = left.node? place

/-- **A job whose answer can be unpacked ends so.** -/
theorem finish_collects {generator : Generator} {pieces : List ByteArray} (quiet : hooks.Quiet)
    (resolved : JobInput.resolve session.world path = .ok input)
    (unpacks : Job.unpack (Job.joined pieces) input.root session.world = (.ok paths, left))
    (found : Job.logText? left (input.root.below logName) = .ok log) :
    let outcome := (service.finish resolver input (pieces, false) >>=
      Job.conclude input format).perform hooks session
    ∃ primary, input.primaryConfig left = .ok primary ∧
      Collected generator input format paths left log
        ((OutputReader.mk outcome.2.world resolver input.root primary).findingsOf log) outcome := by
  intro outcome
  obtain ⟨primary, after, trace, failed, first, taken, reports, finishes⟩ :=
    perform_finish service resolver quiet resolved unpacks found
  have ends : outcome = _ := (Job.perform_bind_ok finishes).trans (Job.perform_conclude _)
  have world : outcome.2.world = after := by rw [ends]
  refine ⟨primary, first, ?_⟩
  rw [world]
  refine ⟨fun failure => ?_, fun fine => ?_, ?_, ?_, ?_, ?_⟩
  · rw [ends, reports.mpr failure]
    rfl
  · rw [ends, Bool.eq_false_iff.mpr fun yes => fine (reports.mp yes)]
    rfl
  · rw [ends]
    rfl
  · rw [world]
    exact taken
  · rw [world]
    exact taken.absent found
  · rw [world]
    exact taken.others

/-- **A remote job comes to a run of the service**: the format is known then, and nothing was sent
or reported before. -/
theorem generate_begins {generator : Generator} {request : JobRequest} (quiet : hooks.Quiet)
    (selected : Backend.select generator.settings generator.resolver generator.timeout =
      .ok (.remote service))
    (requested : Job.requestedPath generator.resolver request.path = .ok path)
    (resolved : JobInput.resolve world path = .ok input) :
    ∃ format trace, ((Job.outputFormat request.format input).perform hooks
        (Session.fresh world)).1 = .ok format ∧
      Trace.uploads trace = [] ∧ Trace.progress trace = [] ∧
      generator.generate request hooks world =
        (service.run generator.resolver input format >>= Job.conclude input format).perform hooks
          ⟨world, trace, generator.findings.clear⟩ := by
  obtain ⟨format, asked, noUploads, noProgress, formats⟩ :=
    Job.perform_outputFormat quiet request.format input world
  have formatted := formats
    ⟨world, [.looked, .looked, .looked, .looked], generator.findings.clear⟩ rfl
  refine ⟨format, [.logged ("output format: " ++ format)] ++
    (asked ++ [.looked, .looked, .looked, .looked]), by rw [formats _ rfl], ?_, ?_, ?_⟩
  · rw [Trace.uploads_append, Trace.uploads_append, noUploads]
    rfl
  · rw [Trace.progress_append, Trace.progress_append, noProgress]
    rfl
  · refine (generate_resolved quiet selected requested resolved).trans ?_
    dsimp only
    rw [Job.generateRemotely_eq, Job.perform_bind_ok (Job.perform_checkpoint quiet)]
    exact (Job.perform_bind_ok formatted).trans (Job.perform_bind_ok (Job.perform_log _))

/-- A run whose plan cannot be packed sends nothing. -/
theorem run_fails (service : Service) (resolver : Resolver) (format : String) (session : Session)
    {fault : JobError} (quiet : hooks.Quiet)
    (failed : input.archived session.world = .error fault) :
    ∃ trace : Trace, trace.uploads = session.trace.uploads ∧
      (service.run resolver input format >>= Job.conclude input format).perform hooks session =
        (.error fault, { session with trace }) := by
  obtain ⟨trace, stopped⟩ := Job.perform_bundle_error quiet failed
  have adds : Job.Adds Event.NoRequest hooks (Job.bundle input) := Job.adds_bundle input
  obtain ⟨events, traced, none⟩ := adds.sends_nothing session
  rw [stopped] at traced
  have shape : trace = events ++ session.trace := traced
  refine ⟨trace, ?_, ?_⟩
  · rw [shape, Trace.uploads_append, none, List.append_nil]
  · rw [Service.run_eq, bind_assoc, Job.perform_bind_error stopped]

/-- **A run whose plan was packed makes one request**, after packing was reported. -/
theorem run_sends (service : Service) (resolver : Resolver) (format : String) (session : Session)
    {plan : List ArchiveEntry} {members : List (String × ByteArray)} (quiet : hooks.Quiet)
    (planned : input.plan session.world = .ok plan)
    (some_entry : plan ≠ [])
    (gathered : plan.mapM (ArchiveEntry.member session.world) = .ok members) :
    ∃ before : Trace, before.uploads = session.trace.uploads ∧
      before.progress = session.trace.progress ++ (0, some "creating zip archive...") ::
        packingReports (expectedSize session.world plan) 0 members ∧
      (service.run resolver input format >>= Job.conclude input format).perform hooks session =
        (Job.settle (Job.received service.url
            (hooks.service before ⟨service.url, format, members⟩)) >>= fun answer =>
          service.finish resolver input answer >>= Job.conclude input format).perform hooks
            ⟨session.world, .looked :: .sent ⟨service.url, format, members⟩ :: before,
              session.findings⟩ := by
  have packs := Job.perform_bundle_ok quiet planned some_entry gathered
  refine ⟨Job.uploadingTrace service ⟨members⟩ ++
    (Job.packingTrace (expectedSize session.world plan) members ++ session.trace), ?_, ?_, ?_⟩
  · rw [Trace.uploads_append, Trace.uploads_append, Job.uploads_packingTrace, List.append_nil]
    exact List.append_nil _
  · rw [Trace.progress_append, Trace.progress_append, Job.progress_packingTrace]
    exact List.append_nil _
  · rw [Service.run_eq, bind_assoc, Job.perform_bind_ok packs, bind_assoc,
      Job.perform_bind_settle (Job.perform_upload quiet _)]

/-- **A remote job.** Nothing is sent unless all of the plan could be read; then one request is,
once packing was reported to its end, and it carries the format and the members of the plan. An
answer that can be unpacked, with the log absent or a file, ends as `Collected` says. -/
theorem generate_remotely {generator : Generator} {request : JobRequest} (quiet : hooks.Quiet)
    (selected : Backend.select generator.settings generator.resolver generator.timeout =
      .ok (.remote service))
    (requested : Job.requestedPath generator.resolver request.path = .ok path)
    (resolved : JobInput.resolve world path = .ok input) :
    let outcome := generator.generate request hooks world
    ∃ format, ((Job.outputFormat request.format input).perform hooks (Session.fresh world)).1 =
        .ok format ∧
      ((∃ fault, input.archived world = .error fault ∧ outcome.1 = .error fault ∧
          outcome.2.world = world ∧ outcome.2.trace.uploads = []) ∨
        ∃ plan members before after, input.plan world = .ok plan ∧ plan ≠ [] ∧
          plan.mapM (ArchiveEntry.member world) = .ok members ∧
          outcome.2.trace = after ++ .sent ⟨service.url, format, members⟩ :: before ∧
          Trace.uploads after = [] ∧ Trace.uploads before = [] ∧
          Trace.progress before = (0, some "creating zip archive...") ::
            packingReports (expectedSize world plan) 0 members ∧
          ∀ status pieces paths unpacked log,
            hooks.service before ⟨service.url, format, members⟩ = .answered status pieces false →
            ¬ (400 ≤ status ∧ status < 600) →
            (Job.extract (Job.joined pieces) input.root).perform hooks (Session.fresh world) =
              (.ok paths, unpacked) →
            Job.logText? unpacked.world (input.root.below logName) = .ok log →
            ∃ primary, input.primaryConfig unpacked.world = .ok primary ∧
              Collected generator input format paths unpacked.world log
                ((OutputReader.mk outcome.2.world generator.resolver input.root primary).findingsOf
                  log) outcome) := by
  intro outcome
  obtain ⟨format, trace, formatted, noUploads, noProgress, begins⟩ :=
    generate_begins quiet selected requested resolved
  refine ⟨format, formatted, ?_⟩
  cases gathered : input.archived world with
  | error fault =>
    obtain ⟨stopped, uploads, fails⟩ := run_fails service generator.resolver format
      ⟨world, trace, generator.findings.clear⟩ quiet gathered
    have ends := begins.trans fails
    refine .inl ⟨fault, rfl, congrArg Prod.fst ends, congrArg (fun outcome => outcome.2.world) ends,
      (congrArg (fun outcome => outcome.2.trace.uploads) ends).trans ?_⟩
    exact uploads.trans noUploads
  | ok members =>
    obtain ⟨plan, planned, some_entry, gathered⟩ := JobInput.archived_ok gathered
    obtain ⟨before, uploads, progress, runs⟩ := run_sends service generator.resolver format
      ⟨world, trace, generator.findings.clear⟩ quiet planned some_entry gathered
    have ends := begins.trans runs
    obtain ⟨later, traced, none⟩ := ((Job.adds_settle _).bind fun answer =>
      (Job.adds_finish answer).bind Job.adds_conclude).sends_nothing
        (⟨world, .looked :: .sent ⟨service.url, format, members⟩ :: before,
          generator.findings.clear⟩ : Session)
    refine .inr ⟨plan, members, before, later ++ [.looked], planned, some_entry, gathered, ?_, ?_,
      uploads.trans noUploads, progress.trans (congrArg (· ++ _) noProgress), ?_⟩
    · refine (congrArg (fun outcome => outcome.2.trace) ends).trans (traced.trans ?_)
      rw [List.append_assoc]
      rfl
    · rw [Trace.uploads_append, none]
      rfl
    · intro status pieces paths unpacked log answered accepted extracted found
      have body : Job.received service.url
          (hooks.service before ⟨service.url, format, members⟩) = .ok (pieces, false) := by
        rw [answered]
        exact if_neg accepted
      rw [body, Job.perform_bind_ok (Job.perform_settle _)] at ends
      have unpacks : Job.unpack (Job.joined pieces) input.root world =
          (.ok paths, unpacked.world) := unpack_of_extract quiet extracted
      have same : outcome = _ := ends
      rw [same]
      exact finish_collects quiet resolved unpacks found

/-! ## Part 6 — a log with an error -/

/-- The text of a config with one shader. -/
def smallText : String := "\x7b\"data\":[\x7b\"vsh\":\"x.vert\",\"fsh\":\"x.vert\"\x7d]\x7d"

/-- The config in that text. -/
def smallConfig : ConfigFile := ⟨none, none, [⟨none, none, "x.vert", "x.vert", none, []⟩], []⟩

/-- An address of a service is enough to select it. -/
theorem select_service {settings : Settings} {resolver : Resolver} {timeout : Nat}
    (afar : settings.usesLocalCompiler = false)
    (valid : (Service.at? settings.apiUrl).toOption.isSome = true) :
    ∃ service, Backend.select settings resolver timeout = .ok (.remote service) := by
  cases made : Service.at? settings.apiUrl with
  | error fault =>
    rw [made] at valid
    cases valid
  | ok service =>
    refine ⟨service, ?_⟩
    rw [Backend.select, afar, made]
    rfl

theorem usable_job : isEntryName "job" = true := by decide

theorem usable_config : isEntryName "x.sl.json" = true := by decide

theorem usable_shader : isEntryName "x.vert" = true := by decide

/-- A world with that config and its shader. -/
def smallWorld : World :=
  World.ofNodes [] [([⟨"job", usable_job⟩], .directory),
    ([⟨"x.sl.json", usable_config⟩, ⟨"job", usable_job⟩], .file smallText.toUTF8),
    ([⟨"x.vert", usable_shader⟩, ⟨"job", usable_job⟩], .file ⟨#[]⟩)] (by decide) (by decide)

/-- Hooks whose service sends a log with an error. -/
def smallHooks : Hooks :=
  ⟨.never, fun _ => none, fun _ _ world => .ok (.timedOut, world),
    fun _ _ => .answered 200 [Zip.write [(".starlight.log", "an [error]".toUTF8)]] false⟩

theorem small_load : ConfigFile.load smallWorld ⟨"/job/x.sl.json"⟩ = .ok smallConfig := by
  have bytes : smallWorld.read ⟨"/job/x.sl.json"⟩ = .ok smallText.toUTF8 := by rfl
  have text : String.fromUTF8? smallText.toUTF8 = some smallText := dif_pos smallText.isValidUTF8
  have parsed : ConfigFile.parse smallText = .ok smallConfig := by rfl
  rw [ConfigFile.load, World.readText, bytes]
  dsimp only
  rw [text]
  show (ConfigFile.parse smallText).mapError _ = _
  rw [parsed]
  rfl

theorem small_resolve : JobInput.resolve smallWorld ⟨"/job/x.sl.json"⟩ =
    .ok (.config ⟨"/job"⟩ ⟨"/job/x.sl.json"⟩) := by
  have there : smallWorld.find? ⟨"/job/x.sl.json"⟩ =
      some ([⟨"x.sl.json", by decide⟩, ⟨"job", by decide⟩], .file smallText.toUTF8) := by rfl
  have valid : validateConfig smallWorld ⟨"/job/x.sl.json"⟩ ⟨"/job"⟩ = .ok ⟨⟩ := by
    rw [validateConfig, small_load]
    rfl
  have parent : directoryOf ⟨"/job/x.sl.json"⟩ = ⟨"/job"⟩ := by rfl
  have named : Path.fileName? ⟨"/job/x.sl.json"⟩ = some "x.sl.json" := by rfl
  rw [JobInput.resolve, there]
  dsimp only
  rw [JobInput.resolveFile, named]
  dsimp only
  rw [parent, if_pos (by decide), valid]
  rfl

theorem small_archived :
    JobInput.archived smallWorld (.config ⟨"/job"⟩ ⟨"/job/x.sl.json"⟩) =
      .ok [("x.sl.json", smallText.toUTF8), ("x.vert", ⟨#[]⟩)] := by
  have shaders : discoverShaders smallWorld ⟨"/job"⟩ = [⟨"x.vert"⟩] :=
    filesNamed_singleton (by decide +kernel)
  have named : fileNameOf ⟨"/job/x.sl.json"⟩ = .ok "x.sl.json" := by rfl
  have flat : flattenEntries smallWorld ⟨"/job"⟩ ⟨"/job/x.sl.json"⟩ smallConfig.entries =
      .ok (smallConfig.entries, []) := by rfl
  have candidates : JobInput.candidates smallWorld (.config ⟨"/job"⟩ ⟨"/job/x.sl.json"⟩) =
      .ok [⟨"x.sl.json", .file ⟨"/job/x.sl.json"⟩⟩, ⟨"x.vert", .file ⟨"/job/x.vert"⟩⟩] := by
    simp only [JobInput.candidates, configCandidates, small_load, named, bind, Except.bind]
    rw [flat, shaders]
    rfl
  rw [JobInput.archived, JobInput.plan, candidates]
  rfl

/-- An error tag in small letters fails the job, and its log is gone. -/
theorem generate_remotely_error :
    let outcome := (Generator.fresh ⟨"", "http://localhost:9/"⟩ ⟨⟨"/"⟩, ⟨[], none⟩⟩
      standardTimeout).generate ⟨"/job/x.sl.json", some "cpp"⟩ smallHooks smallWorld
    outcome.1 = .error (.generationFailed ⟨"/job/.starlight.log"⟩) ∧
      outcome.2.world.read ⟨"/job/.starlight.log"⟩ = .error .notFound := by
  intro outcome
  obtain ⟨service, selected⟩ : ∃ service, Backend.select ⟨"", "http://localhost:9/"⟩
      ⟨⟨"/"⟩, ⟨[], none⟩⟩ standardTimeout = .ok (.remote service) := by
    exact select_service (by decide +kernel) (by decide +kernel)
  have extracts : ((Job.extract (Job.joined
      [Zip.write [(".starlight.log", "an [error]".toUTF8)]]) ⟨"/job"⟩).perform smallHooks
        (Session.fresh smallWorld)).1.toOption = some [⟨"/job/.starlight.log"⟩] := by
    decide +kernel
  have logged : (Job.logText? ((Job.extract (Job.joined
      [Zip.write [(".starlight.log", "an [error]".toUTF8)]]) ⟨"/job"⟩).perform smallHooks
        (Session.fresh smallWorld)).2.world ⟨"/job/.starlight.log"⟩).toOption =
          some (some "an [error]") := by
    decide +kernel
  rcases ran : (Job.extract (Job.joined [Zip.write [(".starlight.log", "an [error]".toUTF8)]])
    ⟨"/job"⟩).perform smallHooks (Session.fresh smallWorld) with ⟨result, unpacked⟩
  rw [ran] at extracts logged
  obtain ⟨format, -, fault | sent⟩ := @generate_remotely smallHooks smallWorld ⟨"/job/x.sl.json"⟩
    (.config ⟨"/job"⟩ ⟨"/job/x.sl.json"⟩) service (Generator.fresh ⟨"", "http://localhost:9/"⟩
      ⟨⟨"/"⟩, ⟨[], none⟩⟩ standardTimeout) ⟨"/job/x.sl.json", some "cpp"⟩ (fun _ => rfl) selected
      (by cbv) small_resolve
  · obtain ⟨error, failed, -⟩ := fault
    rw [small_archived] at failed
    cases failed
  · obtain ⟨plan, members, before, after, -, -, -, -, -, -, -, answers⟩ := sent
    have place : Path.below ⟨"/job"⟩ logName = ⟨"/job/.starlight.log"⟩ := by decide +kernel
    have found : Job.logText? unpacked.world (Path.below ⟨"/job"⟩ logName) =
        .ok (some "an [error]") := by
      rw [place]
      cases held : Job.logText? unpacked.world ⟨"/job/.starlight.log"⟩ with
      | error fault =>
        rw [held] at logged
        cases logged
      | ok log =>
        rw [held] at logged
        exact congrArg Except.ok (Option.some.inj logged)
    have tagged : HasErrorTag "an [error]" :=
      ⟨"an ".toList, "error".toList, [], by decide, by decide⟩
    cases result with
    | error fault => cases extracts
    | ok paths =>
      obtain ⟨primary, -, collected⟩ := answers 200 _ paths unpacked _ rfl (by decide) ran found
      have fails := collected.fails ⟨_, rfl, tagged⟩
      have absent := collected.absent
      rw [← place]
      exact ⟨fails, absent⟩

end ShaderForge
