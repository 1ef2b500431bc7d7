/-
**Names that an archive may have.**

The entries of a plan get their names in three ways: one name is fixed, a file that stands alone is
sent under its file name, whatever text led to it, and a file found below a root under the names on
its way (`filedName`). A file name is a name in a path and so never empty, `.` or `..`, and holds
no slash (`Path.mem_names`), and the name of a file that was found is put together from such names.
So every name of a plan has proper parts between its slashes (`IsMemberName`). Since a plan keeps
one entry of each name, no two members share one (`AreMemberNames`).

What is sent has the names of a plan. A request is made in one place of a remote job, after its plan
was packed whole, and nowhere in a local one; all other steps add other events to the trace. With
one law for each step (`Job.sendsNamed_run`, `Job.sendsNamed_generates`), every request of every job
has such names, under every token and whatever the prompt, the compiler and the service do
(`member_names`).
-/

import ShaderForge.Proofs.Confinement
import ShaderForge.Proofs.JobEnds
import ShaderForge.Proofs.PlanClashes

namespace ShaderForge

variable {hooks : Hooks} {session : Session} {world : World} {path root : Path} {input : JobInput}
  {plan candidates : List ArchiveEntry} {entry : ArchiveEntry} {name : String}

/-! ## Part 1 — names and their parts -/

/-- **A name that a member may have**: it is not empty, and neither is any part between its slashes,
and none of them is `.` or `..`. -/
structure IsMemberName (name : String) : Prop where
  nonempty : name ≠ ""
  parts : ∀ part ∈ Text.pieces '/' name.toList, part ≠ [] ∧ part ≠ ['.'] ∧ part ≠ ['.', '.']

instance (name : String) : Decidable (IsMemberName name) :=
  decidable_of_iff
    (name ≠ "" ∧ ∀ part ∈ Text.pieces '/' name.toList,
      part ≠ [] ∧ part ≠ ['.'] ∧ part ≠ ['.', '.'])
    ⟨fun ⟨nonempty, parts⟩ => ⟨nonempty, parts⟩, fun proper => ⟨proper.nonempty, proper.parts⟩⟩

namespace IsMemberName

/-- Names in a path with slashes between them make such a name. -/
theorem of_names {names : List String}
    (shape : Text.pieces '/' name.toList = names.map String.toList)
    (proper : ∀ part ∈ names, part ∈ path.names) : IsMemberName name := by
  have parts : ∀ part ∈ Text.pieces '/' name.toList,
      part ≠ [] ∧ part ≠ ['.'] ∧ part ≠ ['.', '.'] := by
    intro part among
    rw [shape] at among
    obtain ⟨text, member, rfl⟩ := List.mem_map.mp among
    exact (Path.mem_names (proper text member)).2
  refine ⟨?_, parts⟩
  rintro rfl
  exact (parts [] List.mem_cons_self).1 rfl

/-- **A file name**, of whatever path. -/
theorem of_fileName? (named : path.fileName? = some name) : IsMemberName name := by
  obtain ⟨init, names⟩ := names_of_fileName? named
  have among : name ∈ path.names := by
    rw [names]
    exact List.mem_append_right _ List.mem_cons_self
  have single : Text.pieces '/' name.toList = [name].map String.toList :=
    Text.pieces_of_notMem (Path.mem_names among).1
  exact of_names single fun part member => List.mem_singleton.mp member ▸ among

/-- **The name under which a file is filed** that was found below a root. -/
theorem of_filedName {wanted : String → Bool} (listed : path ∈ filesNamed wanted world root) :
    IsMemberName (filedName path) := by
  obtain ⟨node, -, -, named⟩ := mem_filesNamed listed
  have some_name : path.names ≠ [] := by
    unfold hasName at named
    split at named
    · next last found =>
      obtain ⟨init, names⟩ := names_of_fileName? found
      rw [names]
      exact List.append_ne_nil_of_right_ne_nil _ (List.cons_ne_nil _ _)
    · cases named
  exact of_names (pieces_filedName some_name) fun _ => id

/-- **Such a name stays below the directory that it is put in**, at every part. -/
theorem inside (proper : IsMemberName name) :
    Path.isAbsolute ⟨name⟩ = false ∧ Zip.staysBelow 0 (Path.components ⟨name⟩) = true := by
  have relative : Path.isAbsolute ⟨name⟩ = false := by
    rw [← Bool.not_eq_true, Path.isAbsolute_iff]
    intro slash
    obtain ⟨rest, shape⟩ := List.head?_eq_some_iff.mp slash
    refine (proper.parts [] ?_).1 rfl
    rw [shape]
    exact List.mem_cons_self
  refine ⟨relative, ?_⟩
  rw [Zip.staysBelow_components, relative, Bool.not_false, Bool.true_and]
  exact World.keepsBelow_of_names fun part among =>
    (proper.parts part (List.mem_filter.mp among).1).2

end IsMemberName

/-- **Names that the members of an archive may have**: no two are the same, each has proper parts,
and so none is absolute or climbs out of the directory that it is put in. -/
structure AreMemberNames (names : List String) : Prop where
  distinct : names.Nodup
  each : ∀ name ∈ names, IsMemberName name
  inside : ∀ name ∈ names,
    Path.isAbsolute ⟨name⟩ = false ∧ Zip.staysBelow 0 (Path.components ⟨name⟩) = true

/-! ## Part 2 — names of a plan -/

/-- What a config brings in has the file names of what it refers to. -/
theorem Brought.named {references : List String} {brought : List ArchiveEntry}
    (brings : Brought world root references brought) (among : entry ∈ brought) :
    IsMemberName entry.name := by
  rw [brings.1] at among
  obtain ⟨reference, -, made⟩ := List.mem_filterMap.mp among
  exact .of_fileName? (bring?_eq_some made).1

theorem named_filed {wanted : String → Bool}
    (among : entry ∈ filed root (filesNamed wanted world root)) : IsMemberName entry.name := by
  obtain ⟨path, listed, rfl⟩ := List.mem_map.mp among
  exact .of_filedName listed

/-- **Every entry for an input has the name of a member.** -/
theorem candidates_named (gathered : input.candidates world = .ok candidates) :
    ∀ entry ∈ candidates, IsMemberName entry.name := by
  cases input with
  | directory root =>
    cases gathered
    exact fun entry => named_filed
  | config root path =>
    obtain ⟨config, own, brought, -, named, brings, -, rfl⟩ := configCandidates_ok gathered
    intro entry among
    rcases List.mem_append.mp among with outside | later
    · exact brings.named outside
    · rcases List.mem_cons.mp later with rfl | below
      · exact .of_fileName? named
      · exact named_filed below
  | shader target =>
    obtain ⟨shaderName, own, gathered⟩ := except_bind_ok gathered
    obtain ⟨companionName, other, gathered⟩ := except_bind_ok gathered
    cases gathered
    intro entry among
    simp only [List.mem_cons, List.not_mem_nil, or_false] at among
    rcases among with rfl | rfl | rfl
    · exact (by decide : IsMemberName canonicalName)
    · exact .of_fileName? (fileNameOf_ok own)
    · exact .of_fileName? (fileNameOf_ok other)

/-- **The names of a plan.** -/
theorem plan_named (planned : input.plan world = .ok plan) :
    AreMemberNames (plan.map ArchiveEntry.name) := by
  obtain ⟨candidates, gathered, rfl⟩ := JobInput.plan_ok planned
  have each : ∀ name ∈ (firstOfEachName candidates).map ArchiveEntry.name, IsMemberName name := by
    intro name among
    obtain ⟨entry, kept, rfl⟩ := List.mem_map.mp among
    exact candidates_named gathered entry (mem_of_mem_firstOfEachName kept)
  exact ⟨List.pairwise_map.mpr (firstOfEachName_distinct candidates), each,
    fun name among => (each name among).inside⟩

/-! ## Part 3 — names of a request -/

/-- **A request has the names of members**; other events are free. -/
def Event.SendsNamed (event : Event) : Prop :=
  ∀ upload, event = .sent upload → AreMemberNames (upload.members.map Prod.fst)

/-- An event that is no request sends nothing else. -/
theorem Event.SendsNamed.of_noRequest {event : Event} (other : event.NoRequest) :
    event.SendsNamed := fun upload same => absurd same (other upload)

namespace Job

/-- An archive of a job has the names of a plan. -/
theorem bundle_named {archive : Archive}
    (given : ((bundle input).perform hooks session).1 = .ok archive) :
    AreMemberNames archive.names := by
  obtain ⟨_, _, -, goes⟩ := perform_bind_gives given
  obtain ⟨plan, _, asked, goes⟩ := perform_bind_gives goes
  have planned := perform_guarded_gives (congrArg Prod.fst asked)
  rw [perform_inspect] at planned
  cases plan with
  | nil =>
    obtain ⟨_, _, refused, -⟩ := perform_bind_gives goes
    cases refused
  | cons first rest =>
    obtain ⟨packed, _, packs, goes⟩ := perform_bind_gives goes
    obtain ⟨_, _, -, goes⟩ := perform_bind_gives goes
    cases goes
    rw [pack_names (perform_guarded_gives (congrArg Prod.fst packs))]
    exact plan_named planned

/-- **A run of the service sends the names of a plan.** -/
theorem sendsNamed_run (service : Service) (resolver : Resolver) (input : JobInput)
    (format : String) :
    Adds Event.SendsNamed hooks (service.run resolver input format) := by
  rw [Service.run_eq]
  refine ((adds_bundle input).mono fun _ => .of_noRequest).bind_given fun archive given => ?_
  obtain ⟨before, bundled⟩ := given
  have sends : Event.SendsNamed (.sent ⟨service.url, format, archive.members⟩) := by
    rintro upload ⟨⟩
    exact bundle_named bundled
  exact (adds_upload (fun _ => nofun) (fun _ _ => nofun) sends).bind fun answer =>
    (adds_finish answer).mono fun _ => .of_noRequest

theorem sendsNamed_generateRemotely (service : Service) (resolver : Resolver)
    (hint : Option String) (input : JobInput) :
    Adds Event.SendsNamed hooks (generateRemotely service resolver hint input) := by
  have waits : ∀ event : Event, event.isWork = false → event.SendsNamed := by
    rintro event idle upload rfl
    cases idle
  rw [generateRemotely_eq]
  exact (adds_checkpoint fun _ => nofun).bind fun _ =>
    ((idles_outputFormat hint input).adds waits).bind fun format =>
      (adds_emit fun _ => nofun).bind fun _ =>
        (sendsNamed_run service resolver input format).bind fun run =>
          (adds_conclude run).mono fun _ => .of_noRequest

/-- **A local job sends nothing.** -/
theorem adds_generateHere (compiler : Compiler) (resolver : Resolver) (input : JobInput) :
    Adds Event.NoRequest hooks (generateHere compiler resolver input) := by
  have runs : Adds Event.NoRequest hooks (compiler.compileAll resolver input) :=
    Compiler.adds_compileAll (fun _ => nofun) (fun _ _ => nofun) (fun _ _ => nofun)
      (fun _ _ _ => nofun) input
  refine runs.bind fun ⟨run, failure⟩ => ?_
  dsimp only
  split
  · exact adds_throw _
  · exact (adds_publish _).bind fun _ => adds_throw _
  · refine (adds_publish _).bind fun _ => ?_
    split
    · exact adds_throw _
    · exact adds_pure _

/-- The job of either backend sends the names of a plan, if it sends anything. -/
theorem sendsNamed_generates (backend : Backend) (resolver : Resolver) (hint : Option String)
    (input : JobInput) :
    Adds Event.SendsNamed hooks (backend.generates resolver hint input) := by
  cases backend with
  | here compiler =>
    exact (adds_generateHere compiler resolver input).mono fun _ => .of_noRequest
  | remote service => exact sendsNamed_generateRemotely service resolver hint input

/-- A request on the trace that such a job leaves was there before, or has the names of members. -/
theorem Adds.named_of_mem {α : Type} {job : Job α} {upload : Upload}
    (adds : Adds Event.SendsNamed hooks job)
    (among : upload ∈ (job.perform hooks session).2.trace.uploads) :
    upload ∈ session.trace.uploads ∨ AreMemberNames (upload.members.map Prod.fst) := by
  obtain ⟨events, traced, named⟩ := adds session
  rw [traced, Trace.mem_uploads] at among
  rcases List.mem_append.mp among with added | before
  · exact .inr (named _ added upload rfl)
  · exact .inl (Trace.mem_uploads.mpr before)

/-! ## Part 4 — requests that are made -/

/-- A request that was made stays made. -/
theorem sent_stays {α β : Type} {allowed : Event → Prop} {job : Job α} {next : α → Job β}
    {upload : Upload} (adds : ∀ value, Adds allowed hooks (next value))
    (sent : upload ∈ (job.perform hooks session).2.trace.uploads) :
    upload ∈ ((job >>= next).perform hooks session).2.trace.uploads := by
  rw [perform_bind]
  split
  · next value after ran =>
    obtain ⟨events, traced, -⟩ := adds value after
    rw [ran] at sent
    rw [traced, Trace.uploads_append]
    exact List.mem_append_left _ sent
  · next error after ran =>
    rwa [ran] at sent

/-- **A run of the service sends all members of a plan that can be packed.** -/
theorem run_sends_members {service : Service} {resolver : Resolver} {format : String}
    {members : List (String × ByteArray)} (quiet : hooks.Quiet)
    (planned : input.plan session.world = .ok plan) (some_entry : plan ≠ [])
    (gathered : plan.mapM (ArchiveEntry.member session.world) = .ok members) :
    ∃ upload ∈ ((service.run resolver input format).perform hooks session).2.trace.uploads,
      upload.members = members := by
  rw [Service.run_eq, perform_bind_ok (perform_bundle_ok quiet planned some_entry gathered)]
  refine ⟨⟨service.url, format, members⟩, sent_stays adds_finish ?_, rfl⟩
  rw [perform_upload quiet, Trace.mem_uploads]
  exact List.mem_cons_of_mem _ List.mem_cons_self

end Job

/-! ## Part 5 — all archives -/

/-- Nothing is sent while a job only waits. -/
theorem Session.Idle.uploads {after : Session} (idle : session.Idle after) :
    after.trace.uploads = session.trace.uploads := by
  obtain ⟨events, traced, nothing⟩ := idle.trace
  rw [traced, Trace.uploads_append, (Trace.nothing_started nothing).2, List.append_nil]

/-- **The names of all archives.** A plan that any input gives in any world has names that members
may have. So has every request that a run of the service adds for any input, and every request of a
whole job. -/
theorem member_names :
    (∀ (world : World) (input : JobInput) (plan : List ArchiveEntry),
      input.plan world = .ok plan → AreMemberNames (plan.map ArchiveEntry.name)) ∧
    (∀ (hooks : Hooks) (service : Service) (resolver : Resolver) (input : JobInput)
      (format : String) (session : Session),
      ∀ upload ∈ ((service.run resolver input format).perform hooks session).2.trace.uploads,
        upload ∈ session.trace.uploads ∨ AreMemberNames (upload.members.map Prod.fst)) ∧
    ∀ (generator : Generator) (request : JobRequest) (hooks : Hooks) (world : World),
      ∀ upload ∈ (generator.generate request hooks world).2.trace.uploads,
        AreMemberNames (upload.members.map Prod.fst) := by
  refine ⟨fun world input plan => plan_named, fun hooks service resolver input format session
    upload among => (Job.sendsNamed_run service resolver input format).named_of_mem among,
    fun generator request hooks world => ?_⟩
  have begins := generator.begins request hooks world
  generalize generator.generate request hooks world = ended at begins
  intro upload among
  cases begins with
  | stopped kind looks =>
    rw [looks.idle.uploads] at among
    cases among
  | @begun backend path input session selected requested resolved looks =>
    have sends : Job.Adds Event.SendsNamed hooks _ :=
      Job.sendsNamed_generates backend generator.resolver request.format input
    refine (sends.named_of_mem among).resolve_left fun before => ?_
    rw [looks.idle.uploads] at before
    cases before

/-- Settings without a local compiler, and a place where relative paths begin. -/
def sendingGenerator : Generator :=
  .fresh ⟨"", "http://localhost:9/"⟩ ⟨⟨"/"⟩, ⟨[], none⟩⟩ standardTimeout

/-- A config that refers to two shaders of one name, each by a path that climbs, is sent with one of
them, in a run of its own and in a whole job. -/
theorem member_names_clashing :
    let world := clashingWorld ⟨#[1]⟩ ⟨#[2]⟩
    let input : JobInput := .config ⟨"/job"⟩ ⟨"/job/x.sl.json"⟩
    ∃ plan service, input.plan world = .ok plan ∧
      plan.map ArchiveEntry.name = ["s.vert", "x.sl.json"] ∧
      AreMemberNames (plan.map ArchiveEntry.name) ∧
      (∃ upload ∈ ((Service.run service sendingGenerator.resolver input "cpp").perform smallHooks
          (Session.fresh world)).2.trace.uploads,
        upload.members.map Prod.fst = plan.map ArchiveEntry.name ∧
          AreMemberNames (upload.members.map Prod.fst)) ∧
      ∃ upload ∈ (sendingGenerator.generate ⟨"/job/x.sl.json", some "cpp"⟩ smallHooks
          world).2.trace.uploads,
        upload.members.map Prod.fst = plan.map ArchiveEntry.name ∧
          AreMemberNames (upload.members.map Prod.fst) := by
  intro world input
  obtain ⟨plans, runs, jobs⟩ := member_names
  have planned : input.plan world = .ok _ := clashing_plan ⟨#[1]⟩ ⟨#[2]⟩
  have quiet : smallHooks.Quiet := fun _ => rfl
  obtain ⟨service, selected⟩ : ∃ service, Backend.select sendingGenerator.settings
      sendingGenerator.resolver sendingGenerator.timeout = .ok (.remote service) :=
    select_service (by decide +kernel) (by decide +kernel)
  refine ⟨_, service, planned, rfl, plans _ _ _ planned, ?_, ?_⟩
  · obtain ⟨upload, sent, same⟩ := @Job.run_sends_members smallHooks (Session.fresh world) input _
      service sendingGenerator.resolver "cpp" _ quiet planned (List.cons_ne_nil _ _) rfl
    refine ⟨upload, sent, ?_, (runs _ _ _ _ _ _ upload sent).resolve_left List.not_mem_nil⟩
    rw [same]
    rfl
  · obtain ⟨format, trace, -, -, -, begins⟩ := @generate_begins smallHooks world
      ⟨"/job/x.sl.json"⟩ input service sendingGenerator ⟨"/job/x.sl.json", some "cpp"⟩ quiet
      selected (by cbv) (clashing_resolve ⟨#[1]⟩ ⟨#[2]⟩)
    obtain ⟨upload, made, same⟩ := @Job.run_sends_members smallHooks
      ⟨world, trace, sendingGenerator.findings.clear⟩ input _ service sendingGenerator.resolver
      format _ quiet planned (List.cons_ne_nil _ _) rfl
    have sent : upload ∈ (sendingGenerator.generate ⟨"/job/x.sl.json", some "cpp"⟩ smallHooks
        world).2.trace.uploads := by
      rw [begins]
      exact Job.sent_stays Job.adds_conclude made
    refine ⟨upload, sent, ?_, jobs _ _ _ _ upload sent⟩
    rw [same]
    rfl

end ShaderForge
