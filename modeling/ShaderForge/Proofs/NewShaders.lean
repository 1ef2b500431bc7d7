/-
**New shaders are ready for a job.**

In a directory of its own the files of a new shader are the only ones (`Template.Laid`). Then each
of them is accepted for what it is: the directory has a config and shaders below it, the config is
read back from its text and names shaders that are there, and the search for the owner of a shader
ends in the first directory on its way up, at its only config (`Template.Laid.owner?_eq`). No path
of the config leaves the directory, so all of these inputs can be packed (`Template.Laid.ready`).

`Template.create_ready` says so of every path and title: nothing that is there is touched, and a
shader in a new directory is ready.
-/

import ShaderForge.Proofs.AcceptedInputs
import ShaderForge.Proofs.NewFiles

namespace ShaderForge

namespace Template

variable {name title : String} {files : Files} {base root path : Path} {place : Location}
  {world before after : World} {entry own other : EntryName} {bytes : ByteArray}

/-! ## Part 1 — what the files are taken for -/

/-- The entry of a new shader in its config. -/
def entryOf (name : String) : ConfigEntry where
  fileName := some name
  className := some (Text.bigCamel name)
  vertex := name ++ vertexSuffix
  fragment := name ++ fragmentSuffix
  stage := some "both"
  extra := []

/-- **What a shader of a new pair is taken for**: its directory is the root, its config the owner,
and the other shader the companion. -/
def targetOf (name : String) (files : Files) (shader companion : Path) : ShaderTarget where
  root := files.directory
  shader := shader
  configPath := files.config
  config := config name
  entry := entryOf name
  companion := companion

/-- **A path that a job can be made of**: it is accepted as an input, and the input has a plan. -/
def Accepted (world : World) (path : Path) (input : JobInput) : Prop :=
  JobInput.resolve world path = .ok input ∧ ∃ plan, input.plan world = .ok plan

/-- **A new shader that is ready**: its directory, its config and its two shaders are accepted. -/
structure Ready (name : String) (files : Files) (world : World) : Prop where
  directory : Accepted world files.directory (.directory files.directory)
  config : Accepted world files.config (.config files.directory files.config)
  vertex : Accepted world files.vertex
    (.shader (targetOf name files files.vertex files.fragment))
  fragment : Accepted world files.fragment
    (.shader (targetOf name files files.fragment files.vertex))

/-! ## Part 2 — the names -/

/-- A text with a suffix in lower case ends in it. -/
theorem endsIgnoringCase_append {suffix : String}
    (small : suffix.toList.map Char.toLower = suffix.toList) (text : String) :
    Text.endsIgnoringCase suffix (text ++ suffix) = true := by
  rw [Text.endsIgnoringCase, List.isSuffixOf_iff_suffix, String.toList_append, List.map_append,
    small]
  exact List.suffix_append _ _

/-- A text does not end in a suffix with another last character. -/
theorem not_endsIgnoringCase {suffix tail : String} {last final : Char}
    (ends : suffix.toList.getLast? = some last)
    (differs : (tail.toList.map Char.toLower).getLast? = some final) (apart : final ≠ last)
    (text : String) : Text.endsIgnoringCase suffix (text ++ tail) = false := by
  rw [← Bool.not_eq_true, Text.endsIgnoringCase, List.isSuffixOf_iff_suffix, String.toList_append,
    List.map_append]
  rintro ⟨front, shape⟩
  have both := congrArg List.getLast? shape
  rw [List.getLast?_append, List.getLast?_append, ends, differs] at both
  exact apart (Option.some.inj both).symm

theorem isConfigName_config (text : String) : isConfigName (text ++ configSuffix) = true :=
  endsIgnoringCase_append (by decide) text

/-- The name of a shader is not the name of a config. -/
theorem isConfigName_shader (text : String) : isConfigName (text ++ vertexSuffix) = false ∧
    isConfigName (text ++ fragmentSuffix) = false :=
  ⟨@not_endsIgnoringCase configSuffix vertexSuffix 'n' 't' (by decide) (by decide) (by decide) text,
    @not_endsIgnoringCase configSuffix fragmentSuffix 'n' 'g' (by decide) (by decide) (by decide)
      text⟩

theorem isShaderName_shader (text : String) : isShaderName (text ++ vertexSuffix) = true ∧
    isShaderName (text ++ fragmentSuffix) = true := by
  have vertex : text ++ vertexSuffix = text ++ ".spv" ++ ".vert" := by
    rw [String.append_assoc]
    rfl
  have fragment : text ++ fragmentSuffix = text ++ ".spv" ++ ".frag" := by
    rw [String.append_assoc]
    rfl
  rw [vertex, fragment]
  exact ⟨List.any_eq_true.mpr ⟨".vert", by decide, endsIgnoringCase_append (by decide) _⟩,
    List.any_eq_true.mpr ⟨".frag", by decide, endsIgnoringCase_append (by decide) _⟩⟩

/-- The name of an entry is the base name of itself. -/
theorem baseName?_entry (entry : EntryName) : baseName? entry.text = some entry.text :=
  fileName?_namedPath [] entry

/-- **Each shader is named by the entry**, and the other one is its sibling. -/
theorem entryFor?_config (names : FileNames name) :
    entryFor? (config name) names.vertex.text = some (entryOf name, names.fragment.text) ∧
      entryFor? (config name) names.fragment.text = some (entryOf name, names.vertex.text) := by
  have vertex : baseName? (entryOf name).vertex = some names.vertex.text := by
    rw [← baseName?_entry, names.vertex_text]
    rfl
  have fragment : baseName? (entryOf name).fragment = some names.fragment.text := by
    rw [← baseName?_entry, names.fragment_text]
    rfl
  have apart : names.vertex.text ≠ names.fragment.text := by
    rw [names.vertex_text, names.fragment_text]
    intro same
    have ends := congrArg String.toList same
    rw [String.toList_append, String.toList_append] at ends
    exact absurd (List.append_cancel_left ends) (by decide)
  have first : ∀ fileName sibling, (entryOf name).Hits fileName sibling →
      entryFor? (config name) fileName = some (entryOf name, sibling) :=
    fun fileName sibling hits => entryFor?_eq_some_iff.mpr
      ⟨[], [], rfl, fun other among => absurd among List.not_mem_nil, hits⟩
  refine ⟨first _ _ ?_, first _ _ ?_⟩
  · rw [names.fragment_text]
    exact .vertex vertex
  · rw [names.vertex_text]
    refine .fragment (fun same => apart ?_) fragment
    exact Option.some.inj (vertex.symm.trans same)

/-! ## Part 3 — the files -/

namespace Laid

variable {names : FileNames name} (laid : Laid names root place world)

include laid

theorem some_root : root.isEmpty = false := World.find_isEmpty laid.found

/-- A file of a new shader is found under its path. -/
theorem find_below (among : entry ∈ names.all)
    (held : world.node? (entry :: place) = some (.file bytes)) :
    world.find (root.below entry.text) = .ok (entry :: place, .file bytes) :=
  (World.find_below_iff entry laid.found).mpr ⟨laid.short entry among, rfl, held⟩

/-- A file of a new shader is found by a scan of the root. -/
theorem mem_found_below (among : entry ∈ names.all)
    (held : world.node? (entry :: place) = some (.file bytes)) :
    (namedPath [entry], .file bytes) ∈ ShaderForge.found world root :=
  (mem_found laid.absolute laid.plain laid.found).mpr ⟨[entry], List.cons_ne_nil _ _, rfl,
    Nat.lt_of_le_of_lt (utf8ByteSize_visitedPath laid.some_root (List.cons_ne_nil _ _))
      (laid.short entry among), held⟩

/-- **The root of a new shader is valid.** -/
theorem valid : validateRoot world root = .ok ⟨⟩ := by
  have listed : ∀ (wanted : String → Bool) (entry : EntryName) (bytes : ByteArray),
      entry ∈ names.all → world.node? (entry :: place) = some (.file bytes) →
        wanted entry.text = true → filesNamed wanted world root ≠ [] := by
    intro wanted entry bytes among held named
    refine List.ne_nil_of_mem (mem_filesNamed_iff.mpr ⟨_, laid.mem_found_below among held, rfl, ?_⟩)
    rw [hasName, show (namedPath [entry]).fileName? = some entry.text from
      fileName?_namedPath [] entry]
    exact named
  refine validateRoot_iff.mpr ⟨listed _ _ _ (by simp) laid.config ?_,
    listed _ _ _ (by simp) laid.vertex ?_⟩
  · rw [names.config_text]
    exact isConfigName_config name
  · rw [names.vertex_text]
    exact (isShaderName_shader name).1

/-- **The config of a new shader is read back.** -/
theorem load :
    ConfigFile.load world (root.below names.config.text) = .ok (Template.config name) := by
  have retains : (Template.config name).Retains := by
    have none : ∀ depth known, Retained depth known [] := fun _ _ =>
      ⟨List.Pairwise.nil, fun _ among => absurd among List.not_mem_nil,
        fun _ among => absurd among List.not_mem_nil⟩
    refine ⟨none _ _, fun entry among => ?_⟩
    rw [List.mem_singleton.mp among]
    exact none _ _
  have there := laid.find_below (by simp) laid.config
  have parsed := ConfigFile.parse_render retains
  -- The text of the config is not looked into from here on.
  generalize (Template.config name).render = text at there parsed
  exact ConfigFile.load_eq_ok.mpr ⟨text.toUTF8, text, World.read_of_find there,
    dif_pos text.isValidUTF8, parsed⟩

/-- **The only config in the root** is that of the new shader. -/
theorem immediateConfigs_eq : immediateConfigs world root = [root.below names.config.text] := by
  refine (listsConfigs_iff.mp ⟨List.pairwise_singleton _ _, fun configPath => ?_⟩).symm
  rw [List.mem_singleton]
  constructor
  · rintro rfl
    exact ⟨place, names.config, _, laid.found, laid.config,
      names.config_text ▸ isConfigName_config name, rfl⟩
  · rintro ⟨home, entry, bytes, there, held, named, rfl⟩
    rw [laid.found] at there
    cases there
    rcases (FileNames.mem_all _).mp (laid.alone entry bytes held) with rfl | rfl | rfl
    · rfl
    · rw [names.vertex_text, (isConfigName_shader name).1] at named
      cases named
    · rw [names.fragment_text, (isConfigName_shader name).2] at named
      cases named

/-- **The owner of each shader** is the config beside it, in the first directory of the search. -/
theorem owner?_eq
    (hit : entryFor? (Template.config name) own.text = some (entryOf name, other.text)) :
    owner? world (root.below own.text) = .ok (some
      ⟨root, root.below own.text, root.below names.config.text, Template.config name, entryOf name,
        root.below other.text⟩) := by
  obtain ⟨others, nearest⟩ : ∃ others,
      owningDirectories (root.below own.text) = root :: others := by
    rw [owningDirectories, Path.parents_eq, laid.above]
    exact ⟨_, List.takeWhile_cons_of_pos (by rw [laid.some_root]; rfl)⟩
  have first : ownerIn? world (root.below own.text) root own.text (root.below names.config.text) =
      some ⟨root, root.below own.text, root.below names.config.text, Template.config name,
        entryOf name, root.below other.text⟩ :=
    ownerIn?_eq_some_iff.mpr ⟨rfl, rfl, rfl, laid.load, other.text, hit, rfl⟩
  rw [owner?, Path.fileName?_below]
  dsimp only
  rw [nearest, List.findSome?_cons, laid.immediateConfigs_eq, ownerAmong?_eq, List.findSome?_cons,
    first]
  rfl

theorem directoryOf_eq (entry : EntryName) : directoryOf (root.below entry.text) = root := by
  rw [directoryOf, laid.above, Option.filter_some, laid.some_root]
  rfl

theorem resolve_directory : JobInput.resolve world root = .ok (.directory root) := by
  rw [JobInput.resolve, World.find?_eq_some.mpr laid.found]
  show (validateRoot world root >>= fun _ => _) = _
  rw [laid.valid]
  rfl

theorem isFile_below (among : entry ∈ names.all)
    (held : world.node? (entry :: place) = some (.file bytes)) :
    world.isFile (root.below entry.text) = true :=
  World.isFile_iff.mpr ⟨_, _, laid.find_below among held⟩

theorem resolve_config : JobInput.resolve world (root.below names.config.text) =
    .ok (.config root (root.below names.config.text)) := by
  have shaders : ((Template.config name).entries.flatMap ConfigEntry.shaderPaths).any
      (fun path => world.isFile (root.below path)) = true := by
    refine List.any_eq_true.mpr ⟨names.vertex.text, ?_, laid.isFile_below (by simp) laid.vertex⟩
    rw [names.vertex_text]
    exact List.mem_cons_self
  rw [JobInput.resolve, World.find?_eq_some.mpr (laid.find_below (by simp) laid.config)]
  show JobInput.resolveFile world _ = _
  rw [JobInput.resolveFile, Path.fileName?_below]
  dsimp only
  rw [if_pos (names.config_text ▸ isConfigName_config name), laid.directoryOf_eq, validateConfig,
    laid.load]
  show ((if _ then _ else _ : Except JobError Unit) >>= fun _ => _) = _
  rw [if_pos shaders]
  rfl

/-- **Each shader is accepted with its owner**, if the other one is there. -/
theorem resolve_shader (unlike : isConfigName own.text = false)
    (named : isShaderName own.text = true)
    (hit : entryFor? (Template.config name) own.text = some (entryOf name, other.text))
    (there : world.find (root.below own.text) = .ok (own :: place, .file bytes))
    (beside : world.isFile (root.below other.text) = true) :
    JobInput.resolve world (root.below own.text) = .ok (.shader
      ⟨root, root.below own.text, root.below names.config.text, Template.config name, entryOf name,
        root.below other.text⟩) := by
  rw [JobInput.resolve, World.find?_eq_some.mpr there]
  show JobInput.resolveFile world _ = _
  rw [JobInput.resolveFile, Path.fileName?_below]
  dsimp only
  rw [if_neg (by rw [unlike]; exact Bool.false_ne_true), if_pos named, laid.owner?_eq hit]
  exact if_pos beside

end Laid

/-- **What was accepted has a plan** if no config names a shader outside of its root. -/
theorem accepted_of_resolve {input : JobInput} (resolved : JobInput.resolve world path = .ok input)
    (inside : ∀ root config, input = .config root path → ConfigFile.load world path = .ok config →
      config.parentReferences = []) : Accepted world path input := by
  refine ⟨resolved, ?_⟩
  cases planned : input.plan world with
  | ok plan => exact ⟨plan, rfl⟩
  | error error =>
    obtain ⟨root, config, same, loaded, unsent⟩ := JobInput.plan_error resolved planned
    rw [inside root config same loaded] at unsent
    cases unsent with
    | unread among failed => exact absurd among List.not_mem_nil
    | nameless among named => exact absurd among List.not_mem_nil

/-- The config of a new shader names no shader outside of its root. -/
theorem parentReferences_config (names : FileNames name) : (config name).parentReferences = [] := by
  have inside : ∀ entry : EntryName, referencesParent entry.text = false := by
    intro entry
    show Path.leavesFirst (namedPath [entry]) = false
    rw [Path.leavesFirst, Path.components_namedPath]
    rfl
  have paths : (config name).entries.flatMap ConfigEntry.shaderPaths =
      [names.vertex.text, names.fragment.text] := by
    rw [names.vertex_text, names.fragment_text]
    rfl
  rw [ConfigFile.parentReferences, paths, List.filter_cons_of_neg (by rw [inside]; decide),
    List.filter_cons_of_neg (by rw [inside]; decide), List.filter_nil]

/-- **A new shader in a directory of its own is ready.** -/
theorem Laid.ready {names : FileNames name} (laid : Laid names (base.below name) place world) :
    Ready name (filesFor base name) world := by
  obtain ⟨vertexHit, fragmentHit⟩ := entryFor?_config names
  have config := laid.resolve_config
  have vertex := laid.resolve_shader (names.vertex_text ▸ (isConfigName_shader name).1)
    (names.vertex_text ▸ (isShaderName_shader name).1) vertexHit
    (laid.find_below (by simp) laid.vertex) (laid.isFile_below (by simp) laid.fragment)
  have fragment := laid.resolve_shader (names.fragment_text ▸ (isConfigName_shader name).2)
    (names.fragment_text ▸ (isShaderName_shader name).2) fragmentHit
    (laid.find_below (by simp) laid.fragment) (laid.isFile_below (by simp) laid.vertex)
  have loaded := laid.load
  rw [names.config_text] at config loaded vertex fragment
  rw [names.vertex_text, names.fragment_text] at vertex fragment
  refine ⟨accepted_of_resolve laid.resolve_directory ?_, accepted_of_resolve config ?_,
    accepted_of_resolve vertex ?_, accepted_of_resolve fragment ?_⟩
  · rintro _ _ ⟨⟩
  · intro _ file _ held
    cases loaded.symm.trans held
    exact parentReferences_config names
  · rintro _ _ ⟨⟩
  · rintro _ _ ⟨⟩

/-! ## Part 4 — every path and title -/

/-- **What making a new shader comes to.** Nothing that was there is touched. If all went well
below an absolute path, and the directory of the shader is new, then the shader is ready. -/
structure Created (path : Path) (title : String) (before : World)
    (outcome : Except JobError Files) (after : World) : Prop where
  kept : World.Grown before after
  ready : ∀ files, outcome = .ok files → path.isAbsolute = true →
    IsNew before after files.directory →
      files = filesFor (baseOf before path) (Text.trim title) ∧ Ready (Text.trim title) files after
  fresh : ∀ files, outcome = .ok files → path.isAbsolute = true →
    before.isThere files.directory = false →
      before.isDirectory (baseOf before path) = true ∨
          ['.', '.'] ∉ (baseOf before path).parts →
        IsNew before after files.directory

/-- **A new shader touches nothing that is there, and is ready for a job.** -/
theorem create_ready (path : Path) (title : String) (world : World) :
    Created path title world (create path title world).1 (create path title world).2 := by
  rcases create_cases path title world with untitled | ⟨titled, outcome, after, ran, made⟩
  · rw [untitled]
    exact ⟨.refl world, nofun, nofun⟩
  · rw [made]
    have grown := spares_writeFiles (Text.trim title)
      (filesFor (baseOf world path) (Text.trim title)) world
    rw [ran] at grown
    cases outcome with
    | error fault => exact ⟨grown, nofun, nofun⟩
    | ok value =>
      refine ⟨grown, fun files done absolute fresh => ?_,
        fun files done absolute missing leads => ?_⟩
      · obtain rfl : filesFor (baseOf world path) (Text.trim title) = files := Except.ok.inj done
        obtain ⟨names, place, laid⟩ :=
          exists_laid titled (isAbsolute_baseOf absolute world) ran fresh
        exact ⟨rfl, laid.ready⟩
      · obtain rfl : filesFor (baseOf world path) (Text.trim title) = files := Except.ok.inj done
        obtain ⟨names, -⟩ := held_of_run titled ran
        have some_base := Path.isEmpty_of_isAbsolute (isAbsolute_baseOf absolute world)
        exact isNew_of_missing titled (isEntryName_of_title titled names.config_text) some_base
          grown missing leads

/-- A shader whose title has marks of its own is ready in a directory of its own. -/
theorem create_ready_glow :
    let ended := create ⟨"/"⟩ " [glow] \".frag " .bare
    ∃ files, ended.1 = .ok files ∧ files.directory = ⟨"/[glow] \".frag"⟩ ∧
      Ready "[glow] \".frag" files ended.2 := by
  intro ended
  have made : ended.1.toOption.map Files.directory = some ⟨"/[glow] \".frag"⟩ := by
    decide +kernel
  have trimmed : Text.trim " [glow] \".frag " = "[glow] \".frag" := by decide +kernel
  cases came : ended.1 with
  | error error =>
    rw [came] at made
    cases made
  | ok files =>
    rw [came] at made
    have directory : files.directory = ⟨"/[glow] \".frag"⟩ := Option.some.inj made
    have created := create_ready ⟨"/"⟩ " [glow] \".frag " .bare
    have fresh : IsNew .bare ended.2 files.directory := by
      refine created.fresh files came (by decide) ?_ (.inl (by decide +kernel))
      rw [directory]
      decide +kernel
    obtain ⟨-, ready⟩ := created.ready files came (by decide) fresh
    exact ⟨files, rfl, directory, trimmed ▸ ready⟩

end Template

end ShaderForge
