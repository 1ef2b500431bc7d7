/-
**Shader paths that leave the archive.**

The service reads the shader paths of a config in the archive that it was sent. A path that is
absolute, or climbs above the top of the archive, names nothing there (`staysInside`).

Paths that begin with `..` are shortened to names before the config is sent, and so they stay inside
(`staysInside_shippedPath`). Only the first component is looked at: a path that leaves in another
way, such as `/base.vert`, `./../base.vert` or `x/../../base.vert`, is sent as it was written. So
the config that is sent stays inside exactly if the paths that leave are the ones that begin with
`..` (`plan_config_stays_inside`), and they may not be (`plan_config_leaves`).
-/

import ShaderForge.Proofs.Confinement
import ShaderForge.Proofs.ShippedConfig

namespace ShaderForge

open Json (HasReal ReadsBack)

variable {world : World} {root path : Path} {config : ConfigFile} {plan : List ArchiveEntry}
  {reference name : String}

/-! ## Part 1 — paths -/

/-- **Whether a shader path stays inside**: it is relative, and never climbs above the directory
that it is read in. -/
def staysInside (reference : String) : Bool := Zip.staysBelow 0 (Path.components ⟨reference⟩)

example : ["a.vert", "x/../a.vert", "./a.vert"].all staysInside = true := by decide +kernel

example : ["/a.vert", "../a.vert", "./../a.vert", "x/../../a.vert"].any staysInside = false := by
  decide +kernel

/-- A path that begins with `..` leaves. -/
theorem staysInside_of_referencesParent (leaves : referencesParent reference = true) :
    staysInside reference = false := by
  obtain ⟨rest, shape⟩ := List.head?_eq_some_iff.mp (beq_iff_eq.mp leaves)
  rw [staysInside, shape]
  rfl

/-- **A file name stays inside.** -/
theorem staysInside_baseName (named : baseName? reference = some name) :
    staysInside name = true := by
  obtain ⟨init, names⟩ := names_of_fileName? named
  have among : name ∈ Path.names ⟨reference⟩ := names ▸ List.mem_append_right _ List.mem_cons_self
  obtain ⟨free, proper, here, up⟩ := Path.mem_names among
  have parts : Path.parts ⟨name⟩ = [name.toList] := by
    rw [Path.parts, Path.solid_of_notMem free]
    exact List.filter_cons_of_pos (by simpa using proper)
  rw [staysInside, Zip.staysBelow_components, Path.isAbsolute_plain free, parts,
    World.keepsBelow_of_names (List.forall_mem_singleton.mpr ⟨here, up⟩)]
  rfl

/-- **A path as it is sent stays inside** if it did before, or if it began with `..`. -/
theorem staysInside_shippedPath
    (named : referencesParent reference = true → (baseName? reference).isSome) :
    staysInside (shippedPath reference) =
      (staysInside reference || referencesParent reference) := by
  unfold shippedPath
  cases leaves : referencesParent reference with
  | false => rw [if_neg Bool.false_ne_true, Bool.or_false]
  | true =>
    obtain ⟨name, base⟩ := Option.isSome_iff_exists.mp (named leaves)
    rw [if_pos rfl, base, Bool.or_true]
    exact staysInside_baseName base

/-! ## Part 2 — configs -/

/-- The shader paths of a config, in order. -/
def ConfigFile.shaderPaths (config : ConfigFile) : List String :=
  config.entries.flatMap ConfigEntry.shaderPaths

/-- **What an entry of an archive is read as**: a config in the text that it holds. -/
def ArchiveEntry.Carries (world : World) (entry : ArchiveEntry) (config : ConfigFile) : Prop :=
  ∃ text, entry.source.content world = .ok (String.toUTF8 text) ∧
    ConfigFile.parse text = .ok config

theorem ConfigFile.mem_parentReferences :
    reference ∈ config.parentReferences ↔
      reference ∈ config.shaderPaths ∧ referencesParent reference = true := List.mem_filter

/-- The shader paths of a config that is sent are those of the config, each as it is sent. -/
theorem ConfigFile.shaderPaths_shipped (config : ConfigFile) :
    config.shipped.shaderPaths = config.shaderPaths.map shippedPath := by
  rw [shaderPaths, shaderPaths, List.map_flatMap]
  show (config.entries.map _).flatMap _ = _
  rw [List.flatMap_map]
  rfl

/-- A config that names no shader outside of its root is sent with the paths that it has. -/
theorem ConfigFile.shipped_of_within (within : config.parentReferences = []) :
    config.shipped = config := by
  have same : ∀ entry ∈ config.entries, entry.mapPaths shippedPath = entry := by
    intro entry member
    have plain : ∀ reference ∈ entry.shaderPaths, shippedPath reference = reference := by
      intro reference own
      have among : reference ∈ config.shaderPaths := List.mem_flatMap.mpr ⟨entry, member, own⟩
      have stays : referencesParent reference ≠ true := by
        intro leaves
        have listed := mem_parentReferences.mpr ⟨among, leaves⟩
        rw [within] at listed
        exact List.not_mem_nil listed
      exact if_neg stays
    rw [ConfigEntry.mapPaths, plain _ List.mem_cons_self,
      plain _ (List.mem_cons_of_mem _ List.mem_cons_self)]
  rw [shipped, List.map_congr_left same, List.map_id']

/-- The text that bytes hold has these bytes. -/
theorem toUTF8_of_fromUTF8? {content : ByteArray} {text : String}
    (decoded : String.fromUTF8? content = some text) : text.toUTF8 = content := by
  unfold String.fromUTF8? at decoded
  split at decoded
  · cases decoded
    rfl
  · cases decoded

/-- **The config that is sent**: the entry with the name of the config carries it with its paths as
they are sent, unless a shader that is brought in has that name. -/
theorem plan_config_carries (planned : JobInput.plan world (.config root path) = .ok plan) :
    ∃ config name entry, ConfigFile.load world path = .ok config ∧ path.fileName? = some name ∧
      (∀ reference ∈ config.parentReferences, (baseName? reference).isSome) ∧
      entry ∈ plan ∧ entry.name = name ∧
      (some name ∉ config.parentReferences.map baseName? →
        (∀ real, HasReal real config.toJson → ReadsBack real) →
          entry.Carries world config.shipped) := by
  obtain ⟨candidates, gathered, rfl⟩ := JobInput.plan_ok planned
  obtain ⟨config, own, brought, loaded, named, brings, shipped, shape⟩ :=
    configCandidates_ok gathered
  obtain ⟨content, text, reads, decoded, parsed⟩ := ConfigFile.load_eq_ok.mp loaded
  have there : (candidates.find? fun other => other.name = own.name).isSome := by
    rw [List.find?_isSome, shape]
    exact ⟨own, List.mem_append_right _ List.mem_cons_self, decide_eq_true rfl⟩
  obtain ⟨entry, found⟩ := Option.isSome_iff_exists.mp there
  obtain ⟨kept, same⟩ := find?_mem_firstOfEachName found
  refine ⟨config, own.name, entry, loaded, named, fun reference member => ?_, kept, same,
    fun apart back => ?_⟩
  · obtain ⟨other, made⟩ := Option.isSome_iff_exists.mp (brings.2 reference member)
    rw [(bring?_eq_some made).1]
    rfl
  · -- A shader that is brought in comes first, so it must not have the name of the config.
    rw [brings.names] at apart
    have absent : brought.find? (fun other => other.name = own.name) = none := by
      refine List.find?_eq_none.mpr fun other member => ?_
      rw [decide_eq_true_eq]
      exact fun alike => apart (alike ▸ List.mem_map_of_mem (List.mem_map_of_mem member))
    have own_first : (own :: filed root (discoverShaders world root)).find?
        (fun other => decide (other.name = own.name)) = some own :=
      List.find?_cons_of_pos (decide_eq_true rfl)
    rw [shape, List.find?_append, absent, Option.none_or, own_first] at found
    cases found
    rcases eq_or_ne config.parentReferences [] with within | leaves
    · obtain ⟨name, verbatim⟩ := configCandidates_verbatim gathered loaded within
      have nothing : brought = [] := by rw [brings.1, within, List.filterMap_nil]
      rw [nothing, List.nil_append] at shape
      rw [← (List.cons.inj (verbatim.symm.trans shape)).1, ConfigFile.shipped_of_within within]
      refine ⟨text, ?_, parsed⟩
      rw [toUTF8_of_fromUTF8? decoded]
      show liftIo (world.read path) = .ok content
      rw [reads]
      rfl
    · exact ⟨_, shipped leaves, ConfigFile.parse_render_mapPaths parsed back shippedPath⟩

/-- **The config that is sent stays inside** exactly if the paths that leave the root are the ones
that begin with `..`. -/
theorem plan_config_stays_inside (planned : JobInput.plan world (.config root path) = .ok plan) :
    ∃ config name entry, ConfigFile.load world path = .ok config ∧ path.fileName? = some name ∧
      entry ∈ plan ∧ entry.name = name ∧
      (some name ∉ config.parentReferences.map baseName? →
        (∀ real, HasReal real config.toJson → ReadsBack real) →
          entry.Carries world config.shipped) ∧
      ((∀ reference ∈ config.shipped.shaderPaths, staysInside reference = true) ↔
        ∀ reference ∈ config.shaderPaths,
          referencesParent reference = true ↔ staysInside reference = false) := by
  obtain ⟨config, name, entry, loaded, named, bases, kept, same, carries⟩ :=
    plan_config_carries planned
  refine ⟨config, name, entry, loaded, named, kept, same, carries, ?_⟩
  rw [config.shaderPaths_shipped, List.forall_mem_map]
  refine forall₂_congr fun reference member => ?_
  have based : referencesParent reference = true → (baseName? reference).isSome :=
    fun leaves => bases reference (ConfigFile.mem_parentReferences.mpr ⟨member, leaves⟩)
  rw [staysInside_shippedPath based, Bool.or_eq_true]
  constructor
  · rintro (stays | leaves)
    · rw [stays]
      refine ⟨fun leaves => ?_, fun same => nomatch same⟩
      rw [← stays, staysInside_of_referencesParent leaves]
    · exact ⟨staysInside_of_referencesParent, fun _ => leaves⟩
  · intro flagged
    cases stays : staysInside reference with
    | false => exact .inr (flagged.mpr stays)
    | true => exact .inl rfl

/-! ## Part 3 — a path that leaves later -/

/-- The borrowed shader is sent under its name, and all paths stay inside. -/
theorem plan_config_stays_inside_borrowing :
    ∃ plan, JobInput.plan borrowingWorld (.config ⟨"/art"⟩ ⟨"/art/hero.sl.json"⟩) = .ok plan ∧
      ∀ reference ∈ (borrowingConfig "../base.vert").shipped.shaderPaths,
        staysInside reference = true := by
  obtain ⟨config, name, entry, loaded, -, -, -, -, exactly⟩ :=
    plan_config_stays_inside borrowing_plan
  have given : ConfigFile.load borrowingWorld ⟨"/art/hero.sl.json"⟩ =
      .ok (borrowingConfig "../base.vert") :=
    ConfigFile.load_eq_ok.mpr ⟨borrowingText.toUTF8, borrowingText, by rfl,
      dif_pos borrowingText.isValidUTF8, borrowing_parsed⟩
  obtain rfl := Except.ok.inj (given.symm.trans loaded)
  refine ⟨_, borrowing_plan, exactly.mpr ?_⟩
  decide +kernel

/-- The text of a config with a shader outside of its root, named in a way that is not noticed. -/
def strayingText : String :=
  "\x7b\"data\":[\x7b\"vsh\":\"./../shared.vert\",\"fsh\":\"knight.frag\"\x7d]\x7d"

/-- The config in that text. -/
def strayingConfig : ConfigFile :=
  ⟨none, none, [⟨none, none, "./../shared.vert", "knight.frag", none, []⟩], []⟩

/-- A world with that config and both shaders. -/
def strayingWorld : World :=
  World.ofNodes [] [([⟨"pack", by decide⟩], .directory),
    ([⟨"knight.sl.json", by decide⟩, ⟨"pack", by decide⟩], .file strayingText.toUTF8),
    ([⟨"knight.frag", by decide⟩, ⟨"pack", by decide⟩], .file ⟨#[]⟩),
    ([⟨"shared.vert", by decide⟩], .file ⟨#[1]⟩)] (by decide) (by decide)

/-- **A config may be sent with a path that leaves**, though the shader that it names is there. -/
theorem plan_config_leaves :
    ¬ ∀ (world : World) (root path : Path) (plan : List ArchiveEntry) (entry : ArchiveEntry)
        (config : ConfigFile),
      JobInput.plan world (.config root path) = .ok plan → entry ∈ plan →
        path.fileName? = some entry.name → entry.Carries world config →
          ∀ reference ∈ config.shaderPaths, staysInside reference = true := by
  intro always
  have bytes : strayingWorld.read ⟨"/pack/knight.sl.json"⟩ = .ok strayingText.toUTF8 := by rfl
  have parsed : ConfigFile.parse strayingText = .ok strayingConfig := by rfl
  have loaded : ConfigFile.load strayingWorld ⟨"/pack/knight.sl.json"⟩ = .ok strayingConfig :=
    ConfigFile.load_eq_ok.mpr ⟨_, strayingText, bytes, dif_pos strayingText.isValidUTF8, parsed⟩
  have named : fileNameOf ⟨"/pack/knight.sl.json"⟩ = .ok "knight.sl.json" := by rfl
  have flat : flattenEntries strayingWorld ⟨"/pack"⟩ ⟨"/pack/knight.sl.json"⟩
      strayingConfig.entries = .ok (strayingConfig.entries, []) := by rfl
  have shaders : discoverShaders strayingWorld ⟨"/pack"⟩ = [⟨"knight.frag"⟩] :=
    filesNamed_singleton (by decide +kernel)
  have planned : JobInput.plan strayingWorld (.config ⟨"/pack"⟩ ⟨"/pack/knight.sl.json"⟩) =
      .ok [⟨"knight.sl.json", .file ⟨"/pack/knight.sl.json"⟩⟩,
        ⟨"knight.frag", .file ⟨"/pack/knight.frag"⟩⟩] := by
    simp only [JobInput.plan, JobInput.candidates, configCandidates, loaded, named, bind,
      Except.bind]
    rw [flat, shaders]
    rfl
  have carries : ArchiveEntry.Carries strayingWorld
      ⟨"knight.sl.json", .file ⟨"/pack/knight.sl.json"⟩⟩ strayingConfig := by
    refine ⟨strayingText, ?_, parsed⟩
    show liftIo (strayingWorld.read ⟨"/pack/knight.sl.json"⟩) = _
    rw [bytes]
    rfl
  have stays := always _ _ _ _ _ _ planned List.mem_cons_self (by rfl) carries "./../shared.vert"
    List.mem_cons_self
  exact absurd stays (by decide +kernel)

end ShaderForge
