/-
**A shader on its way.**

A single shader is sent with the config that owns it and with its companion. The config is written
anew, with nothing but the entry that names the shader, and both paths of the entry shortened to
their base names; what was written is read back as exactly that config
(`ConfigFile.parse_render_narrowed`).

The companion is a file below the root, so the path that leads to it ends in the base name that the
entry gives it (`World.fileName?_below_of_isFile`), however the entry spells the way there. So the
shortened paths are the names under which the two shaders are sent. As long as these names differ,
from each other and from that of the config, all three members are there (`plan_shader`).
-/

import ShaderForge.Proofs.AcceptedInputs
import ShaderForge.Proofs.ShippedConfig

namespace ShaderForge

open Json (HasReal ReadsBack)

variable {world : World} {root path : Path} {config : ConfigFile} {entry : ConfigEntry}
  {text : String} {target : ShaderTarget}

/-! ## Part 1 — the config with one entry -/

namespace ConfigFile

/-- One entry may be left, with its paths changed. -/
theorem Retains.narrowed (retains : config.Retains) (among : entry ∈ config.entries)
    (change : String → String) : (config.narrowed (entry.mapPaths change)).Retains where
  extra := retains.extra
  entries other member := by
    rw [List.mem_singleton.mp member]
    exact retains.entries entry among

/-- **A config that was read, with one of its entries left and the paths changed, is read back**
from how it is written. -/
theorem parse_render_narrowed (parsed : parse text = .ok config)
    (back : ∀ real, HasReal real config.toJson → ReadsBack real) (among : entry ∈ config.entries)
    (change : String → String) :
    parse (config.narrowed (entry.mapPaths change)).render =
      .ok (config.narrowed (entry.mapPaths change)) :=
  parse_render ((retains_of_parse parsed back).narrowed among change)

end ConfigFile

/-- A path with a base name is shortened to it. -/
theorem shortened_of_baseName? {written name : String} (named : baseName? written = some name) :
    shortened written = name := by
  rw [shortened, named]
  rfl

/-! ## Part 2 — the name of the companion -/

/-- **A file below a root has the base name of the path that was joined**, whatever that path is. -/
theorem World.fileName?_below_of_isFile {written : String} (some_root : root.isEmpty = false)
    (there : world.isFile (root.below written) = true) :
    (root.below written).fileName? = baseName? written := by
  cases absolute : Path.isAbsolute ⟨written⟩ with
  | true =>
    have alone : root.below written = ⟨written⟩ := by
      rw [Path.below, Path.join, Path.joinChars, if_pos (Path.isAbsolute_iff.mp absolute),
        String.ofList_toList]
    rw [alone]
    rfl
  | false =>
    obtain ⟨lead, begins, joined, -⟩ := Path.exists_lead some_root absolute
    obtain ⟨front, part, edge, whole, free, proper, here, up⟩ := World.exists_edge_of_isFile there
    have shape : lead ++ written.toList = front ++ part := joined.symm.trans whole
    -- The last part does not reach into the root, which is followed by a slash.
    obtain ⟨rest, inner, own⟩ : ∃ rest, Path.Edge rest ∧ written.toList = rest ++ part := by
      rcases List.append_eq_append_iff.mp shape with ⟨rest, rfl, own⟩ | ⟨more, rfl, rfl⟩
      · refine ⟨rest, ?_, own⟩
        rcases List.eq_nil_or_concat rest with rfl | ⟨before, last, rfl⟩
        · exact .inl rfl
        · rcases edge with none | ⟨start, ends⟩
          · exact absurd (List.append_eq_nil_iff.mp none).2 (by simp)
          · rw [List.concat_eq_append, ← List.append_assoc] at ends
            obtain ⟨-, same⟩ := List.append_inj' ends rfl
            exact .inr ⟨before, by rw [List.concat_eq_append, same]⟩
      · rcases List.eq_nil_or_concat more with rfl | ⟨before, last, rfl⟩
        · exact ⟨[], .inl rfl, rfl⟩
        · rcases begins with none | ⟨start, ends⟩
          · exact absurd (List.append_eq_nil_iff.mp none).2 (by simp)
          · rw [List.concat_eq_append, ← List.append_assoc] at ends
            obtain ⟨-, same⟩ := List.append_inj' ends rfl
            rw [List.concat_eq_append, same] at free
            exact absurd (by simp) free
    have low := Path.fileName?_of_edge inner free proper here up
    have high := Path.fileName?_of_edge edge free proper here up
    rw [← own, String.ofList_toList] at low
    rw [← whole, String.ofList_toList] at high
    exact high.trans low.symm

/-! ## Part 3 — the members -/

/-- **The shader that an entry names and the other one**: one path has the name of the shader, and
the companion is what the other path leads to from the root. -/
inductive Paired (target : ShaderTarget) (own other : String) : Prop
  | vertex (named : baseName? target.entry.vertex = some own)
      (beside : baseName? target.entry.fragment = some other)
      (companion : target.companion = target.root.join ⟨target.entry.fragment⟩)
  | fragment (named : baseName? target.entry.fragment = some own)
      (beside : baseName? target.entry.vertex = some other)
      (companion : target.companion = target.root.join ⟨target.entry.vertex⟩)

/-- **A shader that was resolved** is paired with its companion. -/
theorem paired_of_resolve (resolved : JobInput.resolve world path = .ok (.shader target)) :
    ∃ own other, target.shader = path ∧ path.fileName? = some own ∧ isShaderName own = true ∧
      target.companion.fileName? = some other ∧ Paired target own other ∧
      ConfigFile.load world target.configPath = .ok target.config ∧
      target.entry ∈ target.config.entries := by
  obtain ⟨_, ⟨⟩, -⟩ | ⟨_, ⟨⟩, -⟩ | ⟨_, own, ⟨⟩, named, -, isShader, owned, there⟩ :=
    JobInput.resolve_ok resolved
  obtain ⟨name, sibling, again, above, -, loaded, found, shader, companion⟩ := owner?_ok owned
  obtain rfl := Option.some.inj (named.symm.trans again)
  obtain ⟨before, after, shape, -, hits⟩ := entryFor?_eq_some_iff.mp found
  have some_root : target.root.isEmpty = false := by
    simpa using List.mem_takeWhile_imp above
  obtain ⟨other, beside⟩ := World.fileName?_of_isFile there
  have base : baseName? sibling = some other := by
    rw [companion] at there beside
    exact (World.fileName?_below_of_isFile some_root there).symm.trans beside
  refine ⟨own, other, shader, named, isShader, beside, ?_, loaded,
    shape ▸ List.mem_append_right _ List.mem_cons_self⟩
  cases hits with
  | vertex hit => exact .vertex hit base companion
  | fragment _ hit => exact .fragment hit base companion

/-- **What is sent for a shader**: the config with nothing but the entry that names the shader, both
paths shortened; the shader; its companion. Each shortened path names one of the shaders that are
sent. -/
theorem plan_shader (resolved : JobInput.resolve world path = .ok (.shader target))
    (different : baseName? target.entry.vertex ≠ baseName? target.entry.fragment)
    (apart : ∀ written ∈ target.entry.shaderPaths, baseName? written ≠ some canonicalName) :
    ∃ own other vertex fragment sent, path.fileName? = some own ∧
      target.companion.fileName? = some other ∧
      JobInput.plan world (.shader target) = .ok [⟨"index.sl.json", .bytes (String.toUTF8 sent)⟩,
        ⟨own, .file path⟩, ⟨other, .file target.companion⟩] ∧
      ConfigFile.load world target.configPath = .ok target.config ∧
      target.entry ∈ target.config.entries ∧
      baseName? target.entry.vertex = some vertex ∧
      baseName? target.entry.fragment = some fragment ∧
      ((∀ real, HasReal real target.config.toJson → ReadsBack real) → ConfigFile.parse sent =
        .ok { target.config with entries := [{ target.entry with vertex, fragment }] }) ∧
      (vertex = own ∧ fragment = other ∧
          target.companion = target.root.join ⟨target.entry.fragment⟩ ∨
        fragment = own ∧ vertex = other ∧
          target.companion = target.root.join ⟨target.entry.vertex⟩) := by
  obtain ⟨own, other, rfl, named, isShader, beside, paired, loaded, among⟩ :=
    paired_of_resolve resolved
  obtain ⟨content, text, -, -, parsed⟩ := ConfigFile.load_eq_ok.mp loaded
  obtain ⟨vertex, fragment, first, second, sides⟩ : ∃ vertex fragment,
      baseName? target.entry.vertex = some vertex ∧
      baseName? target.entry.fragment = some fragment ∧
      (vertex = own ∧ fragment = other ∧
          target.companion = target.root.join ⟨target.entry.fragment⟩ ∨
        fragment = own ∧ vertex = other ∧
          target.companion = target.root.join ⟨target.entry.vertex⟩) := by
    cases paired with
    | vertex hit base companion => exact ⟨own, other, hit, base, .inl ⟨rfl, rfl, companion⟩⟩
    | fragment hit base companion => exact ⟨other, own, base, hit, .inr ⟨rfl, rfl, companion⟩⟩
  have short : target.ownConfig =
      { target.config with entries := [{ target.entry with vertex, fragment }] } := by
    rw [ShaderTarget.ownConfig, ConfigFile.narrowed, ConfigEntry.mapPaths,
      shortened_of_baseName? first, shortened_of_baseName? second]
  have names : canonicalName ≠ own ∧ canonicalName ≠ other ∧ own ≠ other := by
    rw [first, second, ne_eq, Option.some.injEq] at different
    have free : canonicalName ≠ vertex ∧ canonicalName ≠ fragment := by
      simpa [ConfigEntry.shaderPaths, first, second, eq_comm] using apart
    rcases sides with ⟨rfl, rfl, -⟩ | ⟨rfl, rfl, -⟩
    · exact ⟨free.1, free.2, different⟩
    · exact ⟨free.2, free.1, Ne.symm different⟩
  have gathered : JobInput.candidates world (.shader target) = .ok [⟨canonicalName,
      .bytes target.ownConfig.render.toUTF8⟩, ⟨own, .file target.shader⟩,
      ⟨other, .file target.companion⟩] := by
    rw [JobInput.candidates, ShaderTarget.candidates, fileNameOf, fileNameOf, named, beside]
    rfl
  refine ⟨own, other, vertex, fragment, target.ownConfig.render, named, beside, ?_, loaded, among,
    first, second, fun back => ?_, sides⟩
  · rw [JobInput.plan, gathered]
    refine congrArg Except.ok (firstOfEachName_of_distinct ?_)
    simpa using ⟨⟨names.1, names.2.1⟩, names.2.2⟩
  · rw [← short]
    exact ConfigFile.parse_render_narrowed parsed back among shortened

/-! ## Part 4 — paths with detours -/

/-- The text of a config with two entries, in which paths take detours, and with fields that are not
known. -/
def detouredText : String :=
  "\x7b\"seed\":1e16,\"data\":[\x7b\"vsh\":\"one.vert\",\"fsh\":\"one.frag\"\x7d,"
    ++ "\x7b\"note\":[1],\"vsh\":\"src/.//two.vert\",\"fsh\":\"src/../src/two.frag\"\x7d]\x7d"

/-- The second entry in that text, with given paths. -/
def detouredEntry (vertex fragment : String) : ConfigEntry :=
  ⟨none, none, vertex, fragment, none, [("note", .list [.number (.integer 1)])]⟩

/-- The config in that text. -/
def detouredConfig : ConfigFile :=
  ⟨none, none, [⟨none, none, "one.vert", "one.frag", none, []⟩,
    detouredEntry "src/.//two.vert" "src/../src/two.frag"],
    [("seed", .number (.real borrowingSeed))]⟩

/-- A world with that config and the shaders of its second entry. -/
def detouredWorld : World :=
  World.ofNodes [] [([⟨"tour", by decide⟩], .directory),
    ([⟨"pack.sl.json", by decide⟩, ⟨"tour", by decide⟩], .file detouredText.toUTF8),
    ([⟨"src", by decide⟩, ⟨"tour", by decide⟩], .directory),
    ([⟨"two.vert", by decide⟩, ⟨"src", by decide⟩, ⟨"tour", by decide⟩], .file ⟨#[1]⟩),
    ([⟨"two.frag", by decide⟩, ⟨"src", by decide⟩, ⟨"tour", by decide⟩], .file ⟨#[2]⟩)]
    (by decide) (by decide)

/-- The fragment shader of that entry, and what owns it. -/
def detouredTarget : ShaderTarget :=
  ⟨⟨"/tour"⟩, ⟨"/tour/src/two.frag"⟩, ⟨"/tour/pack.sl.json"⟩, detouredConfig,
    detouredEntry "src/.//two.vert" "src/../src/two.frag", ⟨"/tour/src/.//two.vert"⟩⟩

set_option maxRecDepth 2000 in
theorem detoured_parsed : ConfigFile.parse detouredText = .ok detouredConfig := by rfl

theorem detoured_load :
    ConfigFile.load detouredWorld ⟨"/tour/pack.sl.json"⟩ = .ok detouredConfig :=
  ConfigFile.load_eq_ok.mpr ⟨detouredText.toUTF8, detouredText, by rfl,
    dif_pos detouredText.isValidUTF8, detoured_parsed⟩

/-- The config above the shader owns it. -/
theorem detoured_owner :
    owner? detouredWorld ⟨"/tour/src/two.frag"⟩ = .ok (some detouredTarget) := by
  have named : Path.fileName? ⟨"/tour/src/two.frag"⟩ = some "two.frag" := by decide +kernel
  have above : owningDirectories ⟨"/tour/src/two.frag"⟩ =
      [⟨"/tour/src"⟩, ⟨"/tour"⟩, ⟨"/"⟩] := by decide +kernel
  have none : immediateConfigs detouredWorld ⟨"/tour/src"⟩ = [] := List.mergeSort_nil
  have one : immediateConfigs detouredWorld ⟨"/tour"⟩ = [⟨"/tour/pack.sl.json"⟩] :=
    List.mergeSort_singleton _
  have held : ownerIn? detouredWorld ⟨"/tour/src/two.frag"⟩ ⟨"/tour"⟩ "two.frag"
      ⟨"/tour/pack.sl.json"⟩ = some detouredTarget := by
    rw [ownerIn?, detoured_load]
    rfl
  rw [owner?, named]
  refine congrArg Except.ok ?_
  rw [above, List.findSome?_cons, none, ownerAmong?_eq, List.findSome?_nil, List.findSome?_cons,
    one, ownerAmong?_eq, List.findSome?_cons, held]

theorem detoured_resolve : JobInput.resolve detouredWorld ⟨"/tour/src/two.frag"⟩ =
    .ok (.shader detouredTarget) := by
  have named : Path.fileName? ⟨"/tour/src/two.frag"⟩ = some "two.frag" := by decide +kernel
  show JobInput.resolveFile detouredWorld ⟨"/tour/src/two.frag"⟩ = _
  rw [JobInput.resolveFile, named, detoured_owner]
  rfl

/-- **A shader named by a path with detours** is sent under its base name, and so is its companion;
the config is sent with these names. -/
theorem plan_shader_detoured :
    ∃ sent, JobInput.plan detouredWorld (.shader detouredTarget) =
        .ok [⟨"index.sl.json", .bytes (String.toUTF8 sent)⟩,
          ⟨"two.frag", .file ⟨"/tour/src/two.frag"⟩⟩,
          ⟨"two.vert", .file ⟨"/tour/src/.//two.vert"⟩⟩] ∧
      ConfigFile.parse sent = .ok { detouredConfig with
        entries := [detouredEntry "two.vert" "two.frag"] } := by
  have bases : baseName? detouredTarget.entry.vertex = some "two.vert" ∧
      baseName? detouredTarget.entry.fragment = some "two.frag" := by decide +kernel
  have apart : ∀ written ∈ detouredTarget.entry.shaderPaths,
      baseName? written ≠ some canonicalName := by decide +kernel
  obtain ⟨own, other, vertex, fragment, sent, named, beside, planned, -, -, first, second, again,
    -⟩ := plan_shader detoured_resolve (by decide +kernel) apart
  obtain rfl : "two.frag" = own := Option.some.inj (by rw [← named]; decide +kernel)
  obtain rfl : "two.vert" = other := Option.some.inj (by rw [← beside]; decide +kernel)
  obtain rfl := Option.some.inj (bases.1.symm.trans first)
  obtain rfl := Option.some.inj (bases.2.symm.trans second)
  refine ⟨sent, planned, again fun real inside => ?_⟩
  obtain rfl : borrowingSeed = real := by
    simpa [detouredTarget, detouredConfig, detouredEntry, ConfigFile.toJson, ConfigEntry.toJson,
      ConfigEntry.optionalField] using inside
  show Json.read _ = _
  rfl

end ShaderForge
