/-
**A config on its way.**

A config that names no shader outside of its root is sent as it is. Any other one is written anew,
with these paths shortened, and what was written is read back as exactly that config
(`ConfigFile.parse_render_mapPaths`). Floating point numbers in it have to be ones that are read
back.

The entries of the plan are named, in this order and each name once: the shaders from outside of the
root by their base names, the config, the shaders below the root (`plan_config`).
-/

import ShaderForge.Proofs.ConfigReadback
import ShaderForge.Proofs.PlanClashes

namespace ShaderForge

open Json (HasReal ReadsBack)

/-! ## Part 1 — the entries of a plan -/

section Plan

variable {world : World} {path root : Path} {config : ConfigFile}
  {candidates plan entries brought : List ArchiveEntry} {references : List String}

/-- Names can be picked out before or after only the first of each is kept. -/
theorem firstOfEachName_filter (picked : String → Bool) (entries : List ArchiveEntry) :
    firstOfEachName (entries.filter fun entry => picked entry.name) =
      (firstOfEachName entries).filter fun entry => picked entry.name := by
  induction entries with
  | nil => rfl
  | cons first rest ih =>
    rw [firstOfEachName]
    by_cases there : picked first.name = true
    · have stays : ∀ others : List ArchiveEntry,
          (first :: others).filter (fun entry => picked entry.name) =
            first :: others.filter fun entry => picked entry.name :=
        fun others => List.filter_cons_of_pos there
      rw [stays, stays, firstOfEachName, ih, List.filter_filter, List.filter_filter]
      exact congrArg (first :: ·) (List.filter_congr fun entry _ => Bool.and_comm _ _)
    · have goes : ∀ others : List ArchiveEntry,
          (first :: others).filter (fun entry => picked entry.name) =
            others.filter fun entry => picked entry.name :=
        fun others => List.filter_cons_of_neg there
      rw [goes, goes, ih, List.filter_filter]
      refine List.filter_congr fun entry _ => ?_
      by_cases same : entry.name = first.name
      · rw [same, Bool.eq_false_iff.mpr there]
        rfl
      · rw [decide_eq_true same, Bool.and_true]

/-- **The names of the entries that are kept** are all names, each once. -/
theorem names_firstOfEachName (entries : List ArchiveEntry) :
    (firstOfEachName entries).map ArchiveEntry.name =
      (entries.map ArchiveEntry.name).eraseDups := by
  induction hsize : entries.length using Nat.strongRecOn generalizing entries with
  | ind size ih =>
    cases entries with
    | nil => rfl
    | cons first rest =>
      have later := ih _ (hsize ▸ Nat.lt_succ_of_le (List.length_filter_le _ _))
        (rest.filter fun entry => decide (entry.name ≠ first.name)) rfl
      rw [firstOfEachName, List.map_cons, List.map_cons, List.eraseDups_cons,
        ← firstOfEachName_filter (fun name => decide (name ≠ first.name)), later, List.filter_map]
      refine congrArg (first.name :: ·) (congrArg List.eraseDups (congrArg _ ?_))
      refine List.filter_congr fun entry _ => ?_
      show decide (entry.name ≠ first.name) = !(entry.name == first.name)
      rw [decide_not]
      rfl

/-- What is brought in has the base names of the shaders. -/
theorem Brought.names (brings : Brought world root references brought) :
    references.map baseName? = (brought.map ArchiveEntry.name).map some := by
  obtain ⟨rfl, all⟩ := brings
  induction references with
  | nil => rfl
  | cons reference references ih =>
    obtain ⟨first, others⟩ := List.forall_mem_cons.mp all
    obtain ⟨entry, made⟩ := Option.isSome_iff_exists.mp first
    rw [List.filterMap_cons, made, List.map_cons, List.map_cons, List.map_cons, ih others,
      (bring?_eq_some made).1]

/-- A config that names no shader outside of its root is sent as it is. -/
theorem configCandidates_verbatim (given : configCandidates world root path = .ok candidates)
    (loaded : ConfigFile.load world path = .ok config) (within : config.parentReferences = []) :
    ∃ name, candidates = ⟨name, .file path⟩ :: filed root (discoverShaders world root) := by
  obtain ⟨other, again, given⟩ := except_bind_ok given
  obtain rfl := Except.ok.inj (loaded.symm.trans again)
  obtain ⟨name, -, given⟩ := except_bind_ok given
  obtain ⟨⟨flats, brought⟩, flat, given⟩ := except_bind_ok given
  cases given
  obtain ⟨-, brings⟩ := flattenEntries_ok flat
  have nothing : brought = [] := by
    rw [brings.1]
    show config.parentReferences.filterMap _ = []
    rw [within]
    rfl
  refine ⟨name, ?_⟩
  rw [nothing]
  rfl

/-- **What is sent for a config**: its member is its own file if it names no shader outside of the
root; otherwise, unless such a shader has its name, it is the text of the same config with these
paths shortened. The names are those of what is brought in, of the config, and of the shaders below
the root, each once. -/
theorem plan_config (planned : JobInput.plan world (.config root path) = .ok plan) :
    ∃ content text config name brought entry, world.read path = .ok content ∧
      String.fromUTF8? content = some text ∧ ConfigFile.parse text = .ok config ∧
      path.fileName? = some name ∧
      config.parentReferences.map baseName? = brought.map some ∧
      plan.map ArchiveEntry.name =
        (brought ++ name :: (discoverShaders world root).map filedName).eraseDups ∧
      entry ∈ plan ∧ entry.name = name ∧
      (config.parentReferences = [] → entry.source.content world = .ok content) ∧
      (config.parentReferences ≠ [] → name ∉ brought →
        (∀ real, HasReal real config.toJson → ReadsBack real) →
          ∃ sent, entry.source.content world = .ok sent.toUTF8 ∧
            ConfigFile.parse sent = .ok config.shipped) := by
  obtain ⟨candidates, gathered, rfl⟩ := JobInput.plan_ok planned
  obtain ⟨config, own, brought, loaded, named, brings, shipped, shape⟩ :=
    configCandidates_ok gathered
  obtain ⟨content, text, reads, decoded, parsed⟩ := ConfigFile.load_eq_ok.mp loaded
  have names : (firstOfEachName candidates).map ArchiveEntry.name =
      (brought.map ArchiveEntry.name ++
        own.name :: (discoverShaders world root).map filedName).eraseDups := by
    rw [names_firstOfEachName, shape, List.map_append, List.map_cons, filed, List.map_map]
    rfl
  have there : (candidates.find? fun other => other.name = own.name).isSome := by
    rw [List.find?_isSome, shape]
    exact ⟨own, List.mem_append_right _ List.mem_cons_self, decide_eq_true rfl⟩
  have own_first : ∀ rest : List ArchiveEntry,
      (own :: rest).find? (fun other => decide (other.name = own.name)) = some own :=
    fun rest => List.find?_cons_of_pos (decide_eq_true rfl)
  obtain ⟨entry, found⟩ := Option.isSome_iff_exists.mp there
  obtain ⟨kept, same⟩ := find?_mem_firstOfEachName found
  refine ⟨content, text, config, own.name, brought.map ArchiveEntry.name, entry, reads, decoded,
    parsed, named, brings.names, names, kept, same, fun within => ?_, fun leaves apart back => ?_⟩
  · obtain ⟨name, verbatim⟩ := configCandidates_verbatim gathered loaded within
    have nothing : brought = [] := by rw [brings.1, within, List.filterMap_nil]
    rw [nothing, List.nil_append] at shape
    rw [shape, own_first] at found
    cases found
    rw [← (List.cons.inj (verbatim.symm.trans shape)).1]
    show liftIo (world.read path) = .ok content
    rw [reads]
    rfl
  · have absent : brought.find? (fun other => other.name = own.name) = none := by
      refine List.find?_eq_none.mpr fun other member => ?_
      rw [decide_eq_true_eq]
      exact fun alike => apart (alike ▸ List.mem_map_of_mem member)
    rw [shape, List.find?_append, absent, Option.none_or, own_first] at found
    cases found
    exact ⟨_, shipped leaves, ConfigFile.parse_render_mapPaths parsed back shippedPath⟩

end Plan

/-! ## Part 2 — a shader brought in -/

/-- The text of a config with a shader outside of its root, and with fields that are not known. -/
def borrowingText : String :=
  "\x7b\"seed\":1e16,\"data\":[\x7b\"note\":[1],\"vsh\":\"../base.vert\"," ++
    "\"fsh\":\"hero.frag\"\x7d]\x7d"

/-- The floating point number in that text. -/
def borrowingSeed : Decimal.Double := ⟨false, 5000000000000000, 1, by decide⟩

/-- A config as in that text, with a given path of its vertex shader. -/
def borrowingConfig (vertex : String) : ConfigFile :=
  ⟨none, none, [⟨none, none, vertex, "hero.frag", none, [("note", .list [.number (.integer 1)])]⟩],
    [("seed", .number (.real borrowingSeed))]⟩

/-- A world with that config and both shaders. -/
def borrowingWorld : World :=
  World.ofNodes [] [([⟨"art", by decide⟩], .directory),
    ([⟨"hero.sl.json", by decide⟩, ⟨"art", by decide⟩], .file borrowingText.toUTF8),
    ([⟨"hero.frag", by decide⟩, ⟨"art", by decide⟩], .file ⟨#[]⟩),
    ([⟨"base.vert", by decide⟩], .file ⟨#[1]⟩)] (by decide) (by decide)

theorem borrowing_parsed :
    ConfigFile.parse borrowingText = .ok (borrowingConfig "../base.vert") := by rfl

theorem borrowing_plan :
    JobInput.plan borrowingWorld (.config ⟨"/art"⟩ ⟨"/art/hero.sl.json"⟩) =
      .ok [⟨"base.vert", .bytes ⟨#[1]⟩⟩,
        ⟨"hero.sl.json", .bytes (borrowingConfig "base.vert").render.toUTF8⟩,
        ⟨"hero.frag", .file ⟨"/art/hero.frag"⟩⟩] := by
  have loaded : ConfigFile.load borrowingWorld ⟨"/art/hero.sl.json"⟩ =
      .ok (borrowingConfig "../base.vert") :=
    ConfigFile.load_eq_ok.mpr ⟨borrowingText.toUTF8, borrowingText, by rfl,
      dif_pos borrowingText.isValidUTF8, borrowing_parsed⟩
  have named : fileNameOf ⟨"/art/hero.sl.json"⟩ = .ok "hero.sl.json" := by rfl
  have flat : flattenEntries borrowingWorld ⟨"/art"⟩ ⟨"/art/hero.sl.json"⟩
      (borrowingConfig "../base.vert").entries =
        .ok ((borrowingConfig "base.vert").entries, [⟨"base.vert", .bytes ⟨#[1]⟩⟩]) := by rfl
  have shaders : discoverShaders borrowingWorld ⟨"/art"⟩ = [⟨"hero.frag"⟩] :=
    filesNamed_singleton (by decide +kernel)
  have candidates : JobInput.candidates borrowingWorld (.config ⟨"/art"⟩ ⟨"/art/hero.sl.json"⟩) =
      .ok [⟨"base.vert", .bytes ⟨#[1]⟩⟩,
        ⟨"hero.sl.json", .bytes (borrowingConfig "base.vert").render.toUTF8⟩,
        ⟨"hero.frag", .file ⟨"/art/hero.frag"⟩⟩] := by
    simp only [JobInput.candidates, configCandidates, loaded, named, bind, Except.bind]
    rw [flat, shaders]
    rfl
  rw [JobInput.plan, candidates]
  rfl

/-- **The config with a shader brought in** is sent with nothing but the path of that shader
changed. -/
theorem plan_config_borrowing :
    ∃ plan entry sent,
      JobInput.plan borrowingWorld (.config ⟨"/art"⟩ ⟨"/art/hero.sl.json"⟩) = .ok plan ∧
      plan.map ArchiveEntry.name = ["base.vert", "hero.sl.json", "hero.frag"] ∧
      entry ∈ plan ∧ entry.name = "hero.sl.json" ∧
      entry.source.content borrowingWorld = .ok (String.toUTF8 sent) ∧
      ConfigFile.parse sent = .ok (borrowingConfig "base.vert") := by
  obtain ⟨content, text, config, name, brought, entry, reads, decoded, parsed, named, bases, -,
    kept, same, -, changed⟩ := plan_config borrowing_plan
  have bytes : borrowingWorld.read ⟨"/art/hero.sl.json"⟩ = .ok borrowingText.toUTF8 := by rfl
  obtain rfl := Except.ok.inj (bytes.symm.trans reads)
  obtain rfl : borrowingText = text :=
    Option.some.inj ((dif_pos borrowingText.isValidUTF8).symm.trans decoded)
  obtain rfl := Except.ok.inj (borrowing_parsed.symm.trans parsed)
  obtain rfl : "hero.sl.json" = name := Option.some.inj (named ▸ rfl)
  have references : (borrowingConfig "../base.vert").parentReferences = ["../base.vert"] := by rfl
  have back : ∀ real, HasReal real (borrowingConfig "../base.vert").toJson → ReadsBack real := by
    intro real inside
    obtain rfl : borrowingSeed = real := by
      simpa [borrowingConfig, ConfigFile.toJson, ConfigEntry.toJson, ConfigEntry.optionalField]
        using inside
    show Json.read _ = _
    rfl
  have apart : "hero.sl.json" ∉ brought := by
    intro member
    have among : some "hero.sl.json" ∈ brought.map some := List.mem_map_of_mem member
    rw [← bases, references] at among
    exact absurd among (by decide)
  obtain ⟨sent, holds, again⟩ := changed (by rw [references]; exact List.cons_ne_nil _ _) apart back
  exact ⟨_, entry, sent, borrowing_plan, rfl, kept, same, holds, again⟩

end ShaderForge
