/-
**The directories that may own a shader.**

The owner of a shader is looked for in the parents of its path, nearest first. These are parents by
their text: nothing is ever taken back, so the parents of `/art/../other/hero.vert` are
`/art/../other`, `/art/..` and `/art`, and the last of them is no directory above the shader.

* `owner?_root`: the root of an owner is a directory that is there, and its text begins the path;
* `owner?_root_above`: the rest of the path leads from there to the shader, and where that rest
  never climbs above it, the root is the directory of the shader or one above it;
* `owner?_root_astray`: the owner of a shader may lie beside it.
-/

import ShaderForge.Proofs.Confinement
import ShaderForge.Proofs.ConfigReadback
import ShaderForge.Proofs.PlanClashes

namespace ShaderForge

open World (keepsBelow settle)

variable {world : World} {path directory : Path} {target : ShaderTarget} {place home : Location}
  {bytes : ByteArray}

/-! ## Part 1 — the root of an owner -/

/-- A directory with configs in it is there. -/
theorem find_of_immediateConfigs {config : Path}
    (member : config ∈ immediateConfigs world directory) :
    ∃ home, world.find directory = .ok (home, .directory) := by
  unfold immediateConfigs World.entriesIn at member
  cases found : world.find directory with
  | error fault =>
    rw [found] at member
    exact absurd member List.not_mem_nil
  | ok held =>
    obtain ⟨home, node⟩ := held
    cases node with
    | file bytes =>
      rw [found] at member
      exact absurd member List.not_mem_nil
    | directory => exact ⟨home, rfl⟩

/-- **The root of an owner** is a directory that is there, and leads part of the way to the
shader. -/
theorem owner?_root (owned : owner? world path = .ok (some target)) :
    ∃ home, world.find target.root = .ok (home, .directory) ∧ target.root.LiesOn path := by
  obtain ⟨name, sibling, -, among, listed, -⟩ := owner?_ok owned
  obtain ⟨home, found⟩ := find_of_immediateConfigs listed
  exact ⟨home, found, Path.liesOn_of_mem_parents ((List.takeWhile_sublist _).subset among)⟩

/-- **A file beyond a directory** on its way is where the rest of its path leads from there; a rest
that never climbs above the directory leads to a place below it. -/
theorem World.file_beyond (there : world.find path = .ok (place, .file bytes))
    (found : world.find directory = .ok (home, .directory)) (on : directory.LiesOn path) :
    ∃ rest, path.parts = directory.parts ++ rest ∧ settle home rest = some place ∧
      (keepsBelow 0 rest = true → home <:+ place.tail) := by
  rcases on with none | ⟨begins, rest, shape⟩
  · rw [find_isEmpty found] at none
    cases none
  · obtain ⟨nothing, _⟩ | ⟨parent, entry, slashed, goal, rfl, held, _⟩ := find_ok there
    · cases nothing
    · have free : ¬ world.IsDirectoryAt (entry :: parent) := by
        intro directory
        rw [IsDirectoryAt, held] at directory
        cases directory
      obtain ⟨init, part, rfl, walked, proper, forth, named⟩ :=
        entry_beyond found begins.symm shape.symm goal free
      exact ⟨_, shape.symm, settle_entry walked proper forth named,
        fun stays => walk_below [] (keepsBelow_of_append stays) walked⟩

/-- **The owner of a shader is above it**, if the path never climbs above the root after it. -/
theorem owner?_root_above (there : world.find path = .ok (place, .file bytes))
    (owned : owner? world path = .ok (some target)) :
    ∃ home rest, world.find target.root = .ok (home, .directory) ∧
      path.parts = target.root.parts ++ rest ∧ settle home rest = some place ∧
      (keepsBelow 0 rest = true → home <:+ place.tail) := by
  obtain ⟨home, found, on⟩ := owner?_root owned
  obtain ⟨rest, shape, leads⟩ := World.file_beyond there found on
  exact ⟨home, rest, found, shape, leads⟩

/-! ## Part 2 — two shaders of one name -/

/-- The text of a config with a shader of a common name. -/
def commonText : String := "\x7b\"data\":[\x7b\"vsh\":\"mage.vert\",\"fsh\":\"mage.frag\"\x7d]\x7d"

/-- The entry in that text. -/
def commonEntry : ConfigEntry := ⟨none, none, "mage.vert", "mage.frag", none, []⟩

/-- A world with that config, a shader of that name beside it, and one elsewhere. -/
def commonWorld : World :=
  World.ofNodes [] [([⟨"kit", by decide⟩], .directory),
    ([⟨"mage.sl.json", by decide⟩, ⟨"kit", by decide⟩], .file commonText.toUTF8),
    ([⟨"mage.vert", by decide⟩, ⟨"kit", by decide⟩], .file ⟨#[]⟩),
    ([⟨"parts", by decide⟩, ⟨"kit", by decide⟩], .directory),
    ([⟨"other", by decide⟩], .directory),
    ([⟨"mage.vert", by decide⟩, ⟨"other", by decide⟩], .file ⟨#[]⟩)] (by decide) (by decide)

/-- The config is the owner if no directory before it has configs. -/
theorem common_owner (path directory config : Path) (before after : List Path)
    (named : path.fileName? = some "mage.vert")
    (directories : owningDirectories path = before ++ directory :: after)
    (empty : ∀ other ∈ before, immediateConfigs commonWorld other = [])
    (configs : immediateConfigs commonWorld directory = [config])
    (reads : commonWorld.read config = .ok commonText.toUTF8) :
    owner? commonWorld path = .ok (some ⟨directory, path, config, ⟨none, none, [commonEntry], []⟩,
      commonEntry, directory.below "mage.frag"⟩) := by
  have loaded : ConfigFile.load commonWorld config = .ok ⟨none, none, [commonEntry], []⟩ :=
    ConfigFile.load_eq_ok.mpr ⟨_, commonText, reads, dif_pos commonText.isValidUTF8, by rfl⟩
  have entry : entryFor? ⟨none, none, [commonEntry], []⟩ "mage.vert" =
      some (commonEntry, "mage.frag") := by rfl
  have earlier : before.findSome? (fun other => ownerAmong? commonWorld path other "mage.vert"
      (immediateConfigs commonWorld other)) = none := by
    refine List.findSome?_eq_none_iff.mpr fun other member => ?_
    rw [empty other member]
    rfl
  rw [owner?, named]
  dsimp only
  rw [directories, List.findSome?_append, earlier, Option.none_or, List.findSome?_cons, configs,
    ownerAmong?, List.findSome?_cons, loaded]
  simp only [Except.toOption, bind, Option.bind, entry]
  rfl

/-- A way through another directory leads to an owner beside the shader. -/
theorem owner?_root_above_detour :
    ∃ target home rest, owner? commonWorld ⟨"/kit/parts/../mage.vert"⟩ = .ok (some target) ∧
      commonWorld.find target.root = .ok (home, .directory) ∧
      Path.parts ⟨"/kit/parts/../mage.vert"⟩ = target.root.parts ++ rest ∧
      keepsBelow 0 rest = true ∧ home <:+ [⟨"kit", by decide⟩] := by
  have there : commonWorld.find ⟨"/kit/parts/../mage.vert"⟩ =
      .ok ([⟨"mage.vert", by decide⟩, ⟨"kit", by decide⟩], .file ⟨#[]⟩) := by rfl
  have owned := common_owner ⟨"/kit/parts/../mage.vert"⟩ ⟨"/kit/parts/.."⟩
    ⟨"/kit/parts/../mage.sl.json"⟩ [] [⟨"/kit/parts"⟩, ⟨"/kit"⟩, ⟨"/"⟩]
    (by decide +kernel) (by decide +kernel)
    (fun _ member => absurd member List.not_mem_nil) (by decide +kernel) (by rfl)
  obtain ⟨home, rest, found, shape, -, above⟩ := owner?_root_above there owned
  have whole : Path.parts ⟨"/kit/parts/../mage.vert"⟩ =
      Path.parts ⟨"/kit/parts/.."⟩ ++ ["mage.vert".toList] := by decide +kernel
  obtain rfl := List.append_cancel_left (whole.symm.trans shape)
  exact ⟨_, home, _, owned, found, shape, by decide, above (by decide)⟩

/-- **The owner of a shader may lie beside it**, where the path climbs above a directory again. -/
theorem owner?_root_astray :
    ¬ ∀ (world : World) (path : Path) (place home : Location) (bytes : ByteArray)
        (target : ShaderTarget),
      path.isAbsolute = true → world.find path = .ok (place, .file bytes) →
        owner? world path = .ok (some target) →
          world.find target.root = .ok (home, .directory) → home <:+ place.tail := by
  intro always
  have there : commonWorld.find ⟨"/kit/../other/mage.vert"⟩ =
      .ok ([⟨"mage.vert", by decide⟩, ⟨"other", by decide⟩], .file ⟨#[]⟩) := by rfl
  have owned := common_owner ⟨"/kit/../other/mage.vert"⟩ ⟨"/kit"⟩ ⟨"/kit/mage.sl.json"⟩
    [⟨"/kit/../other"⟩, ⟨"/kit/.."⟩] [⟨"/"⟩] (by decide +kernel) (by decide +kernel)
    (by decide +kernel) (by decide +kernel) (by rfl)
  have above := always _ _ _ [⟨"kit", by decide⟩] _ _ rfl there owned (by rfl)
  exact absurd above (by decide)

end ShaderForge
