/-
**The files of a new shader.**

A new shader is a directory and three new files. Each step of making it leaves everything that is
there as it is, whether or not it ends well (`Disk.Spares`), and so do all of them together
(`Template.spares_writeFiles`).

If all goes well, the directory is there and the three files are in it, each under a name that was
free (`Template.exists_held`). In a directory that is new itself there are no other files
(`Template.exists_laid`). It is new if nothing was at the place that its path leads to in the end
(`Template.IsNew`), as it is where the path led to nothing before (`Template.isNew_of_missing`).
-/

import ShaderForge.Proofs.FoundAgain
import ShaderForge.Proofs.OpenedDirectories
import ShaderForge.Proofs.OwnerSearch
import ShaderForge.Template

namespace ShaderForge

/-! ## Part 1 — names below a path -/

namespace Path

variable {path base : Path} {name : String}

/-- **A name below a path** is one more part of it. -/
theorem parts_below (some_base : base.isEmpty = false) (proper : name.toList ≠ [])
    (plain : '/' ∉ name.toList) : (base.below name).parts = base.parts ++ [name.toList] := by
  rw [below, parts_join some_base (isAbsolute_plain plain)]
  show _ ++ solid name.toList = _
  rw [solid_of_notMem plain, List.filter_cons_of_pos (by simpa using proper)]
  rfl

/-- A path with a name below it is not empty. -/
theorem isEmpty_below (base : Path) (proper : name.toList ≠ []) :
    (base.below name).isEmpty = false := by
  rw [← Bool.not_eq_true, isEmpty_iff, below, toList_join, joinChars]
  split
  · exact proper
  · split <;> simp [proper]

/-- **The parent of an absolute path with a file name** is there, and absolute. -/
theorem exists_parent? {fileName : String} (absolute : path.isAbsolute = true)
    (named : path.fileName? = some fileName) :
    ∃ parent, path.parent? = some parent ∧ parent.isAbsolute = true := by
  obtain ⟨front, last, shape, proper⟩ : ∃ front last, path.steps = front ++ [last] ∧
      last.component ≠ .root := by
    unfold fileName? at named
    split at named
    · next text before through ends =>
      obtain ⟨front, shape⟩ := List.getLast?_eq_some_iff.mp ends
      exact ⟨front, _, shape, fun root => nomatch root⟩
    · cases named
  have begins := isAbsolute_iff_root.mp absolute
  rw [components, shape, List.map_append] at begins
  rcases List.eq_nil_or_concat front with rfl | ⟨init, inner, rfl⟩
  · exact absurd (Option.some.inj begins) proper
  · rw [List.concat_eq_append] at shape begins
    refine ⟨_, by rw [parent?, ancestry?_of_steps shape proper]; rfl, ?_⟩
    rw [List.append_assoc] at shape
    rw [List.head?_append_of_ne_nil _ (by simp)] at begins
    rwa [List.reverse_concat, isAbsolute_iff_root, reached, components,
      steps_through shape]

end Path

/-! ## Part 2 — actions that leave what is there -/

namespace Disk

variable {α β : Type} {action : Disk α} {next : α → Disk β}

/-- **An action that leaves everything that is there**, whether or not it ends well. -/
def Spares (action : Disk α) : Prop := ∀ world, World.Grown world (action.run.run world).2

theorem Spares.bind (first : Spares action) (second : ∀ value, Spares (next value)) :
    Spares (action >>= next) := by
  intro world
  have grown := first world
  rw [run_bind]
  rcases ran : action.run.run world with ⟨fault | value, middle⟩
  · rw [ran] at grown
    exact grown
  · rw [ran] at grown
    exact grown.trans (second value middle)

theorem spares_makeDirectories (path : Path) : Spares (makeDirectories path) := fun world =>
  (World.makeDirectories_opens path world).grown

end Disk

namespace World

variable {world after : World} {root : Path} {home place : Location} {node : Node}
  {bytes : ByteArray} {text : String}

/-- **A name in a directory that is there** leads to what is under it, if the path is short. -/
theorem find_below_iff (entry : EntryName) (there : world.find root = .ok (home, .directory)) :
    world.find (root.below entry.text) = .ok (place, node) ↔
      (root.below entry.text).text.utf8ByteSize < 4096 ∧ place = entry :: home ∧
        world.node? place = some node := by
  obtain ⟨trunk, mounted, joined⟩ := mounted_of_find there
  have path : root.below entry.text = scannedPath trunk ([] ++ [entry]) :=
    joined [entry] (List.cons_ne_nil _ _)
  rw [path]
  constructor
  · intro found
    rcases find_ok found with ⟨-, leads⟩ | ⟨parent, name, slashed, leads, shape, held, -⟩
    · rw [mounted.target_ok (target_short leads) mounted.top] at leads
      cases leads
    · have short := target_short leads
      rw [mounted.target_ok short mounted.top] at leads
      cases leads
      exact ⟨short, shape, held⟩
  · rintro ⟨short, rfl, held⟩
    exact mounted.find short held

/-- **A new file in a directory that is there** has the name that was asked for, which was free. -/
theorem writeNew_below (there : world.find root = .ok (place, .directory))
    (plain : '/' ∉ text.toList) (proper : text.toList ≠ [])
    (written : world.writeNew (root.below text) bytes = .ok after) :
    ∃ entry : EntryName, entry.text = text ∧ (root.below text).text.utf8ByteSize < 4096 ∧
      world.node? (entry :: place) = none ∧ world.Placed (entry :: place) (.file bytes) after := by
  obtain ⟨parent, entry, goal, free, placed⟩ := writeNew_placed written
  have relative := Path.isAbsolute_plain plain
  have parts := Path.parts_below (find_isEmpty there) proper plain
  have untaken : ¬ world.IsDirectoryAt (entry :: parent) := by
    rw [IsDirectoryAt, free]
    rintro ⟨⟩
  obtain ⟨init, part, shape, walked, -, -, named⟩ := entry_beyond there
    (Path.isAbsolute_join (find_isEmpty there) relative) parts goal untaken
  obtain ⟨rfl, same⟩ := List.append_inj' (show [] ++ [text.toList] = init ++ [part] from shape) rfl
  cases walked
  obtain rfl := List.singleton_inj.mp same
  have own : entry.text = text := by
    unfold entryName? at named
    split at named
    · cases named
      exact String.ofList_toList
    · cases named
  exact ⟨entry, own, target_short goal, free, placed⟩

end World

namespace Template

variable {name title : String} {files : Files} {base root path : Path} {place : Location}
  {world before after : World} {entry : EntryName}

theorem spares_writeText (path : Path) (text : String) : (writeText path text).Spares := by
  intro world
  rw [writeText, Disk.run_change]
  cases written : world.writeNew path text.toUTF8 with
  | error fault => exact .refl world
  | ok after =>
    obtain ⟨parent, name, -, free, placed⟩ := World.writeNew_placed written
    exact placed.grown free

/-- **Nothing that is there is touched** by making a new shader. -/
theorem spares_writeFiles (name : String) (files : Files) : (writeFiles name files).Spares :=
  (Disk.spares_makeDirectories _).bind fun _ => (spares_writeText _ _).bind fun _ =>
    (spares_writeText _ _).bind fun _ => spares_writeText _ _

/-- **What is made of a title**: nothing, if it can be no name, and all files otherwise. -/
theorem create_cases (path : Path) (title : String) (world : World) :
    create path title world = (.error (.invalidName (Text.trim title)), world) ∨
      isShaderTitle (Text.trim title) = true ∧
        ∃ outcome after, (writeFiles (Text.trim title)
            (filesFor (baseOf world path) (Text.trim title))).run.run world = (outcome, after) ∧
          create path title world = ((liftIo outcome).map fun _ =>
            filesFor (baseOf world path) (Text.trim title), after) := by
  unfold create
  generalize Text.trim title = name
  dsimp only
  cases titled : isShaderTitle name with
  | false => exact .inl rfl
  | true =>
    rcases ran : (writeFiles name (filesFor (baseOf world path) name)).run.run world with
      ⟨outcome, after⟩
    exact .inr ⟨rfl, outcome, after, rfl, rfl⟩

/-- The directory that an absolute path means is absolute too. -/
theorem isAbsolute_baseOf (absolute : path.isAbsolute = true) (world : World) :
    (baseOf world path).isAbsolute = true := by
  unfold baseOf
  split
  · next file =>
    obtain ⟨fileName, named⟩ := World.fileName?_of_isFile file
    obtain ⟨parent, above, rooted⟩ := Path.exists_parent? absolute named
    rw [above]
    exact rooted
  · exact absolute

/-! ## Part 3 — the files that are written -/

theorem writeText_ok {text : String}
    (ran : (writeText path text).run.run world = (.ok ⟨⟩, after)) :
    world.writeNew path text.toUTF8 = .ok after := by
  rw [writeText, Disk.run_change] at ran
  cases written : world.writeNew path text.toUTF8 with
  | error fault =>
    rw [written] at ran
    cases ran
  | ok later =>
    rw [written] at ran
    cases ran
    rfl

/-- **All steps of a new shader** that could be made. -/
theorem writeFiles_ok (ran : (writeFiles name files).run.run before = (.ok ⟨⟩, after)) :
    ∃ opened first second,
      (Disk.makeDirectories files.directory).run.run before = (.ok ⟨⟩, opened) ∧
      opened.writeNew files.config (config name).render.toUTF8 = .ok first ∧
      first.writeNew files.vertex vertexShader.toUTF8 = .ok second ∧
      second.writeNew files.fragment fragmentShader.toUTF8 = .ok after := by
  obtain ⟨_, -, ⟨⟩⟩ | ⟨_, opened, made, ran⟩ := Disk.run_bind_cases ran
  obtain ⟨_, -, ⟨⟩⟩ | ⟨_, first, config, ran⟩ := Disk.run_bind_cases ran
  obtain ⟨_, -, ⟨⟩⟩ | ⟨_, second, vertex, fragment⟩ := Disk.run_bind_cases ran
  exact ⟨opened, first, second, made, writeText_ok config, writeText_ok vertex,
    writeText_ok fragment⟩

theorem isShaderTitle_iff : isShaderTitle name = true ↔ name.toList ≠ [] ∧ '/' ∉ name.toList ∧
    '\\' ∉ name.toList ∧ name.toList ≠ ['.'] ∧ name.toList ≠ ['.', '.'] := by
  have texts : ∀ other : String, name ≠ other ↔ name.toList ≠ other.toList := fun other =>
    not_congr String.toList_inj.symm
  have free : ∀ c, (∀ d ∈ name.toList, d ≠ c) ↔ c ∉ name.toList := fun c =>
    ⟨fun apart among => apart c among rfl, fun free d among same => free (same ▸ among)⟩
  simp only [isShaderTitle, Bool.and_eq_true, Bool.not_eq_true', ← Bool.not_eq_true,
    String.isEmpty_iff, List.all_eq_true, bne_iff_ne, forall₂_and, free]
  rw [← ne_eq, texts, texts, texts]
  exact and_assoc.trans (and_assoc.trans (and_congr_right fun _ => and_assoc))

/-- **The names of the files of a new shader.** -/
structure FileNames (name : String) where
  config : EntryName
  vertex : EntryName
  fragment : EntryName
  config_text : config.text = name ++ configSuffix
  vertex_text : vertex.text = name ++ vertexSuffix
  fragment_text : fragment.text = name ++ fragmentSuffix

/-- All of them. -/
def FileNames.all (names : FileNames name) : List EntryName :=
  [names.config, names.vertex, names.fragment]

@[simp] theorem FileNames.mem_all (names : FileNames name) : entry ∈ names.all ↔
    entry = names.config ∨ entry = names.vertex ∨ entry = names.fragment := by
  simp [all]

/-- **A title is the name of an entry** if it is the front of one. -/
theorem isEntryName_of_title {suffix : String} (titled : isShaderTitle name = true)
    (longer : entry.text = name ++ suffix) : isEntryName name = true := by
  obtain ⟨proper, slash, -, here, up⟩ := isShaderTitle_iff.mp titled
  obtain ⟨-, -, -, -, plain, size⟩ := isEntryName_iff.mp entry.usable
  rw [longer, String.toList_append] at plain
  rw [longer, String.utf8ByteSize_append] at size
  exact isEntryName_iff.mpr ⟨proper, here, up, slash,
    fun among => plain (List.mem_append_left _ among), Nat.le_of_add_right_le size⟩

/-- **The files of a new shader in a directory**, under paths that can be followed. -/
structure Held (names : FileNames name) (root : Path) (place : Location) (world : World) :
    Prop where
  found : world.find root = .ok (place, .directory)
  short : ∀ entry ∈ names.all, (root.below entry.text).text.utf8ByteSize < 4096
  config : world.node? (names.config :: place) = some (.file (config name).render.toUTF8)
  vertex : world.node? (names.vertex :: place) = some (.file vertexShader.toUTF8)
  fragment : world.node? (names.fragment :: place) = some (.file fragmentShader.toUTF8)

/-- **Files that were written in a directory** are there, beside those that were there before. -/
theorem exists_held {first second : World} (titled : isShaderTitle name = true)
    (there : before.find root = .ok (place, .directory))
    (config : before.writeNew (root.below (name ++ configSuffix)) (config name).render.toUTF8 =
      .ok first)
    (vertex : first.writeNew (root.below (name ++ vertexSuffix)) vertexShader.toUTF8 = .ok second)
    (fragment : second.writeNew (root.below (name ++ fragmentSuffix)) fragmentShader.toUTF8 =
      .ok after) :
    ∃ names : FileNames name, Held names root place after ∧
      ∀ entry ∉ names.all, after.node? (entry :: place) = before.node? (entry :: place) := by
  obtain ⟨proper, slash, -⟩ := isShaderTitle_iff.mp titled
  -- The names of the files are free of slashes as the title is.
  have plain : ∀ suffix : String, '/' ∉ suffix.toList → '/' ∉ (name ++ suffix).toList :=
    fun suffix free among => by
      rw [String.toList_append, List.mem_append] at among
      exact among.elim slash free
  have some_name : ∀ suffix : String, (name ++ suffix).toList ≠ [] := fun suffix => by
    rw [String.toList_append]
    exact List.append_ne_nil_of_left_ne_nil proper _
  obtain ⟨c, cText, cShort, cFree, cPlaced⟩ :=
    World.writeNew_below there (plain _ (by decide)) (some_name _) config
  have there := (cPlaced.grown cFree).keepsDirectories.find_directory there
  obtain ⟨v, vText, vShort, vFree, vPlaced⟩ :=
    World.writeNew_below there (plain _ (by decide)) (some_name _) vertex
  have there := (vPlaced.grown vFree).keepsDirectories.find_directory there
  obtain ⟨f, fText, fShort, fFree, fPlaced⟩ :=
    World.writeNew_below there (plain _ (by decide)) (some_name _) fragment
  have last := fPlaced.grown fFree
  refine ⟨⟨c, v, f, cText, vText, fText⟩,
    ⟨last.keepsDirectories.find_directory there, ?_, ?_, ?_, ?_⟩, ?_⟩
  · intro entry among
    rcases (FileNames.mem_all _).mp among with rfl | rfl | rfl
    · rwa [cText]
    · rwa [vText]
    · rwa [fText]
  · exact last.kept _ _ ((vPlaced.grown vFree).kept _ _ (by rw [cPlaced.nodes, if_pos rfl]))
  · exact last.kept _ _ (by rw [vPlaced.nodes, if_pos rfl])
  · rw [fPlaced.nodes, if_pos rfl]
  · intro entry other
    have apart : ∀ name ∈ [c, v, f], entry :: place ≠ name :: place := fun name among same =>
      other ((List.cons.inj same).1 ▸ among)
    rw [fPlaced.nodes, if_neg (apart f (by simp)), vPlaced.nodes, if_neg (apart v (by simp)),
      cPlaced.nodes, if_neg (apart c (by simp))]

/-- **What there is when a new shader was made**: its files in its directory, beside files that were
there before. -/
theorem held_of_run (titled : isShaderTitle name = true)
    (ran : (writeFiles name (filesFor base name)).run.run before = (.ok ⟨⟩, after)) :
    ∃ (names : FileNames name) (place : Location), Held names (base.below name) place after ∧
      ∀ entry ∉ names.all, ∀ bytes, after.node? (entry :: place) = some (.file bytes) →
        before.node? (entry :: place) = some (.file bytes) := by
  have some_root := Path.isEmpty_below base (isShaderTitle_iff.mp titled).1
  obtain ⟨opened, first, second, made, config, vertex, fragment⟩ := writeFiles_ok ran
  have opens := World.makeDirectories_opens (filesFor base name).directory before
  rw [made] at opens
  obtain ⟨place, there⟩ := World.makeDirectories_found (Path.components_ne_nil some_root) made
  obtain ⟨names, held, beside⟩ := exists_held titled there config vertex fragment
  refine ⟨names, place, held, fun entry other bytes file => ?_⟩
  rw [beside entry other] at file
  exact opens.file file

/-! ## Part 4 — a directory of their own -/

/-- **A directory is new**: nothing was at the place that its path leads to. -/
def IsNew (before after : World) (directory : Path) : Prop :=
  ∀ place, after.find directory = .ok (place, .directory) → before.node? place = none

/-- **A directory that was missing** is new, if the one above it was there or its path never goes
up: past a part that was missing as well, `..` could lead back to a directory that was there. -/
theorem isNew_of_missing (titled : isShaderTitle name = true) (named : isEntryName name = true)
    (some_base : base.isEmpty = false) (grown : World.Grown before after)
    (missing : before.isThere (base.below name) = false)
    (leads : before.isDirectory base = true ∨ ['.', '.'] ∉ base.parts) :
    IsNew before after (base.below name) := by
  intro place found
  rw [← Option.not_isSome_iff_eq_none, Option.isSome_iff_exists]
  rintro ⟨node, held⟩
  -- What was at that place would have been found through the path before.
  suffices earlier : ∃ node, before.find (base.below name) = .ok (place, node) by
    obtain ⟨node, earlier⟩ := earlier
    rw [World.isThere, World.find?_eq_some.mpr earlier] at missing
    cases missing
  rcases leads with there | level
  · obtain ⟨home, there⟩ := World.isDirectory_iff.mp there
    have later := grown.keepsDirectories.find_directory there
    obtain ⟨short, rfl, -⟩ := (World.find_below_iff ⟨name, named⟩ later).mp found
    exact ⟨node, (World.find_below_iff ⟨name, named⟩ there).mpr ⟨short, rfl, held⟩⟩
  · obtain ⟨proper, slash, -, -, up⟩ := isShaderTitle_iff.mp titled
    refine ⟨.directory, grown.find_earlier ?_ found held⟩
    rw [Path.parts_below some_base proper slash, List.mem_append, List.mem_singleton]
    exact fun among => among.elim level (fun same => up same.symm)

/-- **The files of a new shader in a directory of their own**: one with an absolute path that is the
parent of what is in it, and without other files. -/
structure Laid (names : FileNames name) (root : Path) (place : Location) (world : World) : Prop
    extends Held names root place world where
  absolute : root.isAbsolute = true
  plain : ∀ last, root.fileName? = some last → last.toList.getLast? ≠ some '\\'
  above : ∀ entry : EntryName, (root.below entry.text).parent? = some root
  alone : ∀ entry bytes, world.node? (entry :: place) = some (.file bytes) → entry ∈ names.all

/-- What is below a title in a directory has that as its parent. -/
theorem parent?_below (named : isEntryName name = true) (some_base : base.isEmpty = false)
    (entry : EntryName) :
    ((base.below name).below entry.text).parent? = some (base.below name) := by
  obtain ⟨trunk, -, joined⟩ := Path.exists_trunk some_base
  have root : base.below name = scannedPath trunk [⟨name, named⟩] :=
    joined [⟨name, named⟩] (List.cons_ne_nil _ _)
  have inside : (scannedPath trunk [⟨name, named⟩]).below entry.text =
      scannedPath trunk ([⟨name, named⟩] ++ [entry]) :=
    Path.below_scannedPath trunk [] ⟨name, named⟩ entry
  rw [root, inside]
  exact (Path.parents_scannedPath trunk (List.cons_ne_nil _ []) entry).1

/-- **A new shader in a new directory** has its files there, and no other ones. -/
theorem exists_laid (titled : isShaderTitle name = true) (absolute : base.isAbsolute = true)
    (ran : (writeFiles name (filesFor base name)).run.run before = (.ok ⟨⟩, after))
    (fresh : IsNew before after (base.below name)) :
    ∃ (names : FileNames name) (place : Location), Laid names (base.below name) place after := by
  obtain ⟨-, slash, backslash, -⟩ := isShaderTitle_iff.mp titled
  obtain ⟨names, place, held, beside⟩ := held_of_run titled ran
  have named := isEntryName_of_title titled names.config_text
  have some_base := Path.isEmpty_of_isAbsolute absolute
  have rooted := Path.isAbsolute_join some_base (Path.isAbsolute_plain slash)
  refine ⟨names, place, held, rooted.trans absolute, ?_, parent?_below named some_base, ?_⟩
  · intro last ends
    rw [Path.fileName?_below base ⟨name, named⟩] at ends
    cases ends
    exact fun ends => backslash (List.mem_of_getLast? ends)
  · intro entry bytes file
    by_contra other
    -- A file that was there before would have been in the directory, which is new.
    have inside : before.IsDirectoryAt place := World.directory_of_below (List.cons_ne_nil entry [])
      (by rw [List.singleton_append, beside entry other bytes file]; rfl)
    rw [World.IsDirectoryAt, fresh place held.found] at inside
    cases inside

end Template

end ShaderForge
