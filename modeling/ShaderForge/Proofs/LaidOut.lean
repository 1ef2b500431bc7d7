/-
**A tree laid out below an empty directory.**

A tree says what is meant to be at each location below a directory; whatever it holds lies in a
directory that it holds (`Layered`). A world is on its way to the tree (`Toward`) if every location
there holds nothing or what is meant. Making a directory or writing a file that is meant keeps a
world on its way (`Toward.placed`), so nothing is ever in the way of what comes later: missing
directories can be made (`Toward.makeDirectories`), files can be written (`Toward.placeMember`), and
by induction a whole run of members succeeds (`Toward.placeAll`).

A world in which all files of the tree have been placed is as the tree says (`Toward.complete`).
-/

import ShaderForge.Proofs.NamedPaths
import ShaderForge.Proofs.TwinWorlds

namespace ShaderForge

open World (ChangedBelow KeepsDirectories Placed)

variable {world now later : World} {base way : Location} {directory : Path} {trunk : List Char}
  {names : List EntryName} {name : EntryName} {node : Node} {bytes : ByteArray}
  {meant : Location → Option Node}

/-! ## Part 1 — walking along names -/

namespace World

theorem entryName?_toList (name : EntryName) : entryName? name.text.toList = some name := by
  simp only [entryName?, String.ofList_toList]
  exact dif_pos name.usable

/-- **Walking goes the ways of the parts**: `.` leads nowhere. -/
theorem walk_ways (world : World) (base : Location) (parts : List (List Char)) :
    world.walk base (parts.filterMap Path.wayOf?) = world.walk base parts := by
  induction parts generalizing base with
  | nil => rfl
  | cons part parts ih =>
    rw [List.filterMap_cons, Path.wayOf?, walk]
    by_cases here : part = ['.']
    · rw [if_pos here, enter, if_pos here]
      exact ih base
    · rw [if_neg here]
      show world.walk base (part :: parts.filterMap Path.wayOf?) = _
      rw [walk]
      cases world.enter base part with
      | error fault => rfl
      | ok inner => exact ih inner

/-- A name leads to the directory that is under it. -/
theorem enter_name (there : world.IsDirectoryAt (name :: base)) :
    world.enter base name.text.toList = .ok (name :: base) := by
  obtain ⟨-, here, up, -⟩ := isEntryName_iff.mp name.usable
  exact enter_directory here up (entryName?_toList name) there

/-- **Names of directories are walked to the innermost one.** -/
theorem walk_names (there : world.IsDirectoryAt (names.reverse ++ base)) :
    world.walk base (names.map fun name => name.text.toList) = .ok (names.reverse ++ base) := by
  induction names generalizing base with
  | nil => rfl
  | cons first names ih =>
    rw [List.reverse_cons, List.append_assoc, List.singleton_append] at there ⊢
    have entered : world.IsDirectoryAt (first :: base) := by
      by_cases none : names.reverse = []
      · rwa [none, List.nil_append] at there
      · rw [IsDirectoryAt] at there
        exact directory_of_below none (by rw [there]; rfl)
    rw [List.map_cons, walk, enter_name entered]
    exact ih there

/-- **A walk along names ends where one is missing**, if no file is in the way. -/
theorem walk_missing
    (all : ∀ front, front <+: names →
      world.node? (front.reverse ++ base) = none ∨ world.IsDirectoryAt (front.reverse ++ base))
    (top : world.IsDirectoryAt base) (missing : ¬ world.IsDirectoryAt (names.reverse ++ base)) :
    world.walk base (names.map fun name => name.text.toList) = .error .notFound := by
  induction names generalizing base with
  | nil => exact absurd top missing
  | cons first names ih =>
    rw [List.map_cons, walk]
    rcases all [first] (List.prefix_append [first] names) with none | there
    · obtain ⟨-, here, up, -⟩ := isEntryName_iff.mp first.usable
      rw [List.reverse_singleton, List.singleton_append] at none
      rw [enter, if_neg here, if_neg up, entryName?_toList]
      simp only [none]
      rfl
    · have entered : world.IsDirectoryAt (first :: base) := there
      rw [enter_name entered]
      refine ih (fun front inside => ?_) entered ?_
      · have whole := all (first :: front) (List.cons_prefix_cons.mpr ⟨rfl, inside⟩)
        rwa [List.reverse_cons, List.append_assoc, List.singleton_append] at whole
      · rwa [List.reverse_cons, List.append_assoc, List.singleton_append] at missing

/-! ## Part 2 — texts that lead to a directory -/

/-- **A text that leads to a directory**, whatever names it goes on with. -/
structure Mounted (world : World) (trunk : List Char) (base : Location) : Prop where
  plain : Char.ofNat 0 ∉ trunk
  begins : world.IsDirectoryAt (world.start ⟨String.ofList (trunk ++ ['/'])⟩)
  walked : world.walk (world.start ⟨String.ofList (trunk ++ ['/'])⟩) (Path.solid trunk) = .ok base

theorem start_scannedPath (some_names : names ≠ []) :
    world.start (scannedPath trunk names) = world.start ⟨String.ofList (trunk ++ ['/'])⟩ := by
  rw [start, start, isAbsolute_scannedPath trunk some_names]

/-- **A directory that is there is a text that leads to it**, up to a slash at its end. -/
theorem mounted_of_find (found : world.find directory = .ok (base, .directory)) :
    ∃ trunk, world.Mounted trunk base ∧
      ∀ names ≠ [], directory.join (namedPath names) = scannedPath trunk names := by
  obtain ⟨trunk, shape, joined⟩ := Path.exists_trunk (find_isEmpty found)
  have plain : Char.ofNat 0 ∉ directory.text.toList := by
    rcases find_ok found with ⟨-, leads⟩ | ⟨_, _, _, leads, -⟩
    · exact target_plain leads
    · exact target_plain leads
  have begins : world.IsDirectoryAt (world.start directory) := by
    rcases find_ok found with ⟨-, leads⟩ | ⟨_, _, _, leads, -⟩
    · exact start_directory leads
    · exact start_directory leads
  have some_text : directory.text.toList ≠ [] := fun none => by
    have empty := find_isEmpty found
    rw [Path.isEmpty_iff.mpr none] at empty
    cases empty
  have same : Path.isAbsolute ⟨String.ofList (trunk ++ ['/'])⟩ = directory.isAbsolute ∧
      Path.solid trunk = directory.parts := by
    rw [Path.isAbsolute, Path.isAbsolute, String.toList_ofList, Path.parts]
    rcases shape with whole | whole
    · rw [whole] at some_text ⊢
      rw [Path.head?_append_of_ne_nil some_text]
      exact ⟨rfl, rfl⟩
    · rw [whole, Path.solid_append_slash, Path.solid_nil, List.append_nil]
      exact ⟨rfl, rfl⟩
  have starts : world.start ⟨String.ofList (trunk ++ ['/'])⟩ = world.start directory := by
    rw [start, start, same.1]
  refine ⟨trunk, ⟨fun inside => plain ?_, ?_, ?_⟩, joined⟩
  · rcases shape with whole | whole
    · rwa [whole]
    · rw [whole]
      exact List.mem_append_left _ inside
  · rwa [starts]
  · rw [starts, same.2]
    exact find_walk found

namespace Mounted

variable (mounted : world.Mounted trunk base)

include mounted

theorem top : world.IsDirectoryAt base := walk_directory mounted.begins mounted.walked

theorem keeps (keeps : KeepsDirectories world later) : later.Mounted trunk base where
  plain := mounted.plain
  begins := by
    rw [keeps.start]
    exact keeps.directory _ mounted.begins
  walked := by
    rw [keeps.start]
    exact keeps.walk mounted.walked

/-- **The target of names below a directory** is found by walking along all but the last. -/
theorem target (short : (scannedPath trunk (names ++ [name])).text.utf8ByteSize < 4096) :
    world.target (scannedPath trunk (names ++ [name])) =
      match world.walk base (names.map fun name => name.text.toList) with
      | .error fault => throw fault
      | .ok inner => .ok (.entry inner name false) := by
  have some_names : names ++ [name] ≠ [] := by simp
  have proper : (scannedPath trunk (names ++ [name])).isEmpty = false := by
    rw [← Bool.not_eq_true, Path.isEmpty_iff, toList_scannedPath_concat]
    simp
  have ends : ((scannedPath trunk (names ++ [name])).text.toList.getLast? == some '/') = false :=
    beq_eq_false_iff_ne.mpr (getLast?_scannedPath trunk names name)
  rw [target_eq proper (nul_notMem_scannedPath _ mounted.plain) short
    (by rw [start_scannedPath some_names]; exact mounted.begins), start_scannedPath some_names,
    ends, parts_scannedPath, List.map_append, List.map_singleton, ← List.append_assoc,
    targetFrom_append, walk_append_of_ok mounted.walked]
  cases world.walk base (names.map fun name => name.text.toList) with
  | error fault => rfl
  | ok inner =>
    obtain ⟨-, here, up, -⟩ := isEntryName_iff.mp name.usable
    show world.targetFrom false inner [name.text.toList] = _
    rw [targetFrom, if_neg here, if_neg up, entryName?_toList]
    rfl

/-- A name in a directory that is there is the target of its path. -/
theorem target_ok (short : (scannedPath trunk (names ++ [name])).text.utf8ByteSize < 4096)
    (there : world.IsDirectoryAt (names.reverse ++ base)) :
    world.target (scannedPath trunk (names ++ [name])) =
      .ok (.entry (names.reverse ++ base) name false) := by
  rw [mounted.target short, walk_names there]

/-- **What is at names below a directory** is found through their path. -/
theorem find (short : (scannedPath trunk (names ++ [name])).text.utf8ByteSize < 4096)
    (there : world.node? (name :: (names.reverse ++ base)) = some node) :
    world.find (scannedPath trunk (names ++ [name])) =
      .ok (name :: (names.reverse ++ base), node) := by
  have inside : world.IsDirectoryAt (names.reverse ++ base) :=
    directory_of_below (List.cons_ne_nil name []) (by rw [List.singleton_append, there]; rfl)
  rw [World.find, mounted.target_ok short inside]
  show world.nodeOf (.entry (names.reverse ++ base) name false) = _
  simp only [nodeOf, there, Bool.false_and]
  rfl

/-- The parent of a name in the directory leads to a directory, or is empty. -/
theorem find_parent {parent : Path} (short : (scannedPath trunk [name]).text.utf8ByteSize < 4096)
    (above : (scannedPath trunk [name]).parent? = some parent) :
    parent.isEmpty = true ∨ ∃ place, world.find parent = .ok (place, .directory) := by
  rcases Path.liesOn_of_parent? above with empty | ⟨begins, leads⟩
  · exact .inl empty
  · by_cases empty : parent.isEmpty = true
    · exact .inl empty
    · obtain ⟨rest, shape⟩ := Path.parent?_prefix above
      have starts : world.start parent = world.start ⟨String.ofList (trunk ++ ['/'])⟩ := by
        rw [World.start, begins, ← World.start, start_scannedPath (List.cons_ne_nil name [])]
      have fewer := Path.parts_parent?_lt above
      rw [parts_scannedPath, List.map_singleton] at leads fewer
      have within : parent.parts <+: Path.solid trunk := by
        rcases List.prefix_concat_iff.mp leads with whole | inside
        · rw [whole] at fewer
          exact absurd fewer (Nat.lt_irrefl _)
        · exact inside
      obtain ⟨more, whole⟩ := within
      have walked := mounted.walked
      rw [← whole, walk_append, ← starts] at walked
      cases reached : world.walk (world.start parent) parent.parts with
      | error fault =>
        rw [reached] at walked
        cases walked
      | ok place =>
        refine .inr ⟨place, find_of_walk (by simpa using empty) (fun inside => ?_) ?_ ?_ reached⟩
        · refine nul_notMem_scannedPath [name] mounted.plain ?_
          rw [← shape]
          exact List.mem_append_left _ inside
        · refine Nat.lt_of_le_of_lt ?_ short
          have texts : (scannedPath trunk [name]).text = parent.text ++ String.ofList rest := by
            rw [← String.toList_inj, String.toList_append, String.toList_ofList, shape]
          rw [texts, String.utf8ByteSize_append]
          exact Nat.le_add_right _ _
        · rw [starts]
          exact mounted.begins

end Mounted

end World

/-! ## Part 3 — trees -/

/-- **A tree that can be laid out**: whatever it holds lies in a directory that it holds. -/
def Layered (meant : Location → Option Node) : Prop :=
  ∀ name way, (meant (name :: way)).isSome → meant way = some .directory

/-- What is above something in a tree is a directory. -/
theorem Layered.above (layered : Layered meant) {below : Location} (some_below : below ≠ [])
    (held : (meant (below ++ way)).isSome) : meant way = some .directory := by
  induction below with
  | nil => exact absurd rfl some_below
  | cons name below ih =>
    have next := layered name (below ++ way) held
    cases below with
    | nil => exact next
    | cons second below => exact ih (List.cons_ne_nil _ _) (by rw [next]; rfl)

/-- **A world on its way to a tree** below a directory: every location there holds nothing or what
is meant. -/
structure Toward (meant : Location → Option Node) (trunk : List Char) (base : Location)
    (now : World) : Prop where
  mounted : now.Mounted trunk base
  inside : ∀ way, now.node? (way ++ base) = none ∨ now.node? (way ++ base) = meant way

/-- **A world that has come further** on its way to a tree, with no change elsewhere. -/
structure Advances (meant : Location → Option Node) (trunk : List Char) (base : Location)
    (now later : World) : Prop where
  changed : ChangedBelow base now later
  toward : Toward meant trunk base later

/-- **An empty directory** is on its way to any tree. -/
theorem Toward.of_empty (mounted : world.Mounted trunk base)
    (empty : ∀ name, world.node? (name :: base) = none) (top : meant [] = some .directory) :
    Toward meant trunk base world := by
  refine ⟨mounted, fun way => ?_⟩
  rcases List.eq_nil_or_concat way with rfl | ⟨init, last, rfl⟩
  · exact .inr (Eq.trans mounted.top top.symm)
  · -- What is deeper would need the outermost name to be that of a directory.
    rw [List.concat_eq_append, List.append_assoc, List.singleton_append]
    refine .inl ?_
    by_cases none : init = []
    · rw [none]
      exact empty last
    · by_contra held
      have above := World.directory_of_below none (Option.isSome_iff_ne_none.mpr held)
      rw [World.IsDirectoryAt, empty last] at above
      cases above

theorem Advances.trans {middle : World} (first : Advances meant trunk base now middle)
    (second : Advances meant trunk base middle later) : Advances meant trunk base now later :=
  ⟨first.changed.trans second.changed, second.toward⟩

namespace Toward

variable (toward : Toward meant trunk base now)

include toward

theorem refl : Advances meant trunk base now now := ⟨ChangedBelow.refl base now, toward⟩

/-- **What is meant may be placed.** -/
theorem placed (way : Location) (placed : Placed now (way ++ base) node later)
    (fits : meant way = some node) : Advances meant trunk base now later := by
  have changed : ChangedBelow base now later := by
    refine ChangedBelow.of_placed placed (List.suffix_append _ _) fun held found => ?_
    rcases toward.inside way with none | same
    · rw [found] at none
      cases none
    · rw [found, fits] at same
      rw [Option.some.inj same]
  refine ⟨changed, toward.mounted.keeps changed.keepsDirectories, fun other => ?_⟩
  rw [placed.nodes]
  by_cases same : other = way
  · rw [if_pos (congrArg (· ++ base) same), same, fits]
    exact .inr rfl
  · rw [if_neg fun whole => same (List.append_cancel_right whole)]
    exact toward.inside other

/-- Where a directory is meant, no file is in the way. -/
theorem vacant_or_directory (fits : meant way = some .directory) :
    now.node? (way ++ base) = none ∨ now.IsDirectoryAt (way ++ base) :=
  (toward.inside way).imp_right fun same => same.trans fits

/-! ## Part 4 — directories -/

/-- **A directory that is meant can be made** in a directory, or is there. -/
theorem makeDirectory (fits : meant (name :: names.reverse) = some .directory)
    (there : now.IsDirectoryAt (names.reverse ++ base))
    (short : (scannedPath trunk (names ++ [name])).text.utf8ByteSize < 4096) :
    (∃ later, now.makeDirectory (scannedPath trunk (names ++ [name])) = .ok later ∧
      Advances meant trunk base now later ∧
        later.IsDirectoryAt (name :: (names.reverse ++ base))) ∨
    now.makeDirectory (scannedPath trunk (names ++ [name])) = .error .alreadyExists ∧
      now.isDirectory (scannedPath trunk (names ++ [name])) = true ∧
        now.IsDirectoryAt (name :: (names.reverse ++ base)) := by
  rcases toward.vacant_or_directory fits with free | held
  · obtain ⟨later, made, placed⟩ :=
      World.makeDirectory_ok (toward.mounted.target_ok short there) there free
    refine .inl ⟨later, made, toward.placed (name :: names.reverse) placed fits, ?_⟩
    rw [World.IsDirectoryAt, placed.nodes, if_pos rfl]
  · have found := toward.mounted.find short held
    refine .inr ⟨World.makeDirectory_of_find found, ?_, held⟩
    rw [World.isDirectory, World.find?, found]
    rfl

theorem ensureDirectory (fits : meant (name :: names.reverse) = some .directory)
    (there : now.IsDirectoryAt (names.reverse ++ base))
    (short : (scannedPath trunk (names ++ [name])).text.utf8ByteSize < 4096) :
    ∃ later, (Disk.ensureDirectory (scannedPath trunk (names ++ [name]))).run.run now =
        (.ok ⟨⟩, later) ∧
      Advances meant trunk base now later ∧
        later.IsDirectoryAt (name :: (names.reverse ++ base)) := by
  rw [Disk.run_ensureDirectory]
  rcases toward.makeDirectory fits there short with ⟨later, made, goes⟩ | ⟨stands, isThere, held⟩
  · rw [made]
    exact ⟨later, rfl, goes⟩
  · rw [stands]
    dsimp only
    rw [if_pos isThere]
    exact ⟨now, rfl, toward.refl, held⟩

/-- Where a directory is missing above another one, nothing can be made. -/
theorem makeDirectory_missing (layered : Layered meant)
    (fits : meant names.reverse = some .directory)
    (missing : ¬ now.IsDirectoryAt (names.reverse ++ base))
    (short : (scannedPath trunk (names ++ [name])).text.utf8ByteSize < 4096) :
    now.makeDirectory (scannedPath trunk (names ++ [name])) = .error .notFound := by
  have all : ∀ front, front <+: names → now.node? (front.reverse ++ base) = none ∨
      now.IsDirectoryAt (front.reverse ++ base) := by
    rintro front ⟨rest, rfl⟩
    refine toward.vacant_or_directory ?_
    rw [List.reverse_append] at fits
    by_cases none : rest.reverse = []
    · rwa [none, List.nil_append] at fits
    · exact layered.above none (by rw [fits]; rfl)
  rw [World.makeDirectory, toward.mounted.target short,
    World.walk_missing all toward.mounted.top missing]
  rfl

/-- **A directory that is meant can be made**, with every missing one above it. The induction takes
the last name away, as the directories are made when the innermost one cannot be. -/
theorem makeDirectories (layered : Layered meant) (some_names : names ≠ [])
    (fits : meant names.reverse = some .directory)
    (short : (scannedPath trunk names).text.utf8ByteSize < 4096) :
    ∃ later, (Disk.makeDirectories (scannedPath trunk names)).run.run now = (.ok ⟨⟩, later) ∧
      Advances meant trunk base now later ∧ later.IsDirectoryAt (names.reverse ++ base) := by
  induction names using List.reverseRecOn with
  | nil => exact absurd rfl some_names
  | append_singleton names name ih =>
    rw [List.reverse_concat] at fits ⊢
    have proper : (scannedPath trunk (names ++ [name])).components ≠ [] := by
      rw [Path.components, Path.steps_scannedPath_concat]
      simp
    rw [Disk.makeDirectories, Disk.run_ensureDirectories_cons, if_neg proper]
    -- The innermost directory is tried first; the others are made only if that fails.
    by_cases there : now.IsDirectoryAt (names.reverse ++ base)
    · rcases toward.makeDirectory fits there short with
        ⟨later, made, goes⟩ | ⟨stands, isThere, held⟩
      · rw [made]
        exact ⟨later, rfl, goes⟩
      · rw [stands]
        dsimp only
        rw [if_pos isThere]
        exact ⟨now, rfl, toward.refl, held⟩
    · have more : names ≠ [] := by
        rintro rfl
        exact there toward.mounted.top
      have above : meant names.reverse = some .directory :=
        layered name _ (by rw [fits]; rfl)
      have shorter : (scannedPath trunk names).text.utf8ByteSize < 4096 :=
        Nat.lt_of_le_of_lt (utf8ByteSize_scannedPath_concat trunk names name) short
      obtain ⟨middle, made, first, held⟩ := ih more above shorter
      obtain ⟨later, last, second, goes⟩ := first.toward.ensureDirectory fits held short
      rw [toward.makeDirectory_missing layered above there short,
        (Path.parents_scannedPath trunk more name).2]
      dsimp only
      rw [← Disk.makeDirectories, Disk.run_bind, made]
      exact ⟨later, last, first.trans second, goes⟩

/-! ## Part 5 — files -/

/-- **The directory of a file that is meant can be made.** -/
theorem makeParent (layered : Layered meant) (fits : meant names.reverse = some .directory)
    (short : (scannedPath trunk (names ++ [name])).text.utf8ByteSize < 4096) :
    ∃ later, (Zip.makeParent (scannedPath trunk (names ++ [name]))).run.run now =
        (.ok ⟨⟩, later) ∧
      Advances meant trunk base now later ∧ later.IsDirectoryAt (names.reverse ++ base) := by
  rw [Zip.makeParent]
  by_cases more : names = []
  · subst more
    have top := toward.mounted.top
    cases above : (scannedPath trunk ([] ++ [name])).parent? with
    | none => exact ⟨now, rfl, toward.refl, top⟩
    | some parent =>
      -- The parent may be written unlike the directory, but it leads to one, so nothing is made.
      refine ⟨now, ?_, toward.refl, top⟩
      show (Disk.makeDirectories parent).run.run now = (.ok ⟨⟩, now)
      rw [Disk.makeDirectories, Disk.run_ensureDirectories_cons]
      rcases toward.mounted.find_parent short above with empty | ⟨place, found⟩
      · refine if_pos ?_
        rw [Path.components, Path.steps, Path.isEmpty_iff.mp empty]
        rfl
      · split
        · rfl
        · rw [World.makeDirectory_of_find found]
          dsimp only
          rw [if_pos]
          rw [World.isDirectory, World.find?, found]
          rfl
  · rw [(Path.parents_scannedPath trunk more name).1]
    exact toward.makeDirectories layered more fits
      (Nat.lt_of_le_of_lt (utf8ByteSize_scannedPath_concat trunk names name) short)

/-- **A file that is meant can be written.** -/
theorem writeMember {member : Zip.Member} (layered : Layered meant) (sound : member.fault = none)
    (fits : meant (name :: names.reverse) = some (.file member.data))
    (short : (scannedPath trunk (names ++ [name])).text.utf8ByteSize < 4096) :
    ∃ later, (Zip.writeMember (scannedPath trunk (names ++ [name])) member).run.run now =
        (.ok ⟨⟩, later) ∧
      Advances meant trunk base now later ∧
        (later.node? (name :: (names.reverse ++ base))).isSome := by
  have above : meant names.reverse = some .directory := layered name _ (by rw [fits]; rfl)
  obtain ⟨middle, made, first, held⟩ := toward.makeParent layered above short
  have free : ¬ middle.IsDirectoryAt (name :: (names.reverse ++ base)) := by
    intro taken
    rcases first.toward.inside (name :: names.reverse) with none | same
    · exact absurd (none.symm.trans taken) (by simp)
    · exact absurd ((same.trans fits).symm.trans taken) (by simp)
  obtain ⟨later, written, placed⟩ :=
    World.write_ok member.data (first.toward.mounted.target_ok short held) held free
  refine ⟨later, ?_, first.trans (first.toward.placed (name :: names.reverse) placed fits),
    ?_⟩
  · rw [Zip.run_writeMember, made]
    dsimp only
    rw [written, sound]
  · rw [placed.nodes, if_pos rfl]
    rfl

end Toward

/-- The member that a file with given names becomes. -/
def namedMember (names : List EntryName) (bytes : ByteArray) : Zip.Member :=
  ⟨(namedPath names).text, bytes, none⟩

/-- **Names make a safe name.** -/
theorem isSafeName_namedPath (some_names : names ≠ []) :
    Zip.isSafeName (namedPath names).text = true := by
  refine Zip.isSafeName_iff.mpr ⟨fun inside => ?_, isAbsolute_namedPath some_names, ?_⟩
  · refine nul_notMem_scannedPath names (List.not_mem_nil : _ ∉ []) ?_
    rw [toList_scannedPath [] some_names]
    exact List.mem_cons_of_mem _ inside
  · rw [show Path.parts ⟨(namedPath names).text⟩ = _ from parts_namedPath names]
    refine World.keepsBelow_of_names fun part member => ?_
    obtain ⟨name, -, rfl⟩ := List.mem_map.mp member
    obtain ⟨-, here, up, -⟩ := isEntryName_iff.mp name.usable
    exact ⟨here, up⟩

/-- **What a run of members needs to lay out a tree**: each is a file of it, under its names. -/
structure Fits (meant : Location → Option Node) (trunk : List Char)
    (file : List EntryName × ByteArray) : Prop where
  named : file.1 ≠ []
  meant : meant file.1.reverse = some (.file file.2)
  plain : Zip.isDirectoryName (namedPath file.1).text = false
  short : (scannedPath trunk file.1).text.utf8ByteSize < 4096

namespace Toward

variable {files : List (List EntryName × ByteArray)}
  (joined : ∀ names ≠ [], directory.join (namedPath names) = scannedPath trunk names)

include joined

/-- **A member that is meant can be unpacked.** -/
theorem placeMember {file : List EntryName × ByteArray} (toward : Toward meant trunk base now)
    (layered : Layered meant) (fits : Fits meant trunk file) :
    ∃ later, (Zip.placeMember directory (namedMember file.1 file.2)).run.run now =
        (.ok ⟨⟩, later) ∧
      Advances meant trunk base now later ∧ (later.node? (file.1.reverse ++ base)).isSome := by
  obtain ⟨names, bytes⟩ := file
  obtain ⟨some_names, whole, plain, short⟩ := fits
  dsimp only at some_names whole plain short ⊢
  have target : (namedMember names bytes).target directory = scannedPath trunk names :=
    joined names some_names
  have safe : Zip.isSafeName (namedMember names bytes).name = true :=
    isSafeName_namedPath some_names
  have file : Zip.isDirectoryName (namedMember names bytes).name = false := plain
  rw [Zip.placeMember, safe, file, target]
  obtain ⟨init, last, rfl⟩ := (List.eq_nil_or_concat names).resolve_left some_names
  rw [List.concat_eq_append] at whole short ⊢
  rw [List.reverse_concat] at whole ⊢
  exact toward.writeMember layered rfl whole short

/-- **Members that are meant can be unpacked one after the other.** -/
theorem placeAll (toward : Toward meant trunk base now) (layered : Layered meant)
    (all : ∀ file ∈ files, Fits meant trunk file) :
    ∃ paths later, (Zip.placeAll directory
        (files.map fun file => namedMember file.1 file.2)).run.run now = (.ok paths, later) ∧
      Advances meant trunk base now later ∧
        ∀ file ∈ files, (later.node? (file.1.reverse ++ base)).isSome := by
  induction files generalizing now with
  | nil => exact ⟨[], now, rfl, toward.refl, fun _ member => absurd member List.not_mem_nil⟩
  | cons file files ih =>
    obtain ⟨fits, others⟩ := List.forall_mem_cons.mp all
    obtain ⟨middle, placed, first, here⟩ := toward.placeMember joined layered fits
    obtain ⟨paths, later, ran, second, rest⟩ := ih first.toward others
    refine ⟨_, later, by rw [List.map_cons, Zip.run_placeAll_cons, placed]; dsimp only; rw [ran],
      first.trans second, fun other member => ?_⟩
    rcases List.mem_cons.mp member with rfl | inside
    · obtain ⟨node, held⟩ := Option.isSome_iff_exists.mp here
      obtain ⟨still, stays, -⟩ := second.changed.kept _ node held
      rw [stays]
      rfl
    · exact rest other inside

end Toward

/-! ## Part 6 — the whole tree -/

/-- **A world with all files of a tree is as the tree says**, if each directory of the tree is one
on the way to a file. -/
theorem Toward.complete (toward : Toward meant trunk base now)
    (files : ∀ way bytes, meant way = some (.file bytes) → (now.node? (way ++ base)).isSome)
    (leads : ∀ way, way ≠ [] → meant way = some .directory →
      ∃ below bytes, below ≠ [] ∧ meant (below ++ way) = some (.file bytes))
    (way : Location) : now.node? (way ++ base) = meant way := by
  rcases toward.inside way with none | same
  · cases held : meant way with
    | none => exact none
    | some node =>
      have there : (now.node? (way ++ base)).isSome := by
        cases node with
        | file bytes => exact files way bytes held
        | directory =>
          by_cases here : way = []
          · rw [here, List.nil_append, toward.mounted.top]
            rfl
          · obtain ⟨below, bytes, some_below, file⟩ := leads way here held
            have lower := files _ bytes file
            rw [List.append_assoc] at lower
            have directory := World.directory_of_below some_below lower
            rw [World.IsDirectoryAt] at directory
            rw [directory]
            rfl
      rw [none] at there
      cases there
  · exact same

end ShaderForge
