/-
**A directory sent and unpacked.**

The plan of a directory has one entry for each source below it, filed under its names
(`plan_directory`). Written to a file, the archive holds these sources with their bytes
(`packed_sources`), and the file is all that has changed (`Job.perform_writeArchive`). Unpacked into
an empty directory, its members lay out the tree of the sources, and nothing else
(`Job.perform_extractFile`).

So what is unpacked are exactly the configs and shaders at any depth below the directory that was
sent (`Job.directory_round_trip`). What can be in the way is the disk alone: the archive needs a
place where a file can be made, and paths have to be short enough
(`Job.directory_round_trip_limits`).
-/

import ShaderForge.Proofs.Packing
import ShaderForge.Proofs.SourceFiles

namespace ShaderForge

open World (KeepsDirectories Placed)

variable {hooks : Hooks} {session : Session} {report : Nat → Nat → Job Unit}
  {shown : Nat → Nat → Event} {world before after : World} {root destination directory : Path}
  {place parent base : Location} {entry : EntryName} {node : Node} {bytes : ByteArray}
  {files : List (List EntryName × ByteArray)}

/-! ## Part 1 — the plan and its members -/

/-- **The plan of a directory** has all files listed in it, each once. -/
theorem plan_directory (world : World) (root : Path) :
    JobInput.plan world (.directory root) = .ok (filed root (discoverFiles world root)) :=
  congrArg Except.ok (firstOfEachName_of_distinct (filed_distinct isSourceName world root))

/-- The archive that files under their names make. -/
def namedArchive (files : List (List EntryName × ByteArray)) : Archive :=
  ⟨files.map fun file => ((namedPath file.1).text, file.2)⟩

/-- **Files that can be read are packed under their names.** -/
theorem packed_sources
    (reads : ∀ file ∈ files, world.read (root.join (namedPath file.1)) = .ok file.2) :
    packed world (filed root (files.map fun file => namedPath file.1)) =
      ⟨(namedArchive files).members, none⟩ := by
  induction files with
  | nil => rfl
  | cons file files ih =>
    obtain ⟨first, others⟩ := List.forall_mem_cons.mp reads
    have member : ArchiveEntry.member world
        ⟨filedName (namedPath file.1), .file (root.join (namedPath file.1))⟩ =
          .ok ((namedPath file.1).text, file.2) := by
      rw [ArchiveEntry.member, EntrySource.content, first, filedName_namedPath]
      rfl
    show packed world (⟨_, .file _⟩ :: filed root _) = _
    rw [packed, member, ih others]
    rfl

/-! ## Part 2 — the archive in a file -/

namespace World

/-- A node placed where no directory was leaves every directory. -/
theorem Placed.keepsDirectories (placed : before.Placed place node after)
    (free : ¬ before.IsDirectoryAt place) : KeepsDirectories before after where
  cwd := placed.cwd
  directory other there := by
    have apart : other ≠ place := fun same => free (same ▸ there)
    rw [IsDirectoryAt, placed.nodes, if_neg apart]
    exact there

/-- What is placed last at a location stays. -/
theorem Placed.again {middle : World} {first : Node} (once : before.Placed place first middle)
    (twice : middle.Placed place node after) : before.Placed place node after where
  cwd := twice.cwd.trans once.cwd
  nodes other := by
    rw [twice.nodes, once.nodes]
    by_cases same : other = place
    · rw [if_pos same, if_pos same]
    · rw [if_neg same, if_neg same, if_neg same]

/-- A name that a path leads to is one in a directory. -/
theorem target_parent {slashed : Bool}
    (goal : world.target destination = .ok (.entry parent entry slashed)) :
    world.IsDirectoryAt parent := by
  obtain ⟨init, part, -, walked, -⟩ := targetFrom_entry (target_ok goal).1
  exact walk_directory (start_directory goal) walked

/-- **A file that was written is written anew**, through the same path. -/
theorem Placed.write_again {old : ByteArray}
    (placed : before.Placed (entry :: parent) (.file old) after) (bytes : ByteArray)
    (goal : before.target destination = .ok (.entry parent entry false))
    (free : ¬ before.IsDirectoryAt (entry :: parent)) :
    ∃ last, after.write destination bytes = .ok last ∧
      before.Placed (entry :: parent) (.file bytes) last := by
  have keeps := placed.keepsDirectories free
  have taken : ¬ after.IsDirectoryAt (entry :: parent) := by
    rw [IsDirectoryAt, placed.nodes, if_pos rfl]
    rintro ⟨⟩
  obtain ⟨last, finished, second⟩ := write_ok bytes (keeps.target goal)
    (keeps.directory parent (target_parent goal)) taken
  exact ⟨last, finished, placed.again second⟩

/-- A file is read through a path that leads to it. -/
theorem read_of_find (found : world.find destination = .ok (place, .file bytes)) :
    world.read destination = .ok bytes := by
  rw [read, found]
  rfl

/-- **What was written is found** at the path that it was written to. -/
theorem Placed.find (placed : before.Placed (entry :: parent) (.file bytes) after)
    (free : ¬ before.IsDirectoryAt (entry :: parent))
    (goal : before.target destination = .ok (.entry parent entry false)) :
    after.find destination = .ok (entry :: parent, .file bytes) := by
  rw [World.find, (placed.keepsDirectories free).target goal]
  show after.nodeOf (.entry parent entry false) = _
  simp only [nodeOf, placed.nodes, if_true, Bool.false_and]
  rfl

/-- **What was written is read** at the path that it was written to. -/
theorem Placed.read (placed : before.Placed (entry :: parent) (.file bytes) after)
    (free : ¬ before.IsDirectoryAt (entry :: parent))
    (goal : before.target destination = .ok (.entry parent entry false)) :
    after.read destination = .ok bytes :=
  read_of_find (placed.find free goal)

/-- The sources below a root are read through their paths. -/
theorem Mounted.read {trunk : List Char} {names : List EntryName}
    (mounted : world.Mounted trunk place) (some_names : names ≠ [])
    (short : (scannedPath trunk names).text.utf8ByteSize < 4096)
    (held : world.node? (names.reverse ++ place) = some (.file bytes)) :
    world.read (scannedPath trunk names) = .ok bytes := by
  obtain ⟨init, last, rfl⟩ := (List.eq_nil_or_concat names).resolve_left some_names
  rw [List.concat_eq_append] at short held ⊢
  rw [List.reverse_concat] at held
  exact read_of_find (mounted.find short held)

end World

/-- **Sources are packed as they are when something else is placed** outside of where they lie. -/
theorem packed_beside {other : Location} (there : before.find root = .ok (place, .directory))
    (sound : ∀ file ∈ files, file.1 ≠ [] ∧
      before.sourceAt? (file.1.reverse ++ place) = some file.2)
    (short : ∀ file ∈ files, (root.join (namedPath file.1)).text.utf8ByteSize < 4096)
    (placed : before.Placed other node after) (free : ¬ before.IsDirectoryAt other)
    (outside : ¬ place <:+ other) :
    packed after (filed root (files.map fun file => namedPath file.1)) =
      ⟨(namedArchive files).members, none⟩ := by
  obtain ⟨trunk, mounted, joined⟩ := World.mounted_of_find there
  refine packed_sources fun file member => ?_
  obtain ⟨some_names, source⟩ := sound file member
  obtain ⟨name, above, shape, -, held⟩ := World.sourceAt?_eq_some.mp source
  rw [← shape] at held
  have apart : file.1.reverse ++ place ≠ other := fun same =>
    outside (same ▸ List.suffix_append _ _)
  have close := short file member
  rw [joined file.1 some_names] at close ⊢
  refine (mounted.keeps (placed.keepsDirectories free)).read some_names close ?_
  rw [placed.nodes, if_neg apart, held]

namespace Job

theorem perform_write (session : Session)
    (written : session.world.write destination bytes = .ok after) :
    (onDisk (Disk.write destination bytes)).perform hooks session =
      (.ok ⟨⟩, { session with world := after }) := by
  rw [perform_onDisk, Disk.write, Disk.run_change, written]
  rfl

/-- **An archive written to a file** is all that changes, if its members can be read once the file
is there. -/
theorem perform_writeArchive (quiet : hooks.Quiet) (shows : Shows hooks report shown)
    (goal : session.world.target destination = .ok (.entry parent entry false))
    (free : ¬ session.world.IsDirectoryAt (entry :: parent)) {plan : List ArchiveEntry}
    {archive : Archive}
    (reads : ∀ middle, session.world.Placed (entry :: parent) (.file .empty) middle →
      packed middle plan = ⟨archive.members, none⟩) :
    ∃ middle, (writeArchive report plan destination).perform hooks session =
        (.ok archive, middle) ∧
      session.world.Placed (entry :: parent) (.file archive.bytes) middle.world := by
  have inside := World.target_parent goal
  -- The file is there, empty, before anything is packed, so the members are read with it around.
  obtain ⟨opened, started, first⟩ := World.write_ok .empty goal inside free
  obtain ⟨closed, finished, last⟩ := first.write_again archive.bytes goal free
  refine ⟨{ session with
    world := closed
    trace := Packing.trace ⟨archive.members, none⟩ shown (expectedSize session.world plan) 0 ++
      session.trace }, ?_, last⟩
  rw [writeArchive, perform_bind_ok perform_get, perform_bind_ok (perform_write session started),
    perform_bind_ok (perform_packFrom quiet shows _ _ _)]
  dsimp only
  rw [reads opened first]
  dsimp only
  rw [← Archive.bytes, perform_bind_ok (perform_write ⟨opened, _, _⟩ finished)]
  rfl

end Job

/-! ## Part 3 — the archive unpacked -/

/-- **Sources are unpacked in their order**, as none of them is the log of the service. -/
theorem Zip.extractionOrder_sources (named : ∀ file ∈ files, ∃ init last,
    file.1 = init ++ [last] ∧ isSourceName last.text = true) :
    extractionOrder (files.map fun file => namedMember file.1 file.2) =
      files.map fun file => namedMember file.1 file.2 := by
  have plain : ∀ member ∈ files.map (fun file => namedMember file.1 file.2),
      member.isLog = false := by
    intro member among
    obtain ⟨file, inside, rfl⟩ := List.mem_map.mp among
    obtain ⟨init, last, same, source⟩ := named file inside
    rw [same]
    exact isLog_source source init file.2
  have first : (files.map fun file => namedMember file.1 file.2).filter
      (fun member => !member.isLog) = files.map fun file => namedMember file.1 file.2 :=
    List.filter_eq_self.mpr fun member among => by rw [plain member among]; rfl
  have last : (files.map fun file => namedMember file.1 file.2).filter Member.isLog = [] :=
    List.filter_eq_nil_iff.mpr fun member among => by simp [plain member among]
  rw [extractionOrder, first, last, List.append_nil]

namespace Job

theorem perform_unpack (quiet : hooks.Quiet)
    (opened : session.world.read destination = .ok bytes) :
    ∃ looks, (extractFile destination directory).perform hooks session =
      ((unpack bytes directory session.world).1,
        { session with
          world := (unpack bytes directory session.world).2
          trace := List.replicate looks .looked ++ session.trace }) := by
  have reading : (inspect fun world => liftIo (world.read destination)).perform hooks session =
      (.ok bytes, session) := by
    rw [perform_inspect, opened]
    rfl
  obtain ⟨looks, performed⟩ := @perform_extract directory hooks session bytes quiet
  exact ⟨looks, by rw [extractFile, perform_bind_ok reading, performed]⟩

/-- **Sources unpacked into an empty directory** lay out their tree there, and nothing else is
touched. -/
theorem perform_extractFile (quiet : hooks.Quiet) {sources : World}
    (opened : session.world.read destination = .ok bytes)
    (members : Zip.members? bytes = some (files.map fun file => namedMember file.1 file.2))
    (found : session.world.find directory = .ok (base, .directory))
    (empty : ∀ name, session.world.node? (name :: base) = none)
    (top : sources.sourceTree place [] = some .directory)
    (sound : ∀ file ∈ files, file.1 ≠ [] ∧
      sources.sourceAt? (file.1.reverse ++ place) = some file.2)
    (whole : ∀ names bytes, names ≠ [] → sources.sourceAt? (names.reverse ++ place) = some bytes →
      (names, bytes) ∈ files)
    (short : ∀ file ∈ files,
      (directory.join (namedPath file.1)).text.utf8ByteSize < 4096) :
    ∃ paths left, (extractFile destination directory).perform hooks session =
        (.ok paths, left) ∧
      (∀ way, left.world.node? (way ++ base) = sources.sourceTree place way) ∧
      ∀ other, ¬ base <:+ other → left.world.node? other = session.world.node? other := by
  obtain ⟨trunk, mounted, joined⟩ := World.mounted_of_find found
  have named : ∀ file ∈ files, ∃ init last, file.1 = init ++ [last] ∧
      isSourceName last.text = true :=
    fun file member => World.sourceAt?_names (sound file member).1 (sound file member).2
  have fits : ∀ file ∈ files, Fits (sources.sourceTree place) trunk file := by
    intro file member
    obtain ⟨some_names, source⟩ := sound file member
    obtain ⟨init, last, same, isSource⟩ := named file member
    refine ⟨some_names, World.sourceTree_eq_file.mpr source, ?_, ?_⟩
    · rw [same]
      exact isDirectoryName_source isSource init
    · rw [← joined file.1 some_names]
      exact short file member
  obtain ⟨paths, later, ran, advances, placed⟩ :=
    (Toward.of_empty mounted empty top).placeAll joined (World.layered_sourceTree sources place)
      fits
  have unpacked : unpack bytes directory session.world = (.ok paths, later) := by
    rw [unpack, members]
    dsimp only
    rw [Zip.extractionOrder_sources named, ran]
    rfl
  obtain ⟨looks, performed⟩ := @perform_unpack hooks session destination directory _ quiet opened
  rw [unpacked] at performed
  refine ⟨paths, _, performed,
    advances.toward.complete ?_ fun way _ held => World.sourceTree_leads held,
    advances.changed.outside⟩
  -- Every file of the tree is among the members, so none is missing at the end.
  intro way bytes held
  have source := World.sourceTree_eq_file.mp held
  have some_way : way.reverse ≠ [] := by
    rw [ne_eq, List.reverse_eq_nil_iff]
    rintro rfl
    rw [top] at held
    cases held
  rw [← List.reverse_reverse way] at source ⊢
  exact placed _ (whole _ _ some_way source)

/-! ## Part 4 — there and back -/

/-- A valid root leads to a source. -/
theorem sourceTree_root (absolute : root.isAbsolute = true)
    (plain : ∀ name, root.fileName? = some name → name.toList.getLast? ≠ some '\\')
    (valid : validateRoot world root = .ok ⟨⟩)
    (there : world.find root = .ok (place, .directory)) :
    world.sourceTree place [] = some .directory := by
  obtain ⟨path, member⟩ :=
    List.exists_mem_of_ne_nil _ (discoverFiles_ne_nil (validateRoot_iff.mp valid).1)
  obtain ⟨names, bytes, some_names, -, -, found⟩ :=
    (mem_discoverFiles absolute plain there).mp member
  have lower : world.sourceAt? (names.reverse ++ ([] ++ place)) = some bytes := found
  exact World.sourceTree_above (List.reverse_ne_nil_iff.mpr some_names) lower

/-- **What comes back of a directory**: planned, written to an archive outside of it and unpacked
into an empty directory, it gives exactly the configs and shaders at any depth below it, at the same
places and with the same bytes, and the directories on the way to them. The archive is written
wherever a file can be made, and unpacked wherever paths are short enough. -/
theorem directory_round_trip (quiet : hooks.Quiet) (shows : Shows hooks report shown)
    (absolute : root.isAbsolute = true)
    (plain : ∀ name, root.fileName? = some name → name.toList.getLast? ≠ some '\\')
    (valid : validateRoot session.world root = .ok ⟨⟩)
    (there : session.world.find root = .ok (place, .directory))
    (short : ∀ names ≠ [], (session.world.node? (names.reverse ++ place)).isSome →
      (root.join (namedPath names)).text.utf8ByteSize < 4096)
    (goal : session.world.target destination = .ok (.entry parent entry false))
    (free : ¬ session.world.IsDirectoryAt (entry :: parent))
    (outside : ¬ place <:+ entry :: parent) :
    ∃ plan archive middle, JobInput.plan session.world (.directory root) = .ok plan ∧
      (writeArchive report plan destination).perform hooks session = (.ok archive, middle) ∧
      session.world.Placed (entry :: parent) (.file archive.bytes) middle.world ∧
      ∀ directory base, middle.world.find directory = .ok (base, .directory) →
        (∀ name, middle.world.node? (name :: base) = none) →
        (∀ path ∈ discoverFiles session.world root,
          (directory.join path).text.utf8ByteSize < 4096) →
        Zip.members? archive.bytes =
          some (archive.members.map fun member => ⟨member.1, member.2, none⟩) →
        ∃ paths left, (extractFile destination directory).perform hooks middle =
            (.ok paths, left) ∧
          (∀ way, left.world.node? (way ++ base) = session.world.sourceTree place way) ∧
          ∀ other, ¬ base <:+ other → left.world.node? other = middle.world.node? other := by
  obtain ⟨files, listed, sound, all⟩ := exists_sources absolute plain there
  -- No source is left out of the list, as the path of the scan is no longer than the joined one.
  have whole : ∀ names bytes, names ≠ [] →
      session.world.sourceAt? (names.reverse ++ place) = some bytes → (names, bytes) ∈ files := by
    intro names bytes some_names source
    obtain ⟨name, above, shape, -, held⟩ := World.sourceAt?_eq_some.mp source
    refine all names bytes some_names (Nat.lt_of_le_of_lt
      (utf8ByteSize_visitedPath (World.find_isEmpty there) some_names) ?_) source
    exact short names some_names (by rw [shape, held]; rfl)
  have close : ∀ file ∈ files, (root.join (namedPath file.1)).text.utf8ByteSize < 4096 := by
    intro file member
    obtain ⟨some_names, source⟩ := sound file member
    obtain ⟨name, above, shape, -, held⟩ := World.sourceAt?_eq_some.mp source
    exact short file.1 some_names (by rw [shape, held]; rfl)
  have reads : ∀ middle, session.world.Placed (entry :: parent) (.file .empty) middle →
      packed middle (filed root (discoverFiles session.world root)) =
        ⟨(namedArchive files).members, none⟩ := by
    intro middle placed
    rw [listed]
    exact packed_beside there sound close placed free outside
  obtain ⟨middle, written, placed⟩ := perform_writeArchive quiet shows goal free reads
  refine ⟨_, namedArchive files, middle, plan_directory session.world root, written, placed, ?_⟩
  intro directory base found empty fits opens
  have opened := placed.read free goal
  refine perform_extractFile quiet opened ?_ found empty
    (sourceTree_root absolute plain valid there) sound whole fun file member => ?_
  · rw [opens, namedArchive, List.map_map]
    rfl
  · refine fits _ ?_
    rw [listed]
    exact List.mem_map_of_mem member

end Job

/-! ## Part 5 — a tree on three levels -/

/-- A world with sources on three levels and odd names, and a directory to unpack them into. -/
def storeyedWorld : World :=
  World.ofNodes [] [([⟨"house", by decide⟩], .directory),
    ([⟨".hidden.GLSL", by decide⟩, ⟨"house", by decide⟩], .file ⟨#[1]⟩),
    ([⟨"deep", by decide⟩, ⟨"house", by decide⟩], .directory),
    ([⟨"dir.vert", by decide⟩, ⟨"deep", by decide⟩, ⟨"house", by decide⟩], .directory),
    ([⟨"B.VERT", by decide⟩, ⟨"dir.vert", by decide⟩, ⟨"deep", by decide⟩, ⟨"house", by decide⟩],
      .file ⟨#[2, 3]⟩),
    ([⟨"floor.sl.json", by decide⟩, ⟨"house", by decide⟩], .file ⟨#[]⟩),
    ([⟨"notes.txt", by decide⟩, ⟨"house", by decide⟩], .file ⟨#[4]⟩),
    ([⟨"out", by decide⟩], .directory)] (by decide) (by decide)

/-- The sources in it, with their names. -/
def storeyedFiles : List (List EntryName × ByteArray) :=
  [([⟨".hidden.GLSL", by decide⟩], ⟨#[1]⟩),
    ([⟨"deep", by decide⟩, ⟨"dir.vert", by decide⟩, ⟨"B.VERT", by decide⟩], ⟨#[2, 3]⟩),
    ([⟨"floor.sl.json", by decide⟩], ⟨#[]⟩)]

/-- A job in which nothing is cancelled. -/
def calmHooks : Hooks :=
  ⟨.never, fun _ => none, fun _ _ world => .ok (.timedOut, world),
    fun _ _ => .answered 200 [] false⟩

theorem calm_quiet : calmHooks.Quiet := fun _ => rfl

theorem calm_shows : Job.Shows calmHooks Job.reportPacked .packed := fun _ _ _ => rfl

theorem storeyed_listed : discoverFiles storeyedWorld ⟨"/house"⟩ =
    storeyedFiles.map fun file => namedPath file.1 :=
  filesNamed_of_ordered (by decide +kernel) (by decide +kernel)

theorem storeyed_valid : validateRoot storeyedWorld ⟨"/house"⟩ = .ok ⟨⟩ := by
  have configs : discoverConfigs storeyedWorld ⟨"/house"⟩ = [⟨"floor.sl.json"⟩] :=
    filesNamed_of_ordered (by decide +kernel) (by decide +kernel)
  have shaders : discoverShaders storeyedWorld ⟨"/house"⟩ =
      [⟨".hidden.GLSL"⟩, ⟨"deep/dir.vert/B.VERT"⟩] :=
    filesNamed_of_ordered (by decide +kernel) (by decide +kernel)
  rw [validateRoot_iff, configs, shaders]
  exact ⟨List.cons_ne_nil _ _, List.cons_ne_nil _ _⟩

theorem storeyed_there :
    storeyedWorld.find ⟨"/house"⟩ = .ok ([⟨"house", by decide⟩], .directory) := rfl

theorem storeyed_sound : ∀ file ∈ storeyedFiles, file.1 ≠ [] ∧
    storeyedWorld.sourceAt? (file.1.reverse ++ [⟨"house", by decide⟩]) = some file.2 := by
  decide +kernel

theorem storeyed_short : ∀ names ≠ [],
    (storeyedWorld.node? (names.reverse ++ [⟨"house", by decide⟩])).isSome →
      (Path.join ⟨"/house"⟩ (namedPath names)).text.utf8ByteSize < 4096 := by
  intro names some_names held
  have all : ∀ entry ∈ storeyedWorld.nodes,
      (Path.join ⟨"/house"⟩ (namedPath entry.1.dropLast.reverse)).text.utf8ByteSize < 4096 := by
    decide +kernel
  obtain ⟨node, found⟩ := Option.isSome_iff_exists.mp held
  obtain ⟨last, more, shape⟩ := List.exists_cons_of_ne_nil
    (List.append_ne_nil_of_left_ne_nil (List.reverse_ne_nil_iff.mpr some_names) _)
  rw [shape] at found
  have close := all _ (World.mem_of_node? found)
  rwa [← shape, List.dropLast_concat, List.reverse_reverse] at close

/-- There is no file or directory where the archive is written. -/
theorem storeyed_free : ¬ storeyedWorld.IsDirectoryAt [⟨"out.zip", by decide⟩] :=
  fun there => nomatch there

theorem storeyed_outside : ¬ [⟨"house", by decide⟩] <:+ [(⟨"out.zip", by decide⟩ : EntryName)] := by
  decide

/-- The archive of the sources is written. -/
theorem storeyed_written : ∃ middle,
    (Job.writeArchive Job.reportPacked (filed ⟨"/house"⟩ (discoverFiles storeyedWorld ⟨"/house"⟩))
      ⟨"/out.zip"⟩).perform calmHooks (Session.fresh storeyedWorld) =
        (.ok (namedArchive storeyedFiles), middle) ∧
      storeyedWorld.Placed [⟨"out.zip", by decide⟩] (.file (namedArchive storeyedFiles).bytes)
        middle.world := by
  refine @Job.perform_writeArchive _ (.fresh storeyedWorld) _ _ _ _ _ calm_quiet calm_shows rfl
    storeyed_free _ _ fun middle placed => ?_
  rw [storeyed_listed]
  exact packed_beside storeyed_there storeyed_sound (by decide +kernel) placed storeyed_free
    storeyed_outside

/-- The archive is opened again. -/
theorem storeyed_opens : Zip.members? (namedArchive storeyedFiles).bytes =
    some ((namedArchive storeyedFiles).members.map fun member => ⟨member.1, member.2, none⟩) := by
  decide +kernel

/-- Nothing lies in the directory to unpack the archive into. -/
theorem storeyed_empty {middle : World}
    (placed : storeyedWorld.Placed [⟨"out.zip", by decide⟩]
      (.file (namedArchive storeyedFiles).bytes) middle) (name : EntryName) :
    middle.node? [name, ⟨"out", by decide⟩] = none := by
  have all : ∀ entry ∈ storeyedWorld.nodes, entry.1.tail ≠ [⟨"out", by decide⟩] := by decide
  rw [placed.nodes, if_neg (by simp), Option.eq_none_iff_forall_ne_some]
  intro node found
  exact all _ (World.mem_of_node? found) rfl

namespace Job

/-- Sources on three levels come back, and nothing else does. -/
theorem directory_round_trip_storeyed :
    ∃ plan archive middle paths left,
      JobInput.plan storeyedWorld (.directory ⟨"/house"⟩) = .ok plan ∧
      (writeArchive reportPacked plan ⟨"/out.zip"⟩).perform calmHooks (.fresh storeyedWorld) =
        (.ok archive, middle) ∧
      (extractFile ⟨"/out.zip"⟩ ⟨"/out"⟩).perform calmHooks middle = (.ok paths, left) ∧
      left.world.node? [⟨"B.VERT", by decide⟩, ⟨"dir.vert", by decide⟩, ⟨"deep", by decide⟩,
        ⟨"out", by decide⟩] = some (.file ⟨#[2, 3]⟩) ∧
      left.world.node? [⟨"notes.txt", by decide⟩, ⟨"out", by decide⟩] = none := by
  obtain ⟨plan, archive, middle, planned, written, placed, unpacked⟩ :=
    @directory_round_trip calmHooks (.fresh storeyedWorld) reportPacked .packed ⟨"/house"⟩
      ⟨"/out.zip"⟩ _ [] ⟨"out.zip", by decide⟩ calm_quiet calm_shows rfl (by decide) storeyed_valid
      storeyed_there storeyed_short rfl storeyed_free storeyed_outside
  obtain ⟨again, same, -⟩ := storeyed_written
  cases planned.symm.trans (plan_directory storeyedWorld ⟨"/house"⟩)
  cases written.symm.trans same
  have found : middle.world.find ⟨"/out"⟩ = .ok ([⟨"out", by decide⟩], .directory) :=
    (placed.keepsDirectories storeyed_free).find_directory rfl
  have fits : ∀ path ∈ discoverFiles storeyedWorld ⟨"/house"⟩,
      (Path.join ⟨"/out"⟩ path).text.utf8ByteSize < 4096 := by
    rw [storeyed_listed]
    decide +kernel
  obtain ⟨paths, left, extracted, tree, -⟩ :=
    unpacked ⟨"/out"⟩ _ found (storeyed_empty placed) fits storeyed_opens
  exact ⟨_, _, middle, paths, left, planned, written, extracted,
    (tree [⟨"B.VERT", by decide⟩, ⟨"dir.vert", by decide⟩, ⟨"deep", by decide⟩]).trans
      (World.sourceTree_eq_file.mpr (by decide +kernel)),
    (tree [⟨"notes.txt", by decide⟩]).trans (by decide +kernel)⟩

end Job

/-! ## Part 6 — what the disk refuses -/

namespace Zip

/-- **Whatever was written has a short path.** -/
theorem placeAll_short {members : List Member} {paths : List Path}
    (ran : (placeAll directory members).run.run world = (.ok paths, after)) :
    ∀ member ∈ members, member.isWritten = true →
      (member.target directory).text.utf8ByteSize < 4096 := by
  induction members generalizing world paths with
  | nil => exact fun _ among => absurd among List.not_mem_nil
  | cons member rest ih =>
    rw [run_placeAll_cons] at ran
    rcases first : (placeMember directory member).run.run world with ⟨outcome, middle⟩
    rw [first] at ran
    cases outcome with
    | error fault => cases ran
    | ok value =>
      dsimp only at ran
      rcases second : (placeAll directory rest).run.run middle with ⟨listed, last⟩
      rw [second] at ran
      cases listed with
      | error fault => cases ran
      | ok later =>
        cases ran
        intro other among written
        rcases List.mem_cons.mp among with rfl | inside
        · rcases placeMember_cases directory other with
            ⟨unwritten, -⟩ | ⟨-, unwritten, -⟩ | ⟨-, -, file⟩
          · exact absurd (unwritten.symm.trans written) Bool.false_ne_true
          · exact absurd (unwritten.symm.trans written) Bool.false_ne_true
          · rw [file] at first
            rcases writeMember_cases first with ⟨_, -, failed⟩ | ⟨_, -, ⟨_, failed, -⟩ | placed⟩
            · cases failed
            · cases failed
            · obtain ⟨_, _, leads, -⟩ := World.write_placed placed
              exact World.target_short leads
        · exact ih second other inside written

end Zip

namespace Job

/-- **An archive that was unpacked** has no file whose path is too long. -/
theorem extractFile_short (quiet : hooks.Quiet) {members : List Zip.Member} {paths : List Path}
    {left : Session} (opened : session.world.read destination = .ok bytes)
    (listed : Zip.members? bytes = some members)
    (done : (extractFile destination directory).perform hooks session = (.ok paths, left)) :
    ∀ member ∈ members, member.isWritten = true →
      (member.target directory).text.utf8ByteSize < 4096 := by
  obtain ⟨looks, performed⟩ := @perform_unpack hooks session destination directory _ quiet opened
  obtain ⟨outcome, after, ran⟩ : ∃ outcome after,
      (Zip.placeAll directory (Zip.extractionOrder members)).run.run session.world =
        (outcome, after) := ⟨_, _, rfl⟩
  rw [performed, unpack, listed] at done
  dsimp only at done
  rw [ran] at done
  cases outcome with
  | error fault => cases done
  | ok placed =>
    exact fun member among => Zip.placeAll_short ran member (Zip.mem_extractionOrder.mpr among)

end Job

/-- A joined path is at least as long as both of its parts. -/
theorem utf8ByteSize_join {path : Path} {names : List EntryName} (some_path : path.isEmpty = false)
    (some_names : names ≠ []) :
    path.text.utf8ByteSize + (namedPath names).text.utf8ByteSize ≤
      (path.join (namedPath names)).text.utf8ByteSize := by
  obtain ⟨trunk, shape, joined⟩ := Path.exists_trunk some_path
  have whole : path.text.utf8ByteSize ≤ String.utf8Len trunk + 1 := by
    rw [← String.utf8Len_toList]
    rcases shape with same | same
    · rw [same]
      exact Nat.le_succ _
    · rw [same, String.utf8Len_append]
      exact Nat.le_refl _
  rw [joined names some_names, ← String.utf8Len_toList (scannedPath trunk names).text,
    toList_scannedPath trunk some_names, String.utf8Len_append, String.utf8Len_cons,
    String.utf8Len_toList, show ('/' : Char).utf8Size = 1 from rfl]
  omega

/-- The directory to unpack into, with more slashes before its name. -/
def slashedOut (count : Nat) : Path :=
  ⟨String.ofList ('/' :: (List.replicate count '/' ++ "out".toList))⟩

theorem utf8ByteSize_slashedOut (count : Nat) :
    (slashedOut count).text.utf8ByteSize = count + 4 := by
  have slashes : String.utf8Len (List.replicate count '/') = count := by
    induction count with
    | zero => rfl
    | succ count ih => rw [List.replicate_succ, String.utf8Len_cons, ih]; rfl
  rw [slashedOut, String.utf8ByteSize_ofList, String.utf8Len_cons, String.utf8Len_append, slashes]
  rfl

/-- More slashes lead to the same directory, as long as the path is short enough. -/
theorem find_slashedOut {count : Nat} (short : count + 4 < 4096)
    (there : world.IsDirectoryAt [⟨"out", by decide⟩]) :
    world.find (slashedOut count) = .ok ([⟨"out", by decide⟩], .directory) := by
  have parts : (slashedOut count).parts = ["out".toList] := by
    rw [Path.parts, slashedOut, String.toList_ofList, Path.solid_slash_cons]
    induction count with
    | zero => decide
    | succ count ih =>
      rw [List.replicate_succ, List.cons_append, Path.solid_slash_cons]
      exact ih (by omega)
  have start : world.start (slashedOut count) = [] := by
    rw [World.start, if_pos]
    rw [Path.isAbsolute_iff, slashedOut, String.toList_ofList]
    rfl
  refine World.find_of_walk ?_ ?_ ?_ ?_ ?_
  · rw [← Bool.not_eq_true, Path.isEmpty_iff, slashedOut, String.toList_ofList]
    exact List.cons_ne_nil _ _
  · rw [slashedOut, String.toList_ofList]
    simp
  · rwa [utf8ByteSize_slashedOut]
  · rw [start]
    rfl
  · rw [start, parts]
    exact @World.walk_names world [] [⟨"out", by decide⟩] there

namespace Job

/-- **A directory may not come back**: no archive is written where its directory is missing, and
none unpacked where paths become too long, though the directory to unpack into is there. -/
theorem directory_round_trip_limits :
    validateRoot storeyedWorld ⟨"/house"⟩ = .ok ⟨⟩ ∧
    ∃ plan, JobInput.plan storeyedWorld (.directory ⟨"/house"⟩) = .ok plan ∧
      ((writeArchive reportPacked plan ⟨"/missing/out.zip"⟩).perform calmHooks
        (.fresh storeyedWorld)).1 = .error (.io .notFound) ∧
      ∃ archive middle, (writeArchive reportPacked plan ⟨"/out.zip"⟩).perform calmHooks
          (.fresh storeyedWorld) = (.ok archive, middle) ∧
        Zip.members? archive.bytes =
          some (archive.members.map fun member => ⟨member.1, member.2, none⟩) ∧
        ∃ directory base, middle.world.find directory = .ok (base, .directory) ∧
          (∀ name, middle.world.node? (name :: base) = none) ∧
          ∀ paths left,
            (extractFile ⟨"/out.zip"⟩ directory).perform calmHooks middle ≠ (.ok paths, left) := by
  obtain ⟨middle, written, placed⟩ := storeyed_written
  refine ⟨storeyed_valid, _, plan_directory storeyedWorld ⟨"/house"⟩, ?_, _, middle, written,
    storeyed_opens, slashedOut 4089, [⟨"out", by decide⟩], ?_, storeyed_empty placed, ?_⟩
  · rfl
  · exact find_slashedOut (by decide) ((placed.keepsDirectories storeyed_free).directory _ rfl)
  · intro paths left done
    have opened : middle.world.read ⟨"/out.zip"⟩ = .ok (namedArchive storeyedFiles).bytes :=
      placed.read storeyed_free rfl
    have close := extractFile_short calm_quiet opened storeyed_opens done
      (namedMember [⟨".hidden.GLSL", by decide⟩] ⟨#[1]⟩) List.mem_cons_self (by decide)
    have some_out : (slashedOut 4089).isEmpty = false := by
      rw [← Bool.not_eq_true, Path.isEmpty_iff, slashedOut, String.toList_ofList]
      exact List.cons_ne_nil _ _
    have long := utf8ByteSize_join some_out (List.cons_ne_nil ⟨".hidden.GLSL", by decide⟩ [])
    rw [utf8ByteSize_slashedOut] at long
    have name : (namedPath [⟨".hidden.GLSL", by decide⟩]).text.utf8ByteSize = 12 := by
      decide +kernel
    rw [name] at long
    exact absurd close (Nat.not_lt.mpr (Nat.le_trans (by decide) long))

end Job

end ShaderForge
