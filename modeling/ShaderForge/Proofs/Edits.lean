/-
**What an edit changes.**

Every edit of a world is one of three: a node set at one location (`Placed`), a location erased with
what is below it, or nothing. This module says what is found at each location afterwards, and turns
the operations on paths into these edits: `write_placed`, `writeNew_placed` and
`makeDirectory_placed` give the location that was set, and say that it was free for it.

* `ChangedBelow place`: nothing outside of `place` is touched, and inside of it files remain files
  and directories remain directories. It is what is left of a run of edits when one forgets which
  they were; it holds of no edits (`refl`) and of two runs after another (`trans`).
* `fileAt?`: the bytes of the file at a location, if there is a file.
* `Disk.run_bind` and its companions: what an action on a world comes to, and the world it leaves.
-/

import ShaderForge.World.Change

namespace ShaderForge

/-- What a step gives is given without its error too. -/
theorem toOption_eq_some {ε α : Type} {result : Except ε α} {value : α} :
    result.toOption = some value ↔ result = .ok value := by
  cases result with
  | error fault => exact iff_of_false (fun nothing => nomatch nothing) fun failed => nomatch failed
  | ok given =>
    exact ⟨fun same => congrArg _ (Option.some.inj same),
      fun same => congrArg _ (Except.ok.inj same)⟩

namespace World

variable {world before middle after : World} {place other parent : Location} {name : EntryName}
  {node : Node} {bytes : ByteArray} {path : Path}

/-! ## Part 1 — one location -/

/-- A list of which only some keys are kept is searched like the whole list for these keys. -/
theorem lookup_filter (keep : Location → Bool) (key : Location) (nodes : List (Location × Node)) :
    (nodes.filter fun entry => keep entry.1).lookup key =
      if keep key then nodes.lookup key else none := by
  induction nodes with
  | nil => simp
  | cons entry nodes ih =>
    by_cases same : key = entry.1
    · subst same
      by_cases kept : keep entry.1 = true
      · rw [List.filter_cons, if_pos kept, if_pos kept, List.lookup_cons, List.lookup_cons]
        simp only [beq_self_eq_true]
      · rw [List.filter_cons, if_neg kept, ih, if_neg kept, if_neg kept]
    · have different : (key == entry.1) = false := beq_eq_false_iff_ne.mpr same
      by_cases kept : keep entry.1 = true
      · rw [List.filter_cons, if_pos kept, List.lookup_cons, List.lookup_cons, different]
        exact ih
      · rw [List.filter_cons, if_neg kept, ih, List.lookup_cons, different]

/-- **A node set at one location**: it is found there, and everything else is as before. -/
structure Placed (before : World) (place : Location) (node : Node) (after : World) : Prop where
  cwd : after.cwd = before.cwd
  nodes : ∀ other, after.node? other = if other = place then some node else before.node? other

theorem holding_placed (inside : world.IsDirectoryAt parent)
    (free : node = .directory ∨ ¬ world.IsDirectoryAt (name :: parent)) :
    world.Placed (name :: parent) node (world.holding name parent node inside free) where
  cwd := rfl
  nodes other := by
    cases other with
    | nil => rfl
    | cons first rest =>
      show ((name :: parent, node) :: world.others (name :: parent)).lookup (first :: rest) = _
      rw [List.lookup_cons]
      by_cases same : first :: rest = name :: parent
      · rw [if_pos same, same]
        simp only [beq_self_eq_true]
      · rw [if_neg same, beq_eq_false_iff_ne.mpr same]
        show (world.nodes.filter fun entry => decide (entry.1 ≠ name :: parent)).lookup _ = _
        rw [lookup_filter (fun key => decide (key ≠ name :: parent)),
          if_pos (decide_eq_true same)]
        rfl

/-- Whatever is somewhere below a location makes it a directory. -/
theorem directory_of_below {names : Location} (some_names : names ≠ [])
    (there : (world.node? (names ++ place)).isSome) : world.IsDirectoryAt place := by
  induction names with
  | nil => exact absurd rfl some_names
  | cons name names ih =>
    obtain ⟨node, found⟩ := Option.isSome_iff_exists.mp there
    obtain ⟨first, rest, shape, above⟩ := world.rooted _ _ (mem_of_node? found)
    have tails : names ++ place = rest := (List.cons.inj shape).2
    have directory : world.IsDirectoryAt (names ++ place) := by
      rw [tails]
      rcases above with root | listed
      · rw [root]
        rfl
      · exact node?_of_mem listed
    cases names with
    | nil => exact directory
    | cons next names =>
      refine ih (by simp) ?_
      rw [directory]
      rfl

/-- A location erased with all below it is no longer found, and nothing else is lost. -/
theorem node?_eraseTree (proper : place ≠ []) (other : Location) :
    (world.eraseTree place).node? other =
      if place <:+ other then none else world.node? other := by
  cases other with
  | nil =>
    have outside : ¬ place <:+ [] := fun below => proper (List.suffix_nil.mp below)
    rw [if_neg outside]
    rfl
  | cons first rest =>
    show (world.nodes.filter fun entry => !place.isSuffixOf entry.1).lookup (first :: rest) = _
    rw [lookup_filter fun key => !place.isSuffixOf key]
    by_cases below : place <:+ first :: rest
    · rw [if_pos below, List.isSuffixOf_iff_suffix.mpr below]
      rfl
    · have outside : (!place.isSuffixOf (first :: rest)) = true := by
        rw [Bool.not_eq_true', ← Bool.not_eq_true, List.isSuffixOf_iff_suffix]
        exact below
      rw [if_neg below, if_pos outside]
      rfl

/-- **A file that is erased takes nothing with it.** -/
theorem node?_eraseTree_file (file : world.node? place = some (.file bytes)) (other : Location) :
    (world.eraseTree place).node? other =
      if other = place then none else world.node? other := by
  have proper : place ≠ [] := by
    intro root
    rw [root] at file
    cases file
  rw [node?_eraseTree proper]
  by_cases same : other = place
  · rw [if_pos same, if_pos (same ▸ List.suffix_refl place)]
  · rw [if_neg same]
    by_cases below : place <:+ other
    · obtain ⟨names, shape⟩ := below
      have some_names : names ≠ [] := by
        intro nothing
        rw [nothing] at shape
        exact same shape.symm
      rw [if_pos ⟨names, shape⟩]
      cases found : world.node? other with
      | none => rfl
      | some node =>
        have directory : world.IsDirectoryAt place :=
          directory_of_below some_names (by rw [shape, found]; rfl)
        rw [IsDirectoryAt, file] at directory
        cases directory
    · rw [if_neg below]

/-! ## Part 2 — files -/

/-- **The bytes of the file at a location**, if there is a file. -/
def fileAt? (world : World) (place : Location) : Option ByteArray :=
  match world.node? place with
  | some (.file bytes) => some bytes
  | _ => none

/-- After a file was set, it is the file of its location, and all other files are as before. -/
theorem Placed.fileAt?_file (placed : before.Placed place (.file bytes) after) (other : Location) :
    after.fileAt? other = if other = place then some bytes else before.fileAt? other := by
  unfold fileAt?
  rw [placed.nodes]
  by_cases same : other = place
  · rw [if_pos same, if_pos same]
  · rw [if_neg same, if_neg same]

/-- A new directory changes no file. -/
theorem Placed.fileAt?_directory (placed : before.Placed place .directory after)
    (free : before.node? place = none) (other : Location) :
    after.fileAt? other = before.fileAt? other := by
  unfold fileAt?
  rw [placed.nodes]
  by_cases same : other = place
  · rw [if_pos same, same, free]
  · rw [if_neg same]

/-! ## Part 3 — operations on paths -/

/-- **A file that is written** is set at the target of its path: a name in a directory, which is no
directory itself. -/
theorem write_placed (written : world.write path bytes = .ok after) :
    ∃ parent name, world.target path = .ok (.entry parent name false) ∧
      ¬ world.IsDirectoryAt (name :: parent) ∧
      world.Placed (name :: parent) (.file bytes) after := by
  unfold write at written
  split at written
  · cases written
  · cases written
  · next parent name slashed leads =>
    cases slashed with
    | true => cases written
    | false =>
      refine ⟨parent, name, leads, ?_⟩
      rw [if_neg (by simp), storeAt] at written
      split at written
      · next inside =>
        split at written
        · cases written
        · next free =>
          cases written
          exact ⟨fun there => free (hasDirectory_iff.mpr there), holding_placed _ _⟩
      · cases written

/-- **A file can be written** in a directory, where no directory is. -/
theorem write_ok (bytes : ByteArray)
    (goal : world.target path = .ok (.entry parent name false))
    (inside : world.IsDirectoryAt parent) (free : ¬ world.IsDirectoryAt (name :: parent)) :
    ∃ after, world.write path bytes = .ok after ∧
      world.Placed (name :: parent) (.file bytes) after := by
  have untaken : ¬ world.hasDirectory (name :: parent) = true := fun there =>
    free (hasDirectory_iff.mp there)
  refine ⟨_, ?_, holding_placed inside (.inr free)⟩
  rw [write, goal]
  show world.storeAt parent name bytes = _
  rw [storeAt, dif_pos (hasDirectory_iff.mpr inside), dif_neg untaken]
  rfl

/-- **A new file** is set at the target of its path: a name in a directory, where nothing was. -/
theorem writeNew_placed (written : world.writeNew path bytes = .ok after) :
    ∃ parent name, world.target path = .ok (.entry parent name false) ∧
      world.node? (name :: parent) = none ∧ world.Placed (name :: parent) (.file bytes) after := by
  unfold writeNew at written
  split at written
  · cases written
  · cases written
  · next parent name slashed leads =>
    cases slashed with
    | true => cases written
    | false =>
      refine ⟨parent, name, leads, ?_⟩
      rw [if_neg Bool.false_ne_true] at written
      split at written
      · cases written
      · next free =>
        rw [storeAt] at written
        split at written
        · split at written
          · cases written
          · cases written
            exact ⟨by simpa using free, holding_placed _ _⟩
        · cases written

/-- **A directory that is made** is set at the target of its path, where nothing was. -/
theorem makeDirectory_placed (made : world.makeDirectory path = .ok after) :
    ∃ parent name slashed, world.target path = .ok (.entry parent name slashed) ∧
      world.node? (name :: parent) = none ∧ world.Placed (name :: parent) .directory after := by
  unfold makeDirectory at made
  split at made
  · cases made
  · cases made
  · next parent name slashed leads =>
    refine ⟨parent, name, slashed, leads, ?_⟩
    rw [addDirectoryAt] at made
    split at made
    · split at made
      · cases made
      · next free =>
        cases made
        exact ⟨by simpa using free, holding_placed _ _⟩
    · cases made

/-- **A directory can be made** in a directory, where nothing is. -/
theorem makeDirectory_ok {slashed : Bool}
    (goal : world.target path = .ok (.entry parent name slashed))
    (inside : world.IsDirectoryAt parent) (free : world.node? (name :: parent) = none) :
    ∃ after, world.makeDirectory path = .ok after ∧
      world.Placed (name :: parent) .directory after := by
  refine ⟨_, ?_, holding_placed inside (.inl rfl)⟩
  rw [makeDirectory, goal]
  show world.addDirectoryAt parent name = _
  rw [addDirectoryAt, dif_pos (hasDirectory_iff.mpr inside), free]
  rfl

/-- **A file that is removed** is erased at the place that its path leads to. -/
theorem removeFile_erases (removed : world.removeFile path = .ok after) :
    ∃ place bytes, world.find path = .ok (place, .file bytes) ∧ after = world.eraseTree place := by
  unfold removeFile at removed
  split at removed
  · cases removed
  · cases removed
  · next place bytes found =>
    cases removed
    exact ⟨place, bytes, found, rfl⟩

/-! ## Part 4 — changes below a location -/

/-- **Directories stay directories**, so that paths go where they went. -/
structure KeepsDirectories (before after : World) : Prop where
  cwd : after.cwd = before.cwd
  directory : ∀ place, before.IsDirectoryAt place → after.IsDirectoryAt place

/-- A file that is erased is no directory. -/
theorem keepsDirectories_eraseTree (file : world.node? place = some (.file bytes)) :
    KeepsDirectories world (world.eraseTree place) where
  cwd := rfl
  directory other there := by
    rw [IsDirectoryAt] at there ⊢
    rw [node?_eraseTree_file file, if_neg, there]
    intro same
    rw [same, file] at there
    cases there

/-- **Changes below a location only**: what is outside stays, and what was there is still there, as
the kind of thing that it was. -/
structure ChangedBelow (place : Location) (before after : World) : Prop where
  cwd : after.cwd = before.cwd
  outside : ∀ other, ¬ place <:+ other → after.node? other = before.node? other
  kept : ∀ other node, before.node? other = some node →
    ∃ later, after.node? other = some later ∧ later.isFile = node.isFile

namespace ChangedBelow

theorem refl (place : Location) (world : World) : ChangedBelow place world world where
  cwd := rfl
  outside _ _ := rfl
  kept _ node found := ⟨node, found, rfl⟩

theorem trans (first : ChangedBelow place before middle)
    (second : ChangedBelow place middle after) : ChangedBelow place before after where
  cwd := second.cwd.trans first.cwd
  outside other away := (second.outside other away).trans (first.outside other away)
  kept other node found := by
    obtain ⟨between, held, sameKind⟩ := first.kept other node found
    obtain ⟨later, holds, keeps⟩ := second.kept other between held
    exact ⟨later, holds, keeps.trans sameKind⟩

/-- A node set below a location is such a change, if it is of the kind of what was there. -/
theorem of_placed (placed : before.Placed other node after) (below : place <:+ other)
    (fits : ∀ held, before.node? other = some held → node.isFile = held.isFile) :
    ChangedBelow place before after where
  cwd := placed.cwd
  outside location away := by
    have different : location ≠ other := fun same => away (same ▸ below)
    rw [placed.nodes, if_neg different]
  kept location held found := by
    rw [placed.nodes]
    by_cases same : location = other
    · rw [if_pos same]
      exact ⟨node, rfl, fits held (same ▸ found)⟩
    · rw [if_neg same]
      exact ⟨held, found, rfl⟩

/-- A directory stays a directory. -/
theorem keepsDirectories (changed : ChangedBelow place before after) :
    KeepsDirectories before after where
  cwd := changed.cwd
  directory other there := by
    obtain ⟨later, holds, sameKind⟩ := changed.kept other .directory there
    cases later with
    | directory => exact holds
    | file bytes => cases sameKind

end ChangedBelow

/-! ## Part 5 — worlds given by their nodes -/

/-- Whether a location lies in the root or in a directory that is listed. -/
def isRootedIn (nodes : List (Location × Node)) : Location → Bool
  | [] => false
  | _ :: parent => parent == [] || nodes.any fun entry => entry.1 == parent && entry.2.isDirectory

/-- **The world with given nodes.** -/
def ofNodes (cwd : Location) (nodes : List (Location × Node))
    (distinct : (nodes.map Prod.fst).Nodup)
    (rooted : (nodes.all fun entry => isRootedIn nodes entry.1) = true) : World where
  cwd := cwd
  nodes := nodes
  distinct := distinct
  rooted := by
    intro location node member
    have inside := List.all_eq_true.mp rooted (location, node) member
    cases location with
    | nil => cases inside
    | cons name parent =>
      refine ⟨name, parent, rfl, ?_⟩
      rcases Bool.or_eq_true _ _ |>.mp inside with root | listed
      · exact .inl (beq_iff_eq.mp root)
      · obtain ⟨⟨place, held⟩, among, fits⟩ := List.any_eq_true.mp listed
        rw [Bool.and_eq_true, beq_iff_eq] at fits
        obtain ⟨same, isDirectory⟩ := fits
        cases held with
        | file bytes => cases isDirectory
        | directory => exact .inr (same ▸ among)

end World

/-! ## Part 6 — actions -/

namespace Disk

variable {α β : Type} {world : World} {path : Path}

/-- **An action and what follows it**: a fault ends both, and what was done remains. -/
theorem run_bind (action : Disk α) (next : α → Disk β) :
    (action >>= next).run.run world =
      match action.run.run world with
      | (.ok value, after) => (next value).run.run after
      | (.error fault, after) => (.error fault, after) := by
  rw [ExceptT.run_bind, StateT.run_bind]
  cases found : action.run.run world with
  | mk outcome later =>
    cases outcome with
    | ok value => rfl
    | error fault => rfl

/-- Two actions in a row end in the first one, or in the second one after it. -/
theorem run_bind_cases {action : Disk α} {next : α → Disk β} {outcome : Except IoFault β}
    {after : World} (done : (action >>= next).run.run world = (outcome, after)) :
    (∃ fault, action.run.run world = (.error fault, after) ∧ outcome = .error fault) ∨
      ∃ value middle, action.run.run world = (.ok value, middle) ∧
        (next value).run.run middle = (outcome, after) := by
  rw [run_bind] at done
  split at done
  · next value middle ran => exact .inr ⟨value, middle, ran, done⟩
  · next fault middle ran =>
    cases done
    exact .inl ⟨fault, ran, rfl⟩

theorem run_change (operation : World → Except IoFault World) :
    (change operation).run.run world =
      match operation world with
      | .ok changed => (.ok ⟨⟩, changed)
      | .error fault => (.error fault, world) := by
  have read : (get : Disk World).run.run world = (.ok world, world) := rfl
  rw [change, run_bind, read]
  dsimp only
  cases operation world with
  | ok changed => rfl
  | error fault => rfl

theorem run_ensureDirectory :
    (ensureDirectory path).run.run world =
      match world.makeDirectory path with
      | .ok changed => (.ok ⟨⟩, changed)
      | .error fault =>
        if world.isDirectory path then (.ok ⟨⟩, world) else (.error fault, world) := by
  show (match world.makeDirectory path with
    | .ok changed => set changed
    | .error fault => if world.isDirectory path then pure () else throw fault : Disk Unit).run.run
      world = _
  cases world.makeDirectory path with
  | ok changed => rfl
  | error fault => cases world.isDirectory path <;> rfl

/-- A directory that lacks its parent comes after its parents. -/
theorem run_ensureDirectories_cons (above : List Path) :
    (ensureDirectories (path :: above)).run.run world =
      if path.components = [] then (.ok ⟨⟩, world)
      else match world.makeDirectory path with
        | .ok changed => (.ok ⟨⟩, changed)
        | .error .notFound =>
          (ensureDirectories above >>= fun _ => ensureDirectory path).run.run world
        | .error fault =>
          if world.isDirectory path then (.ok ⟨⟩, world) else (.error fault, world) := by
  rw [ensureDirectories]
  by_cases none : path.components = []
  · rw [if_pos none, if_pos none]
    rfl
  · rw [if_neg none, if_neg none]
    show (match world.makeDirectory path with
      | .ok changed => set changed
      | .error .notFound => ensureDirectories above >>= fun _ => ensureDirectory path
      | .error fault => if world.isDirectory path then pure () else throw fault : Disk Unit).run.run
        world = _
    cases world.makeDirectory path with
    | ok changed => rfl
    | error fault =>
      cases fault with
      | notFound => rfl
      | _ => cases world.isDirectory path <;> rfl

end Disk

end ShaderForge
