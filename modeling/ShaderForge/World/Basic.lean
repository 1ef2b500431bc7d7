/-
**The world of files.**

A world is a finite tree of directories and files, given as the list of its nodes by location, and
the directory that relative paths begin in. A location is the list of names on the way to it, the
innermost first, so that its parent is its tail; the root is the empty list and is always there.

A world holds what a job asks of a file system. Left out are links, so that what is at a location is
nowhere else; permissions and owners, so that whatever is there can be read, listed and changed;
names that are no text, which no path here can spell; times, devices and the space that is left; and
other programs that change the same files while an operation runs.

The type keeps two rules: a location has at most one node, and whatever is there lies in a directory
that is there. `holding` and `eraseTree` are the only edits, and they keep both.

* `mem_of_node?`, `node?_of_mem`: what is found at a location is what the list holds for it.
-/

namespace ShaderForge

/-! ## Part 1 — names, locations, nodes -/

/-- Whether a text can be the name of something in a directory. -/
def isEntryName (text : String) : Bool :=
  text != "" && text != "." && text != ".." && !text.toList.contains '/'
    && !text.toList.contains (Char.ofNat 0) && decide (text.utf8ByteSize ≤ 255)

/-- The name of something in a directory. -/
structure EntryName where
  text : String
  usable : isEntryName text = true
deriving DecidableEq

/-- A place in the tree: the names on the way to it, innermost first. -/
abbrev Location := List EntryName

/-- What a place holds. -/
inductive Node
  | file (bytes : ByteArray)
  | directory

/-- Whether a node is a directory. -/
def Node.isDirectory : Node → Bool
  | .directory => true
  | .file _ => false

/-- Whether a node is a file. -/
def Node.isFile : Node → Bool
  | .directory => false
  | .file _ => true

/-- **A tree of files**, and the directory that relative paths begin in. -/
structure World where
  cwd : Location
  nodes : List (Location × Node)
  distinct : (nodes.map Prod.fst).Nodup
  rooted : ∀ location node, (location, node) ∈ nodes →
    ∃ name parent, location = name :: parent ∧ (parent = [] ∨ (parent, Node.directory) ∈ nodes)

namespace World

/-- The world with nothing in it. -/
def bare : World where
  cwd := []
  nodes := []
  distinct := List.nodup_nil
  rooted := fun _ _ member => absurd member (by simp)

/-! ## Part 2 — what is at a location -/

/-- The node of a location, if something is there. -/
def node? (world : World) : Location → Option Node
  | [] => some .directory
  | name :: parent => world.nodes.lookup (name :: parent)

/-- A directory is at the location. -/
def IsDirectoryAt (world : World) (location : Location) : Prop :=
  world.node? location = some .directory

/-- Whether a directory is at the location. -/
def hasDirectory (world : World) (location : Location) : Bool :=
  match world.node? location with
  | some .directory => true
  | _ => false

/-- `hasDirectory` tells whether a directory is there. -/
theorem hasDirectory_iff {world : World} {location : Location} :
    world.hasDirectory location = true ↔ world.IsDirectoryAt location := by
  unfold hasDirectory IsDirectoryAt
  split <;> simp_all

/-- Something is found in a list by its key only if the list holds it. -/
theorem mem_of_lookup {key : Location} {node : Node} {nodes : List (Location × Node)}
    (found : nodes.lookup key = some node) : (key, node) ∈ nodes := by
  induction nodes with
  | nil => exact absurd found (by simp)
  | cons entry nodes later =>
    obtain ⟨place, held⟩ := entry
    rw [List.lookup_cons] at found
    split at found
    · next same =>
      have keys : key = place := by simpa using same
      have values : held = node := by simpa using found
      rw [keys, ← values]
      exact List.mem_cons_self
    · exact List.mem_cons_of_mem _ (later found)

/-- Where keys are distinct, what a list holds for a key is found by it. -/
theorem lookup_of_mem {key : Location} {node : Node} {nodes : List (Location × Node)}
    (distinct : (nodes.map Prod.fst).Nodup) (member : (key, node) ∈ nodes) :
    nodes.lookup key = some node := by
  induction nodes with
  | nil => exact absurd member (by simp)
  | cons entry nodes later =>
    rw [List.map_cons, List.nodup_cons] at distinct
    obtain ⟨place, held⟩ := entry
    rcases List.mem_cons.mp member with here | there
    · rw [← here, List.lookup_cons]
      simp
    · have keys : (key == place) = false := by
        rw [beq_eq_false_iff_ne]
        intro same
        exact distinct.1 (List.mem_map.mpr ⟨(key, node), there, same⟩)
      rw [List.lookup_cons, keys]
      exact later distinct.2 there

/-- What is found at a location below the root is in the list. -/
theorem mem_of_node? {world : World} {name : EntryName} {parent : Location} {node : Node}
    (found : world.node? (name :: parent) = some node) : (name :: parent, node) ∈ world.nodes :=
  mem_of_lookup found

/-- What the list holds for a location is found there. -/
theorem node?_of_mem {world : World} {location : Location} {node : Node}
    (member : (location, node) ∈ world.nodes) : world.node? location = some node := by
  obtain ⟨name, parent, shape, _⟩ := world.rooted location node member
  subst shape
  exact lookup_of_mem world.distinct member

/-- A directory below the root is in the list. -/
theorem directory_listed {world : World} {location : Location}
    (there : world.IsDirectoryAt location) :
    location = [] ∨ (location, Node.directory) ∈ world.nodes := by
  cases location with
  | nil => exact .inl rfl
  | cons name parent => exact .inr (mem_of_node? there)

/-! ## Part 3 — edits -/

/-- The nodes of a world other than the one at a location. -/
def others (world : World) (location : Location) : List (Location × Node) :=
  world.nodes.filter fun entry => entry.1 ≠ location

/-- Other nodes are in the world and elsewhere. -/
theorem mem_others {world : World} {location : Location} {entry : Location × Node} :
    entry ∈ world.others location ↔ entry ∈ world.nodes ∧ entry.1 ≠ location := by
  simp [others]

/-- A world in which a location holds a given node: it must lie in a directory, and nothing may lie
below what was there. -/
def holding (world : World) (name : EntryName) (parent : Location) (node : Node)
    (inside : world.IsDirectoryAt parent)
    (free : node = .directory ∨ ¬ world.IsDirectoryAt (name :: parent)) : World where
  cwd := world.cwd
  nodes := (name :: parent, node) :: world.others (name :: parent)
  distinct := by
    rw [List.map_cons, List.nodup_cons]
    refine ⟨?_, ?_⟩
    · intro member
      obtain ⟨entry, kept, same⟩ := List.mem_map.mp member
      exact (mem_others.mp kept).2 same
    · exact world.distinct.sublist (List.filter_sublist.map Prod.fst)
  rooted := by
    have kept : ∀ place, place = [] ∨ (place, Node.directory) ∈ world.nodes →
        place = [] ∨ (place, Node.directory) ∈
          (name :: parent, node) :: world.others (name :: parent) := by
      intro place there
      rcases there with root | listed
      · exact .inl root
      · refine .inr ?_
        by_cases same : place = name :: parent
        · rcases free with directory | nothing
          · rw [same, directory]
            exact List.mem_cons_self
          · exact absurd (same ▸ node?_of_mem listed) nothing
        · exact List.mem_cons_of_mem _ (mem_others.mpr ⟨listed, same⟩)
    intro location here member
    rcases List.mem_cons.mp member with new | old
    · have shape : location = name :: parent := congrArg Prod.fst new
      exact ⟨name, parent, shape, kept parent (directory_listed inside)⟩
    · obtain ⟨inner, outer, shape, above⟩ :=
        world.rooted location here (mem_others.mp old).1
      exact ⟨inner, outer, shape, kept outer above⟩

/-- The world without a location and everything below it. -/
def eraseTree (world : World) (location : Location) : World where
  cwd := world.cwd
  nodes := world.nodes.filter fun entry => !location.isSuffixOf entry.1
  distinct := world.distinct.sublist (List.filter_sublist.map Prod.fst)
  rooted := by
    intro place node member
    have listed := List.mem_filter.mp member
    obtain ⟨name, parent, shape, above⟩ := world.rooted place node listed.1
    refine ⟨name, parent, shape, above.imp_right fun directory => ?_⟩
    refine List.mem_filter.mpr ⟨directory, ?_⟩
    have outside : location.isSuffixOf place = false := by simpa using listed.2
    rw [Bool.not_eq_true', ← Bool.not_eq_true]
    intro below
    have longer : location <:+ place := by
      rw [shape]
      exact (List.isSuffixOf_iff_suffix.mp below).trans (List.suffix_cons name parent)
    rw [List.isSuffixOf_iff_suffix.mpr longer] at outside
    exact absurd outside (by simp)

end World

end ShaderForge
