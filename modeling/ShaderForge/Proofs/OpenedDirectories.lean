/-
**New directories on the way.**

A directory is made with every missing one above it. Whether or not all of them can be made,
nothing that was there is touched, and all that is new are directories that the path or one of its
parents leads to (`Opened`, `makeDirectories_opens`). What is new lies where nothing was: the world
has grown (`Grown`), no file is new, and every path to a directory leads to it still. A path that
never goes up leads to no directory of the earlier world that it did not lead to before
(`Grown.find_earlier`). Where all of them can be made, the directory is there in the end
(`makeDirectories_found`).
-/

import ShaderForge.Proofs.DirectoryRoundTrip
import ShaderForge.Proofs.NamedPaths

namespace ShaderForge

namespace World

variable {world before middle after : World} {place : Location} {node : Node} {path : Path}
  {paths more : List Path} {bytes : ByteArray}

/-! ## Part 1 — worlds that grow -/

/-- **A world that has grown**: whatever was there is there as it was. -/
structure Grown (before after : World) : Prop where
  cwd : after.cwd = before.cwd
  kept : ∀ place node, before.node? place = some node → after.node? place = some node

/-- A way that never goes up was there before, if what it leads to was. -/
theorem walk_earlier {parts : List (List Char)} {goal : Location}
    (level : ['.', '.'] ∉ parts) (walked : after.walk place parts = .ok goal)
    (there : before.IsDirectoryAt goal) :
    before.walk place parts = .ok goal ∧ before.IsDirectoryAt place := by
  induction parts generalizing place with
  | nil =>
    cases walked
    exact ⟨rfl, there⟩
  | cons part parts ih =>
    obtain ⟨up, level⟩ := not_or.mp (List.mem_cons.not.mp level)
    obtain ⟨inner, entered, goes⟩ := walk_cons_ok walked
    obtain ⟨earlier, inside⟩ := ih level goes
    rcases enter_ok entered with ⟨rfl, rfl⟩ | ⟨rfl, -⟩ | ⟨proper, forth, name, named, rfl, -⟩
    · exact ⟨earlier, inside⟩
    · exact absurd rfl up
    · rw [walk, enter_directory proper forth named inside]
      exact ⟨earlier, directory_of_below (List.cons_ne_nil name [])
        (by rw [List.singleton_append, inside]; rfl)⟩

namespace Grown

theorem refl (world : World) : Grown world world := ⟨rfl, fun _ _ held => held⟩

theorem trans (first : Grown before middle) (second : Grown middle after) : Grown before after :=
  ⟨second.cwd.trans first.cwd, fun place node held =>
    second.kept place node (first.kept place node held)⟩

/-- Directories stay directories. -/
theorem keepsDirectories (grown : Grown before after) : KeepsDirectories before after :=
  ⟨grown.cwd, fun place => grown.kept place .directory⟩

/-- **A path that never goes up** led to a directory before, if anything was at its place. -/
theorem find_earlier (grown : Grown before after) (level : ['.', '.'] ∉ path.parts)
    (found : after.find path = .ok (place, .directory)) (held : before.node? place = some node) :
    before.find path = .ok (place, .directory) := by
  have walked := find_walk found
  rw [grown.keepsDirectories.start] at walked
  obtain ⟨_, mounted, -⟩ := mounted_of_find found
  obtain rfl : Node.directory = node :=
    Option.some.inj (mounted.top.symm.trans (grown.kept place node held))
  obtain ⟨earlier, begins⟩ := walk_earlier level walked held
  obtain ⟨target, leads⟩ : ∃ target, after.target path = .ok target := by
    rcases find_ok found with ⟨-, leads⟩ | ⟨_, _, _, leads, -⟩ <;> exact ⟨_, leads⟩
  exact find_of_walk (find_isEmpty found) (target_plain leads) (target_short leads) begins earlier

end Grown

/-- What is placed where nothing was makes a world grow. -/
theorem Placed.grown (placed : before.Placed place node after) (free : before.node? place = none) :
    Grown before after := by
  refine ⟨placed.cwd, fun other held there => ?_⟩
  rw [placed.nodes, if_neg, there]
  rintro rfl
  rw [free] at there
  cases there

/-- **New directories that some paths lead to**, and nothing else. -/
structure Opened (paths : List Path) (before after : World) : Prop where
  cwd : after.cwd = before.cwd
  nodes : ∀ place, after.node? place = before.node? place ∨
    before.node? place = none ∧ ∃ path ∈ paths, after.find path = .ok (place, .directory)

namespace Opened

theorem refl (paths : List Path) (world : World) : Opened paths world world :=
  ⟨rfl, fun _ => .inl rfl⟩

theorem mono (opened : Opened paths before after) (within : paths ⊆ more) :
    Opened more before after where
  cwd := opened.cwd
  nodes place := (opened.nodes place).imp_right fun ⟨free, path, member, found⟩ =>
    ⟨free, path, within member, found⟩

/-- What was there is there still. -/
theorem grown (opened : Opened paths before after) : Grown before after := by
  refine ⟨opened.cwd, fun place node held => ?_⟩
  rcases opened.nodes place with same | ⟨free, -⟩
  · exact same.trans held
  · rw [free] at held
    cases held

/-- Directories opened after others are all opened. -/
theorem trans (first : Opened paths before middle) (second : Opened paths middle after) :
    Opened paths before after where
  cwd := second.cwd.trans first.cwd
  nodes place := by
    rcases second.nodes place with same | ⟨free, later⟩
    · rw [same]
      refine (first.nodes place).imp_right fun ⟨empty, path, member, found⟩ => ?_
      exact ⟨empty, path, member, second.grown.keepsDirectories.find_directory found⟩
    · rcases first.nodes place with same | ⟨empty, -⟩
      · exact .inr ⟨same ▸ free, later⟩
      · exact .inr ⟨empty, later⟩

/-- **No file is new.** -/
theorem file (opened : Opened paths before after)
    (held : after.node? place = some (.file bytes)) : before.node? place = some (.file bytes) := by
  rcases opened.nodes place with same | ⟨-, path, -, found⟩
  · exact same.symm.trans held
  · obtain ⟨_, mounted, -⟩ := mounted_of_find found
    have there : after.node? place = some .directory := mounted.top
    rw [there] at held
    cases held

end Opened

/-! ## Part 2 — directories made -/

/-- **A directory that is made** is what its path leads to. -/
theorem makeDirectory_found (made : world.makeDirectory path = .ok after) :
    ∃ place, world.node? place = none ∧ world.Placed place .directory after ∧
      after.find path = .ok (place, .directory) := by
  obtain ⟨parent, name, slashed, goal, free, placed⟩ := makeDirectory_placed made
  refine ⟨name :: parent, free, placed, ?_⟩
  rw [find, (placed.grown free).keepsDirectories.target goal]
  show after.nodeOf (.entry parent name slashed) = _
  simp only [nodeOf, placed.nodes, if_true, Node.isFile, Bool.and_false]
  rfl

theorem makeDirectory_opens (made : world.makeDirectory path = .ok after) :
    Opened [path] world after := by
  obtain ⟨place, free, placed, found⟩ := makeDirectory_found made
  refine ⟨placed.cwd, fun other => ?_⟩
  rw [placed.nodes]
  by_cases same : other = place
  · exact .inr ⟨same ▸ free, path, List.mem_singleton_self path, same ▸ found⟩
  · exact .inl (if_neg same)

theorem ensureDirectory_opens (path : Path) (world : World) :
    Opened [path] world ((Disk.ensureDirectory path).run.run world).2 := by
  rw [Disk.run_ensureDirectory]
  split
  · next changed made => exact makeDirectory_opens made
  · split <;> exact Opened.refl [path] world

/-- **Directories that are ensured** are what their paths lead to, whether or not all can be
made. -/
theorem ensureDirectories_opens (paths : List Path) (world : World) :
    Opened paths world ((Disk.ensureDirectories paths).run.run world).2 := by
  induction paths with
  | nil => exact Opened.refl [] world
  | cons path above ih =>
    rw [Disk.run_ensureDirectories_cons]
    split
    · exact Opened.refl _ world
    · split
      · next changed made =>
        exact (makeDirectory_opens made).mono (List.cons_subset_cons path (List.nil_subset above))
      · rcases ran : (Disk.ensureDirectories above >>= fun _ =>
          Disk.ensureDirectory path).run.run world with ⟨outcome, after⟩
        have earlier := ih.mono (List.subset_cons_self path above)
        rcases Disk.run_bind_cases ran with ⟨fault, failed, rfl⟩ | ⟨_, middle, made, rest⟩
        · rw [failed] at earlier
          exact earlier
        · have last := ensureDirectory_opens path middle
          rw [made] at earlier
          rw [rest] at last
          exact earlier.trans
            (last.mono (List.cons_subset_cons path (List.nil_subset above)))
      · split <;> exact Opened.refl _ world

/-- **A directory and all above it.** -/
theorem makeDirectories_opens (path : Path) (world : World) :
    Opened (path :: path.parents) world ((Disk.makeDirectories path).run.run world).2 :=
  ensureDirectories_opens (path :: path.parents) world

/-- **What was ensured is there.** -/
theorem ensureDirectory_found
    (ran : (Disk.ensureDirectory path).run.run world = (.ok ⟨⟩, after)) :
    ∃ place, after.find path = .ok (place, .directory) := by
  rw [Disk.run_ensureDirectory] at ran
  split at ran
  · next changed made =>
    cases ran
    obtain ⟨place, -, -, found⟩ := makeDirectory_found made
    exact ⟨place, found⟩
  · split at ran
    · next there =>
      cases ran
      exact isDirectory_iff.mp there
    · cases ran

/-- **A directory that was made with all above it is there.** -/
theorem makeDirectories_found (proper : path.components ≠ [])
    (ran : (Disk.makeDirectories path).run.run world = (.ok ⟨⟩, after)) :
    ∃ place, after.find path = .ok (place, .directory) := by
  rw [Disk.makeDirectories, Disk.run_ensureDirectories_cons, if_neg proper] at ran
  split at ran
  · next changed made =>
    cases ran
    obtain ⟨place, -, -, found⟩ := makeDirectory_found made
    exact ⟨place, found⟩
  · obtain ⟨_, _, failed⟩ | ⟨_, middle, -, last⟩ := Disk.run_bind_cases ran
    · cases failed
    · exact ensureDirectory_found last
  · split at ran
    · next there =>
      cases ran
      exact isDirectory_iff.mp there
    · cases ran

end World

end ShaderForge
