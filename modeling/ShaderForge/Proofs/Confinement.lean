/-
**Names that stay below a root.**

A safe name keeps below the directory that it is put in at every part (`isSafeName_iff`). So a path
made of a root and a safe name, and every path that leads part of its way, has a target that is a
directory already or lies below the root (`target_below`), and the whole path leads where its text
says (`target_settles`).

Where paths stay confined to a location (`Confines`), directories made along the way are new ones
below it, and no file is touched (`makeDirectories_prepares`).
-/

import ShaderForge.Proofs.Walking
import ShaderForge.Zip.EntryNames

namespace ShaderForge

open World (keepsBelow settle ChangedBelow)

variable {world before middle after : World} {place parent : Location} {entry : EntryName}
  {root path : Path} {name : String} {slashed : Bool}

/-! ## Part 1 — safe names -/

namespace Zip

theorem staysBelow_up (depth : Nat) (rest : List Path.Component) :
    staysBelow depth (.up :: rest) = (decide (0 < depth) && staysBelow (depth - 1) rest) := by
  cases depth with
  | zero => rfl
  | succ depth => rfl

/-- What components of a relative text do is what its parts do. -/
theorem staysBelow_stepsFrom (depth : Nat) (leading : Bool) (walked : List Char)
    (rest : List (List Char)) :
    staysBelow depth ((Path.stepsFrom leading walked rest).map Path.Step.component) =
      keepsBelow depth (rest.filter (· ≠ [])) := by
  induction rest generalizing depth leading walked with
  | nil => rfl
  | cons part rest ih =>
    rw [Path.stepsFrom, Path.component?]
    by_cases none : part = []
    · rw [List.filter_cons_of_neg (by simpa using none), if_pos none]
      exact ih depth false _
    · rw [List.filter_cons_of_pos (by simpa using none), if_neg none, keepsBelow]
      by_cases here : part = ['.']
      · rw [if_pos here, if_pos here]
        cases leading with
        | false => exact ih depth false _
        | true => exact ih depth false _
      · rw [if_neg here, if_neg here]
        by_cases up : part = ['.', '.']
        · rw [if_pos up, if_pos up]
          show staysBelow depth (.up :: _) = _
          rw [staysBelow_up, ih]
        · rw [if_neg up, if_neg up]
          show staysBelow (depth + 1) _ = _
          exact ih (depth + 1) false _

/-- **A path stays below the directory that it is read in** if it is relative and its parts do. -/
theorem staysBelow_components (path : Path) :
    staysBelow 0 path.components = (!path.isAbsolute && keepsBelow 0 path.parts) := by
  unfold Path.components Path.steps Path.parts Path.isAbsolute Path.solid
  generalize path.text.toList = text
  unfold Path.stepsOf
  split
  · rfl
  · next relative =>
    have plain : (text.head? == some '/') = false := by
      rw [beq_eq_false_iff_ne]
      intro slash
      obtain ⟨rest, shape⟩ := List.head?_eq_some_iff.mp slash
      exact relative rest shape
    rw [plain]
    exact staysBelow_stepsFrom 0 true [] _

/-- **A safe name** holds no NUL, is relative, and keeps below the directory that it is put in. -/
theorem isSafeName_iff :
    isSafeName name = true ↔ Char.ofNat 0 ∉ name.toList ∧ (⟨name⟩ : Path).isAbsolute = false ∧
      keepsBelow 0 (Path.parts ⟨name⟩) = true := by
  rw [isSafeName, staysBelow_components, Bool.and_eq_true, Bool.and_eq_true, Bool.not_eq_true',
    Bool.not_eq_true', ← Bool.not_eq_true, List.contains_iff_mem]

end Zip

/-! ## Part 2 — targets on the way -/

namespace World

section Targets

variable (there : world.find root = .ok (place, .directory))

include there

/-- Nothing on the way to a directory that is there is free. -/
theorem directory_on_way (begins : path.isAbsolute = root.isAbsolute)
    (leads : path.parts <+: root.parts)
    (goal : world.target path = .ok (.entry parent entry slashed)) :
    world.IsDirectoryAt (entry :: parent) := by
  obtain ⟨init, part, shape, walked, proper, forth, named⟩ := targetFrom_entry (target_ok goal).1
  obtain ⟨more, whole⟩ := leads
  have all := find_walk there
  rw [← whole, shape, List.append_assoc] at all
  have starts : world.start path = world.start root := by rw [start, start, begins]
  rw [walk_append_of_ok (starts ▸ walked)] at all
  obtain ⟨inner, entered, -⟩ := walk_cons_ok all
  rcases enter_ok entered with ⟨here, _⟩ | ⟨up, _⟩ | ⟨_, _, found, sameName, _, directory⟩
  · exact absurd here proper
  · exact absurd up forth
  · rw [named] at sameName
    rw [Option.some.inj sameName]
    exact directory

/-- A free target beyond a directory that is there is reached by the parts that are left. -/
theorem entry_beyond {rest : List (List Char)} (begins : path.isAbsolute = root.isAbsolute)
    (beyond : path.parts = root.parts ++ rest)
    (goal : world.target path = .ok (.entry parent entry slashed))
    (free : ¬ world.IsDirectoryAt (entry :: parent)) :
    ∃ init part, rest = init ++ [part] ∧ world.walk place init = .ok parent ∧ part ≠ ['.'] ∧
      part ≠ ['.', '.'] ∧ entryName? part = some entry := by
  rcases List.eq_nil_or_concat rest with none | ⟨init, part, rfl⟩
  · rw [none, List.append_nil] at beyond
    exact absurd (directory_on_way there begins (beyond ▸ List.prefix_refl _) goal) free
  · obtain ⟨all, last, shape, walked, proper⟩ := targetFrom_entry (target_ok goal).1
    rw [beyond, List.concat_eq_append, ← List.append_assoc] at shape
    obtain ⟨whole, same⟩ := List.append_inj' shape rfl
    have starts : world.start path = world.start root := by rw [start, start, begins]
    rw [starts, ← whole, walk_append_of_ok (find_walk there)] at walked
    exact ⟨init, part, List.concat_eq_append, walked, List.singleton_inj.mp same ▸ proper⟩

variable (safe : Zip.isSafeName name = true)

include safe

theorem parts_below : (root.below name).parts = root.parts ++ Path.parts ⟨name⟩ :=
  Path.parts_join (find_isEmpty there) (Zip.isSafeName_iff.mp safe).2.1

theorem isAbsolute_below : (root.below name).isAbsolute = root.isAbsolute :=
  Path.isAbsolute_join (find_isEmpty there) (Zip.isSafeName_iff.mp safe).2.1

/-- **What is free on the way of a safe name lies below the root.** -/
theorem target_below (on : path.LiesOn (root.below name))
    (goal : world.target path = .ok (.entry parent entry slashed))
    (free : ¬ world.IsDirectoryAt (entry :: parent)) : place <:+ entry :: parent := by
  rcases on with none | ⟨begins, leads⟩
  · rw [(target_ok goal).2] at none
    cases none
  · rw [isAbsolute_below there safe] at begins
    rw [parts_below there safe] at leads
    rcases List.prefix_or_prefix_of_prefix leads (List.prefix_append _ _) with
      before | ⟨rest, beyond⟩
    · exact absurd (directory_on_way there begins before goal) free
    · rw [← beyond] at leads
      obtain ⟨more, whole⟩ := (List.prefix_append_right_inj _).mp leads
      obtain ⟨init, part, rfl, walked, -⟩ := entry_beyond there begins beyond.symm goal free
      have stays := (Zip.isSafeName_iff.mp safe).2.2
      rw [← whole, List.append_assoc] at stays
      exact (walk_below [] (keepsBelow_of_append stays) walked).trans
        (List.suffix_cons entry parent)

/-- **The path of a safe name leads where its text does**, and the way there can be gone. -/
theorem target_settles (goal : world.target (root.below name) = .ok (.entry parent entry slashed))
    (free : ¬ world.IsDirectoryAt (entry :: parent)) :
    settle place (Path.parts ⟨name⟩) = some (entry :: parent) := by
  obtain ⟨init, part, shape, walked, proper, forth, named⟩ := entry_beyond there
    (isAbsolute_below there safe) (parts_below there safe) goal free
  rw [shape]
  exact settle_entry walked proper forth named

end Targets

/-! ## Part 3 — directories on the way -/

/-- **New directories below a location**, and nothing else. -/
structure Prepared (place : Location) (before after : World) : Prop where
  changed : ChangedBelow place before after
  files : ∀ other, after.fileAt? other = before.fileAt? other

namespace Prepared

theorem refl (place : Location) (world : World) : Prepared place world world :=
  ⟨ChangedBelow.refl place world, fun _ => rfl⟩

theorem trans (first : Prepared place before middle) (second : Prepared place middle after) :
    Prepared place before after :=
  ⟨first.changed.trans second.changed, fun other => (second.files other).trans (first.files other)⟩

end Prepared

/-- **A path is confined to a location**: unless its target is a directory, it lies below. -/
def Confines (place : Location) (path : Path) (world : World) : Prop :=
  ∀ parent entry slashed, world.target path = .ok (.entry parent entry slashed) →
    ¬ world.IsDirectoryAt (entry :: parent) → place <:+ entry :: parent

/-- Every path is confined to the root of the world. -/
theorem confines_nil (path : Path) (world : World) : Confines [] path world :=
  fun _ _ _ _ _ => List.nil_suffix

/-- What leads part of the way of a safe name stays confined to the root, whatever changes there. -/
theorem confines_of_safe (there : before.find root = .ok (place, .directory))
    (safe : Zip.isSafeName name = true) (on : path.LiesOn (root.below name))
    (changed : ChangedBelow place before after) : Confines place path after :=
  fun _ _ _ goal free =>
    target_below (changed.keepsDirectories.find_directory there) safe on goal free

/-- A confined directory that is made is a new one below the location. -/
theorem makeDirectory_prepares (confined : Confines place path world)
    (made : world.makeDirectory path = .ok after) : Prepared place world after := by
  obtain ⟨parent, entry, slashed, goal, free, placed⟩ := makeDirectory_placed made
  have below : place <:+ entry :: parent := by
    refine confined parent entry slashed goal fun directory => ?_
    rw [IsDirectoryAt, free] at directory
    cases directory
  refine ⟨ChangedBelow.of_placed placed below fun held found => ?_, placed.fileAt?_directory free⟩
  rw [free] at found
  cases found

theorem ensureDirectory_prepares (confined : Confines place path world) :
    Prepared place world ((Disk.ensureDirectory path).run.run world).2 := by
  rw [Disk.run_ensureDirectory]
  split
  · next changed made => exact makeDirectory_prepares confined made
  · split
    · exact Prepared.refl place world
    · exact Prepared.refl place world

/-- **Directories that stay confined are new ones below the location**, whether or not all of them
can be made. -/
theorem ensureDirectories_prepares {paths : List Path}
    (confined : ∀ path ∈ paths, ∀ later, ChangedBelow place world later →
      Confines place path later) :
    Prepared place world ((Disk.ensureDirectories paths).run.run world).2 := by
  have here : ∀ path ∈ paths, Confines place path world := fun path member =>
    confined path member world (ChangedBelow.refl place world)
  induction paths with
  | nil => exact Prepared.refl place world
  | cons path above ih =>
    rw [Disk.run_ensureDirectories_cons]
    split
    · exact Prepared.refl place world
    · split
      · next changed made => exact makeDirectory_prepares (here path List.mem_cons_self) made
      · rcases ran : (Disk.ensureDirectories above >>= fun _ =>
          Disk.ensureDirectory path).run.run world with ⟨outcome, after⟩
        have earlier := ih (fun other member => confined other (List.mem_cons_of_mem _ member))
          fun other member => here other (List.mem_cons_of_mem _ member)
        rcases Disk.run_bind_cases ran with ⟨fault, failed, rfl⟩ | ⟨_, middle, made, rest⟩
        · rw [failed] at earlier
          exact earlier
        · rw [made] at earlier
          have last := ensureDirectory_prepares
            (confined path List.mem_cons_self middle earlier.changed)
          rw [rest] at last
          exact earlier.trans last
      · split
        · exact Prepared.refl place world
        · exact Prepared.refl place world

/-- A directory and all above it. -/
theorem makeDirectories_prepares
    (confined : ∀ other, other.LiesOn path → ∀ later, ChangedBelow place world later →
      Confines place other later) :
    Prepared place world ((Disk.makeDirectories path).run.run world).2 := by
  refine ensureDirectories_prepares fun other member => confined other ?_
  rcases List.mem_cons.mp member with rfl | above
  · exact Path.LiesOn.refl other
  · exact Path.liesOn_of_mem_parents above

end World

end ShaderForge
