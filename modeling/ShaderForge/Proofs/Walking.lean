/-
**Where a path leads.**

A path is followed part by part: `walk` goes through directories only, and the target of a path is
where all of it leads, or all but the last name (`targetFrom_entry`, `find_walk`).

There are no links, so where a path leads can also be read off its text: `settle` drops every `.`
and takes every `..` back with the name before it. A walk that comes to an end has settled
(`walk_settles`). Parts that never climb above the directory they begin in (`keepsBelow`) stay below
it at every moment of a walk (`walk_below`).

Changes that leave every directory in its place leave every walk and every target as it was
(`ChangedBelow.walk`, `ChangedBelow.target`).
-/

import ShaderForge.Proofs.Edits
import ShaderForge.Proofs.PathText

namespace ShaderForge.World

variable {world before after : World} {place inner parent root : Location} {name : EntryName}
  {path : Path} {part : List Char} {parts first second : List (List Char)} {slashed : Bool}

/-! ## Part 1 — walks -/

/-- **The directory that parts lead to** from a directory, one after the other. -/
def walk (world : World) : Location → List (List Char) → Except IoFault Location
  | place, [] => pure place
  | place, part :: parts =>
    match world.enter place part with
    | .error fault => throw fault
    | .ok inner => world.walk inner parts

theorem walk_cons_ok {goal : Location} (walked : world.walk place (part :: parts) = .ok goal) :
    ∃ inner, world.enter place part = .ok inner ∧ world.walk inner parts = .ok goal := by
  rw [walk] at walked
  split at walked
  · cases walked
  · next inner entered => exact ⟨inner, entered, walked⟩

/-- **A walk in two stretches.** -/
theorem walk_append :
    world.walk place (first ++ second) =
      match world.walk place first with
      | .error fault => throw fault
      | .ok inner => world.walk inner second := by
  induction first generalizing place with
  | nil => rfl
  | cons part first ih =>
    rw [List.cons_append, walk, walk]
    cases world.enter place part with
    | error fault => rfl
    | ok inner => exact ih

theorem walk_append_of_ok (walked : world.walk place first = .ok inner) :
    world.walk place (first ++ second) = world.walk inner second := by
  rw [walk_append, walked]

/-- What a part leads to: the place itself, its parent, or a directory in it. -/
theorem enter_ok (entered : world.enter place part = .ok inner) :
    part = ['.'] ∧ inner = place ∨ part = ['.', '.'] ∧ inner = place.tail ∨
      part ≠ ['.'] ∧ part ≠ ['.', '.'] ∧ ∃ name, entryName? part = some name ∧
        inner = name :: place ∧ world.IsDirectoryAt (name :: place) := by
  unfold enter at entered
  split at entered
  · next here => exact .inl ⟨here, (Except.ok.inj entered).symm⟩
  · next proper =>
    split at entered
    · next up => exact .inr (.inl ⟨up, (Except.ok.inj entered).symm⟩)
    · next forth =>
      refine .inr (.inr ⟨proper, forth, ?_⟩)
      split at entered
      · cases entered
      · next name named =>
        split at entered
        · cases entered
        · cases entered
        · next there => exact ⟨name, named, (Except.ok.inj entered).symm, there⟩

theorem enter_directory (proper : part ≠ ['.']) (forth : part ≠ ['.', '.'])
    (named : entryName? part = some name) (there : world.IsDirectoryAt (name :: place)) :
    world.enter place part = .ok (name :: place) := by
  rw [enter, if_neg proper, if_neg forth, named]
  rw [IsDirectoryAt] at there
  simp only [there]
  rfl

/-! ## Part 2 — targets -/

theorem target_ok {target : Target} (leads : world.target path = .ok target) :
    world.targetFrom (path.text.toList.getLast? == some '/') (world.start path) path.parts =
      .ok target ∧ path.isEmpty = false := by
  unfold World.target at leads
  split at leads
  · cases leads
  · next proper =>
    split at leads
    · cases leads
    · split at leads
      · cases leads
      · split at leads
        · cases leads
        · exact ⟨leads, by simpa using proper⟩

/-- Only a path without NUL leads anywhere. -/
theorem target_plain {target : Target} (leads : world.target path = .ok target) :
    Char.ofNat 0 ∉ path.text.toList := by
  unfold World.target at leads
  split at leads
  · cases leads
  · split at leads
    · cases leads
    · next plain => rwa [List.contains_iff_mem] at plain

/-- Only a short path leads anywhere. -/
theorem target_short {target : Target} (leads : world.target path = .ok target) :
    path.text.utf8ByteSize < 4096 := by
  unfold World.target at leads
  split at leads
  · cases leads
  · split at leads
    · cases leads
    · split at leads
      · cases leads
      · next short => exact Nat.not_le.mp short

/-- **A target with a name**: all parts but the last lead to its directory, and the last one is the
name. -/
theorem targetFrom_entry {among : Bool}
    (leads : world.targetFrom among place parts = .ok (.entry parent name slashed)) :
    ∃ init part, parts = init ++ [part] ∧ world.walk place init = .ok parent ∧ part ≠ ['.'] ∧
      part ≠ ['.', '.'] ∧ entryName? part = some name := by
  induction parts generalizing place with
  | nil => cases leads
  | cons part parts ih =>
    cases parts with
    | nil =>
      refine ⟨[], part, rfl, ?_⟩
      rw [targetFrom] at leads
      split at leads
      · cases leads
      · next proper =>
        split at leads
        · cases leads
        · next forth =>
          split at leads
          · cases leads
          · next found named =>
            cases leads
            exact ⟨rfl, proper, forth, named⟩
    | cons next parts =>
      rw [targetFrom] at leads
      split at leads
      · cases leads
      · next inner entered =>
        obtain ⟨init, last, shape, walked, rest⟩ := ih leads
        refine ⟨part :: init, last, by rw [shape]; rfl, ?_, rest⟩
        rw [walk, entered]
        exact walked

/-- A target that is surely a directory is where all parts lead. -/
theorem targetFrom_directory {among : Bool}
    (leads : world.targetFrom among place parts = .ok (.directory inner)) :
    world.walk place parts = .ok inner := by
  induction parts generalizing place with
  | nil =>
    cases leads
    rfl
  | cons part parts ih =>
    cases parts with
    | nil =>
      rw [targetFrom] at leads
      rw [walk, enter]
      split at leads
      · next here =>
        cases leads
        rw [if_pos here]
        rfl
      · next proper =>
        split at leads
        · next up =>
          cases leads
          rw [if_neg proper, if_pos up]
          rfl
        · split at leads
          · cases leads
          · cases leads
    | cons next parts =>
      rw [targetFrom] at leads
      split at leads
      · cases leads
      · next inner entered =>
        rw [walk, entered]
        exact ih leads

/-- All parts but the last are walked before the last one is looked at. -/
theorem targetFrom_append {among : Bool} :
    world.targetFrom among place (parts ++ [part]) =
      match world.walk place parts with
      | .error fault => throw fault
      | .ok inner => world.targetFrom among inner [part] := by
  induction parts generalizing place with
  | nil => rfl
  | cons first parts ih =>
    obtain ⟨next, rest, shape⟩ := List.exists_cons_of_ne_nil
      (List.append_ne_nil_of_right_ne_nil parts (List.cons_ne_nil part []))
    rw [List.cons_append, shape, targetFrom, walk, ← shape]
    cases world.enter place first with
    | error fault => rfl
    | ok inner => exact ih

/-- **The target of a path** that can be looked at is that of its parts. -/
theorem target_eq (proper : path.isEmpty = false) (plain : Char.ofNat 0 ∉ path.text.toList)
    (short : path.text.utf8ByteSize < 4096) (begins : world.IsDirectoryAt (world.start path)) :
    world.target path =
      world.targetFrom (path.text.toList.getLast? == some '/') (world.start path) path.parts := by
  rw [target, proper, if_neg Bool.false_ne_true,
    if_neg (by rwa [List.contains_iff_mem]), if_neg (Nat.not_le.mpr short),
    hasDirectory_iff.mpr begins]
  rfl

/-- What a path leads to stands at its target. -/
theorem find_ok {node : Node} (found : world.find path = .ok (place, node)) :
    (node = .directory ∧ world.target path = .ok (.directory place)) ∨
      ∃ parent name slashed, world.target path = .ok (.entry parent name slashed) ∧
        place = name :: parent ∧ world.node? place = some node ∧
          (slashed && node.isFile) = false := by
  unfold find at found
  cases leads : world.target path with
  | error fault =>
    rw [leads] at found
    cases found
  | ok target =>
    rw [leads] at found
    cases target with
    | directory goal =>
      cases found
      exact .inl ⟨rfl, rfl⟩
    | entry parent name slashed =>
      refine .inr ⟨parent, name, slashed, rfl, ?_⟩
      change world.nodeOf (.entry parent name slashed) = _ at found
      simp only [nodeOf] at found
      cases there : world.node? (name :: parent) with
      | none =>
        rw [there] at found
        cases found
      | some held =>
        rw [there] at found
        change (if (slashed && held.isFile) = true then _ else _) = _ at found
        split at found
        · cases found
        · next fits =>
          cases found
          exact ⟨rfl, there, by simpa using fits⟩

/-- **A path to a directory is walked to its end.** -/
theorem find_walk (found : world.find path = .ok (place, .directory)) :
    world.walk (world.start path) path.parts = .ok place := by
  rcases find_ok found with ⟨_, leads⟩ | ⟨parent, name, slashed, leads, rfl, there, _⟩
  · exact targetFrom_directory (target_ok leads).1
  · obtain ⟨init, part, shape, walked, proper, forth, named⟩ := targetFrom_entry (target_ok leads).1
    rw [shape, walk_append_of_ok walked, walk, enter_directory proper forth named there]
    rfl

/-- **A path that can be walked to its end** leads to a directory. -/
theorem find_of_walk (proper : path.isEmpty = false) (plain : Char.ofNat 0 ∉ path.text.toList)
    (short : path.text.utf8ByteSize < 4096) (begins : world.IsDirectoryAt (world.start path))
    (walked : world.walk (world.start path) path.parts = .ok place) :
    world.find path = .ok (place, .directory) := by
  rw [find, target_eq proper plain short begins]
  generalize (path.text.toList.getLast? == some '/') = slashed
  rcases List.eq_nil_or_concat path.parts with none | ⟨init, part, shape⟩
  · rw [none] at walked ⊢
    cases walked
    rfl
  · rw [shape, List.concat_eq_append] at walked ⊢
    rw [targetFrom_append]
    rw [walk_append] at walked
    cases reached : world.walk (world.start path) init with
    | error fault =>
      rw [reached] at walked
      cases walked
    | ok inner =>
      rw [reached] at walked
      obtain ⟨goal, entered, ends⟩ := walk_cons_ok walked
      cases ends
      show (world.targetFrom slashed inner [part] >>= world.nodeOf) = _
      rw [targetFrom]
      rcases enter_ok entered with ⟨here, rfl⟩ | ⟨up, rfl⟩ | ⟨forth, back, name, named, rfl, there⟩
      · rw [if_pos here]
        rfl
      · rw [if_neg (by rw [up]; decide), if_pos up]
        rfl
      · rw [if_neg forth, if_neg back, named]
        show world.nodeOf (.entry inner name slashed) = _
        rw [IsDirectoryAt] at there
        simp only [nodeOf, there, Node.isFile, Bool.and_false]
        rfl

theorem find_file {bytes : ByteArray} (found : world.find path = .ok (place, .file bytes)) :
    world.node? place = some (.file bytes) := by
  rcases find_ok found with ⟨nothing, _⟩ | ⟨_, _, _, _, _, there, _⟩
  · cases nothing
  · exact there

theorem find_isEmpty {node : Node} (found : world.find path = .ok (place, node)) :
    path.isEmpty = false := by
  rcases find_ok found with ⟨_, leads⟩ | ⟨_, _, _, leads, _⟩
  · exact (target_ok leads).2
  · exact (target_ok leads).2

theorem find?_eq_some {result : Location × Node} :
    world.find? path = some result ↔ world.find path = .ok result :=
  toOption_eq_some

/-- What a path to a file leads to. -/
theorem isFile_iff :
    world.isFile path = true ↔ ∃ place bytes, world.find path = .ok (place, .file bytes) := by
  rw [isFile]
  constructor
  · split
    · next place node found =>
      intro file
      cases node with
      | directory => cases file
      | file bytes => exact ⟨place, bytes, find?_eq_some.mp found⟩
    · rintro ⟨⟩
  · rintro ⟨place, bytes, found⟩
    rw [find?_eq_some.mpr found]
    rfl

/-- What a path to a directory leads to. -/
theorem isDirectory_iff :
    world.isDirectory path = true ↔ ∃ place, world.find path = .ok (place, .directory) := by
  rw [isDirectory]
  constructor
  · split
    · next place node found =>
      intro directory
      cases node with
      | directory => exact ⟨place, find?_eq_some.mp found⟩
      | file bytes => cases directory
    · rintro ⟨⟩
  · rintro ⟨place, found⟩
    rw [find?_eq_some.mpr found]
    rfl

/-- What is there cannot be made. -/
theorem makeDirectory_of_find {node : Node} (found : world.find path = .ok (place, node)) :
    world.makeDirectory path = .error .alreadyExists := by
  rcases find_ok found with ⟨rfl, leads⟩ | ⟨parent, name, slashed, leads, rfl, there, -⟩
  · rw [makeDirectory, leads]
    rfl
  · have inside : world.IsDirectoryAt parent :=
      directory_of_below (List.cons_ne_nil name []) (by rw [List.singleton_append, there]; rfl)
    rw [makeDirectory, leads]
    show world.addDirectoryAt parent name = _
    rw [addDirectoryAt, dif_pos (hasDirectory_iff.mpr inside), there]
    rfl

/-! ## Part 3 — paths read without a disk -/

/-- **Where parts lead by their text**, from a place: `.` stays, `..` goes back, and a name goes on.
-/
def settle : Location → List (List Char) → Option Location
  | place, [] => some place
  | place, part :: parts =>
    if part = ['.'] then settle place parts
    else if part = ['.', '.'] then settle place.tail parts
    else match entryName? part with
      | none => none
      | some name => settle (name :: place) parts

theorem settle_append :
    settle place (first ++ second) =
      (settle place first).bind fun inner => settle inner second := by
  induction first generalizing place with
  | nil => rfl
  | cons part first ih =>
    rw [List.cons_append, settle, settle]
    by_cases here : part = ['.']
    · rw [if_pos here, if_pos here]
      exact ih
    · rw [if_neg here, if_neg here]
      by_cases up : part = ['.', '.']
      · rw [if_pos up, if_pos up]
        exact ih
      · rw [if_neg up, if_neg up]
        cases entryName? part with
        | none => rfl
        | some name => exact ih

/-- **A walk ends where its text leads.** -/
theorem walk_settles (walked : world.walk place parts = .ok inner) :
    settle place parts = some inner := by
  induction parts generalizing place with
  | nil =>
    cases walked
    rfl
  | cons part parts ih =>
    obtain ⟨next, entered, goes⟩ := walk_cons_ok walked
    rw [settle]
    rcases enter_ok entered with ⟨here, rfl⟩ | ⟨up, rfl⟩ | ⟨proper, forth, name, named, rfl, _⟩
    · rw [if_pos here]
      exact ih goes
    · rw [if_neg (by rw [up]; decide), if_pos up]
      exact ih goes
    · rw [if_neg proper, if_neg forth, named]
      exact ih goes

/-- Parts that lead to a name in a directory settle there. -/
theorem settle_entry (walked : world.walk place parts = .ok parent) (proper : part ≠ ['.'])
    (forth : part ≠ ['.', '.']) (named : entryName? part = some name) :
    settle place (parts ++ [part]) = some (name :: parent) := by
  rw [settle_append, walk_settles walked, Option.bind_some, settle, if_neg proper, if_neg forth,
    named]
  rfl

/-- **Whether parts never climb above a directory**, `depth` levels below it at first. -/
def keepsBelow : Nat → List (List Char) → Bool
  | _, [] => true
  | depth, part :: parts =>
    if part = ['.'] then keepsBelow depth parts
    else if part = ['.', '.'] then decide (0 < depth) && keepsBelow (depth - 1) parts
    else keepsBelow (depth + 1) parts

/-- **Names never climb.** -/
theorem keepsBelow_of_names {depth : Nat} {parts : List (List Char)}
    (named : ∀ part ∈ parts, part ≠ ['.'] ∧ part ≠ ['.', '.']) :
    keepsBelow depth parts = true := by
  induction parts generalizing depth with
  | nil => rfl
  | cons part parts ih =>
    obtain ⟨here, up⟩ := named part List.mem_cons_self
    rw [keepsBelow, if_neg here, if_neg up]
    exact ih fun other among => named other (List.mem_cons_of_mem _ among)

/-- Parts that never climb above a directory have not done so before. -/
theorem keepsBelow_of_append {depth : Nat} (stays : keepsBelow depth (first ++ second) = true) :
    keepsBelow depth first = true := by
  induction first generalizing depth with
  | nil => rfl
  | cons part first ih =>
    rw [List.cons_append, keepsBelow] at stays
    rw [keepsBelow]
    split at stays
    · next here =>
      rw [if_pos here]
      exact ih stays
    · next proper =>
      rw [if_neg proper]
      split at stays
      · next up =>
        rw [Bool.and_eq_true] at stays
        rw [if_pos up, stays.1, ih stays.2]
        rfl
      · next forth =>
        rw [if_neg forth]
        exact ih stays

/-- **Parts that never climb above a directory lead to a place below it.** -/
theorem walk_below (names : Location) (stays : keepsBelow names.length parts = true)
    (walked : world.walk (names ++ root) parts = .ok inner) : root <:+ inner := by
  induction parts generalizing names with
  | nil =>
    cases walked
    exact List.suffix_append names root
  | cons part parts ih =>
    obtain ⟨next, entered, goes⟩ := walk_cons_ok walked
    rw [keepsBelow] at stays
    rcases enter_ok entered with ⟨here, rfl⟩ | ⟨up, rfl⟩ | ⟨proper, forth, name, _, rfl, _⟩
    · rw [if_pos here] at stays
      exact ih names stays goes
    · rw [if_neg (by rw [up]; decide), if_pos up, Bool.and_eq_true] at stays
      cases names with
      | nil => cases stays.1
      | cons name names => exact ih names stays.2 goes
    · rw [if_neg proper, if_neg forth] at stays
      exact ih (name :: names) stays goes

/-! ## Part 4 — walks and changes -/

namespace KeepsDirectories

variable (keeps : KeepsDirectories before after)

include keeps

theorem enter (entered : before.enter place part = .ok inner) :
    after.enter place part = .ok inner := by
  rcases enter_ok entered with ⟨rfl, rfl⟩ | ⟨rfl, rfl⟩ | ⟨proper, forth, name, named, rfl, there⟩
  · rfl
  · rfl
  · exact enter_directory proper forth named (keeps.directory _ there)

/-- **A walk goes where it went before.** -/
theorem walk (walked : before.walk place parts = .ok inner) :
    after.walk place parts = .ok inner := by
  induction parts generalizing place with
  | nil => exact walked
  | cons part parts ih =>
    obtain ⟨next, entered, goes⟩ := walk_cons_ok walked
    rw [World.walk, keeps.enter entered]
    exact ih goes

theorem targetFrom {target : Target}
    (leads : before.targetFrom slashed place parts = .ok target) :
    after.targetFrom slashed place parts = .ok target := by
  induction parts generalizing place with
  | nil => exact leads
  | cons part parts ih =>
    cases parts with
    | nil =>
      rw [World.targetFrom] at leads ⊢
      exact leads
    | cons next parts =>
      rw [World.targetFrom] at leads
      rw [World.targetFrom]
      split at leads
      · cases leads
      · next inner entered =>
        rw [keeps.enter entered]
        exact ih leads

theorem start (path : Path) : after.start path = before.start path := by
  rw [World.start, World.start, keeps.cwd]

/-- **A path has the target that it had before.** -/
theorem target {target : Target} (leads : before.target path = .ok target) :
    after.target path = .ok target := by
  have goes := (target_ok leads).1
  unfold World.target at leads ⊢
  split at leads
  · cases leads
  · next proper =>
    split at leads
    · cases leads
    · next plain =>
      split at leads
      · cases leads
      · next short =>
        split at leads
        · cases leads
        · next begins =>
          have there : after.hasDirectory (after.start path) = true := by
            rw [keeps.start, hasDirectory_iff]
            refine keeps.directory _ (hasDirectory_iff.mp ?_)
            simpa using begins
          rw [if_neg proper, if_neg plain, if_neg short, there, keeps.start]
          exact keeps.targetFrom goes

/-- **A path to a directory leads to it still.** -/
theorem find_directory (found : before.find path = .ok (place, .directory)) :
    after.find path = .ok (place, .directory) := by
  unfold World.find
  rcases find_ok found with ⟨_, leads⟩ | ⟨parent, name, slashed, leads, rfl, there, _⟩
  · rw [keeps.target leads]
    rfl
  · have holds : after.node? (name :: parent) = some .directory := keeps.directory _ there
    rw [keeps.target leads]
    show after.nodeOf (.entry parent name slashed) = _
    simp only [nodeOf, holds, Node.isFile, Bool.and_false]
    rfl

end KeepsDirectories

/-- **A file that is removed is not there afterwards.** -/
theorem read_removeFile (removed : before.removeFile path = .ok after) :
    after.read path = .error .notFound := by
  obtain ⟨place, bytes, found, rfl⟩ := removeFile_erases removed
  rcases find_ok found with ⟨nothing, _⟩ | ⟨parent, name, slashed, leads, rfl, there, _⟩
  · cases nothing
  · have goes := (keepsDirectories_eraseTree there).target leads
    have gone : (before.eraseTree (name :: parent)).node? (name :: parent) = none := by
      rw [node?_eraseTree_file there, if_pos rfl]
    have nothing : (before.eraseTree (name :: parent)).find path = .error .notFound := by
      rw [find, goes]
      show nodeOf _ (.entry parent name slashed) = _
      simp only [nodeOf, gone]
      rfl
    rw [read, nothing]
    rfl

end ShaderForge.World
