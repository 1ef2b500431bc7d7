/-
**Two worlds that differ at one place.**

Two worlds are alike beside a place (`Beside`) if they hold the same everywhere else and neither has
a directory there. A path whose text never leads to that place (`Avoids`) leads to the same in both
(`Beside.find`), scans find the same in both (`Beside.filesNamed`), and an edit through such a path
does the same to both (`Beside.makeDirectory`). A file written at the place itself makes the two
worlds one (`Beside.write`): nothing is left of what was there.

A path is read by its text here, so that it avoids a place in all worlds with one working
directory; the parents of a path are shorter than it (`Path.parts_parent?_lt`), and so they avoid
the place that a path leads to only at its end.

* `Disk.agree_makeDirectories`: directories made in both worlds, with what relates the worlds kept;
* `Zip.placeMember_twin`: a member unpacked in both worlds.
-/

import Mathlib.Data.List.Basic
import ShaderForge.Proofs.Extraction
import ShaderForge.Proofs.PlanClashes

namespace ShaderForge

/-! ## Part 1 — parents are shorter -/

namespace Path

open Text (pieces)

variable {path parent : Path} {walked : List Char} {leading : Bool} {parts : List (List Char)}
  {step : Step}

/-- A part after a slash, or at the front of a text, is a part of its own. -/
theorem solid_append_part {part : List Char} (free : '/' ∉ part) (edge : Edge walked) :
    solid (walked ++ part) = solid walked ++ [part].filter (· ≠ []) := by
  have own := solid_of_notMem free
  rcases edge with none | ⟨before, rfl⟩
  · rw [none, solid_nil, List.nil_append, List.nil_append, own]
  · rw [List.append_assoc, List.singleton_append, solid_append_slash, own, solid_append_slash,
      solid_nil, List.append_nil]

/-- A step goes one part further than the text before it, at least. -/
theorem length_solid_lt (free : ∀ part ∈ parts, '/' ∉ part) (edge : Edge walked)
    (member : step ∈ stepsFrom leading walked parts) :
    (solid walked).length < (solid step.through).length := by
  induction parts generalizing leading walked with
  | nil => exact absurd member List.not_mem_nil
  | cons part rest ih =>
    have here := solid_append_part (free part List.mem_cons_self) edge
    have later : step ∈ stepsFrom false (walked ++ part ++ ['/']) rest →
        (solid walked).length < (solid step.through).length := by
      intro inside
      have further := ih (fun piece there => free piece (List.mem_cons_of_mem _ there))
        (.inr ⟨walked ++ part, rfl⟩) inside
      rw [solid_append_slash, solid_nil, List.append_nil, here, List.length_append] at further
      omega
    rw [stepsFrom] at member
    split at member
    · exact later member
    · next component read =>
      rcases List.mem_cons.mp member with first | inside
      · have proper : part ≠ [] := by
          intro nothing
          rw [component?, if_pos nothing] at read
          cases read
        rw [first]
        show (solid walked).length < (solid (walked ++ part)).length
        rw [here, List.filter_cons_of_pos (by simpa using proper), List.length_append]
        simp
      · exact later inside

/-- Later steps go through more parts. -/
theorem stepsFrom_pairwise (free : ∀ part ∈ parts, '/' ∉ part) :
    (stepsFrom leading walked parts).Pairwise fun first second =>
      (solid first.through).length < (solid second.through).length := by
  induction parts generalizing leading walked with
  | nil => exact List.Pairwise.nil
  | cons part rest ih =>
    have others := fun piece there => free piece (List.mem_cons_of_mem part there)
    rw [stepsFrom]
    split
    · exact ih others
    · next component read =>
      refine List.Pairwise.cons (fun step inside => ?_) (ih others)
      have further := length_solid_lt others (.inr ⟨walked ++ part, rfl⟩) inside
      rwa [solid_append_slash, solid_nil, List.append_nil] at further

/-- The steps of a path go through more and more parts, and each but the root through one. -/
theorem steps_pairwise (path : Path) :
    (path.steps.Pairwise fun first second =>
      (solid first.through).length < (solid second.through).length) ∧
      ∀ step ∈ path.steps, step.component ≠ .root → 0 < (solid step.through).length := by
  have free : ∀ {text : List Char}, ∀ part ∈ pieces '/' text, '/' ∉ part :=
    fun part there => Text.notMem_of_mem_pieces there
  rw [steps]
  generalize path.text.toList = text
  unfold stepsOf
  split
  · next rest =>
    have further : ∀ step ∈ stepsFrom false ['/'] (pieces '/' rest),
        0 < (solid step.through).length := fun step inside =>
      Nat.lt_of_le_of_lt (Nat.zero_le _) (length_solid_lt free (.inr ⟨[], rfl⟩) inside)
    refine ⟨List.Pairwise.cons (fun step inside => ?_) (stepsFrom_pairwise free), ?_⟩
    · rw [solid_slash_cons, solid_nil]
      exact further step inside
    · intro step inside proper
      rcases List.mem_cons.mp inside with rfl | inside
      · exact absurd rfl proper
      · exact further step inside
  · refine ⟨stepsFrom_pairwise free, fun step inside _ => ?_⟩
    exact Nat.lt_of_le_of_lt (Nat.zero_le _) (length_solid_lt free (.inl rfl) inside)

/-- **The parent of a path has fewer parts.** -/
theorem parts_parent?_lt (above : path.parent? = some parent) :
    parent.parts.length < path.parts.length := by
  obtain ⟨rest, found, rfl⟩ := Option.map_eq_some_iff.mp above
  unfold ancestry? at found
  split at found
  · cases found
  · next last init turned =>
    split at found
    · cases found
    · next proper =>
      cases found
      have shape : path.steps = rest.reverse ++ [last] := by
        rw [← List.reverse_reverse path.steps, turned, List.reverse_cons]
      have inside : last ∈ path.steps := by
        rw [shape]
        exact List.mem_append_right _ List.mem_cons_self
      obtain ⟨rising, positive⟩ := steps_pairwise path
      have through : (solid last.through).length ≤ path.parts.length := by
        rcases liesOn_of_mem_steps inside with empty | ⟨-, leads⟩
        · rw [← String.toList_ofList (l := last.through), isEmpty_iff.mp empty, solid_nil]
          exact Nat.zero_le _
        · rw [parts, String.toList_ofList] at leads
          exact leads.length_le
      refine Nat.lt_of_lt_of_le ?_ through
      cases rest with
      | nil => exact positive last inside proper
      | cons before more =>
        rw [shape, List.reverse_cons, List.append_assoc] at rising
        have both := (List.pairwise_append.mp rising).2.1
        show (parts ⟨String.ofList before.through⟩).length < _
        rw [parts, String.toList_ofList]
        exact (List.pairwise_cons.mp both).1 last List.mem_cons_self

end Path

variable {world left right after : World} {place : Location} {path parent other : Path}

namespace World

/-! ## Part 2 — paths that avoid a place -/

/-- **A path that goes through a place** on its way to another: by its text, some of its first parts
lead there. -/
def GoesThrough (world : World) (place : Location) (path : Path) : Prop :=
  ∃ init, init <+: path.parts ∧ init ≠ path.parts ∧ settle (world.start path) init = some place

/-- **A path that avoids a place**: by its text, none of its first parts lead there. -/
def Avoids (world : World) (place : Location) (path : Path) : Prop :=
  ∀ init, init <+: path.parts → settle (world.start path) init ≠ some place

theorem Avoids.passes (avoids : world.Avoids place path) : ¬ world.GoesThrough place path :=
  fun ⟨init, first, _, settles⟩ => avoids init first settles

theorem start_of_cwd (cwd : after.cwd = world.cwd) (path : Path) :
    after.start path = world.start path := by
  rw [start, start, cwd]

/-- What a path avoids depends on its text and the working directory only. -/
theorem Avoids.of_cwd (avoids : world.Avoids place path) (cwd : after.cwd = world.cwd) :
    after.Avoids place path := by
  intro init first
  rw [start_of_cwd cwd]
  exact avoids init first

/-- What lies on a path avoids what the path avoids. -/
theorem Avoids.of_liesOn (avoids : world.Avoids place path) (on : other.LiesOn path) :
    other.isEmpty = true ∨ world.Avoids place other := by
  rcases on with empty | ⟨begins, leads⟩
  · exact .inl empty
  · refine .inr fun init first => ?_
    rw [start, begins]
    exact avoids init (first.trans leads)

/-- **The parents of a path avoid what it does not go through.** -/
theorem avoids_of_parent (passes : ¬ world.GoesThrough place path)
    (above : path.parent? = some parent) (on : other.LiesOn parent) :
    other.isEmpty = true ∨ world.Avoids place other := by
  have shorter := Path.parts_parent?_lt above
  rcases on.trans (Path.liesOn_of_parent? above) with empty | ⟨begins, leads⟩
  · exact .inl empty
  · refine .inr fun init first settles => passes ⟨init, first.trans leads, ?_, ?_⟩
    · intro whole
      have long : other.parts.length < path.parts.length := by
        rcases on with empty | ⟨-, within⟩
        · rw [Path.parts_of_isEmpty empty]
          exact Nat.lt_of_le_of_lt (Nat.zero_le _) shorter
        · exact Nat.lt_of_le_of_lt within.length_le shorter
      have short := first.length_le
      rw [whole] at short
      omega
    · rw [start, ← begins]
      exact settles

/-- The target of a path is where its text leads. -/
theorem target_settle {above : Location} {entry : EntryName} {slashed : Bool}
    (goal : world.target path = .ok (.entry above entry slashed)) :
    settle (world.start path) path.parts = some (entry :: above) := by
  obtain ⟨init, part, shape, walked, proper, forth, named⟩ := targetFrom_entry (target_ok goal).1
  rw [shape]
  exact settle_entry walked proper forth named

theorem target_of_isEmpty (empty : path.isEmpty = true) : world.target path = .error .notFound := by
  rw [World.target, if_pos empty]
  rfl

/-- A walk that begins in a directory ends in one. -/
theorem walk_directory {inner : Location} {parts : List (List Char)}
    (there : world.IsDirectoryAt place) (walked : world.walk place parts = .ok inner) :
    world.IsDirectoryAt inner := by
  induction parts generalizing place with
  | nil =>
    cases walked
    exact there
  | cons part parts ih =>
    obtain ⟨next, entered, goes⟩ := walk_cons_ok walked
    refine ih ?_ goes
    rcases enter_ok entered with ⟨-, rfl⟩ | ⟨-, rfl⟩ | ⟨-, -, name, -, rfl, directory⟩
    · exact there
    · cases place with
      | nil => exact there
      | cons name above =>
        have lower : (world.node? ([name] ++ above)).isSome = true := by
          rw [IsDirectoryAt] at there
          rw [List.singleton_append, there]
          rfl
        exact directory_of_below (List.cons_ne_nil name []) lower
    · exact directory

/-- A path that leads anywhere begins in a directory. -/
theorem start_directory {target : Target} (leads : world.target path = .ok target) :
    world.IsDirectoryAt (world.start path) := by
  unfold World.target at leads
  split at leads
  · cases leads
  · split at leads
    · cases leads
    · split at leads
      · cases leads
      · split at leads
        · cases leads
        · next begins => exact hasDirectory_iff.mp (by simpa using begins)

/-- **What a path leads to is at its place.** -/
theorem node?_of_find {node : Node} (found : world.find path = .ok (place, node)) :
    world.node? place = some node := by
  rcases find_ok found with ⟨rfl, leads⟩ | ⟨above, name, slashed, -, -, there, -⟩
  · exact walk_directory (start_directory leads) (targetFrom_directory (target_ok leads).1)
  · exact there

/-- What is somewhere is where its path leads by its text. -/
theorem settle_of_find {node : Node} (found : world.find path = .ok (place, node)) :
    settle (world.start path) path.parts = some place := by
  rcases find_ok found with ⟨-, leads⟩ | ⟨above, name, slashed, leads, rfl, -⟩
  · exact walk_settles (targetFrom_directory (target_ok leads).1)
  · exact target_settle leads

/-! ## Part 3 — worlds that are alike beside a place -/

/-- **Two worlds alike beside a place**: they hold the same elsewhere, and neither has a directory
there. -/
structure Beside (place : Location) (left right : World) : Prop where
  cwd : right.cwd = left.cwd
  others : right.others place = left.others place
  left_free : ¬ left.IsDirectoryAt place
  right_free : ¬ right.IsDirectoryAt place

namespace Beside

variable (beside : Beside place left right)

include beside

theorem symm : Beside place right left :=
  ⟨beside.cwd.symm, beside.others.symm, beside.right_free, beside.left_free⟩

theorem node? {other : Location} (elsewhere : other ≠ place) :
    right.node? other = left.node? other := by
  have reads : ∀ world : World, other ≠ [] →
      world.node? other = (world.others place).lookup other := by
    intro world proper
    obtain ⟨name, above, rfl⟩ := List.exists_cons_of_ne_nil proper
    show _ = (world.nodes.filter fun entry => decide (entry.1 ≠ place)).lookup (name :: above)
    rw [lookup_filter fun key => decide (key ≠ place), if_pos (decide_eq_true elsewhere)]
    rfl
  cases other with
  | nil => rfl
  | cons name above =>
    rw [reads right (List.cons_ne_nil _ _), reads left (List.cons_ne_nil _ _), beside.others]

/-- They have the same directories. -/
theorem directory {other : Location} : right.IsDirectoryAt other ↔ left.IsDirectoryAt other := by
  by_cases same : other = place
  · rw [same]
    exact iff_of_false beside.right_free beside.left_free
  · rw [IsDirectoryAt, IsDirectoryAt, beside.node? same]

theorem hasDirectory (other : Location) : right.hasDirectory other = left.hasDirectory other := by
  rw [Bool.eq_iff_iff, hasDirectory_iff, hasDirectory_iff]
  exact beside.directory

theorem keeps : KeepsDirectories left right := ⟨beside.cwd, fun _ => beside.directory.mpr⟩

/-- A part leads to the same in both, unless it leads to the place. -/
theorem enter {start : Location} {part : List Char}
    (elsewhere : settle start [part] ≠ some place) :
    right.enter start part = left.enter start part := by
  unfold World.enter
  by_cases here : part = ['.']
  · rw [if_pos here, if_pos here]
  · by_cases up : part = ['.', '.']
    · rw [if_neg here, if_pos up, if_neg here, if_pos up]
    · rw [if_neg here, if_neg up, if_neg here, if_neg up]
      cases named : entryName? part with
      | none => rfl
      | some name =>
        have apart : name :: start ≠ place := by
          intro same
          apply elsewhere
          rw [settle, if_neg here, if_neg up, named]
          exact congrArg some same
        dsimp only
        rw [beside.node? apart]

theorem targetFrom {start : Location} {parts : List (List Char)} {slashed : Bool}
    (passes : ∀ init, init <+: parts → init ≠ parts → settle start init ≠ some place) :
    right.targetFrom slashed start parts = left.targetFrom slashed start parts := by
  induction parts generalizing start with
  | nil => rfl
  | cons part parts ih =>
    cases parts with
    | nil => rfl
    | cons next parts =>
      have first : settle start [part] ≠ some place :=
        passes [part] (List.cons_prefix_cons.mpr ⟨rfl, List.nil_prefix⟩) (by simp)
      rw [World.targetFrom, World.targetFrom, beside.enter first]
      cases entered : left.enter start part with
      | error fault => rfl
      | ok inner =>
        have walked : left.walk start [part] = .ok inner := by
          rw [walk, entered]
          rfl
        refine ih fun init on short settles => ?_
        apply passes (part :: init) (List.cons_prefix_cons.mpr ⟨rfl, on⟩)
        · intro whole
          exact short (List.cons.inj whole).2
        · rw [← List.singleton_append, settle_append, walk_settles walked]
          exact settles

/-- **A path that does not go through the place has one target in both.** -/
theorem target (passes : ¬ left.GoesThrough place path) : right.target path = left.target path := by
  have starts : right.start path = left.start path := start_of_cwd beside.cwd path
  have goes : ∀ slashed, right.targetFrom slashed (left.start path)
      ((Text.pieces '/' path.text.toList).filter (· ≠ [])) = left.targetFrom slashed
        (left.start path) ((Text.pieces '/' path.text.toList).filter (· ≠ [])) := fun slashed =>
    beside.targetFrom fun init on short settles => passes ⟨init, on, short, settles⟩
  unfold World.target
  rw [beside.hasDirectory, starts, goes]

/-- **A path that avoids the place leads to the same in both.** -/
theorem find (avoids : left.Avoids place path) : right.find path = left.find path := by
  unfold World.find
  rw [beside.target avoids.passes]
  cases leads : left.target path with
  | error fault => rfl
  | ok target =>
    cases target with
    | directory goal => rfl
    | entry above name slashed =>
      have apart : name :: above ≠ place := by
        intro same
        apply avoids path.parts (List.prefix_refl _)
        rw [target_settle leads, same]
      show right.nodeOf (.entry above name slashed) = left.nodeOf (.entry above name slashed)
      simp only [nodeOf, beside.node? apart]

theorem find? (avoids : left.Avoids place path) : right.find? path = left.find? path := by
  rw [World.find?, World.find?, beside.find avoids]

theorem read (avoids : left.Avoids place path) : right.read path = left.read path := by
  rw [World.read, World.read, beside.find avoids]

theorem size (avoids : left.Avoids place path) : right.size path = left.size path := by
  rw [World.size, World.size, beside.find? avoids]

theorem load (avoids : left.Avoids place path) :
    ConfigFile.load right path = ConfigFile.load left path := by
  rw [ConfigFile.load, ConfigFile.load, readText, readText, beside.read avoids]

/-- A path leads to one directory in both, whatever it avoids. -/
theorem find_directory {goal : Location} :
    right.find path = .ok (goal, .directory) ↔ left.find path = .ok (goal, .directory) :=
  ⟨beside.symm.keeps.find_directory, beside.keeps.find_directory⟩

theorem isDirectory (path : Path) : right.isDirectory path = left.isDirectory path := by
  rw [Bool.eq_iff_iff, isDirectory_iff, isDirectory_iff]
  exact exists_congr fun goal => beside.find_directory

end Beside

/-! ## Part 4 — scans of both worlds -/

/-- The last name on the way to what is found is the file name of its path. -/
theorem name_of_found {root : Path} {start location : Location} {names : List EntryName}
    {name : String} (below : namesBelow? start location = some names)
    (found : (scannedPath (scanText root) names).stripped? root = some path)
    (named : path.fileName? = some name) :
    ∃ entry above, location = entry :: above ∧ entry.text = name := by
  obtain ⟨reads, rfl⟩ := names_of_found below found
  obtain ⟨init, last⟩ := names_of_fileName? named
  rcases List.eq_nil_or_concat names with rfl | ⟨first, entry, rfl⟩
  · unfold namesBelow? at below
    rw [List.reverse_nil, List.nil_append, decide_eq_false (Nat.lt_irrefl _),
      Bool.and_false] at below
    cases below
  · rw [List.concat_eq_append] at reads ⊢
    refine ⟨entry, first.reverse ++ start, ?_, ?_⟩
    · rw [List.reverse_append]
      rfl
    · rw [last, List.map_append, ← List.append_assoc, ← List.append_assoc] at reads
      exact (List.cons.inj (List.append_inj_right' reads rfl)).1.symm

/-- A scan begins where the text of the scan leads to a directory. -/
theorem scanStart?_eq_some_iff {root : Path} {goal : Location} :
    ShaderForge.scanStart? world root = some goal ↔
      (scanText root = [] ∧ goal = []) ∨
        (scanText root ≠ [] ∧
          world.find ⟨String.ofList (scanText root)⟩ = .ok (goal, .directory)) := by
  unfold ShaderForge.scanStart?
  split
  · next none => simp [none, eq_comm]
  · next proper =>
    rw [or_iff_right fun both => proper both.1, and_iff_right proper, World.find?]
    cases world.find ⟨String.ofList (scanText root)⟩ with
    | error fault => simp [Except.toOption]
    | ok found =>
      obtain ⟨place, node⟩ := found
      cases node <;> simp [Except.toOption]

/-- **A place whose name is not wanted** can be left out of a scan. -/
theorem found_others {wanted : String → Bool} {root : Path} {start : Location} {entry : EntryName}
    {above : Location} (shape : place = entry :: above) (unwanted : wanted entry.text = false)
    (world : World) :
    (world.nodes.filterMap fun (location, node) =>
        (foundPath? root start location).map fun path => (path, node)).filter
          (fun (path, node) => node.isFile && hasName wanted path) =
      ((world.others place).filterMap fun (location, node) =>
        (foundPath? root start location).map fun path => (path, node)).filter
          (fun (path, node) => node.isFile && hasName wanted path) := by
  rw [World.others, List.filter_filterMap, List.filter_filterMap, List.filterMap_filter]
  refine List.filterMap_congr ?_
  rintro ⟨location, node⟩ listed
  by_cases here : location = place
  · subst here
    rw [if_neg (by simp)]
    refine Option.filter_eq_none_iff.mpr ?_
    rintro ⟨path, held⟩ found fits
    obtain ⟨_, leads, same⟩ := Option.map_eq_some_iff.mp found
    cases same
    obtain ⟨names, below, -, stripped⟩ := foundPath?_eq_some.mp leads
    obtain ⟨-, fits⟩ := (Bool.and_eq_true _ _).mp fits
    unfold hasName at fits
    split at fits
    · next name named =>
      obtain ⟨own, parent, reached, text⟩ := name_of_found below stripped named
      rw [shape] at reached
      cases reached
      rw [text, fits] at unwanted
      cases unwanted
    · cases fits
  · rw [if_pos (by simpa using here)]

namespace Beside

variable (beside : Beside place left right)

include beside

theorem scanStart? (root : Path) : scanStart? right root = scanStart? left root :=
  Option.ext fun goal => by
    rw [scanStart?_eq_some_iff, scanStart?_eq_some_iff, beside.find_directory]

/-- **The files found under certain names are the same in both**, if the name of the place is not
one of them. -/
theorem filesNamed {wanted : String → Bool} {entry : EntryName} {above : Location}
    (shape : place = entry :: above) (other : wanted entry.text = false) (root : Path) :
    filesNamed wanted right root = filesNamed wanted left root := by
  unfold ShaderForge.filesNamed found
  rw [beside.scanStart? root]
  split
  · rfl
  · split
    · rfl
    · next start begins =>
      rw [found_others shape other right, found_others shape other left, beside.others]

end Beside

/-! ## Part 5 — edits of both worlds -/

theorem others_holding {name : EntryName} {above : Location} {node : Node}
    (elsewhere : name :: above ≠ place) (inside : world.IsDirectoryAt above)
    (free : node = .directory ∨ ¬ world.IsDirectoryAt (name :: above)) :
    (world.holding name above node inside free).others place =
      (name :: above, node) :: (world.others place).filter fun entry =>
        decide (entry.1 ≠ name :: above) := by
  show ((name :: above, node) :: world.others (name :: above)).filter _ = _
  rw [List.filter_cons_of_pos (by simpa using elsewhere), World.others, World.others,
    List.filter_filter, List.filter_filter]
  simp only [Bool.and_comm]

/-- A node set elsewhere makes no directory of a place. -/
theorem free_holding {name : EntryName} {above : Location} {node : Node}
    (elsewhere : name :: above ≠ place) (inside : world.IsDirectoryAt above)
    (free : node = .directory ∨ ¬ world.IsDirectoryAt (name :: above))
    (unlike : ¬ world.IsDirectoryAt place) :
    ¬ (world.holding name above node inside free).IsDirectoryAt place := by
  intro there
  rw [IsDirectoryAt, (holding_placed inside free).nodes, if_neg (Ne.symm elsewhere)] at there
  exact unlike there

/-- **An operation in two worlds** that fails in the same way in both, or changes both and relates
the changed ones. -/
inductive Twin (Related : World → World → Prop) :
    Except IoFault World → Except IoFault World → Prop
  | failed (fault : IoFault) : Twin Related (.error fault) (.error fault)
  | changed {left right : World} (related : Related left right) :
    Twin Related (.ok left) (.ok right)

/-- Alike beside a place, and paths begin where they began. -/
def StillBeside (place cwd : Location) (left right : World) : Prop :=
  left.cwd = cwd ∧ Beside place left right

theorem Twin.ended {Related : World → World → Prop} {first second : Except IoFault World}
    (twin : Twin Related first second) :
    (∃ fault, first = .error fault ∧ second = .error fault) ∨
      ∃ left right, first = .ok left ∧ second = .ok right ∧ Related left right := by
  cases twin with
  | failed fault => exact .inl ⟨fault, rfl, rfl⟩
  | changed related => exact .inr ⟨_, _, rfl, rfl, related⟩

namespace Beside

variable (beside : Beside place left right)

include beside

/-- The same node set elsewhere in both. -/
theorem holding {name : EntryName} {above : Location} {node : Node}
    (elsewhere : name :: above ≠ place) (inside : left.IsDirectoryAt above)
    (inside' : right.IsDirectoryAt above)
    (free : node = .directory ∨ ¬ left.IsDirectoryAt (name :: above))
    (free' : node = .directory ∨ ¬ right.IsDirectoryAt (name :: above)) :
    Beside place (left.holding name above node inside free)
      (right.holding name above node inside' free') where
  cwd := beside.cwd
  others := by rw [others_holding elsewhere, others_holding elsewhere, beside.others]
  left_free := free_holding elsewhere inside free beside.left_free
  right_free := free_holding elsewhere inside' free' beside.right_free

/-- A directory is made in both, at a path that avoids the place. -/
theorem makeDirectory (avoids : path.isEmpty = true ∨ left.Avoids place path) :
    Twin (StillBeside place left.cwd) (left.makeDirectory path) (right.makeDirectory path) := by
  rcases avoids with empty | avoids
  · rw [World.makeDirectory, World.makeDirectory, target_of_isEmpty empty, target_of_isEmpty empty]
    exact .failed _
  rw [World.makeDirectory, World.makeDirectory, beside.target avoids.passes]
  cases leads : left.target path with
  | error fault => exact .failed fault
  | ok target =>
    cases target with
    | directory goal => exact .failed _
    | entry above name slashed =>
      have apart : name :: above ≠ place := by
        intro same
        apply avoids path.parts (List.prefix_refl _)
        rw [target_settle leads, same]
      dsimp only
      unfold addDirectoryAt
      by_cases inside : left.hasDirectory above = true
      · have inside' : right.hasDirectory above = true := (beside.hasDirectory above).trans inside
        rw [dif_pos inside, dif_pos inside', beside.node? apart]
        split
        · exact .failed _
        · exact .changed ⟨rfl, beside.holding apart _ _ _ _⟩
      · have outside : ¬ right.hasDirectory above = true := by
          rwa [beside.hasDirectory above]
        rw [dif_neg inside, dif_neg outside]
        exact .failed _

/-- **A file is written in both**, through a path that leads elsewhere or to the place itself; in
the second case the two become one world. -/
theorem write (passes : ¬ left.GoesThrough place path) (bytes : ByteArray) :
    Twin (fun first second => first = second ∨
        settle (left.start path) path.parts ≠ some place ∧ StillBeside place left.cwd first second)
      (left.write path bytes) (right.write path bytes) := by
  rw [World.write, World.write, beside.target passes]
  cases leads : left.target path with
  | error fault => exact .failed fault
  | ok target =>
    cases target with
    | directory goal => exact .failed _
    | entry above name slashed =>
      dsimp only
      cases slashed with
      | true => exact .failed _
      | false =>
        rw [if_neg Bool.false_ne_true, if_neg Bool.false_ne_true]
        unfold storeAt
        by_cases inside : left.hasDirectory above = true
        · have inside' : right.hasDirectory above = true :=
            (beside.hasDirectory above).trans inside
          rw [dif_pos inside, dif_pos inside']
          by_cases taken : left.hasDirectory (name :: above) = true
          · have taken' := (beside.hasDirectory (name :: above)).trans taken
            rw [dif_pos taken, dif_pos taken']
            exact .failed _
          · have free : ¬ right.hasDirectory (name :: above) = true := by
              rwa [beside.hasDirectory]
            rw [dif_neg taken, dif_neg free]
            refine .changed ?_
            by_cases here : name :: above = place
            · refine .inl ?_
              subst here
              unfold World.holding
              simp only [beside.cwd, beside.others]
            · refine .inr ⟨?_, rfl, beside.holding here _ _ _ _⟩
              rw [target_settle leads]
              exact fun same => here (Option.some.inj same)
        · have outside : ¬ right.hasDirectory above = true := by
            rwa [beside.hasDirectory above]
          rw [dif_neg inside, dif_neg outside]
          exact .failed _

end Beside

end World

/-! ## Part 6 — actions in both worlds -/

namespace Disk

open World (Twin Beside StillBeside)

variable {paths : List Path} {Related : World → World → Prop}

/-- **Two runs of an action** that come to the same and leave related worlds. -/
structure Agree (Related : World → World → Prop) (first second : Except IoFault PUnit × World) :
    Prop where
  outcome : second.1 = first.1
  worlds : Related first.2 second.2

/-- A fault in both worlds that does not matter if there is a directory. -/
theorem agree_unless {fault : IoFault} (related : Related left right)
    (asks : right.isDirectory path = left.isDirectory path) :
    Agree Related (if left.isDirectory path then (.ok ⟨⟩, left) else (.error fault, left))
      (if right.isDirectory path then (.ok ⟨⟩, right) else (.error fault, right)) := by
  rw [asks]
  split
  · exact ⟨rfl, related⟩
  · exact ⟨rfl, related⟩

theorem agree_ensureDirectory (related : Related left right)
    (asks : right.isDirectory path = left.isDirectory path)
    (makes : Twin Related (left.makeDirectory path) (right.makeDirectory path)) :
    Agree Related ((ensureDirectory path).run.run left) ((ensureDirectory path).run.run right) := by
  rw [run_ensureDirectory, run_ensureDirectory]
  rcases makes.ended with ⟨fault, first, second⟩ | ⟨after, after', first, second, later⟩
  · rw [first, second]
    exact agree_unless related asks
  · rw [first, second]
    exact ⟨rfl, later⟩

/-- Two actions in a row agree if the second one does after the first. -/
theorem Agree.bind {action next : Disk PUnit}
    (first : Agree Related (action.run.run left) (action.run.run right))
    (second : ∀ left right, Related left right →
      Agree Related (next.run.run left) (next.run.run right)) :
    Agree Related ((action >>= fun _ => next).run.run left)
      ((action >>= fun _ => next).run.run right) := by
  rw [run_bind, run_bind]
  rcases ran : action.run.run left with ⟨outcome, middle⟩
  rcases ran' : action.run.run right with ⟨outcome', middle'⟩
  obtain ⟨same, related⟩ := first
  rw [ran, ran'] at same related
  cases same
  cases outcome with
  | error fault => exact ⟨rfl, related⟩
  | ok value => exact second middle middle' related

/-- **Directories made in both worlds**, one after the other, with what relates the worlds kept. -/
theorem agree_ensureDirectories (related : Related left right)
    (asks : ∀ path ∈ paths, ∀ left right, Related left right →
      right.isDirectory path = left.isDirectory path)
    (makes : ∀ path ∈ paths, ∀ left right, Related left right →
      Twin Related (left.makeDirectory path) (right.makeDirectory path)) :
    Agree Related ((ensureDirectories paths).run.run left)
      ((ensureDirectories paths).run.run right) := by
  induction paths with
  | nil => exact ⟨rfl, related⟩
  | cons path above ih =>
    have earlier := ih (fun other among => asks other (List.mem_cons_of_mem _ among))
      fun other among => makes other (List.mem_cons_of_mem _ among)
    have both := earlier.bind fun left right related => agree_ensureDirectory related
      (asks path List.mem_cons_self left right related)
      (makes path List.mem_cons_self left right related)
    have here := asks path List.mem_cons_self left right related
    rw [run_ensureDirectories_cons, run_ensureDirectories_cons]
    by_cases none : path.components = []
    · rw [if_pos none, if_pos none]
      exact ⟨rfl, related⟩
    · rw [if_neg none, if_neg none]
      rcases (makes path List.mem_cons_self left right related).ended with
        ⟨fault, first, second⟩ | ⟨after, after', first, second, later⟩
      · rw [first, second]
        cases fault with
        | notFound => exact both
        | _ => exact agree_unless related here
      · rw [first, second]
        exact ⟨rfl, later⟩

/-- **A directory and every missing one above it**, in both worlds. -/
theorem agree_makeDirectories (related : Related left right)
    (asks : ∀ other, other.LiesOn path → ∀ left right, Related left right →
      right.isDirectory other = left.isDirectory other)
    (makes : ∀ other, other.LiesOn path → ∀ left right, Related left right →
      Twin Related (left.makeDirectory other) (right.makeDirectory other)) :
    Agree Related ((makeDirectories path).run.run left) ((makeDirectories path).run.run right) := by
  have on : ∀ other ∈ path :: path.parents, other.LiesOn path := by
    intro other among
    rcases List.mem_cons.mp among with rfl | above
    · exact Path.LiesOn.refl other
    · exact Path.liesOn_of_mem_parents above
  exact agree_ensureDirectories related (fun other among => asks other (on other among))
    fun other among => makes other (on other among)

/-- **Directories that avoid a place**, made in worlds that are alike beside it. -/
theorem agree_makeDirectories_beside (beside : Beside place left right)
    (avoids : ∀ other, other.LiesOn path → other.isEmpty = true ∨ left.Avoids place other) :
    Agree (StillBeside place left.cwd) ((makeDirectories path).run.run left)
      ((makeDirectories path).run.run right) := by
  refine agree_makeDirectories ⟨rfl, beside⟩ (fun other _ _ _ still => still.2.isDirectory other)
    fun other on first second still => ?_
  rw [← still.1]
  exact still.2.makeDirectory ((avoids other on).imp_right fun away => away.of_cwd still.1)

end Disk

namespace Zip

open World (Beside StillBeside settle)

variable {root : Path} {member : Member}

/-- **A member that spares a place**: it does not go through it on its way to another, and if it is
no file it does not lead there. -/
def Member.Spares (member : Member) (place : Location) (root : Path) (world : World) : Prop :=
  isSafeName member.name = true → ¬ world.GoesThrough place (member.target root) ∧
    (member.isWritten = false → world.Avoids place (member.target root))

/-- A member that is written to a place. -/
def Member.Fills (member : Member) (place : Location) (root : Path) (world : World) : Prop :=
  member.isWritten = true ∧
    settle (world.start (member.target root)) (member.target root).parts = some place

/-- The steps of a file: its directory, its bytes, and the fault of the member, if any. -/
theorem run_writeMember (path : Path) (member : Member) (world : World) :
    (writeMember path member).run.run world =
      match (makeParent path).run.run world with
      | (.error fault, middle) => (.error fault, middle)
      | (.ok _, middle) =>
        match middle.write path member.data with
        | .error fault => (.error fault, middle)
        | .ok after =>
          (match member.fault with | none => .ok ⟨⟩ | some fault => .error fault, after) := by
  unfold writeMember
  rw [Disk.run_bind]
  rcases (makeParent path).run.run world with ⟨outcome, middle⟩
  cases outcome with
  | error fault => rfl
  | ok value =>
    dsimp only
    rw [Disk.run_bind, Disk.write, Disk.run_change]
    cases middle.write path member.data with
    | error fault => rfl
    | ok after => cases member.fault <;> rfl

/-- What two worlds that are alike beside a place become when a member is unpacked in both. -/
structure Unpack (place cwd : Location) (fills : Prop)
    (first second : Except IoFault PUnit × World) : Prop where
  outcome : second.1 = first.1
  worlds : first.2 = second.2 ∨ StillBeside place cwd first.2 second.2
  filled : first.1 = .ok ⟨⟩ → fills → first.2 = second.2

/-- **A file written in worlds alike beside a place**, with the directories above it. If nothing
goes wrong and it is written to that place, the worlds are one. -/
theorem writeMember_twin (member : Member) (beside : Beside place left right)
    (passes : ¬ left.GoesThrough place path) :
    Unpack place left.cwd (settle (left.start path) path.parts = some place)
      ((writeMember path member).run.run left) ((writeMember path member).run.run right) := by
  have parents : Disk.Agree (StillBeside place left.cwd) ((makeParent path).run.run left)
      ((makeParent path).run.run right) := by
    unfold makeParent
    split
    · exact ⟨rfl, rfl, beside⟩
    · next parent above =>
      exact Disk.agree_makeDirectories_beside beside fun other on =>
        World.avoids_of_parent passes above on
  rw [run_writeMember, run_writeMember]
  rcases made : (makeParent path).run.run left with ⟨outcome, middle⟩
  rcases made' : (makeParent path).run.run right with ⟨outcome', middle'⟩
  rw [made, made'] at parents
  obtain ⟨same, cwd, alike⟩ := parents
  cases same
  cases outcome with
  | error fault => exact ⟨rfl, .inr ⟨cwd, alike⟩, fun succeeded => nomatch succeeded⟩
  | ok value =>
    dsimp only at cwd alike ⊢
    have starts := World.start_of_cwd cwd path
    have through : ¬ middle.GoesThrough place path := by
      rwa [World.GoesThrough, starts]
    rcases (alike.write through member.data).ended with
      ⟨fault, first, second⟩ | ⟨after, after', first, second, later⟩
    · rw [first, second]
      exact ⟨rfl, .inr ⟨cwd, alike⟩, fun succeeded => nomatch succeeded⟩
    · rw [first, second]
      rcases later with one | ⟨elsewhere, still⟩
      · exact ⟨rfl, .inl one, fun _ _ => one⟩
      · refine ⟨rfl, .inr ?_, fun _ fills => ?_⟩
        · rw [← cwd]
          exact still
        · rw [starts] at elsewhere
          exact absurd fills elsewhere

/-- **A member unpacked in worlds alike beside a place** that it spares. -/
theorem placeMember_twin (beside : Beside place left right)
    (spares : member.Spares place root left) :
    Unpack place left.cwd (member.Fills place root left)
      ((placeMember root member).run.run left) ((placeMember root member).run.run right) := by
  rcases placeMember_cases root member with ⟨unwritten, nothing⟩ | ⟨safe, unwritten, directory⟩ |
    ⟨safe, written, file⟩
  · rw [nothing]
    refine ⟨rfl, .inr ⟨rfl, beside⟩, fun _ fills => ?_⟩
    rw [fills.1] at unwritten
    cases unwritten
  · rw [directory]
    have made := Disk.agree_makeDirectories_beside beside fun other on =>
      ((spares safe).2 unwritten).of_liesOn on
    refine ⟨made.outcome, .inr made.worlds, fun _ fills => ?_⟩
    rw [fills.1] at unwritten
    cases unwritten
  · rw [file]
    have twin := writeMember_twin member beside (spares safe).1
    exact ⟨twin.outcome, twin.worlds, fun succeeded fills => twin.filled succeeded fills.2⟩

end Zip

end ShaderForge
