/-
**Paths that go on with names.**

What lies below a directory has a path made of the text of the directory and of names with slashes
before them (`scannedPath`). On such a path the names are the last steps, whatever the text in front
is: its parent is the path without the last name (`parents_scannedPath`), and what is left of it
below the directory are the names alone (`stripped?_scannedPath`).

Joining a directory with the names alone gives such a path too (`exists_trunk`), so that what is
found, read and unpacked all go by the same paths.
-/

import ShaderForge.Proofs.Discovered

namespace ShaderForge

open Text (pieces joinPieces)

variable {path root : Path} {text walked : List Char} {leading : Bool} {name : EntryName}
  {names : List EntryName}

/-- **The relative path that names make.** -/
def namedPath (names : List EntryName) : Path := ⟨"/".intercalate (names.map EntryName.text)⟩

/-! ## Part 1 — texts -/

theorem toList_namedPath (names : List EntryName) :
    (namedPath names).text.toList = joinPieces '/' (names.map fun name => name.text.toList) := by
  rw [namedPath, toList_filed, List.map_map]
  rfl

/-- Names with a slash before each are a slash and the names with slashes between them. -/
theorem flatMap_slash (some_names : names ≠ []) :
    (names.flatMap fun name => '/' :: name.text.toList) =
      '/' :: (namedPath names).text.toList := by
  rw [toList_namedPath]
  induction names with
  | nil => exact absurd rfl some_names
  | cons first names ih =>
    cases names with
    | nil => exact List.append_nil _
    | cons next names =>
      rw [List.flatMap_cons, ih (List.cons_ne_nil _ _)]
      rfl

theorem toList_scannedPath (text : List Char) (some_names : names ≠ []) :
    (scannedPath text names).text.toList = text ++ '/' :: (namedPath names).text.toList := by
  rw [scannedPath, String.toList_ofList, flatMap_slash some_names]

/-- One more name. -/
theorem toList_scannedPath_concat (text : List Char) (names : List EntryName) (name : EntryName) :
    (scannedPath text (names ++ [name])).text.toList =
      (scannedPath text names).text.toList ++ '/' :: name.text.toList := by
  rw [scannedPath, scannedPath, String.toList_ofList, String.toList_ofList, List.flatMap_append,
    List.flatMap_singleton, ← List.append_assoc]

/-- One more name makes a path longer. -/
theorem utf8ByteSize_scannedPath_concat (text : List Char) (names : List EntryName)
    (name : EntryName) : (scannedPath text names).text.utf8ByteSize ≤
      (scannedPath text (names ++ [name])).text.utf8ByteSize := by
  have texts : (scannedPath text (names ++ [name])).text =
      (scannedPath text names).text ++ String.ofList ('/' :: name.text.toList) := by
    rw [← String.toList_inj, String.toList_append, String.toList_ofList, toList_scannedPath_concat]
  rw [texts, String.utf8ByteSize_append]
  exact Nat.le_add_right _ _

theorem slash_notMem (names : List EntryName) :
    ∀ part ∈ names.map (fun name => name.text.toList), '/' ∉ part ∧ part ≠ [] := by
  intro part member
  obtain ⟨name, -, rfl⟩ := List.mem_map.mp member
  obtain ⟨proper, -, -, plain, -⟩ := isEntryName_iff.mp name.usable
  exact ⟨plain, proper⟩

/-- **The parts of the path that names make** are the names. -/
theorem parts_namedPath (names : List EntryName) :
    (namedPath names).parts = names.map fun name => name.text.toList := by
  have whole := slash_notMem names
  rw [Path.parts, toList_namedPath, Path.solid]
  rcases List.eq_nil_or_concat names with rfl | ⟨init, last, shape⟩
  · rfl
  · have some_names : names.map (fun name => name.text.toList) ≠ [] := by
      rw [shape]
      simp
    rw [Text.pieces_joinPieces some_names fun part member => (whole part member).1]
    exact List.filter_eq_self.mpr fun part member => by simpa using (whole part member).2

/-- The path that names make tells the names. -/
theorem namedPath_inj {left right : List EntryName} (same : namedPath left = namedPath right) :
    left = right := by
  have parts := congrArg Path.parts same
  rw [parts_namedPath, parts_namedPath] at parts
  refine (List.map_inj_right fun first second alike => ?_).mp parts
  exact EntryName.text_inj (String.toList_inj.mp alike)

theorem parts_scannedPath (text : List Char) (names : List EntryName) :
    (scannedPath text names).parts =
      Path.solid text ++ names.map fun name => name.text.toList := by
  by_cases none : names = []
  · rw [none, Path.parts, scannedPath, String.toList_ofList, List.flatMap_nil, List.append_nil]
    simp
  · rw [Path.parts, toList_scannedPath text none, Path.solid_append_slash, ← parts_namedPath]
    rfl

/-- The path that names make is relative. -/
theorem isAbsolute_namedPath (some_names : names ≠ []) :
    (namedPath names).isAbsolute = false := by
  obtain ⟨first, more, rfl⟩ := List.exists_cons_of_ne_nil some_names
  obtain ⟨proper, -, -, plain, -⟩ := isEntryName_iff.mp first.usable
  obtain ⟨c, rest, shape⟩ := List.exists_cons_of_ne_nil proper
  have begins : (namedPath (first :: more)).text.toList.head? = some c := by
    rw [toList_namedPath, List.map_cons]
    cases more with
    | nil => rw [List.map_nil, joinPieces, shape]; rfl
    | cons next more => rw [List.map_cons, joinPieces, shape]; rfl
  rw [← Bool.not_eq_true, Path.isAbsolute_iff, begins]
  rintro ⟨⟩
  exact plain (by rw [shape]; exact List.mem_cons_self)

/-- A file that is found under names is filed under them. -/
theorem filedName_namedPath (names : List EntryName) :
    filedName (namedPath names) = (namedPath names).text := by
  have read : (namedPath names).names = names.map EntryName.text := by
    rw [Path.names_eq, Path.namesIn]
    show (namedPath names).parts.filterMap Path.nameOf? = _
    have each : (Path.nameOf? ∘ fun name : EntryName => name.text.toList) =
        some ∘ EntryName.text := by
      funext name
      obtain ⟨-, here, up, -⟩ := isEntryName_iff.mp name.usable
      show Path.nameOf? name.text.toList = some name.text
      rw [Path.nameOf?, if_neg (not_or.mpr ⟨here, up⟩), String.ofList_toList]
    rw [parts_namedPath, List.filterMap_map, each, List.filterMap_eq_map]
  rw [filedName, read]
  rfl

/-- A path that goes on with names begins like the text in front with a slash after it. -/
theorem isAbsolute_scannedPath (text : List Char) (some_names : names ≠ []) :
    (scannedPath text names).isAbsolute = Path.isAbsolute ⟨String.ofList (text ++ ['/'])⟩ := by
  rw [Path.isAbsolute, Path.isAbsolute, toList_scannedPath text some_names, String.toList_ofList]
  cases text with
  | nil => rfl
  | cons c text => rfl

/-- Names bring no NUL into a path. -/
theorem nul_notMem_scannedPath (names : List EntryName) (plain : Char.ofNat 0 ∉ text) :
    Char.ofNat 0 ∉ (scannedPath text names).text.toList := by
  rw [scannedPath, String.toList_ofList, List.mem_append, not_or]
  refine ⟨plain, fun inside => ?_⟩
  obtain ⟨name, -, member⟩ := List.mem_flatMap.mp inside
  obtain ⟨-, -, -, -, free, -⟩ := isEntryName_iff.mp name.usable
  rcases List.mem_cons.mp member with slash | own
  · exact absurd slash (by decide)
  · exact free own

/-- A path that ends in a name ends in no slash. -/
theorem getLast?_scannedPath (text : List Char) (names : List EntryName) (name : EntryName) :
    (scannedPath text (names ++ [name])).text.toList.getLast? ≠ some '/' := by
  obtain ⟨proper, -, -, plain, -⟩ := isEntryName_iff.mp name.usable
  obtain ⟨init, last, shape⟩ := (List.eq_nil_or_concat name.text.toList).resolve_left proper
  rw [List.concat_eq_append] at shape
  rw [toList_scannedPath_concat, shape, ← List.cons_append, ← List.append_assoc,
    List.getLast?_concat]
  rintro ⟨⟩
  exact plain (by rw [shape]; exact List.mem_append_right _ List.mem_cons_self)

/-! ## Part 2 — steps -/

namespace Path

/-- **The steps of a text**: the root, if it begins there, and those of its pieces. -/
theorem stepsOf_eq (text : List Char) :
    stepsOf text = (if text.head? = some '/' then [⟨.root, [], ['/']⟩] else []) ++
      stepsFrom true [] (pieces '/' text) := by
  unfold stepsOf
  split
  · next rest =>
    rw [List.head?_cons, if_pos rfl, pieces, if_pos rfl]
    rfl
  · next relative =>
    rw [if_neg, List.nil_append]
    intro slash
    obtain ⟨rest, shape⟩ := List.head?_eq_some_iff.mp slash
    exact relative rest shape

/-- The steps of pieces in two stretches. -/
theorem stepsFrom_append {first : List (List Char)} (some_first : first ≠ [])
    (second : List (List Char)) :
    stepsFrom leading walked (first ++ second) =
      stepsFrom leading walked first ++
        stepsFrom false (walked ++ joinPieces '/' first ++ ['/']) second := by
  induction first generalizing leading walked with
  | nil => exact absurd rfl some_first
  | cons part first ih =>
    have onward : stepsFrom false (walked ++ part ++ ['/']) (first ++ second) =
        stepsFrom false (walked ++ part ++ ['/']) first ++
          stepsFrom false (walked ++ joinPieces '/' (part :: first) ++ ['/']) second := by
      cases first with
      | nil => rfl
      | cons next first =>
        rw [ih (List.cons_ne_nil _ _), joinPieces]
        simp only [List.append_assoc, List.nil_append, List.cons_append]
    rw [List.cons_append, stepsFrom, stepsFrom, onward]
    cases component? leading part with
    | none => rfl
    | some component => rfl

/-- **The steps of a text with a slash in it** are those on both sides. -/
theorem stepsOf_append_slash (before after : List Char) :
    stepsOf (before ++ '/' :: after) =
      stepsOf (before ++ ['/']) ++ stepsFrom false (before ++ ['/']) (pieces '/' after) := by
  have begins : (before ++ '/' :: after).head? = (before ++ ['/']).head? := by
    cases before with
    | nil => rfl
    | cons c before => rfl
  rw [stepsOf_eq, stepsOf_eq, begins, Text.pieces_append_cons, Text.pieces_append_cons,
    stepsFrom_append (Text.pieces_ne_nil _ _), stepsFrom_append (Text.pieces_ne_nil _ _),
    Text.join_pieces, List.nil_append, List.append_assoc, List.append_assoc]
  rfl

/-- A slash at the end of a text is no step. -/
theorem stepsOf_slash (some_text : text ≠ []) : stepsOf (text ++ ['/']) = stepsOf text := by
  rw [stepsOf_eq, stepsOf_eq, Text.pieces_append_cons, stepsFrom_append (Text.pieces_ne_nil _ _),
    head?_append_of_ne_nil some_text]
  show _ ++ (_ ++ []) = _
  rw [List.append_nil]

/-- A name is one step. -/
theorem stepsFrom_name (walked : List Char) (name : EntryName) (rest : List (List Char)) :
    stepsFrom false walked (name.text.toList :: rest) =
      ⟨.name name.text, walked, walked ++ name.text.toList⟩ ::
        stepsFrom false (walked ++ name.text.toList ++ ['/']) rest := by
  obtain ⟨proper, here, up, -⟩ := isEntryName_iff.mp name.usable
  rw [stepsFrom, component?, if_neg proper, if_neg here, if_neg up, String.ofList_toList]

/-- **The last step of a path that ends in a name.** -/
theorem steps_scannedPath_concat (text : List Char) (names : List EntryName) (name : EntryName) :
    (scannedPath text (names ++ [name])).steps =
      stepsOf ((scannedPath text names).text.toList ++ ['/']) ++
        [⟨.name name.text, (scannedPath text names).text.toList ++ ['/'],
          (scannedPath text (names ++ [name])).text.toList⟩] := by
  obtain ⟨-, -, -, plain, -⟩ := isEntryName_iff.mp name.usable
  rw [steps, toList_scannedPath_concat, stepsOf_append_slash, Text.pieces_of_notMem plain,
    stepsFrom_name, List.append_assoc]
  rfl

/-! ## Part 3 — parents -/

/-- The steps of the parent of a path are all but the last. -/
theorem ancestry?_of_steps {front : List Step} {last : Step}
    (shape : path.steps = front ++ [last]) (proper : last.component ≠ .root) :
    path.ancestry? = some front.reverse := by
  unfold ancestry?
  rw [shape, List.reverse_concat]
  exact if_neg proper

/-- The first steps of pieces are those of the first pieces. -/
theorem stepsFrom_upto {parts : List (List Char)} {front back : List Step} {step : Step}
    (shape : stepsFrom leading walked parts = front ++ step :: back) :
    ∃ done, done ≠ [] ∧ done <+: parts ∧ step.through = walked ++ joinPieces '/' done ∧
      stepsFrom leading walked done = front ++ [step] := by
  induction parts generalizing leading walked front with
  | nil => exact absurd shape.symm (by rw [stepsFrom]; simp)
  | cons part parts ih =>
    have onward : ∀ {front : List Step},
        stepsFrom false (walked ++ part ++ ['/']) parts = front ++ step :: back →
          ∃ done, done <+: parts ∧ step.through = walked ++ joinPieces '/' (part :: done) ∧
            stepsFrom false (walked ++ part ++ ['/']) done = front ++ [step] := by
      intro front shape
      obtain ⟨done, some_done, first, reaches, reads⟩ := ih shape
      obtain ⟨next, done, rfl⟩ := List.exists_cons_of_ne_nil some_done
      exact ⟨next :: done, first, by simp [reaches, joinPieces], reads⟩
    rw [stepsFrom] at shape
    cases read : component? leading part with
    | none =>
      rw [read] at shape
      obtain ⟨done, first, reaches, reads⟩ := onward shape
      refine ⟨part :: done, List.cons_ne_nil _ _, List.cons_prefix_cons.mpr ⟨rfl, first⟩, reaches,
        ?_⟩
      rw [stepsFrom, read]
      exact reads
    | some component =>
      rw [read] at shape
      cases front with
      | nil =>
        obtain ⟨rfl, -⟩ := List.cons.inj shape
        refine ⟨[part], List.cons_ne_nil _ _, List.cons_prefix_cons.mpr ⟨rfl, List.nil_prefix⟩,
          rfl, ?_⟩
        rw [stepsFrom, read]
        rfl
      | cons head front =>
        obtain ⟨rfl, later⟩ := List.cons.inj shape
        obtain ⟨done, first, reaches, reads⟩ := onward later
        refine ⟨part :: done, List.cons_ne_nil _ _, List.cons_prefix_cons.mpr ⟨rfl, first⟩,
          reaches, ?_⟩
        rw [stepsFrom, read]
        exact congrArg (_ :: ·) reads

/-- A step of a path goes through the front of its text. -/
theorem through_prefix {step : Step} (member : step ∈ path.steps) :
    step.through <+: path.text.toList := by
  rw [steps, stepsOf_eq] at member
  rcases List.mem_append.mp member with root | later
  · split at root
    · next slash =>
      obtain ⟨rest, shape⟩ := List.head?_eq_some_iff.mp slash
      rw [List.mem_singleton.mp root, shape]
      exact ⟨rest, rfl⟩
    · exact absurd root List.not_mem_nil
  · obtain ⟨-, on, -⟩ := stepsFrom_through
      (fun part there => Text.notMem_of_mem_pieces there) (.inl rfl) later
    rwa [List.nil_append, Text.join_pieces] at on

/-- **The text through a step is a path with the steps up to it.** -/
theorem steps_through {front back : List Step} {step : Step}
    (shape : path.steps = front ++ step :: back) :
    steps ⟨String.ofList step.through⟩ = front ++ [step] := by
  have among : step ∈ path.steps := shape ▸ List.mem_append_right _ List.mem_cons_self
  obtain ⟨after, whole⟩ := through_prefix among
  rw [steps, String.toList_ofList, stepsOf_eq]
  rw [steps, stepsOf_eq] at shape
  have reaches : ∀ {front : List Step},
      stepsFrom true [] (pieces '/' path.text.toList) = front ++ step :: back →
        stepsFrom true [] (pieces '/' step.through) = front ++ [step] ∧
          step.through.head? = path.text.toList.head? := by
    intro front inside
    have here : step ∈ stepsFrom true [] (pieces '/' path.text.toList) :=
      inside ▸ List.mem_append_right _ List.mem_cons_self
    obtain ⟨proper, -, -⟩ := stepsFrom_through
      (fun part there => Text.notMem_of_mem_pieces there) (.inl rfl) here
    obtain ⟨done, some_done, first, reached, reads⟩ := stepsFrom_upto inside
    constructor
    · rw [reached, List.nil_append, Text.pieces_joinPieces some_done fun part there =>
        Text.notMem_of_mem_pieces (first.subset there), reads]
    · rw [← whole, head?_append_of_ne_nil proper]
  by_cases slash : path.text.toList.head? = some '/'
  · rw [if_pos slash] at shape
    cases front with
    | nil =>
      obtain ⟨rfl, -⟩ := List.cons.inj shape
      rfl
    | cons root front =>
      obtain ⟨rfl, later⟩ := List.cons.inj shape
      obtain ⟨reads, begins⟩ := reaches later
      rw [reads, begins, if_pos slash]
      rfl
  · rw [if_neg slash] at shape
    obtain ⟨reads, begins⟩ := reaches shape
    rw [reads, begins, if_neg slash, List.nil_append]

/-- **The parents of a path** are its parent and the parents of that. -/
theorem parents_eq (path : Path) : path.parents =
    match path.parent? with
    | none => []
    | some parent => parent :: parent.parents := by
  unfold parents parent?
  cases above : path.ancestry? with
  | none => rfl
  | some rest =>
    cases rest with
    | nil => rfl
    | cons last rest =>
      have whole : ∃ dropped, path.steps = rest.reverse ++ last :: [dropped] := by
        unfold ancestry? at above
        split at above
        · cases above
        · next dropped others turned =>
          split at above
          · cases above
          · cases above
            refine ⟨dropped, ?_⟩
            rw [← List.reverse_reverse path.steps, turned]
            simp
      obtain ⟨dropped, shape⟩ := whole
      have own := steps_through shape
      show reachedAll (last :: rest) =
        ⟨String.ofList last.through⟩ :: parents ⟨String.ofList last.through⟩
      by_cases root : last.component = .root
      · have none : ancestry? ⟨String.ofList last.through⟩ = none := by
          rw [ ancestry?, own, List.reverse_concat]
          exact if_pos root
        rw [parents, none]
        exact if_pos root
      · rw [parents, ancestry?_of_steps own root, List.reverse_reverse]
        exact if_neg root

/-- **The parents of a path that ends in two names**: the path without the last one, and the parents
of that. -/
theorem parents_scannedPath (text : List Char) (some_names : names ≠ []) (name : EntryName) :
    (scannedPath text (names ++ [name])).parent? = some (scannedPath text names) ∧
      (scannedPath text (names ++ [name])).parents =
        scannedPath text names :: (scannedPath text names).parents := by
  have above : (scannedPath text (names ++ [name])).parent? = some (scannedPath text names) := by
    obtain ⟨init, last, rfl⟩ := (List.eq_nil_or_concat names).resolve_left some_names
    rw [List.concat_eq_append]
    have some_text : (scannedPath text (init ++ [last])).text.toList ≠ [] := by
      rw [toList_scannedPath_concat]
      simp
    have whole := ancestry?_of_steps (steps_scannedPath_concat text (init ++ [last]) name)
      (by rintro ⟨⟩)
    rw [stepsOf_slash some_text, ← steps, steps_scannedPath_concat, List.reverse_concat] at whole
    rw [parent?, whole, Option.map_some, reached, String.ofList_toList]
  refine ⟨above, ?_⟩
  rw [parents_eq, above]

/-- **The parent of a path is the front of its text.** -/
theorem parent?_prefix {parent : Path} (above : path.parent? = some parent) :
    parent.text.toList <+: path.text.toList := by
  obtain ⟨rest, found, rfl⟩ := Option.map_eq_some_iff.mp above
  cases rest with
  | nil => exact List.nil_prefix
  | cons last init =>
    rw [reached, String.toList_ofList]
    exact through_prefix (mem_steps_of_ancestry found List.mem_cons_self)

/-! ## Part 4 — what is left below a directory -/

/-- The steps after the first ones are the others. -/
theorem stepsAfter_append (front rest : List Step) :
    stepsAfter (front.map Step.component) (front ++ rest) = some rest := by
  induction front with
  | nil => rfl
  | cons step front ih =>
    rw [List.map_cons, List.cons_append, stepsAfter, if_pos rfl]
    exact ih

/-- The last step of names goes through all of them. -/
theorem getLast?_stepsFrom_names (walked : List Char) (some_names : names ≠ []) :
    ∃ last, (stepsFrom false walked (names.map fun name => name.text.toList)).getLast? =
      some last ∧ last.through = walked ++ (namedPath names).text.toList := by
  rw [toList_namedPath]
  induction names generalizing walked with
  | nil => exact absurd rfl some_names
  | cons first names ih =>
    rw [List.map_cons, stepsFrom_name]
    cases names with
    | nil => exact ⟨_, rfl, rfl⟩
    | cons next names =>
      obtain ⟨last, ends, through⟩ :=
        ih (walked ++ first.text.toList ++ ['/']) (List.cons_ne_nil _ _)
      refine ⟨last, ?_, ?_⟩
      · rw [List.getLast?_cons, ends]
        rfl
      · rw [through, List.map_cons, joinPieces]
        simp only [List.append_assoc, List.singleton_append]

/-- **What is left of a path below the directory that it begins with**: the names after it. -/
theorem stripped?_scannedPath (some_names : names ≠ [])
    (same : root.components = (stepsOf (text ++ ['/'])).map Step.component) :
    (scannedPath text names).stripped? root = some (namedPath names) := by
  have cut : pieces '/' (namedPath names).text.toList =
      names.map fun name => name.text.toList := by
    rw [toList_namedPath]
    refine Text.pieces_joinPieces (by simpa using some_names) fun part member => ?_
    exact (slash_notMem names part member).1
  have shape : (scannedPath text names).steps = stepsOf (text ++ ['/']) ++
      stepsFrom false (text ++ ['/']) (names.map fun name => name.text.toList) := by
    rw [steps, toList_scannedPath text some_names, stepsOf_append_slash, cut]
  rw [stripped?, shape, same, stepsAfter_append, Option.map_some]
  obtain ⟨last, ends, through⟩ := getLast?_stepsFrom_names (text ++ ['/']) some_names
  obtain ⟨first, more, rfl⟩ := List.exists_cons_of_ne_nil some_names
  have begins : (stepsFrom false (text ++ ['/'])
      ((first :: more).map fun name => name.text.toList)).head? =
        some ⟨.name first.text, text ++ ['/'], text ++ ['/'] ++ first.text.toList⟩ := by
    rw [List.map_cons, stepsFrom_name]
    rfl
  rw [covered, begins, ends]
  show some (⟨String.ofList (last.through.drop (text ++ ['/']).length)⟩ : Path) = _
  rw [through, List.drop_left, String.ofList_toList]

/-! ## Part 5 — joined paths -/

/-- **A directory joined with names** is the text of the directory, without a slash at its end, that
goes on with the names. -/
theorem exists_trunk (some_path : path.isEmpty = false) :
    ∃ trunk, (path.text.toList = trunk ∨ path.text.toList = trunk ++ ['/']) ∧
      ∀ names ≠ [], path.join (namedPath names) = scannedPath trunk names := by
  have proper : path.text.toList ≠ [] := fun none => by
    rw [isEmpty_iff.mpr none] at some_path
    cases some_path
  obtain ⟨init, last, shape⟩ := (List.eq_nil_or_concat path.text.toList).resolve_left proper
  rw [List.concat_eq_append] at shape
  have joined : ∀ names ≠ [], ∀ trunk, joinChars path.text.toList (namedPath names).text.toList =
      trunk ++ '/' :: (namedPath names).text.toList →
        path.join (namedPath names) = scannedPath trunk names := by
    intro names some_names trunk same
    rw [join, same, ← toList_scannedPath trunk some_names, String.ofList_toList]
  have relative : ∀ names ≠ [], (namedPath names).text.toList.head? ≠ some '/' := by
    intro names some_names slash
    have absolute := isAbsolute_namedPath some_names
    rw [isAbsolute_iff.mpr slash] at absolute
    cases absolute
  by_cases slash : last = '/'
  · refine ⟨init, .inr (by rw [shape, slash]), fun names some_names => ?_⟩
    refine joined names some_names init ?_
    rw [joinChars, if_neg (relative names some_names), shape, List.getLast?_concat, slash]
    exact List.append_assoc _ _ _
  · refine ⟨path.text.toList, .inl rfl, fun names some_names => ?_⟩
    refine joined names some_names _ ?_
    rw [joinChars, if_neg (relative names some_names)]
    have ends : path.text.toList.getLast? = some last := by rw [shape, List.getLast?_concat]
    split
    · next nothing =>
      rw [ends] at nothing
      cases nothing
    · next same =>
      rw [ends] at same
      exact absurd (Option.some.inj same) slash
    · rfl

/-- **A path that ends in names, with a name below it**, ends in one more name. -/
theorem below_scannedPath (text : List Char) (names : List EntryName) (name entry : EntryName) :
    (scannedPath text (names ++ [name])).below entry.text =
      scannedPath text (names ++ [name] ++ [entry]) := by
  obtain ⟨-, -, -, plain, -⟩ := isEntryName_iff.mp entry.usable
  have relative : entry.text.toList.head? ≠ some '/' := fun slash =>
    plain (List.mem_of_head? slash)
  have shape := toList_scannedPath_concat text (names ++ [name]) entry
  rw [below, join, joinChars, if_neg relative]
  split
  · next nothing =>
    have none := List.getLast?_eq_none_iff.mp nothing
    rw [toList_scannedPath_concat] at none
    exact absurd (List.append_eq_nil_iff.mp none).2 (List.cons_ne_nil _ _)
  · next slash => exact absurd slash (getLast?_scannedPath text names name)
  · rw [← shape, String.ofList_toList]

/-! ## Part 6 — the ends of paths -/

/-- **A path that ends in a part that is a name** has it as its file name. -/
theorem fileName?_of_edge {front part : List Char} (edge : Edge front) (free : '/' ∉ part)
    (proper : part ≠ []) (here : part ≠ ['.']) (up : part ≠ ['.', '.']) :
    fileName? ⟨String.ofList (front ++ part)⟩ = some (String.ofList part) := by
  have last : ∃ before step, stepsOf (front ++ part) = before ++ [step] ∧
      step.component = .name (String.ofList part) := by
    rcases edge with rfl | ⟨before, rfl⟩
    · have relative : part.head? ≠ some '/' := fun slash => free (List.mem_of_head? slash)
      rw [List.nil_append, stepsOf_eq, if_neg relative, Text.pieces_of_notMem free, stepsFrom,
        component?, if_neg proper, if_neg here, if_neg up]
      exact ⟨[], _, rfl, rfl⟩
    · rw [List.append_assoc, List.singleton_append, stepsOf_append_slash,
        Text.pieces_of_notMem free, stepsFrom, component?, if_neg proper, if_neg here, if_neg up]
      exact ⟨_, _, rfl, rfl⟩
  obtain ⟨before, ⟨_, _, _⟩, shape, rfl⟩ := last
  rw [fileName?, steps, String.toList_ofList, shape, List.getLast?_concat]

/-- **What is left of a path that ends in a name** is nothing, or ends in that name too. -/
theorem stripped?_ends {base : Path}
    (left : (scannedPath text (names ++ [name])).stripped? base = some path) :
    path = empty ∨ ∃ front, Edge front ∧ path.text.toList = front ++ name.text.toList := by
  obtain ⟨-, -, -, plain, -⟩ := isEntryName_iff.mp name.usable
  obtain ⟨back, after, rfl⟩ := Option.map_eq_some_iff.mp left
  obtain ⟨front, shape, -⟩ := stepsAfter_eq_some after
  cases back with
  | nil => exact .inl rfl
  | cons first more =>
    refine .inr ?_
    obtain ⟨init, last, ends, -, joined⟩ := before_covered shape
    have edge := (steps_split nameReading shape).edge
    rw [ends, ← List.append_assoc, steps_scannedPath_concat] at shape
    obtain ⟨-, same⟩ := List.append_inj' shape rfl
    obtain rfl := (List.cons.inj same).1
    rw [toList_scannedPath_concat] at joined
    -- The cut is made where a part begins, so it does not go through the name.
    rcases List.append_eq_append_iff.mp joined with ⟨inner, -, rest⟩ | ⟨inner, walked, rest⟩
    · exact ⟨inner ++ ['/'], .inr ⟨inner, rfl⟩, by simp [rest]⟩
    · cases inner with
      | nil => exact ⟨['/'], .inr ⟨[], rfl⟩, rest.symm⟩
      | cons c inner =>
        obtain ⟨rfl, own⟩ := List.cons.inj rest
        refine ⟨[], .inl rfl, ?_⟩
        rcases List.eq_nil_or_concat inner with rfl | ⟨init, final, rfl⟩
        · exact own.symm
        · rw [List.concat_eq_append] at walked own
          rcases edge with none | ⟨before, slash⟩
          · rw [none] at walked
            simp at walked
          · have final_slash := congrArg List.getLast? (slash.symm.trans walked)
            rw [List.getLast?_concat, ← List.cons_append, ← List.append_assoc,
              List.getLast?_concat] at final_slash
            cases final_slash
            exact absurd (by rw [own]; simp) plain

end Path

end ShaderForge
