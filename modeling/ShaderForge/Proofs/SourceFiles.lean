/-
**The sources below a root.**

The sources of a place are the files with the name of a config or a shader at any depth below it
(`World.sourceAt?`). Where a root is absolute and its last component ends in no backslash, the text
under which it is scanned is that of the root without slashes at its end (`exists_slashes`), so the
scan begins in the root, and finds everything below it under its names (`mem_found`). Nothing is
lost when the list is put in order, as no two things found have the same names. So the files listed
are exactly the sources (`mem_discoverFiles`).

`World.sourceTree` is the tree that the sources make: the files, and the directories on the way to
them.
-/

import ShaderForge.Proofs.LaidOut

namespace ShaderForge

open Text (pieces)

variable {world : World} {root path : Path} {place way : Location} {names : List EntryName}
  {name : EntryName} {node : Node} {bytes : ByteArray} {text slashes : List Char}

/-! ## Part 1 — the names of sources -/

/-- The ends of the names of sources. -/
theorem isSourceName_iff {name : String} : isSourceName name = true ↔
    ∃ suffix ∈ configSuffix :: shaderSuffixes, suffix.toList <:+ name.toList.map Char.toLower := by
  simp only [isSourceName, isConfigName, isShaderName, Text.endsIgnoringCase, Bool.or_eq_true,
    List.any_eq_true, List.isSuffixOf_iff_suffix, List.mem_cons, exists_eq_or_imp]

/-- The last name ends the path that names make. -/
theorem toList_namedPath_concat (names : List EntryName) (name : EntryName) :
    name.text.toList <:+ (namedPath (names ++ [name])).text.toList := by
  have whole := toList_scannedPath_concat [] names name
  rw [toList_scannedPath [] (by simp), List.nil_append] at whole
  have ends : '/' :: name.text.toList <:+ '/' :: (namedPath (names ++ [name])).text.toList := by
    rw [whole]
    exact List.suffix_append _ _
  rcases List.suffix_cons_iff.mp ends with same | later
  · exact (List.cons.inj same).2 ▸ List.suffix_refl _
  · exact (List.suffix_cons '/' _).trans later

section Names

variable (source : isSourceName name.text = true)

include source

/-- What ends in the name of a source ends in one of the suffixes. -/
theorem exists_suffix (names : List EntryName) :
    ∃ suffix ∈ configSuffix :: shaderSuffixes,
      suffix.toList <:+ (namedPath (names ++ [name])).text.toList.map Char.toLower := by
  obtain ⟨suffix, among, ends⟩ := isSourceName_iff.mp source
  exact ⟨suffix, among, ends.trans ((toList_namedPath_concat names name).map Char.toLower)⟩

/-- **A source is no directory** by its name. -/
theorem isDirectoryName_source (names : List EntryName) :
    Zip.isDirectoryName (namedPath (names ++ [name])).text = false := by
  obtain ⟨suffix, among, ends⟩ := exists_suffix source names
  have last : ∀ c, c.toLower = c → (∀ suffix ∈ configSuffix :: shaderSuffixes,
      suffix.toList.getLast? ≠ some c ∧ suffix.toList ≠ []) →
        (namedPath (names ++ [name])).text.toList.getLast? ≠ some c := by
    intro c lower all same
    obtain ⟨before, whole⟩ := ends
    have final := congrArg List.getLast? whole
    rw [List.getLast?_map, same, Option.map_some, lower,
      List.getLast?_append_of_ne_nil _ (all suffix among).2] at final
    exact (all suffix among).1 final
  rw [Zip.isDirectoryName, beq_eq_false_iff_ne.mpr (last '/' (by decide) (by decide)),
    beq_eq_false_iff_ne.mpr (last '\\' (by decide) (by decide))]
  rfl

/-- **A source is not the log of the service** by its name. -/
theorem isLog_source (names : List EntryName) (bytes : ByteArray) :
    (namedMember (names ++ [name]) bytes).isLog = false := by
  obtain ⟨suffix, among, ends⟩ := exists_suffix source names
  rw [Zip.Member.isLog, Zip.isNamed, beq_eq_false_iff_ne]
  intro same
  have stripped : ∀ cs, Zip.withoutHere cs <:+ cs := by
    intro cs
    fun_induction Zip.withoutHere cs with
    | case1 rest ih => exact ih.trans (List.suffix_append ['.', '/'] rest)
    | case2 cs => exact List.suffix_refl cs
  have log : logName.toList.map Char.toLower <:+
      (namedPath (names ++ [name])).text.toList.map Char.toLower := by
    rw [← same]
    exact (stripped _).map Char.toLower
  have short : ∀ suffix ∈ configSuffix :: shaderSuffixes,
      suffix.toList.length ≤ (logName.toList.map Char.toLower).length ∧
        ¬ suffix.toList <:+ logName.toList.map Char.toLower := by decide
  exact (short suffix among).2 (List.suffix_of_suffix_length_le ends log (short suffix among).1)

end Names

/-- The file name of the path that names make is the last one. -/
theorem fileName?_namedPath (names : List EntryName) (name : EntryName) :
    (namedPath (names ++ [name])).fileName? = some name.text := by
  obtain ⟨proper, here, up, plain, -⟩ := isEntryName_iff.mp name.usable
  have last : ∃ front before through, (namedPath (names ++ [name])).steps =
      front ++ [⟨.name name.text, before, through⟩] := by
    rw [Path.steps]
    by_cases more : names = []
    · subst more
      have relative : name.text.toList.head? ≠ some '/' := fun slash =>
        plain (List.mem_of_head? slash)
      rw [List.nil_append, toList_namedPath, List.map_singleton, Path.stepsOf_eq]
      show ∃ front before through, (if name.text.toList.head? = some '/' then _ else _) ++
        Path.stepsFrom true [] (pieces '/' name.text.toList) = _
      rw [if_neg relative, Text.pieces_of_notMem plain, Path.stepsFrom, Path.component?,
        if_neg proper, if_neg here, if_neg up, String.ofList_toList]
      exact ⟨[], _, _, rfl⟩
    · have whole := toList_scannedPath_concat [] names name
      rw [toList_scannedPath [] (by simp), toList_scannedPath [] more] at whole
      have text : (namedPath (names ++ [name])).text.toList =
          (namedPath names).text.toList ++ '/' :: name.text.toList := (List.cons.inj whole).2
      rw [text, Path.stepsOf_append_slash, Text.pieces_of_notMem plain, Path.stepsFrom_name]
      exact ⟨_, _, _, rfl⟩
  obtain ⟨front, before, through, shape⟩ := last
  rw [Path.fileName?, shape, List.getLast?_concat]

/-! ## Part 2 — roots -/

/-- **The text of a scan is the front of the root**, and ends in no slash and in no backslash. -/
theorem scanText_prefix (root : Path) : scanText root <+: root.text.toList ∧
    ∀ c, (scanText root).getLast? = some c → c ≠ '/' ∧ c ≠ '\\' := by
  have whole : (scanText root).reverse <:+ root.text.toList.reverse := by
    rw [scanText, List.reverse_reverse]
    exact List.dropWhile_suffix _
  refine ⟨List.reverse_suffix.mp whole, fun c ends => ?_⟩
  rw [scanText, List.getLast?_reverse] at ends
  have stops := List.head?_dropWhile_not (fun c => c == '/' || c == '\\') root.text.toList.reverse
  rw [ends] at stops
  simpa using stops

theorem utf8Len_squeezed (text : List Char) :
    String.utf8Len (squeezed text) ≤ String.utf8Len text := by
  fun_induction squeezed text with
  | case1 text ih =>
    rw [String.utf8Len_cons '/' ('/' :: text)]
    exact Nat.le_add_right_of_le ih
  | case2 c text _ ih =>
    rw [String.utf8Len_cons, String.utf8Len_cons]
    exact Nat.add_le_add_right ih _
  | case3 => exact Nat.le_refl _

/-- **What is found is looked up under a path no longer than the joined one.** -/
theorem utf8ByteSize_visitedPath {root : Path} (some_root : root.isEmpty = false)
    (some_names : names ≠ []) : (visitedPath root names).text.utf8ByteSize ≤
      (root.join (namedPath names)).text.utf8ByteSize := by
  obtain ⟨trunk, shape, joined⟩ := Path.exists_trunk some_root
  obtain ⟨front, ends⟩ := scanText_prefix root
  have inside : scanText root <+: trunk := by
    rcases shape with same | same
    · rwa [same] at front
    · rw [same] at front
      rcases List.prefix_concat_iff.mp front with whole | front
      · rw [whole, List.getLast?_concat] at ends
        exact absurd rfl (ends '/' rfl).1
      · exact front
  obtain ⟨more, rfl⟩ := inside
  rw [joined names some_names, visitedPath, ← String.utf8Len_toList, ← String.utf8Len_toList,
    toList_scannedPath _ some_names, toList_scannedPath _ some_names, String.utf8Len_append,
    String.utf8Len_append, String.utf8Len_append]
  exact Nat.add_le_add_right ((utf8Len_squeezed _).trans (Nat.le_add_right _ _)) _

namespace Path

/-- Slashes at the end of a text are no steps. -/
theorem stepsOf_slashes (some_text : text ≠ []) (all : ∀ c ∈ slashes, c = '/') :
    stepsOf (text ++ slashes) = stepsOf text := by
  induction slashes generalizing text with
  | nil => rw [List.append_nil]
  | cons c slashes ih =>
    obtain ⟨rfl, others⟩ := List.forall_mem_cons.mp all
    rw [← List.singleton_append, ← List.append_assoc, ih (by simp) others,
      stepsOf_slash some_text]

theorem solid_slashes (all : ∀ c ∈ slashes, c = '/') : solid slashes = [] := by
  induction slashes with
  | nil => exact solid_nil
  | cons c slashes ih =>
    obtain ⟨rfl, others⟩ := List.forall_mem_cons.mp all
    rw [solid_slash_cons, ih others]

/-- **A path that ends in a backslash**, slashes aside, has a file name that does. -/
theorem fileName?_backslash (absolute : text.head? = some '/') (all : ∀ c ∈ slashes, c = '/') :
    ∃ name, fileName? ⟨String.ofList (text ++ '\\' :: slashes)⟩ = some name ∧
      name.toList.getLast? = some '\\' := by
  -- An absolute text has a last slash, so its last part is what is after that slash.
  have slash : '/' ∈ text.reverse := List.mem_reverse.mpr (List.mem_of_head? absolute)
  obtain ⟨part, before, turned, free⟩ := List.eq_append_cons_of_mem slash
  have shape : text = before.reverse ++ '/' :: part.reverse := by
    rw [← List.reverse_reverse text, turned]
    simp
  have plain : '/' ∉ part.reverse ++ ['\\'] := by
    rw [List.mem_append, List.mem_reverse, List.mem_singleton, not_or]
    exact ⟨free, by decide⟩
  have ends : ∀ other : List Char, other.getLast? ≠ some '\\' →
      part.reverse ++ ['\\'] ≠ other := by
    rintro _ different rfl
    exact different List.getLast?_concat
  refine ⟨String.ofList (part.reverse ++ ['\\']), ?_, ?_⟩
  · have last : stepsOf (text ++ '\\' :: slashes) = stepsOf (before.reverse ++ ['/']) ++
        [⟨.name (String.ofList (part.reverse ++ ['\\'])), before.reverse ++ ['/'],
          before.reverse ++ ['/'] ++ (part.reverse ++ ['\\'])⟩] := by
      rw [← List.singleton_append, ← List.append_assoc, stepsOf_slashes (by simp) all, shape,
        List.append_assoc, List.cons_append, stepsOf_append_slash, Text.pieces_of_notMem plain,
        stepsFrom, component?, if_neg (ends [] (by simp)), if_neg (ends ['.'] (by simp)),
        if_neg (ends ['.', '.'] (by simp))]
      rfl
    rw [fileName?, steps, String.toList_ofList, last, List.getLast?_concat]
  · rw [String.toList_ofList, List.getLast?_concat]

end Path

/-- **A root is scanned under its text without slashes at its end**, if its last component ends in
no backslash. -/
theorem exists_slashes (absolute : root.isAbsolute = true)
    (plain : ∀ name, root.fileName? = some name → name.toList.getLast? ≠ some '\\') :
    ∃ slashes, root.text.toList = scanText root ++ slashes ∧ ∀ c ∈ slashes, c = '/' := by
  have whole : (root.text.toList.reverse.takeWhile fun c => c == '/' || c == '\\') ++
      (scanText root).reverse = root.text.toList.reverse := by
    rw [scanText, List.reverse_reverse]
    exact List.takeWhile_append_dropWhile
  have cut : ∀ c ∈ root.text.toList.reverse.takeWhile fun c => c == '/' || c == '\\',
      c = '/' ∨ c = '\\' := fun c member => by
    simpa using List.mem_takeWhile_imp member
  generalize root.text.toList.reverse.takeWhile (fun c => c == '/' || c == '\\') = tail
    at whole cut
  have shape : root.text.toList = scanText root ++ tail.reverse := by
    rw [← List.reverse_reverse root.text.toList, ← whole]
    simp
  refine ⟨tail.reverse, shape, fun c member => ?_⟩
  refine (cut c (List.mem_reverse.mp member)).resolve_right fun backslash => ?_
  subst backslash
  obtain ⟨after, before, turned, free⟩ := List.eq_append_cons_of_mem (List.mem_reverse.mp member)
  have slashes : ∀ c ∈ after.reverse, c = '/' := by
    intro c inside
    have among := List.mem_reverse.mp inside
    refine (cut c (turned ▸ List.mem_append_left _ among)).resolve_right fun same => ?_
    exact free (same ▸ among)
  have text : root.text.toList =
      (scanText root ++ before.reverse) ++ '\\' :: after.reverse := by
    rw [shape, turned]
    simp
  have begins : (scanText root ++ before.reverse).head? = some '/' := by
    have first := Path.isAbsolute_iff.mp absolute
    rw [text] at first
    by_cases none : scanText root ++ before.reverse = []
    · rw [none] at first
      cases first
    · rwa [Path.head?_append_of_ne_nil none] at first
  obtain ⟨name, named, ends⟩ := Path.fileName?_backslash begins slashes
  rw [← text, String.ofList_toList] at named
  exact plain name named ends

section Root

variable (absolute : root.isAbsolute = true)
  (plain : ∀ name, root.fileName? = some name → name.toList.getLast? ≠ some '\\')

include absolute plain

/-- The components of a root are those of the text under which it is scanned. -/
theorem components_root :
    root.components = (Path.stepsOf (scanText root ++ ['/'])).map Path.Step.component := by
  obtain ⟨slashes, shape, all⟩ := exists_slashes absolute plain
  rw [Path.components, Path.steps, shape]
  by_cases none : scanText root = []
  · rw [none, List.nil_append, List.nil_append]
    rw [none, List.nil_append] at shape
    obtain ⟨rest, begins⟩ := List.head?_eq_some_iff.mp (Path.isAbsolute_iff.mp absolute)
    rw [shape] at begins
    subst begins
    rw [← List.singleton_append, Path.stepsOf_slashes (List.cons_ne_nil _ _)
      fun c member => all c (List.mem_cons_of_mem _ member)]
  · rw [Path.stepsOf_slashes none all, Path.stepsOf_slash none]

variable (there : world.find root = .ok (place, .directory))

include there

/-- **The scan of a root begins in it.** -/
theorem scanStart?_root : scanStart? world root = some place := by
  obtain ⟨slashes, shape, all⟩ := exists_slashes absolute plain
  have walked := World.find_walk there
  have parts : root.parts = Path.solid (scanText root) := by
    rw [Path.parts, shape]
    cases slashes with
    | nil => rw [List.append_nil]
    | cons c slashes =>
      obtain ⟨rfl, others⟩ := List.forall_mem_cons.mp all
      rw [Path.solid_append_slash, Path.solid_slashes others, List.append_nil]
  have start : world.start root = [] := by rw [World.start, absolute, if_pos rfl]
  rw [start, parts] at walked
  unfold scanStart?
  split
  · next none =>
    rw [none, Path.solid_nil] at walked
    exact congrArg some (Except.ok.inj walked)
  · next text proper =>
    have begins : Path.isAbsolute ⟨String.ofList (scanText root)⟩ = true := by
      have first := Path.isAbsolute_iff.mp absolute
      rw [shape, Path.head?_append_of_ne_nil proper] at first
      rwa [Path.isAbsolute_iff, String.toList_ofList]
    have found : world.find ⟨String.ofList (scanText root)⟩ = .ok (place, .directory) := by
      obtain ⟨target, leads⟩ : ∃ target, world.target root = .ok target := by
        rcases World.find_ok there with ⟨-, leads⟩ | ⟨_, _, _, leads, -⟩
        · exact ⟨_, leads⟩
        · exact ⟨_, leads⟩
      have texts : root.text = String.ofList (scanText root) ++ String.ofList slashes := by
        rw [← String.toList_inj, String.toList_append, String.toList_ofList, String.toList_ofList,
          shape]
      refine World.find_of_walk ?_ ?_ ?_ ?_ ?_
      · rw [← Bool.not_eq_true, Path.isEmpty_iff, String.toList_ofList]
        exact proper
      · rw [String.toList_ofList]
        intro inside
        refine World.target_plain leads ?_
        rw [shape]
        exact List.mem_append_left _ inside
      · refine Nat.lt_of_le_of_lt ?_ (World.target_short leads)
        rw [texts, String.utf8ByteSize_append]
        exact Nat.le_add_right _ _
      · rw [World.start, begins]
        rfl
      · rw [World.start, begins, Path.parts, String.toList_ofList]
        exact walked
    rw [World.find?, found]
    rfl

/-- **What is found below a root** is all that lies there, each under its names, as far as the path
of the scan is short enough. -/
theorem mem_found : (path, node) ∈ found world root ↔
    ∃ names ≠ [], path = namedPath names ∧ (visitedPath root names).text.utf8ByteSize < 4096 ∧
      world.node? (names.reverse ++ place) = some node := by
  have scannable : isScannable root = true := by
    rw [isScannable, components_root absolute plain]
    obtain ⟨slashes, shape, all⟩ := exists_slashes absolute plain
    have begins : (scanText root ++ ['/']).head? = some '/' := by
      have first := Path.isAbsolute_iff.mp absolute
      rw [shape] at first
      by_cases none : scanText root = []
      · rw [none]
        rfl
      · rw [Path.head?_append_of_ne_nil none] at first ⊢
        exact first
    rw [Path.stepsOf_eq, if_pos begins]
    rfl
  have same := components_root absolute plain
  rw [mem_found_iff, scanStart?_root absolute plain there]
  constructor
  · rintro ⟨-, _, ⟨⟩, location, listed, leads⟩
    obtain ⟨names, below, short, left⟩ := foundPath?_eq_some.mp leads
    have some_names : names ≠ [] := namesBelow?_ne_nil below
    obtain ⟨-, rfl⟩ := names_of_found below left
    rw [Path.stripped?_scannedPath some_names same] at left
    exact ⟨names, some_names, (Option.some.inj left).symm, short, World.node?_of_mem listed⟩
  · rintro ⟨names, some_names, rfl, short, held⟩
    have listed : (names.reverse ++ place, node) ∈ world.nodes := by
      obtain ⟨first, rest, shape⟩ := List.exists_cons_of_ne_nil
        (List.append_ne_nil_of_left_ne_nil (List.reverse_ne_nil_iff.mpr some_names) place)
      rw [shape] at held ⊢
      exact World.mem_of_node? held
    exact ⟨scannable, place, rfl, _, listed, foundPath?_eq_some.mpr ⟨names,
      namesBelow?_reverse some_names place, short, Path.stripped?_scannedPath some_names same⟩⟩

end Root

/-! ## Part 3 — what is listed -/

namespace Path

theorem Component.eq_of_key {left right : Component} (same : left.key = right.key) :
    left = right := by
  cases left with
  | name text =>
    cases right with
    | name other =>
      have chars := List.map_injective_iff.mpr (fun _ _ => Char.toNat_inj.mp) (List.cons.inj same).2
      rw [String.toList_inj.mp chars]
    | root => exact absurd (List.cons.inj same).1 (by decide)
    | here => exact absurd (List.cons.inj same).1 (by decide)
    | up => exact absurd (List.cons.inj same).1 (by decide)
  | root => cases right with
    | root => rfl
    | _ => exact absurd (List.cons.inj same).1 (by decide)
  | here => cases right with
    | here => rfl
    | _ => exact absurd (List.cons.inj same).1 (by decide)
  | up => cases right with
    | up => rfl
    | _ => exact absurd (List.cons.inj same).1 (by decide)

/-- Paths that count as one have the same names. -/
theorem names_of_same {left right : Path} (alike : left.same right = true) :
    left.names = right.names := by
  have keys : left.components.map Component.key = right.components.map Component.key :=
    beq_iff_eq.mp alike
  rw [names, names,
    List.map_injective_iff.mpr (fun _ _ same => Component.eq_of_key same) keys]

/-- **Nothing is left out of a list of paths with distinct names.** -/
theorem withoutRepeats_of_distinct {paths : List Path}
    (distinct : paths.Pairwise fun left right => left.names ≠ right.names) :
    withoutRepeats paths = paths := by
  fun_induction withoutRepeats paths with
  | case1 first next rest alike ih =>
    exact absurd (names_of_same alike) (List.rel_of_pairwise_cons distinct List.mem_cons_self)
  | case2 first next rest different ih => rw [ih distinct.of_cons]
  | case3 short => rfl

end Path

/-- Whatever is kept of what is found has distinct names. -/
theorem kept_distinct (world : World) (root : Path) (keep : Path × Node → Bool) :
    (((found world root).filter keep).map Prod.fst).Pairwise
      fun left right => left.names ≠ right.names :=
  List.pairwise_map.mpr ((found_distinct world root).filter keep)

/-- Nothing that is found is listed twice. -/
theorem inOrder_distinct (world : World) (root : Path) (keep : Path × Node → Bool) :
    (Path.inOrder (((found world root).filter keep).map Prod.fst)).Pairwise
      fun left right => left.names ≠ right.names :=
  (List.mergeSort_perm _ _).symm.pairwise (kept_distinct world root keep) Ne.symm

/-- What is found is listed as it is sorted. -/
theorem sorted_kept (world : World) (root : Path) (keep : Path × Node → Bool) :
    Path.sorted (((found world root).filter keep).map Prod.fst) =
      Path.inOrder (((found world root).filter keep).map Prod.fst) :=
  Path.withoutRepeats_of_distinct (inOrder_distinct world root keep)

/-- **The files listed** are all files found with a wanted name. -/
theorem mem_filesNamed_iff {wanted : String → Bool} : path ∈ filesNamed wanted world root ↔
    ∃ node, (path, node) ∈ found world root ∧ node.isFile = true ∧
      hasName wanted path = true := by
  refine ⟨mem_filesNamed, ?_⟩
  rintro ⟨node, there, file, named⟩
  rw [filesNamed, sorted_kept, Path.inOrder, (List.mergeSort_perm _ _).mem_iff]
  refine List.mem_map.mpr ⟨_, List.mem_filter.mpr ⟨there, ?_⟩, rfl⟩
  rw [Bool.and_eq_true]
  exact ⟨file, named⟩

/-- Files that are found in order are listed as they are found. -/
theorem filesNamed_of_ordered {wanted : String → Bool} {paths : List Path}
    (all : ((found world root).filter fun (path, node) =>
      node.isFile && hasName wanted path).map Prod.fst = paths)
    (ordered : paths.Pairwise fun left right => left.notAfter right = true) :
    filesNamed wanted world root = paths := by
  have distinct : paths.Pairwise fun left right => left.names ≠ right.names :=
    all ▸ kept_distinct world root _
  rw [filesNamed, all, Path.sorted, Path.inOrder, List.mergeSort_of_pairwise ordered,
    Path.withoutRepeats_of_distinct distinct]

/-! ## Part 4 — sources -/

namespace World

/-- **The source at a location**: the bytes of a file with the name of a config or a shader. -/
def sourceAt? (world : World) : Location → Option ByteArray
  | [] => none
  | name :: parent => if isSourceName name.text then world.fileAt? (name :: parent) else none

/-- Whether a source is at a location or below it. -/
def leadsToSource (world : World) (location : Location) : Bool :=
  world.nodes.any fun entry => location.isSuffixOf entry.1 && (world.sourceAt? entry.1).isSome

/-- **The tree of the sources below a place**: the sources, and the directories on the way. -/
def sourceTree (world : World) (place way : Location) : Option Node :=
  match world.sourceAt? (way ++ place) with
  | some bytes => some (.file bytes)
  | none => if world.leadsToSource (way ++ place) then some .directory else none

theorem sourceAt?_eq_some : world.sourceAt? place = some bytes ↔
    ∃ name parent, place = name :: parent ∧ isSourceName name.text = true ∧
      world.node? (name :: parent) = some (.file bytes) := by
  cases place with
  | nil => exact iff_of_false (fun none => nomatch none) fun ⟨_, _, shape, _⟩ => nomatch shape
  | cons name parent =>
    rw [sourceAt?, fileAt?]
    constructor
    · intro found
      split at found
      · next source =>
        refine ⟨name, parent, rfl, source, ?_⟩
        split at found
        · next held => rw [held, Option.some.inj found]
        · cases found
      · cases found
    · rintro ⟨_, _, ⟨⟩, source, held⟩
      rw [if_pos source, held]

/-- The last of the names of a source is that of a config or a shader. -/
theorem sourceAt?_names (some_names : names ≠ [])
    (found : world.sourceAt? (names.reverse ++ place) = some bytes) :
    ∃ init last, names = init ++ [last] ∧ isSourceName last.text = true := by
  obtain ⟨name, parent, shape, source, -⟩ := sourceAt?_eq_some.mp found
  obtain ⟨init, last, rfl⟩ := (List.eq_nil_or_concat names).resolve_left some_names
  rw [List.concat_eq_append, List.reverse_concat] at shape
  exact ⟨init, last, List.concat_eq_append, (List.cons.inj shape).1 ▸ source⟩

theorem leadsToSource_iff : world.leadsToSource place = true ↔
    ∃ below bytes, world.sourceAt? (below ++ place) = some bytes := by
  rw [leadsToSource, List.any_eq_true]
  constructor
  · rintro ⟨entry, -, fits⟩
    obtain ⟨on, source⟩ := Bool.and_eq_true _ _ |>.mp fits
    obtain ⟨below, shape⟩ := List.isSuffixOf_iff_suffix.mp on
    obtain ⟨bytes, found⟩ := Option.isSome_iff_exists.mp source
    exact ⟨below, bytes, shape ▸ found⟩
  · rintro ⟨below, bytes, found⟩
    obtain ⟨name, parent, shape, -, held⟩ := sourceAt?_eq_some.mp found
    refine ⟨_, mem_of_node? held, ?_⟩
    rw [← shape, found, Bool.and_eq_true, List.isSuffixOf_iff_suffix]
    exact ⟨List.suffix_append _ _, rfl⟩

theorem sourceTree_eq_file :
    world.sourceTree place way = some (.file bytes) ↔
      world.sourceAt? (way ++ place) = some bytes := by
  rw [sourceTree]
  cases world.sourceAt? (way ++ place) with
  | none =>
    refine iff_of_false (fun same => ?_) (fun none => nomatch none)
    dsimp only at same
    split at same
    · cases same
    · cases same
  | some held =>
    show some (Node.file held) = _ ↔ _
    rw [Option.some_inj, Option.some_inj, Node.file.injEq]

/-- Whatever the tree holds leads to a source. -/
theorem leadsToSource_of_sourceTree (held : (world.sourceTree place way).isSome) :
    world.leadsToSource (way ++ place) = true := by
  rw [sourceTree] at held
  split at held
  · next bytes found => exact leadsToSource_iff.mpr ⟨[], bytes, found⟩
  · split at held
    · next leads => exact leads
    · cases held

/-- **What is above a source is a directory of the tree.** -/
theorem sourceTree_above {below : Location} (some_below : below ≠ [])
    (found : world.sourceAt? (below ++ (way ++ place)) = some bytes) :
    world.sourceTree place way = some .directory := by
  obtain ⟨name, parent, shape, -, held⟩ := sourceAt?_eq_some.mp found
  have directory : world.IsDirectoryAt (way ++ place) :=
    directory_of_below some_below (by rw [shape, held]; rfl)
  have none : world.sourceAt? (way ++ place) = none := by
    rw [Option.eq_none_iff_forall_ne_some]
    intro other source
    obtain ⟨_, _, same, -, file⟩ := sourceAt?_eq_some.mp source
    rw [same, IsDirectoryAt, file] at directory
    cases directory
  rw [sourceTree, none]
  exact if_pos (leadsToSource_iff.mpr ⟨below, bytes, found⟩)

/-- **The tree of the sources can be laid out.** -/
theorem layered_sourceTree (world : World) (place : Location) :
    Layered (world.sourceTree place) := by
  intro name way held
  obtain ⟨below, bytes, found⟩ := leadsToSource_iff.mp (leadsToSource_of_sourceTree held)
  have lower : world.sourceAt? ((below ++ [name]) ++ (way ++ place)) = some bytes := by
    rw [List.append_assoc]
    exact found
  exact sourceTree_above (by simp) lower

/-- A directory of the tree is one on the way to a source. -/
theorem sourceTree_leads (held : world.sourceTree place way = some .directory) :
    ∃ below bytes, below ≠ [] ∧ world.sourceTree place (below ++ way) = some (.file bytes) := by
  obtain ⟨below, bytes, found⟩ :=
    leadsToSource_iff.mp (leadsToSource_of_sourceTree (by rw [held]; rfl))
  refine ⟨below, bytes, ?_, sourceTree_eq_file.mpr (by rwa [List.append_assoc])⟩
  rintro rfl
  rw [List.nil_append, ← sourceTree_eq_file, held] at found
  cases found

end World

section Root

variable (absolute : root.isAbsolute = true)
  (plain : ∀ name, root.fileName? = some name → name.toList.getLast? ≠ some '\\')
  (there : world.find root = .ok (place, .directory))

include absolute plain there

/-- **The files listed below a root are exactly the sources there**, each under its names, as far as
the path of the scan is short enough. -/
theorem mem_discoverFiles : path ∈ discoverFiles world root ↔
    ∃ names bytes, names ≠ [] ∧ path = namedPath names ∧
      (visitedPath root names).text.utf8ByteSize < 4096 ∧
      world.sourceAt? (names.reverse ++ place) = some bytes := by
  have named : ∀ names name, hasName isSourceName (namedPath (names ++ [name])) =
      isSourceName name.text := by
    intro names name
    rw [hasName, fileName?_namedPath]
  rw [discoverFiles, mem_filesNamed_iff]
  constructor
  · rintro ⟨node, inside, file, fits⟩
    obtain ⟨names, some_names, rfl, short, held⟩ := (mem_found absolute plain there).mp inside
    cases node with
    | directory => cases file
    | file bytes =>
      refine ⟨names, bytes, some_names, rfl, short, ?_⟩
      obtain ⟨init, last, rfl⟩ := (List.eq_nil_or_concat names).resolve_left some_names
      rw [List.concat_eq_append] at fits held ⊢
      rw [named] at fits
      rw [List.reverse_concat] at held ⊢
      exact World.sourceAt?_eq_some.mpr ⟨last, _, rfl, fits, held⟩
  · rintro ⟨names, bytes, some_names, rfl, short, found⟩
    obtain ⟨name, parent, shape, -, held⟩ := World.sourceAt?_eq_some.mp found
    rw [← shape] at held
    refine ⟨.file bytes,
      (mem_found absolute plain there).mpr ⟨names, some_names, rfl, short, held⟩, rfl, ?_⟩
    obtain ⟨init, last, rfl, fits⟩ := World.sourceAt?_names some_names found
    rw [named, fits]

/-- The sources below a root as a list, in the order in which they are listed. -/
theorem exists_sources : ∃ files : List (List EntryName × ByteArray),
    discoverFiles world root = files.map (fun file => namedPath file.1) ∧
      (∀ file ∈ files, file.1 ≠ [] ∧
        world.sourceAt? (file.1.reverse ++ place) = some file.2) ∧
      ∀ names bytes, names ≠ [] → (visitedPath root names).text.utf8ByteSize < 4096 →
        world.sourceAt? (names.reverse ++ place) = some bytes → (names, bytes) ∈ files := by
  have chosen : ∀ paths : List Path, (∀ path ∈ paths, ∃ names bytes, names ≠ [] ∧
      path = namedPath names ∧ world.sourceAt? (names.reverse ++ place) = some bytes) →
        ∃ files : List (List EntryName × ByteArray),
          paths = files.map (fun file => namedPath file.1) ∧
            ∀ file ∈ files, file.1 ≠ [] ∧
              world.sourceAt? (file.1.reverse ++ place) = some file.2 := by
    intro paths all
    induction paths with
    | nil => exact ⟨[], rfl, fun _ member => absurd member List.not_mem_nil⟩
    | cons path paths ih =>
      obtain ⟨first, others⟩ := List.forall_mem_cons.mp all
      obtain ⟨names, bytes, some_names, rfl, found⟩ := first
      obtain ⟨files, rfl, rest⟩ := ih others
      exact ⟨(names, bytes) :: files, rfl, List.forall_mem_cons.mpr ⟨⟨some_names, found⟩, rest⟩⟩
  obtain ⟨files, listed, sound⟩ := chosen (discoverFiles world root) fun path member => by
    obtain ⟨names, bytes, some_names, same, -, found⟩ :=
      (mem_discoverFiles absolute plain there).mp member
    exact ⟨names, bytes, some_names, same, found⟩
  refine ⟨files, listed, sound, fun names bytes some_names short found => ?_⟩
  have among : namedPath names ∈ discoverFiles world root :=
    (mem_discoverFiles absolute plain there).mpr ⟨names, bytes, some_names, rfl, short, found⟩
  rw [listed] at among
  obtain ⟨⟨other, held⟩, inside, same⟩ := List.mem_map.mp among
  obtain rfl := namedPath_inj same
  have source := (sound _ inside).2
  dsimp only at source
  rw [found] at source
  rw [Option.some.inj source]
  exact inside

end Root

end ShaderForge
