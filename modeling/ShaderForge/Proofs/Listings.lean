/-
**What discovery lists.**

Paths made of names are ordered as the lists of their names (`precedes_namedPath`), and sorting
keeps all of what is found below a root, as no two things found have the same names. So whatever
kind of thing is asked for, the list of it is in order and holds exactly what there is
(`exists_listing`), and it is determined by that (`InOrder.ext`).

For an absolute root whose last component ends in no backslash this makes discovery exact
(`discovery_exact`), as far as the paths of the scan are short enough to be followed
(`discovery_limits`).
-/

import ShaderForge.Proofs.DirectoryRoundTrip

namespace ShaderForge

variable {world : World} {root path : Path} {place : Location} {names left right : List EntryName}
  {name : EntryName} {node : Node}

/-! ## Part 1 — the order of names -/

section Lex

variable {α β : Type} [LT α] [LT β] {f : α → β} {first second : List α}

/-- Lists are ordered as what they are mapped to, if their items are. -/
theorem map_lt_map_iff (keeps : ∀ a b, f a < f b ↔ a < b) (inj : Function.Injective f) :
    first.map f < second.map f ↔ first < second := by
  induction first generalizing second with
  | nil =>
    cases second with
    | nil => exact iff_of_false (List.not_lt_nil _) (List.not_lt_nil _)
    | cons b second => exact iff_of_true (List.nil_lt_cons _ _) (List.nil_lt_cons _ _)
  | cons a first ih =>
    cases second with
    | nil => exact iff_of_false (List.not_lt_nil _) (List.not_lt_nil _)
    | cons b second =>
      rw [List.map_cons, List.map_cons, List.cons_lt_cons_iff, List.cons_lt_cons_iff, keeps,
        inj.eq_iff, ih]

theorem lt_concat {α : Type} [LT α] (front : List α) (last : α) : front < front ++ [last] := by
  induction front with
  | nil => exact List.nil_lt_cons _ _
  | cons first front ih => exact List.cons_lt_cons_iff.mpr (.inr ⟨rfl, ih⟩)

end Lex

/-- **Lists of names in order**, each strictly before the next, name by name. -/
def InOrder (files : List (List EntryName)) : Prop :=
  files.Pairwise fun left right => left.map EntryName.text < right.map EntryName.text

namespace Path

theorem precedes_iff {left right : Path} : left.precedes right = true ↔ left.key < right.key := by
  rw [precedes, List.lex_eq_true_iff_lex]
  simp only [List.lex_eq_true_iff_lex, Nat.blt_eq]
  exact Iff.rfl

theorem notAfter_iff {left right : Path} : left.notAfter right = true ↔ left.key ≤ right.key := by
  rw [notAfter, Bool.not_eq_true', ← Bool.not_eq_true, precedes_iff, not_lt]

theorem key_name_lt {first second : String} :
    (Component.name first).key < (Component.name second).key ↔ first < second := by
  have chars : first.toList.map Char.toNat < second.toList.map Char.toNat ↔
      first.toList < second.toList :=
    map_lt_map_iff (fun _ _ => Iff.rfl) fun _ _ => Char.toNat_inj.mp
  rw [Component.key, Component.key, List.cons_lt_cons_iff, or_iff_right (lt_irrefl 3),
    and_iff_right rfl, chars, String.lt_iff_toList_lt]

theorem components_namedPath (names : List EntryName) :
    (namedPath names).components = names.map fun name => .name name.text := by
  have reads : ∀ leading walked, (stepsFrom leading walked
      (names.map fun name => name.text.toList)).map Step.component =
        names.map fun name => .name name.text := by
    induction names with
    | nil => exact fun _ _ => rfl
    | cons name names ih =>
      intro leading walked
      obtain ⟨proper, here, up, -⟩ := isEntryName_iff.mp name.usable
      rw [List.map_cons, stepsFrom, component?, if_neg proper, if_neg here, if_neg up,
        String.ofList_toList]
      exact congrArg (_ :: ·) (ih _ _)
  by_cases none : names = []
  · rw [none]
    rfl
  · have relative : (namedPath names).text.toList.head? ≠ some '/' := fun slash => by
      have absolute := isAbsolute_namedPath none
      rw [isAbsolute_iff.mpr slash] at absolute
      cases absolute
    rw [components, steps, stepsOf_eq, if_neg relative, List.nil_append, toList_namedPath,
      Text.pieces_joinPieces (by simpa using none) fun part member =>
        (slash_notMem names part member).1]
    exact reads true []

/-- **Paths of names are ordered name by name.** -/
theorem precedes_namedPath : (namedPath left).precedes (namedPath right) = true ↔
    left.map EntryName.text < right.map EntryName.text := by
  have each : ∀ names : List EntryName, (namedPath names).key =
      (names.map EntryName.text).map fun text => (Component.name text).key := by
    intro names
    rw [key, components_namedPath, List.map_map, List.map_map]
    rfl
  rw [precedes_iff, each, each]
  refine map_lt_map_iff (fun _ _ => key_name_lt) fun first second same => ?_
  exact (Component.name.inj (Component.eq_of_key same))

/-- **Paths that all differ are sorted strictly.** -/
theorem inOrder_strict {paths : List Path}
    (distinct : paths.Pairwise fun left right => left.key ≠ right.key) :
    (inOrder paths).Pairwise fun left right => left.precedes right = true := by
  have ordered : (inOrder paths).Pairwise fun left right => left.notAfter right = true := by
    refine List.pairwise_mergeSort (fun left middle right => ?_) (fun left right => ?_) _
    · rw [notAfter_iff, notAfter_iff, notAfter_iff]
      exact le_trans
    · rw [Bool.or_eq_true, notAfter_iff, notAfter_iff]
      exact le_total _ _
  have apart := (List.mergeSort_perm paths notAfter).symm.pairwise distinct Ne.symm
  exact (ordered.and apart).imp fun both =>
    precedes_iff.mpr (lt_of_le_of_ne (notAfter_iff.mp both.1) both.2)

/-- **A strictly sorted list of paths is determined by what is in it.** -/
theorem ordered_ext {first second : List Path}
    (ordered : first.Pairwise fun left right => left.precedes right = true)
    (ordered' : second.Pairwise fun left right => left.precedes right = true)
    (same : ∀ path, path ∈ first ↔ path ∈ second) : first = second := by
  have nodup : ∀ {paths : List Path},
      paths.Pairwise (fun left right => left.precedes right = true) → paths.Nodup := by
    intro paths ordered
    refine List.Pairwise.imp (fun {left right} before same => ?_) ordered
    rw [same, precedes_iff] at before
    exact lt_irrefl _ before
  refine List.Perm.eq_of_pairwise (fun left right _ _ before after => ?_) ordered ordered'
    ((List.perm_ext_iff_of_nodup (nodup ordered) (nodup ordered')).mpr same)
  exact absurd ((precedes_iff.mp before).trans (precedes_iff.mp after)) (lt_irrefl _)

end Path

/-! ## Part 2 — lists of what is found -/

/-- **What is found is listed in order**, each strictly before the next. -/
theorem inOrder_ordered (world : World) (root : Path) (keep : Path × Node → Bool) :
    (Path.inOrder (((found world root).filter keep).map Prod.fst)).Pairwise
      fun left right => left.precedes right = true :=
  Path.inOrder_strict ((kept_distinct world root keep).imp fun different same =>
    different (Path.names_of_same (beq_iff_eq.mpr same)))

/-- The names below a place that lead to a file with a certain name. -/
def World.HoldsFile (world : World) (place : Location) (wanted : String → Prop)
    (names : List EntryName) : Prop :=
  ∃ above name bytes, names = above ++ [name] ∧ wanted name.text ∧
    world.node? (names.reverse ++ place) = some (.file bytes)

/-- What is in order has no repetitions. -/
theorem InOrder.nodup {files : List (List EntryName)} (ordered : InOrder files) : files.Nodup := by
  refine List.Pairwise.imp (fun {left right} before same => ?_) ordered
  rw [same] at before
  exact lt_irrefl _ before

/-- **A list in order is determined by what is in it.** -/
theorem InOrder.ext {first second : List (List EntryName)} (ordered : InOrder first)
    (ordered' : InOrder second) (same : ∀ names, names ∈ first ↔ names ∈ second) :
    first = second := by
  refine List.Perm.eq_of_pairwise (fun left right _ _ before after => ?_) ordered ordered'
    ((List.perm_ext_iff_of_nodup ordered.nodup ordered'.nodup).mpr same)
  exact absurd (before.trans after) (lt_irrefl _)

/-- What lies below what comes earlier comes later. -/
theorem InOrder.above {files front back : List (List EntryName)} (ordered : InOrder files)
    (shape : files = front ++ (names ++ [name]) :: back) (above : names ∈ files) :
    names ∈ front := by
  have before : names.map EntryName.text < (names ++ [name]).map EntryName.text := by
    rw [List.map_append]
    exact lt_concat _ _
  rw [shape] at above ordered
  rcases List.mem_append.mp above with earlier | rest
  · exact earlier
  · rcases List.mem_cons.mp rest with same | later
    · exact absurd (congrArg List.length same) (by simp)
    · have after := (List.pairwise_cons.mp (List.pairwise_append.mp ordered).2.1).1 _ later
      exact absurd (before.trans after) (lt_irrefl _)

section Root

variable (absolute : root.isAbsolute = true)
  (plain : ∀ name, root.fileName? = some name → name.toList.getLast? ≠ some '\\')
  (there : world.find root = .ok (place, .directory))

include absolute plain there

/-- **What is listed of what is found**: all of it that is wanted, in order. -/
theorem exists_listing (keep : Path × Node → Bool) : ∃ files : List (List EntryName),
    Path.sorted (((found world root).filter keep).map Prod.fst) = files.map namedPath ∧
      InOrder files ∧ ∀ names, names ∈ files ↔
        names ≠ [] ∧ (visitedPath root names).text.utf8ByteSize < 4096 ∧
          ∃ node, world.node? (names.reverse ++ place) = some node ∧
            keep (namedPath names, node) = true := by
  have listed : ∀ path, path ∈ Path.inOrder (((found world root).filter keep).map Prod.fst) ↔
      ∃ names, path = namedPath names ∧ names ≠ [] ∧
        (visitedPath root names).text.utf8ByteSize < 4096 ∧
          ∃ node, world.node? (names.reverse ++ place) = some node ∧
            keep (namedPath names, node) = true := by
    intro path
    rw [Path.inOrder, (List.mergeSort_perm _ _).mem_iff, List.mem_map]
    constructor
    · rintro ⟨⟨_, node⟩, inside, rfl⟩
      obtain ⟨inside, kept⟩ := List.mem_filter.mp inside
      obtain ⟨names, some_names, rfl, short, held⟩ := (mem_found absolute plain there).mp inside
      exact ⟨names, rfl, some_names, short, node, held, kept⟩
    · rintro ⟨names, rfl, some_names, short, node, held, kept⟩
      refine ⟨(namedPath names, node), List.mem_filter.mpr ⟨?_, kept⟩, rfl⟩
      exact (mem_found absolute plain there).mpr ⟨names, some_names, rfl, short, held⟩
  have ordered := inOrder_ordered world root keep
  rw [sorted_kept]
  generalize Path.inOrder (((found world root).filter keep).map Prod.fst) = paths at listed ordered
  obtain ⟨files, rfl⟩ : paths ∈ Set.range (List.map namedPath) := by
    rw [Set.range_list_map]
    intro path inside
    obtain ⟨names, rfl, -⟩ := (listed path).mp inside
    exact ⟨names, rfl⟩
  refine ⟨files, rfl, ?_, fun names => ?_⟩
  · exact (List.pairwise_map.mp ordered).imp Path.precedes_namedPath.mp
  · rw [← List.mem_map_of_injective fun _ _ => namedPath_inj, listed]
    constructor
    · rintro ⟨_, same, rest⟩
      rwa [namedPath_inj same]
    · exact fun rest => ⟨names, rfl, rest⟩

/-- **The files listed under certain names** are all files with such names, in order. -/
theorem exists_files (wanted : String → Bool) : ∃ files : List (List EntryName),
    filesNamed wanted world root = files.map namedPath ∧ InOrder files ∧
      ∀ names, names ∈ files ↔ (visitedPath root names).text.utf8ByteSize < 4096 ∧
        world.HoldsFile place (wanted · = true) names := by
  obtain ⟨files, listed, ordered, exact_list⟩ := exists_listing absolute plain there
    fun entry => entry.2.isFile && hasName wanted entry.1
  refine ⟨files, listed, ordered, fun names => (exact_list names).trans ⟨?_, ?_⟩⟩
  · rintro ⟨some_names, short, node, held, kept⟩
    obtain ⟨file, named⟩ := (Bool.and_eq_true _ _).mp kept
    obtain ⟨above, name, rfl⟩ := (List.eq_nil_or_concat names).resolve_left some_names
    rw [List.concat_eq_append] at named held short ⊢
    unfold hasName at named
    rw [fileName?_namedPath] at named
    cases node with
    | directory => cases file
    | file bytes => exact ⟨short, above, name, bytes, rfl, named, held⟩
  · rintro ⟨short, above, name, bytes, rfl, named, held⟩
    refine ⟨by simp, short, _, held, ?_⟩
    show hasName wanted _ = true
    unfold hasName
    rw [fileName?_namedPath]
    exact named

end Root

/-! ## Part 3 — discovery -/

/-- A name that ends, in any case, in one of the suffixes of configs and shaders. -/
def EndsInSuffix (name : String) : Prop :=
  ∃ suffix ∈ [".sl.json", ".vert", ".frag", ".glsl"],
    suffix.toList <:+ name.toList.map Char.toLower

/-- Whether names end in that of a config. -/
def endsInConfig (names : List EntryName) : Bool :=
  match names.getLast? with
  | some name => isConfigName name.text
  | none => false

/-- **What discovery comes to** for a root that leads to a place: the files are the configs and
shaders below it, in order, of which the configs are one part and the shaders the other; a root is
valid if neither part is empty; and the directories are those below it, each once and after the one
that it is in. -/
structure Discovery (world : World) (root : Path) (place : Location)
    (files directories : List (List EntryName)) : Prop where
  listed : discoverFiles world root = files.map namedPath
  ordered : InOrder files
  mem_files : ∀ names, names ∈ files ↔
    (visitedPath root names).text.utf8ByteSize < 4096 ∧ world.HoldsFile place EndsInSuffix names
  configs : discoverConfigs world root = (files.filter endsInConfig).map namedPath
  shaders : discoverShaders world root =
    (files.filter fun names => !endsInConfig names).map namedPath
  valid : validateRoot world root = .ok ⟨⟩ ↔
    discoverConfigs world root ≠ [] ∧ discoverShaders world root ≠ []
  subdirectories : subdirectories world root = directories.map namedPath
  once : directories.Nodup
  mem_directories : ∀ names, names ∈ directories ↔
    names ≠ [] ∧ world.IsDirectoryAt (names.reverse ++ place)
  parent_first : ∀ front names name back, names ≠ [] →
    directories = front ++ (names ++ [name]) :: back → names ∈ front

theorem endsInConfig_concat (names : List EntryName) (name : EntryName) :
    endsInConfig (names ++ [name]) = isConfigName name.text := by
  rw [endsInConfig, List.getLast?_concat]

/-- **A part of the names that count** is listed as the part of the list with such names. -/
theorem files_part {wanted : String → Bool} {keep : List EntryName → Bool}
    {followed : List EntryName → Prop} {files part : List (List EntryName)}
    (ordered : InOrder files) (ordered' : InOrder part)
    (mem_files : ∀ names, names ∈ files ↔
      followed names ∧ world.HoldsFile place (isSourceName · = true) names)
    (mem_part : ∀ names, names ∈ part ↔
      followed names ∧ world.HoldsFile place (wanted · = true) names)
    (same : ∀ above name, (isSourceName name.text && keep (above ++ [name])) = wanted name.text) :
    part = files.filter keep := by
  refine ordered'.ext (List.Pairwise.filter _ ordered) fun names => ?_
  rw [mem_part, List.mem_filter, mem_files, and_assoc]
  refine and_congr_right fun _ => ⟨?_, ?_⟩
  · rintro ⟨above, name, bytes, rfl, named, held⟩
    obtain ⟨source, kept⟩ := (Bool.and_eq_true _ _).mp ((same above name).trans named)
    exact ⟨⟨above, name, bytes, rfl, source, held⟩, kept⟩
  · rintro ⟨⟨above, name, bytes, rfl, source, held⟩, kept⟩
    exact ⟨above, name, bytes, rfl,
      (same above name).symm.trans ((Bool.and_eq_true _ _).mpr ⟨source, kept⟩), held⟩

section Root

variable (absolute : root.isAbsolute = true)
  (plain : ∀ name, root.fileName? = some name → name.toList.getLast? ≠ some '\\')
  (there : world.find root = .ok (place, .directory))

include absolute plain there

/-- **Discovery is exact** below an absolute root whose last component ends in no backslash, if the
directories there can be followed under the path of the scan: what is listed are exactly the configs
and shaders whose paths can be followed, and all directories. -/
theorem discovery_exact
    (clear : ∀ names ≠ [], world.IsDirectoryAt (names.reverse ++ place) →
      (visitedPath root names).text.utf8ByteSize < 4096) :
    ∃ files directories, Discovery world root place files directories := by
  obtain ⟨files, listed, ordered, mem_files⟩ := exists_files absolute plain there isSourceName
  obtain ⟨configs, listed_configs, ordered_configs, mem_configs⟩ :=
    exists_files absolute plain there isConfigName
  obtain ⟨shaders, listed_shaders, ordered_shaders, mem_shaders⟩ :=
    exists_files absolute plain there isShaderName
  obtain ⟨directories, listed_directories, ordered_directories, mem_directories⟩ :=
    exists_listing absolute plain there fun entry => entry.2.isDirectory
  have same_configs : configs = files.filter endsInConfig := by
    refine files_part ordered ordered_configs mem_files mem_configs fun above name => ?_
    rw [endsInConfig_concat, isSourceName]
    cases isConfigName name.text <;> simp
  have same_shaders : shaders = files.filter fun names => !endsInConfig names := by
    refine files_part ordered ordered_shaders mem_files mem_shaders fun above name => ?_
    rw [endsInConfig_concat, isSourceName]
    cases config : isConfigName name.text with
    | true => rw [isShaderName_of_isConfigName config]; rfl
    | false => simp
  have exact_directories : ∀ names, names ∈ directories ↔
      names ≠ [] ∧ world.IsDirectoryAt (names.reverse ++ place) := by
    intro names
    rw [mem_directories]
    refine and_congr_right fun some_names => ⟨?_, fun held => ?_⟩
    · rintro ⟨-, node, held, kept⟩
      cases node with
      | file bytes => cases kept
      | directory => exact held
    · exact ⟨clear names some_names held, .directory, held, rfl⟩
  refine ⟨files, directories, listed, ordered, fun names => ?_, ?_, ?_, validateRoot_iff,
    listed_directories, ordered_directories.nodup, exact_directories, ?_⟩
  · rw [mem_files]
    refine and_congr_right fun _ => exists_congr fun above => exists_congr fun name =>
      exists_congr fun bytes => and_congr_right fun _ => and_congr_left fun _ => isSourceName_iff
  · rw [← same_configs]
    exact listed_configs
  · rw [← same_shaders]
    exact listed_shaders
  · intro front names name back some_names shape
    refine ordered_directories.above shape ((exact_directories names).mpr ⟨some_names, ?_⟩)
    have below := (exact_directories (names ++ [name])).mp (by rw [shape]; simp)
    rw [List.reverse_concat] at below
    exact World.directory_of_below (List.cons_ne_nil name [])
      (Option.isSome_iff_exists.mpr ⟨_, below.2⟩)

end Root

/-- Discovery is exact in a tree on three levels. -/
theorem discovery_exact_storeyed :
    (∀ name, Path.fileName? ⟨"/house"⟩ = some name → name.toList.getLast? ≠ some '\\') ∧
    storeyedWorld.find ⟨"/house"⟩ = .ok ([⟨"house", by decide⟩], .directory) ∧
    ∃ files directories,
      Discovery storeyedWorld ⟨"/house"⟩ [⟨"house", by decide⟩] files directories := by
  have plain : ∀ name, Path.fileName? ⟨"/house"⟩ = some name →
      name.toList.getLast? ≠ some '\\' := by
    intro name named
    have own : Path.fileName? ⟨"/house"⟩ = some "house" := rfl
    rw [own] at named
    cases named
    decide
  refine ⟨plain, storeyed_there, discovery_exact (by decide) plain storeyed_there ?_⟩
  intro names some_names held
  refine Nat.lt_of_le_of_lt (utf8ByteSize_visitedPath rfl some_names) ?_
  exact storeyed_short names some_names (Option.isSome_iff_exists.mpr ⟨_, held⟩)

/-! ## Part 4 — paths that are too long -/

theorem usable_out : isEntryName "out" = true := by decide

/-- A world with a config and a shader in a directory. -/
def pairedWorld : World :=
  World.ofNodes [] [([⟨"out", usable_out⟩], .directory),
    ([⟨"y.sl.json", by decide⟩, ⟨"out", usable_out⟩], .file ⟨#[]⟩),
    ([⟨"y.vert", by decide⟩, ⟨"out", usable_out⟩], .file ⟨#[]⟩)] (by decide) (by decide)

/-- The text of the directory, with turns on the spot before its name. -/
def windingText (count : Nat) : List Char :=
  '/' :: ((List.replicate count ['.', '/']).flatten ++ "out".toList)

theorem windingText_succ (count : Nat) :
    windingText (count + 1) = '/' :: '.' :: windingText count := by
  rw [windingText, List.replicate_succ, List.flatten_cons]
  rfl

theorem utf8Len_windingText (count : Nat) :
    String.utf8Len (windingText count) = count * 2 + 4 := by
  have turns : String.utf8Len (List.replicate count ['.', '/']).flatten = count * 2 := by
    induction count with
    | zero => rfl
    | succ count ih =>
      rw [List.replicate_succ, List.flatten_cons, String.utf8Len_append, ih]
      show 2 + count * 2 = _
      omega
  rw [windingText, String.utf8Len_cons, String.utf8Len_append, turns]
  rfl

theorem squeezed_windingText (count : Nat) :
    squeezed (windingText count) = windingText count := by
  induction count with
  | zero => decide
  | succ count ih =>
    rw [windingText_succ, squeezed, squeezed, ih]
    all_goals simp

/-- Turns on the spot lead nowhere. -/
theorem waysIn_windingText (count : Nat) : Path.waysIn (windingText count) = ["out".toList] := by
  induction count with
  | zero => decide
  | succ count ih =>
    obtain ⟨rest, shape⟩ : ∃ rest, windingText count = '/' :: rest := ⟨_, rfl⟩
    have joined := Path.wayReading.inText_append_slash ['/', '.'] rest
    have alone := Path.wayReading.inText_append_slash [] rest
    rw [List.nil_append, ← shape] at alone
    rw [← shape] at joined
    rw [windingText_succ]
    exact joined.trans (alone.symm.trans ih)

theorem exists_edge_windingText (count : Nat) :
    ∃ front, windingText count = front ++ ['/'] ++ "out".toList := by
  induction count with
  | zero => exact ⟨[], rfl⟩
  | succ count ih =>
    obtain ⟨front, shape⟩ := ih
    refine ⟨'/' :: '.' :: front, ?_⟩
    rw [windingText_succ, shape]
    rfl

/-- The winding path leads to the directory, as long as it is short enough. -/
theorem find_windingText {count : Nat} (short : count * 2 + 4 < 4096) :
    pairedWorld.find ⟨String.ofList (windingText count)⟩ =
      .ok ([⟨"out", by decide⟩], .directory) := by
  have start : pairedWorld.start ⟨String.ofList (windingText count)⟩ = [] := by
    rw [World.start, if_pos]
    rw [Path.isAbsolute_iff, String.toList_ofList]
    rfl
  refine World.find_of_walk ?_ ?_ ?_ ?_ ?_
  · rw [← Bool.not_eq_true, Path.isEmpty_iff, String.toList_ofList]
    exact List.cons_ne_nil _ _
  · rw [String.toList_ofList, windingText]
    simp
  · rwa [String.utf8ByteSize_ofList, utf8Len_windingText]
  · rw [start]
    rfl
  · rw [start, ← World.walk_ways, Path.parts, String.toList_ofList]
    show pairedWorld.walk [] (Path.waysIn (windingText count)) = _
    rw [waysIn_windingText]
    rfl

/-- **Discovery is not exact where paths become too long**: a config lies in a directory that is
there, and is not listed. -/
theorem discovery_limits : ∃ world root place names, Path.isAbsolute root = true ∧
    (∀ name, root.fileName? = some name → name.toList.getLast? ≠ some '\\') ∧
    World.find world root = .ok (place, .directory) ∧
    world.HoldsFile place EndsInSuffix names ∧ namedPath names ∉ discoverFiles world root := by
  have absolute : Path.isAbsolute ⟨String.ofList (windingText 2042)⟩ = true := by
    rw [Path.isAbsolute_iff, String.toList_ofList]
    rfl
  obtain ⟨front, shape⟩ := exists_edge_windingText 2042
  have named : Path.fileName? ⟨String.ofList (windingText 2042)⟩ = some "out" := by
    rw [shape]
    exact Path.fileName?_of_edge (.inr ⟨front, rfl⟩) (by decide) (by decide) (by decide) (by decide)
  have plain : ∀ name, Path.fileName? ⟨String.ofList (windingText 2042)⟩ = some name →
      name.toList.getLast? ≠ some '\\' := by
    intro name same
    rw [named] at same
    cases same
    decide
  have scanned : scanText ⟨String.ofList (windingText 2042)⟩ = windingText 2042 := by
    have last : (windingText 2042).reverse = 't' :: 'u' :: 'o' :: (front ++ ['/']).reverse := by
      rw [shape, List.reverse_append]
      rfl
    rw [scanText, String.toList_ofList, last, List.dropWhile_cons_of_neg (by decide), ← last,
      List.reverse_reverse]
  refine ⟨pairedWorld, _, _, [⟨"y.sl.json", by decide⟩], absolute, plain,
    @find_windingText 2042 (by decide),
    ⟨[], _, _, rfl, ⟨".sl.json", by decide, by decide⟩, rfl⟩, fun listed => ?_⟩
  obtain ⟨names, bytes, -, same, short, -⟩ :=
    (mem_discoverFiles absolute plain (@find_windingText 2042 (by decide))).mp listed
  obtain rfl := namedPath_inj same
  rw [visitedPath, scanned, squeezed_windingText, scannedPath, String.utf8ByteSize_ofList,
    String.utf8Len_append, utf8Len_windingText] at short
  exact absurd short (by decide)

end ShaderForge
