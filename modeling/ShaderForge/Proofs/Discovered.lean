/-
**What a scan finds.**

Everything found below a root has its location told by the names in its path (`names_of_found`), and
so no two files found are filed under one name (`filedNames_distinct`). Sorting loses nothing but
repetitions.

What is found depends on nothing but what is where: changes that leave files files and directories
directories leave a scan with something if there was something (`ChangedBelow.filesNamed`).
-/

import ShaderForge.Archive.Plan
import ShaderForge.Proofs.PathNames
import ShaderForge.Proofs.Walking

namespace ShaderForge

variable {world before after : World} {root path other : Path} {node : Node} {place : Location}
  {wanted : String → Bool}

/-! ## Part 1 — names under which files are filed -/

namespace Text

theorem pieces_joinPieces {sep : Char} {parts : List (List Char)} (some_parts : parts ≠ [])
    (free : ∀ part ∈ parts, sep ∉ part) : pieces sep (joinPieces sep parts) = parts := by
  induction parts with
  | nil => exact absurd rfl some_parts
  | cons part parts ih =>
    have own := pieces_of_notMem (free part List.mem_cons_self)
    cases parts with
    | nil => exact own
    | cons next parts =>
      rw [joinPieces, pieces_append_cons, own,
        ih (List.cons_ne_nil _ _) fun piece there => free piece (List.mem_cons_of_mem _ there)]
      rfl

end Text

theorem toList_filed (names : List String) :
    ("/".intercalate names).toList = Text.joinPieces '/' (names.map String.toList) := by
  induction names with
  | nil => rfl
  | cons name names ih =>
    cases names with
    | nil =>
      rw [String.intercalate_singleton]
      rfl
    | cons next names =>
      rw [String.intercalate_cons_cons, String.toList_append, String.toList_append, ih,
        List.append_assoc]
      rfl

/-- **The name under which a file is filed** has the names in its path between its slashes. -/
theorem pieces_filedName (some_name : path.names ≠ []) :
    Text.pieces '/' (filedName path).toList = path.names.map String.toList := by
  rw [filedName, toList_filed]
  refine Text.pieces_joinPieces (fun nothing => some_name (List.map_eq_nil_iff.mp nothing)) ?_
  intro part member
  obtain ⟨name, among, rfl⟩ := List.mem_map.mp member
  exact (Path.mem_names among).1

/-- **The name under which a file is filed tells the names in its path.** -/
theorem names_of_filedName (same : filedName path = filedName other) :
    path.names = other.names := by
  have reads : ∀ path : Path,
      Path.solid (filedName path).toList = path.names.map String.toList := by
    intro path
    by_cases none : path.names = []
    · rw [filedName, none]
      rfl
    · rw [Path.solid, pieces_filedName none]
      refine List.filter_eq_self.mpr fun part member => ?_
      obtain ⟨name, among, rfl⟩ := List.mem_map.mp member
      simpa using (Path.mem_names among).2.1
  have texts := (reads path).symm.trans ((congrArg _ (congrArg String.toList same)).trans
    (reads other))
  exact (List.map_inj_right fun _ _ => String.toList_inj.mp).mp texts

/-! ## Part 2 — what is found, by its names -/

/-- **The texts that name something in a directory.** -/
theorem isEntryName_iff {text : String} :
    isEntryName text = true ↔ text.toList ≠ [] ∧ text.toList ≠ ['.'] ∧ text.toList ≠ ['.', '.'] ∧
      '/' ∉ text.toList ∧ Char.ofNat 0 ∉ text.toList ∧ text.utf8ByteSize ≤ 255 := by
  have texts : ∀ other : String, text.toList ≠ other.toList ↔ text ≠ other := fun other =>
    not_congr String.toList_inj
  have free : ∀ c, c ∉ text.toList ↔ text.toList.contains c = false := fun c => by
    rw [← List.contains_iff_mem, Bool.not_eq_true]
  rw [free, free]
  change _ ↔ text.toList ≠ "".toList ∧ text.toList ≠ ".".toList ∧ text.toList ≠ "..".toList ∧ _
  rw [texts, texts, texts]
  simp only [isEntryName, Bool.and_eq_true, bne_iff_ne, ne_eq, Bool.not_eq_true',
    decide_eq_true_eq, and_assoc]

theorem EntryName.text_inj {left right : EntryName} (same : left.text = right.text) :
    left = right := by
  cases left
  cases right
  cases same
  rfl

theorem namesIn_entries (text : List Char) (names : List EntryName) :
    Path.namesIn (text ++ names.flatMap fun name => '/' :: name.text.toList) =
      Path.namesIn text ++ names.map EntryName.text := by
  induction names generalizing text with
  | nil => rw [List.flatMap_nil, List.map_nil, List.append_nil, List.append_nil]
  | cons name names ih =>
    obtain ⟨proper, here, up, plain, -⟩ := isEntryName_iff.mp name.usable
    have own : Path.namesIn name.text.toList = [name.text] := by
      rw [Path.namesIn, Path.solid_of_notMem plain,
        List.filter_cons_of_pos (by simpa using proper), List.filter_nil, List.filterMap_cons,
        Path.nameOf?, if_neg (not_or.mpr ⟨here, up⟩), String.ofList_toList]
      rfl
    rw [List.flatMap_cons, ← List.append_assoc, ih, Path.namesIn_append_slash, own, List.map_cons,
      List.append_assoc]
    rfl

/-- The names that lead to a location below a place. -/
theorem namesBelow?_reverse {names : List EntryName} (some_names : names ≠ []) (place : Location) :
    namesBelow? place (names.reverse ++ place) = some names := by
  have below : place.isSuffixOf (names.reverse ++ place) = true :=
    List.isSuffixOf_iff_suffix.mpr (List.suffix_append _ _)
  have longer : place.length < (names.reverse ++ place).length := by
    rw [List.length_append, List.length_reverse]
    exact Nat.lt_add_of_pos_left (List.length_pos_iff.mpr some_names)
  rw [namesBelow?, below, decide_eq_true longer, Bool.and_self, if_pos rfl, List.length_append,
    Nat.add_sub_cancel, List.take_left, List.reverse_reverse]

/-- Some name leads to a location below a place. -/
theorem namesBelow?_ne_nil {location : Location} {names : List EntryName}
    (below : namesBelow? place location = some names) : names ≠ [] := by
  unfold namesBelow? at below
  split at below
  · next inside =>
    rw [Bool.and_eq_true, decide_eq_true_eq] at inside
    cases below
    rintro nothing
    have none := congrArg List.length nothing
    rw [List.length_reverse, List.length_take, List.length_nil] at none
    omega
  · cases below

/-- **What is found is told by its names**: the root has names, the path found goes on with others,
and together they are those of the scan and of the way from there. -/
theorem names_of_found {location : Location} {names : List EntryName}
    (below : namesBelow? place location = some names)
    (left : (scannedPath (scanText root) names).stripped? root = some path) :
    root.names ++ path.names = Path.namesIn (scanText root) ++ names.map EntryName.text ∧
      location = names.reverse ++ place := by
  constructor
  · rw [← Path.names_stripped? left, Path.names_eq, scannedPath, String.toList_ofList]
    exact namesIn_entries _ names
  · unfold namesBelow? at below
    split at below
    · next inside =>
      cases below
      rw [Bool.and_eq_true, List.isSuffixOf_iff_suffix] at inside
      obtain ⟨way, rfl⟩ := inside.1
      rw [List.reverse_reverse, List.length_append, Nat.add_sub_cancel, List.take_left]
    · cases below

/-- **What is found at a location**: its names lead there from the place, the path of the scan is
short enough to be followed, and the path found is what is left of it below the root. -/
theorem foundPath?_eq_some {location : Location} : foundPath? root place location = some path ↔
    ∃ names, namesBelow? place location = some names ∧
      (visitedPath root names).text.utf8ByteSize < 4096 ∧
      (scannedPath (scanText root) names).stripped? root = some path := by
  rw [foundPath?, Option.bind_eq_bind, Option.bind_eq_some_iff]
  refine exists_congr fun names => and_congr_right fun _ => ?_
  split
  · next short => exact (and_iff_right short).symm
  · next long => exact iff_of_false (fun none => nomatch none) fun both => long both.1

theorem mem_found_iff : (path, node) ∈ found world root ↔
    isScannable root = true ∧ ∃ start, scanStart? world root = some start ∧
      ∃ location, (location, node) ∈ world.nodes ∧
        foundPath? root start location = some path := by
  unfold found
  cases isScannable root with
  | false => exact iff_of_false List.not_mem_nil fun both => nomatch both.1
  | true =>
    cases scanStart? world root with
    | none => exact iff_of_false List.not_mem_nil fun ⟨_, _, begins, _⟩ => nomatch begins
    | some start =>
      show (path, node) ∈ world.nodes.filterMap _ ↔ _
      rw [List.mem_filterMap]
      constructor
      · rintro ⟨⟨location, held⟩, listed, reads⟩
        obtain ⟨_, leads, same⟩ := Option.map_eq_some_iff.mp reads
        cases same
        exact ⟨rfl, start, rfl, location, listed, leads⟩
      · rintro ⟨-, _, ⟨⟩, location, listed, leads⟩
        exact ⟨_, listed, Option.map_eq_some_iff.mpr ⟨path, leads, rfl⟩⟩

/-- **No two things found have the same names.** -/
theorem found_distinct (world : World) (root : Path) :
    (found world root).Pairwise fun left right => left.1.names ≠ right.1.names := by
  unfold found
  split
  · exact List.Pairwise.nil
  · split
    · exact List.Pairwise.nil
    · next place _ =>
      refine List.pairwise_filterMap.mpr ((List.pairwise_map.mp world.distinct).imp ?_)
      rintro ⟨location, node⟩ ⟨location', node'⟩ different first_found first second_found second
      obtain ⟨path, leads, rfl⟩ := Option.map_eq_some_iff.mp first
      obtain ⟨path', leads', rfl⟩ := Option.map_eq_some_iff.mp second
      obtain ⟨names, below, -, left⟩ := foundPath?_eq_some.mp leads
      obtain ⟨names', below', -, left'⟩ := foundPath?_eq_some.mp leads'
      obtain ⟨reads, rfl⟩ := names_of_found below left
      obtain ⟨reads', rfl⟩ := names_of_found below' left'
      intro same
      refine different ?_
      dsimp only at same ⊢
      rw [same] at reads
      have texts := List.append_cancel_left (reads.symm.trans reads')
      have alike : names = names' :=
        (List.map_inj_right fun _ _ => EntryName.text_inj).mp texts
      rw [alike]

/-! ## Part 3 — sorting -/

theorem withoutRepeats_sublist (paths : List Path) : (Path.withoutRepeats paths).Sublist paths := by
  fun_induction Path.withoutRepeats paths with
  | case1 first next rest same ih =>
    exact ih.trans (List.Sublist.cons_cons first (List.sublist_cons_self next rest))
  | case2 first next rest different ih => exact ih.cons_cons first
  | case3 short => exact List.Sublist.refl _

theorem withoutRepeats_eq_nil (paths : List Path) :
    Path.withoutRepeats paths = [] ↔ paths = [] := by
  fun_induction Path.withoutRepeats paths with
  | case1 first next rest same ih => exact ih.trans (iff_of_false (by simp) (by simp))
  | case2 first next rest different ih => exact iff_of_false (by simp) (by simp)
  | case3 short => exact Iff.rfl

theorem mem_of_mem_sorted {paths : List Path} (member : path ∈ Path.sorted paths) :
    path ∈ paths :=
  (List.mergeSort_perm paths _).mem_iff.mp ((withoutRepeats_sublist _).subset member)

theorem sorted_eq_nil {paths : List Path} : Path.sorted paths = [] ↔ paths = [] := by
  rw [Path.sorted, withoutRepeats_eq_nil, Path.inOrder]
  constructor
  · intro none
    have same := (List.mergeSort_perm paths Path.notAfter).length_eq
    rw [none] at same
    exact List.length_eq_zero_iff.mp same.symm
  · rintro rfl
    exact List.mergeSort_nil

/-- A file that is listed was found, and has a wanted name. -/
theorem mem_filesNamed (member : path ∈ filesNamed wanted world root) :
    ∃ node, (path, node) ∈ found world root ∧ node.isFile = true ∧ hasName wanted path = true := by
  obtain ⟨⟨_, node⟩, among, rfl⟩ := List.mem_map.mp (mem_of_mem_sorted member)
  obtain ⟨there, fits⟩ := List.mem_filter.mp among
  rw [Bool.and_eq_true] at fits
  exact ⟨node, there, fits.1, fits.2⟩

/-- **No two files found are filed under one name.** -/
theorem filedNames_distinct (wanted : String → Bool) (world : World) (root : Path) :
    (filesNamed wanted world root).Pairwise fun left right => filedName left ≠ filedName right := by
  refine List.Pairwise.sublist (withoutRepeats_sublist _) ?_
  refine (List.mergeSort_perm _ _).symm.pairwise ?_ fun different => Ne.symm different
  refine List.pairwise_map.mpr (List.Pairwise.filter _ ?_)
  exact (found_distinct world root).imp fun different same => different (names_of_filedName same)

/-- Some file is listed if one was found with a wanted name. -/
theorem filesNamed_ne_nil :
    filesNamed wanted world root ≠ [] ↔
      ∃ path node, (path, node) ∈ found world root ∧ node.isFile = true ∧
        hasName wanted path = true := by
  constructor
  · intro some_file
    obtain ⟨path, member⟩ := List.exists_mem_of_ne_nil _ some_file
    obtain ⟨node, there, fits⟩ := mem_filesNamed member
    exact ⟨path, node, there, fits⟩
  · rintro ⟨path, node, there, file, named⟩
    rw [filesNamed, ne_eq, sorted_eq_nil, List.map_eq_nil_iff]
    refine List.ne_nil_of_mem (List.mem_filter.mpr ⟨there, ?_⟩)
    rw [Bool.and_eq_true]
    exact ⟨file, named⟩

/-- A root with a config has a source. -/
theorem discoverFiles_ne_nil (some_config : discoverConfigs world root ≠ []) :
    discoverFiles world root ≠ [] := by
  obtain ⟨path, node, there, file, named⟩ := filesNamed_ne_nil.mp some_config
  refine filesNamed_ne_nil.mpr ⟨path, node, there, file, ?_⟩
  unfold hasName at named ⊢
  split at named
  · rw [isSourceName, named]
    rfl
  · cases named

/-- If one file with such a name is found, it is all that there is. -/
theorem filesNamed_singleton
    (only : ((found world root).filter fun (path, node) =>
      node.isFile && hasName wanted path).map Prod.fst = [path]) :
    filesNamed wanted world root = [path] := by
  rw [filesNamed, only]
  simp only [Path.sorted, Path.inOrder, List.mergeSort_singleton, Path.withoutRepeats]

/-! ## Part 4 — scans and changes -/

namespace World.ChangedBelow

variable (changed : World.ChangedBelow place before after)

include changed

theorem scanStart? {start : Location} (begins : scanStart? before root = some start) :
    scanStart? after root = some start := by
  unfold ShaderForge.scanStart? at begins ⊢
  split at begins
  · exact begins
  · next text _ =>
    split at begins
    · next found there =>
      cases begins
      rw [World.find?_eq_some.mpr
        (changed.keepsDirectories.find_directory (World.find?_eq_some.mp there))]
    · cases begins

/-- **What was found is found still**, as the kind of thing that it was. -/
theorem found (there : (path, node) ∈ found before root) :
    ∃ later, (path, later) ∈ ShaderForge.found after root ∧ later.isFile = node.isFile := by
  obtain ⟨scannable, start, begins, location, listed, leads⟩ := mem_found_iff.mp there
  obtain ⟨later, holds, sameKind⟩ := changed.kept location node (World.node?_of_mem listed)
  have some_name : location ≠ [] := by
    obtain ⟨name, parent, rfl, -⟩ := before.rooted location node listed
    exact List.cons_ne_nil _ _
  obtain ⟨name, parent, rfl⟩ := List.exists_cons_of_ne_nil some_name
  exact ⟨later, mem_found_iff.mpr ⟨scannable, start, changed.scanStart? begins, _,
    World.mem_of_node? holds, leads⟩, sameKind⟩

/-- A scan that found something finds something still. -/
theorem filesNamed (some_file : filesNamed wanted before root ≠ []) :
    ShaderForge.filesNamed wanted after root ≠ [] := by
  obtain ⟨path, node, there, file, named⟩ := filesNamed_ne_nil.mp some_file
  obtain ⟨later, still, sameKind⟩ := changed.found there
  exact filesNamed_ne_nil.mpr ⟨path, later, still, sameKind.trans file, named⟩

end World.ChangedBelow

end ShaderForge
