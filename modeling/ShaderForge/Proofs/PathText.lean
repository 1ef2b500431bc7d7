/-
**The text of a path and its parts.**

The file system reads a path as its *parts*: what stands between slashes and is not empty
(`Path.parts`). The paths that a program forms are texts, joined and cut. This module says what
joining and cutting do to the parts.

* `parts_join`: the parts of a path below a path are the parts of both, one after the other;
* `LiesOn`: a path leads part of the way of another one. The parents of a path do
  (`liesOn_of_mem_parents`), and so do theirs (`LiesOn.trans`).
-/

import ShaderForge.Path.Basic

namespace ShaderForge

open Text (pieces joinPieces)

/-! ## Part 1 — pieces -/

namespace Text

variable {sep : Char}

/-- Cutting at a separator in the middle cuts both sides on their own. -/
theorem pieces_append_cons (before after : List Char) :
    pieces sep (before ++ sep :: after) = pieces sep before ++ pieces sep after := by
  induction before with
  | nil =>
    show pieces sep (sep :: after) = [] :: pieces sep after
    rw [pieces, if_pos rfl]
  | cons c before ih =>
    rw [List.cons_append, pieces, pieces]
    by_cases same : c = sep
    · rw [if_pos same, if_pos same, ih]
      rfl
    · rw [if_neg same, if_neg same, ih]
      cases cut : pieces sep before with
      | nil => exact absurd cut (pieces_ne_nil sep before)
      | cons part parts => rfl

/-- Text without a separator is one piece. -/
theorem pieces_of_notMem {part : List Char} (free : sep ∉ part) : pieces sep part = [part] := by
  induction part with
  | nil => rfl
  | cons c part ih =>
    rw [List.mem_cons, not_or] at free
    rw [pieces, if_neg (Ne.symm free.1), ih free.2]

/-- No piece holds a separator. -/
theorem notMem_of_mem_pieces {text part : List Char} (member : part ∈ pieces sep text) :
    sep ∉ part := by
  induction text generalizing part with
  | nil =>
    rw [pieces, List.mem_singleton] at member
    rw [member]
    exact List.not_mem_nil
  | cons c text ih =>
    rw [pieces] at member
    by_cases same : c = sep
    · rw [if_pos same] at member
      rcases List.mem_cons.mp member with first | later
      · rw [first]
        exact List.not_mem_nil
      · exact ih later
    · rw [if_neg same] at member
      cases cut : pieces sep text with
      | nil => exact absurd cut (pieces_ne_nil sep text)
      | cons piece more =>
        rw [cut] at member ih
        rcases List.mem_cons.mp member with first | later
        · rw [first, List.mem_cons, not_or]
          exact ⟨Ne.symm same, ih List.mem_cons_self⟩
        · exact ih (List.mem_cons_of_mem _ later)

end Text

namespace Path

/-! ## Part 2 — the parts of a path -/

/-- The pieces of a text that are not empty. -/
def solid (text : List Char) : List (List Char) := (pieces '/' text).filter (· ≠ [])

/-- **The parts of a path**: what stands between slashes and is not empty. -/
def parts (path : Path) : List (List Char) := solid path.text.toList

theorem solid_nil : solid [] = [] := by
  simp [solid, pieces]

/-- The parts on both sides of a slash. -/
theorem solid_append_slash (before after : List Char) :
    solid (before ++ '/' :: after) = solid before ++ solid after := by
  rw [solid, Text.pieces_append_cons, List.filter_append]
  rfl

theorem solid_slash_cons (after : List Char) : solid ('/' :: after) = solid after := by
  have cut := solid_append_slash [] after
  rwa [solid_nil, List.nil_append, List.nil_append] at cut

/-- A text without a slash is its own only part. -/
theorem solid_of_notMem {part : List Char} (free : '/' ∉ part) :
    solid part = [part].filter (· ≠ []) := by
  rw [solid, Text.pieces_of_notMem free]

/-- No part holds a slash. -/
theorem notMem_of_mem_solid {text part : List Char} (member : part ∈ solid text) : '/' ∉ part :=
  Text.notMem_of_mem_pieces (List.mem_filter.mp member).1

/-- No part is empty. -/
theorem ne_nil_of_mem_solid {text part : List Char} (member : part ∈ solid text) : part ≠ [] := by
  simpa using (List.mem_filter.mp member).2

/-! ## Part 3 — joined paths -/

/-- **A relative text below another one** adds its parts to those of the other one. -/
theorem solid_joinChars {left right : List Char} (some_left : left ≠ [])
    (relative : right.head? ≠ some '/') :
    solid (joinChars left right) = solid left ++ solid right := by
  obtain ⟨init, last, rfl⟩ : ∃ init last, left = init ++ [last] :=
    ⟨left.dropLast, left.getLast some_left, (List.dropLast_concat_getLast some_left).symm⟩
  rw [joinChars, if_neg relative, List.getLast?_concat]
  by_cases slash : last = '/'
  · subst slash
    show solid (init ++ ['/'] ++ right) = _
    rw [List.append_assoc, List.singleton_append, solid_append_slash, solid_append_slash, solid_nil,
      List.append_nil]
  · split
    · next nothing => cases nothing
    · next same => exact absurd (Option.some.inj same) slash
    · exact solid_append_slash _ _

/-- A longer text begins like the text that it goes on from. -/
theorem head?_append_of_ne_nil {left : List Char} (some_left : left ≠ []) (right : List Char) :
    (left ++ right).head? = left.head? := by
  cases left with
  | nil => exact absurd rfl some_left
  | cons c rest => rfl

/-- A text below another one begins like the other one. -/
theorem head?_joinChars {left right : List Char} (some_left : left ≠ [])
    (relative : right.head? ≠ some '/') : (joinChars left right).head? = left.head? := by
  rw [joinChars, if_neg relative]
  split
  · next nothing => exact absurd (List.getLast?_eq_none_iff.mp nothing) some_left
  · exact head?_append_of_ne_nil some_left _
  · exact head?_append_of_ne_nil some_left _

variable {path left right other : Path}

theorem isEmpty_iff : path.isEmpty = true ↔ path.text.toList = [] := by
  rw [isEmpty, String.isEmpty_iff, String.toList_eq_nil_iff]

theorem isAbsolute_iff : path.isAbsolute = true ↔ path.text.toList.head? = some '/' := by
  rw [isAbsolute, beq_iff_eq]

/-- A name without a slash is a relative path. -/
theorem isAbsolute_plain {name : String} (plain : '/' ∉ name.toList) :
    isAbsolute ⟨name⟩ = false := by
  rw [← Bool.not_eq_true, isAbsolute_iff]
  exact fun slash => plain (List.mem_of_head? slash)

theorem toList_join : (left.join right).text.toList =
    joinChars left.text.toList right.text.toList := by
  rw [join, String.toList_ofList]

/-- **The parts of a path below a path.** -/
theorem parts_join (some_left : left.isEmpty = false) (relative : right.isAbsolute = false) :
    (left.join right).parts = left.parts ++ right.parts := by
  rw [parts, toList_join]
  refine solid_joinChars (fun empty => ?_) fun absolute => ?_
  · rw [isEmpty_iff.mpr empty] at some_left
    cases some_left
  · rw [isAbsolute_iff.mpr absolute] at relative
    cases relative

/-- A path below a path begins like that one. -/
theorem isAbsolute_join (some_left : left.isEmpty = false) (relative : right.isAbsolute = false) :
    (left.join right).isAbsolute = left.isAbsolute := by
  rw [isAbsolute, isAbsolute, toList_join, head?_joinChars]
  · intro empty
    rw [isEmpty_iff.mpr empty] at some_left
    cases some_left
  · intro absolute
    rw [isAbsolute_iff.mpr absolute] at relative
    cases relative

/-! ## Part 4 — part of the way -/

/-- **A path leads part of the way of another one**: it begins at the same place, and its parts are
the first ones of the other. The empty path leads nowhere, and is counted too. -/
def LiesOn (other path : Path) : Prop :=
  other.isEmpty = true ∨ other.isAbsolute = path.isAbsolute ∧ other.parts <+: path.parts

theorem LiesOn.refl (path : Path) : path.LiesOn path := .inr ⟨rfl, List.prefix_refl _⟩

theorem isAbsolute_of_isEmpty (empty : path.isEmpty = true) : path.isAbsolute = false := by
  rw [isAbsolute, isEmpty_iff.mp empty]
  rfl

/-- An absolute path is not empty. -/
theorem isEmpty_of_isAbsolute (absolute : path.isAbsolute = true) : path.isEmpty = false := by
  rw [← Bool.not_eq_true]
  intro nothing
  rw [isAbsolute_of_isEmpty nothing] at absolute
  cases absolute

theorem parts_of_isEmpty (empty : path.isEmpty = true) : path.parts = [] := by
  rw [parts, isEmpty_iff.mp empty, solid_nil]

/-- A relative path without parts is empty. -/
theorem isEmpty_of_parts (relative : path.isAbsolute = false) (none : path.parts = []) :
    path.isEmpty = true := by
  rw [isEmpty_iff]
  cases read : path.text.toList with
  | nil => rfl
  | cons c rest =>
    rw [parts, read, solid, pieces] at none
    by_cases same : c = '/'
    · rw [isAbsolute_iff.mpr (by rw [read, same]; rfl)] at relative
      cases relative
    · rw [if_neg same] at none
      cases cut : pieces '/' rest with
      | nil => exact absurd cut (Text.pieces_ne_nil '/' rest)
      | cons part more =>
        rw [cut] at none
        cases none

/-- What the steps of a text have in common: each goes through a first part of the text that is not
empty, and whose parts are first parts of the text. -/
theorem stepsFrom_through {leading : Bool} {walked : List Char} {rest : List (List Char)}
    {step : Step} (free : ∀ part ∈ rest, '/' ∉ part)
    (edge : walked = [] ∨ ∃ before, walked = before ++ ['/'])
    (member : step ∈ stepsFrom leading walked rest) :
    step.through ≠ [] ∧ step.through <+: walked ++ joinPieces '/' rest ∧
      ∃ done, done <+: rest ∧ solid step.through = solid walked ++ done.filter (· ≠ []) := by
  induction rest generalizing leading walked with
  | nil => exact absurd member List.not_mem_nil
  | cons part rest ih =>
    have here : solid (walked ++ part) = solid walked ++ [part].filter (· ≠ []) := by
      have own := solid_of_notMem (free part List.mem_cons_self)
      rcases edge with none | ⟨before, rfl⟩
      · rw [none, solid_nil, List.nil_append, List.nil_append, own]
      · rw [List.append_assoc, List.singleton_append, solid_append_slash, own,
          solid_append_slash, solid_nil, List.append_nil]
    have through_prefix : walked ++ part <+: walked ++ joinPieces '/' (part :: rest) := by
      cases rest with
      | nil => exact List.prefix_refl _
      | cons next rest =>
        exact (List.prefix_append_right_inj _).mpr (List.prefix_append _ _)
    have later : step ∈ stepsFrom false (walked ++ part ++ ['/']) rest →
        step.through ≠ [] ∧ step.through <+: walked ++ joinPieces '/' (part :: rest) ∧
          ∃ done, done <+: part :: rest ∧
            solid step.through = solid walked ++ done.filter (· ≠ []) := by
      intro inside
      obtain ⟨proper, on, done, first, reads⟩ := ih
        (fun piece there => free piece (List.mem_cons_of_mem _ there))
        (.inr ⟨walked ++ part, rfl⟩) inside
      refine ⟨proper, ?_, part :: done, List.cons_prefix_cons.mpr ⟨rfl, first⟩, ?_⟩
      · cases rest with
        | nil => exact absurd inside List.not_mem_nil
        | cons next rest =>
          have whole : walked ++ joinPieces '/' (part :: next :: rest) =
              walked ++ part ++ ['/'] ++ joinPieces '/' (next :: rest) := by
            rw [joinPieces]
            simp only [List.append_assoc, List.singleton_append]
          rw [whole]
          exact on
      · rw [reads, solid_append_slash, solid_nil, List.append_nil, here, List.append_assoc,
          ← List.filter_append, List.singleton_append]
    rw [stepsFrom] at member
    split at member
    · exact later member
    · next component read =>
      rcases List.mem_cons.mp member with first | inside
      · have proper : walked ++ part ≠ [] := by
          intro nothing
          rw [(List.append_eq_nil_iff.mp nothing).2, component?, if_pos rfl] at read
          cases read
        rw [first]
        exact ⟨proper, through_prefix, [part], List.cons_prefix_cons.mpr
          ⟨rfl, List.nil_prefix⟩, here⟩
      · exact later inside

/-- **A step of a path leads part of its way.** -/
theorem liesOn_of_mem_steps {step : Step} (member : step ∈ path.steps) :
    LiesOn ⟨String.ofList step.through⟩ path := by
  refine .inr ?_
  rw [isAbsolute, isAbsolute, parts, parts, String.toList_ofList]
  rw [steps] at member
  generalize path.text.toList = text at member ⊢
  unfold stepsOf at member
  split at member
  · next rest =>
    rcases List.mem_cons.mp member with first | inside
    · rw [first, solid_slash_cons, solid_nil]
      exact ⟨rfl, List.nil_prefix⟩
    · obtain ⟨proper, on, done, first, reads⟩ := stepsFrom_through
        (fun part there => Text.notMem_of_mem_pieces there) (.inr ⟨[], rfl⟩) inside
      rw [Text.join_pieces] at on
      constructor
      · obtain ⟨after, shape⟩ := on
        have heads := congrArg List.head? shape
        rw [head?_append_of_ne_nil proper] at heads
        rw [heads]
        rfl
      · rw [reads, List.nil_append, solid_slash_cons, solid_slash_cons, solid_nil,
          List.nil_append]
        exact first.filter _
  · obtain ⟨proper, on, done, first, reads⟩ := stepsFrom_through
      (fun part there => Text.notMem_of_mem_pieces there) (.inl rfl) member
    rw [Text.join_pieces, List.nil_append] at on
    constructor
    · obtain ⟨after, rfl⟩ := on
      rw [head?_append_of_ne_nil proper]
    · rw [reads, solid_nil, List.nil_append]
      exact first.filter _

theorem liesOn_empty (path : Path) : empty.LiesOn path := .inl rfl

/-- Paths reached by steps are empty or reached by one of them. -/
theorem mem_reachedAll {steps : List Step} (member : other ∈ reachedAll steps) :
    other = empty ∨ ∃ step ∈ steps, other = ⟨String.ofList step.through⟩ := by
  induction steps with
  | nil => exact .inl (List.mem_singleton.mp member)
  | cons last rest ih =>
    rw [reachedAll] at member
    split at member
    · exact .inr ⟨last, List.mem_cons_self, List.mem_singleton.mp member⟩
    · rcases List.mem_cons.mp member with here | above
      · exact .inr ⟨last, List.mem_cons_self, here⟩
      · rcases ih above with nothing | ⟨step, inside, reached⟩
        · exact .inl nothing
        · exact .inr ⟨step, List.mem_cons_of_mem _ inside, reached⟩

/-- The steps of the parents of a path are steps of it. -/
theorem mem_steps_of_ancestry {rest : List Step} (above : path.ancestry? = some rest) {step : Step}
    (member : step ∈ rest) : step ∈ path.steps := by
  unfold ancestry? at above
  split at above
  · cases above
  · next last init turned =>
    split at above
    · cases above
    · cases above
      exact List.mem_reverse.mp (turned ▸ List.mem_cons_of_mem _ member)

/-- **The parents of a path lead part of its way.** -/
theorem liesOn_of_mem_parents (member : other ∈ path.parents) : other.LiesOn path := by
  unfold parents at member
  split at member
  · exact absurd member List.not_mem_nil
  · next rest above =>
    rcases mem_reachedAll member with nothing | ⟨step, inside, rfl⟩
    · exact nothing ▸ liesOn_empty path
    · exact liesOn_of_mem_steps (mem_steps_of_ancestry above inside)

/-- The parent of a path leads part of its way. -/
theorem liesOn_of_parent? (above : path.parent? = some other) : other.LiesOn path := by
  obtain ⟨rest, found, reached⟩ := Option.map_eq_some_iff.mp above
  cases rest with
  | nil => exact reached ▸ liesOn_empty path
  | cons last init =>
    exact reached ▸ liesOn_of_mem_steps (mem_steps_of_ancestry found List.mem_cons_self)

theorem LiesOn.trans {first second third : Path} (left : first.LiesOn second)
    (right : second.LiesOn third) : first.LiesOn third := by
  rcases left with empty | ⟨begins, leads⟩
  · exact .inl empty
  · rcases right with nothing | ⟨starts, goes⟩
    · rw [isAbsolute_of_isEmpty nothing] at begins
      rw [parts_of_isEmpty nothing, List.prefix_nil] at leads
      exact .inl (isEmpty_of_parts begins leads)
    · exact .inr ⟨begins.trans starts, leads.trans goes⟩

end Path

end ShaderForge
