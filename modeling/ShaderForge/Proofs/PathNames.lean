/-
**The names in a path.**

What is read off the parts of a text one by one adds up where texts are joined at a slash
(`Reading.inText_append`). The names in a path are read so, which are its parts other than `.` and
`..`, and the ways that it leads, which are all parts but `.`. Components are read as the parts that
they come from (`names_eq`).

What is left of a path below another one has the names and leads the ways that are left
(`names_stripped?`, `ways_stripped?`): the text of it is cut out of the longer one between two
steps, and both ends are places where a component begins or ends (`steps_split`).
-/

import ShaderForge.Proofs.PathText

namespace ShaderForge.Path

open Text (pieces)

variable {α : Type} {path base rest : Path} {text walked : List Char} {leading : Bool}
  {parts : List (List Char)} {step : Step} {front back : List Step}

/-! ## Part 1 — what is read in a text -/

/-- **What is read off a path**, part by part or component by component. -/
structure Reading (α : Type) where
  ofPart : List Char → Option α
  ofComponent : Component → Option α
  agrees : ∀ leading part, part ≠ [] → (component? leading part).bind ofComponent = ofPart part
  root : ofComponent .root = none

namespace Reading

/-- What is read in a text, in order. -/
def inText (reading : Reading α) (text : List Char) : List α :=
  (solid text).filterMap reading.ofPart

/-- What is read among steps. -/
def inSteps (reading : Reading α) (steps : List Step) : List α :=
  steps.filterMap fun step => reading.ofComponent step.component

end Reading

/-- A text after which a part begins. -/
def Edge (text : List Char) : Prop := text = [] ∨ ∃ before, text = before ++ ['/']

namespace Reading

variable (reading : Reading α)

theorem inText_nil : reading.inText [] = [] := by
  rw [inText, solid_nil, List.filterMap_nil]

theorem inText_append_slash (before after : List Char) :
    reading.inText (before ++ '/' :: after) = reading.inText before ++ reading.inText after := by
  rw [inText, solid_append_slash, List.filterMap_append]
  rfl

/-- **Readings add up** where a part begins. -/
theorem inText_append (edge : Edge walked) (after : List Char) :
    reading.inText (walked ++ after) = reading.inText walked ++ reading.inText after := by
  rcases edge with rfl | ⟨before, rfl⟩
  · rw [List.nil_append, inText_nil, List.nil_append]
  · rw [List.append_assoc, List.singleton_append, inText_append_slash, inText_append_slash,
      inText_nil, List.append_nil]

/-- What a part that is a component adds to a reading. -/
theorem inText_of_component {part : List Char} (free : '/' ∉ part) :
    reading.inText part = ((component? leading part).bind reading.ofComponent).toList := by
  rw [inText, solid_of_notMem free]
  by_cases none : part = []
  · rw [List.filter_cons_of_neg (by simpa using none), component?, if_pos none]
    rfl
  · rw [List.filter_cons_of_pos (by simpa using none), reading.agrees leading part none,
      List.filter_nil, List.filterMap_cons]
    cases reading.ofPart part with
    | none => rfl
    | some item => rfl

theorem inSteps_cons (step : Step) (steps : List Step) : reading.inSteps (step :: steps) =
    (reading.ofComponent step.component).toList ++ reading.inSteps steps := by
  rw [inSteps, List.filterMap_cons]
  cases reading.ofComponent step.component with
  | none => rfl
  | some item => rfl

theorem inSteps_append (front back : List Step) :
    reading.inSteps (front ++ back) = reading.inSteps front ++ reading.inSteps back :=
  List.filterMap_append

/-- What is read off the pieces of a text. -/
theorem inSteps_stepsFrom : reading.inSteps (stepsFrom leading walked parts) =
    (parts.filter (· ≠ [])).filterMap reading.ofPart := by
  induction parts generalizing leading walked with
  | nil => rfl
  | cons part parts ih =>
    rw [stepsFrom]
    by_cases nothing : part = []
    · rw [List.filter_cons_of_neg (by simpa using nothing), component?, if_pos nothing]
      exact ih
    · rw [List.filter_cons_of_pos (by simpa using nothing), List.filterMap_cons,
        ← reading.agrees leading part nothing]
      cases component? leading part with
      | none => exact ih
      | some component =>
        dsimp only
        rw [inSteps_cons, ih, Option.bind_some]
        cases reading.ofComponent component with
        | none => rfl
        | some item => rfl

/-- **What is read off the steps of a path is what is read in its text.** -/
theorem inSteps_eq :
    reading.inSteps path.steps = reading.inText path.text.toList := by
  rw [steps, inText]
  generalize path.text.toList = text
  unfold stepsOf
  split
  · next rest =>
    rw [solid_slash_cons, inSteps_cons, reading.root]
    exact reading.inSteps_stepsFrom
  · exact reading.inSteps_stepsFrom

end Reading

/-! ## Part 2 — names and ways -/

/-- The name that a part of a path writes. -/
def nameOf? (part : List Char) : Option String :=
  if part = ['.'] ∨ part = ['.', '.'] then none else some (String.ofList part)

/-- **The names in a text**, in order. -/
def namesIn (text : List Char) : List String := (solid text).filterMap nameOf?

/-- The name that a component is. -/
def Component.name? : Component → Option String
  | .name text => some text
  | _ => none

/-- The names among steps. -/
def stepNames (steps : List Step) : List String :=
  steps.filterMap fun step => step.component.name?

/-- The part of a path that leads on or back. -/
def wayOf? (part : List Char) : Option (List Char) := if part = ['.'] then none else some part

/-- **The ways in a text**: its parts but `.`, in order. -/
def waysIn (text : List Char) : List (List Char) := (solid text).filterMap wayOf?

/-- The way that a component is. -/
def Component.way? : Component → Option (List Char)
  | .name text => some text.toList
  | .up => some ['.', '.']
  | _ => none

/-- Names are read off a path. -/
def nameReading : Reading String where
  ofPart := nameOf?
  ofComponent := Component.name?
  agrees leading part proper := by
    rw [component?, nameOf?, if_neg proper]
    by_cases here : part = ['.']
    · rw [if_pos here, if_pos (Or.inl here)]
      cases leading with
      | _ => rfl
    · by_cases up : part = ['.', '.']
      · rw [if_neg here, if_pos up, if_pos (Or.inr up)]
        rfl
      · rw [if_neg here, if_neg up, if_neg (not_or.mpr ⟨here, up⟩)]
        rfl
  root := rfl

/-- Ways are read off a path. -/
def wayReading : Reading (List Char) where
  ofPart := wayOf?
  ofComponent := Component.way?
  agrees leading part proper := by
    rw [component?, wayOf?, if_neg proper]
    by_cases here : part = ['.']
    · rw [if_pos here, if_pos here]
      cases leading with
      | _ => rfl
    · by_cases up : part = ['.', '.']
      · rw [if_neg here, if_pos up, if_neg here, up]
        rfl
      · rw [if_neg here, if_neg up, if_neg here]
        exact congrArg some (String.toList_ofList)
  root := rfl

theorem namesIn_append_slash (before after : List Char) :
    namesIn (before ++ '/' :: after) = namesIn before ++ namesIn after :=
  nameReading.inText_append_slash before after

/-! ## Part 3 — steps -/

theorem mem_stepsFrom (member : step ∈ stepsFrom leading walked parts) :
    walked <+: step.before ∧ step.before <+: step.through := by
  induction parts generalizing leading walked with
  | nil => exact absurd member List.not_mem_nil
  | cons part parts ih =>
    have later : step ∈ stepsFrom false (walked ++ part ++ ['/']) parts →
        walked <+: step.before ∧ step.before <+: step.through := by
      intro inside
      obtain ⟨on, through⟩ := ih inside
      rw [List.append_assoc] at on
      exact ⟨(List.prefix_append _ _).trans on, through⟩
    rw [stepsFrom] at member
    split at member
    · exact later member
    · rcases List.mem_cons.mp member with rfl | inside
      · exact ⟨List.prefix_refl _, List.prefix_append _ _⟩
      · exact later inside

/-- A step but the root goes through one more part. -/
theorem exists_part (free : ∀ part ∈ parts, '/' ∉ part)
    (member : step ∈ stepsFrom leading walked parts) :
    ∃ part, step.through = step.before ++ part ∧ part ≠ [] ∧ '/' ∉ part := by
  induction parts generalizing leading walked with
  | nil => exact absurd member List.not_mem_nil
  | cons part parts ih =>
    have later : ∀ {walked}, step ∈ stepsFrom false walked parts →
        ∃ part, step.through = step.before ++ part ∧ part ≠ [] ∧ '/' ∉ part :=
      ih fun piece there => free piece (List.mem_cons_of_mem _ there)
    rw [stepsFrom] at member
    split at member
    · exact later member
    · next component read =>
      rcases List.mem_cons.mp member with rfl | inside
      · refine ⟨part, rfl, ?_, free part List.mem_cons_self⟩
        rintro rfl
        cases read
      · exact later inside

/-- **One step among others**: it begins where a part begins, its text is read as the steps through
it, and the later steps go on from there. -/
structure Splits (reading : Reading α) (walked : List Char) (front : List Step) (step : Step)
    (back : List Step) : Prop where
  edge : Edge step.before
  own : step.before <+: step.through
  before : reading.inText step.before = reading.inText walked ++ reading.inSteps front
  through : reading.inText step.through = reading.inText step.before ++ reading.inSteps [step]
  later : ∀ other ∈ back, step.through <+: other.through

section Splits

variable (reading : Reading α)

theorem stepsFrom_split (free : ∀ part ∈ parts, '/' ∉ part) (edge : Edge walked)
    (shape : stepsFrom leading walked parts = front ++ step :: back) :
    Splits reading walked front step back := by
  induction parts generalizing leading walked front with
  | nil => exact absurd shape.symm (by rw [stepsFrom]; simp)
  | cons part parts ih =>
    have adds : reading.inText (walked ++ part ++ ['/']) =
        reading.inText walked ++ ((component? leading part).bind reading.ofComponent).toList := by
      rw [reading.inText_append_slash, reading.inText_nil, List.append_nil,
        reading.inText_append edge, reading.inText_of_component (free part List.mem_cons_self)]
    have onward : ∀ {front : List Step},
        stepsFrom false (walked ++ part ++ ['/']) parts = front ++ step :: back →
          Splits reading (walked ++ part ++ ['/']) front step back := fun shape =>
      ih (fun piece there => free piece (List.mem_cons_of_mem _ there)) (.inr ⟨_, rfl⟩) shape
    rw [stepsFrom] at shape
    split at shape
    · next nothing =>
      rw [nothing] at adds
      have split := onward shape
      refine ⟨split.edge, split.own, ?_, split.through, split.later⟩
      rw [split.before, adds]
      exact congrArg (· ++ _) (List.append_nil _)
    · next component read =>
      rw [read] at adds
      cases front with
      | nil =>
        rw [List.nil_append, List.cons.injEq] at shape
        obtain ⟨rfl, rfl⟩ := shape
        refine ⟨edge, List.prefix_append _ _, (List.append_nil _).symm, ?_, fun other among => ?_⟩
        · show reading.inText (walked ++ part) = reading.inText walked ++ _
          rw [reading.inText_append edge,
            reading.inText_of_component (free part List.mem_cons_self), read]
          rw [reading.inSteps_cons]
          exact congrArg _ (List.append_nil _).symm
        · obtain ⟨on, through⟩ := mem_stepsFrom among
          exact (List.prefix_append _ _).trans (on.trans through)
      | cons first front =>
        rw [List.cons_append, List.cons.injEq] at shape
        obtain ⟨rfl, shape⟩ := shape
        have split := onward shape
        refine ⟨split.edge, split.own, ?_, split.through, split.later⟩
        rw [split.before, adds, List.append_assoc, reading.inSteps_cons]
        rfl

/-- One step of a path among the others. -/
theorem steps_split (shape : path.steps = front ++ step :: back) :
    Splits reading [] front step back := by
  rw [steps] at shape
  generalize path.text.toList = text at shape
  have free : ∀ {text : List Char}, ∀ part ∈ pieces '/' text, '/' ∉ part :=
    fun part there => Text.notMem_of_mem_pieces there
  unfold stepsOf at shape
  split at shape
  · next rest =>
    cases front with
    | nil =>
      rw [List.nil_append, List.cons.injEq] at shape
      obtain ⟨rfl, rfl⟩ := shape
      refine ⟨.inl rfl, List.nil_prefix, (List.append_nil _).symm, ?_, fun other among => ?_⟩
      · rw [reading.inSteps_cons, reading.root]
        exact reading.inText_append_slash [] []
      · exact (mem_stepsFrom among).1.trans (mem_stepsFrom among).2
    | cons first front =>
      rw [List.cons_append, List.cons.injEq] at shape
      obtain ⟨rfl, shape⟩ := shape
      have split := stepsFrom_split reading free (.inr ⟨[], rfl⟩) shape
      refine ⟨split.edge, split.own, ?_, split.through, split.later⟩
      rw [split.before, reading.inSteps_cons, reading.root]
      exact congrArg (· ++ _) (reading.inText_append_slash [] [])
  · exact stepsFrom_split reading free (.inl rfl) shape

end Splits

/-! ## Part 4 — what is left of a path -/

theorem stepsAfter_eq_some {names : List Component} {steps left : List Step}
    (after : stepsAfter names steps = some left) :
    ∃ front, steps = front ++ left ∧ front.map Step.component = names := by
  induction names generalizing steps with
  | nil => exact ⟨[], Option.some.inj after, rfl⟩
  | cons name names ih =>
    cases steps with
    | nil => cases after
    | cons step steps =>
      rw [stepsAfter] at after
      split at after
      · next same =>
        obtain ⟨front, shape, reads⟩ := ih after
        exact ⟨step :: front, congrArg (step :: ·) shape, by rw [List.map_cons, reads, same]⟩
      · cases after

/-- **The text that the last steps of a path cover** begins where the first of them does, and ends
with the last. -/
theorem before_covered (shape : path.steps = front ++ step :: back) :
    ∃ init last, step :: back = init ++ [last] ∧ step.through <+: last.through ∧
      step.before ++ (covered (step :: back)).text.toList = last.through := by
  obtain ⟨init, last, whole⟩ := List.eq_nil_or_concat (step :: back) |>.resolve_left (by simp)
  rw [List.concat_eq_append] at whole
  have ends : (step :: back).getLast? = some last := by rw [whole, List.getLast?_concat]
  have begins := steps_split nameReading shape
  have on : step.through <+: last.through := by
    cases back with
    | nil =>
      cases ends
      exact List.prefix_refl _
    | cons next back =>
      refine begins.later last ?_
      rw [List.getLast?_cons_cons] at ends
      exact List.mem_of_getLast? ends
  refine ⟨init, last, whole, on, ?_⟩
  obtain ⟨cut, joined⟩ := begins.own.trans on
  rw [covered, ends]
  show step.before ++ (String.ofList (last.through.drop step.before.length)).toList = last.through
  rw [String.toList_ofList, ← joined, List.drop_left]

/-- What the last steps of a path cover is read as they are. -/
theorem Reading.inText_covered (reading : Reading α) (shape : path.steps = front ++ back) :
    reading.inText (covered back).text.toList = reading.inSteps back := by
  cases back with
  | nil => exact reading.inText_nil
  | cons first more =>
    obtain ⟨init, last, whole, -, joined⟩ := before_covered shape
    have begins := steps_split reading shape
    have finishes : Splits reading [] (front ++ init) last [] := by
      refine steps_split reading (shape.trans ?_)
      rw [whole, List.append_assoc]
    have total : reading.inText (first.before ++ (covered (first :: more)).text.toList) =
        reading.inSteps (front ++ (first :: more)) := by
      rw [joined, finishes.through, finishes.before, reading.inText_nil, List.nil_append,
        ← reading.inSteps_append, List.append_assoc, whole]
    rw [reading.inText_append begins.edge, begins.before, reading.inText_nil, List.nil_append,
      reading.inSteps_append] at total
    exact List.append_cancel_left total

/-- **What is left of a path below another one is read as what is left.** -/
theorem Reading.inText_stripped? (reading : Reading α) (left : path.stripped? base = some rest) :
    reading.inText path.text.toList =
      reading.inText base.text.toList ++ reading.inText rest.text.toList := by
  obtain ⟨steps, after, rfl⟩ := Option.map_eq_some_iff.mp left
  obtain ⟨front, shape, reads⟩ := stepsAfter_eq_some after
  have same : reading.inSteps front = reading.inSteps base.steps := by
    have both := congrArg (List.filterMap reading.ofComponent) reads
    rw [List.filterMap_map, components, List.filterMap_map] at both
    exact both
  rw [reading.inText_covered shape, ← reading.inSteps_eq, ← reading.inSteps_eq, shape,
    reading.inSteps_append, same]

theorem names_eq_stepNames : path.names = stepNames path.steps := by
  rw [names, components, List.filterMap_map]
  refine congrArg (List.filterMap · path.steps) (funext fun step => ?_)
  show (match step.component with | .name text => some text | _ => none) = step.component.name?
  cases step.component with
  | _ => rfl

theorem stepNames_append : stepNames (front ++ back) = stepNames front ++ stepNames back :=
  nameReading.inSteps_append front back

/-- **The names in a path are those in its text.** -/
theorem names_eq : path.names = namesIn path.text.toList :=
  names_eq_stepNames.trans nameReading.inSteps_eq

/-- **A name in a path** is a part of it, and neither `.` nor `..`. -/
theorem mem_names {name : String} (among : name ∈ path.names) :
    '/' ∉ name.toList ∧ name.toList ≠ [] ∧ name.toList ≠ ['.'] ∧ name.toList ≠ ['.', '.'] := by
  rw [names_eq] at among
  obtain ⟨part, member, read⟩ := List.mem_filterMap.mp among
  unfold nameOf? at read
  split at read
  · cases read
  · next proper =>
    cases read
    rw [String.toList_ofList]
    exact ⟨notMem_of_mem_solid member, ne_nil_of_mem_solid member, not_or.mp proper⟩

/-- **What is left of a path below another one has the names that are left.** -/
theorem names_stripped? (left : path.stripped? base = some rest) :
    path.names = base.names ++ rest.names := by
  rw [names_eq, names_eq, names_eq]
  exact nameReading.inText_stripped? left

end ShaderForge.Path
