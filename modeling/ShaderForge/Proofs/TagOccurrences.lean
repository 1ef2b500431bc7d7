/-
**Every tag of a text is found.**

The blocks of compiler output are cut by a scan that looks a few characters ahead of each opening
bracket and goes on behind what it found. What it finds can be said without the scan: an
*occurrence* of a tag is a place where the name of a tag stands in square brackets, in any case
(`Mark.StandsIn`). Whatever else the text holds, brackets that open nothing and tags that were begun
and not finished included, the scan finds exactly the occurrences, in order:

* `standsIn_tag`: behind the bracket that opens a tag the next occurrence begins after the tag, so
  that going on there skips none;
* `exists_cutAt`: along the scan, the marks of what is left of a text are those of the whole, moved;
* `blocks_exact`: **one block per occurrence**, with what stands between it and the next one.
-/

import ShaderForge.Proofs.LocatedItems

namespace ShaderForge

/-! ## Part 1 — occurrences -/

/-- **The place of a tag in a text**: from its opening bracket up to what follows the closing
one. -/
structure Mark where
  start : Nat
  tag : Tag
  stop : Nat
deriving DecidableEq

namespace Mark

/-- **An occurrence of a tag**: its name in square brackets, in any case. -/
def StandsIn (mark : Mark) (text : List Char) : Prop :=
  ∃ before name after, text = before ++ '[' :: (name ++ ']' :: after) ∧
    name.map Char.toUpper = mark.tag.name.toList ∧
    mark.start = before.length ∧ mark.stop = before.length + name.length + 2

/-- The same place behind a stretch of text. -/
def shift (front : Nat) (mark : Mark) : Mark := ⟨front + mark.start, mark.tag, front + mark.stop⟩

theorem StandsIn.start_lt_stop {mark : Mark} {text : List Char} (stands : mark.StandsIn text) :
    mark.start < mark.stop := by
  obtain ⟨before, name, after, -, -, starts, stops⟩ := stands
  omega

/-- An occurrence behind a stretch of text is one of what follows the stretch. -/
theorem standsIn_shift {mark : Mark} {front text : List Char} :
    (mark.shift front.length).StandsIn (front ++ text) ↔ mark.StandsIn text := by
  constructor
  · rintro ⟨before, name, after, whole, named, starts, stops⟩
    dsimp only [shift] at named starts stops
    have reaches : front <+: before := by
      have start : front <+: front ++ text := List.prefix_append _ _
      refine List.prefix_of_prefix_length_le start ?_ (by omega)
      rw [whole]
      exact List.prefix_append _ _
    obtain ⟨middle, rfl⟩ := reaches
    rw [List.append_assoc, List.append_cancel_left_eq] at whole
    rw [List.length_append] at starts stops
    exact ⟨middle, name, after, whole, named, by omega, by omega⟩
  · rintro ⟨before, name, after, rfl, named, starts, stops⟩
    refine ⟨front ++ before, name, after, (List.append_assoc _ _ _).symm, named, ?_, ?_⟩ <;>
      dsimp only [shift] <;> rw [List.length_append] <;> omega

/-- **The occurrences behind a stretch of text** are those of what follows it, moved. -/
theorem mem_shift_iff {text : List Char} {marks : List Mark}
    (exact : ∀ mark, mark ∈ marks ↔ mark.StandsIn text) (front : List Char) (mark : Mark) :
    mark ∈ marks.map (shift front.length) ↔
      mark.StandsIn (front ++ text) ∧ front.length ≤ mark.start := by
  constructor
  · intro member
    obtain ⟨other, among, rfl⟩ := List.mem_map.mp member
    exact ⟨standsIn_shift.mpr ((exact other).mp among), Nat.le_add_right _ _⟩
  · rintro ⟨stands, behind⟩
    have ordered := stands.start_lt_stop
    have moved : shift front.length ⟨mark.start - front.length, mark.tag,
        mark.stop - front.length⟩ = mark := by
      cases mark
      simp only [shift, mk.injEq, true_and] at ordered behind ⊢
      omega
    rw [← moved, standsIn_shift] at stands
    exact List.mem_map.mpr ⟨_, (exact _).mpr stands, moved⟩

end Mark

/-- An occurrence begins with an opening bracket. -/
theorem Mark.StandsIn.start_pos {mark : Mark} {c : Char} {text : List Char}
    (stands : mark.StandsIn (c :: text)) (none : c = '[' → tagAt? text = none) :
    0 < mark.start := by
  obtain ⟨before, name, after, whole, named, starts, -⟩ := stands
  cases before with
  | nil =>
    obtain ⟨rfl, rfl⟩ := List.cons.inj whole
    have here := tagAt?_name (Tag.ofName?_eq_some_iff.mpr named) after
    rw [none rfl] at here
    cases here
  | cons d before =>
    rw [starts]
    exact Nat.succ_pos _

/-- **Behind the bracket that opens a tag** the next occurrence begins after the tag. -/
theorem standsIn_tag {name rest : List Char} {tag : Tag} (named : Tag.ofName? name = some tag)
    {mark : Mark} (stands : mark.StandsIn ('[' :: (name ++ ']' :: rest))) :
    mark = ⟨0, tag, name.length + 2⟩ ∨ name.length + 2 ≤ mark.start := by
  obtain ⟨before, other, after, whole, named', starts, stops⟩ := stands
  cases before with
  | nil =>
    refine .inl ?_
    have same := (List.cons.inj whole).2
    have here := tagAt?_name named rest
    rw [same, tagAt?_name (Tag.ofName?_eq_some_iff.mpr named') after] at here
    cases here
    rw [List.append_cancel_right_eq] at same
    cases mark
    simp_all
  | cons c before =>
    refine .inr ?_
    have same := (List.cons.inj whole).2
    rw [List.length_cons] at starts
    by_contra inside
    -- An occurrence inside the tag would have its opening bracket among the letters of the name.
    have within : before ++ ['['] <+: name ++ [']'] := by
      have front : before ++ ['['] <+: name ++ ']' :: rest := by
        rw [same]
        exact ⟨other ++ ']' :: after, by simp⟩
      exact List.prefix_of_prefix_length_le front ⟨rest, by simp⟩ (by simp; omega)
    have among : '[' ∈ name ++ [']'] :=
      within.subset (List.mem_append_right _ List.mem_cons_self)
    rcases List.mem_append.mp among with inName | sign
    · exact not_mem_of_ofName? named (by cases tag <;> decide) inName
    · exact absurd sign (by decide)

/-! ## Part 2 — a text cut at its occurrences -/

/-- Where the first of some marks begins, or the end of the text. -/
def firstStart (text : List Char) : List Mark → Nat
  | [] => text.length
  | mark :: _ => mark.start

/-- **What stands between marks**: from the end of each to the start of the next one, or to the end
of the text. -/
def bodiesBetween (text : List Char) : List Mark → List Block
  | [] => []
  | mark :: later =>
    ⟨mark.tag, (text.take (firstStart text later)).drop mark.stop⟩ :: bodiesBetween text later

theorem firstStart_shift (front text : List Char) (marks : List Mark) :
    firstStart (front ++ text) (marks.map (Mark.shift front.length)) =
      front.length + firstStart text marks := by
  cases marks with
  | nil => exact List.length_append
  | cons mark later => rfl

theorem take_firstStart_shift (front text : List Char) (marks : List Mark) :
    (front ++ text).take (firstStart (front ++ text) (marks.map (Mark.shift front.length))) =
      front ++ text.take (firstStart text marks) := by
  rw [firstStart_shift, List.take_length_add_append]

theorem bodiesBetween_shift (front text : List Char) (marks : List Mark) :
    bodiesBetween (front ++ text) (marks.map (Mark.shift front.length)) =
      bodiesBetween text marks := by
  induction marks with
  | nil => rfl
  | cons mark later ih =>
    rw [List.map_cons, bodiesBetween, bodiesBetween, ih, take_firstStart_shift, Mark.shift,
      List.drop_length_add_append]

/-- **The marks of a text**: all occurrences of tags in it, in order, and the text is cut at
them. -/
structure CutAt (text : List Char) (marks : List Mark) : Prop where
  apart : marks.Pairwise fun mark next => mark.stop ≤ next.start
  exact : ∀ mark, mark ∈ marks ↔ mark.StandsIn text
  before : (cut text).1 = text.take (firstStart text marks)
  bodies : (cut text).2 = bodiesBetween text marks

theorem CutAt.nil : CutAt [] [] where
  apart := List.Pairwise.nil
  exact mark := by
    constructor
    · intro member
      cases member
    · rintro ⟨before, name, after, whole, -⟩
      simp at whole
  before := by rw [cut]; rfl
  bodies := by rw [cut]; rfl

theorem apart_shift {marks : List Mark} (front : Nat)
    (apart : marks.Pairwise fun mark next => mark.stop ≤ next.start) :
    (marks.map (Mark.shift front)).Pairwise fun mark next => mark.stop ≤ next.start := by
  refine List.pairwise_map.mpr (apart.imp fun ordered => ?_)
  exact Nat.add_le_add_left ordered front

/-- A character that opens no tag belongs to the text before it, or to what is before all tags. -/
theorem CutAt.cons {c : Char} {text : List Char} {marks : List Mark} (rest : CutAt text marks)
    (none : c = '[' → tagAt? text = none)
    (step : cut (c :: text) = (c :: (cut text).1, (cut text).2)) :
    CutAt (c :: text) (marks.map (Mark.shift 1)) where
  apart := apart_shift 1 rest.apart
  exact mark := by
    refine (Mark.mem_shift_iff rest.exact [c] mark).trans (and_iff_left_of_imp fun stands => ?_)
    exact stands.start_pos none
  before := by
    have moved := take_firstStart_shift [c] text marks
    rw [step, rest.before]
    exact moved.symm
  bodies := by
    rw [step, rest.bodies]
    exact (bodiesBetween_shift [c] text marks).symm

/-- A tag is the first occurrence, and the next ones begin behind it. -/
theorem CutAt.tag {name text : List Char} {tag : Tag} {marks : List Mark} (rest : CutAt text marks)
    (named : Tag.ofName? name = some tag) :
    CutAt ('[' :: (name ++ ']' :: text))
      (⟨0, tag, name.length + 2⟩ :: marks.map (Mark.shift (name.length + 2))) := by
  obtain ⟨front, whole, size⟩ : ∃ front, '[' :: (name ++ ']' :: text) = front ++ text ∧
      front.length = name.length + 2 := ⟨'[' :: (name ++ [']']), by simp, by simp⟩
  have exact := Mark.mem_shift_iff rest.exact front
  have bodies := bodiesBetween_shift front text marks
  have body := take_firstStart_shift front text marks
  rw [← whole, size] at exact bodies body
  refine ⟨List.Pairwise.cons ?_ (apart_shift _ rest.apart), fun mark => ?_, ?_, ?_⟩
  · intro mark member
    exact ((exact mark).mp member).2
  · rw [List.mem_cons, exact mark]
    constructor
    · rintro (rfl | ⟨stands, -⟩)
      · exact ⟨[], name, text, rfl, Tag.ofName?_eq_some_iff.mp named, rfl, by simp⟩
      · exact stands
    · intro stands
      exact (standsIn_tag named stands).imp id fun behind => ⟨stands, behind⟩
  · rw [cut_tag named]
    rfl
  · rw [cut_tag named, bodiesBetween, bodies, body, rest.before, rest.bodies, ← size,
      List.drop_left]

/-- **The scan stops at every occurrence** and at nothing else. -/
theorem exists_cutAt (text : List Char) : ∃ marks, CutAt text marks := by
  fun_induction cut text with
  | case1 => exact ⟨[], CutAt.nil⟩
  | case2 text tag rest here parts ih =>
    obtain ⟨marks, exact⟩ := ih
    obtain ⟨name, rfl, named⟩ := tagAt?_eq_some here
    exact ⟨_, exact.tag named⟩
  | case3 text none parts ih =>
    obtain ⟨marks, exact⟩ := ih
    refine ⟨_, exact.cons (fun _ => none) ?_⟩
    rw [cut, if_pos rfl]
    split
    · next tag rest here =>
      rw [none] at here
      cases here
    · rfl
  | case4 c text other parts ih =>
    obtain ⟨marks, exact⟩ := ih
    exact ⟨_, exact.cons (fun same => absurd same other) (cut_cons text other)⟩

/-- **One block for each occurrence of a tag**, in order, with what stands between it and the next
one, and no other block. -/
theorem blocks_exact (text : String) :
    ∃ marks : List Mark, marks.Pairwise (fun mark next => mark.stop ≤ next.start) ∧
      (∀ mark, mark ∈ marks ↔ mark.StandsIn text.toList) ∧
      blocks text = (bodiesBetween text.toList marks).map Block.trimmed := by
  obtain ⟨marks, exact⟩ := exists_cutAt text.toList
  refine ⟨marks, exact.apart, exact.exact, ?_⟩
  rw [blocks, exact.bodies]
  rfl

end ShaderForge
