/-
**The compiler's part of a log, line by line.**

A log is cut into lines, each with the newline that ends it, in one way only (`LinesOf`,
`linesOf_iff`). A line holds a marker if the marker stands somewhere in it, in any case
(`LineHas`). The first line with the begin marker opens the compiler's part, and the first later
one with the end marker closes it; without the one the part is the whole log, and without the other
it goes on to the end (`CompilerPart`). A line closes nothing that it opens, and what is open is not
opened again.

The lines are read in one pass, which knows how many bytes it has passed and where the part was
opened. The two states of the pass are two lemmas, each by induction on the lines that are left
(`scanLines_opened`, `scanLines_unopened`): the offset is always that behind the lines that were
read, and what the pass cuts out is what stands between two such offsets.

`outputBlock_exact` says that exactly the compiler's part is taken out of a log, as the text between
two byte offsets: the sizes of the lines up to its beginning and up to its end. Both fall between
two characters of the log.
-/

import Mathlib.Data.List.Infix
import Mathlib.Data.String.Basic
import ShaderForge.OutputBlock

namespace ShaderForge

/-! ## Part 1 — lines -/

/-- A line that is ended by its newline. -/
def IsEnded (line : List Char) : Prop := ∃ content, line = content ++ ['\n'] ∧ '\n' ∉ content

/-- **The lines of a text**, each with the newline that ends it. Only the last one may be without,
and then it is not empty. -/
inductive LinesOf : List Char → List (List Char) → Prop
  | nil : LinesOf [] []
  | last {line : List Char} (some_text : line ≠ []) (plain : '\n' ∉ line) : LinesOf line [line]
  | cons {line text : List Char} {lines : List (List Char)} (ended : IsEnded line)
    (later : LinesOf text lines) : LinesOf (line ++ text) (line :: lines)

variable {text line : List Char} {lines : List (List Char)}

theorem linesOf_linesKept (text : List Char) : LinesOf text (Text.linesKept text) := by
  induction text with
  | nil => exact .nil
  | cons c text ih =>
    rw [Text.linesKept]
    split
    · next newline =>
      rw [newline]
      exact .cons ⟨[], rfl, List.not_mem_nil⟩ ih
    · next other =>
      -- The character joins the first line of what follows, or is a line of its own.
      generalize Text.linesKept text = lines at ih
      cases ih with
      | nil => exact .last (by simp) (by simp [Ne.symm other])
      | last some_text plain => exact .last (by simp) (by simp [Ne.symm other, plain])
      | cons ended later =>
        obtain ⟨content, rfl, plain⟩ := ended
        exact .cons ⟨c :: content, rfl, by simp [Ne.symm other, plain]⟩ later

theorem linesKept_cons {c : Char} (other : c ≠ '\n') (text : List Char) :
    Text.linesKept (c :: text) =
      match Text.linesKept text with
      | [] => [[c]]
      | line :: more => (c :: line) :: more := by
  rw [Text.linesKept]
  exact if_neg other

/-- A line that is ended is cut off at its newline. -/
theorem linesKept_ended (ended : IsEnded line) (text : List Char) :
    Text.linesKept (line ++ text) = line :: Text.linesKept text := by
  obtain ⟨content, rfl, plain⟩ := ended
  induction content with
  | nil => rfl
  | cons c content ih =>
    have other : c ≠ '\n' := fun same => plain (same ▸ List.mem_cons_self)
    rw [List.cons_append, List.cons_append, linesKept_cons other,
      ih fun inside => plain (List.mem_cons_of_mem _ inside)]

/-- Text without a newline is one line. -/
theorem linesKept_last (some_text : line ≠ []) (plain : '\n' ∉ line) :
    Text.linesKept line = [line] := by
  induction line with
  | nil => exact absurd rfl some_text
  | cons c line ih =>
    have other : c ≠ '\n' := fun same => plain (same ▸ List.mem_cons_self)
    rw [linesKept_cons other]
    cases line with
    | nil => rfl
    | cons next line =>
      rw [ih (by simp) fun inside => plain (List.mem_cons_of_mem _ inside)]

/-- **A text is cut into lines in one way.** -/
theorem linesOf_iff : LinesOf text lines ↔ lines = Text.linesKept text := by
  constructor
  · intro cut
    induction cut with
    | nil => rfl
    | last some_text plain => exact (linesKept_last some_text plain).symm
    | cons ended later ih => rw [linesKept_ended ended, ih]
  · rintro rfl
    exact linesOf_linesKept text

/-! ## Part 2 — markers -/

theorem occurs_iff (pattern text : List Char) :
    Text.occurs pattern text = true ↔ pattern <:+: text := by
  induction text with
  | nil => rw [Text.occurs, List.isEmpty_iff, List.infix_nil]
  | cons c text ih =>
    rw [Text.occurs, Bool.or_eq_true, ih, List.isPrefixOf_iff_prefix, List.infix_cons_iff]

/-- **A line that holds a marker**, in any case, wherever it stands in the line. -/
def LineHas (marker : String) (line : List Char) : Prop :=
  ∃ before word after, line = before ++ word ++ after ∧ word.map Char.toLower = marker.toList

theorem marks_iff {marker : String} : marks marker line = true ↔ LineHas marker line := by
  rw [marks, occurs_iff]
  constructor
  · rintro ⟨before, after, whole⟩
    obtain ⟨rest, after', same, split, -⟩ := List.map_eq_append_iff.mp whole.symm
    obtain ⟨before', word, rfl, -, named⟩ := List.map_eq_append_iff.mp split
    exact ⟨before', word, after', same, named⟩
  · rintro ⟨before, word, after, rfl, named⟩
    exact ⟨before.map Char.toLower, after.map Char.toLower, by simp [named]⟩

/-- **What is the compiler's among the lines of a log**, and what stands before and after it. -/
inductive CompilerPart : List (List Char) → (front part back : List (List Char)) → Prop
  | unmarked {lines : List (List Char)} (never : ∀ line ∈ lines, ¬ LineHas beginMarker line) :
    CompilerPart lines [] lines []
  | closed {before part after : List (List Char)} {opening closing : List Char}
    (never : ∀ line ∈ before, ¬ LineHas beginMarker line)
    (begins : LineHas beginMarker opening)
    (within : ∀ line ∈ part, ¬ LineHas endMarker line) (ends : LineHas endMarker closing) :
    CompilerPart (before ++ opening :: (part ++ closing :: after))
      (before ++ [opening]) part (closing :: after)
  | unclosed {before part : List (List Char)} {opening : List Char}
    (never : ∀ line ∈ before, ¬ LineHas beginMarker line)
    (begins : LineHas beginMarker opening)
    (within : ∀ line ∈ part, ¬ LineHas endMarker line) :
    CompilerPart (before ++ opening :: part) (before ++ [opening]) part []

variable {front part back : List (List Char)}

theorem CompilerPart.whole (parts : CompilerPart lines front part back) :
    lines = front ++ part ++ back := by
  cases parts with
  | unmarked never => simp
  | closed never begins within ends => simp
  | unclosed never begins within => simp

/-! ## Part 3 — byte offsets -/

/-- The offset behind some lines: how many bytes they take. -/
def offsetBehind (lines : List (List Char)) : String.Pos.Raw :=
  ⟨(String.ofList lines.flatten).utf8ByteSize⟩

/-- **The offset behind the first lines of a text** falls between two of its characters. -/
theorem isValid_offsetBehind (log : String)
    (whole : log.toList = front.flatten ++ back.flatten) :
    (offsetBehind front).IsValid log := by
  refine String.Pos.Raw.isValid_iff_exists_append.mpr
    ⟨String.ofList front.flatten, String.ofList back.flatten, ?_, rfl⟩
  rw [← String.ofList_append, ← whole, String.ofList_toList]

/-- **The text between two offsets** is that of the lines between them. -/
theorem extract_offsetBehind (log : String)
    (whole : log.toList = front.flatten ++ part.flatten ++ back.flatten) :
    String.Pos.Raw.extract log (offsetBehind front) (offsetBehind (front ++ part)) =
      String.ofList part.flatten := by
  have size : ∀ lines : List (List Char),
      offsetBehind lines = ⟨String.utf8Len lines.flatten⟩ := by
    intro lines
    rw [offsetBehind, ← String.utf8Len_toList, String.toList_ofList]
  rw [size, size, List.flatten_append, String.utf8Len_append, ← String.ofList_toList (s := log),
    whole]
  exact String.extract_of_valid _ _ _

theorem offsetBehind_concat (lines : List (List Char)) (line : List Char) :
    offsetBehind (lines ++ [line]) = offsetBehind lines + String.ofList line := by
  rw [offsetBehind, List.flatten_append, String.ofList_append]
  simp [offsetBehind, String.Pos.Raw.ext_iff]

/-- The offset behind all lines of a text is its end. -/
theorem offsetBehind_all {log : String} (whole : log.toList = lines.flatten) :
    offsetBehind lines = log.rawEndPos := by
  rw [offsetBehind, ← whole, String.ofList_toList]
  rfl

/-! ## Part 4 — the pass over the lines -/

/-- **Once the compiler's part is open**, the pass takes it up to the first line that closes it, or
to the end. -/
theorem scanLines_opened {log : String} {before rest : List (List Char)} {opening : List Char}
    (part : List (List Char)) (whole : log.toList = (before ++ opening :: (part ++ rest)).flatten)
    (never : ∀ line ∈ before, ¬ LineHas beginMarker line) (begins : LineHas beginMarker opening)
    (within : ∀ line ∈ part, ¬ LineHas endMarker line) :
    ∃ taken back,
      CompilerPart (before ++ opening :: (part ++ rest)) (before ++ [opening]) taken back ∧
      scanLines log (some (offsetBehind (before ++ [opening])))
          (offsetBehind (before ++ [opening] ++ part)) rest =
        String.Pos.Raw.extract log (offsetBehind (before ++ [opening]))
          (offsetBehind (before ++ [opening] ++ taken)) := by
  induction rest generalizing part with
  | nil =>
    rw [List.append_nil] at whole ⊢
    refine ⟨part, [], .unclosed never begins within, ?_⟩
    rw [List.append_cons] at whole
    rw [scanLines, offsetBehind_all whole]
  | cons line rest ih =>
    rw [scanLines]
    split
    · next marked =>
      exact ⟨part, line :: rest, .closed never begins within (marks_iff.mp marked), rfl⟩
    · next unmarked =>
      rw [marks_iff] at unmarked
      have still : ∀ other ∈ part ++ [line], ¬ LineHas endMarker other :=
        List.forall_mem_append.mpr ⟨within, List.forall_mem_singleton.mpr unmarked⟩
      rw [List.append_cons part line rest] at whole ⊢
      rw [← offsetBehind_concat, List.append_assoc (before ++ [opening])]
      exact ih (part ++ [line]) whole still

/-- **Before the compiler's part is open**, the pass looks for the first line that opens it. -/
theorem scanLines_unopened {log : String} {rest : List (List Char)} (before : List (List Char))
    (whole : log.toList = (before ++ rest).flatten)
    (never : ∀ line ∈ before, ¬ LineHas beginMarker line) :
    ∃ front part back, CompilerPart (before ++ rest) front part back ∧
      scanLines log none (offsetBehind before) rest =
        String.Pos.Raw.extract log (offsetBehind front) (offsetBehind (front ++ part)) := by
  induction rest generalizing before with
  | nil =>
    rw [List.append_nil] at whole ⊢
    have all : log.toList = [].flatten ++ before.flatten ++ [].flatten := by simpa using whole
    refine ⟨[], before, [], .unmarked never, ?_⟩
    rw [extract_offsetBehind log all, ← whole, String.ofList_toList, scanLines]
  | cons line rest ih =>
    rw [scanLines, ← offsetBehind_concat]
    split
    · next marked =>
      obtain ⟨part, back, parts, taken⟩ :=
        scanLines_opened [] whole never (marks_iff.mp marked) (by simp)
      rw [List.append_nil] at taken
      exact ⟨before ++ [line], part, back, parts, taken⟩
    · next unmarked =>
      rw [marks_iff] at unmarked
      have still : ∀ other ∈ before ++ [line], ¬ LineHas beginMarker other :=
        List.forall_mem_append.mpr ⟨never, List.forall_mem_singleton.mpr unmarked⟩
      rw [List.append_cons] at whole ⊢
      exact ih (before ++ [line]) whole still

/-- **The compiler's part is what is taken out of a log.** -/
theorem exists_compilerPart (log : String) :
    ∃ front part back, CompilerPart (Text.linesKept log.toList) front part back ∧
      outputBlock log =
        String.Pos.Raw.extract log (offsetBehind front) (offsetBehind (front ++ part)) :=
  scanLines_unopened [] (Text.flatten_linesKept _).symm (List.forall_mem_nil _)

/-- A log is what stands before the compiler's part, the part, and what stands after it. -/
theorem CompilerPart.toList_eq {log : String}
    (parts : CompilerPart (Text.linesKept log.toList) front part back) :
    log.toList = front.flatten ++ part.flatten ++ back.flatten := by
  rw [← List.flatten_append, ← List.flatten_append, ← parts.whole, Text.flatten_linesKept]

/-- **Exactly the compiler's part is taken out of a log**, cut between characters at the offsets
behind the lines before it and behind its own. -/
theorem outputBlock_exact (log : String) :
    ∃ lines front part back, (∀ other, LinesOf log.toList other ↔ other = lines) ∧
      CompilerPart lines front part back ∧
      outputBlock log = String.ofList part.flatten ∧
      outputBlock log =
        String.Pos.Raw.extract log (offsetBehind front) (offsetBehind (front ++ part)) ∧
      (offsetBehind front).IsValid log ∧ (offsetBehind (front ++ part)).IsValid log ∧
      offsetBehind front ≤ offsetBehind (front ++ part) := by
  obtain ⟨front, part, back, parts, taken⟩ := exists_compilerPart log
  have whole := parts.toList_eq
  have opens : log.toList = front.flatten ++ (part ++ back).flatten := by
    rw [whole, List.flatten_append, List.append_assoc]
  have closes : log.toList = (front ++ part).flatten ++ back.flatten := by
    rw [whole, List.flatten_append]
  refine ⟨_, front, part, back, fun other => linesOf_iff, parts, ?_, taken, ?_, ?_, ?_⟩
  · rw [taken, extract_offsetBehind log whole]
  · exact isValid_offsetBehind log opens
  · exact isValid_offsetBehind log closes
  · rw [String.Pos.Raw.le_iff]
    simp [offsetBehind]

end ShaderForge
