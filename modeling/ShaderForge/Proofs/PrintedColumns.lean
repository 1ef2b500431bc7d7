/-
**Columns and the lines that they are in.**

A finding is printed as `file:line:column`, and its column only behind its line. A column is read
only behind a line as well: of the numbers between colons behind a path the first is the line, the
second the column (`IsNumbered`). But each of the two is turned into a position by itself, and
digits that are not those of ASCII, or write a number of more than 32 bits, give none
(`IsPosition`). So a line that gives no position is dropped, while the column behind it is kept
(`DropsLine`): the finding has a column without a line, and the column is not printed
(`column_without_line`).

`parse_columns` says that nothing else comes between the two: whatever the text, the files and the
paths, a finding has a line with its column, and shows every column that it has, exactly if its body
does not drop the line.
-/

import ShaderForge.Diagnostic.Printer
import ShaderForge.Proofs.LocatedFindings

namespace ShaderForge

open Text (isBlank dropBlank)

/-! ## Part 1 — numbers between colons -/

/-- **Digits at the front of a text and a colon behind them**, blanks around them aside. -/
def IsNumbered (text digits rest : List Char) : Prop :=
  ∃ front back, text = front ++ digits ++ back ++ ':' :: rest ∧ digits ≠ [] ∧
    (∀ c ∈ front, isBlank c = true) ∧ (∀ c ∈ digits, Text.isDigit c = true) ∧
    ∀ c ∈ back, isBlank c = true

/-- A blank is no digit of any script. -/
theorem not_isDigit_of_isBlank {c : Char} (blank : isBlank c = true) : Text.isDigit c = false := by
  have apart : ∀ code ∈ blankCodes, Text.isDigit (Char.ofNat code) = false := by decide +kernel
  have here := apart c.toNat (mem_blankCodes blank)
  rwa [Char.ofNat_toNat] at here

/-- **A number is read off the front of a text exactly if it stands there.** -/
theorem number?_eq_some_iff {text digits rest : List Char} :
    number? text = some (digits, rest) ↔ IsNumbered text digits rest := by
  constructor
  · intro found
    unfold number? at found
    dsimp only at found
    split at found
    · next after colon =>
      split at found
      · cases found
      · next some_digits =>
        cases found
        have start : text.takeWhile isBlank ++ dropBlank text = text :=
          List.takeWhile_append_dropWhile
        have split : (dropBlank text).takeWhile Text.isDigit ++
            (dropBlank text).drop ((dropBlank text).takeWhile Text.isDigit).length =
              dropBlank text := List.prefix_iff_eq_append.mp (List.takeWhile_prefix _)
        refine ⟨text.takeWhile isBlank,
          ((dropBlank text).drop ((dropBlank text).takeWhile Text.isDigit).length).takeWhile
            isBlank, ?_, by simpa using some_digits, ?_, ?_, ?_⟩
        · rw [← colon, List.append_assoc, List.append_assoc, dropBlank, dropBlank,
            List.takeWhile_append_dropWhile, ← dropBlank, split, start]
        · exact List.all_eq_true.mp List.all_takeWhile
        · exact List.all_eq_true.mp List.all_takeWhile
        · exact List.all_eq_true.mp List.all_takeWhile
    · cases found
  · rintro ⟨front, back, rfl, some_digits, before, numeric, behind⟩
    have start : dropBlank (front ++ digits ++ back ++ ':' :: rest) =
        digits ++ (back ++ ':' :: rest) := by
      rw [List.append_assoc, List.append_assoc, dropBlank, List.dropWhile_append_of_pos before]
      obtain ⟨first, digits, rfl⟩ := List.exists_cons_of_ne_nil some_digits
      refine List.dropWhile_cons_of_neg fun blank => ?_
      exact absurd (numeric first List.mem_cons_self) (by simp [not_isDigit_of_isBlank blank])
    have stops : (back ++ ':' :: rest).takeWhile Text.isDigit = [] := by
      cases back with
      | nil => rfl
      | cons first back =>
        exact List.takeWhile_cons_of_neg
          (by simp [not_isDigit_of_isBlank (behind first List.mem_cons_self)])
    have taken : (digits ++ (back ++ ':' :: rest)).takeWhile Text.isDigit = digits := by
      rw [List.takeWhile_append_of_pos numeric, stops, List.append_nil]
    have left : dropBlank (back ++ ':' :: rest) = ':' :: rest := by
      rw [dropBlank, List.dropWhile_append_of_pos behind]
      rfl
    unfold number?
    dsimp only
    rw [start, taken, List.drop_left, left, List.isEmpty_eq_false_iff.mpr some_digits]
    rfl

/-- **Digits that give a position**: of ASCII, and writing a number within 32 bits. -/
def IsPosition (digits : List Char) : Prop :=
  digits ≠ [] ∧ (∀ c ∈ digits, c.isDigit = true) ∧ Text.digitsValue digits < positionBound

theorem isSome_position? {digits : List Char} :
    (OutputReader.position? digits).isSome = true ↔ IsPosition digits := by
  rw [OutputReader.position?, Text.decimal?, IsPosition]
  split
  · next misfit =>
    refine iff_of_false Bool.false_ne_true ?_
    rintro ⟨some_digits, ascii, -⟩
    rw [Bool.or_eq_true, List.isEmpty_iff, Bool.not_eq_true', ← Bool.not_eq_true,
      List.all_eq_true] at misfit
    exact misfit.elim some_digits fun foreign => foreign ascii
  · next fits =>
    rw [Bool.or_eq_true, List.isEmpty_iff, Bool.not_eq_true', ← Bool.not_eq_true,
      List.all_eq_true, not_or, not_not] at fits
    split
    · next small => exact iff_of_true rfl ⟨fits.1, fits.2, small⟩
    · next large => exact iff_of_false Bool.false_ne_true fun position => large position.2.2

/-- **A column is read behind a line.** -/
theorem placePrefix?_column {body column : List Char} {place : PlacePrefix} :
    placePrefix? body = some place ∧ place.column = some column ↔
      ∃ line after middle, pathPrefix? body = some (place.path, after) ∧ place.line = some line ∧
        place.column = some column ∧ IsNumbered after line middle ∧
        IsNumbered middle column place.rest := by
  simp only [← number?_eq_some_iff]
  constructor
  · rintro ⟨found, counted⟩
    unfold placePrefix? at found
    split at found
    · cases found
    · next path after reads =>
      split at found
      · cases found
        cases counted
      · next line middle first =>
        split at found
        · cases found
          cases counted
        · next column rest second =>
          cases found
          cases counted
          exact ⟨line, after, middle, reads, rfl, rfl, first, second⟩
  · rintro ⟨line, after, middle, reads, lined, counted, first, second⟩
    refine ⟨?_, counted⟩
    rw [placePrefix?, reads]
    dsimp only
    rw [first]
    dsimp only
    rw [second]
    cases place
    simp_all

/-! ## Part 2 — columns that are printed -/

namespace Diagnostic

variable {finding : Diagnostic}

/-- **A finding shows its column**, if it has one: its text begins with the file, a line and the
column. -/
def ShowsColumn (finding : Diagnostic) : Prop :=
  ∀ column, finding.location.column = some column → ∃ (line : Nat) (rest : String),
    finding.render = finding.location.file.text ++ ":" ++ toString line ++ ":" ++ toString column
      ++ ": " ++ rest

/-- Without a line the text of a finding goes on with its severity behind the file. -/
theorem render_unlined (unlined : finding.location.line = none) :
    ∃ rest, finding.render.toList = finding.location.file.text.toList ++ ':' :: ' ' :: rest := by
  refine ⟨finding.severity.text.toList ++ ": ".toList ++ finding.message.toList
    ++ (String.join (finding.related.map RelatedLocation.render)).toList, ?_⟩
  simp [render, SourceLocation.render, positionText, unlined]

/-- **A column is shown exactly if there is a line with it.** -/
theorem showsColumn_iff : finding.ShowsColumn ↔
    (finding.location.column.isSome = true → finding.location.line.isSome = true) := by
  constructor
  · intro shows has
    obtain ⟨column, counted⟩ := Option.isSome_iff_exists.mp has
    obtain ⟨line, rest, shown⟩ := shows column counted
    cases known : finding.location.line with
    | some line => rfl
    | none =>
      -- A blank stands where the first digit of the line would be.
      obtain ⟨behind, whole⟩ := render_unlined known
      have digits : (toString line).toList = Nat.toDigits 10 line := Nat.toList_repr
      obtain ⟨digit, tail, first, numeric⟩ := toDigits_cons line
      rw [shown] at whole
      simp only [String.toList_append, List.append_assoc, digits, first,
        List.append_cancel_left_eq] at whole
      have blank : digit = ' ' := (List.cons.inj (List.cons.inj whole).2).1
      rw [blank] at numeric
      exact absurd numeric (by decide)
  · intro lined column counted
    obtain ⟨line, known⟩ := Option.isSome_iff_exists.mp (lined (counted ▸ rfl))
    refine ⟨line, finding.severity.text ++ ": " ++ finding.message
      ++ String.join (finding.related.map RelatedLocation.render), ?_⟩
    simp [render, SourceLocation.render, positionText, known, counted, String.append_assoc]

end Diagnostic

/-! ## Part 3 — lines that are dropped -/

namespace OutputReader

variable {reader : OutputReader}

/-- **A body whose column outlives its line**: behind the path of a file stand two numbers, and the
second gives a position while the first gives none. -/
def DropsLine (reader : OutputReader) (body : List Char) : Prop :=
  ∃ path file after line middle column rest, pathPrefix? body = some (path, after) ∧
    reader.locate? path = some file ∧ IsNumbered after line middle ∧
    IsNumbered middle column rest ∧ ¬ IsPosition line ∧ IsPosition column

/-- **The place of a body has a column without a line exactly if the body drops its line.** -/
theorem dropsLine_iff {body : List Char} : reader.DropsLine body ↔
    ∃ place, reader.located? body = some place ∧ place.1.column.isSome = true ∧
      place.1.line = none := by
  constructor
  · rintro ⟨path, file, after, line, middle, column, rest, reads, leads, first, second, misfit,
      fits⟩
    have placed : placePrefix? body = some ⟨path, some line, some column, rest⟩ :=
      (placePrefix?_column.mpr ⟨line, after, middle, reads, rfl, rfl, first, second⟩).1
    refine ⟨_, by rw [located?, placed, Option.bind_eq_bind, Option.bind_some, leads]; rfl, ?_, ?_⟩
    · exact isSome_position?.mpr fits
    · exact Option.not_isSome_iff_eq_none.mp fun there => misfit (isSome_position?.mp there)
  · rintro ⟨⟨location, message⟩, found, counted, unlined⟩
    obtain ⟨place, placed, found⟩ := Option.bind_eq_some_iff.mp found
    obtain ⟨file, leads, found⟩ := Option.bind_eq_some_iff.mp found
    cases found
    obtain ⟨_, known⟩ := Option.isSome_iff_exists.mp counted
    obtain ⟨column, written, position⟩ := Option.bind_eq_some_iff.mp known
    obtain ⟨line, after, middle, reads, lined, -, first, second⟩ :=
      placePrefix?_column.mp ⟨placed, written⟩
    have nothing : position? line = none := by simpa only [lined, Option.bind_some] using unlined
    refine ⟨place.path, file, after, line, middle, column, place.rest, reads, leads, first, second,
      fun fits => ?_, isSome_position?.mp (position ▸ rfl)⟩
    rw [← isSome_position?, nothing] at fits
    cases fits

/-- **What becomes of the column of a finding**: there is a line with it, and it is shown, exactly
if the body does not drop its line. -/
structure KeepsColumn (reader : OutputReader) (block : Block) (finding : Diagnostic) : Prop where
  lined : (finding.location.column.isSome = true → finding.location.line.isSome = true) ↔
    ¬ reader.DropsLine block.body
  shown : finding.ShowsColumn ↔ ¬ reader.DropsLine block.body

theorem keepsColumn_diagnosticOf (reader : OutputReader) (severity : Severity) (block : Block) :
    reader.KeepsColumn block (reader.diagnosticOf severity block.body) := by
  have lined : ((reader.diagnosticOf severity block.body).location.column.isSome = true →
      (reader.diagnosticOf severity block.body).location.line.isSome = true) ↔
        ¬ reader.DropsLine block.body := by
    rw [dropsLine_iff, diagnosticOf]
    cases reader.located? block.body with
    | none => simp [unlocated]
    | some place => simp [Option.isSome_iff_ne_none]
  exact ⟨lined, Diagnostic.showsColumn_iff.trans lined⟩

/-- **Every finding has a line with its column, and shows its column, unless its body drops the
line**: what is read from a text are the findings of the blocks that are reported, in order. -/
theorem parse_columns (reader : OutputReader) (text : String) :
    List.Forall₂ reader.KeepsColumn (reported text) (reader.parse text) :=
  reader.forall₂_parse text fun block severity _ _ => reader.keepsColumn_diagnosticOf severity block

/-- **A column without a line**: the line is a number of more than 32 bits. -/
theorem column_without_line :
    ¬ ∀ (reader : OutputReader) (text : String), ∀ finding ∈ reader.parse text,
      (finding.location.column.isSome = true → finding.location.line.isSome = true) ∧
        finding.ShowsColumn := by
  intro claim
  let world := World.ofNodes [] [([⟨"a.vert", by decide⟩], .file ⟨#[]⟩)] (by decide) (by decide)
  let reader : OutputReader := ⟨world, ⟨⟨"/"⟩, ⟨[], none⟩⟩, ⟨"/"⟩, ⟨"/x.sl.json"⟩⟩
  have read : reader.parse "[ERROR] a.vert:4294967296:7: bad" =
      [⟨.error, ⟨⟨"/a.vert"⟩, none, some 7⟩, "bad", []⟩] := by decide +kernel
  have lined := (claim reader _ _ (read ▸ List.mem_cons_self)).1 rfl
  cases lined

end OutputReader

end ShaderForge
