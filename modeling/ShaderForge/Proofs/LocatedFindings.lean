/-
**Findings and the files that they are about.**

A body may begin with the name of a file. Its *path part* is what stands in front of a colon, on one
line; a drive such as `C:\` is part of it where something can follow the drive (`PathPart`). Without
blanks around it that is a reference, and it names itself if it is absolute, or else a file below
the root of the job, or else one below the working directory (`OutputReader.Names`).

What is read as the path at the front of a body is its path part (`pathPrefix?_eq_some`,
`PathPart.read`), so a place is found exactly if the path part names a file (`locates_iff`). So no
finding is about a file that is not there, unless it is the primary config, and none is put down to
the primary config if its body names a file (`parse_gated`).
-/

import Mathlib.Data.List.Forall2
import ShaderForge.Proofs.NestedReports

namespace ShaderForge

open Text (dropBlankEnd trimChars isBlank)

variable {text front stem part path after : List Char}

/-! ## Part 1 — path parts -/

/-- What a text says before its first colon, on one line. Blanks in front of the colon may be left
out of it. -/
def IsStem (text stem : List Char) : Prop :=
  ∃ gap after, text = stem ++ gap ++ ':' :: after ∧ stem ≠ [] ∧
    (∀ c ∈ stem, c ≠ ':' ∧ c ≠ '\r' ∧ c ≠ '\n') ∧ ∀ c ∈ gap, isBlank c = true

/-- A drive: a letter, a colon and a slash or backslash. -/
def IsDrive (drive : List Char) : Prop :=
  ∃ letter slash, drive = [letter, ':', slash] ∧ letter.isAlpha = true ∧
    (slash = '\\' ∨ slash = '/')

/-- **The path part of a text**, with the drive at its front, if there is a path behind the drive.
-/
inductive PathPart (text : List Char) : List Char → Prop
  | onDrive (drive rest stem : List Char) (drives : IsDrive drive) (shape : text = drive ++ rest)
    (stems : IsStem rest stem) : PathPart text (drive ++ stem)
  | plain (stem : List Char) (bare : ∀ drive rest stem, IsDrive drive → text = drive ++ rest →
    ¬ IsStem rest stem) (stems : IsStem text stem) : PathPart text stem

/-- The reference that a path part writes. -/
def referenceOf (part : List Char) : Path := ⟨String.ofList (trimChars part)⟩

namespace OutputReader

/-- **The file that a reference names**, if it is there: the reference itself if it is absolute, or
else below the root, or else below the working directory. -/
inductive Names (reader : OutputReader) (reference : Path) : Path → Prop
  | itself (absolute : reference.isAbsolute = true)
    (there : reader.world.isFile reference = true) : Names reader reference reference
  | belowRoot (relative : reference.isAbsolute = false)
    (there : reader.world.isFile (reader.root.join reference) = true) :
    Names reader reference (reader.root.join reference)
  | belowCwd (relative : reference.isAbsolute = false)
    (elsewhere : reader.world.isFile (reader.root.join reference) = false)
    (there : reader.world.isFile (reader.resolver.cwd.join reference) = true) :
    Names reader reference (reader.resolver.cwd.join reference)

/-- A body that names a file with its path part. -/
def Locates (reader : OutputReader) (body : List Char) (file : Path) : Prop :=
  ∃ part, PathPart body part ∧ reader.Names (referenceOf part) file

end OutputReader

/-! ## Part 2 — blanks -/

/-- A text is what is left without the blanks at its end, and those blanks. -/
theorem exists_gap (text : List Char) :
    ∃ gap, text = dropBlankEnd text ++ gap ∧ ∀ c ∈ gap, isBlank c = true := by
  refine ⟨(text.reverse.takeWhile isBlank).reverse, ?_, fun c among => ?_⟩
  · rw [dropBlankEnd, ← List.reverse_append, List.takeWhile_append_dropWhile, List.reverse_reverse]
  · exact List.mem_takeWhile_imp (List.mem_reverse.mp among)

theorem dropBlankEnd_append {gap : List Char} (blank : ∀ c ∈ gap, isBlank c = true) :
    dropBlankEnd (text ++ gap) = dropBlankEnd text := by
  rw [dropBlankEnd, List.reverse_append, List.dropWhile_append_of_pos fun c among =>
    blank c (List.mem_reverse.mp among), dropBlankEnd]

/-- Blanks behind a text are trimmed. -/
theorem trimChars_append {gap : List Char} (blank : ∀ c ∈ gap, isBlank c = true) :
    trimChars (text ++ gap) = trimChars text := by
  rw [trimChars, trimChars, Text.dropBlank, Text.dropBlank]
  by_cases nothing : ∀ c ∈ text, isBlank c = true
  · rw [List.dropWhile_append_of_pos nothing, List.dropWhile_eq_nil_iff.mpr nothing,
      List.dropWhile_eq_nil_iff.mpr blank]
  · have some_text : text.dropWhile isBlank ≠ [] := mt List.dropWhile_eq_nil_iff.mp nothing
    rw [List.dropWhile_append, if_neg (by simpa using some_text), dropBlankEnd_append blank]

/-- A text that begins with something says something. -/
theorem trimChars_ne_nil {c : Char} (inside : c ∈ text) (solid : isBlank c = false) :
    trimChars text ≠ [] := by
  intro nothing
  obtain ⟨gap, whole, blank⟩ := exists_gap (Text.dropBlank text)
  rw [← trimChars, nothing, List.nil_append] at whole
  have dropped : Text.dropBlank text = [] := by
    cases left : Text.dropBlank text with
    | nil => rfl
    | cons d more =>
      have stops := List.head?_dropWhile_not isBlank text
      rw [← Text.dropBlank, left] at stops
      have blanks := blank d (by rw [← whole, left]; exact List.mem_cons_self)
      simp [blanks] at stops
  rw [List.dropWhile_eq_nil_iff.mp dropped c inside] at solid
  cases solid

/-! ## Part 3 — path parts are read -/

theorem colon_notMem_blank {gap : List Char} (blank : ∀ c ∈ gap, isBlank c = true) : ':' ∉ gap :=
  fun among => absurd (blank ':' among) (by decide)

/-- The path in front of a colon begins the text there, and the rest of it is blank. -/
theorem pathBefore?_gap (writes : pathBefore? front = some path) :
    path ≠ [] ∧ path.any isLineBreak = false ∧
      ∃ gap, front = path ++ gap ∧ ∀ c ∈ gap, isBlank c = true := by
  obtain ⟨gap, whole, blank⟩ := exists_gap front
  unfold pathBefore? at writes
  split at writes
  · next nothing =>
    rw [nothing, List.nil_append] at whole
    dsimp only at writes
    split at writes
    · cases writes
    · next proper =>
      obtain rfl := Option.some.inj writes
      rw [Bool.not_eq_true, Bool.or_eq_false_iff, List.isEmpty_eq_false_iff] at proper
      exact ⟨proper.1, proper.2, front.drop 1, (List.take_append_drop 1 front).symm,
        fun c among => blank c (whole ▸ List.mem_of_mem_drop among)⟩
  · dsimp only at writes
    split at writes
    · cases writes
    · next proper =>
      obtain rfl := Option.some.inj writes
      rw [Bool.not_eq_true, Bool.or_eq_false_iff, List.isEmpty_eq_false_iff] at proper
      exact ⟨proper.1, proper.2, gap, whole, blank⟩

/-- **What is read up to a colon is a stem.** -/
theorem isStem_of_upToColon? (found : upToColon? text = some (path, after)) : IsStem text path := by
  obtain ⟨before, whole, plain, writes⟩ := upToColon?_eq_some found
  obtain ⟨some_path, oneLine, gap, rfl, blank⟩ := pathBefore?_gap writes
  refine ⟨gap, after, whole, some_path, fun c among => ⟨?_, ?_⟩, blank⟩
  · rintro rfl
    exact plain (List.mem_append_left _ among)
  · have other := List.any_eq_false.mp oneLine c among
    simpa [isLineBreak, and_comm] using other

/-- The stem in front of a colon is read there, blanks aside. -/
theorem pathBefore?_stem {gap : List Char} (some_stem : stem ≠ [])
    (oneLine : stem.any isLineBreak = false) (blank : ∀ c ∈ gap, isBlank c = true) :
    ∃ path, pathBefore? (stem ++ gap) = some path ∧
      ∀ front, trimChars (front ++ path) = trimChars (front ++ stem) := by
  obtain ⟨rest, whole, blanks⟩ := exists_gap stem
  rw [pathBefore?, dropBlankEnd_append blank]
  cases kept : dropBlankEnd stem with
  | nil =>
    -- A stem of blanks is read as its first character.
    rw [kept, List.nil_append] at whole
    obtain ⟨c, more, rfl⟩ := List.exists_cons_of_ne_nil some_stem
    have alone : ([c] : List Char).any isLineBreak = false := by
      rw [List.any_cons, Bool.or_eq_false_iff] at oneLine
      rw [List.any_cons, oneLine.1]
      rfl
    refine ⟨[c], ?_, fun front => ?_⟩
    · simp [alone]
    · rw [trimChars_append fun d among => blanks d (whole ▸ ?_), trimChars_append (whole ▸ blanks)]
      rw [List.mem_singleton.mp among]
      exact List.mem_cons_self
  | cons c more =>
    rw [kept] at whole
    have unbroken : (c :: more).any isLineBreak = false := by
      rw [whole, List.any_append, Bool.or_eq_false_iff] at oneLine
      exact oneLine.1
    refine ⟨c :: more, ?_, fun front => ?_⟩
    · simp only [List.isEmpty_cons, unbroken]
      rfl
    · rw [whole, ← List.append_assoc, trimChars_append blanks]

/-- **A stem is read up to the colon**, blanks aside. -/
theorem IsStem.read (stems : IsStem text stem) :
    ∃ path after, upToColon? text = some (path, after) ∧
      ∀ front, trimChars (front ++ path) = trimChars (front ++ stem) := by
  obtain ⟨gap, after, rfl, some_stem, oneLine, blank⟩ := stems
  have plain : ∀ c ∈ stem ++ gap, (c != ':') = true := by
    intro c among
    rw [bne_iff_ne]
    rintro rfl
    rcases List.mem_append.mp among with inside | behind
    · exact (oneLine ':' inside).1 rfl
    · exact colon_notMem_blank blank behind
  have unbroken : stem.any isLineBreak = false := by
    apply List.any_eq_false.mpr
    intro c among
    simp [isLineBreak, (oneLine c among).2.1, (oneLine c among).2.2]
  obtain ⟨path, writes, same⟩ := pathBefore?_stem some_stem unbroken blank
  refine ⟨path, after, ?_, same⟩
  have taken : (stem ++ gap ++ ':' :: after).takeWhile (· != ':') = stem ++ gap := by
    rw [List.takeWhile_append_of_pos plain]
    simp
  have left : (stem ++ gap ++ ':' :: after).dropWhile (· != ':') = ':' :: after := by
    rw [List.dropWhile_append_of_pos plain]
    simp
  rw [upToColon?, left, taken]
  dsimp only
  rw [writes]
  rfl

theorem driveOf_eq_some {drive rest : List Char} :
    driveOf text = some (drive, rest) ↔ IsDrive drive ∧ text = drive ++ rest := by
  constructor
  · intro found
    unfold driveOf at found
    split at found
    · next letter slash left =>
      split at found
      · next fits =>
        cases found
        rw [Bool.and_eq_true, Bool.or_eq_true, beq_iff_eq, beq_iff_eq] at fits
        exact ⟨⟨letter, slash, rfl, fits⟩, rfl⟩
      · cases found
    · cases found
  · rintro ⟨⟨letter, slash, rfl, alpha, slashed⟩, rfl⟩
    show (if (letter.isAlpha && (slash == '\\' || slash == '/')) = true then _ else _) = _
    rw [if_pos]
    · rfl
    · rw [Bool.and_eq_true, Bool.or_eq_true, beq_iff_eq, beq_iff_eq]
      exact ⟨alpha, slashed⟩

/-- **The path at the front of a text is its path part.** -/
theorem pathPrefix?_eq_some (found : pathPrefix? text = some (path, after)) :
    PathPart text path := by
  unfold pathPrefix? at found
  dsimp only at found
  split at found
  · next noDrive =>
    refine .plain path (fun drive rest stem drives shape => ?_) (isStem_of_upToColon? found)
    rw [driveOf_eq_some.mpr ⟨drives, shape⟩] at noDrive
    cases noDrive
  · next drive rest driven =>
    obtain ⟨drives, shape⟩ := driveOf_eq_some.mp driven
    rcases Option.or_eq_some_iff.mp found with behind | ⟨nothing, found⟩
    · obtain ⟨⟨stem, left⟩, read, same⟩ := Option.map_eq_some_iff.mp behind
      cases same
      exact .onDrive drive rest stem drives shape (isStem_of_upToColon? read)
    · refine .plain path (fun other left stem drives' shape' stems => ?_)
        (isStem_of_upToColon? found)
      have same := driveOf_eq_some.mpr ⟨drives', shape'⟩
      rw [driven] at same
      cases same
      obtain ⟨read, rest, reads, -⟩ := stems.read
      rw [reads] at nothing
      cases nothing

/-- **The path part of a text is read at its front**, blanks aside. -/
theorem PathPart.read {part : List Char} (named : PathPart text part) :
    ∃ path after, pathPrefix? text = some (path, after) ∧ trimChars path = trimChars part := by
  cases named with
  | onDrive drive rest stem drives shape stems =>
    obtain ⟨path, after, reads, same⟩ := stems.read
    refine ⟨drive ++ path, after, ?_, same drive⟩
    rw [pathPrefix?, driveOf_eq_some.mpr ⟨drives, shape⟩]
    dsimp only
    rw [reads]
    rfl
  | plain stem bare stems =>
    obtain ⟨path, after, reads, same⟩ := stems.read
    refine ⟨path, after, ?_, same []⟩
    rw [pathPrefix?]
    cases driven : driveOf text with
    | none => exact reads
    | some place =>
      obtain ⟨drive, rest⟩ := place
      obtain ⟨drives, shape⟩ := driveOf_eq_some.mp driven
      have nothing : upToColon? rest = none := by
        cases found : upToColon? rest with
        | none => rfl
        | some pair => exact absurd (isStem_of_upToColon? found) (bare drive rest _ drives shape)
      dsimp only
      rw [nothing]
      exact reads

/-! ## Part 4 — the gate -/

/-- What is left of a text without the blanks around it begins with something else. -/
theorem head?_trimChars (text : List Char) : ∀ c ∈ (trimChars text).head?, isBlank c = false := by
  intro c first
  obtain ⟨gap, whole, -⟩ := exists_gap (Text.dropBlank text)
  rw [← trimChars] at whole
  have begins : (Text.dropBlank text).head? = some c := by
    rw [whole, List.head?_append, first]
    rfl
  have stops := List.head?_dropWhile_not isBlank text
  rw [← Text.dropBlank, begins] at stops
  simpa using stops

/-- The path part of a body says something. -/
theorem PathPart.proper {body part : List Char} (named : PathPart body part)
    (begins : ∀ c ∈ body.head?, isBlank c = false) : trimChars part ≠ [] := by
  cases named with
  | onDrive drive rest stem drives shape stems =>
    obtain ⟨letter, slash, rfl, alpha, -⟩ := drives
    exact trimChars_ne_nil (List.mem_append_left _ List.mem_cons_self)
      (isBlank_of_isToolChar (isToolChar_of_isAlpha alpha))
  | plain stem bare stems =>
    obtain ⟨gap, after, rfl, some_stem, -⟩ := stems
    obtain ⟨c, more, rfl⟩ := List.exists_cons_of_ne_nil some_stem
    exact trimChars_ne_nil List.mem_cons_self (begins c rfl)

namespace OutputReader

variable {reader : OutputReader} {file reference : Path} {body : List Char}

/-- What a reference names is a file. -/
theorem Names.isFile (named : reader.Names reference file) : reader.world.isFile file = true := by
  cases named with
  | itself absolute there => exact there
  | belowRoot relative there => exact there
  | belowCwd relative elsewhere there => exact there

/-- **A reference is looked up for the file that it names.** -/
theorem locate?_eq_some {part : List Char} (proper : trimChars part ≠ []) :
    reader.locate? part = some file ↔ reader.Names (referenceOf part) file := by
  have wanted : (⟨Text.trim (String.ofList part)⟩ : Path) = referenceOf part := by
    rw [Text.trim, String.toList_ofList, referenceOf]
  have some_text : (referenceOf part).isEmpty = false := by
    rwa [← Bool.not_eq_true, Path.isEmpty_iff, referenceOf, String.toList_ofList]
  rw [locate?, Resolver.locate?, wanted, if_neg (by simp [some_text])]
  by_cases absolute : (referenceOf part).isAbsolute = true
  · rw [if_pos absolute]
    constructor
    · intro found
      split at found
      · next there =>
        cases found
        exact .itself absolute there
      · cases found
    · intro named
      cases named with
      | itself _ there => exact if_pos there
      | belowRoot relative _ => exact absurd absolute (by simp [relative])
      | belowCwd relative _ _ => exact absurd absolute (by simp [relative])
  · rw [if_neg absolute]
    have relative := Bool.eq_false_iff.mpr absolute
    constructor
    · intro found
      rw [List.find?_cons] at found
      split at found
      · next there =>
        cases found
        exact .belowRoot relative there
      · next elsewhere =>
        rw [List.find?_singleton] at found
        split at found
        · next there =>
          cases found
          exact .belowCwd relative elsewhere there
        · cases found
    · intro named
      cases named with
      | itself absolute' _ => exact absurd absolute' absolute
      | belowRoot _ there => rw [List.find?_cons_of_pos there]
      | belowCwd _ elsewhere there =>
        rw [List.find?_cons_of_neg (by simp [elsewhere]), List.find?_cons_of_pos there]

/-- What is looked up for a reference is a file. -/
theorem isFile_of_locate? {part : List Char} (found : reader.locate? part = some file) :
    reader.world.isFile file = true := by
  by_cases proper : trimChars part = []
  · rw [locate?, Resolver.locate?, Text.trim, String.toList_ofList, proper] at found
    cases found
  · exact ((locate?_eq_some proper).mp found).isFile

theorem placePrefix?_path : (placePrefix? body).map PlacePrefix.path =
    (pathPrefix? body).map Prod.fst := by
  unfold placePrefix?
  cases pathPrefix? body with
  | none => rfl
  | some place =>
    obtain ⟨path, after⟩ := place
    dsimp only
    split
    · rfl
    · split <;> rfl

/-- **A body locates the file that its place names.** -/
theorem locates_iff (begins : ∀ c ∈ body.head?, isBlank c = false) :
    reader.Locates body file ↔
      ∃ place, placePrefix? body = some place ∧ reader.locate? place.path = some file := by
  constructor
  · rintro ⟨part, named, names⟩
    obtain ⟨path, after, reads, same⟩ := named.read
    have written : (placePrefix? body).map PlacePrefix.path = some path := by
      rw [placePrefix?_path, reads]
      rfl
    obtain ⟨place, found, rfl⟩ := Option.map_eq_some_iff.mp written
    refine ⟨place, found, ?_⟩
    rwa [locate?_eq_some (same ▸ named.proper begins), referenceOf, same]
  · rintro ⟨place, found, leads⟩
    have path := @placePrefix?_path body
    rw [found, Option.map_some] at path
    obtain ⟨⟨_, after⟩, reads, rfl⟩ := Option.map_eq_some_iff.mp path.symm
    have named := pathPrefix?_eq_some reads
    exact ⟨_, named, (locate?_eq_some (named.proper begins)).mp leads⟩

/-- A body without a colon locates no file. -/
theorem not_locates (plain : ':' ∉ body) (file : Path) : ¬ reader.Locates body file := by
  have noStem : ∀ rest stem, (∀ c ∈ rest, c ∈ body) → ¬ IsStem rest stem := by
    rintro rest stem within ⟨gap, after, rfl, -⟩
    exact plain (within ':' (by simp))
  rintro ⟨part, named, -⟩
  cases named with
  | onDrive drive rest stem drives shape stems =>
    exact noStem rest stem (fun c among => shape ▸ List.mem_append_right _ among) stems
  | plain stem bare stems => exact noStem body part (fun c among => among) stems

/-! ## Part 5 — findings -/

/-- **A finding that has passed the gate**: it is about the file that its body names, or, if there
is none, about the primary config as a whole, and says all of the body. What it relates to is at a
line of a file, or where the finding is. -/
structure Gated (reader : OutputReader) (block : Block) (finding : Diagnostic) : Prop where
  severity : block.tag.severity? = some finding.severity
  gate : (reader.Locates block.body finding.location.file ∧
      reader.world.isFile finding.location.file = true) ∨
    ((∀ file, ¬ reader.Locates block.body file) ∧
      finding.location = ⟨reader.primary, none, none⟩ ∧
      finding.message = String.ofList block.body)
  related : ∀ related ∈ finding.related,
    (reader.world.isFile related.file = true ∧ related.line.isSome = true) ∨
      (related.file = finding.location.file ∧ related.line = finding.location.line)

/-- A nested message is at a line of a file, or where the finding is. -/
theorem relatedOf_gated (reader : OutputReader) (fallback : SourceLocation)
    (segment : List Char) :
    (reader.world.isFile (reader.relatedOf fallback segment).file = true ∧
        (reader.relatedOf fallback segment).line.isSome = true) ∨
      ((reader.relatedOf fallback segment).file = fallback.file ∧
        (reader.relatedOf fallback segment).line = fallback.line) := by
  unfold relatedOf
  cases lineLocation? segment with
  | none => exact .inr ⟨rfl, rfl⟩
  | some place =>
    obtain ⟨path, digits, rest⟩ := place
    simp only [Option.bind_eq_bind, Option.bind_some]
    cases leads : reader.locate? path with
    | none => exact .inr ⟨rfl, rfl⟩
    | some file =>
      cases position? digits with
      | none => exact .inr ⟨rfl, rfl⟩
      | some line => exact .inl ⟨isFile_of_locate? leads, rfl⟩

/-- **The finding of a body passes the gate.** -/
theorem diagnosticOf_gated (reader : OutputReader) {block : Block} {severity : Severity}
    (grave : block.tag.severity? = some severity)
    (begins : ∀ c ∈ block.body.head?, isBlank c = false) :
    reader.Gated block (reader.diagnosticOf severity block.body) := by
  have related : ∀ location message, ∀ related ∈ reader.relatedIn location message,
      (reader.world.isFile related.file = true ∧ related.line.isSome = true) ∨
        (related.file = location.file ∧ related.line = location.line) := by
    intro location message related among
    unfold relatedIn at among
    split at among
    · obtain ⟨segment, -, rfl⟩ := List.mem_map.mp among
      exact reader.relatedOf_gated location segment
    · exact absurd among List.not_mem_nil
  unfold diagnosticOf
  cases found : reader.located? block.body with
  | none =>
    refine ⟨grave, .inr ⟨fun file locates => ?_, rfl, rfl⟩, related _ _⟩
    obtain ⟨place, reads, leads⟩ := (locates_iff begins).mp locates
    rw [located?, reads, Option.bind_eq_bind, Option.bind_some, leads] at found
    cases found
  | some place =>
    obtain ⟨location, message⟩ := place
    obtain ⟨place, reads, found⟩ := Option.bind_eq_some_iff.mp found
    obtain ⟨file, leads, found⟩ := Option.bind_eq_some_iff.mp found
    cases found
    exact ⟨grave, .inl ⟨(locates_iff begins).mpr ⟨place, reads, leads⟩, isFile_of_locate? leads⟩,
      related _ _⟩

/-- The blocks of a text that are reported: the errors and warnings that say anything. -/
def reported (text : String) : List Block :=
  (blocks text).filter fun block => block.tag.severity?.isSome && !block.body.isEmpty

/-- What is read from a text are the findings of the blocks that are reported, in order. -/
theorem forall₂_parse {holds : Block → Diagnostic → Prop} (reader : OutputReader) (text : String)
    (each : ∀ (block : Block) (severity : Severity), block.tag.severity? = some severity →
      (∀ c ∈ block.body.head?, isBlank c = false) →
        holds block (reader.diagnosticOf severity block.body)) :
    List.Forall₂ holds (reported text) (reader.parse text) := by
  have trimmed : ∀ block ∈ blocks text, ∀ c ∈ block.body.head?, isBlank c = false := by
    intro block among
    obtain ⟨raw, -, rfl⟩ := List.mem_map.mp among
    exact head?_trimChars raw.body
  rw [reported, parse]
  generalize blocks text = all at trimmed
  induction all with
  | nil => exact .nil
  | cons block all ih =>
    have later := ih fun other among => trimmed other (List.mem_cons_of_mem _ among)
    rw [List.filter_cons, List.filterMap_cons, ofBlock?]
    cases grave : block.tag.severity? with
    | none => exact later
    | some severity =>
      cases nothing : block.body.isEmpty with
      | true => exact later
      | false => exact .cons (each block severity grave (trimmed block List.mem_cons_self)) later

/-- **Every finding passes the gate**: what is read from a text are the findings of the blocks that
are reported, in order, each about the file that its body names, or about the primary config. -/
theorem parse_gated (reader : OutputReader) (text : String) :
    List.Forall₂ reader.Gated (reported text) (reader.parse text) :=
  reader.forall₂_parse text fun _ _ => reader.diagnosticOf_gated

end OutputReader

end ShaderForge
