/-
**Findings written to a log and read back.**

A compiler writes a finding as `[SEVERITY] reference:line:column: message`, without the numbers that
it does not know, and one finding after another on lines of their own. Reading such a log gives the
findings back: one for each item, in order, with its severity, the file that its reference leads to,
its line and column and its message, and related to nothing.

What must not be mistaken for something else is kept out of an item (`Readable`): a tag inside its
reference or message, a message that is a nested tool's report, and, where a number is left out, a
message that begins with one.

* `cut_append`: a stretch without tags never hides or makes one;
* `placePrefix?_body`: the place at the front of an item is read off exactly;
* `ofBlock?_body`: one block gives the finding it was written for;
* `parse_renderAll`: a whole log gives all of them.
-/

import ShaderForge.Diagnostic.Parser
import ShaderForge.Diagnostic.Printer
import ShaderForge.Proofs.Edits
import ShaderForge.Proofs.ErrorTags

namespace ShaderForge

open Text (isBlank dropBlank dropBlankEnd trimChars)

/-! ## Part 1 — items -/

/-- The tag that introduces findings of a severity. -/
def Severity.tag : Severity → Tag
  | error => .error
  | warning => .warning

/-- The name of that tag. -/
def Severity.tagName : Severity → String
  | error => "ERROR"
  | warning => "WARNING"

/-- **A finding as a compiler knows it**: what it calls the file, and what of the place it knows. -/
structure LocatedItem where
  severity : Severity
  reference : String
  line : Option Nat
  column : Option Nat
  message : String
deriving DecidableEq

/-- Whether the name of a tag stands in square brackets somewhere in a text. -/
def HasTag (text : List Char) : Prop :=
  ∃ before name after, text = before ++ '[' :: (name ++ ']' :: after) ∧ (Tag.ofName? name).isSome

/-- Whether a text begins with digits and a colon, blanks between them aside. -/
def BeginsWithNumber (text : List Char) : Prop :=
  ∃ digits gap after, text = digits ++ (gap ++ ':' :: after) ∧ digits ≠ [] ∧
    (∀ c ∈ digits, Text.isDigit c = true) ∧ ∀ c ∈ gap, isBlank c = true

/-- A text that says something and has no blanks around it. -/
structure Solid (text : List Char) : Prop where
  nonempty : text ≠ []
  first : ∀ c ∈ text.head?, isBlank c = false
  last : ∀ c ∈ text.getLast?, isBlank c = false

namespace LocatedItem

/-- The text of an item. -/
def render (item : LocatedItem) : String :=
  "[" ++ item.severity.tagName ++ "] " ++ item.reference ++ positionText item.line
    ++ positionText item.column ++ ": " ++ item.message

/-- The text of several items, one after another on lines of their own. -/
def renderAll (items : List LocatedItem) : String := "\n".intercalate (items.map render)

/-- **What can be read back**: an item whose file exists and whose parts are not mistaken for
others. -/
structure Readable (reader : OutputReader) (item : LocatedItem) : Prop where
  found : (reader.locate? item.reference.toList).isSome = true
  reference : Solid item.reference.toList
  oneLine : ∀ c ∈ item.reference.toList, c ≠ ':' ∧ c ≠ '\r' ∧ c ≠ '\n'
  line : ∀ line ∈ item.line, line < positionBound
  column : ∀ column ∈ item.column, column < positionBound
  columnOfLine : item.line = none → item.column = none
  message : Solid item.message.toList
  noReport : isToolReport item.message.toList = false
  noNumber : item.line = none ∨ item.column = none → ¬ BeginsWithNumber item.message.toList
  noTagBefore : ¬ HasTag item.reference.toList
  noTagAfter : ¬ HasTag item.message.toList

/-- The finding that an item is about, if its reference leads to a file. -/
def diagnostic? (reader : OutputReader) (item : LocatedItem) : Option Diagnostic :=
  (reader.locate? item.reference.toList).map fun file =>
    { severity := item.severity
      location := ⟨file, item.line, item.column⟩
      message := item.message
      related := [] }

/-- The digits of a number after a colon, if it is known. -/
def placeOf : Option Nat → List Char
  | none => []
  | some value => ':' :: Nat.toDigits 10 value

/-- What stands between the reference of an item and its message. -/
def between (item : LocatedItem) : List Char :=
  placeOf item.line ++ (placeOf item.column ++ [':', ' '])

/-- What an item says after its tag. -/
def body (item : LocatedItem) : List Char :=
  item.reference.toList ++ (item.between ++ item.message.toList)

theorem toList_positionText (value : Option Nat) : (positionText value).toList = placeOf value := by
  cases value with
  | none => rfl
  | some value =>
    have digits : (toString value).toList = Nat.toDigits 10 value := Nat.toList_repr
    rw [positionText, String.toList_append, digits]
    rfl

/-- An item is its tag in brackets and its body. -/
theorem toList_render (item : LocatedItem) :
    item.render.toList = '[' :: (item.severity.tagName.toList ++ ']' :: ' ' :: item.body) := by
  simp [render, body, between, toList_positionText]

/-- The first item stands alone or is followed by a line break and the others. -/
theorem toList_renderAll_cons (item : LocatedItem) (items : List LocatedItem) :
    (renderAll (item :: items)).toList = item.render.toList ++
      match items with
      | [] => []
      | next :: more => '\n' :: (renderAll (next :: more)).toList := by
  cases items with
  | nil => simp [renderAll]
  | cons next more =>
    simp only [renderAll, String.toList_intercalate, List.map_cons, List.intercalate_cons_cons,
      List.append_assoc]
    rfl

end LocatedItem

/-! ## Part 2 — tags -/

/-- A block with the blanks around its body dropped. -/
def Block.trimmed (block : Block) : Block := { block with body := trimChars block.body }

theorem Severity.ofName?_tagName (severity : Severity) :
    Tag.ofName? severity.tagName.toList = some severity.tag := by
  cases severity <;> decide

/-- What may follow a stretch of text without finishing a tag in it. -/
def EndsTags (rest : List Char) : Prop := ∀ c ∈ rest.head?, c = ':' ∨ c = '\n'

/-- Where no bracket opens, there is no tag. -/
theorem not_hasTag {text : List Char} (plain : '[' ∉ text) : ¬ HasTag text := by
  rintro ⟨before, name, after, rfl, -⟩
  exact plain (List.mem_append_right _ List.mem_cons_self)

theorem HasTag.cons {text : List Char} (c : Char) (tagged : HasTag text) : HasTag (c :: text) := by
  obtain ⟨before, name, after, rfl, named⟩ := tagged
  exact ⟨c :: before, name, after, rfl, named⟩

/-- **No tag begins in a stretch that has none and ends behind it.** -/
theorem tagAt?_append {text rest : List Char} (free : ¬ HasTag ('[' :: text))
    (ends : EndsTags rest) : tagAt? (text ++ rest) = none := by
  apply Option.eq_none_iff_forall_ne_some.mpr
  rintro ⟨tag, after⟩ here
  obtain ⟨name, whole, named⟩ := tagAt?_eq_some here
  have outside : ∀ {c : Char} {tail : List Char}, rest = c :: tail → c ≠ ']' ∧ c ∉ name := by
    intro c tail same
    have first : c ∈ rest.head? := by rw [same]; exact rfl
    rcases ends c first with rfl | rfl
    · exact ⟨by decide, not_mem_of_ofName? named (by cases tag <;> decide)⟩
    · exact ⟨by decide, not_mem_of_ofName? named (by cases tag <;> decide)⟩
  rcases List.append_eq_append_iff.mp whole with ⟨front, inName, closes⟩ | ⟨back, inText, closes⟩
  · -- The stretch ends inside the name, or right before its closing bracket.
    cases front with
    | nil => exact (outside closes).1 rfl
    | cons c front =>
      refine (outside closes).2 ?_
      rw [inName]
      exact List.mem_append_right _ List.mem_cons_self
  · cases back with
    | nil => exact (outside closes.symm).1 rfl
    | cons c back =>
      have same : ']' = c := (List.cons.inj closes).1
      refine free ⟨[], name, back, ?_, Option.isSome_of_eq_some named⟩
      rw [inText, same, List.nil_append]

/-- **A stretch without tags**: cutting goes on behind it. -/
theorem cut_append {text rest : List Char} (free : ¬ HasTag text) (ends : EndsTags rest) :
    cut (text ++ rest) = (text ++ (cut rest).1, (cut rest).2) := by
  induction text with
  | nil => rfl
  | cons c text ih =>
    have later := ih fun tagged => free (tagged.cons c)
    rw [List.cons_append, cut]
    split
    · next opens =>
      subst opens
      split
      · next tag after here =>
        rw [tagAt?_append free ends] at here
        cases here
      · dsimp only
        rw [later, List.cons_append]
    · dsimp only
      rw [later, List.cons_append]

/-- A character other than an opening bracket begins no tag. -/
theorem cut_cons {c : Char} (cs : List Char) (other : c ≠ '[') :
    cut (c :: cs) = (c :: (cut cs).1, (cut cs).2) := by
  rw [cut, if_neg other]

/-- A stretch without brackets, whatever follows it. -/
theorem cut_plain {text : List Char} (plain : '[' ∉ text) (rest : List Char) :
    cut (text ++ rest) = (text ++ (cut rest).1, (cut rest).2) := by
  induction text with
  | nil => rfl
  | cons c text ih =>
    have other : c ≠ '[' := fun same => plain (same ▸ List.mem_cons_self)
    rw [List.cons_append, cut_cons _ other, ih fun inside => plain (List.mem_cons_of_mem _ inside),
      List.cons_append]

/-! ## Part 3 — blanks and numbers -/

/-- Blanks around a text that says something are dropped, and nothing else. -/
theorem trimChars_around {front text back : List Char} (before : ∀ c ∈ front, isBlank c = true)
    (solid : Solid text) (after : ∀ c ∈ back, isBlank c = true) :
    trimChars (front ++ (text ++ back)) = text := by
  obtain ⟨c, text, rfl⟩ := List.exists_cons_of_ne_nil solid.nonempty
  have begins : isBlank c = false := solid.first c rfl
  have dropped : dropBlank (front ++ (c :: text ++ back)) = c :: text ++ back := by
    rw [dropBlank, List.dropWhile_append_of_pos before, List.cons_append,
      List.dropWhile_cons_of_neg]
    simp [begins]
  have ends : ∀ d ∈ (c :: text).reverse.head?, isBlank d = false := by
    simpa only [List.head?_reverse] using solid.last
  have backwards : ∀ d ∈ back.reverse, isBlank d = true := fun d inside =>
    after d (List.mem_reverse.mp inside)
  rw [trimChars, dropped, dropBlankEnd, List.reverse_append,
    List.dropWhile_append_of_pos backwards]
  have kept : (c :: text).reverse.dropWhile isBlank = (c :: text).reverse :=
    Text.dropBlank_eq_self ends
  rw [kept, List.reverse_reverse]

theorem Solid.dropBlankEnd_eq {text : List Char} (solid : Solid text) :
    dropBlankEnd text = text := by
  have trimmed := Text.trimChars_eq_self solid.first solid.last
  rwa [trimChars, Text.dropBlank_eq_self solid.first] at trimmed

/-- A space in front of a text is dropped. -/
theorem Solid.trimChars_space {text : List Char} (solid : Solid text) :
    trimChars (' ' :: text) = text := by
  have skipped : trimChars (' ' :: text) = trimChars text := rfl
  rw [skipped, Text.trimChars_eq_self solid.first solid.last]

/-- What begins and ends with something that has no blanks around it has none. -/
theorem Solid.around {front back : List Char} (begins : Solid front) (ends : Solid back)
    (middle : List Char) : Solid (front ++ (middle ++ back)) := by
  obtain ⟨first, front, rfl⟩ := List.exists_cons_of_ne_nil begins.nonempty
  obtain ⟨last, closes⟩ := Option.ne_none_iff_exists'.mp
    (mt List.getLast?_eq_none_iff.mp ends.nonempty)
  refine ⟨by simp, by simpa using begins.first, fun c among => ?_⟩
  rw [List.getLast?_append, List.getLast?_append, closes] at among
  exact ends.last c (closes.trans among)

theorem isBlank_of_isDigit {c : Char} (digit : c.isDigit = true) : isBlank c = false := by
  rw [Char.isDigit, Bool.and_eq_true, decide_eq_true_eq, decide_eq_true_eq] at digit
  have least : 48 ≤ c.toNat := UInt32.le_iff_toNat_le.mp digit.1
  have most : c.toNat ≤ 57 := UInt32.le_iff_toNat_le.mp digit.2
  simp only [isBlank, Bool.or_eq_false_iff, Bool.and_eq_false_iff, decide_eq_false_iff_not,
    beq_eq_false_iff_ne]
  omega

/-- ASCII digits write the number that they are read as. -/
theorem digitsValue_toDigits (value : Nat) :
    Text.digitsValue (Nat.toDigits 10 value) = value := by
  have back : Nat.ofDigitChars 10 (Nat.toDigits 10 value) 0 = value :=
    Nat.ofDigitChars_toDigits (by decide) (by decide)
  rw [Nat.ofDigitChars_eq_foldl] at back
  simpa only [Text.digitsValue, Nat.mul_comm] using back

theorem isDigit_of_mem_toDigits {value : Nat} {c : Char} (digit : c ∈ Nat.toDigits 10 value) :
    c.isDigit = true :=
  Nat.isDigit_of_mem_toDigits (by decide) (by decide) digit

/-- A number is written with a digit first. -/
theorem toDigits_cons (value : Nat) :
    ∃ digit tail, Nat.toDigits 10 value = digit :: tail ∧ digit.isDigit = true := by
  obtain ⟨digit, tail, same⟩ :=
    List.exists_cons_of_ne_nil (Nat.toDigits_ne_nil (n := value) (b := 10))
  have among : digit ∈ Nat.toDigits 10 value := by
    rw [same]
    exact List.mem_cons_self
  exact ⟨digit, tail, same, isDigit_of_mem_toDigits among⟩

theorem position?_toDigits {value : Nat} (small : value < positionBound) :
    OutputReader.position? (Nat.toDigits 10 value) = some value := by
  have digits : (Nat.toDigits 10 value).all Char.isDigit = true :=
    List.all_eq_true.mpr fun _ => isDigit_of_mem_toDigits
  have written : (Nat.toDigits 10 value).isEmpty = false :=
    List.isEmpty_eq_false_iff.mpr Nat.toDigits_ne_nil
  rw [OutputReader.position?, Text.decimal?, digits, written, digitsValue_toDigits, if_pos small]
  rfl

/-! ## Part 4 — the place at the front of a body -/

/-- A reference on one line is the path up to the colon behind it. -/
theorem upToColon?_reference {reference : List Char} (solid : Solid reference)
    (oneLine : ∀ c ∈ reference, c ≠ ':' ∧ c ≠ '\r' ∧ c ≠ '\n') (after : List Char) :
    upToColon? (reference ++ ':' :: after) = some (reference, after) := by
  have inside : ∀ c ∈ reference, (c != ':') = true := fun c among =>
    bne_iff_ne.mpr (oneLine c among).1
  have taken : (reference ++ ':' :: after).takeWhile (· != ':') = reference := by
    rw [List.takeWhile_append_of_pos inside]
    simp
  have left : (reference ++ ':' :: after).dropWhile (· != ':') = ':' :: after := by
    rw [List.dropWhile_append_of_pos inside]
    simp
  have unbroken : reference.any isLineBreak = false := by
    apply List.any_eq_false.mpr
    intro c among
    simp [isLineBreak, (oneLine c among).2.1, (oneLine c among).2.2]
  have path : pathBefore? reference = some reference := by
    obtain ⟨c, tail, rfl⟩ := List.exists_cons_of_ne_nil solid.nonempty
    rw [pathBefore?, solid.dropBlankEnd_eq]
    simp only [List.isEmpty_cons, unbroken]
    rfl
  rw [upToColon?, left, taken]
  dsimp only
  rw [path]
  rfl

/-- A reference without colons is no drive, unless a slash follows the colon behind it. -/
theorem driveOf_reference {reference : List Char} (named : reference ≠ [])
    (plain : ∀ c ∈ reference, c ≠ ':') {after : List Char}
    (noSlash : ∀ c ∈ after.head?, c ≠ '\\' ∧ c ≠ '/') :
    driveOf (reference ++ ':' :: after) = none := by
  match reference with
  | [] => exact absurd rfl named
  | [letter] =>
    cases after with
    | nil => rfl
    | cons slash after =>
      have other := noSlash slash rfl
      simp [driveOf, other.1, other.2]
  | letter :: second :: reference =>
    have other : second ≠ ':' := plain second (by simp)
    rw [List.cons_append, List.cons_append, driveOf]
    intro first slash rest same
    have third := (List.cons.inj (List.cons.inj same).2).1
    exact other third

theorem pathPrefix?_reference {reference : List Char} (solid : Solid reference)
    (oneLine : ∀ c ∈ reference, c ≠ ':' ∧ c ≠ '\r' ∧ c ≠ '\n') {after : List Char}
    (noSlash : ∀ c ∈ after.head?, c ≠ '\\' ∧ c ≠ '/') :
    pathPrefix? (reference ++ ':' :: after) = some (reference, after) := by
  rw [pathPrefix?, driveOf_reference solid.nonempty (fun c among => (oneLine c among).1) noSlash]
  exact upToColon?_reference solid oneLine after

/-- A number right behind a colon is read up to the next one. -/
theorem number?_toDigits (value : Nat) (after : List Char) :
    number? (Nat.toDigits 10 value ++ ':' :: after) = some (Nat.toDigits 10 value, after) := by
  have digits : ∀ c ∈ Nat.toDigits 10 value, Text.isDigit c = true := by
    intro c among
    simp [Text.isDigit, isDigit_of_mem_toDigits among]
  obtain ⟨c, tail, same, isDigit⟩ := toDigits_cons value
  have start : dropBlank (Nat.toDigits 10 value ++ ':' :: after) =
      Nat.toDigits 10 value ++ ':' :: after := by
    apply Text.dropBlank_eq_self
    simp [same, isBlank_of_isDigit isDigit]
  have taken : (Nat.toDigits 10 value ++ ':' :: after).takeWhile Text.isDigit =
      Nat.toDigits 10 value := by
    rw [List.takeWhile_append_of_pos digits, List.takeWhile_cons_of_neg (by decide),
      List.append_nil]
  have behind : dropBlank (':' :: after) = ':' :: after := rfl
  have written : (Nat.toDigits 10 value).isEmpty = false :=
    List.isEmpty_eq_false_iff.mpr Nat.toDigits_ne_nil
  unfold number?
  dsimp only
  rw [start, taken, List.drop_left, behind, written]
  rfl

/-- Where a message follows a colon and does not begin with a number, there is no number. -/
theorem number?_message {message : List Char} (solid : Solid message)
    (noNumber : ¬ BeginsWithNumber message) : number? (' ' :: message) = none := by
  have start : dropBlank (' ' :: message) = message := by
    have skipped : dropBlank (' ' :: message) = dropBlank message := rfl
    rw [skipped, Text.dropBlank_eq_self solid.first]
  unfold number?
  dsimp only
  rw [start]
  split
  · next after colon =>
    have split : message.takeWhile Text.isDigit ++
        message.drop (message.takeWhile Text.isDigit).length = message :=
      List.prefix_iff_eq_append.mp (List.takeWhile_prefix _)
    by_cases none : message.takeWhile Text.isDigit = []
    · rw [none]
      rfl
    · refine absurd ⟨message.takeWhile Text.isDigit,
        (message.drop (message.takeWhile Text.isDigit).length).takeWhile isBlank, after,
        ?_, none, ?_, ?_⟩ noNumber
      · rw [← colon, dropBlank, List.takeWhile_append_dropWhile, split]
      · exact List.all_eq_true.mp List.all_takeWhile
      · exact List.all_eq_true.mp List.all_takeWhile
  · rfl

namespace LocatedItem

variable {reader : OutputReader} {item : LocatedItem}

/-- **The place at the front of a body is read off exactly.** -/
theorem placePrefix?_body (readable : item.Readable reader) :
    placePrefix? item.body = some
      ⟨item.reference.toList, item.line.map (Nat.toDigits 10), item.column.map (Nat.toDigits 10),
        ' ' :: item.message.toList⟩ := by
  have path : ∀ after : List Char, (∀ c ∈ after.head?, c ≠ '\\' ∧ c ≠ '/') →
      pathPrefix? (item.reference.toList ++ ':' :: after) =
        some (item.reference.toList, after) :=
    fun after noSlash => pathPrefix?_reference readable.reference readable.oneLine noSlash
  have digits : ∀ (value : Nat) (after : List Char),
      ∀ c ∈ (Nat.toDigits 10 value ++ ':' :: after).head?, c ≠ '\\' ∧ c ≠ '/' := by
    intro value after c first
    obtain ⟨digit, tail, same, isDigit⟩ := toDigits_cons value
    rw [same] at first
    cases first
    constructor <;> rintro rfl <;> exact absurd isDigit (by decide)
  cases lineKnown : item.line with
  | none =>
    have whole : item.body = item.reference.toList ++ ':' :: ' ' :: item.message.toList := by
      simp [body, between, lineKnown, readable.columnOfLine lineKnown, placeOf]
    have nothing := number?_message readable.message (readable.noNumber (.inl lineKnown))
    rw [placePrefix?, whole, path _ (by simp)]
    simp [nothing, readable.columnOfLine lineKnown]
  | some line =>
    cases columnKnown : item.column with
    | none =>
      have whole : item.body = item.reference.toList ++
          ':' :: (Nat.toDigits 10 line ++ ':' :: ' ' :: item.message.toList) := by
        simp [body, between, lineKnown, columnKnown, placeOf]
      have nothing := number?_message readable.message (readable.noNumber (.inr columnKnown))
      rw [placePrefix?, whole, path _ (digits line _)]
      simp [number?_toDigits, nothing]
    | some column =>
      have whole : item.body = item.reference.toList ++ ':' :: (Nat.toDigits 10 line ++
          ':' :: (Nat.toDigits 10 column ++ ':' :: ' ' :: item.message.toList)) := by
        simp [body, between, lineKnown, columnKnown, placeOf]
      rw [placePrefix?, whole, path _ (digits line _)]
      simp [number?_toDigits]

/-- The place of an item is the file, line and column that it was written for. -/
theorem located?_body (readable : item.Readable reader) {file : Path}
    (found : reader.locate? item.reference.toList = some file) :
    reader.located? item.body =
      some (⟨file, item.line, item.column⟩, item.message.toList) := by
  have message := readable.message.trimChars_space
  have position : ∀ value : Option Nat, (∀ n ∈ value, n < positionBound) →
      (value.map (Nat.toDigits 10)).bind OutputReader.position? = value := by
    intro value small
    cases value with
    | none => rfl
    | some n => exact position?_toDigits (small n rfl)
  have spoken : item.message.toList.isEmpty = false :=
    List.isEmpty_eq_false_iff.mpr readable.message.nonempty
  simp only [OutputReader.located?, placePrefix?_body readable, found, message, spoken,
    position _ readable.line, position _ readable.column, Option.bind_eq_bind, Option.bind_some]
  rfl

/-- **One block gives the finding that it was written for.** -/
theorem ofBlock?_body (readable : item.Readable reader) :
    reader.ofBlock? ⟨item.severity.tag, item.body⟩ = item.diagnostic? reader := by
  obtain ⟨file, found⟩ := Option.isSome_iff_exists.mp readable.found
  have grave : item.severity.tag.severity? = some item.severity := by
    cases item.severity <;> rfl
  have spoken : item.body.isEmpty = false := by
    apply List.isEmpty_eq_false_iff.mpr
    intro nothing
    exact readable.reference.nonempty (List.append_eq_nil_iff.mp nothing).1
  have alone : ∀ location, reader.relatedIn location item.message.toList = [] := by
    intro location
    rw [OutputReader.relatedIn, readable.noReport]
    rfl
  rw [OutputReader.ofBlock?, grave, diagnostic?, found]
  dsimp only
  rw [spoken, OutputReader.diagnosticOf, located?_body readable found]
  simp [alone]

/-! ## Part 5 — a whole log -/

theorem plain_placeOf (value : Option Nat) : '[' ∉ placeOf value := by
  cases value with
  | none => simp [placeOf]
  | some value =>
    intro inside
    rcases List.mem_cons.mp inside with same | among
    · exact absurd same (by decide)
    · exact absurd (isDigit_of_mem_toDigits among) (by decide)

theorem plain_between (item : LocatedItem) : '[' ∉ item.between := by
  simp [between, plain_placeOf]

/-- What stands behind a reference begins with a colon. -/
theorem endsTags_between (item : LocatedItem) (rest : List Char) :
    EndsTags (item.between ++ rest) := by
  intro c first
  refine .inl ?_
  unfold between at first
  cases line : item.line with
  | none =>
    cases column : item.column <;> simpa [line, column, placeOf, eq_comm] using first
  | some _ => simpa [line, placeOf, eq_comm] using first

/-- A body is a stretch without tags. -/
theorem cut_body (readable : item.Readable reader) {rest : List Char} (ends : EndsTags rest) :
    cut (' ' :: (item.body ++ rest)) = (' ' :: (item.body ++ (cut rest).1), (cut rest).2) := by
  have whole : item.body ++ rest =
      item.reference.toList ++ (item.between ++ (item.message.toList ++ rest)) := by
    simp [body]
  rw [cut_cons _ (by decide), whole, cut_append readable.noTagBefore (endsTags_between _ _),
    cut_plain (plain_between item), cut_append readable.noTagAfter ends]
  simp [body]

/-- A body begins with a reference and ends with a message. -/
theorem solid_body (readable : item.Readable reader) : Solid item.body :=
  readable.reference.around readable.message item.between

/-- **One item opens one block**, and its body is what stands between its tag and the next. -/
theorem cut_render (readable : item.Readable reader) {rest : List Char} (ends : EndsTags rest)
    (gap : ∀ c ∈ (cut rest).1, isBlank c = true) :
    (cut (item.render.toList ++ rest)).1 = [] ∧
      (cut (item.render.toList ++ rest)).2.map Block.trimmed =
        ⟨item.severity.tag, item.body⟩ :: (cut rest).2.map Block.trimmed := by
  have whole : item.render.toList ++ rest =
      '[' :: (item.severity.tagName.toList ++ ']' :: ' ' :: (item.body ++ rest)) := by
    simp [toList_render]
  have trimmed : trimChars ([' '] ++ (item.body ++ (cut rest).1)) = item.body :=
    trimChars_around (fun c among => List.mem_singleton.mp among ▸ rfl) (solid_body readable) gap
  rw [whole, cut_tag item.severity.ofName?_tagName, cut_body readable ends]
  refine ⟨rfl, ?_⟩
  have opened : Block.trimmed ⟨item.severity.tag, ' ' :: (item.body ++ (cut rest).1)⟩ =
      ⟨item.severity.tag, item.body⟩ := congrArg (Block.mk item.severity.tag) trimmed
  rw [List.map_cons, opened]

/-- Nothing stands in front of the first tag of a log, and its blocks are those of its items. -/
theorem cut_renderAll {items : List LocatedItem}
    (readable : ∀ item ∈ items, item.Readable reader) :
    (cut (renderAll items).toList).1 = [] ∧
      (cut (renderAll items).toList).2.map Block.trimmed =
        items.map fun item => ⟨item.severity.tag, item.body⟩ := by
  induction items with
  | nil => simp [renderAll, cut]
  | cons item items ih =>
    have this := readable item List.mem_cons_self
    obtain ⟨nothing, others⟩ := ih fun other among => readable other (List.mem_cons_of_mem _ among)
    rw [toList_renderAll_cons, List.map_cons]
    cases items with
    | nil =>
      have ends : EndsTags [] := by simp [EndsTags]
      have step := cut_render this ends (by simp [cut])
      rwa [cut] at step
    | cons next more =>
      have ends : EndsTags ('\n' :: (renderAll (next :: more)).toList) := by simp [EndsTags]
      have lineBreak := cut_cons (renderAll (next :: more)).toList (c := '\n') (by decide)
      have step := cut_render this ends (by simp [lineBreak, nothing, isBlank])
      rw [lineBreak, others] at step
      exact step

/-- **A log that was written item by item gives back the finding of each**, in order. -/
theorem parse_renderAll (reader : OutputReader) (items : List LocatedItem)
    (readable : ∀ item ∈ items, item.Readable reader) :
    (reader.parse (renderAll items)).map some = items.map (diagnostic? reader) := by
  have cutUp : blocks (renderAll items) =
      items.map fun item => ⟨item.severity.tag, item.body⟩ := (cut_renderAll readable).2
  rw [OutputReader.parse, cutUp]
  clear cutUp
  induction items with
  | nil => rfl
  | cons item items ih =>
    have others := ih fun other among => readable other (List.mem_cons_of_mem _ among)
    have this := readable item List.mem_cons_self
    obtain ⟨file, found⟩ := Option.isSome_iff_exists.mp this.found
    have here := ofBlock?_body this
    rw [List.map_cons, List.map_cons, ← others]
    have known : item.diagnostic? reader =
        some ⟨item.severity, ⟨file, item.line, item.column⟩, item.message, []⟩ := by
      rw [diagnostic?, found]
      rfl
    rw [known] at here ⊢
    rw [List.filterMap_cons_some here]
    rfl

/-- An error with its column and a warning about a whole file. -/
theorem parse_renderAll_two :
    let world := World.ofNodes [] [([⟨"job", by decide⟩], .directory),
      ([⟨"a.sl", by decide⟩, ⟨"job", by decide⟩], .file ⟨#[]⟩)] (by decide) (by decide)
    let reader : OutputReader := ⟨world, ⟨⟨"/job"⟩, ⟨[], none⟩⟩, ⟨"/job"⟩, ⟨"/job/x.sl.json"⟩⟩
    (reader.parse (renderAll [⟨.error, "a.sl", some 12, some 3, "no such name"⟩,
        ⟨.warning, "a.sl", none, none, "unused: 3 times"⟩])).map some =
      [some ⟨.error, ⟨⟨"/job/a.sl"⟩, some 12, some 3⟩, "no such name", []⟩,
        some ⟨.warning, ⟨⟨"/job/a.sl"⟩, none, none⟩, "unused: 3 times", []⟩] := by
  intro world reader
  have found : reader.locate? "a.sl".toList = some ⟨"/job/a.sl"⟩ := by decide +kernel
  have unnumbered : ¬ BeginsWithNumber "unused: 3 times".toList := by
    rintro ⟨digits, gap, after, same, named, isDigit, -⟩
    obtain ⟨first, digits, rfl⟩ := List.exists_cons_of_ne_nil named
    have begins : 'u' = first := (List.cons.inj same).1
    exact absurd (isDigit first List.mem_cons_self) (begins ▸ by decide)
  have readable : ∀ item ∈ [⟨.error, "a.sl", some 12, some 3, "no such name"⟩,
      ⟨.warning, "a.sl", none, none, "unused: 3 times"⟩], Readable reader item := by
    intro item among
    have leads : (reader.locate? "a.sl".toList).isSome = true := by rw [found]; rfl
    have reference : Solid "a.sl".toList := ⟨by decide, by simp [isBlank], by simp [isBlank]⟩
    rcases List.mem_pair.mp among with rfl | rfl
    · exact ⟨leads, reference, by simp, by decide, by decide, by decide,
        ⟨by decide, by simp [isBlank], by simp [isBlank]⟩, by decide, by simp,
        not_hasTag (by decide), not_hasTag (by decide)⟩
    · exact ⟨leads, reference, by simp, by decide, by decide, by decide,
        ⟨by decide, by simp [isBlank], by simp [isBlank]⟩, by decide, fun _ => unnumbered,
        not_hasTag (by decide), not_hasTag (by decide)⟩
  rw [parse_renderAll reader _ readable]
  simp only [List.map_cons, List.map_nil, diagnostic?, found]
  rfl

end LocatedItem

end ShaderForge
