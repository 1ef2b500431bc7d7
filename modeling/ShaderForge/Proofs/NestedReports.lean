/-
**Reports of nested tools read back.**

A compiler passes on what a tool of its own printed as one finding: `[ERROR] tool: ` and then the
messages of the tool, each on lines of its own, as `ERROR: message` or `WARNING: message`. A message
may begin with a place, `reference:line: `. Reading such a report gives one finding, which belongs
to the primary config and is related to each of the messages, in order.

There are two grammars in one text. The tags of the outer one must not stand in a message
(`HasTag`), and neither must the markers of the inner one (`HasMarker`). A tool whose name ends in
`-ERROR` is cut in two at its own colon, but nothing stands between that colon and the first
message.

* `cutMarkers_append`: a stretch without markers never hides or makes one;
* `reports_body`: cutting a report at its markers gives its messages;
* `parse_nestedReport`: a whole report gives its finding.
-/

import Mathlib.Data.List.DropRight
import ShaderForge.Proofs.LocatedItems
import ShaderForge.Proofs.PathText

namespace ShaderForge

open Text (isBlank dropBlank dropBlankEnd trimChars boundaryBefore)

/-! ## Part 1 — reports -/

/-- **What a nested message says**, about a line of a file or by itself. -/
inductive NestedForm
  | located (reference : String) (line : Nat) (text : String)
  | plain (text : String)
deriving DecidableEq

/-- The text of a nested message. -/
def NestedForm.render : NestedForm → String
  | located reference line text => reference ++ ":" ++ toString line ++ ": " ++ text
  | plain text => text

/-- **A nested message**, with the word that introduces it. -/
structure NestedMessage where
  severity : Severity
  form : NestedForm
deriving DecidableEq

/-- A nested message with its word. -/
def NestedMessage.render (message : NestedMessage) : String :=
  message.severity.tagName ++ ": " ++ message.form.render

/-- **The report of a nested tool.** -/
structure NestedReport where
  tool : String
  messages : List NestedMessage
deriving DecidableEq

namespace NestedReport

/-- What a report says: the name of the tool, and its messages on lines of their own. -/
def body (report : NestedReport) : String :=
  report.tool ++ ": " ++ "\n".intercalate (report.messages.map NestedMessage.render)

/-- A report as the compiler prints it. -/
def render (report : NestedReport) : String := "[ERROR] " ++ report.body

end NestedReport

/-- Whether a marker stands in a text that follows a character, if there is one: one of the two
words at the beginning of a word, and a colon behind it, blanks between them aside. -/
def MarkerAfter (before : Option Char) (text : List Char) : Prop :=
  ∃ front severity gap after,
    text = front ++ (Severity.tagName severity).toList ++ (gap ++ ':' :: after) ∧
      boundaryBefore (front.getLast?.or before) = true ∧ ∀ c ∈ gap, isBlank c = true

/-- Whether a marker stands in a text. -/
def HasMarker (text : List Char) : Prop := MarkerAfter none text

/-- A letter, and behind it word characters, points and hyphens. -/
def IsToolName (name : List Char) : Prop :=
  ∃ first rest, name = first :: rest ∧ first.isAlpha = true ∧ ∀ c ∈ rest, isToolChar c = true

/-- **What a nested message may say**: its file is there, or what stands before its first colon is
no file. -/
inductive NestedForm.Fits (reader : OutputReader) : NestedForm → Prop
  | located {reference : String} {line : Nat} {text : String}
      (found : (reader.locate? reference.toList).isSome = true) (named : Solid reference.toList)
      (oneLine : ∀ c ∈ reference.toList, c ≠ ':' ∧ c ≠ '\r' ∧ c ≠ '\n')
      (small : line < positionBound) (spoken : Solid text.toList) :
      Fits reader (.located reference line text)
  | plain {text : String} (spoken : Solid text.toList)
      (unknown : ∀ before after, text.toList = before ++ ':' :: after → ':' ∉ before →
        reader.locate? before = none) : Fits reader (.plain text)

/-- **What can be read back**: a report of a tool that is no file, whose messages are not mistaken
for others. -/
structure NestedReport.Readable (reader : OutputReader) (report : NestedReport) : Prop where
  named : IsToolName report.tool.toList
  unknown : reader.locate? report.tool.toList = none
  some_message : report.messages ≠ []
  fits : ∀ message ∈ report.messages, message.form.Fits reader
  noMarker : ∀ message ∈ report.messages, ¬ HasMarker message.form.render.toList
  noTag : ∀ message ∈ report.messages, ¬ HasTag message.form.render.toList

/-- What a nested message is about, if its reference leads to a file. -/
def NestedForm.related? (reader : OutputReader) : NestedForm → Option RelatedLocation
  | located reference line text =>
    (reader.locate? reference.toList).map fun file => ⟨file, some line, text⟩
  | plain text => some ⟨reader.primary, none, text⟩

/-! ## Part 2 — the text of a report -/

theorem NestedForm.toList_located (reference : String) (line : Nat) (text : String) :
    (located reference line text).render.toList =
      reference.toList ++ ':' :: (Nat.toDigits 10 line ++ ':' :: ' ' :: text.toList) := by
  simp [render]

namespace NestedMessage

/-- A nested message is its word, a colon, and what it says. -/
theorem toList_render (message : NestedMessage) :
    message.render.toList =
      message.severity.tagName.toList ++ ':' :: ' ' :: message.form.render.toList := by
  simp [render]

/-- The messages that follow another one, each behind a line break. -/
def following : List NestedMessage → List Char
  | [] => []
  | message :: more => '\n' :: (message.render.toList ++ following more)

/-- Messages on lines of their own. -/
def printed : List NestedMessage → List Char
  | [] => []
  | message :: more => message.render.toList ++ following more

theorem toList_intercalate (messages : List NestedMessage) :
    ("\n".intercalate (messages.map render)).toList = printed messages := by
  cases messages with
  | nil => rfl
  | cons message more =>
    induction more generalizing message with
    | nil => simp [printed, following]
    | cons next more ih =>
      have later := ih next
      rw [List.map_cons] at later
      rw [printed, following, ← printed, ← later]
      simp only [String.toList_intercalate, List.map_cons, List.intercalate_cons_cons,
        List.append_assoc]
      rfl

end NestedMessage

/-- What a report says: the tool's name, a colon, and its messages. -/
theorem NestedReport.toList_body (report : NestedReport) :
    report.body.toList =
      report.tool.toList ++ ':' :: ' ' :: NestedMessage.printed report.messages := by
  rw [body, String.toList_append, NestedMessage.toList_intercalate, String.toList_append,
    List.append_assoc]
  rfl

/-! ## Part 3 — markers -/

section Markers

variable {before : Option Char} {c : Char} {cs text rest : List Char}

theorem afterMarker?_tagName (severity : Severity) (rest : List Char) :
    afterMarker? (severity.tagName.toList ++ ':' :: rest) = some rest := by
  cases severity <;> rfl

/-- A word, blanks and a colon at the front of a text. -/
theorem behind_word {word : List Char} (begins : word.isPrefixOf cs = true)
    (blank : dropBlank (cs.drop word.length) = ':' :: rest) :
    ∃ gap, cs = word ++ (gap ++ ':' :: rest) ∧ ∀ c ∈ gap, isBlank c = true := by
  obtain ⟨tail, rfl⟩ := List.isPrefixOf_iff_prefix.mp begins
  rw [List.drop_left] at blank
  refine ⟨tail.takeWhile isBlank, ?_, List.all_eq_true.mp List.all_takeWhile⟩
  rw [← blank, dropBlank, List.takeWhile_append_dropWhile]

/-- A marker is one of the two words and a colon behind it, blanks between them aside. -/
theorem afterMarker?_eq_some (here : afterMarker? cs = some rest) :
    ∃ severity gap, cs = (Severity.tagName severity).toList ++ (gap ++ ':' :: rest) ∧
      ∀ c ∈ gap, isBlank c = true := by
  unfold afterMarker? at here
  dsimp only at here
  rcases Option.or_eq_some_iff.mp here with first | ⟨-, second⟩
  · obtain ⟨begins, first⟩ := Option.ite_none_right_eq_some.mp first
    split at first
    · next blank =>
      cases first
      exact ⟨.error, behind_word begins blank⟩
    · cases first
  · obtain ⟨begins, second⟩ := Option.ite_none_right_eq_some.mp second
    split at second
    · next blank =>
      cases second
      exact ⟨.warning, behind_word begins blank⟩
    · cases second

theorem wordMarker?_eq_some (here : wordMarker? before cs = some rest) :
    boundaryBefore before = true ∧ afterMarker? cs = some rest := by
  unfold wordMarker? at here
  split at here
  · next bounded => exact ⟨bounded, here⟩
  · cases here

theorem cutMarkers_none (nothing : wordMarker? before (c :: cs) = none) :
    cutMarkers before (c :: cs) =
      (c :: (cutMarkers (some c) cs).1, (cutMarkers (some c) cs).2) := by
  rw [cutMarkers]
  split
  · next rest here =>
    rw [nothing] at here
    cases here
  · rfl

theorem cutMarkers_some (here : wordMarker? before cs = some rest) :
    cutMarkers before cs =
      ([], (cutMarkers (some ':') rest).1 :: (cutMarkers (some ':') rest).2) := by
  cases cs with
  | nil =>
    obtain ⟨severity, gap, same, -⟩ := afterMarker?_eq_some (wordMarker?_eq_some here).2
    cases severity <;> cases same
  | cons c cs =>
    rw [cutMarkers]
    split
    · next rest' again =>
      rw [here] at again
      cases again
      rfl
    · next nothing =>
      rw [here] at nothing
      cases nothing

/-- A word at the beginning of a word, and a colon right behind it. -/
theorem cutMarkers_tagName (bounded : boundaryBefore before = true) (severity : Severity)
    (rest : List Char) :
    cutMarkers before (severity.tagName.toList ++ ':' :: rest) =
      ([], (cutMarkers (some ':') rest).1 :: (cutMarkers (some ':') rest).2) := by
  refine cutMarkers_some ?_
  rw [wordMarker?, if_pos bounded, afterMarker?_tagName]

/-- No marker begins with another letter. -/
theorem cutMarkers_cons (other : c ≠ 'E' ∧ c ≠ 'W') :
    cutMarkers before (c :: cs) =
      (c :: (cutMarkers (some c) cs).1, (cutMarkers (some c) cs).2) := by
  refine cutMarkers_none (Option.eq_none_iff_forall_ne_some.mpr fun rest here => ?_)
  obtain ⟨severity, gap, same, -⟩ := afterMarker?_eq_some (wordMarker?_eq_some here).2
  cases severity with
  | error => exact other.1 (List.cons.inj same).1
  | warning => exact other.2 (List.cons.inj same).1

theorem last_cons (c : Char) (text : List Char) (before : Option Char) :
    (c :: text).getLast?.or before = text.getLast?.or (some c) := by
  rw [List.getLast?_cons]
  cases text.getLast? with
  | none => rfl
  | some last => rfl

theorem MarkerAfter.cons (marked : MarkerAfter (some c) text) : MarkerAfter before (c :: text) := by
  obtain ⟨front, severity, gap, after, rfl, bounded, blank⟩ := marked
  refine ⟨c :: front, severity, gap, after, rfl, ?_, blank⟩
  rw [last_cons]
  exact bounded

/-- What may follow a stretch of text without finishing a marker in it: nothing, or a line break and
something other than a colon. -/
def EndsMarkers (rest : List Char) : Prop :=
  (∀ c ∈ rest.head?, c = '\n') ∧ ∀ c ∈ (dropBlank rest).head?, c ≠ ':'

/-- **No marker begins in a stretch that has none and ends behind it.** -/
theorem wordMarker?_append (free : ¬ MarkerAfter before (c :: text)) (ends : EndsMarkers rest) :
    wordMarker? before (c :: (text ++ rest)) = none := by
  refine Option.eq_none_iff_forall_ne_some.mpr fun left here => ?_
  obtain ⟨bounded, marker⟩ := wordMarker?_eq_some here
  obtain ⟨severity, gap, whole, blank⟩ := afterMarker?_eq_some marker
  rw [← List.cons_append, ← List.append_assoc] at whole
  have opens : ∀ front, (∀ c ∈ front, isBlank c = true) → rest ≠ front ++ ':' :: left := by
    rintro front passed rfl
    refine ends.2 ':' ?_ rfl
    rw [dropBlank, List.dropWhile_append_of_pos passed]
    rfl
  rcases List.append_eq_append_iff.mp whole with
    ⟨middle, inMarker, behind⟩ | ⟨middle, inText, behind⟩
  · -- The stretch ends inside the marker: then what follows it is blank up to the colon.
    refine opens middle ?_ behind
    rcases List.append_eq_append_iff.mp inMarker with ⟨inGap, -, within⟩ | ⟨inWord, word, within⟩
    · exact fun c among => blank c (within ▸ List.mem_append_right _ among)
    · cases inWord with
      | nil =>
        rw [List.nil_append] at within
        exact within ▸ blank
      | cons d inWord =>
        have lineBreak := ends.1 d (by rw [behind, within]; rfl)
        have letter : d ∈ severity.tagName.toList := by
          rw [word]
          exact List.mem_append_right _ List.mem_cons_self
        rw [lineBreak] at letter
        exact absurd letter (by cases severity <;> decide)
  · -- The marker ends inside the stretch.
    cases middle with
    | nil => exact opens [] (fun _ among => absurd among List.not_mem_nil) behind.symm
    | cons d middle =>
      obtain ⟨rfl, -⟩ := List.cons.inj behind
      refine free ⟨[], severity, gap, middle, ?_, bounded, blank⟩
      rw [inText, List.nil_append, List.append_assoc]

/-- **A stretch without markers**: cutting goes on behind it. -/
theorem cutMarkers_append (free : ¬ MarkerAfter before text) (ends : EndsMarkers rest) :
    cutMarkers before (text ++ rest) =
      (text ++ (cutMarkers (text.getLast?.or before) rest).1,
        (cutMarkers (text.getLast?.or before) rest).2) := by
  induction text generalizing before with
  | nil => rfl
  | cons c text ih =>
    have later := @ih (some c) fun marked => free marked.cons
    rw [List.cons_append, cutMarkers_none (wordMarker?_append free ends), later, last_cons]
    rfl

end Markers

/-! ## Part 4 — messages between markers -/

/-- A text that has no marker has none either behind another character. -/
theorem not_markerAfter {before : Option Char} {text : List Char} (free : ¬ HasMarker text) :
    ¬ MarkerAfter before text := by
  rintro ⟨front, severity, gap, after, rfl, inside, blank⟩
  refine free ⟨front, severity, gap, after, rfl, ?_, blank⟩
  cases last : front.getLast? with
  | none => rfl
  | some c =>
    rw [last] at inside
    exact inside

/-- The text of a message that fits has no blanks around it. -/
theorem NestedForm.Fits.solid {reader : OutputReader} {form : NestedForm}
    (fits : form.Fits reader) : Solid form.render.toList := by
  cases fits with
  | @located reference line text found named oneLine small spoken =>
    have whole : (NestedForm.located reference line text).render.toList = reference.toList ++
        (':' :: (Nat.toDigits 10 line ++ [':', ' ']) ++ text.toList) := by
      simp [toList_located]
    rw [whole]
    exact named.around spoken _
  | plain spoken unknown => exact spoken

namespace NestedMessage

variable {message : NestedMessage} {messages : List NestedMessage} {before : Option Char}

theorem endsMarkers_following (messages : List NestedMessage) :
    EndsMarkers (following messages) := by
  cases messages with
  | nil => exact ⟨fun _ nothing => (nomatch nothing), fun _ nothing => (nomatch nothing)⟩
  | cons message more =>
    refine ⟨fun c begins => (Option.some.inj begins).symm, ?_⟩
    rw [following, toList_render]
    cases message.severity with
    | error =>
      rintro c ⟨⟩
      decide
    | warning =>
      rintro c ⟨⟩
      decide

theorem endsTags_following (messages : List NestedMessage) : EndsTags (following messages) := by
  cases messages with
  | nil => exact fun _ nothing => (nomatch nothing)
  | cons message more => exact fun c begins => .inr (Option.some.inj begins).symm

/-- The texts of messages. -/
def texts (messages : List NestedMessage) : List (List Char) :=
  messages.map fun message => message.form.render.toList

/-- What a text is cut into at its markers: blanks in front of the first one, and messages. -/
structure CutInto (messages : List NestedMessage) (parts : List Char × List (List Char)) :
    Prop where
  front : ∀ c ∈ parts.1, isBlank c = true
  segments : parts.2.map trimChars = texts messages

/-- **A message in front of others**: nothing stands before its marker, and up to the next marker
stands the message, between blanks. -/
theorem cutMarkers_render {more : List NestedMessage} (bounded : boundaryBefore before = true)
    (free : ¬ HasMarker message.form.render.toList) (solid : Solid message.form.render.toList)
    (behind : ∀ last, CutInto more (cutMarkers last (following more))) :
    (cutMarkers before (message.render.toList ++ following more)).1 = [] ∧
      CutInto (message :: more)
        (cutMarkers before (message.render.toList ++ following more)) := by
  rw [toList_render, List.append_assoc, List.cons_append, List.cons_append,
    cutMarkers_tagName bounded, cutMarkers_cons (by decide),
    cutMarkers_append (not_markerAfter free) (endsMarkers_following more)]
  obtain ⟨gap, others⟩ := behind (message.form.render.toList.getLast?.or (some ' '))
  refine ⟨rfl, fun _ nothing => absurd nothing List.not_mem_nil, ?_⟩
  have trimmed : trimChars ([' '] ++ (message.form.render.toList ++ _)) =
      message.form.render.toList :=
    trimChars_around (fun c among => List.mem_singleton.mp among ▸ rfl) solid gap
  rw [List.map_cons, others]
  exact congrArg (· :: texts more) trimmed

/-- **Messages behind another one** are cut apart. -/
theorem cutMarkers_following (before : Option Char)
    (free : ∀ message ∈ messages, ¬ HasMarker message.form.render.toList)
    (solid : ∀ message ∈ messages, Solid message.form.render.toList) :
    CutInto messages (cutMarkers before (following messages)) := by
  induction messages generalizing before with
  | nil =>
    rw [following, cutMarkers]
    exact ⟨fun _ nothing => absurd nothing List.not_mem_nil, rfl⟩
  | cons message more ih =>
    have behind := fun last =>
      ih last (fun other among => free other (List.mem_cons_of_mem _ among))
        fun other among => solid other (List.mem_cons_of_mem _ among)
    have bounded : boundaryBefore (some '\n') = true := by decide
    obtain ⟨nothing, cuts⟩ := cutMarkers_render bounded (free message List.mem_cons_self)
      (solid message List.mem_cons_self) behind
    rw [following, cutMarkers_cons (by decide)]
    refine ⟨fun c among => ?_, cuts.segments⟩
    rw [nothing] at among
    rw [List.mem_singleton.mp among]
    rfl

end NestedMessage

/-! ## Part 5 — the name of the tool -/

section Tool

variable {name : List Char}

/-- The code points of blanks. -/
def blankCodes : List Nat :=
  [0x9, 0xA, 0xB, 0xC, 0xD, 0x20, 0x85, 0xA0, 0x1680, 0x2000, 0x2001, 0x2002, 0x2003, 0x2004,
    0x2005, 0x2006, 0x2007, 0x2008, 0x2009, 0x200A, 0x2028, 0x2029, 0x202F, 0x205F, 0x3000]

theorem mem_blankCodes {c : Char} (blank : isBlank c = true) : c.toNat ∈ blankCodes := by
  simp only [isBlank, Bool.or_eq_true, Bool.and_eq_true, decide_eq_true_eq, beq_iff_eq] at blank
  simp only [blankCodes, List.mem_cons, List.not_mem_nil, or_false]
  omega

/-- **A character of a tool's name is neither blank nor a sign** of the grammars. -/
theorem isBlank_of_isToolChar {c : Char} (inName : isToolChar c = true) : isBlank c = false := by
  refine Bool.eq_false_iff.mpr fun blank => ?_
  have apart : ∀ code ∈ blankCodes, isToolChar (Char.ofNat code) = false := by decide +kernel
  have here := apart c.toNat (mem_blankCodes blank)
  rw [Char.ofNat_toNat, inName] at here
  cases here

theorem isToolChar_of_isAlpha {c : Char} (letter : c.isAlpha = true) : isToolChar c = true := by
  have small : c.toNat < 0x80 := by
    rcases (Bool.or_eq_true c.isUpper c.isLower).mp letter with upper | lower
    · have last : c.val ≤ 'Z'.val := (of_decide_eq_true upper).2
      exact Nat.lt_of_le_of_lt (UInt32.le_iff_toNat_le.mp last) (by decide)
    · have last : c.val ≤ 'z'.val := of_decide_eq_true ((Bool.and_eq_true _ _).mp lower).2
      exact Nat.lt_of_le_of_lt (UInt32.le_iff_toNat_le.mp last) (by decide)
  rw [isToolChar, Text.isWord, if_pos small, Char.isAlphanum, letter]
  rfl

theorem IsToolName.isToolChar (named : IsToolName name) : ∀ c ∈ name, isToolChar c = true := by
  obtain ⟨first, rest, rfl, letter, others⟩ := named
  intro c among
  rcases List.mem_cons.mp among with rfl | later
  · exact isToolChar_of_isAlpha letter
  · exact others c later

/-- A sign that is no character of a name does not stand in it. -/
theorem IsToolName.notMem (named : IsToolName name) {sign : Char}
    (foreign : ShaderForge.isToolChar sign = false) : sign ∉ name := by
  intro among
  rw [named.isToolChar sign among] at foreign
  cases foreign

theorem IsToolName.solid (named : IsToolName name) : Solid name := by
  refine ⟨?_, fun c begins => ?_, fun c closes => ?_⟩
  · obtain ⟨first, rest, rfl, -⟩ := named
    exact List.cons_ne_nil _ _
  · exact isBlank_of_isToolChar (named.isToolChar c (List.mem_of_mem_head? begins))
  · exact isBlank_of_isToolChar (named.isToolChar c (List.mem_of_mem_getLast? closes))

/-- The first colon of a text stands in one place. -/
theorem eq_around_colon {front other after left : List Char} (plain : ':' ∉ front)
    (plain' : ':' ∉ other) (same : front ++ ':' :: after = other ++ ':' :: left) :
    front = other ∧ after = left := by
  have pieces := congrArg (Text.pieces ':') same
  rw [Text.pieces_append_cons, Text.pieces_append_cons, Text.pieces_of_notMem plain,
    Text.pieces_of_notMem plain'] at pieces
  obtain rfl := (List.cons.inj pieces).1
  exact ⟨rfl, (List.cons.inj (List.append_cancel_left same)).2⟩

/-- **A name and a colon in front of a text** add nothing to its messages: if the name ends in a
marker, nothing but a blank stands behind that. -/
theorem segments_behind_name {before : Option Char} {text : List Char}
    (named : ∀ c ∈ name, isToolChar c = true)
    (nothing : (cutMarkers (some ' ') text).1 = []) :
    (((cutMarkers before (name ++ ':' :: ' ' :: text)).2.map trimChars).filter
        fun segment => !segment.isEmpty) =
      ((cutMarkers (some ' ') text).2.map trimChars).filter fun segment => !segment.isEmpty := by
  induction name generalizing before with
  | nil =>
    rw [List.nil_append, cutMarkers_cons (by decide), cutMarkers_cons (by decide)]
  | cons c name ih =>
    cases marker : wordMarker? before (c :: (name ++ ':' :: ' ' :: text)) with
    | none =>
      rw [List.cons_append, cutMarkers_none marker]
      exact ih fun other among => named other (List.mem_cons_of_mem _ among)
    | some left =>
      obtain ⟨severity, gap, whole, blank⟩ := afterMarker?_eq_some (wordMarker?_eq_some marker).2
      rw [← List.cons_append, ← List.append_assoc] at whole
      have plain : ':' ∉ c :: name := fun among => absurd (named ':' among) (by decide)
      have plain' : ':' ∉ severity.tagName.toList ++ gap := by
        intro among
        rcases List.mem_append.mp among with inWord | inGap
        · exact absurd inWord (by cases severity <;> decide)
        · exact absurd (blank ':' inGap) (by decide)
      have rest : ' ' :: text = left := (eq_around_colon plain plain' whole).2
      rw [List.cons_append, cutMarkers_some marker, ← rest, cutMarkers_cons (by decide), nothing]
      rfl

end Tool

/-! ## Part 6 — one message -/

section Reference

variable {before path : List Char}

/-- Blanks at the end of a text are trimmed once. -/
theorem trimChars_dropBlankEnd (begins : ∀ c ∈ before.head?, isBlank c = false) :
    trimChars (dropBlankEnd before) = trimChars before := by
  have front : dropBlankEnd before <+: before := by
    have back := List.reverse_prefix.mpr (List.dropWhile_suffix (l := before.reverse) isBlank)
    rwa [List.reverse_reverse] at back
  have same : ∀ c ∈ (dropBlankEnd before).head?, isBlank c = false := by
    intro c first
    obtain ⟨blanks, parts⟩ := front
    refine begins c ?_
    rw [← parts, List.head?_append, first]
    rfl
  rw [trimChars, trimChars, Text.dropBlank_eq_self same, Text.dropBlank_eq_self begins,
    dropBlankEnd, dropBlankEnd, List.reverse_reverse, List.dropWhile_idempotent]

/-- A reference means the same without the blanks behind it. -/
theorem locate?_dropBlankEnd (reader : OutputReader)
    (begins : ∀ c ∈ before.head?, isBlank c = false) :
    reader.locate? (dropBlankEnd before) = reader.locate? before := by
  have same :
      Text.trim (String.ofList (dropBlankEnd before)) = Text.trim (String.ofList before) := by
    rw [Text.trim, Text.trim, String.toList_ofList, String.toList_ofList,
      trimChars_dropBlankEnd begins]
  rw [OutputReader.locate?, OutputReader.locate?, Resolver.locate?, Resolver.locate?, same]

/-- The path in front of a colon is what stands there, without the blanks behind it. -/
theorem pathBefore?_eq_some (begins : ∀ c ∈ before.head?, isBlank c = false)
    (writes : pathBefore? before = some path) : path = dropBlankEnd before := by
  cases before with
  | nil => cases writes
  | cons c before =>
    have some_path : dropBlankEnd (c :: before) ≠ [] := by
      intro nothing
      have blank : ∀ d ∈ (c :: before).reverse, isBlank d = true :=
        List.dropWhile_eq_nil_iff.mp (List.reverse_eq_nil_iff.mp nothing)
      have letter := begins c rfl
      rw [blank c (List.mem_reverse.mpr List.mem_cons_self)] at letter
      cases letter
    unfold pathBefore? at writes
    split at writes
    · next nothing => exact absurd nothing some_path
    · dsimp only at writes
      split at writes
      · cases writes
      · exact (Option.some.inj writes).symm

/-- A path up to a colon is read from what stands in front of the first one. -/
theorem upToColon?_eq_some {cs after : List Char} (found : upToColon? cs = some (path, after)) :
    ∃ before, cs = before ++ ':' :: after ∧ ':' ∉ before ∧ pathBefore? before = some path := by
  have cutUp := List.takeWhile_append_dropWhile (p := (· != ':')) (l := cs)
  unfold upToColon? at found
  split at found
  · cases found
  · next sign rest left =>
    obtain ⟨read, writes, pair⟩ := Option.map_eq_some_iff.mp found
    obtain ⟨rfl, rfl⟩ := Prod.mk.inj pair
    have colon : sign = ':' := by
      have stops := List.head?_dropWhile_not (· != ':') cs
      rw [left] at stops
      simpa using stops
    subst colon
    refine ⟨_, ?_, fun among => ?_, writes⟩
    · rw [← left]
      exact cutUp.symm
    · exact absurd (List.all_eq_true.mp List.all_takeWhile _ among) (by decide)

end Reference

/-- **A message is about what it was written for.** -/
theorem NestedForm.relatedOf_render {reader : OutputReader} {form : NestedForm}
    (fits : form.Fits reader) :
    some (reader.relatedOf reader.unlocated form.render.toList) = form.related? reader := by
  cases fits with
  | @located reference line text found named oneLine small spoken =>
    obtain ⟨file, leads⟩ := Option.isSome_iff_exists.mp found
    simp only [OutputReader.relatedOf, toList_located, lineLocation?,
      upToColon?_reference named oneLine, number?_toDigits, Option.map_some, Option.bind_eq_bind,
      Option.bind_some, leads, position?_toDigits small, spoken.trimChars_space]
    rw [related?, leads, String.ofList_toList]
    rfl
  | @plain text spoken unknown =>
    have nowhere : ∀ path after, upToColon? text.toList = some (path, after) →
        reader.locate? path = none := by
      intro path after found
      obtain ⟨before, whole, plain, writes⟩ := upToColon?_eq_some found
      have begins : ∀ c ∈ before.head?, isBlank c = false := by
        intro c first
        refine spoken.first c ?_
        rw [whole, List.head?_append, first]
        rfl
      rw [pathBefore?_eq_some begins writes, locate?_dropBlankEnd reader begins]
      exact unknown before after whole plain
    have whole : some (reader.relatedOf reader.unlocated text.toList) =
        some ⟨reader.primary, none, String.ofList text.toList⟩ := by
      rw [OutputReader.relatedOf, lineLocation?]
      cases found : upToColon? text.toList with
      | none => rfl
      | some place =>
        obtain ⟨path, after⟩ := place
        dsimp only
        cases number? after with
        | none => rfl
        | some number =>
          simp only [Option.map_some, Option.bind_eq_bind, Option.bind_some,
            nowhere path after found, Option.bind_none]
          rfl
    rw [render, whole, String.ofList_toList, related?]

/-! ## Part 7 — a whole report -/

namespace NestedMessage

variable {message : NestedMessage} {messages : List NestedMessage} {rest : List Char}

/-- A message without tags in its text has none, and none begins behind it. -/
theorem cut_render (free : ¬ HasTag message.form.render.toList) (ends : EndsTags rest)
    (whole : cut rest = (rest, [])) :
    cut (message.render.toList ++ rest) = (message.render.toList ++ rest, []) := by
  have plain : '[' ∉ message.severity.tagName.toList ++ [':', ' '] := by
    cases message.severity <;> decide
  have parts : message.render.toList ++ rest = message.severity.tagName.toList ++ [':', ' '] ++
      (message.form.render.toList ++ rest) := by
    simp [toList_render]
  rw [parts, cut_plain plain, cut_append free ends, whole]

/-- Messages without tags in their texts are one stretch. -/
theorem cut_following (free : ∀ message ∈ messages, ¬ HasTag message.form.render.toList) :
    cut (following messages) = (following messages, []) := by
  induction messages with
  | nil => rw [following, cut]
  | cons message more ih =>
    have others := ih fun other among => free other (List.mem_cons_of_mem _ among)
    rw [following, cut_cons _ (by decide), cut_render (free message List.mem_cons_self)
      (endsTags_following more) others]

theorem cut_printed (free : ∀ message ∈ messages, ¬ HasTag message.form.render.toList) :
    cut (printed messages) = (printed messages, []) := by
  cases messages with
  | nil => rw [printed, cut]
  | cons message more =>
    have others := cut_following fun other among => free other (List.mem_cons_of_mem message among)
    exact cut_render (free message List.mem_cons_self) (endsTags_following more) others

/-- Messages that fit begin with a word and end with a text. -/
theorem solid_printed (some_message : messages ≠ [])
    (solid : ∀ message ∈ messages, Solid message.form.render.toList) :
    Solid (printed messages) := by
  have word : ∀ severity : Severity, Solid severity.tagName.toList := by
    intro severity
    cases severity <;> exact ⟨by decide, by simp [Severity.tagName, isBlank],
      by simp [Severity.tagName, isBlank]⟩
  have one : ∀ message ∈ messages, Solid message.render.toList := by
    intro message among
    have around := (word message.severity).around (solid message among) [':', ' ']
    rwa [List.cons_append, List.cons_append, List.nil_append, ← toList_render] at around
  clear solid
  induction messages with
  | nil => exact absurd rfl some_message
  | cons message more ih =>
    have this := one message List.mem_cons_self
    cases more with
    | nil =>
      rw [printed, following, List.append_nil]
      exact this
    | cons next more =>
      have others := ih (List.cons_ne_nil _ _) fun other among =>
        one other (List.mem_cons_of_mem _ among)
      exact this.around others ['\n']

end NestedMessage

namespace NestedReport

open NestedMessage (printed texts)

variable {reader : OutputReader} {report : NestedReport}

theorem Readable.solid (readable : report.Readable reader) :
    ∀ message ∈ report.messages, Solid message.form.render.toList :=
  fun message among => (readable.fits message among).solid

/-- **Cutting a report at its markers gives its messages.** -/
theorem reports_body (readable : report.Readable reader) :
    reports report.body.toList = texts report.messages := by
  obtain ⟨message, more, messages⟩ := List.exists_cons_of_ne_nil readable.some_message
  have free := readable.noMarker
  have solid := readable.solid
  rw [messages] at free solid
  have bounded : boundaryBefore (some ' ') = true := by decide
  obtain ⟨nothing, cuts⟩ := NestedMessage.cutMarkers_render bounded
    (free message List.mem_cons_self) (solid message List.mem_cons_self) fun last =>
      NestedMessage.cutMarkers_following last
        (fun other among => free other (List.mem_cons_of_mem _ among))
        (fun other among => solid other (List.mem_cons_of_mem _ among))
  rw [reports, toList_body, messages, printed,
    segments_behind_name readable.named.isToolChar nothing, cuts.segments]
  refine List.filter_eq_self.mpr fun segment cutOut => ?_
  obtain ⟨said, among, rfl⟩ := List.mem_map.mp cutOut
  have spoken := (solid said among).nonempty
  simpa using spoken

/-- A report is taken for one. -/
theorem isToolReport_body (readable : report.Readable reader) :
    isToolReport report.body.toList = true := by
  obtain ⟨message, more, messages⟩ := List.exists_cons_of_ne_nil readable.some_message
  obtain ⟨first, name, tool, letter, others⟩ := readable.named
  have start : dropBlank report.body.toList = first :: (name ++ ':' :: ' ' ::
      (message.severity.tagName.toList ++ ':' :: (' ' :: message.form.render.toList ++
        NestedMessage.following more))) := by
    have solid : isBlank first = false := isBlank_of_isToolChar (isToolChar_of_isAlpha letter)
    rw [toList_body, tool, messages, printed, NestedMessage.toList_render, List.append_assoc]
    refine Text.dropBlank_eq_self ?_
    rintro c ⟨⟩
    exact solid
  have marked : ∀ rest,
      (afterMarker? (dropBlank (' ' :: (message.severity.tagName.toList ++ ':' :: rest)))).isSome =
        true := by
    intro rest
    cases message.severity <;> rfl
  have colon : ∀ rest, dropBlank ((name ++ ':' :: rest).dropWhile isToolChar) = ':' :: rest := by
    intro rest
    rw [List.dropWhile_append_of_pos others]
    rfl
  unfold isToolReport
  rw [start]
  dsimp only
  rw [letter, colon]
  exact marked _

/-- A report has no place, since its tool is no file. -/
theorem located?_body (readable : report.Readable reader) :
    reader.located? report.body.toList = none := by
  have oneLine : ∀ c ∈ report.tool.toList, c ≠ ':' ∧ c ≠ '\r' ∧ c ≠ '\n' := by
    intro c among
    have inName := readable.named.isToolChar c among
    refine ⟨?_, ?_, ?_⟩ <;> rintro rfl <;> exact absurd inName (by decide)
  have noSlash : ∀ c ∈ (' ' :: printed report.messages).head?, c ≠ '\\' ∧ c ≠ '/' := by simp
  have path := pathPrefix?_reference readable.named.solid oneLine noSlash
  have place : ∀ place, placePrefix? report.body.toList = some place →
      place.path = report.tool.toList := by
    intro place found
    rw [placePrefix?, toList_body, path] at found
    dsimp only at found
    split at found
    · cases found
      rfl
    · split at found <;> cases found <;> rfl
  rw [OutputReader.located?]
  cases found : placePrefix? report.body.toList with
  | none => rfl
  | some found_place =>
    simp only [Option.bind_eq_bind, Option.bind_some, place found_place found, readable.unknown,
      Option.bind_none]

/-- A report is one block. -/
theorem blocks_render (readable : report.Readable reader) :
    blocks report.render = [⟨.error, report.body.toList⟩] := by
  have solid : Solid report.body.toList := by
    rw [toList_body]
    exact readable.named.solid.around
      (NestedMessage.solid_printed readable.some_message readable.solid) [':', ' ']
  have plain : '[' ∉ report.tool.toList ++ [':', ' '] := by
    intro among
    rcases List.mem_append.mp among with inTool | sign
    · exact readable.named.notMem (by decide) inTool
    · exact absurd sign (by decide)
  have untagged : cut (' ' :: report.body.toList) = (' ' :: report.body.toList, []) := by
    have parts : report.body.toList =
        report.tool.toList ++ [':', ' '] ++ printed report.messages := by
      simp [toList_body]
    rw [cut_cons _ (by decide), parts, cut_plain plain,
      NestedMessage.cut_printed readable.noTag]
  have whole : report.render.toList =
      '[' :: (Severity.error.tagName.toList ++ ']' :: ' ' :: report.body.toList) := by
    rw [render, String.toList_append]
    rfl
  rw [blocks, whole, cut_tag Severity.error.ofName?_tagName, untagged, List.map_cons,
    solid.trimChars_space]
  rfl

/-- **A report of a nested tool gives one finding**, which belongs to the primary config and is
related to each of the messages, in order. -/
theorem parse_nestedReport (reader : OutputReader) (report : NestedReport)
    (readable : report.Readable reader) :
    ∃ related, reader.parse report.render =
        [⟨.error, ⟨reader.primary, none, none⟩, report.body, related⟩] ∧
      related.map some = report.messages.map fun message => message.form.related? reader := by
  refine ⟨(texts report.messages).map (reader.relatedOf reader.unlocated), ?_, ?_⟩
  · have spoken : report.body.toList.isEmpty = false := by
      rw [toList_body]
      simp
    have related : reader.relatedIn reader.unlocated report.body.toList =
        (texts report.messages).map (reader.relatedOf reader.unlocated) := by
      rw [OutputReader.relatedIn, if_pos (isToolReport_body readable), reports_body readable]
    have finding : reader.ofBlock? ⟨.error, report.body.toList⟩ =
        some ⟨.error, reader.unlocated, report.body, reader.relatedIn reader.unlocated
          report.body.toList⟩ := by
      simp only [OutputReader.ofBlock?, Tag.severity?, spoken, OutputReader.diagnosticOf,
        located?_body readable, Option.getD_none, String.ofList_toList]
      rfl
    rw [OutputReader.parse, blocks_render readable, List.filterMap_cons_some finding, related]
    rfl
  · rw [texts, List.map_map, List.map_map]
    exact List.map_congr_left fun message among =>
      NestedForm.relatedOf_render (readable.fits message among)

/-- An error in a file, and a message that is about no file. -/
theorem parse_nestedReport_two :
    let world := World.ofNodes [] [([⟨"job", by decide⟩], .directory),
      ([⟨"a.vert", by decide⟩, ⟨"job", by decide⟩], .file ⟨#[]⟩)] (by decide) (by decide)
    let reader : OutputReader := ⟨world, ⟨⟨"/job"⟩, ⟨[], none⟩⟩, ⟨"/job"⟩, ⟨"/job/x.sl.json"⟩⟩
    let report : NestedReport := ⟨"glslang", [⟨.error, .located "a.vert" 7 "no such name"⟩,
      ⟨.warning, .plain "0:9: unused"⟩]⟩
    ∃ related, reader.parse report.render =
        [⟨.error, ⟨⟨"/job/x.sl.json"⟩, none, none⟩, report.body, related⟩] ∧
      related.map some = [some ⟨⟨"/job/a.vert"⟩, some 7, "no such name"⟩,
        some ⟨⟨"/job/x.sl.json"⟩, none, "0:9: unused"⟩] := by
  intro world reader report
  have found : reader.locate? "a.vert".toList = some ⟨"/job/a.vert"⟩ := by decide +kernel
  have unmarked : ∀ text : List Char, 'R' ∉ text → ¬ HasMarker text := by
    rintro text plain ⟨front, severity, gap, after, rfl, -⟩
    cases severity <;> simp [Severity.tagName] at plain
  have unknown : ∀ before after, "0:9: unused".toList = before ++ ':' :: after → ':' ∉ before →
      reader.locate? before = none := by
    intro before after same plain
    have first : "0".toList ++ ':' :: "9: unused".toList = before ++ ':' :: after := same
    rw [← (eq_around_colon (by decide) plain first).1]
    decide +kernel
  have readable : report.Readable reader := by
    have letters : ∀ c ∈ "lslang".toList, isToolChar c = true := List.all_eq_true.mp (by decide)
    refine ⟨⟨'g', "lslang".toList, by decide, by decide, letters⟩, by decide +kernel, by decide,
      ?_, ?_, ?_⟩
    · intro message among
      rcases List.mem_pair.mp among with rfl | rfl
      · exact .located (by rw [found]; rfl) ⟨by decide, by simp [isBlank], by simp [isBlank]⟩
          (by simp) (by decide) ⟨by decide, by simp [isBlank], by simp [isBlank]⟩
      · exact .plain ⟨by decide, by simp [isBlank], by simp [isBlank]⟩ unknown
    · intro message among
      rcases List.mem_pair.mp among with rfl | rfl <;> exact unmarked _ (by decide)
    · intro message among
      rcases List.mem_pair.mp among with rfl | rfl <;> exact not_hasTag (by decide)
  obtain ⟨related, parsed, each⟩ := parse_nestedReport reader report readable
  refine ⟨related, parsed, each.trans ?_⟩
  simp only [report, List.map_cons, List.map_nil, NestedForm.related?, found]
  rfl

end NestedReport

end ShaderForge
