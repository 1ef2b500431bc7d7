/-
**What a JSON document writes.**

A value is written as a word, a numeral, text between quotes, or as items or fields between brackets
with commas and blanks between them, each nested less deep than the whole. This is said here without
the reader, as a relation of texts and values: `Writes` for one value, `Document` for a text with
blanks around it. Of the fields with one name the last one counts, and those that count are kept in
the order of their names (`LastCounts`).

* `readBy_readValue`: what is written is read, whatever ends it, and what is read was written;
* `read_iff`: so the value of a document is the one that it writes, and only that;
* `readable_of_read`: what was read can be read again.
-/

import ShaderForge.Proofs.JsonReadback

namespace ShaderForge.Json

variable {rest : List Char} {value : Json}

/-! ## Part 1 — text between quotes -/

/-- **What characters between quotes spell**: each stands for itself, unless it is a quote, a
backslash or a control character; a backslash begins an escape by a letter, by a code, or by the
codes of two halves. -/
inductive Spells : List Char → List Char → Prop
  | nil : Spells [] []
  | plain {c : Char} {between content : List Char} (quote : c ≠ '"') (backslash : c ≠ '\\')
      (printable : 0x20 ≤ c.toNat) (others : Spells between content) :
      Spells (c :: between) (c :: content)
  | letter {c meant : Char} {between content : List Char} (stands : letterEscape? c = some meant)
      (others : Spells between content) : Spells ('\\' :: c :: between) (meant :: content)
  | code {a b c d : Char} {code : Nat} {between content : List Char}
      (digits : hexCode? a b c d = some code) (high : isHighHalf code = false)
      (low : isLowHalf code = false) (others : Spells between content) :
      Spells ('\\' :: 'u' :: a :: b :: c :: d :: between) (Char.ofNat code :: content)
  | pair {a b c d e f g h : Char} {code half : Nat} {between content : List Char}
      (digits : hexCode? a b c d = some code) (high : isHighHalf code = true)
      (others : hexCode? e f g h = some half) (low : isLowHalf half = true)
      (more : Spells between content) :
      Spells ('\\' :: 'u' :: a :: b :: c :: d :: '\\' :: 'u' :: e :: f :: g :: h :: between)
        (Char.ofNat (0x10000 + (code - 0xD800) * 0x400 + (half - 0xDC00)) :: content)

/-- A code is not that of both halves. -/
theorem isLowHalf_of_isHighHalf {code : Nat} (high : isHighHalf code = true) :
    isLowHalf code = false := by
  rw [isHighHalf, Bool.and_eq_true, decide_eq_true_eq, decide_eq_true_eq] at high
  rw [isLowHalf, Bool.and_eq_false_iff, decide_eq_false_iff_not]
  exact .inl (by omega)

/-- **What is spelled is read**, up to the closing quote. -/
theorem Spells.readText {between content : List Char} (spells : Spells between content)
    (rest : List Char) : readText (between ++ '"' :: rest) = some (content, rest) := by
  induction spells with
  | nil => simp [Json.readText]
  | plain quote backslash printable others ih =>
    rw [List.cons_append, readText.eq_5 _ _ quote (fun _ _ _ _ _ same _ => backslash same)
      (fun _ _ same _ => backslash same), if_neg, ih]
    · rfl
    · rintro (same | control)
      · exact backslash same
      · omega
  | @letter c meant between content stands others ih =>
    have none : letterEscape? 'u' = Option.none := by decide
    have other : c ≠ 'u' := by
      rintro rfl
      rw [none] at stands
      cases stands
    rw [List.cons_append, List.cons_append, readText.eq_4 _ _ fun _ _ _ _ _ same _ => other same,
      stands]
    dsimp only
    rw [ih]
    rfl
  | code digits high low others ih =>
    simp only [List.cons_append]
    rw [Json.readText, digits]
    simp only [low, high, Bool.false_eq_true, if_false, ih]
    rfl
  | pair digits high others low more ih =>
    simp only [List.cons_append]
    rw [Json.readText, digits]
    simp only [isLowHalf_of_isHighHalf high, high, others, low, Bool.false_eq_true, if_false,
      if_true, ih]
    rfl

/-- **What is read was spelled.** -/
theorem spells_of_readText {cs content : List Char} (given : readText cs = some (content, rest)) :
    ∃ between, cs = between ++ '"' :: rest ∧ Spells between content := by
  fun_induction readText cs generalizing content with
  | case1 | case3 | case4 | case5 | case7 | case8 | case10 | case12 => cases given
  | case2 after =>
    cases given
    exact ⟨[], rfl, .nil⟩
  | case6 a b c d code digits _ high e f g h more half others low ih =>
    obtain ⟨⟨inner, after⟩, read, shape⟩ := Option.map_eq_some_iff.mp given
    cases shape
    obtain ⟨between, rfl, spells⟩ := ih read
    exact ⟨_, rfl, .pair digits high others low spells⟩
  | case9 a b c d after code digits low high ih =>
    obtain ⟨⟨inner, after⟩, read, shape⟩ := Option.map_eq_some_iff.mp given
    cases shape
    obtain ⟨between, rfl, spells⟩ := ih read
    exact ⟨_, rfl, .code digits (Bool.not_eq_true _ ▸ high) (Bool.not_eq_true _ ▸ low) spells⟩
  | case11 c after _ meant stands ih =>
    obtain ⟨⟨inner, after⟩, read, shape⟩ := Option.map_eq_some_iff.mp given
    cases shape
    obtain ⟨between, rfl, spells⟩ := ih read
    exact ⟨_, rfl, .letter stands spells⟩
  | case13 c after quote _ _ plain ih =>
    obtain ⟨⟨inner, after⟩, read, shape⟩ := Option.map_eq_some_iff.mp given
    cases shape
    obtain ⟨between, rfl, spells⟩ := ih read
    exact ⟨_, rfl, .plain quote (fun same => plain (.inl same))
      (Nat.le_of_not_lt fun control => plain (.inr control)) spells⟩

/-! ## Part 2 — blanks, commas and fields -/

/-- Blanks between the parts of a document. -/
def Blanks (cs : List Char) : Prop := ∀ c ∈ cs, isSpace c = true

/-- **Something with blanks around it.** -/
inductive Padded {α : Type} (part : List Char → α → Prop) : List Char → α → Prop
  | mk {before inner after : List Char} {thing : α} (front : Blanks before)
      (written : part inner thing) (back : Blanks after) :
      Padded part (before ++ (inner ++ after)) thing

/-- **Things with commas between them**, at least one. -/
inductive Separated {α : Type} (part : List Char → α → Prop) : List Char → List α → Prop
  | last {text : List Char} {thing : α} (written : part text thing) :
      Separated part text [thing]
  | next {text others : List Char} {thing : α} {things : List α} (written : part text thing)
      (later : Separated part others things) :
      Separated part (text ++ ',' :: others) (thing :: things)

/-- **A field**: a name between quotes, a colon, and a value. -/
inductive WritesField (part : List Char → Json → Prop) : List Char → String × Json → Prop
  | mk {between content gap lead inner : List Char} {value : Json} (named : Spells between content)
      (before : Blanks gap) (after : Blanks lead) (written : part inner value) :
      WritesField part ('"' :: (between ++ '"' :: (gap ++ ':' :: (lead ++ inner))))
        (String.ofList content, value)

theorem Blanks.skip {blanks : List Char} (blank : Blanks blanks) (cs : List Char) :
    skipBlanks (blanks ++ cs) = skipBlanks cs :=
  List.dropWhile_append_of_pos blank

theorem Blanks.skip_cons {blanks : List Char} {c : Char} (blank : Blanks blanks)
    (solid : isSpace c = false) (cs : List Char) : skipBlanks (blanks ++ c :: cs) = c :: cs := by
  rw [blank.skip]
  refine skipBlanks_of_head fun d first => ?_
  cases first
  exact solid

/-- Blanks end a numeral before them, if what follows them does. -/
theorem Blanks.ends {blanks : List Char} (blank : Blanks blanks) (ends : Ends rest) :
    Ends (blanks ++ rest) := by
  cases blanks with
  | nil => exact ends
  | cons c blanks =>
    intro d first
    cases first
    have space := blank c List.mem_cons_self
    simp only [isSpace, Bool.or_eq_true, beq_iff_eq] at space
    rcases space with ((rfl | rfl) | rfl) | rfl <;> decide

/-- What is left when blanks are skipped is what follows some blanks. -/
theorem exists_blanks (cs : List Char) : ∃ blanks, cs = blanks ++ skipBlanks cs ∧ Blanks blanks :=
  ⟨_, List.takeWhile_append_dropWhile.symm, List.all_eq_true.mp List.all_takeWhile⟩

/-- Things with commas between them begin with the first one. -/
theorem Separated.begins {α : Type} {part : List Char → α → Prop} {between : List Char}
    {things : List α} (closing : Char) (written : Separated (Padded part) between things)
    (begins : ∀ {text thing}, part text thing →
      ∃ c tail, text = c :: tail ∧ isSpace c = false ∧ c ≠ closing) (rest : List Char) :
    ∃ c tail, skipBlanks (between ++ rest) = c :: tail ∧ c ≠ closing := by
  have first : ∃ front c tail, between = front ++ c :: tail ∧ Blanks front ∧ isSpace c = false ∧
      c ≠ closing := by
    cases written with
    | last written =>
      cases written with
      | mk front written back =>
        obtain ⟨c, tail, rfl, solid, other⟩ := begins written
        exact ⟨_, c, _, rfl, front, solid, other⟩
    | next written later =>
      cases written with
      | mk front written back =>
        obtain ⟨c, tail, rfl, solid, other⟩ := begins written
        exact ⟨_, c, _, by rw [List.append_assoc, List.append_assoc]; rfl, front, solid, other⟩
  obtain ⟨front, c, tail, rfl, blank, solid, other⟩ := first
  refine ⟨c, tail ++ rest, ?_, other⟩
  rw [List.append_assoc, List.cons_append, blank.skip_cons solid]

/-- Each of the things is written somewhere. -/
theorem Separated.exists_part {α : Type} {part : List Char → α → Prop} {between : List Char}
    {things : List α} (written : Separated (Padded part) between things) :
    ∀ thing ∈ things, ∃ text, part text thing := by
  have inside : ∀ {text thing}, Padded part text thing → ∃ text, part text thing := by
    rintro _ _ ⟨-, written, -⟩
    exact ⟨_, written⟩
  induction written with
  | last written =>
    intro thing member
    rw [List.mem_singleton.mp member]
    exact inside written
  | next written later ih =>
    intro thing member
    rcases List.mem_cons.mp member with rfl | others
    · exact inside written
    · exact ih thing others

/-- **What one of the readers for what is inside of a value has to do**: it reads what is written,
whatever ends it, and what it reads was written. What is written begins with no blank. -/
structure ReadBy (reader : List Char → Option (Json × List Char))
    (part : List Char → Json → Prop) : Prop where
  reads : ∀ {text value}, part text value → ∀ {rest}, Ends rest →
    reader (text ++ rest) = some (value, rest)
  wrote : ∀ {cs value rest}, reader cs = some (value, rest) →
    ∃ text, cs = text ++ rest ∧ part text value
  begins : ∀ {text value}, part text value →
    ∃ c tail, text = c :: tail ∧ isSpace c = false ∧ c ≠ ']'

namespace ReadBy

variable {reader : List Char → Option (Json × List Char)} {part : List Char → Json → Prop}
  (readBy : ReadBy reader part) {between text : List Char}

include readBy

/-- The value after blanks is read. -/
theorem reads_padded (written : part text value) {blanks : List Char} (blank : Blanks blanks)
    (ends : Ends rest) : reader (skipBlanks (blanks ++ (text ++ rest))) = some (value, rest) := by
  obtain ⟨c, tail, rfl, solid, -⟩ := readBy.begins written
  rw [List.cons_append, blank.skip_cons solid]
  exact readBy.reads written ends

/-- **Items that are written are read**, up to the closing bracket. -/
theorem readItems {items : List Json} (written : Separated (Padded part) between items)
    {bound : Nat} (enough : between.length < bound) (rest : List Char) :
    readItems reader bound (between ++ ']' :: rest) = some (items, rest) := by
  obtain ⟨bound, rfl⟩ := Nat.exists_eq_succ_of_ne_zero (Nat.ne_zero_of_lt enough)
  induction written generalizing bound with
  | last written =>
    cases written with
    | mk front written back =>
      simp only [List.append_assoc]
      exact readItems_last bound
        (readBy.reads_padded written front (back.ends (ends_cons (by decide) _)))
        (back.skip_cons (by decide) _)
  | @next text others thing things written later ih =>
    cases written with
    | mk front written back =>
      simp only [List.length_append, List.length_cons] at enough
      obtain ⟨bound, rfl⟩ := Nat.exists_eq_succ_of_ne_zero (show bound ≠ 0 by omega)
      simp only [List.append_assoc, List.cons_append]
      exact readItems_next
        (readBy.reads_padded written front (back.ends (ends_cons (by decide) _)))
        (back.skip_cons (by decide) _) (ih bound (by omega))

/-- **Items that are read were written.** -/
theorem separated_of_readItems {bound : Nat} {cs : List Char} {items : List Json}
    (given : Json.readItems reader bound cs = some (items, rest)) :
    ∃ between, cs = between ++ ']' :: rest ∧ Separated (Padded part) between items := by
  induction bound generalizing cs items with
  | zero => cases given
  | succ bound ih =>
    obtain ⟨front, whole, leads⟩ := exists_blanks cs
    rw [Json.readItems] at given
    split at given
    · cases given
    · next value more reads =>
      obtain ⟨text, begins, written⟩ := readBy.wrote reads
      obtain ⟨back, goes, trails⟩ := exists_blanks more
      have padded : Padded part (front ++ (text ++ back)) value := .mk leads written trails
      split at given
      · next closes =>
        cases given
        refine ⟨_, ?_, .last padded⟩
        simp only [List.append_assoc]
        rw [← closes, ← goes, ← begins, ← whole]
      · next others closes =>
        obtain ⟨⟨values, after⟩, later, shape⟩ := Option.map_eq_some_iff.mp given
        cases shape
        obtain ⟨between, rfl, separated⟩ := ih later
        refine ⟨_, ?_, .next padded separated⟩
        simp only [List.append_assoc, List.cons_append]
        rw [← closes, ← goes, ← begins, ← whole]
      · cases given

/-- **Fields that are written are read**, up to the closing brace. -/
theorem readFields {fields : List (String × Json)}
    (written : Separated (Padded (WritesField part)) between fields) {bound : Nat}
    (enough : between.length < bound) (rest : List Char) :
    readFields reader bound (between ++ '}' :: rest) = some (fields, rest) := by
  obtain ⟨bound, rfl⟩ := Nat.exists_eq_succ_of_ne_zero (Nat.ne_zero_of_lt enough)
  induction written generalizing bound with
  | last written =>
    cases written with
    | mk front written back =>
      cases written with
      | mk named gap lead written =>
        simp only [List.append_assoc, List.cons_append]
        exact readFields_last bound (front.skip_cons (by decide) _) (named.readText _)
          (gap.skip_cons (by decide) _)
          (readBy.reads_padded written lead (back.ends (ends_cons (by decide) _)))
          (back.skip_cons (by decide) _)
  | @next text others thing things written later ih =>
    cases written with
    | mk front written back =>
      cases written with
      | mk named gap lead written =>
        simp only [List.length_append, List.length_cons] at enough
        obtain ⟨bound, rfl⟩ := Nat.exists_eq_succ_of_ne_zero (show bound ≠ 0 by omega)
        simp only [List.append_assoc, List.cons_append]
        exact readFields_next (front.skip_cons (by decide) _) (named.readText _)
          (gap.skip_cons (by decide) _)
          (readBy.reads_padded written lead (back.ends (ends_cons (by decide) _)))
          (back.skip_cons (by decide) _) (ih bound (by omega))

/-- **Fields that are read were written.** -/
theorem separated_of_readFields {bound : Nat} {cs : List Char} {fields : List (String × Json)}
    (given : Json.readFields reader bound cs = some (fields, rest)) :
    ∃ between, cs = between ++ '}' :: rest ∧
      Separated (Padded (WritesField part)) between fields := by
  induction bound generalizing cs fields with
  | zero => cases given
  | succ bound ih =>
    obtain ⟨front, whole, leads⟩ := exists_blanks cs
    rw [Json.readFields] at given
    split at given
    · next quoted opens =>
      split at given
      · cases given
      · next content colon reads =>
        obtain ⟨inside, spelled, spells⟩ := spells_of_readText reads
        obtain ⟨gap, parts, before⟩ := exists_blanks colon
        split at given
        · next valued colons =>
          obtain ⟨lead, valuedParts, after⟩ := exists_blanks valued
          split at given
          · cases given
          · next value more reads =>
            obtain ⟨text, begins, written⟩ := readBy.wrote reads
            obtain ⟨back, goes, trails⟩ := exists_blanks more
            have padded := Padded.mk leads (WritesField.mk spells before after written) trails
            dsimp only at given
            split at given
            · next closes =>
              cases given
              refine ⟨_, ?_, .last padded⟩
              simp only [List.append_assoc, List.cons_append]
              rw [← closes, ← goes, ← begins, ← valuedParts, ← colons, ← parts, ← spelled, ← opens,
                ← whole]
            · next others closes =>
              obtain ⟨⟨values, after⟩, later, shape⟩ := Option.map_eq_some_iff.mp given
              cases shape
              obtain ⟨between, rfl, separated⟩ := ih later
              refine ⟨_, ?_, .next padded separated⟩
              simp only [List.append_assoc, List.cons_append]
              rw [← closes, ← goes, ← begins, ← valuedParts, ← colons, ← parts, ← spelled, ← opens,
                ← whole]
            · cases given
        · cases given
    · cases given

end ReadBy

/-! ## Part 3 — the fields that count -/

/-- **Of the fields with one name the last one counts**, and those that count are kept in the order
of their names. -/
structure LastCounts (fields kept : List (String × Json)) : Prop where
  ordered : Ordered kept
  last : ∀ name value, (name, value) ∈ kept ↔ ∃ before after,
    fields = before ++ (name, value) :: after ∧ ∀ later ∈ after, later.1 ≠ name

theorem mem_gather_iff {fields : List (String × Json)} {name : String} :
    (name, value) ∈ gather fields ↔ ∃ before after,
      fields = before ++ (name, value) :: after ∧ ∀ later ∈ after, later.1 ≠ name := by
  rw [← lookup_eq_some_iff_mem (ordered_gather fields).distinct]
  induction fields using List.reverseRecOn with
  | nil => simp [gather]
  | append_singleton fields field ih =>
    rw [gather_concat, lookup_put]
    by_cases same : name = field.1
    · rw [if_pos same, Option.some.injEq]
      constructor
      · rintro rfl
        exact ⟨fields, [], by rw [same], fun _ member => absurd member List.not_mem_nil⟩
      · rintro ⟨before, after, whole, others⟩
        cases after using List.reverseRecOn with
        | nil =>
          obtain ⟨-, last⟩ := List.append_inj' whole rfl
          rw [(List.cons.inj last).1]
        | append_singleton after last _ =>
          rw [← List.cons_append, ← List.append_assoc] at whole
          obtain ⟨-, alike⟩ := List.append_inj' whole rfl
          refine absurd ?_ (others last (List.mem_append_right _ List.mem_cons_self))
          rw [← (List.cons.inj alike).1, same]
    · rw [if_neg same, ih]
      constructor
      · rintro ⟨before, after, rfl, others⟩
        refine ⟨before, after ++ [field], by simp, fun later member => ?_⟩
        rcases List.mem_append.mp member with there | new
        · exact others later there
        · rw [List.mem_singleton.mp new]
          exact Ne.symm same
      · rintro ⟨before, after, whole, others⟩
        cases after using List.reverseRecOn with
        | nil =>
          obtain ⟨-, last⟩ := List.append_inj' whole rfl
          exact absurd (by rw [(List.cons.inj last).1]) same
        | append_singleton after last _ =>
          rw [← List.cons_append, ← List.append_assoc] at whole
          obtain ⟨rfl, -⟩ := List.append_inj' whole rfl
          exact ⟨before, after, rfl, fun later member =>
            others later (List.mem_append_left _ member)⟩

/-- **The fields that count are those that are gathered.** -/
theorem lastCounts_iff {fields kept : List (String × Json)} :
    LastCounts fields kept ↔ kept = gather fields := by
  constructor
  · intro counts
    refine eq_of_mem_iff counts.ordered (ordered_gather fields) fun ⟨name, value⟩ => ?_
    rw [counts.last, mem_gather_iff]
  · rintro rfl
    exact ⟨ordered_gather fields, fun _ _ => mem_gather_iff⟩

/-! ## Part 4 — values -/

/-- **A value with nothing inside**: a word, a number, or text. -/
inductive WritesPlain : List Char → Json → Prop
  | null : WritesPlain ['n', 'u', 'l', 'l'] .null
  | yes : WritesPlain ['t', 'r', 'u', 'e'] (.bool true)
  | no : WritesPlain ['f', 'a', 'l', 's', 'e'] (.bool false)
  | number {text : List Char} {numeral : Numeral} {number : JsonNumber}
      (written : WritesNumeral text numeral) (valued : value? numeral = some number) :
      WritesPlain text (.number number)
  | text {between content : List Char} (spells : Spells between content) :
      WritesPlain ('"' :: (between ++ ['"'])) (.text (String.ofList content))

/-- **A list or an object**, by what is written inside. -/
inductive WritesNested (part : List Char → Json → Prop) : List Char → Json → Prop
  | empty_list {gap : List Char} (blank : Blanks gap) :
      WritesNested part ('[' :: (gap ++ [']'])) (.list [])
  | list {between : List Char} {items : List Json}
      (written : Separated (Padded part) between items) :
      WritesNested part ('[' :: (between ++ [']'])) (.list items)
  | empty_object {gap : List Char} (blank : Blanks gap) :
      WritesNested part ('{' :: (gap ++ ['}'])) (.object [])
  | object {between : List Char} {fields kept : List (String × Json)}
      (written : Separated (Padded (WritesField part)) between fields)
      (counts : LastCounts fields kept) :
      WritesNested part ('{' :: (between ++ ['}'])) (.object kept)

/-- **What a text without blanks around it writes**, nested at most `depth - 1` levels. -/
def Writes : Nat → List Char → Json → Prop
  | 0, _, _ => False
  | depth + 1, cs, value => WritesPlain cs value ∨ depth ≠ 0 ∧ WritesNested (Writes depth) cs value

/-! ## Part 5 — what is written is read, and only that -/

theorem isSpace_of_isDigit {c : Char} (digit : c.isDigit = true) : isSpace c = false :=
  isSpace_of_isNumeric (isNumeric_of_isDigit digit)

/-- What is written begins with a character that neither is blank nor closes a list. -/
theorem Writes.begins {depth : Nat} {text : List Char} (written : Writes depth text value) :
    ∃ c tail, text = c :: tail ∧ isSpace c = false ∧ c ≠ ']' := by
  cases depth with
  | zero => exact absurd written id
  | succ depth =>
    rcases written with plain | ⟨-, nested⟩
    · cases plain with
      | number written =>
        obtain ⟨c, tail, rfl, digit | rfl⟩ := written.begins
        · refine ⟨c, tail, rfl, isSpace_of_isDigit digit, ?_⟩
          rintro rfl
          cases digit
        · exact ⟨'-', tail, rfl, by decide, by decide⟩
      | _ => exact ⟨_, _, rfl, by decide, by decide⟩
    · cases nested <;> exact ⟨_, _, rfl, by decide, by decide⟩

theorem readValue_of_writesPlain {text : List Char} (written : WritesPlain text value)
    (depth : Nat) (ends : Ends rest) :
    readValue (depth + 1) (text ++ rest) = some (value, rest) := by
  cases written with
  | null => rfl
  | yes => rfl
  | no => rfl
  | number written valued => exact readValue_numeral depth written valued ends
  | text spells =>
    rw [List.cons_append, List.append_assoc, List.singleton_append, readValue, spells.readText]
    rfl

theorem readValue_of_writesNested {depth : Nat} {text : List Char}
    (readBy : ReadBy (readValue depth) (Writes depth)) (deeper : depth ≠ 0)
    (written : WritesNested (Writes depth) text value) (rest : List Char) :
    readValue (depth + 1) (text ++ rest) = some (value, rest) := by
  cases written with
  | empty_list blank =>
    rw [List.cons_append, List.append_assoc, List.singleton_append, readValue, if_neg deeper,
      blank.skip_cons (by decide)]
    rfl
  | empty_object blank =>
    rw [List.cons_append, List.append_assoc, List.singleton_append, readValue, if_neg deeper,
      blank.skip_cons (by decide)]
    rfl
  | @list between items written =>
    obtain ⟨c, tail, begins, other⟩ := written.begins ']' readBy.begins (']' :: rest)
    have reads := readBy.readItems written
      (show between.length < (between ++ ']' :: rest).length by simp) rest
    rw [List.cons_append, List.append_assoc, List.singleton_append, readValue, if_neg deeper,
      begins, reads]
    split
    · next same => exact absurd (List.cons.inj same).1 other
    · rfl
  | @object between fields kept written counts =>
    have opens : ∀ {text field}, WritesField (Writes depth) text field →
        ∃ c tail, text = c :: tail ∧ isSpace c = false ∧ c ≠ '}' := by
      rintro _ _ ⟨⟩
      exact ⟨'"', _, rfl, by decide, by decide⟩
    obtain ⟨c, tail, begins, other⟩ := written.begins '}' opens ('}' :: rest)
    have reads := readBy.readFields written
      (show between.length < (between ++ '}' :: rest).length by simp) rest
    rw [List.cons_append, List.append_assoc, List.singleton_append, readValue, if_neg deeper,
      begins, reads]
    split
    · next same => exact absurd (List.cons.inj same).1 other
    · rw [lastCounts_iff.mp counts]
      rfl

theorem afterWord_eq_some {word : String} {cs : List Char}
    (given : afterWord word cs = some rest) : cs = word.toList ++ rest := by
  unfold afterWord at given
  split at given
  · next begins =>
    cases given
    obtain ⟨tail, rfl⟩ := List.isPrefixOf_iff_prefix.mp begins
    rw [← String.length_toList, List.drop_left]
  · cases given

/-- **What is read was written**, if that holds of what is read inside. -/
theorem writes_of_readValue {depth : Nat} {cs : List Char}
    (readBy : ReadBy (readValue depth) (Writes depth))
    (given : readValue (depth + 1) cs = some (value, rest)) :
    ∃ text, cs = text ++ rest ∧ Writes (depth + 1) text value := by
  rw [readValue.eq_def] at given
  dsimp only at given
  split at given
  · next quoted =>
    obtain ⟨⟨content, after⟩, read, shape⟩ := Option.map_eq_some_iff.mp given
    cases shape
    obtain ⟨between, rfl, spells⟩ := spells_of_readText read
    exact ⟨_, by simp, .inl (.text spells)⟩
  · next inside =>
    split at given
    · cases given
    · next deeper =>
      split at given
      · next after closes =>
        cases given
        obtain ⟨gap, whole, blank⟩ := exists_blanks inside
        refine ⟨_, ?_, .inr ⟨deeper, .empty_list blank⟩⟩
        rw [List.cons_append, List.append_assoc, List.singleton_append, ← closes, ← whole]
      · obtain ⟨⟨items, after⟩, reads, shape⟩ := Option.map_eq_some_iff.mp given
        cases shape
        obtain ⟨between, rfl, written⟩ := readBy.separated_of_readItems reads
        exact ⟨_, by simp, .inr ⟨deeper, .list written⟩⟩
  · next inside =>
    split at given
    · cases given
    · next deeper =>
      split at given
      · next after closes =>
        cases given
        obtain ⟨gap, whole, blank⟩ := exists_blanks inside
        refine ⟨_, ?_, .inr ⟨deeper, .empty_object blank⟩⟩
        rw [List.cons_append, List.append_assoc, List.singleton_append, ← closes, ← whole]
      · obtain ⟨⟨fields, after⟩, reads, shape⟩ := Option.map_eq_some_iff.mp given
        cases shape
        obtain ⟨between, rfl, written⟩ := readBy.separated_of_readFields reads
        exact ⟨_, by simp, .inr ⟨deeper, .object written (lastCounts_iff.mpr rfl)⟩⟩
  · obtain ⟨after, read, shape⟩ := Option.map_eq_some_iff.mp given
    cases shape
    exact ⟨_, afterWord_eq_some read, .inl .null⟩
  · obtain ⟨after, read, shape⟩ := Option.map_eq_some_iff.mp given
    cases shape
    exact ⟨_, afterWord_eq_some read, .inl .yes⟩
  · obtain ⟨after, read, shape⟩ := Option.map_eq_some_iff.mp given
    cases shape
    exact ⟨_, afterWord_eq_some read, .inl .no⟩
  · split at given
    · cases given
    · next numeral after scanned =>
      obtain ⟨number, valued, shape⟩ := Option.map_eq_some_iff.mp given
      cases shape
      obtain ⟨text, rfl, written⟩ := writesNumeral_of_scan scanned
      exact ⟨text, rfl, .inl (.number written valued)⟩

/-- **What is written is read, and what is read was written**, at any depth. -/
theorem readBy_readValue (depth : Nat) : ReadBy (readValue depth) (Writes depth) := by
  induction depth with
  | zero => exact ⟨fun written => absurd written id, nofun, fun written => absurd written id⟩
  | succ depth readBy =>
    refine ⟨fun written rest ends => ?_, writes_of_readValue readBy, Writes.begins⟩
    rcases written with plain | ⟨deeper, nested⟩
    · exact readValue_of_writesPlain plain depth ends
    · exact readValue_of_writesNested readBy deeper nested rest

/-! ## Part 6 — documents -/

/-- **What a document writes**: one value with blanks around it. -/
def Document (text : String) (value : Json) : Prop :=
  Padded (Writes depthBound) text.toList value

/-- **What is read from a document is the value that it writes**, and nothing is read from any other
text. -/
theorem read_iff {text : String} : read text = some value ↔ Document text value := by
  have readBy := readBy_readValue depthBound
  constructor
  · intro given
    unfold read at given
    split at given
    · cases given
    · next value rest reads =>
      split at given
      · next ends =>
        cases given
        obtain ⟨front, whole, leads⟩ := exists_blanks text.toList
        obtain ⟨inner, begins, written⟩ := readBy.wrote reads
        obtain ⟨back, goes, trails⟩ := exists_blanks rest
        rw [List.isEmpty_iff.mp ends, List.append_nil] at goes
        rw [Document, whole, begins, goes]
        exact .mk leads written trails
      · cases given
  · intro document
    unfold Document at document
    generalize whole : text.toList = cs at document
    cases document with
    | @mk front inner back _ leads written trails =>
      have ends : Ends (back ++ []) := trails.ends nofun
      rw [List.append_nil] at ends
      have blank : skipBlanks back = [] := by
        have all := trails.skip []
        rwa [List.append_nil] at all
      rw [read, whole, readBy.reads_padded written leads ends]
      dsimp only
      rw [blank]
      rfl

/-! ## Part 7 — what was read can be read -/

/-- **What is written can be read**, at the depth at which it is written. -/
theorem Writes.readable {depth : Nat} {text : List Char} (written : Writes depth text value) :
    Readable depth value := by
  induction depth generalizing text value with
  | zero => exact absurd written id
  | succ depth ih =>
    rcases written with plain | ⟨deeper, nested⟩
    · cases plain with
      | null => exact .null
      | yes => exact .bool
      | no => exact .bool
      | text => exact .text
      | @number _ numeral _ _ valued =>
        cases whole : integer? numeral with
        | some value =>
          rw [value?, whole] at valued
          cases valued
          exact .integer (fitsWord_of_integer? whole)
        | none =>
          rw [value?, whole] at valued
          obtain ⟨real, -, shape⟩ := Option.map_eq_some_iff.mp valued
          cases shape
          exact .real
    · obtain ⟨depth, rfl⟩ := Nat.exists_eq_succ_of_ne_zero deeper
      cases nested with
      | empty_list => exact .list fun item member => absurd member List.not_mem_nil
      | empty_object =>
        exact .object List.Pairwise.nil fun field member => absurd member List.not_mem_nil
      | list written =>
        refine .list fun item member => ?_
        obtain ⟨text, written⟩ := written.exists_part item member
        exact ih written
      | object written counts =>
        refine .object counts.ordered fun field member => ?_
        obtain ⟨before, after, rfl, -⟩ := (counts.last field.1 field.2).mp member
        obtain ⟨text, found⟩ := written.exists_part field
          (List.mem_append_right _ List.mem_cons_self)
        cases found with
        | mk _ _ _ inner => exact ih inner

/-- A document that was read can be read. -/
theorem readable_of_read {text : String} (given : read text = some value) :
    Readable depthBound value := by
  have document := read_iff.mp given
  unfold Document at document
  generalize text.toList = cs at document
  cases document with
  | mk front written back => exact written.readable

end ShaderForge.Json
