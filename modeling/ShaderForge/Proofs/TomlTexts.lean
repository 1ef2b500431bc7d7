/-
**Text in a document is read back.**

Text is written in the plainest of four forms that needs no escapes, if there is one, and with
escapes otherwise. Each form is read back whatever the text is, as long as it is one that the form
can hold: the literal forms hold no controls and no quotes of their own, or not three of them in a
row, and the basic forms hold everything (`readBasic_writeBasic`, `readLongBasic_writeBasic`).

In the long forms quotes may stand right before the closing ones. Up to two of them are written as
they are, so the first three quotes in a row are followed by as many as the text ends in, and these
are given back to it (`afterClosing_replicate`).

`readText_writeText`: a text is read back from how it is written, whatever follows that is no quote.
-/

import ShaderForge.Toml.Text
import Mathlib.Data.List.Basic
import Mathlib.Tactic.SplitIfs

namespace ShaderForge.Toml

variable {cs rest : List Char} {c quote : Char} {read : List Char → Option (List Char × List Char)}

/-! ## Part 1 — characters -/

/-- What needs no escape and ends no line can stand in a line. -/
theorem isLineChar_of_plain (plain : needsCode c = false) (newline : c ≠ '\n') :
    isLineChar c = true := by
  by_cases tab : c = '\t'
  · rw [tab]
    rfl
  · simp only [needsCode, Bool.and_eq_false_iff, Bool.or_eq_false_iff, bne_eq_false_iff_eq,
      decide_eq_false_iff_not, beq_eq_false_iff_ne] at plain
    obtain ⟨low, delete⟩ := plain.resolve_left (not_or.mpr ⟨tab, newline⟩)
    simp only [isLineChar, Bool.or_eq_true, Bool.and_eq_true, decide_eq_true_iff, bne_iff_ne]
    exact .inr ⟨Nat.le_of_not_lt low, delete⟩

/-- **A control character is the one whose code is written.** -/
theorem charOfHex?_codeEscape (control : needsCode c = true) :
    charOfHex? ['0', '0', upperHex (c.toNat / 16), upperHex c.toNat] = some c := by
  have all : ∀ code : Fin 128,
      charOfHex? ['0', '0', upperHex (code.val / 16), upperHex code.val] =
        some (Char.ofNat code.val) := by decide
  have small : c.toNat < 128 := by
    simp only [needsCode, Bool.and_eq_true, Bool.or_eq_true, decide_eq_true_iff, beq_iff_eq]
      at control
    omega
  rw [all ⟨c.toNat, small⟩, Char.ofNat_toNat]

/-- **A reader that understands escapes**, and takes every other character of a line as it is. -/
structure Unescapes (read : List Char → Option (List Char × List Char)) : Prop where
  letter : ∀ letter c rest, letterEscape? letter = some c →
    read ('\\' :: letter :: rest) = withChar c (read rest)
  code : ∀ c rest, needsCode c = true → read (codeEscape c ++ rest) = withChar c (read rest)
  plain : ∀ c rest, c ≠ '"' → c ≠ '\\' → isLineChar c = true →
    read (c :: rest) = withChar c (read rest)

theorem unescapes_readBasic : Unescapes readBasic where
  letter letter c rest named := by
    unfold letterEscape? at named
    split_ifs at named <;> subst_vars <;> cases named <;> simp [readBasic, letterEscape?]
  code c rest control := by
    show readBasic
      ('\\' :: 'u' :: '0' :: '0' :: upperHex (c.toNat / 16) :: upperHex c.toNat :: rest) = _
    rw [readBasic, charOfHex?_codeEscape control]
  plain c rest quote backslash line := by
    rw [readBasic.eq_6 c rest quote (fun _ _ _ _ _ same _ => backslash same)
      (fun _ _ _ _ _ _ _ _ _ same _ => backslash same) fun _ _ same _ => backslash same,
      decide_eq_true backslash, line, Bool.true_and, if_pos rfl]

theorem unescapes_readLongBasic : Unescapes (readLongBasic false) where
  letter letter c rest named := by
    unfold letterEscape? at named
    split_ifs at named <;> subst_vars <;> cases named <;>
      simp [readLongBasic, letterEscape?, lineEndsHere, skipSpaces, isSpace]
  code c rest control := by
    show readLongBasic false
      ('\\' :: 'u' :: '0' :: '0' :: upperHex (c.toNat / 16) :: upperHex c.toNat :: rest) = _
    rw [readLongBasic, charOfHex?_codeEscape control]
  plain c rest quote backslash line := by
    have carriage : c ≠ '\r' := by
      rintro rfl
      cases line
    have newline : c ≠ '\n' := by
      rintro rfl
      cases line
    rw [readLongBasic.eq_8 false c rest (fun _ same _ => quote same)
      (fun _ same _ => carriage same) newline (fun _ _ _ _ _ same _ => backslash same)
      (fun _ _ _ _ _ _ _ _ _ same _ => backslash same) fun _ _ same _ => backslash same,
      Bool.false_and, if_neg Bool.false_ne_true, decide_eq_true backslash, line, Bool.true_and,
      if_pos rfl]

/-- **A character is read back from how it is written.** -/
theorem Unescapes.read_writeChar (unescapes : Unescapes read) (free : c ≠ '"') (newline : c ≠ '\n')
    (rest : List Char) : read (writeChar c ++ rest) = withChar c (read rest) := by
  have byCode : ∀ code : Nat, c.toNat = code → c = Char.ofNat code := by
    rintro _ rfl
    exact (Char.ofNat_toNat c).symm
  unfold writeChar
  split
  · next same => exact unescapes.letter 'b' c rest (byCode 8 same ▸ rfl)
  split
  · next same => exact unescapes.letter 't' c rest (same ▸ rfl)
  split
  · next same => exact unescapes.letter 'f' c rest (byCode 12 same ▸ rfl)
  split
  · next same => exact unescapes.letter 'r' c rest (same ▸ rfl)
  split
  · next same =>
    subst same
    exact unescapes.letter '\\' '\\' rest rfl
  split
  · next control => exact unescapes.code c rest control
  · next backslash control =>
    exact unescapes.plain c rest free backslash
      (isLineChar_of_plain (Bool.not_eq_true _ ▸ control) newline)

/-! ## Part 2 — the basic forms -/

/-- **Basic text is read back**, whatever it is. -/
theorem readBasic_writeBasic (cs rest : List Char) :
    readBasic (writeBasic false 0 cs ++ '"' :: rest) = some (cs, rest) := by
  induction cs with
  | nil => rw [writeBasic, List.nil_append, readBasic]
  | cons c cs ih =>
    rw [writeBasic]
    split
    · next same =>
      subst same
      rw [Bool.false_and, if_neg Bool.false_ne_true, List.cons_append, List.cons_append,
        unescapes_readBasic.letter '"' '"' _ rfl, ih]
      rfl
    · next free =>
      split
      · next same =>
        rw [if_neg Bool.false_ne_true, List.cons_append, List.cons_append,
          unescapes_readBasic.letter 'n' c _ (same ▸ rfl), ih]
        rfl
      · next newline =>
        rw [List.append_assoc, unescapes_readBasic.read_writeChar free newline, ih]
        rfl

/-- What is written for a character begins with a backslash, or is the character. -/
theorem exists_writeChar (c : Char) :
    ∃ first more, writeChar c = first :: more ∧ (first = '\\' ∨ first = c ∧ c ≠ '\r') := by
  unfold writeChar
  split_ifs with back tab form carriage backslash control
  any_goals exact ⟨'\\', _, rfl, .inl rfl⟩
  exact ⟨c, [], rfl, .inr ⟨rfl, carriage⟩⟩

/-- **Text goes on without a quote** if its next character is none, or is escaped. -/
theorem writeBasic_ne_quote {long : Bool} {run : Nat} {tail : List Char}
    (free : c ≠ '"' ∨ (long && decide (run < 2)) = false) (cs rest : List Char) :
    writeBasic long run (c :: cs) ++ rest ≠ '"' :: tail := by
  intro begins
  rw [writeBasic] at begins
  by_cases same : c = '"'
  · rw [if_pos same, free.resolve_left (absurd same), if_neg Bool.false_ne_true] at begins
    cases begins
  · rw [if_neg same] at begins
    by_cases newline : c = '\n'
    · rw [if_pos newline] at begins
      cases long <;> cases begins
    · obtain ⟨first, more, written, begun⟩ := exists_writeChar c
      rw [if_neg newline, written, List.cons_append, List.cons_append] at begins
      obtain ⟨rfl, -⟩ := List.cons.inj begins
      rcases begun with escape | ⟨rfl, -⟩
      · cases escape
      · exact same rfl

/-- **Text without line ends** begins without one. -/
theorem head?_writeBasic {run : Nat} (free : '\n' ∉ cs) :
    ∀ c ∈ (writeBasic true run cs ++ '"' :: rest).head?, c ≠ '\n' ∧ c ≠ '\r' := by
  cases cs with
  | nil =>
    rintro c ⟨⟩
    decide
  | cons c cs =>
    rw [List.mem_cons, not_or] at free
    rw [writeBasic]
    by_cases same : c = '"'
    · rw [if_pos same]
      split <;> rintro c ⟨⟩ <;> decide
    · obtain ⟨first, more, written, begun⟩ := exists_writeChar c
      rw [if_neg same, if_neg (Ne.symm free.1), written]
      rintro d ⟨⟩
      rcases begun with rfl | ⟨rfl, carriage⟩
      · decide
      · exact ⟨Ne.symm free.1, carriage⟩

/-- Only at its end a text goes on with two quotes after one. -/
theorem ends_of_quotes {run : Nat} {tail : List Char}
    (begins : writeBasic true (run + 1) cs ++ rest = '"' :: '"' :: tail) :
    cs = [] ∨ run = 0 ∧ cs = ['"'] := by
  cases cs with
  | nil => exact .inl rfl
  | cons c cs =>
    refine .inr ?_
    by_cases free : c ≠ '"' ∨ (true && decide (run + 1 < 2)) = false
    · exact absurd begins (writeBasic_ne_quote free cs rest)
    · obtain ⟨same, few⟩ := not_or.mp free
      rw [Bool.true_and, decide_eq_false_iff_not, Decidable.not_not] at few
      have first : run = 0 := by omega
      rw [Decidable.not_not.mp same, first] at begins ⊢
      refine ⟨rfl, ?_⟩
      cases cs with
      | nil => rfl
      | cons d cs =>
        exact absurd (List.cons.inj begins).2 (writeBasic_ne_quote (.inr rfl) cs rest)

/-- **Quotes right after three of them** belong to the text before, up to two. -/
theorem afterClosing_replicate {count : Nat} (few : count ≤ 2)
    (ends : ∀ c ∈ rest.head?, c ≠ quote) :
    afterClosing quote (List.replicate count quote ++ rest) =
      (List.replicate count quote, rest) := by
  have none : afterClosing quote rest = ([], rest) := by
    cases rest with
    | nil => rfl
    | cons c rest =>
      have free : c ≠ quote := ends c rfl
      cases rest <;> simp [afterClosing, free]
  have one : afterClosing quote (quote :: rest) = ([quote], rest) := by
    cases rest with
    | nil => simp [afterClosing]
    | cons c rest =>
      have free : c ≠ quote := ends c rfl
      simp [afterClosing, free]
  match count, few with
  | 0, _ => exact none
  | 1, _ => exact one
  | 2, _ => simp [afterClosing]

/-- A quote that two others do not follow is one of the text. -/
theorem readLongBasic_quote (single : ∀ tail, cs ≠ '"' :: '"' :: tail) :
    readLongBasic false ('"' :: cs) = withChar '"' (readLongBasic false cs) := by
  rw [readLongBasic.eq_8 false '"' cs (fun tail _ => single tail) (fun _ same _ => nomatch same)
    (fun same => nomatch same) (fun _ _ _ _ _ same _ => nomatch same)
    (fun _ _ _ _ _ _ _ _ _ same _ => nomatch same) fun _ _ same _ => nomatch same]
  rfl

/-- **Long basic text is read back**, whatever it is, up to quotes that are followed by none. -/
theorem readLongBasic_writeBasic (ends : ∀ c ∈ rest.head?, c ≠ '"') (run : Nat) (cs : List Char) :
    readLongBasic false (writeBasic true run cs ++ '"' :: '"' :: '"' :: rest) =
      some (cs, rest) := by
  induction cs generalizing run with
  | nil =>
    rw [writeBasic, List.nil_append, readLongBasic]
    exact congrArg some (afterClosing_replicate (Nat.zero_le 2) ends)
  | cons c cs ih =>
    rw [writeBasic]
    by_cases same : c = '"'
    · subst same
      rw [if_pos rfl]
      by_cases few : run < 2
      · rw [decide_eq_true few, Bool.true_and, if_pos rfl, List.cons_append]
        by_cases three : ∃ tail,
            writeBasic true (run + 1) cs ++ '"' :: '"' :: '"' :: rest = '"' :: '"' :: tail
        · obtain ⟨tail, begins⟩ := three
          rcases ends_of_quotes begins with rfl | ⟨rfl, rfl⟩
          · rw [writeBasic, List.nil_append, readLongBasic]
            exact congrArg some (afterClosing_replicate (Nat.le_succ 1 : 1 ≤ 2) ends)
          · show readLongBasic false ('"' :: '"' :: '"' :: '"' :: '"' :: rest) = _
            rw [readLongBasic]
            exact congrArg some (afterClosing_replicate (Nat.le_refl 2) ends)
        · rw [readLongBasic_quote fun tail begins => three ⟨tail, begins⟩, ih]
          rfl
      · rw [decide_eq_false few, Bool.and_false, if_neg Bool.false_ne_true, List.cons_append,
          List.cons_append, unescapes_readLongBasic.letter '"' '"' _ rfl, ih]
        rfl
    · rw [if_neg same]
      by_cases newline : c = '\n'
      · rw [if_pos newline, if_pos rfl, List.cons_append, readLongBasic, if_neg Bool.false_ne_true,
          ih, newline]
        rfl
      · rw [if_neg newline, List.append_assoc,
          unescapes_readLongBasic.read_writeChar same newline, ih]
        rfl

/-! ## Part 3 — the literal forms -/

/-- **Literal text is read back** if it has no controls and no quotes of its own. -/
theorem readLiteral_append (line : ∀ c ∈ cs, isLineChar c = true) (free : '\'' ∉ cs)
    (rest : List Char) : readLiteral (cs ++ '\'' :: rest) = some (cs, rest) := by
  induction cs with
  | nil => rw [List.nil_append, readLiteral]
  | cons c cs ih =>
    rw [List.mem_cons, not_or] at free
    rw [List.cons_append, readLiteral.eq_3 c _ (Ne.symm free.1), if_pos (line c List.mem_cons_self),
      ih (fun d among => line d (List.mem_cons_of_mem _ among)) free.2]
    rfl

/-- A run that has begun is part of the longest one. -/
theorem le_longestRun (quote : Char) (run : Nat) (cs : List Char) :
    run ≤ longestRun quote run cs := by
  induction cs generalizing run with
  | nil => exact Nat.le_refl run
  | cons c cs ih =>
    rw [longestRun]
    split
    · exact Nat.le_trans (Nat.le_succ run) (ih (run + 1))
    · exact Nat.le_max_left _ _

/-- A run that begins earlier is no shorter. -/
theorem longestRun_mono (quote : Char) {run longer : Nat} (within : run ≤ longer) (cs : List Char) :
    longestRun quote run cs ≤ longestRun quote longer cs := by
  induction cs generalizing run longer with
  | nil => exact within
  | cons c cs ih =>
    rw [longestRun, longestRun]
    split
    · exact ih (Nat.succ_le_succ within)
    · omega

/-- The runs of a text are runs of the text with a character in front. -/
theorem longestRun_le_cons (quote c : Char) (cs : List Char) :
    longestRun quote 0 cs ≤ longestRun quote 0 (c :: cs) := by
  rw [longestRun]
  split
  · exact longestRun_mono quote (Nat.zero_le 1) cs
  · exact Nat.le_max_right _ _

/-- A text without runs of a character does not have it. -/
theorem notMem_of_longestRun (none : longestRun quote 0 cs = 0) : quote ∉ cs := by
  induction cs with
  | nil => exact List.not_mem_nil
  | cons c cs ih =>
    have less := longestRun_le_cons quote c cs
    rw [none] at less
    rw [List.mem_cons, not_or]
    refine ⟨fun same => ?_, ih (Nat.le_zero.mp less)⟩
    rw [longestRun, if_pos same.symm] at none
    have one := le_longestRun quote (0 + 1) cs
    omega

/-- Only at its end a text without three quotes in a row goes on with two of them after one. -/
theorem ends_of_quotes_literal {tail : List Char} (few : longestRun quote 0 (quote :: cs) ≤ 2)
    (begins : cs ++ rest = quote :: quote :: tail) : cs = [] ∨ cs = [quote] := by
  match cs, few, begins with
  | [], _, _ => exact .inl rfl
  | [c], _, begins => exact .inr (congrArg (fun d => [d]) (List.cons.inj begins).1)
  | c :: d :: cs, few, begins =>
    obtain ⟨rfl, later⟩ := List.cons.inj begins
    obtain ⟨rfl, -⟩ := List.cons.inj later
    rw [longestRun, if_pos rfl, longestRun, if_pos rfl, longestRun, if_pos rfl] at few
    exact absurd few (Nat.not_le.mpr (le_longestRun d 3 cs))

/-- Text of the literal forms that has no line ends begins without one. -/
theorem head?_literal (line : ∀ c ∈ cs, c ≠ '\n' → isLineChar c = true) (free : '\n' ∉ cs) :
    ∀ c ∈ (cs ++ '\'' :: rest).head?, c ≠ '\n' ∧ c ≠ '\r' := by
  cases cs with
  | nil =>
    rintro c ⟨⟩
    decide
  | cons c cs =>
    rintro d ⟨⟩
    have newline : c ≠ '\n' := fun same => free (same ▸ List.mem_cons_self)
    refine ⟨newline, ?_⟩
    rintro rfl
    cases line '\r' List.mem_cons_self newline

/-- **Long literal text is read back** if it has no controls and no three quotes in a row. -/
theorem readLongLiteral_append (line : ∀ c ∈ cs, c ≠ '\n' → isLineChar c = true)
    (few : longestRun '\'' 0 cs ≤ 2) (ends : ∀ c ∈ rest.head?, c ≠ '\'') :
    readLongLiteral (cs ++ '\'' :: '\'' :: '\'' :: rest) = some (cs, rest) := by
  induction cs with
  | nil =>
    rw [List.nil_append, readLongLiteral]
    exact congrArg some (afterClosing_replicate (Nat.zero_le 2) ends)
  | cons c cs ih =>
    have later := ih (fun d among => line d (List.mem_cons_of_mem _ among))
      (Nat.le_trans (longestRun_le_cons '\'' c cs) few)
    rw [List.cons_append]
    by_cases newline : c = '\n'
    · rw [newline, readLongLiteral, later]
      rfl
    · have inLine := line c List.mem_cons_self newline
      have carriage : c ≠ '\r' := by
        rintro rfl
        cases inLine
      by_cases three : c = '\'' ∧ ∃ tail,
          cs ++ '\'' :: '\'' :: '\'' :: rest = '\'' :: '\'' :: tail
      · obtain ⟨rfl, tail, begins⟩ := three
        rcases ends_of_quotes_literal few begins with rfl | rfl
        · rw [List.nil_append, readLongLiteral]
          exact congrArg some (afterClosing_replicate (Nat.le_succ 1 : 1 ≤ 2) ends)
        · show readLongLiteral ('\'' :: '\'' :: '\'' :: '\'' :: '\'' :: rest) = _
          rw [readLongLiteral]
          exact congrArg some (afterClosing_replicate (Nat.le_refl 2) ends)
      · rw [readLongLiteral.eq_5 c _ (fun tail same begins => three ⟨same, tail, begins⟩)
          (fun _ same _ => carriage same) newline, if_pos inLine, later]
        rfl

/-! ## Part 4 — the form that is chosen -/

/-- Whether a text can be written in a form. -/
def Form.Holds (cs : List Char) : Form → Prop
  | .basic => '\n' ∉ cs
  | .literal => cs ≠ [] ∧ (∀ c ∈ cs, isLineChar c = true) ∧ '\'' ∉ cs
  | .longBasic => True
  | .longLiteral => (∀ c ∈ cs, c ≠ '\n' → isLineChar c = true) ∧ longestRun '\'' 0 cs ≤ 2

/-- **The form that is chosen can hold the text.** -/
theorem formOf_holds (cs : List Char) : (formOf cs).Holds cs := by
  have lines : cs.any needsCode = false → ∀ c ∈ cs, c ≠ '\n' → isLineChar c = true :=
    fun plain c among newline =>
      isLineChar_of_plain (Bool.not_eq_true _ ▸ List.any_eq_false.mp plain c among) newline
  have free : cs.contains '\n' = false → '\n' ∉ cs := fun none among => by
    rw [List.contains_iff_mem.mpr among] at none
    cases none
  unfold formOf
  simp only [Bool.and_eq_true, Bool.not_eq_true', decide_eq_true_iff]
  split
  · next chosen => exact free chosen.2
  split
  · next unplain chosen =>
    obtain ⟨⟨plain, single⟩, newline⟩ := chosen
    refine ⟨?_, fun c among => lines plain c among ?_, notMem_of_longestRun single⟩
    · rintro rfl
      exact unplain (by decide)
    · rintro rfl
      exact free newline among
  split
  · exact trivial
  split
  · next chosen => exact ⟨lines chosen.1, chosen.2⟩
  split
  · exact trivial
  · next newline => exact free (Bool.not_eq_true _ ▸ newline)

/-! ## Part 5 — a whole text -/

/-- What does not begin with the end of a line is left as it is. -/
theorem skipLineEnd_of_solid (solid : ∀ c ∈ cs.head?, c ≠ '\n' ∧ c ≠ '\r') :
    skipLineEnd cs = cs := by
  unfold skipLineEnd
  split
  · exact absurd rfl (solid _ rfl).1
  · exact absurd rfl (solid _ rfl).2
  · rfl

/-- **The newline behind the opening quotes** of a long form is skipped. -/
theorem skipLineEnd_opening {more : List Char}
    (solid : '\n' ∉ cs → ∀ c ∈ more.head?, c ≠ '\n' ∧ c ≠ '\r') :
    skipLineEnd (opening cs ++ more) = more := by
  unfold opening
  split
  · rfl
  · next none =>
    exact skipLineEnd_of_solid (solid fun among => none (List.contains_iff_mem.mpr among))

/-- **A text is read back from how it is written.** -/
theorem readText_writeText (text : String) (ends : ∀ c ∈ rest.head?, c ≠ '"' ∧ c ≠ '\'') :
    readText (writeText text ++ rest) = some (text, rest) := by
  have holds := formOf_holds text.toList
  have whole : ∀ read : Option (List Char × List Char), read = some (text.toList, rest) →
      (read.map fun found => (String.ofList found.1, found.2)) = some (text, rest) := by
    rintro _ rfl
    exact congrArg (fun content => some (content, rest)) String.ofList_toList
  unfold writeText
  generalize text.toList = cs at holds whole ⊢
  generalize formOf cs = form at holds ⊢
  cases form with
  | basic =>
    have short : ∀ tail, writeBasic false 0 cs ++ '"' :: rest ≠ '"' :: '"' :: tail := by
      cases cs with
      | nil =>
        intro tail begins
        exact (ends '"' (by rw [(List.cons.inj begins).2]; rfl)).1 rfl
      | cons c cs => exact fun tail => writeBasic_ne_quote (.inr rfl) cs _
    rw [writeIn, List.append_assoc, List.cons_append, List.singleton_append, readText.eq_2 _ short]
    exact whole _ (readBasic_writeBasic cs rest)
  | literal =>
    obtain ⟨some_text, line, free⟩ := holds
    have short : ∀ tail, cs ++ '\'' :: rest ≠ '\'' :: '\'' :: tail := by
      obtain ⟨c, cs, rfl⟩ := List.exists_cons_of_ne_nil some_text
      intro tail begins
      exact free ((List.cons.inj begins).1 ▸ List.mem_cons_self)
    rw [writeIn, List.append_assoc, List.cons_append, List.singleton_append, readText.eq_4 _ short]
    exact whole _ (readLiteral_append line free rest)
  | longBasic =>
    have skipped : skipLineEnd (opening cs ++ (writeBasic true 0 cs ++ '"' :: '"' :: '"' :: rest)) =
        writeBasic true 0 cs ++ '"' :: '"' :: '"' :: rest := skipLineEnd_opening head?_writeBasic
    have shape : writeIn .longBasic cs ++ rest = '"' :: '"' :: '"' ::
        (opening cs ++ (writeBasic true 0 cs ++ '"' :: '"' :: '"' :: rest)) := by
      simp [writeIn]
    rw [shape, readText, skipped]
    exact whole _ (readLongBasic_writeBasic (fun c first => (ends c first).1) 0 cs)
  | longLiteral =>
    obtain ⟨line, few⟩ := holds
    have skipped : skipLineEnd (opening cs ++ (cs ++ '\'' :: '\'' :: '\'' :: rest)) =
        cs ++ '\'' :: '\'' :: '\'' :: rest := skipLineEnd_opening (head?_literal line)
    have shape : writeIn .longLiteral cs ++ rest = '\'' :: '\'' :: '\'' ::
        (opening cs ++ (cs ++ '\'' :: '\'' :: '\'' :: rest)) := by
      simp [writeIn]
    rw [shape, readText, skipped]
    exact whole _ (readLongLiteral_append line few fun c first => (ends c first).2)

end ShaderForge.Toml
