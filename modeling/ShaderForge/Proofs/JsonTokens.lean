/-
**The tokens of a JSON document are read back.**

Text between quotes is read back character by character. A numeral is read as its number, whatever
follows that does not go on with it, so a number is read back in any document if it is read back
alone.

Integers that fit 64 bits always are. Floating point numbers are written with the fewest digits and
read fast, not always to the nearest number; which of them are read back is not shown here:
`ReadsBack` says it of one number.

* `readText_quoted`: text between quotes;
* `readValue_numeral`: a numeral with something after it;
* `readValue_integer`, `readValue_real`: numbers.
-/

import Mathlib.Data.List.TakeWhile
import ShaderForge.Json.Printer
import ShaderForge.Json.Reader
import ShaderForge.Proofs.JsonNumerals

namespace ShaderForge.Json

open Decimal (Double)

/-! ## Part 1 — blanks and text -/

/-- A blank between the parts of a document. -/
def isSpace (c : Char) : Bool := c == ' ' || c == '\n' || c == '\t' || c == '\r'

theorem skipBlanks_of_head {cs : List Char} (solid : ∀ c ∈ cs.head?, isSpace c = false) :
    skipBlanks cs = cs := by
  cases cs with
  | nil => rfl
  | cons c cs =>
    refine List.dropWhile_cons_of_neg ?_
    have same : (c == ' ' || c == '\n' || c == '\t' || c == '\r') = false := solid c rfl
    rw [same]
    exact Bool.false_ne_true

/-- A new line is nothing but blanks. -/
theorem skipBlanks_newline (level : Nat) (cs : List Char) :
    skipBlanks (newline level ++ cs) = skipBlanks cs := by
  refine List.dropWhile_append_of_pos fun c inside => ?_
  rcases List.mem_cons.mp inside with rfl | filled
  · rfl
  · rw [List.eq_of_mem_replicate filled]
    rfl

theorem skipBlanks_comma (cs : List Char) : skipBlanks (',' :: cs) = ',' :: cs := rfl

theorem skipBlanks_colon (cs : List Char) : skipBlanks (':' :: cs) = ':' :: cs := rfl

theorem skipBlanks_bracket (level : Nat) (cs : List Char) :
    skipBlanks (newline level ++ ']' :: cs) = ']' :: cs := skipBlanks_newline level _

theorem skipBlanks_brace (level : Nat) (cs : List Char) :
    skipBlanks (newline level ++ '}' :: cs) = '}' :: cs := skipBlanks_newline level _

theorem hexDigit?_hexDigit {value : Nat} (small : value < 16) :
    hexDigit? (hexDigit value) = some value := by
  have all : ∀ value : Fin 16, hexDigit? (hexDigit value) = some value.val := by decide
  exact all ⟨value, small⟩

/-- A control character is the one whose code is written. -/
theorem hexCode?_control {code : Nat} (control : code < 0x20) :
    hexCode? '0' '0' (hexDigit (code / 16)) (hexDigit code) = some code := by
  have high := hexDigit?_hexDigit (show code / 16 < 16 by omega)
  have low : hexDigit? (hexDigit code) = some (code % 16) := by
    have same : hexDigit code = hexDigit (code % 16) := by
      rw [hexDigit, hexDigit, Nat.mod_mod]
    rw [same]
    exact hexDigit?_hexDigit (Nat.mod_lt _ (by decide))
  have zero : hexDigit? '0' = some 0 := by decide
  rw [hexCode?, zero, high, low]
  show some (((0 * 16 + 0) * 16 + code / 16) * 16 + code % 16) = some code
  congr 1
  omega

/-- **A character is read back from how it is written** between quotes. -/
theorem readText_escaped (c : Char) (rest : List Char) :
    readText (escaped c ++ rest) =
      (readText rest).map fun (content, after) => (c :: content, after) := by
  have byCode : ∀ code : Nat, c.toNat = code → c = Char.ofNat code := by
    rintro _ rfl
    exact (Char.ofNat_toNat c).symm
  unfold escaped
  split
  · next same => subst same; simp [readText, letterEscape?]
  split
  · next same => subst same; simp [readText, letterEscape?]
  split
  · next same => rw [byCode 8 same]; simp [readText, letterEscape?]
  split
  · next same => rw [byCode 12 same]; simp [readText, letterEscape?]
  split
  · next same => subst same; simp [readText, letterEscape?]
  split
  · next same => subst same; simp [readText, letterEscape?]
  split
  · next same => subst same; simp [readText, letterEscape?]
  split
  · next control =>
    have low : isLowHalf c.toNat = false := by
      rw [isLowHalf, Bool.and_eq_false_iff, decide_eq_false_iff_not]
      exact .inl (by omega)
    have high : isHighHalf c.toNat = false := by
      rw [isHighHalf, Bool.and_eq_false_iff, decide_eq_false_iff_not]
      exact .inl (by omega)
    simp only [List.cons_append, List.nil_append]
    rw [readText, hexCode?_control control]
    simp only [low, high, Char.ofNat_toNat, Bool.false_eq_true, if_false]
  · next quote backslash _ _ _ _ _ printable =>
    have plain : ¬ (c = '\\' ∨ c.toNat < 0x20) := by
      rintro (same | control)
      · exact backslash same
      · exact printable control
    rw [List.singleton_append, readText.eq_5 c rest quote (fun _ _ _ _ _ same _ => backslash same)
      fun _ _ same _ => backslash same, if_neg plain]

/-- **Text between quotes is read back.** -/
theorem readText_quoted (text rest : List Char) :
    readText (text.flatMap escaped ++ '"' :: rest) = some (text, rest) := by
  induction text with
  | nil => simp [readText]
  | cons c text ih =>
    rw [List.flatMap_cons, List.append_assoc, readText_escaped, ih]
    rfl

/-! ## Part 2 — numbers -/

/-- Only zero is written with a zero first. -/
theorem toDigits_ne_zero_cons {value : Nat} (positive : value ≠ 0) (tail : List Char) :
    Nat.toDigits 10 value ≠ '0' :: tail := by
  induction value using Nat.strongRecOn generalizing tail with
  | ind value ih =>
    rw [Nat.toDigits_eq_if (by decide)]
    split
    · next small =>
      have all : ∀ digit : Fin 10, digit.val ≠ 0 → Nat.digitChar digit.val ≠ '0' := by decide
      intro same
      exact all ⟨value, small⟩ positive (List.cons.inj same).1
    · next large =>
      intro same
      obtain ⟨digit, digits, shape⟩ :=
        List.exists_cons_of_ne_nil (Nat.toDigits_ne_nil (n := value / 10) (b := 10))
      rw [shape] at same
      rw [(List.cons.inj same).1] at shape
      exact ih (value / 10) (by omega) (by omega) digits shape

theorem eq_zero_of_isDigit {c : Char} (digit : c.isDigit = true)
    (zero : c.toNat - '0'.toNat = 0) : c = '0' := by
  rw [Char.isDigit, Bool.and_eq_true, decide_eq_true_eq, decide_eq_true_eq] at digit
  have least : 48 ≤ c.toNat := UInt32.le_iff_toNat_le.mp digit.1
  have code : c.toNat = 48 := by
    have same : '0'.toNat = 48 := by decide
    omega
  rw [← Char.ofNat_toNat c, code]

theorem digitsOf_toDigits (value : Nat) :
    digitsOf (Nat.toDigits 10 value) =
      (Nat.toDigits 10 value).map fun c => c.toNat - '0'.toNat := by
  have all : (Nat.toDigits 10 value).takeWhile Char.isDigit = Nat.toDigits 10 value :=
    List.takeWhile_eq_self_iff.mpr fun _ =>
      Nat.isDigit_of_mem_toDigits (by decide) (by decide)
  rw [digitsOf, all]

theorem digitsToNat_toDigits (value : Nat) :
    digitsToNat (digitsOf (Nat.toDigits 10 value)) = value := by
  have back : Nat.ofDigitChars 10 (Nat.toDigits 10 value) 0 = value :=
    Nat.ofDigitChars_ten_toDigits
  rw [Nat.ofDigitChars_eq_foldl] at back
  rw [digitsOf_toDigits, digitsToNat, List.foldl_map]
  simpa only [Nat.mul_comm] using back

/-- **A natural number is written as a numeral of its digits.** -/
theorem writesNumeral_toDigits (negative : Bool) (value : Nat) :
    WritesNumeral (minusSign negative ++ Nat.toDigits 10 value)
      ⟨negative, digitsOf (Nat.toDigits 10 value), none, none⟩ := by
  have isDigit : ∀ c ∈ Nat.toDigits 10 value, c.isDigit = true :=
    fun _ => Nat.isDigit_of_mem_toDigits (by decide) (by decide)
  have alone : (digitsOf (Nat.toDigits 10 value)).head? = some 0 →
      digitsOf (Nat.toDigits 10 value) = [0] := by
    intro zero
    by_cases none : value = 0
    · rw [none]
      decide
    · obtain ⟨c, tail, shape⟩ :=
        List.exists_cons_of_ne_nil (Nat.toDigits_ne_nil (n := value) (b := 10))
      rw [digitsOf_toDigits, shape] at zero
      have first := eq_zero_of_isDigit (isDigit c (shape ▸ List.mem_cons_self))
        (Option.some.inj zero)
      exact absurd (first ▸ shape) (toDigits_ne_zero_cons none tail)
  have whole := @WritesNumeral.mk _ [] []
    ⟨negative, digitsOf (Nat.toDigits 10 value), none, none⟩
    ⟨Nat.toDigits_ne_nil, isDigit, digitsOf_toDigits value⟩ alone .absent .absent
  rwa [List.append_nil, List.append_nil] at whole

/-- A text that begins like a numeral is read as one. -/
theorem readValue_scan {text : List Char} (depth : Nat) (some_text : text ≠ [])
    (begins : ∀ c ∈ text.head?, c.isDigit = true ∨ c = '-') :
    readValue (depth + 1) text =
      match scan text with
      | none => none
      | some (numeral, rest) => (value? numeral).map fun number => (.number number, rest) := by
  obtain ⟨c, text, rfl⟩ := List.exists_cons_of_ne_nil some_text
  have first := begins c rfl
  have plain : c ≠ '"' ∧ c ≠ '[' ∧ c ≠ '{' ∧ c ≠ 'n' ∧ c ≠ 't' ∧ c ≠ 'f' := by
    refine ⟨?_, ?_, ?_, ?_, ?_, ?_⟩
    all_goals
      rintro rfl
      revert first
      decide
  obtain ⟨quote, bracket, brace, null, yes, no⟩ := plain
  exact readValue.eq_8 (c :: text) depth (fun _ same => quote (List.cons.inj same).1)
    (fun _ same => bracket (List.cons.inj same).1) (fun _ same => brace (List.cons.inj same).1)
    (fun _ same => null (List.cons.inj same).1) (fun _ same => yes (List.cons.inj same).1)
    fun _ same => no (List.cons.inj same).1

/-- **A numeral is read as its number**, whatever ends it. -/
theorem readValue_numeral {text rest : List Char} {numeral : Numeral} {number : JsonNumber}
    (depth : Nat) (written : WritesNumeral text numeral) (valued : value? numeral = some number)
    (ends : Ends rest) :
    readValue (depth + 1) (text ++ rest) = some (.number number, rest) := by
  obtain ⟨c, tail, shape, first⟩ := written.begins
  have begins : ∀ d ∈ (text ++ rest).head?, d.isDigit = true ∨ d = '-' := by
    rw [shape]
    intro d same
    cases same
    exact first
  rw [readValue_scan depth (by rw [shape]; exact List.cons_ne_nil _ _) begins,
    scan_of_writesNumeral written ends]
  dsimp only
  rw [valued]
  rfl

/-- **An integer that fits 64 bits.** -/
def FitsWord (value : Int) : Prop := -(Nat.pow 2 63 : Int) ≤ value ∧ value < wordBound

/-- What a numeral without fraction and exponent writes fits 64 bits. -/
theorem fitsWord_of_integer? {numeral : Numeral} {value : Int}
    (given : integer? numeral = some value) : FitsWord value := by
  unfold integer? at given
  dsimp only at given
  split at given
  · cases given
  · split at given
    · split at given
      · next small =>
        cases given
        exact ⟨by omega, Int.ofNat_lt.mpr small⟩
      · cases given
    · split at given
      · next small =>
        cases given
        rw [Bool.and_eq_true, decide_eq_true_eq, decide_eq_true_eq] at small
        have bound : (digitsToNat numeral.whole : Int) ≤ (Nat.pow 2 63 : Nat) :=
          Int.ofNat_le.mpr small.2
        have positive : (0 : Int) < wordBound := Int.ofNat_lt.mpr (by decide)
        exact ⟨by omega, by omega⟩
      · cases given

/-- **An integer is read back**, whatever ends it. -/
theorem readValue_integer {value : Int} {rest : List Char} (depth : Nat) (fits : FitsWord value)
    (ends : Ends rest) :
    readValue (depth + 1) (writtenNumber (.integer value) ++ rest) =
      some (.number (.integer value), rest) := by
  have back := digitsToNat_toDigits value.natAbs
  show readValue (depth + 1) ((if value < 0 then '-' :: Nat.toDigits 10 value.natAbs
    else Nat.toDigits 10 value.natAbs) ++ rest) = _
  by_cases negative : value < 0
  · rw [if_pos negative]
    have inside : (decide (0 < value.natAbs) && decide (value.natAbs ≤ Nat.pow 2 63)) = true := by
      have bound := fits.1
      rw [Bool.and_eq_true, decide_eq_true_eq, decide_eq_true_eq]
      omega
    have read : integer? ⟨true, digitsOf (Nat.toDigits 10 value.natAbs), none, none⟩ =
        some value := by
      unfold integer?
      dsimp only
      rw [back, if_neg (by decide), if_neg (by decide), if_pos inside]
      congr 1
      omega
    exact readValue_numeral depth (writesNumeral_toDigits true value.natAbs)
      (by rw [value?, read]) ends
  · rw [if_neg negative]
    have small : value.natAbs < wordBound := by
      have bound := fits.2
      omega
    have read : integer? ⟨false, digitsOf (Nat.toDigits 10 value.natAbs), none, none⟩ =
        some value := by
      unfold integer?
      dsimp only
      rw [back, if_neg (by decide), if_pos (by decide), if_pos small]
      congr 1
      omega
    exact readValue_numeral depth (writesNumeral_toDigits false value.natAbs)
      (by rw [value?, read]) ends

/-! ## Part 3 — floating point numbers -/

/-- A character that a numeral may hold. -/
def isNumeric (c : Char) : Bool := c.isDigit || ['-', '+', '.', 'e'].contains c

theorem isNumeric_of_isDigit {c : Char} (digit : c.isDigit = true) : isNumeric c = true := by
  rw [isNumeric, digit, Bool.true_or]

theorem isSpace_of_isNumeric {c : Char} (numeric : isNumeric c = true) : isSpace c = false := by
  simp only [isSpace, Bool.or_eq_false_iff, beq_eq_false_iff_ne]
  refine ⟨⟨⟨?_, ?_⟩, ?_⟩, ?_⟩
  all_goals
    rintro rfl
    exact absurd numeric (by decide)

/-- A numeral that is written begins with a digit, and holds nothing else than a numeral may. -/
structure Numeric (text : List Char) : Prop where
  first : ∃ c tail, text = c :: tail ∧ c.isDigit = true
  all : ∀ c ∈ text, isNumeric c = true

theorem all_isNumeric_of_isDigit {cs : List Char} (all : ∀ c ∈ cs, c.isDigit = true) :
    cs.all isNumeric = true :=
  List.all_eq_true.mpr fun c inside => isNumeric_of_isDigit (all c inside)

theorem all_isNumeric_zeros (count : Nat) : (List.replicate count '0').all isNumeric = true :=
  all_isNumeric_of_isDigit fun c inside => by
    rw [List.eq_of_mem_replicate inside]
    rfl

theorem withPoint_numeric {digits : List Char} (all : ∀ c ∈ digits, c.isDigit = true)
    (places : Nat) : (Decimal.withPoint digits places).all isNumeric = true := by
  have front := all_isNumeric_of_isDigit fun c inside =>
    all c (List.mem_of_mem_take (i := places) inside)
  have back := all_isNumeric_of_isDigit fun c inside =>
    all c (List.mem_of_mem_drop (i := places) inside)
  have point : isNumeric '.' = true := by decide
  unfold Decimal.withPoint
  dsimp only
  rw [List.all_append, List.all_append, List.all_cons, front, all_isNumeric_zeros, point]
  split
  · rfl
  · exact back

/-- Digits laid out hold nothing that a numeral does not. -/
theorem layOut_numeric {digits : List Char} (all : ∀ c ∈ digits, c.isDigit = true)
    (exponent : Int) : (Decimal.layOut .document digits exponent).all isNumeric = true := by
  have own := all_isNumeric_of_isDigit all
  have point : isNumeric '.' = true := by decide
  have zero : isNumeric '0' = true := by decide
  have mark : isNumeric 'e' = true := by decide
  unfold Decimal.layOut
  split
  · split
    · exact withPoint_numeric all _
    · rw [List.all_append, List.all_cons, List.all_cons, all_isNumeric_zeros, zero, point, own]
      rfl
  · have sign : (if 0 ≤ exponent then Decimal.Layout.document.positiveSign.toList
        else ['-']).all isNumeric = true := by
      split
      · decide
      · decide
    have digitsOfExponent : (Nat.toDigits 10 exponent.natAbs).all isNumeric = true :=
      all_isNumeric_of_isDigit fun c inside =>
        Nat.isDigit_of_mem_toDigits (by decide) (by decide) inside
    dsimp only
    rw [List.all_append, List.all_append, List.all_cons, mark, sign, digitsOfExponent,
      Bool.true_and, Bool.and_true, Bool.and_true]
    cases digits with
    | nil => rfl
    | cons digit more =>
      cases more with
      | nil => exact own
      | cons next more =>
        rw [List.all_cons] at own
        rw [List.all_cons, List.all_cons, point, Bool.true_and, own]

/-- Digits laid out begin with a digit still. -/
theorem numeric_layOut {digits : List Char} (some_digit : digits ≠ [])
    (all : ∀ c ∈ digits, c.isDigit = true) (exponent : Int) :
    Numeric (Decimal.layOut .document digits exponent) := by
  refine ⟨?_, List.all_eq_true.mp (layOut_numeric all exponent)⟩
  obtain ⟨digit, more, rfl⟩ := List.exists_cons_of_ne_nil some_digit
  have first := all digit List.mem_cons_self
  unfold Decimal.layOut
  split
  · split
    · exact ⟨digit, _, rfl, first⟩
    · exact ⟨'0', _, rfl, by decide⟩
  · cases more with
    | nil => exact ⟨digit, _, rfl, first⟩
    | cons next more => exact ⟨digit, _, rfl, first⟩

/-- A floating point number is written as a numeral, with its sign before it. -/
theorem render_numeric (number : Double) :
    ∃ magnitude, Numeric magnitude ∧
      Decimal.render .document number =
        if number.negative then '-' :: magnitude else magnitude := by
  unfold Decimal.render
  refine ⟨_, ?_, rfl⟩
  split
  · exact ⟨⟨'0', _, rfl, by decide⟩, List.all_eq_true.mp (by decide)⟩
  · exact numeric_layOut Nat.toDigits_ne_nil
      (fun _ => Nat.isDigit_of_mem_toDigits (by decide) (by decide)) _

/-- What is written begins like a numeral, and goes on like one. -/
theorem render_begins (number : Double) :
    (∀ c ∈ (Decimal.render .document number).head?, c.isDigit = true ∨ c = '-') ∧
      Decimal.render .document number ≠ [] ∧
      ∀ c ∈ Decimal.render .document number, isNumeric c = true := by
  obtain ⟨magnitude, ⟨⟨digit, tail, shape, first⟩, all⟩, written⟩ := render_numeric number
  rw [written]
  cases number.negative with
  | true =>
    refine ⟨fun c same => .inr (Option.some.inj same).symm, List.cons_ne_nil _ _,
      fun c inside => ?_⟩
    rcases List.mem_cons.mp inside with rfl | inside
    · decide
    · exact all c inside
  | false =>
    refine ⟨fun c same => .inl ?_, ?_, all⟩
    · rw [shape] at same
      cases same
      exact first
    · rw [shape]
      exact List.cons_ne_nil _ _

/-- **A number that is read back**, written as a document of its own. -/
def ReadsBack (number : Double) : Prop :=
  read (render (.number (.real number))) = some (.number (.real number))

/-- **A floating point number that is read back alone is read back anywhere.** -/
theorem readValue_real {number : Double} {rest : List Char} (depth : Nat) (back : ReadsBack number)
    (ends : Ends rest) :
    readValue (depth + 1) (writtenNumber (.real number) ++ rest) =
      some (.number (.real number), rest) := by
  obtain ⟨begins, some_text, solid⟩ := render_begins number
  have skipped : ∀ text : List Char, (∀ c ∈ text, isNumeric c = true) → skipBlanks text = text :=
    fun text numeric => skipBlanks_of_head fun c first =>
      isSpace_of_isNumeric (numeric c (List.mem_of_mem_head? first))
  have document : (render (.number (.real number))).toList = Decimal.render .document number :=
    String.toList_ofList
  unfold ReadsBack read at back
  rw [document, skipped _ solid, depthBound, readValue_scan 127 some_text begins] at back
  cases scanned : scan (Decimal.render .document number) with
  | none =>
    rw [scanned] at back
    cases back
  | some result =>
    obtain ⟨numeral, after⟩ := result
    rw [scanned] at back
    dsimp only at back
    cases valued : value? numeral with
    | none =>
      rw [valued] at back
      cases back
    | some value =>
      rw [valued] at back
      dsimp only [Option.map] at back
      obtain ⟨text, whole, written⟩ := writesNumeral_of_scan scanned
      have numeric : ∀ c ∈ after, isNumeric c = true := fun c there =>
        solid c (whole ▸ List.mem_append_right _ there)
      rw [skipped after numeric] at back
      cases after with
      | cons c after => cases back
      | nil =>
        cases back
        rw [List.append_nil] at whole
        rw [← whole] at written
        exact readValue_numeral depth written valued ends

end ShaderForge.Json
