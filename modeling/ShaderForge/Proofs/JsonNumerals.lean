/-
**What a numeral of a JSON document is.**

A numeral is a sign, whole digits, and optionally a fraction and an exponent, each with at least one
digit; whole digits begin with a zero only if it stands alone. This is said here of a text without
its reader (`WritesNumeral`).

* `scan_of_writesNumeral`: such a text is scanned, whatever follows that does not go on with it
  (`Ends`);
* `writesNumeral_of_scan`: what is scanned is such a text.
-/

import Mathlib.Data.List.TakeWhile
import ShaderForge.Json.Numeral

namespace ShaderForge.Json

variable {cs text rest : List Char} {digits : List Nat} {numeral : Numeral}

/-! ## Part 1 — the parts of a numeral -/

/-- **Digits**, at least one, and their values. -/
structure WritesDigits (text : List Char) (digits : List Nat) : Prop where
  some_text : text ≠ []
  all : ∀ c ∈ text, c.isDigit = true
  values : digits = text.map fun c => c.toNat - '0'.toNat

/-- The sign of a numeral. -/
def minusSign (negative : Bool) : List Char := if negative then ['-'] else []

/-- **The sign of an exponent**, and whether it is negative. -/
inductive WritesSign : List Char → Bool → Prop
  | absent : WritesSign [] false
  | plus : WritesSign ['+'] false
  | minus : WritesSign ['-'] true

/-- **A fraction**, if there is one. -/
inductive WritesFraction : List Char → Option (List Nat) → Prop
  | absent : WritesFraction [] none
  | present {text : List Char} {digits : List Nat} (written : WritesDigits text digits) :
      WritesFraction ('.' :: text) (some digits)

/-- **An exponent**, if there is one. -/
inductive WritesExponent : List Char → Option (Bool × List Nat) → Prop
  | absent : WritesExponent [] none
  | present {mark : Char} {sign text : List Char} {negative : Bool} {digits : List Nat}
      (marks : mark = 'e' ∨ mark = 'E') (signs : WritesSign sign negative)
      (written : WritesDigits text digits) :
      WritesExponent (mark :: (sign ++ text)) (some (negative, digits))

/-- **A numeral.** -/
inductive WritesNumeral : List Char → Numeral → Prop
  | mk {whole fraction exponent : List Char} {numeral : Numeral}
      (wholes : WritesDigits whole numeral.whole)
      (alone : numeral.whole.head? = some 0 → numeral.whole = [0])
      (fractions : WritesFraction fraction numeral.fraction)
      (exponents : WritesExponent exponent numeral.exponent) :
      WritesNumeral (minusSign numeral.negative ++ (whole ++ (fraction ++ exponent))) numeral

/-! ## Part 2 — what is written is scanned -/

/-- **A text that ends a numeral before it**: it does not go on with one. -/
def Ends (rest : List Char) : Prop :=
  ∀ c ∈ rest.head?, c.isDigit = false ∧ c ≠ '.' ∧ c ≠ 'e' ∧ c ≠ 'E'

/-- A text that ends the digits before it. -/
def EndsDigits (rest : List Char) : Prop := ∀ c ∈ rest.head?, c.isDigit = false

namespace WritesDigits

variable (written : WritesDigits text digits)

include written

theorem ne_nil : digits ≠ [] := by
  rw [written.values]
  exact fun none => written.some_text (List.map_eq_nil_iff.mp none)

theorem digitsOf (ends : EndsDigits rest) : digitsOf (text ++ rest) = digits := by
  have stops : rest.takeWhile Char.isDigit = [] := by
    cases rest with
    | nil => rfl
    | cons c rest => exact List.takeWhile_cons_of_neg (by simp [ends c rfl])
  rw [Json.digitsOf, List.takeWhile_append_of_pos written.all, stops, List.append_nil,
    written.values]

theorem afterDigits (ends : EndsDigits rest) : afterDigits (text ++ rest) = rest := by
  rw [Json.afterDigits, List.dropWhile_append_of_pos written.all]
  cases rest with
  | nil => rfl
  | cons c rest => exact List.dropWhile_cons_of_neg (by simp [ends c rfl])

/-- Digits begin with a digit. -/
theorem begins : ∃ c tail, text = c :: tail ∧ c.isDigit = true := by
  obtain ⟨c, tail, shape⟩ := List.exists_cons_of_ne_nil written.some_text
  exact ⟨c, tail, shape, written.all c (shape ▸ List.mem_cons_self)⟩

theorem scanWhole (alone : digits.head? = some 0 → digits = [0]) (ends : EndsDigits rest) :
    scanWhole (text ++ rest) = some (digits, rest) := by
  unfold Json.scanWhole
  rw [written.digitsOf ends, written.afterDigits ends]
  split
  · exact absurd rfl written.ne_nil
  · cases alone rfl
  · rfl

end WritesDigits

theorem WritesSign.scanSign {sign : List Char} {negative : Bool}
    (written : WritesSign sign negative) (digits : WritesDigits text digits) (rest : List Char) :
    scanSign (sign ++ (text ++ rest)) = (negative, text ++ rest) := by
  cases written with
  | plus => rfl
  | minus => rfl
  | absent =>
    obtain ⟨c, tail, rfl, digit⟩ := digits.begins
    show scanSign (c :: (tail ++ rest)) = _
    unfold Json.scanSign
    split
    · next same => cases same; cases digit
    · next same => cases same; cases digit
    · rfl

/-- An exponent begins with its mark, if there is one. -/
theorem WritesExponent.begins {exponent : Option (Bool × List Nat)}
    (written : WritesExponent text exponent) (ends : Ends rest) :
    ∀ c ∈ (text ++ rest).head?, c.isDigit = false ∧ c ≠ '.' := by
  intro c first
  cases written with
  | absent => exact ⟨(ends c first).1, (ends c first).2.1⟩
  | present marks =>
    cases first
    rcases marks with rfl | rfl <;> decide

theorem WritesExponent.scanExponent {exponent : Option (Bool × List Nat)}
    (written : WritesExponent text exponent) (ends : Ends rest) :
    scanExponent (text ++ rest) = some (exponent, rest) := by
  cases written with
  | absent =>
    cases rest with
    | nil => rfl
    | cons c rest =>
      have plain : ¬ (c = 'e' ∨ c = 'E') := fun mark =>
        mark.elim (ends c rfl).2.2.1 (ends c rfl).2.2.2
      rw [List.nil_append, Json.scanExponent, if_neg plain]
  | present marks signs written =>
    have stops : EndsDigits rest := fun c first => (ends c first).1
    rw [List.cons_append, List.append_assoc, Json.scanExponent, if_pos marks,
      signs.scanSign written rest]
    dsimp only
    rw [written.digitsOf stops, written.afterDigits stops]
    split
    · exact absurd rfl written.ne_nil
    · rfl

theorem WritesFraction.scanFraction {fraction : Option (List Nat)}
    (written : WritesFraction text fraction)
    (ends : ∀ c ∈ rest.head?, c.isDigit = false ∧ c ≠ '.') :
    scanFraction (text ++ rest) = some (fraction, rest) := by
  cases written with
  | absent =>
    rw [List.nil_append]
    unfold Json.scanFraction
    split
    · exact absurd rfl (ends '.' rfl).2
    · rfl
  | present written =>
    have ends : EndsDigits rest := fun c first => (ends c first).1
    rw [List.cons_append, Json.scanFraction, written.digitsOf ends, written.afterDigits ends]
    split
    · exact absurd rfl written.ne_nil
    · rfl

/-- A fraction begins with its point, if there is one. -/
theorem WritesFraction.endsDigits {fraction : Option (List Nat)}
    (written : WritesFraction text fraction) (ends : EndsDigits rest) :
    EndsDigits (text ++ rest) := by
  cases written with
  | absent => exact ends
  | present =>
    intro c first
    cases first
    rfl

/-- **A numeral begins with a digit or a minus sign.** -/
theorem WritesNumeral.begins (written : WritesNumeral text numeral) :
    ∃ c tail, text = c :: tail ∧ (c.isDigit = true ∨ c = '-') := by
  cases written with
  | mk wholes =>
    cases numeral.negative with
    | true => exact ⟨'-', _, rfl, .inr rfl⟩
    | false =>
      obtain ⟨c, tail, rfl, digit⟩ := wholes.begins
      exact ⟨c, _, rfl, .inl digit⟩

/-- **A numeral that is written is scanned**, whatever ends it. -/
theorem scan_of_writesNumeral (written : WritesNumeral text numeral) (ends : Ends rest) :
    scan (text ++ rest) = some (numeral, rest) := by
  cases written with
  | @mk whole fraction exponent _ wholes alone fractions exponents =>
    have begins := exponents.begins ends
    have tail : EndsDigits (fraction ++ (exponent ++ rest)) :=
      fractions.endsDigits fun c first => (begins c first).1
    have unsigned : ∀ negative, scanUnsigned negative (whole ++ (fraction ++ (exponent ++ rest))) =
        some (⟨negative, numeral.whole, numeral.fraction, numeral.exponent⟩, rest) := by
      intro negative
      unfold scanUnsigned
      rw [wholes.scanWhole alone tail]
      dsimp only [bind, Option.bind]
      rw [fractions.scanFraction begins]
      dsimp only [bind, Option.bind]
      rw [exponents.scanExponent ends]
      rfl
    obtain ⟨c, digits, shape, digit⟩ := wholes.begins
    simp only [List.append_assoc]
    cases signed : numeral.negative with
    | true =>
      show scanUnsigned true (whole ++ (fraction ++ (exponent ++ rest))) = _
      rw [unsigned, ← signed]
    | false =>
      show scan (whole ++ (fraction ++ (exponent ++ rest))) = _
      have plain : scan (whole ++ (fraction ++ (exponent ++ rest))) =
          scanUnsigned false (whole ++ (fraction ++ (exponent ++ rest))) := by
        rw [shape]
        unfold scan
        split
        · next same => cases same; cases digit
        · rfl
      rw [plain, unsigned, ← signed]

/-! ## Part 3 — what is scanned is written -/

theorem writesDigits_of_digitsOf (some_digit : digitsOf cs ≠ []) :
    ∃ text, cs = text ++ afterDigits cs ∧ WritesDigits text (digitsOf cs) := by
  refine ⟨cs.takeWhile Char.isDigit, List.takeWhile_append_dropWhile.symm, ?_,
    List.all_eq_true.mp List.all_takeWhile, rfl⟩
  exact fun none => some_digit (List.map_eq_nil_iff.mpr none)

theorem writesDigits_of_scanWhole (scanned : scanWhole cs = some (digits, rest)) :
    ∃ text, cs = text ++ rest ∧ WritesDigits text digits ∧
      (digits.head? = some 0 → digits = [0]) := by
  unfold scanWhole at scanned
  split at scanned
  · cases scanned
  · cases scanned
  · next one several =>
    cases scanned
    obtain ⟨text, whole, written⟩ := writesDigits_of_digitsOf one
    refine ⟨text, whole, written, fun zero => ?_⟩
    cases shape : digitsOf cs with
    | nil => exact absurd shape one
    | cons digit others =>
      rw [shape] at zero
      cases zero
      cases others with
      | nil => rfl
      | cons other others => exact absurd shape (several other others)

theorem writesFraction_of_scanFraction {fraction : Option (List Nat)}
    (scanned : scanFraction cs = some (fraction, rest)) :
    ∃ text, cs = text ++ rest ∧ WritesFraction text fraction := by
  unfold scanFraction at scanned
  split at scanned
  · split at scanned
    · cases scanned
    · next some_digit =>
      cases scanned
      obtain ⟨text, whole, written⟩ := writesDigits_of_digitsOf some_digit
      exact ⟨'.' :: text, congrArg _ whole, .present written⟩
  · cases scanned
    exact ⟨[], rfl, .absent⟩

theorem writesSign_scanSign (cs : List Char) :
    ∃ sign, cs = sign ++ (scanSign cs).2 ∧ WritesSign sign (scanSign cs).1 := by
  unfold scanSign
  split
  · exact ⟨['+'], rfl, .plus⟩
  · exact ⟨['-'], rfl, .minus⟩
  · exact ⟨[], rfl, .absent⟩

theorem writesExponent_of_scanExponent {exponent : Option (Bool × List Nat)}
    (scanned : scanExponent cs = some (exponent, rest)) :
    ∃ text, cs = text ++ rest ∧ WritesExponent text exponent := by
  unfold scanExponent at scanned
  split at scanned
  · next mark cs =>
    split at scanned
    · next marks =>
      split at scanned
      · cases scanned
      · next some_digit =>
        cases scanned
        obtain ⟨sign, before, signs⟩ := writesSign_scanSign cs
        obtain ⟨text, whole, written⟩ := writesDigits_of_digitsOf some_digit
        refine ⟨mark :: (sign ++ text), ?_, .present marks signs written⟩
        rw [List.cons_append, List.append_assoc, ← whole, ← before]
    · cases scanned
      exact ⟨[], rfl, .absent⟩
  · cases scanned
    exact ⟨[], rfl, .absent⟩

/-- **What is scanned is a numeral**, and ends where the scan does. -/
theorem writesNumeral_of_scan (scanned : scan cs = some (numeral, rest)) :
    ∃ text, cs = text ++ rest ∧ WritesNumeral text numeral := by
  have unsigned : ∀ {negative cs}, scanUnsigned negative cs = some (numeral, rest) →
      numeral.negative = negative ∧
        ∃ text, cs = text ++ rest ∧ WritesNumeral (minusSign negative ++ text) numeral := by
    intro negative cs scanned
    obtain ⟨⟨whole, first⟩, begins, scanned⟩ := Option.bind_eq_some_iff.mp scanned
    obtain ⟨⟨fraction, second⟩, goes, scanned⟩ := Option.bind_eq_some_iff.mp scanned
    obtain ⟨⟨exponent, third⟩, finishes, scanned⟩ := Option.bind_eq_some_iff.mp scanned
    cases scanned
    obtain ⟨one, rfl, wholes, alone⟩ := writesDigits_of_scanWhole begins
    obtain ⟨two, rfl, fractions⟩ := writesFraction_of_scanFraction goes
    obtain ⟨three, rfl, exponents⟩ := writesExponent_of_scanExponent finishes
    refine ⟨rfl, one ++ (two ++ three), ?_, @WritesNumeral.mk one two three
      ⟨negative, whole, fraction, exponent⟩ wholes alone fractions exponents⟩
    rw [List.append_assoc, List.append_assoc]
  unfold scan at scanned
  split at scanned
  · obtain ⟨-, text, rfl, written⟩ := unsigned scanned
    exact ⟨'-' :: text, rfl, written⟩
  · obtain ⟨-, text, rfl, written⟩ := unsigned scanned
    exact ⟨text, rfl, written⟩

end ShaderForge.Json
