/-
**Blank characters.**

The white space that is trimmed from names, references and messages is that of the Unicode standard
(property `White_Space`): the ASCII blanks, the next-line and no-break spaces, and the spaces and
separators of general punctuation. A zero-width space is not among them.

* `trimChars_eq_self`: text without blanks at its ends is left alone.
-/

namespace ShaderForge.Text

/-- A blank character. -/
def isBlank (c : Char) : Bool :=
  (0x9 ≤ c.toNat && c.toNat ≤ 0xD) || c.toNat == 0x20 || c.toNat == 0x85 || c.toNat == 0xA0
    || c.toNat == 0x1680 || (0x2000 ≤ c.toNat && c.toNat ≤ 0x200A) || c.toNat == 0x2028
    || c.toNat == 0x2029 || c.toNat == 0x202F || c.toNat == 0x205F || c.toNat == 0x3000

/-- The text from its first character that is not blank. -/
def dropBlank (cs : List Char) : List Char := cs.dropWhile isBlank

/-- The text up to its last character that is not blank. -/
def dropBlankEnd (cs : List Char) : List Char := (cs.reverse.dropWhile isBlank).reverse

/-- The text without blanks at either end. -/
def trimChars (cs : List Char) : List Char := dropBlankEnd (dropBlank cs)

/-- The text without blanks at either end. -/
def trim (text : String) : String := String.ofList (trimChars text.toList)

/-- Whether a text holds nothing but blanks. -/
def isBlankText (text : String) : Bool := text.toList.all isBlank

/-- Dropping changes nothing when the first character is not blank. -/
theorem dropBlank_eq_self {cs : List Char} (solid : ∀ c ∈ cs.head?, isBlank c = false) :
    dropBlank cs = cs := by
  cases cs with
  | nil => rfl
  | cons c cs => simp [dropBlank, List.dropWhile, solid c (by simp)]

/-- Text without blanks at its ends is left alone. -/
theorem trimChars_eq_self {cs : List Char} (first : ∀ c ∈ cs.head?, isBlank c = false)
    (last : ∀ c ∈ cs.getLast?, isBlank c = false) : trimChars cs = cs := by
  have solid : ∀ c ∈ cs.reverse.head?, isBlank c = false := by
    simpa [List.head?_reverse] using last
  have ends : cs.reverse.dropWhile isBlank = cs.reverse := dropBlank_eq_self solid
  rw [trimChars, dropBlank_eq_self first, dropBlankEnd, ends, List.reverse_reverse]

end ShaderForge.Text
