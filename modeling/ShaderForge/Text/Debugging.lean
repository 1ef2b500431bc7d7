/-
**Text in messages.**

Text from a document that is quoted in a message stands between double quotes, on one line: quotes,
backslashes and line ends are escaped by a letter, and what would not be seen by its number.

* `quotedPlainly`: the quoted text.
-/

namespace ShaderForge.Text

/-- Ranges of characters that are not seen by themselves: controls, separators, marks that join the
character before them, and characters for private use. -/
def unseenRanges : List (Nat × Nat) := [
  (0x0, 0x1F), (0x7F, 0xA0), (0xAD, 0xAD), (0x300, 0x36F), (0x483, 0x489), (0x591, 0x5BD),
  (0x600, 0x605), (0x610, 0x61A), (0x61C, 0x61C), (0x64B, 0x65F), (0x6DD, 0x6DD), (0x70F, 0x70F),
  (0x1680, 0x1680), (0x180B, 0x180F), (0x1AB0, 0x1AFF), (0x1DC0, 0x1DFF), (0x2000, 0x200F),
  (0x2028, 0x202F), (0x205F, 0x206F), (0x20D0, 0x20F0), (0x3000, 0x3000), (0x302A, 0x302F),
  (0x3099, 0x309A), (0xE000, 0xF8FF), (0xFE00, 0xFE0F), (0xFE20, 0xFE2F), (0xFEFF, 0xFEFF),
  (0xFF9E, 0xFF9F), (0xFFF0, 0xFFFB), (0xE0000, 0x10FFFF)
]

/-- Whether a character is seen by itself. -/
def isSeen (c : Char) : Bool :=
  !unseenRanges.any fun range => range.1 ≤ c.toNat && c.toNat ≤ range.2

/-- A character as it stands in quoted text. -/
def shown (c : Char) : List Char :=
  if c = '"' then ['\\', '"']
  else if c = '\\' then ['\\', '\\']
  else if c = '\n' then ['\\', 'n']
  else if c = '\r' then ['\\', 'r']
  else if c = '\t' then ['\\', 't']
  else if c.toNat = 0 then ['\\', '0']
  else if isSeen c then [c]
  else '\\' :: 'u' :: '{' :: Nat.toDigits 16 c.toNat ++ ['}']

/-- **Text between quotes**, every character seen. -/
def quotedPlainly (text : String) : String :=
  String.ofList ('"' :: text.toList.flatMap shown ++ ['"'])

end ShaderForge.Text
