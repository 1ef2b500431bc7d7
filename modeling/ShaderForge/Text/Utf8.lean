/-
**Reading bytes as text.**

Output of a compiler and the log of the service may hold bytes that are no UTF-8. `decodeLossy`
reads them as an editor does: every longest start of a character that breaks off, and every byte
that cannot start one, becomes one replacement character `U+FFFD`.

The decoder looks at one byte at a time. `Pending` is what it still waits for: how many bytes, the
bits so far, and the range in which the next byte must lie (the range rules out overlong forms,
surrogates and numbers past `U+10FFFF`).
-/

namespace ShaderForge.Text

/-- The rest of a character that has begun. -/
structure Pending where
  missing : Nat
  bits : Nat
  low : Nat
  high : Nat

/-- What stands for broken bytes. -/
def replacement : Char := Char.ofNat 0xFFFD

/-- A byte where a character may begin: what it writes, and what it waits for. -/
def beginChar (byte : Nat) : List Char × Option Pending :=
  if byte < 0x80 then ([Char.ofNat byte], none)
  else if 0xC2 ≤ byte && byte ≤ 0xDF then ([], some ⟨1, byte - 0xC0, 0x80, 0xBF⟩)
  else if byte == 0xE0 then ([], some ⟨2, 0, 0xA0, 0xBF⟩)
  else if byte == 0xED then ([], some ⟨2, 0xD, 0x80, 0x9F⟩)
  else if 0xE1 ≤ byte && byte ≤ 0xEF then ([], some ⟨2, byte - 0xE0, 0x80, 0xBF⟩)
  else if byte == 0xF0 then ([], some ⟨3, 0, 0x90, 0xBF⟩)
  else if byte == 0xF4 then ([], some ⟨3, 4, 0x80, 0x8F⟩)
  else if 0xF1 ≤ byte && byte ≤ 0xF3 then ([], some ⟨3, byte - 0xF0, 0x80, 0xBF⟩)
  else ([replacement], none)

/-- A byte after a beginning: it goes on with the character, or breaks it and begins anew. -/
def nextByte (waiting : Option Pending) (byte : Nat) : List Char × Option Pending :=
  match waiting with
  | none => beginChar byte
  | some rest =>
    if rest.low ≤ byte && byte ≤ rest.high then
      let bits := rest.bits * 64 + (byte - 0x80)
      if rest.missing ≤ 1 then ([Char.ofNat bits], none)
      else ([], some ⟨rest.missing - 1, bits, 0x80, 0xBF⟩)
    else (replacement :: (beginChar byte).1, (beginChar byte).2)

/-- The characters of bytes, given what is waited for. -/
def decodeFrom (waiting : Option Pending) : List UInt8 → List Char
  | [] => if waiting.isSome then [replacement] else []
  | byte :: bytes =>
    (nextByte waiting byte.toNat).1 ++ decodeFrom (nextByte waiting byte.toNat).2 bytes

/-- **Any bytes as text**, with a replacement character for each broken sequence. -/
def decodeLossy (bytes : ByteArray) : String :=
  String.ofList (decodeFrom none bytes.data.toList)

end ShaderForge.Text
