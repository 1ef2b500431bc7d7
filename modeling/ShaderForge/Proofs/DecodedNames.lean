/-
**Names that come back.**

A name stands in an archive as UTF-8. The entry says so if the name is not plain ASCII; a name that
is needs no mark, as code page 437 is ASCII up to there. So a name is read as it was written
(`Zip.decodeName_toUTF8`).

That text is read back from its UTF-8 is shown for one character at a time: its first byte says how
many bytes follow and in which range the next one lies, and each of these adds six bits
(`Text.decodeFrom_encoded`).
-/

import Mathlib.Data.List.Basic
import ShaderForge.Zip.EntryNames
import ShaderForge.Zip.Writer

namespace ShaderForge

/-! ## Part 1 — one character -/

namespace Text

variable {rest : List UInt8}

/-- A byte as it is counted by the decoder. -/
theorem toNat_byte {number : Nat} (small : number < 256) : (UInt8.ofNat number).toNat = number := by
  rw [UInt8.toNat_ofNat', Nat.mod_eq_of_lt (by omega)]

/-- How the decoder tests a range. -/
theorem inRange_iff {low byte high : Nat} :
    (decide (low ≤ byte) && decide (byte ≤ high)) = true ↔ low ≤ byte ∧ byte ≤ high := by
  rw [Bool.and_eq_true, decide_eq_true_iff, decide_eq_true_iff]

/-- A byte that begins a character of two bytes. -/
theorem beginChar_two {lead : Nat} (above : 0xC2 ≤ lead) (below : lead ≤ 0xDF) :
    beginChar lead = ([], some ⟨1, lead - 0xC0, 0x80, 0xBF⟩) := by
  rw [beginChar, if_neg (by omega), if_pos (inRange_iff.mpr ⟨above, below⟩)]

/-- A byte that begins a character of three bytes, with nothing ruled out for the next one. -/
theorem beginChar_three {lead : Nat} (above : 0xE1 ≤ lead) (below : lead ≤ 0xEF)
    (other : lead ≠ 0xED) : beginChar lead = ([], some ⟨2, lead - 0xE0, 0x80, 0xBF⟩) := by
  rw [beginChar, if_neg (by omega), if_neg (by rw [inRange_iff]; omega),
    if_neg (by rw [beq_iff_eq]; omega), if_neg (by rwa [beq_iff_eq]),
    if_pos (inRange_iff.mpr ⟨above, below⟩)]

/-- A byte that begins a character of four bytes, with nothing ruled out for the next one. -/
theorem beginChar_four {lead : Nat} (above : 0xF1 ≤ lead) (below : lead ≤ 0xF3) :
    beginChar lead = ([], some ⟨3, lead - 0xF0, 0x80, 0xBF⟩) := by
  rw [beginChar, if_neg (by omega), if_neg (by rw [inRange_iff]; omega),
    if_neg (by rw [beq_iff_eq]; omega), if_neg (by rw [beq_iff_eq]; omega),
    if_neg (by rw [inRange_iff]; omega), if_neg (by rw [beq_iff_eq]; omega),
    if_neg (by rw [beq_iff_eq]; omega), if_pos (inRange_iff.mpr ⟨above, below⟩)]

/-- A byte that begins a longer character. -/
theorem decodeFrom_lead {number : Nat} {pending : Pending} (small : number < 256)
    (begins : beginChar number = ([], some pending)) :
    decodeFrom none (UInt8.ofNat number :: rest) = decodeFrom (some pending) rest := by
  rw [decodeFrom, toNat_byte small, nextByte, begins, List.nil_append]

/-- A byte in the range that is waited for adds six bits. -/
theorem nextByte_within {missing bits low high tail : Nat} (above : low ≤ tail + 0x80)
    (below : tail + 0x80 ≤ high) :
    nextByte (some ⟨missing, bits, low, high⟩) (tail + 0x80) =
      if missing ≤ 1 then ([Char.ofNat (bits * 64 + tail)], none)
      else ([], some ⟨missing - 1, bits * 64 + tail, 0x80, 0xBF⟩) := by
  rw [nextByte, if_pos (inRange_iff.mpr ⟨above, below⟩), Nat.add_sub_cancel]

/-- A byte that goes on with a character. -/
theorem decodeFrom_next {missing bits low high tail : Nat} (small : tail < 64)
    (above : low ≤ tail + 0x80) (below : tail + 0x80 ≤ high) :
    decodeFrom (some ⟨missing + 2, bits, low, high⟩) (UInt8.ofNat (tail + 0x80) :: rest) =
      decodeFrom (some ⟨missing + 1, bits * 64 + tail, 0x80, 0xBF⟩) rest := by
  rw [decodeFrom, toNat_byte (by omega), nextByte_within above below, if_neg (by omega)]
  rfl

/-- A byte that ends a character. -/
theorem decodeFrom_last {bits low high tail : Nat} (small : tail < 64)
    (above : low ≤ tail + 0x80) (below : tail + 0x80 ≤ high) :
    decodeFrom (some ⟨1, bits, low, high⟩) (UInt8.ofNat (tail + 0x80) :: rest) =
      Char.ofNat (bits * 64 + tail) :: decodeFrom none rest := by
  rw [decodeFrom, toNat_byte (by omega), nextByte_within above below, if_pos (Nat.le_refl 1)]
  rfl

/-- **A character is read back from its UTF-8.** -/
theorem decodeFrom_encoded (c : Char) (rest : List UInt8) :
    decodeFrom none (String.utf8EncodeChar c ++ rest) = c :: decodeFrom none rest := by
  have valid : c.val.toNat < 0xD800 ∨ 0xDFFF < c.val.toNat ∧ c.val.toNat < 0x110000 := c.valid
  have same : ∀ number, number = c.val.toNat → Char.ofNat number = c := fun number exactly =>
    exactly ▸ Char.ofNat_toNat c
  unfold String.utf8EncodeChar
  generalize c.val.toNat = code at valid same
  dsimp only
  by_cases one : code ≤ 127
  · rw [if_pos one, List.singleton_append, decodeFrom]
    show (beginChar (UInt8.ofNat code).toNat).1 ++
      decodeFrom (beginChar (UInt8.ofNat code).toNat).2 rest = _
    rw [toNat_byte (by omega), beginChar, if_pos (by omega), same _ rfl]
    rfl
  rw [if_neg one]
  by_cases two : code ≤ 2047
  · rw [if_pos two, List.cons_append, List.singleton_append]
    have begins : beginChar (code / 64 % 32 + 192) =
        ([], some ⟨1, code / 64 % 32, 0x80, 0xBF⟩) := by
      rw [beginChar_two (by omega) (by omega), Nat.add_sub_cancel]
    rw [decodeFrom_lead (by omega) begins, decodeFrom_last (by omega) (by omega) (by omega),
      same _ (by omega)]
  rw [if_neg two]
  by_cases three : code ≤ 65535
  · rw [if_pos three, List.cons_append, List.cons_append, List.singleton_append]
    -- After `E0` the next byte starts late, so that no shorter form is meant; after `ED` it ends
    -- early, so that no surrogate is.
    obtain ⟨low, high, begins, above, below⟩ : ∃ low high,
        beginChar (code / 4096 % 16 + 224) =
          ([], some ⟨2, code / 4096 % 16, low, high⟩) ∧
        low ≤ code / 64 % 64 + 0x80 ∧ code / 64 % 64 + 0x80 ≤ high := by
      by_cases first : code / 4096 % 16 = 0
      · exact ⟨0xA0, 0xBF, by rw [first]; rfl, by omega, by omega⟩
      by_cases late : code / 4096 % 16 = 13
      · exact ⟨0x80, 0x9F, by rw [late]; rfl, by omega, by omega⟩
      refine ⟨0x80, 0xBF, ?_, by omega, by omega⟩
      rw [beginChar_three (by omega) (by omega) (by omega), Nat.add_sub_cancel]
    rw [decodeFrom_lead (by omega) begins, decodeFrom_next (by omega) above below,
      decodeFrom_last (by omega) (by omega) (by omega), same _ (by omega)]
  · rw [if_neg three, List.cons_append, List.cons_append, List.cons_append, List.singleton_append]
    -- After `F0` no shorter form is meant, and after `F4` nothing beyond the last character.
    obtain ⟨low, high, begins, above, below⟩ : ∃ low high,
        beginChar (code / 262144 % 8 + 240) =
          ([], some ⟨3, code / 262144 % 8, low, high⟩) ∧
        low ≤ code / 4096 % 64 + 0x80 ∧ code / 4096 % 64 + 0x80 ≤ high := by
      by_cases first : code / 262144 % 8 = 0
      · exact ⟨0x90, 0xBF, by rw [first]; rfl, by omega, by omega⟩
      by_cases late : code / 262144 % 8 = 4
      · exact ⟨0x80, 0x8F, by rw [late]; rfl, by omega, by omega⟩
      refine ⟨0x80, 0xBF, ?_, by omega, by omega⟩
      rw [beginChar_four (by omega) (by omega), Nat.add_sub_cancel]
    rw [decodeFrom_lead (by omega) begins, decodeFrom_next (by omega) above below,
      decodeFrom_next (by omega) (by omega) (by omega),
      decodeFrom_last (by omega) (by omega) (by omega), same _ (by omega)]

/-! ## Part 2 — whole texts -/

/-- The bytes of a text, character by character. -/
theorem toList_toUTF8 (text : String) :
    text.toUTF8.data.toList = text.toList.flatMap String.utf8EncodeChar := by
  conv_lhs => rw [← String.ofList_toList (s := text)]
  exact List.toList_data_toByteArray

/-- **Text is read back from its UTF-8.** -/
theorem decodeLossy_toUTF8 (text : String) : decodeLossy text.toUTF8 = text := by
  have read : ∀ cs : List Char, decodeFrom none (cs.flatMap String.utf8EncodeChar) = cs := by
    intro cs
    induction cs with
    | nil => rfl
    | cons c cs ih => rw [List.flatMap_cons, decodeFrom_encoded, ih]
  rw [decodeLossy, toList_toUTF8, read, String.ofList_toList]

end Text

/-! ## Part 3 — names -/

namespace Zip

/-- An ASCII character is one byte, which code page 437 reads as it is. -/
theorem map_pageChar_ascii {c : Char} (ascii : c.toNat < 0x80) :
    (String.utf8EncodeChar c).map pageChar = [c] := by
  have single : String.utf8EncodeChar c = [UInt8.ofNat c.toNat] :=
    if_pos (show c.toNat ≤ 127 by omega)
  rw [single, List.map_singleton, pageChar, Text.toNat_byte (by omega), if_pos ascii,
    Char.ofNat_toNat]

/-- **A name is read as it was written**, by what its entry says about it. -/
theorem decodeName_toUTF8 (name : String) :
    decodeName (nameFlags name / Nat.pow 2 11 % 2 == 1) name.toUTF8 = name := by
  by_cases ascii : (name.toList.all fun c => decide (c.toNat < 0x80)) = true
  · rw [nameFlags, if_pos ascii]
    show String.ofList (name.toUTF8.data.toList.map pageChar) = name
    have single : ∀ cs : List Char, (∀ c ∈ cs, c.toNat < 0x80) →
        (cs.flatMap String.utf8EncodeChar).map pageChar = cs := by
      intro cs plain
      induction cs with
      | nil => rfl
      | cons c cs ih =>
        obtain ⟨first, others⟩ := List.forall_mem_cons.mp plain
        rw [List.flatMap_cons, List.map_append, map_pageChar_ascii first, ih others]
        rfl
    rw [Text.toList_toUTF8, single name.toList fun c among =>
      of_decide_eq_true (List.all_eq_true.mp ascii c among), String.ofList_toList]
  · rw [nameFlags, if_neg ascii]
    exact Text.decodeLossy_toUTF8 name

end Zip

end ShaderForge
