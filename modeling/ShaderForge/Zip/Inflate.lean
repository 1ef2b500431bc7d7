/-
**Unpacking deflated data.**

Deflated data is a row of blocks: bytes as they are, or symbols in a Huffman code, either the fixed
one or one that the block describes first. A symbol is a byte, the end of the block, or the length
of a run that is copied from a distance back in what was unpacked before.

Data that ends too early gives what was unpacked up to there; data that means nothing is a fault,
and comes with what was unpacked before it.

* `Code`: a Huffman code by its lengths; `Code.next`: the next symbol;
* `inflate`: the unpacked data.
-/

import ShaderForge.Total

namespace ShaderForge.Zip

/-! ## Part 1 — bits -/

/-- Why unpacking stopped early. -/
inductive Stop
  | ended
  | corrupt
deriving DecidableEq

/-- A place in the bits of packed data, lowest bit of a byte first. -/
structure Bits where
  bytes : ByteArray
  position : Nat

/-- The next bit. -/
def Bits.next (bits : Bits) : Except Stop (Nat × Bits) :=
  match bits.bytes[bits.position / 8]? with
  | none => throw .ended
  | some byte =>
    let bit := byte.toNat / Nat.pow 2 (bits.position % 8) % 2
    pure (bit, { bits with position := bits.position + 1 })

/-- The next bits as a number, lowest first. -/
def Bits.take : Nat → Bits → Except Stop (Nat × Bits)
  | 0, bits => pure (0, bits)
  | count + 1, bits => do
    let (first, bits) ← bits.next
    let (rest, bits) ← Bits.take count bits
    pure (first + 2 * rest, bits)

/-- The place where the next whole byte begins. -/
def Bits.aligned (bits : Bits) : Bits := { bits with position := (bits.position + 7) / 8 * 8 }

/-! ## Part 2 — Huffman codes -/

/-- A Huffman code: how many codes there are of each length from one on, and the symbols in the
order of their codes. -/
structure Code where
  counts : List Nat
  symbols : Array Nat

/-- The longest code. -/
def longestCode : Nat := 15

/-- The code in which each symbol has a given length; length zero means that it has no code. -/
def Code.ofLengths (lengths : List Nat) : Code where
  counts := (List.range longestCode).map fun length => lengths.count (length + 1)
  symbols := ((List.range longestCode).flatMap fun length =>
    (lengths.zipIdx.filter fun (own, _) => own = length + 1).map Prod.snd).toArray

/-- How many codes of the longest length are left over; none if there are too many codes. -/
def Code.left? (code : Code) : Option Nat :=
  code.counts.foldl (fun left count => do
    let left ← left
    if 2 * left < count then none else some (2 * left - count)) (some 1)

/-- Whether a code may be used: it has not too many codes, and is complete unless it has but one. -/
def Code.isUsable (code : Code) : Bool :=
  match code.left? with
  | none => false
  | some 0 => true
  | some _ => total code.counts ≤ 1

/-- The symbol whose code begins with given bits: `first` is the first code of this length, `index`
the number of shorter codes. -/
def Code.search (code : Code) (value first index : Nat) : List Nat → Bits → Except Stop (Nat × Bits)
  | [], _ => throw .corrupt
  | count :: counts, bits => do
    let (bit, bits) ← bits.next
    let value := 2 * value + bit
    if value < first + count then pure (code.symbols.getD (index + (value - first)) 0, bits)
    else search code value (2 * (first + count)) (index + count) counts bits

/-- **The next symbol.** -/
def Code.next (code : Code) (bits : Bits) : Except Stop (Nat × Bits) :=
  code.search 0 0 0 code.counts bits

/-! ## Part 3 — runs -/

/-- The shortest run and the number of extra bits of each length symbol. -/
def lengthTable : Array (Nat × Nat) := #[
  (3, 0), (4, 0), (5, 0), (6, 0), (7, 0), (8, 0), (9, 0), (10, 0), (11, 1), (13, 1), (15, 1),
  (17, 1), (19, 2), (23, 2), (27, 2), (31, 2), (35, 3), (43, 3), (51, 3), (59, 3), (67, 4),
  (83, 4), (99, 4), (115, 4), (131, 5), (163, 5), (195, 5), (227, 5), (258, 0)]

/-- The shortest distance and the number of extra bits of each distance symbol. -/
def distanceTable : Array (Nat × Nat) := #[
  (1, 0), (2, 0), (3, 0), (4, 0), (5, 1), (7, 1), (9, 2), (13, 2), (17, 3), (25, 3), (33, 4),
  (49, 4), (65, 5), (97, 5), (129, 6), (193, 6), (257, 7), (385, 7), (513, 8), (769, 8), (1025, 9),
  (1537, 9), (2049, 10), (3073, 10), (4097, 11), (6145, 11), (8193, 12), (12289, 12), (16385, 13),
  (24577, 13)]

/-- The value of a symbol in a table with its extra bits. -/
def tableValue (table : Array (Nat × Nat)) (symbol : Nat) (bits : Bits) :
    Except Stop (Nat × Bits) :=
  match table[symbol]? with
  | none => throw .corrupt
  | some (least, extra) => do
    let (more, bits) ← bits.take extra
    pure (least + more, bits)

/-- Bytes with a run copied from a distance back, which it may overtake; before the first byte there
are zeros. -/
def copyRun (distance : Nat) : Nat → ByteArray → ByteArray
  | 0, out => out
  | count + 1, out =>
    let byte := if distance ≤ out.size then (out[out.size - distance]?).getD 0 else 0
    copyRun distance count (out.push byte)

/-! ## Part 4 — blocks -/

/-- What was unpacked, and where to go on or why not. -/
abbrev Progress := ByteArray × Except Stop Bits

/-- A block of symbols up to its end; `bound` is at least the number of symbols. -/
def unpackSymbols (literals distances : Code) : Nat → ByteArray → Bits → Progress
  | 0, out, _ => (out, .error .ended)
  | bound + 1, out, bits =>
    match literals.next bits with
    | .error stop => (out, .error stop)
    | .ok (symbol, bits) =>
      if symbol < 256 then
        unpackSymbols literals distances bound (out.push (UInt8.ofNat symbol)) bits
      else if symbol = 256 then (out, .ok bits)
      else
        let run : Except Stop (Nat × Nat × Bits) := do
          let (length, bits) ← tableValue lengthTable (symbol - 257) bits
          let (place, bits) ← distances.next bits
          let (distance, bits) ← tableValue distanceTable place bits
          pure (length, distance, bits)
        match run with
        | .error stop => (out, .error stop)
        | .ok (length, distance, bits) =>
          unpackSymbols literals distances bound (copyRun distance length out) bits

/-- The lengths of the fixed code. -/
def fixedLengths : List Nat :=
  List.replicate 144 8 ++ List.replicate 112 9 ++ List.replicate 24 7 ++ List.replicate 8 8

/-- The order in which the lengths of the code for lengths are given. -/
def lengthOrder : List Nat := [16, 17, 18, 0, 8, 7, 9, 6, 10, 5, 11, 4, 12, 3, 13, 2, 14, 1, 15]

/-- Code lengths in the code for lengths, the last one first, up to a given number. -/
def readLengths (code : Code) (wanted : Nat) : Nat → List Nat → Bits → Except Stop (List Nat × Bits)
  | 0, _, _ => throw .corrupt
  | bound + 1, done, bits =>
    if wanted = done.length then pure (done, bits)
    else if wanted < done.length then throw .corrupt
    else do
      let (symbol, bits) ← code.next bits
      if symbol < 16 then readLengths code wanted bound (symbol :: done) bits
      else if symbol = 16 then
        let (more, bits) ← bits.take 2
        match done with
        | [] => throw .corrupt
        | last :: _ => readLengths code wanted bound (List.replicate (more + 3) last ++ done) bits
      else if symbol = 17 then
        let (more, bits) ← bits.take 3
        readLengths code wanted bound (List.replicate (more + 3) 0 ++ done) bits
      else
        let (more, bits) ← bits.take 7
        readLengths code wanted bound (List.replicate (more + 11) 0 ++ done) bits

/-- The next numbers of three bits. -/
def takeTriples : Nat → Bits → Except Stop (List Nat × Bits)
  | 0, bits => pure ([], bits)
  | count + 1, bits => do
    let (first, bits) ← bits.take 3
    let (rest, bits) ← takeTriples count bits
    pure (first :: rest, bits)

/-- The two codes that a block describes. -/
def readCodes (bits : Bits) : Except Stop (Code × Code × Bits) := do
  let (literalCount, bits) ← bits.take 5
  let (distanceCount, bits) ← bits.take 5
  let (lengthCount, bits) ← bits.take 4
  if 286 < literalCount + 257 || 30 < distanceCount + 1 then throw .corrupt
  let (given, bits) ← takeTriples (lengthCount + 4) bits
  let lengths := (List.range 19).map fun symbol =>
    (((lengthOrder.zip given).find? fun pair => pair.1 = symbol).map Prod.snd).getD 0
  let code := Code.ofLengths lengths
  if !code.isUsable then throw .corrupt
  let wanted := literalCount + 257 + (distanceCount + 1)
  let (reversed, bits) ← readLengths code wanted (wanted + 1) [] bits
  let all := reversed.reverse
  let literals := Code.ofLengths (all.take (literalCount + 257))
  let distances := Code.ofLengths (all.drop (literalCount + 257))
  if (all[256]?).getD 0 = 0 || !literals.isUsable || !distances.isUsable then throw .corrupt
  pure (literals, distances, bits)

/-- A block of bytes as they are. -/
def unpackStored (out : ByteArray) (bits : Bits) : Progress :=
  let header : Except Stop (Nat × Bits) := do
    let (length, bits) ← bits.aligned.take 16
    let (check, bits) ← bits.take 16
    if length + check = 0xFFFF then pure (length, bits) else throw .corrupt
  match header with
  | .error stop => (out, .error stop)
  | .ok (length, bits) =>
    let start := bits.position / 8
    let out := out ++ bits.bytes.extract start (start + length)
    if bits.bytes.size < start + length then (out, .error .ended)
    else (out, .ok { bits with position := 8 * (start + length) })

/-- One block of a given kind. -/
def unpackBlock (kind : Nat) (out : ByteArray) (bits : Bits) : Progress :=
  let bound := 8 * bits.bytes.size + 1
  if kind = 0 then unpackStored out bits
  else if kind = 1 then
    let distances := Code.ofLengths (List.replicate 30 5)
    unpackSymbols (Code.ofLengths fixedLengths) distances bound out bits
  else if kind = 2 then
    match readCodes bits with
    | .error stop => (out, .error stop)
    | .ok (literals, distances, bits) => unpackSymbols literals distances bound out bits
  else (out, .error .corrupt)

/-- Blocks up to the last one; `bound` is at least their number. -/
def unpackBlocks : Nat → ByteArray → Bits → ByteArray × Option Stop
  | 0, out, _ => (out, some .ended)
  | bound + 1, out, bits =>
    let header : Except Stop (Nat × Nat × Bits) := do
      let (last, bits) ← bits.next
      let (kind, bits) ← bits.take 2
      pure (last, kind, bits)
    match header with
    | .error stop => (out, some stop)
    | .ok (last, kind, bits) =>
      match unpackBlock kind out bits with
      | (out, .error stop) => (out, some stop)
      | (out, .ok bits) => if last = 1 then (out, none) else unpackBlocks bound out bits

/-- **The unpacked data**, and why it is not all, if it is not. -/
def inflate (packed : ByteArray) : ByteArray × Option Stop :=
  unpackBlocks (8 * packed.size + 1) ByteArray.empty ⟨packed, 0⟩

end ShaderForge.Zip
