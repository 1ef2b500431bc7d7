/-
**Reading archives.**

The end record is looked for from the end of the bytes; whatever follows it is a comment. Archives
may have other bytes in front: then all places in them are shifted by as much. Each entry is listed
with its name and what can be read of its data; data that does not fit its checksum, or cannot be
unpacked, is listed with that fault. An archive with an entry that is encrypted, packed in another
way than deflated, or without a header of its own cannot be opened at all.

* `Member`: one entry;
* `findEnd?`: where the end record begins;
* `members?`: the entries of an archive in order.
-/

import ShaderForge.World.Fault
import ShaderForge.Zip.Checksum
import ShaderForge.Zip.EntryNames
import ShaderForge.Zip.Inflate
import ShaderForge.Zip.Record

namespace ShaderForge.Zip

/-! ## Part 1 — entries -/

/-- **One entry of an archive**: its name, the data that can be read, and what stops the reading. -/
structure Member where
  name : String
  data : ByteArray
  fault : Option IoFault

/-- Members are compared byte by byte. -/
instance : DecidableEq Member := fun left right =>
  decidable_of_iff
    (left.name = right.name ∧ left.data.data = right.data.data ∧ left.fault = right.fault) <| by
      cases left
      cases right
      simp only [Member.mk.injEq, ByteArray.ext_iff]

/-- What the directory says about an entry. -/
structure Listing where
  name : String
  flags : Nat
  method : Nat
  checksum : Nat
  packedSize : Nat
  start : Nat

/-! ## Part 2 — the end of an archive -/

/-- The place of the end record at or before a place, if it is among the next `bound` ones. -/
def searchEnd? (bytes : ByteArray) : Nat → Nat → Option Nat
  | 0, _ => none
  | bound + 1, place =>
    if numberAt? bytes place 4 = some endMark then some place
    else match place with
      | 0 => none
      | earlier + 1 => searchEnd? bytes bound earlier

/-- **The place of the end record**, looked for from the end. -/
def findEnd? (bytes : ByteArray) : Option Nat :=
  if bytes.size < 22 then none else searchEnd? bytes (Nat.pow 2 16) (bytes.size - 22)

/-- Where the directory is: how far the archive is shifted, where the directory begins, and how many
records it has. -/
structure Directory where
  shift : Nat
  start : Nat
  count : Nat

/-- The directory of an archive whose end record says where it is. -/
def plainDirectory? (bytes : ByteArray) (place : Nat) : Option Directory := do
  let count ← numberAt? bytes (place + 8) 2
  let size ← numberAt? bytes (place + 12) 4
  let offset ← numberAt? bytes (place + 16) 4
  if place < size + offset then none
  else some ⟨place - size - offset, place - size, count⟩

/-- The place of the large end record from a place on, if it is among the next `bound` ones. -/
def searchLargeEnd? (bytes : ByteArray) : Nat → Nat → Option Nat
  | 0, _ => none
  | bound + 1, place =>
    if numberAt? bytes place 4 = some largeEndMark then some place
    else searchLargeEnd? bytes bound (place + 1)

/-- The directory of a large archive, whose locator is at a place. -/
def largeDirectory? (bytes : ByteArray) (place locator : Nat) : Option Directory := do
  let disk ← numberAt? bytes (place + 4) 2
  let count ← numberAt? bytes (place + 8) 2
  let all ← numberAt? bytes (place + 10) 2
  let size ← numberAt? bytes (place + 12) 4
  let offset ← numberAt? bytes (place + 16) 4
  let tooSmall := disk = elsewhereShort || count = elsewhereShort || all = elsewhereShort
    || size = elsewhere || offset = elsewhere
  let ownDisk ← numberAt? bytes (locator + 4) 4
  let nominal ← numberAt? bytes (locator + 8) 8
  if (!tooSmall && disk ≠ ownDisk) || place < nominal + 60 then none
  else
    let found ← searchLargeEnd? bytes (place - 60 - nominal + 1) nominal
    let firstDisk ← numberAt? bytes (found + 16) 4
    let secondDisk ← numberAt? bytes (found + 20) 4
    let largeCount ← numberAt? bytes (found + 32) 8
    let largeOffset ← numberAt? bytes (found + 48) 8
    if firstDisk ≠ secondDisk then none
    else some ⟨found - nominal, largeOffset + (found - nominal), largeCount⟩

/-- **The directory of an archive.** -/
def directory? (bytes : ByteArray) : Option Directory := do
  let place ← findEnd? bytes
  let disk ← numberAt? bytes (place + 4) 2
  let firstDisk ← numberAt? bytes (place + 6) 2
  let commentLength ← numberAt? bytes (place + 20) 2
  let _ ← slice? bytes (place + 22) commentLength
  let count ← numberAt? bytes (place + 8) 2
  let all ← numberAt? bytes (place + 10) 2
  let size ← numberAt? bytes (place + 12) 4
  let offset ← numberAt? bytes (place + 16) 4
  let tooSmall := disk = elsewhereShort || firstDisk = elsewhereShort || count = elsewhereShort
    || all = elsewhereShort || size = elsewhere || offset = elsewhere
  if !tooSmall && disk ≠ firstDisk then none
  else if bytes.size < 42 + commentLength then plainDirectory? bytes place
  else
    let locator := bytes.size - 42 - commentLength
    if numberAt? bytes locator 4 = some locatorMark then largeDirectory? bytes place locator
    else plainDirectory? bytes place

/-! ## Part 3 — records of the directory -/

/-- What extra fields say about packed size and place of an entry, and whether it is encrypted; none
if an encrypted entry is described wrongly. Fields that are cut off end the list. -/
def readExtra (wholeIsElsewhere : Bool) :
    Nat → List UInt8 → Nat × Nat × Nat → Option (Nat × Nat × Nat)
  | 0, _, said => some said
  | bound + 1, bytes, (method, packedSize, start) =>
    if bytes.length < 4 then some (method, packedSize, start)
    else
      let kind := numberOf (bytes.take 2)
      let length := numberOf ((bytes.drop 2).take 2)
      let body := bytes.drop 4
      let next := body.drop length
      if kind = largeField then
        let afterWhole := if wholeIsElsewhere then body.drop 8 else body
        let (packedSize, afterPacked) :=
          if packedSize = elsewhere && 8 ≤ afterWhole.length then
            (numberOf (afterWhole.take 8), afterWhole.drop 8)
          else (packedSize, afterWhole)
        let start :=
          if start = elsewhere && 8 ≤ afterPacked.length then numberOf (afterPacked.take 8)
          else start
        readExtra wholeIsElsewhere bound next (method, packedSize, start)
      else if kind = encryptedField then
        if length ≠ 7 then none
        else if body.length < 7 then some (method, packedSize, start)
        else
          let version := numberOf (body.take 2)
          let vendor := numberOf ((body.drop 2).take 2)
          let strength := numberOf ((body.drop 4).take 1)
          let known := vendor = 0x4541 && (version = 1 || version = 2)
          if !known || strength = 0 || 3 < strength then none
          else readExtra wholeIsElsewhere bound next
            (numberOf ((body.drop 5).take 2), packedSize, start)
      else readExtra wholeIsElsewhere bound next (method, packedSize, start)

/-- One record of the directory, and where the next one begins. -/
def readListing? (bytes : ByteArray) (shift place : Nat) : Option (Listing × Nat) := do
  let mark ← numberAt? bytes place 4
  if mark ≠ centralMark then none
  let flags ← numberAt? bytes (place + 8) 2
  let method ← numberAt? bytes (place + 10) 2
  let checksum ← numberAt? bytes (place + 16) 4
  let packedSize ← numberAt? bytes (place + 20) 4
  let wholeSize ← numberAt? bytes (place + 24) 4
  let nameLength ← numberAt? bytes (place + 28) 2
  let extraLength ← numberAt? bytes (place + 30) 2
  let commentLength ← numberAt? bytes (place + 32) 2
  let start ← numberAt? bytes (place + 42) 4
  let name ← slice? bytes (place + 46) nameLength
  let extra ← slice? bytes (place + 46 + nameLength) extraLength
  let _ ← slice? bytes (place + 46 + nameLength + extraLength) commentLength
  let (method, packedSize, start) ← readExtra (wholeSize == elsewhere) (extraLength + 1)
    extra.data.toList (method, packedSize, start)
  let listing : Listing := {
    name := decodeName (flags / Nat.pow 2 11 % 2 == 1) name
    flags, method, checksum, packedSize
    start := start + shift }
  pure (listing, place + 46 + nameLength + extraLength + commentLength)

/-- Some records of the directory, from a place on. -/
def readListings? (bytes : ByteArray) (shift : Nat) : Nat → Nat → Option (List Listing)
  | 0, _ => some []
  | count + 1, place => do
    let (listing, next) ← readListing? bytes shift place
    let rest ← readListings? bytes shift count next
    pure (listing :: rest)

/-! ## Part 4 — data -/

/-- The size of the pieces in which unpacked data is written. -/
def pieceSize : Nat := 8192

/-- Data with the fault that it does not fit its checksum, if it does not. -/
def checked (listing : Listing) (data : ByteArray) : Member :=
  ⟨listing.name, data,
    if (checksum data).toNat = listing.checksum then none else some .badChecksum⟩

/-- The entry that packed data unpacks to; of corrupt data, the whole pieces before the fault. -/
def unpacked (listing : Listing) (packed : ByteArray) : Member :=
  if listing.method = 0 then checked listing packed
  else match inflate packed with
    | (data, some .corrupt) =>
      ⟨listing.name, data.extract 0 (data.size / pieceSize * pieceSize), some .badStream⟩
    | (data, _) => checked listing data

/-- **The entry of a record**, if it can be opened. -/
def openMember? (bytes : ByteArray) (listing : Listing) : Option Member := do
  if listing.flags % 2 = 1 || (listing.method ≠ 0 && listing.method ≠ 8) then none
  let mark ← numberAt? bytes listing.start 4
  if mark ≠ localMark then none
  let nameLength ← numberAt? bytes (listing.start + 26) 2
  let extraLength ← numberAt? bytes (listing.start + 28) 2
  let start := listing.start + 30 + nameLength + extraLength
  pure (unpacked listing (bytes.extract start (start + listing.packedSize)))

/-- **The entries of an archive** in order, if it and all of them can be opened. -/
def members? (bytes : ByteArray) : Option (List Member) := do
  let directory ← directory? bytes
  let listings ← readListings? bytes directory.shift directory.count directory.start
  listings.mapM (openMember? bytes)

end ShaderForge.Zip
