/-
**Archives that are read back.**

Whoever reads an archive looks for the end record, follows it to the directory, and follows each
record of the directory to its entry. Within the limits of the format (`Zip.Fits`) each of these
finds what was written there, so an archive holds exactly the entries that it was written with, in
order, and none of them is damaged (`Zip.Fits.members?_write`).

All places are spoken of in one way: `Holds bytes place part` says that some bytes stand in an
archive at a place. It is inherited by parts of a record, and gives the numbers of a row of fields
(`Holds.field`) and the bytes between two places (`Holds.extract`).
-/

import Mathlib.Algebra.Group.Nat.Defs
import ShaderForge.Proofs.DecodedNames
import ShaderForge.Proofs.RefusedArchives

namespace ShaderForge.Zip

variable {bytes : ByteArray} {place start : Nat} {part rest : List UInt8}

/-! ## Part 1 — numbers as bytes -/

theorem length_numberBytes (width value : Nat) : (numberBytes width value).length = width := by
  induction width generalizing value with
  | zero => rfl
  | succ width ih => rw [numberBytes, List.length_cons, ih]

/-- **A number is read back from its bytes**, if there are enough of them. -/
theorem numberOf_numberBytes {width value : Nat} (fits : value < 256 ^ width) :
    numberOf (numberBytes width value) = value := by
  induction width generalizing value with
  | zero =>
    rw [Nat.pow_zero, Nat.lt_one_iff] at fits
    rw [fits]
    rfl
  | succ width ih =>
    have later : value / 256 < 256 ^ width := by
      rw [Nat.div_lt_iff_lt_mul (by decide), ← Nat.pow_succ]
      exact fits
    rw [numberBytes, numberOf, ih later, Text.toNat_byte (Nat.mod_lt _ (by decide))]
    exact Nat.mod_add_div value 256

/-- Numbers with their widths, as bytes. -/
def fieldBytes (fields : List (Nat × Nat)) : List UInt8 :=
  fields.flatMap fun field => numberBytes field.1 field.2

/-- The field that begins at an offset in a row. -/
def fieldAt? : Nat → List (Nat × Nat) → Option (Nat × Nat)
  | _, [] => none
  | offset, field :: rest =>
    if offset = 0 then some field
    else if offset < field.1 then none else fieldAt? (offset - field.1) rest

/-! ## Part 2 — what stands at a place -/

/-- **Some bytes stand at a place.** -/
def Holds (bytes : ByteArray) (place : Nat) (part : List UInt8) : Prop :=
  ∃ before after, bytes.data.toList = before ++ part ++ after ∧ before.length = place

namespace Holds

theorem left (holds : Holds bytes place (part ++ rest)) : Holds bytes place part := by
  obtain ⟨before, after, shape, long⟩ := holds
  exact ⟨before, rest ++ after, by simp only [shape, List.append_assoc], long⟩

theorem right (holds : Holds bytes place (part ++ rest)) :
    Holds bytes (place + part.length) rest := by
  obtain ⟨before, after, shape, long⟩ := holds
  exact ⟨before ++ part, after, by simp only [shape, List.append_assoc],
    by rw [List.length_append, long]⟩

theorem bound (holds : Holds bytes place part) : place + part.length ≤ bytes.size := by
  obtain ⟨before, after, shape, long⟩ := holds
  rw [← ByteArray.size_data, ← Array.length_toList, shape, List.length_append, List.length_append,
    long]
  exact Nat.le_add_right _ _

/-- **The bytes between two places.** -/
theorem extract (holds : Holds bytes place part) :
    bytes.extract place (place + part.length) = ⟨part.toArray⟩ := by
  obtain ⟨before, after, shape, long⟩ := holds
  have cut : (bytes.extract place (place + part.length)).data.toList = part := by
    rw [ByteArray.data_extract, Array.toList_extract, shape, List.extract_eq_take_drop,
      Nat.add_sub_cancel_left, List.append_assoc, ← long, List.drop_left, List.take_left]
  rw [ByteArray.ext_iff, ← Array.toList_inj, cut, List.toList_toArray]

theorem slice (holds : Holds bytes place part) :
    slice? bytes place part.length = some ⟨part.toArray⟩ := by
  rw [slice?, if_pos holds.bound, holds.extract]

/-- **A number at a place.** -/
theorem number {width value : Nat} (holds : Holds bytes place (numberBytes width value))
    (fits : value < 256 ^ width) : numberAt? bytes place width = some value := by
  have cut := holds.slice
  rw [length_numberBytes] at cut
  rw [numberAt?, cut, Option.map_some, List.toList_toArray, numberOf_numberBytes fits]

/-- **A number in a row of fields.** -/
theorem field {fields : List (Nat × Nat)} (holds : Holds bytes place (fieldBytes fields))
    (offset : Nat) {width value : Nat} (there : fieldAt? offset fields = some (width, value))
    (fits : value < 256 ^ width) : numberAt? bytes (place + offset) width = some value := by
  induction fields generalizing place offset with
  | nil => cases there
  | cons first fields ih =>
    rw [fieldBytes, List.flatMap_cons] at holds
    rw [fieldAt?] at there
    by_cases here : offset = 0
    · rw [if_pos here] at there
      cases there
      rw [here]
      exact holds.left.number fits
    · rw [if_neg here] at there
      by_cases within : offset < first.1
      · rw [if_pos within] at there
        cases there
      · rw [if_neg within] at there
        have later := ih holds.right _ there
        rwa [length_numberBytes, Nat.add_assoc, Nat.add_sub_cancel' (Nat.le_of_not_lt within)]
          at later

end Holds

/-! ## Part 3 — the records -/

/-- The fields that header and directory record of an entry share. -/
def sharedFields (name : String) (data : ByteArray) : List (Nat × Nat) :=
  [(2, nameFlags name), (2, 0), (4, 0x00210000), (4, (checksum data).toNat), (4, data.size),
    (4, data.size), (2, name.utf8ByteSize), (2, 0)]

/-- The fields of an entry's header. -/
def localFields (name : String) (data : ByteArray) : List (Nat × Nat) :=
  [(4, localMark), (2, 20)] ++ sharedFields name data

/-- The fields of the directory's record of an entry. -/
def centralFields (name : String) (data : ByteArray) (place : Nat) : List (Nat × Nat) :=
  [(4, centralMark), (2, 0x0314), (2, 20)] ++ sharedFields name data ++
    [(2, 0), (2, 0), (2, 0), (4, 0x81A40000), (4, place)]

/-- The fields of the end record. -/
def endFields (count size place : Nat) : List (Nat × Nat) :=
  [(4, endMark), (2, 0), (2, 0), (2, count), (2, count), (4, size), (4, place), (2, 0)]

theorem length_localFields (name : String) (data : ByteArray) :
    (fieldBytes (localFields name data)).length = 30 := by
  simp only [fieldBytes, localFields, sharedFields, List.cons_append, List.nil_append,
    List.flatMap_cons, List.flatMap_nil, List.length_append, List.length_nil, length_numberBytes]

theorem length_centralFields (name : String) (data : ByteArray) (place : Nat) :
    (fieldBytes (centralFields name data place)).length = 46 := by
  simp only [fieldBytes, centralFields, sharedFields, List.cons_append, List.nil_append,
    List.flatMap_cons, List.flatMap_nil, List.length_append, List.length_nil, length_numberBytes]

theorem length_endFields (count size place : Nat) :
    (fieldBytes (endFields count size place)).length = 22 := by
  simp only [fieldBytes, endFields, List.flatMap_cons, List.flatMap_nil, List.length_append,
    List.length_nil, length_numberBytes]

theorem commonFields_eq (name : String) (data : ByteArray) :
    commonFields name data = fieldBytes (sharedFields name data) := by
  simp only [commonFields, fieldBytes, sharedFields, List.flatMap_cons, List.flatMap_nil,
    List.append_nil, List.append_assoc]

theorem toList_localRecord (name : String) (data : ByteArray) :
    (localRecord name data).data.toList =
      fieldBytes (localFields name data) ++ (name.toUTF8.data.toList ++ data.data.toList) := by
  rw [localRecord, ByteArray.toList_data_append, ByteArray.toList_data_append, commonFields_eq]
  simp only [fieldBytes, localFields, List.flatMap_cons, List.cons_append, List.nil_append,
    List.append_assoc]

theorem toList_centralRecord (name : String) (data : ByteArray) (place : Nat) :
    (centralRecord name data place).data.toList =
      fieldBytes (centralFields name data place) ++ name.toUTF8.data.toList := by
  have mode : 0o100644 * Nat.pow 2 16 = 0x81A40000 := by decide
  rw [centralRecord, ByteArray.toList_data_append, commonFields_eq, mode]
  simp only [fieldBytes, centralFields, List.flatMap_cons, List.flatMap_nil, List.flatMap_append,
    List.cons_append, List.nil_append, List.append_nil, List.append_assoc]

theorem toList_endRecord (count size place : Nat) :
    (endRecord count size place).data.toList = fieldBytes (endFields count size place) := by
  simp only [endRecord, fieldBytes, endFields, List.flatMap_cons, List.flatMap_nil,
    List.append_nil, List.append_assoc]

/-- The number of bytes of a text. -/
theorem length_toUTF8 (text : String) : text.toUTF8.data.toList.length = text.utf8ByteSize := by
  rw [Array.length_toList]
  rfl

/-- What the directory says about an entry that begins at a place. -/
def listingOf (name : String) (data : ByteArray) (place : Nat) : Listing where
  name := name
  flags := nameFlags name
  method := 0
  checksum := (checksum data).toNat
  packedSize := data.size
  start := place

theorem nameFlags_cases (name : String) : nameFlags name = 0 ∨ nameFlags name = 2048 := by
  unfold nameFlags
  split
  · exact .inl rfl
  · exact .inr rfl

/-- **A record of the directory is read back.** -/
theorem readListing?_holds {name : String} {data : ByteArray}
    (holds : Holds bytes place (centralRecord name data start).data.toList)
    (short : name.utf8ByteSize < 2 ^ 16) (small : data.size < 2 ^ 32) (near : start < 2 ^ 32) :
    readListing? bytes 0 place = some (listingOf name data start,
      place + (centralRecord name data start).data.toList.length) := by
  rw [toList_centralRecord] at holds ⊢
  have row := holds.left
  have flagged : nameFlags name < 256 ^ 2 := by
    rcases nameFlags_cases name with none | utf8 <;> omega
  have mark : numberAt? bytes place 4 = some centralMark := row.field 0 rfl (by decide)
  have flags : numberAt? bytes (place + 8) 2 = some (nameFlags name) := row.field 8 rfl flagged
  have method : numberAt? bytes (place + 10) 2 = some 0 := row.field 10 rfl (by decide)
  have sum : numberAt? bytes (place + 16) 4 = some (checksum data).toNat :=
    row.field 16 rfl (checksum data).toNat_lt
  have packed : numberAt? bytes (place + 20) 4 = some data.size := row.field 20 rfl small
  have whole : numberAt? bytes (place + 24) 4 = some data.size := row.field 24 rfl small
  have named : numberAt? bytes (place + 28) 2 = some name.utf8ByteSize := row.field 28 rfl short
  have extra : numberAt? bytes (place + 30) 2 = some 0 := row.field 30 rfl (by decide)
  have comment : numberAt? bytes (place + 32) 2 = some 0 := row.field 32 rfl (by decide)
  have begins : numberAt? bytes (place + 42) 4 = some start := row.field 42 rfl near
  have after : Holds bytes (place + 46) name.toUTF8.data.toList := by
    have later := holds.right
    rwa [length_centralFields] at later
  have spelled : slice? bytes (place + 46) name.utf8ByteSize = some name.toUTF8 := by
    rw [← length_toUTF8, after.slice, Array.toArray_toList]
  have nothing : slice? bytes (place + 46 + name.utf8ByteSize) 0 = some ⟨#[]⟩ := by
    rw [← List.append_nil name.toUTF8.data.toList] at after
    rw [← length_toUTF8]
    exact after.right.slice
  have kept : readExtra (data.size == elsewhere) 1 [] (0, data.size, start) =
      some (0, data.size, start) := rfl
  rw [readListing?, List.length_append, length_centralFields, length_toUTF8, ← Nat.add_assoc]
  simp only [mark, flags, method, sum, packed, whole, named, extra, comment, begins, spelled,
    nothing, kept, Option.bind_eq_bind, Option.bind_some, decodeName_toUTF8, ne_eq,
    not_true_eq_false, if_false, Nat.add_zero]
  rfl

/-- An entry that is neither encrypted nor packed is opened, if its header is there. -/
theorem openMember?_stored {listing : Listing} {nameLength extraLength : Nat}
    (unencrypted : listing.flags % 2 = 0) (stored : listing.method = 0)
    (mark : numberAt? bytes listing.start 4 = some localMark)
    (named : numberAt? bytes (listing.start + 26) 2 = some nameLength)
    (extra : numberAt? bytes (listing.start + 28) 2 = some extraLength) :
    openMember? bytes listing =
      some (checked listing (bytes.extract (listing.start + 30 + nameLength + extraLength)
        (listing.start + 30 + nameLength + extraLength + listing.packedSize))) := by
  have openable : ¬ (listing.flags % 2 = 1 ∨ listing.method ≠ 0 ∧ listing.method ≠ 8) := by omega
  rw [openMember?_eq, if_neg openable, if_neg (not_not.mpr mark), named, extra, Option.bind_some,
    Option.bind_some]
  dsimp only
  rw [unpacked, if_pos stored]

/-- **An entry is opened** where its record says that it is, and is not damaged. -/
theorem openMember?_holds {name : String} {data : ByteArray}
    (holds : Holds bytes place (localRecord name data).data.toList)
    (short : name.utf8ByteSize < 2 ^ 16) :
    openMember? bytes (listingOf name data place) = some ⟨name, data, none⟩ := by
  rw [toList_localRecord] at holds
  have row := holds.left
  have unencrypted : nameFlags name % 2 = 0 := by
    rcases nameFlags_cases name with plain | utf8 <;> omega
  have content : bytes.extract (place + 30 + name.utf8ByteSize)
      (place + 30 + name.utf8ByteSize + data.size) = data := by
    have after := holds.right.right.extract
    rw [length_localFields, length_toUTF8, Array.length_toList, Array.toArray_toList] at after
    exact after
  have mark : numberAt? bytes place 4 = some localMark := row.field 0 rfl (by decide)
  have named : numberAt? bytes (place + 26) 2 = some name.utf8ByteSize := row.field 26 rfl short
  have extra : numberAt? bytes (place + 28) 2 = some 0 := row.field 28 rfl (by decide)
  have begins : (listingOf name data place).start = place := rfl
  have long : (listingOf name data place).packedSize = data.size := rfl
  have sound : checked (listingOf name data place) data = ⟨name, data, none⟩ :=
    congrArg (Member.mk name data) (if_pos rfl)
  rw [@openMember?_stored bytes (listingOf name data place) _ _ unencrypted rfl mark named extra,
    begins, long, Nat.add_zero, content, sound]

/-! ## Part 4 — all records -/

/-- What the directory says about entries of which the first begins at a place. -/
def listingsOf : Nat → List (String × ByteArray) → List Listing
  | _, [] => []
  | place, (name, data) :: rest =>
    listingOf name data place :: listingsOf (place + (localRecord name data).size) rest

/-- An entry as a reader gets it: undamaged. -/
def asMember (entry : String × ByteArray) : Member := ⟨entry.1, entry.2, none⟩

variable {entries : List (String × ByteArray)}

/-- **The directory is read back**, record by record. -/
theorem readListings?_holds (short : ∀ entry ∈ entries, entry.1.utf8ByteSize < 2 ^ 16)
    (near : start + (writeFrom start entries).1.size < 2 ^ 32)
    (holds : Holds bytes place (writeFrom start entries).2.data.toList) :
    readListings? bytes 0 entries.length place = some (listingsOf start entries) := by
  induction entries generalizing start place with
  | nil => rfl
  | cons entry rest ih =>
    obtain ⟨name, data⟩ := entry
    obtain ⟨first, others⟩ := List.forall_mem_cons.mp short
    have shape : writeFrom start ((name, data) :: rest) =
      (localRecord name data ++ (writeFrom (start + (localRecord name data).size) rest).1,
        centralRecord name data start ++
          (writeFrom (start + (localRecord name data).size) rest).2) := rfl
    rw [shape] at near holds
    rw [ByteArray.size_append, ← Nat.add_assoc] at near
    rw [ByteArray.toList_data_append] at holds
    have small : data.size ≤ (localRecord name data).size := by
      rw [localRecord, ByteArray.size_append]
      exact Nat.le_add_left _ _
    have listing := readListing?_holds holds.left first (by omega) (by omega)
    rw [List.length_cons, readListings?, listing, Option.bind_eq_bind, Option.bind_some]
    dsimp only
    rw [ih others near holds.right]
    rfl

/-- **The entries are opened**, one by one. -/
theorem openMember?_each (short : ∀ entry ∈ entries, entry.1.utf8ByteSize < 2 ^ 16)
    (holds : Holds bytes place (writeFrom place entries).1.data.toList) :
    List.Forall₂ (fun listing member => openMember? bytes listing = some member)
      (listingsOf place entries) (entries.map asMember) := by
  induction entries generalizing place with
  | nil => exact .nil
  | cons entry rest ih =>
    obtain ⟨name, data⟩ := entry
    obtain ⟨first, others⟩ := List.forall_mem_cons.mp short
    have shape : (writeFrom place ((name, data) :: rest)).1 =
      localRecord name data ++ (writeFrom (place + (localRecord name data).size) rest).1 := rfl
    rw [shape, ByteArray.toList_data_append] at holds
    refine .cons (openMember?_holds holds.left first) (ih others ?_)
    have later := holds.right
    rwa [Array.length_toList, ByteArray.size_data] at later

/-! ## Part 5 — the whole archive -/

/-- The three parts of an archive, each at its place. -/
theorem holds_write (entries : List (String × ByteArray)) :
    Holds (write entries) 0 (writeFrom 0 entries).1.data.toList ∧
      Holds (write entries) (writeFrom 0 entries).1.size (writeFrom 0 entries).2.data.toList ∧
      Holds (write entries) ((writeFrom 0 entries).1.size + (writeFrom 0 entries).2.size)
        (fieldBytes (endFields entries.length (writeFrom 0 entries).2.size
          (writeFrom 0 entries).1.size)) := by
  have whole : Holds (write entries) 0 ((writeFrom 0 entries).1.data.toList ++
      ((writeFrom 0 entries).2.data.toList ++ fieldBytes (endFields entries.length
        (writeFrom 0 entries).2.size (writeFrom 0 entries).1.size))) := by
    refine ⟨[], [], ?_, rfl⟩
    rw [write, ByteArray.toList_data_append, ByteArray.toList_data_append, toList_endRecord,
      List.nil_append, List.append_nil, List.append_assoc]
  refine ⟨whole.left, ?_, ?_⟩
  · have second := whole.right.left
    rwa [Nat.zero_add, Array.length_toList, ByteArray.size_data] at second
  · have third := whole.right.right
    rwa [Nat.zero_add, Array.length_toList, Array.length_toList, ByteArray.size_data,
      ByteArray.size_data] at third

theorem size_write (entries : List (String × ByteArray)) :
    (write entries).size = (writeFrom 0 entries).1.size + (writeFrom 0 entries).2.size + 22 := by
  rw [write, ByteArray.size_append, ByteArray.size_append]
  rfl

/-- **The limits of the format**: how long names may be, how many entries there may be, how large
the archive; and what stands before the end record is not taken for the locator of a large
archive. -/
structure Fits (entries : List (String × ByteArray)) : Prop where
  names : ∀ entry ∈ entries, entry.1.utf8ByteSize < 2 ^ 16
  count : entries.length < 2 ^ 16
  size : (write entries).size < 2 ^ 32
  plain : numberAt? (write entries) ((write entries).size - 42) 4 ≠ some locatorMark

/-- **The directory is found** through the end record. -/
theorem Fits.directory?_write (fits : Fits entries) :
    directory? (write entries) = some ⟨0, (writeFrom 0 entries).1.size, entries.length⟩ := by
  obtain ⟨-, -, holds⟩ := holds_write entries
  have long := size_write entries
  have small := fits.size
  have locator := fits.plain
  revert holds long small locator
  generalize (writeFrom 0 entries).1.size = records, (writeFrom 0 entries).2.size = size
  generalize write entries = bytes
  intro holds long small locator
  have mark : numberAt? bytes (records + size) 4 = some endMark := holds.field 0 rfl (by decide)
  have disk : numberAt? bytes (records + size + 4) 2 = some 0 := holds.field 4 rfl (by decide)
  have first : numberAt? bytes (records + size + 6) 2 = some 0 := holds.field 6 rfl (by decide)
  have count : numberAt? bytes (records + size + 8) 2 = some entries.length :=
    holds.field 8 rfl fits.count
  have all : numberAt? bytes (records + size + 10) 2 = some entries.length :=
    holds.field 10 rfl fits.count
  have sized : numberAt? bytes (records + size + 12) 4 = some size := holds.field 12 rfl (by omega)
  have begins : numberAt? bytes (records + size + 16) 4 = some records :=
    holds.field 16 rfl (by omega)
  have comment : numberAt? bytes (records + size + 20) 2 = some 0 := holds.field 20 rfl (by decide)
  have nothing : slice? bytes (records + size + 22) 0 = some ⟨#[]⟩ := by
    rw [← List.append_nil (fieldBytes _)] at holds
    have after := holds.right.slice
    rwa [length_endFields] at after
  have found : findEnd? bytes = some (records + size) := by
    have last : bytes.size - 22 = records + size := by omega
    rw [findEnd?, if_neg (by omega), last]
    exact if_pos mark
  have plainly : plainDirectory? bytes (records + size) = some ⟨0, records, entries.length⟩ := by
    rw [plainDirectory?]
    simp only [count, sized, begins, Option.bind_eq_bind, Option.bind_some]
    rw [if_neg (by omega)]
    congr 2 <;> omega
  rw [directory?]
  simp only [found, disk, first, comment, nothing, count, all, sized, begins, plainly, locator,
    Option.bind_eq_bind, Option.bind_some, ne_eq, not_true_eq_false, Nat.add_zero, Nat.sub_zero,
    if_false, ite_self, decide_false, Bool.and_false, Bool.false_eq_true]

/-- **An archive is read back as it was written**, within the limits of the format: the same
entries in the same order, none of them damaged. -/
theorem Fits.members?_write (fits : Fits entries) :
    members? (write entries) = some (entries.map asMember) := by
  obtain ⟨records, directory, -⟩ := holds_write entries
  have near : 0 + (writeFrom 0 entries).1.size < 2 ^ 32 := by
    have small := fits.size
    rw [size_write] at small
    omega
  have listed : listings? (write entries) = some (listingsOf 0 entries) := by
    rw [listings?, fits.directory?_write]
    exact readListings?_holds fits.names near directory
  rw [members?_eq, listed, Option.bind_some]
  exact mapM_eq_some_iff.mpr (openMember?_each fits.names records)

/-- A name that ends the directory like the locator of a large archive is out of bounds. -/
example : members? (write [("PK\x06\x07eleven-more.vert", .empty)]) = none := by decide +kernel

end ShaderForge.Zip
