/-
**Writing archives.**

Entries are written as they are, without packing: a header and the data for each, then the
directory, then the end record. All entries have the same date, so that an archive depends on
nothing but its entries.

Numbers are written with as many bytes as the plain format has for them: two for the number of
entries and the length of a name, four for sizes and places. The records of large archives, which
begin at 2^16 entries or 4 GiB, are left out.

* `write`: the bytes of an archive with given entries.
-/

import ShaderForge.Zip.Checksum
import ShaderForge.Zip.Record

namespace ShaderForge.Zip

/-- Flags of an entry: bit 11 says that the name is UTF-8. -/
def nameFlags (name : String) : Nat :=
  if name.toList.all fun c => c.toNat < 0x80 then 0 else Nat.pow 2 11

/-- What header and directory record of an entry share: flags, method, date, checksum, sizes and the
lengths of the name and of no extra field. -/
def commonFields (name : String) (data : ByteArray) : List UInt8 :=
  numberBytes 2 (nameFlags name) ++ numberBytes 2 0 ++ numberBytes 4 0x00210000
    ++ numberBytes 4 (checksum data).toNat ++ numberBytes 4 data.size ++ numberBytes 4 data.size
    ++ numberBytes 2 name.utf8ByteSize ++ numberBytes 2 0

/-- An entry: its header, its name, its data. -/
def localRecord (name : String) (data : ByteArray) : ByteArray :=
  ⟨(numberBytes 4 localMark ++ numberBytes 2 20 ++ commonFields name data).toArray⟩
    ++ name.toUTF8 ++ data

/-- The directory's record of an entry that begins at a place. -/
def centralRecord (name : String) (data : ByteArray) (place : Nat) : ByteArray :=
  ⟨(numberBytes 4 centralMark ++ numberBytes 2 0x0314 ++ numberBytes 2 20 ++ commonFields name data
    ++ numberBytes 2 0 ++ numberBytes 2 0 ++ numberBytes 2 0
    ++ numberBytes 4 (0o100644 * Nat.pow 2 16) ++ numberBytes 4 place).toArray⟩ ++ name.toUTF8

/-- Entries and directory of an archive, the entries from a place on. -/
def writeFrom (place : Nat) : List (String × ByteArray) → ByteArray × ByteArray
  | [] => (ByteArray.empty, ByteArray.empty)
  | (name, data) :: rest =>
    let record := localRecord name data
    let (records, directory) := writeFrom (place + record.size) rest
    (record ++ records, centralRecord name data place ++ directory)

/-- The end record of an archive. -/
def endRecord (count size place : Nat) : ByteArray :=
  ⟨(numberBytes 4 endMark ++ numberBytes 2 0 ++ numberBytes 2 0 ++ numberBytes 2 count
    ++ numberBytes 2 count ++ numberBytes 4 size ++ numberBytes 4 place ++ numberBytes 2 0).toArray⟩

/-- **The bytes of an archive** with given entries. -/
def write (entries : List (String × ByteArray)) : ByteArray :=
  let (records, directory) := writeFrom 0 entries
  records ++ directory ++ endRecord entries.length directory.size records.size

end ShaderForge.Zip
