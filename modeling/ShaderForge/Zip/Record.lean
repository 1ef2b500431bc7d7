/-
**The records of an archive.**

An archive is a row of entries, each with a header and its data, then a directory with one record
for each entry, then an end record that says where the directory is. Numbers are little-endian. This
module holds what reading and writing share: numbers in bytes, and the marks that records begin
with.

* `numberAt?`: the number at a place;
* `numberBytes`: a number as bytes.
-/

namespace ShaderForge.Zip

/-- The mark of an entry's header. -/
def localMark : Nat := 0x04034B50

/-- The mark of a record in the directory. -/
def centralMark : Nat := 0x02014B50

/-- The mark of the end record. -/
def endMark : Nat := 0x06054B50

/-- The mark of the large end record. -/
def largeEndMark : Nat := 0x06064B50

/-- The mark of the record that says where the large end record is. -/
def locatorMark : Nat := 0x07064B50

/-- The mark of the extra field for large entries. -/
def largeField : Nat := 0x0001

/-- The mark of the extra field for encrypted entries. -/
def encryptedField : Nat := 0x9901

/-- The value of a two-byte number that is given elsewhere. -/
def elsewhereShort : Nat := 0xFFFF

/-- The value of a four-byte number that is given elsewhere. -/
def elsewhere : Nat := 0xFFFFFFFF

/-- The number in some bytes, the lowest first. -/
def numberOf : List UInt8 → Nat
  | [] => 0
  | byte :: bytes => byte.toNat + 256 * numberOf bytes

/-- The bytes from a place on, if there are as many as wanted. -/
def slice? (bytes : ByteArray) (start length : Nat) : Option ByteArray :=
  if start + length ≤ bytes.size then some (bytes.extract start (start + length)) else none

/-- **The number at a place**, of a given number of bytes. -/
def numberAt? (bytes : ByteArray) (start width : Nat) : Option Nat :=
  (slice? bytes start width).map fun part => numberOf part.data.toList

/-- **A number as bytes**, the lowest first. -/
def numberBytes : Nat → Nat → List UInt8
  | 0, _ => []
  | width + 1, value => UInt8.ofNat (value % 256) :: numberBytes width (value / 256)

end ShaderForge.Zip
