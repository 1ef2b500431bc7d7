/-
**Checksums.**

The checksum of an entry is the 32-bit cyclic redundancy check: the remainder of its bits, read as a
polynomial, with all bits flipped before and after.

* `checksum`: the checksum of bytes.
-/

namespace ShaderForge.Zip

/-- The remainder after one bit. -/
def checksumBit (remainder : UInt32) : UInt32 :=
  if remainder &&& 1 = 1 then (remainder >>> 1) ^^^ 0xEDB88320 else remainder >>> 1

/-- The remainder after one byte. -/
def checksumByte (remainder : UInt32) (byte : UInt8) : UInt32 :=
  Nat.repeat checksumBit 8 (remainder ^^^ byte.toUInt32)

/-- **The checksum of bytes.** -/
def checksum (bytes : ByteArray) : UInt32 :=
  (bytes.data.foldl checksumByte 0xFFFFFFFF) ^^^ 0xFFFFFFFF

end ShaderForge.Zip
