import ContentTree.Bytes

/-!
# CRC-32

The cyclic redundancy check with the reflected IEEE polynomial, bit by bit: the remainder starts as
all ones, takes in each octet at its low end, and is complemented at the end.
-/

namespace ContentTree.Crc32

/-- The reflected IEEE polynomial. -/
def polynomial : UInt32 := 0xEDB88320

/-- One bit: shift to the right, and subtract the polynomial if the bit shifted out was set. -/
def shift (c : UInt32) : UInt32 :=
  if c &&& 1 = 1 then (c >>> 1) ^^^ polynomial else c >>> 1

/-- One octet taken into the remainder. -/
def update (c : UInt32) (octet : UInt8) : UInt32 :=
  shift (shift (shift (shift (shift (shift (shift (shift (c ^^^ octet.toUInt32))))))))

/-- The checksum of a byte string. -/
def checksum (bytes : Bytes) : UInt32 :=
  ~~~(bytes.foldl update 0xFFFFFFFF)

/-- The checksum of no octets. -/
@[simp] theorem checksum_nil : checksum [] = 0 := rfl

end ContentTree.Crc32
