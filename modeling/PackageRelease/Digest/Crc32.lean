import PackageRelease.Text.Utf8

/-! # CRC-32

  The remainder of the message as a polynomial over two elements, in reflected bit order, with all
  bits inverted before and after.
-/

namespace PackageRelease.Crc32

/-- The reflected polynomial. -/
def polynomial : UInt32 := 0xEDB88320

/-- One bit of division. -/
def shift (r : UInt32) : UInt32 := if r &&& 1 = 1 then r >>> 1 ^^^ polynomial else r >>> 1

/-- The remainder after one more octet. -/
def absorb (r : UInt32) (b : UInt8) : UInt32 :=
  let r := r ^^^ b.toUInt32
  shift (shift (shift (shift (shift (shift (shift (shift r)))))))

/-- The checksum of a message. -/
def checksum (message : Bytes) : UInt32 := ~~~message.foldl absorb 0xFFFFFFFF

end PackageRelease.Crc32
