import PackageRelease.Text.Utf8

/-! # Blocks of a message

  A digest works on blocks of equal size. The message is followed by the octet `0x80`, by as few
  zeros as fill the last block, and by its length in bits.
-/

namespace PackageRelease.Digest

/-- A number in `width` octets, the most significant first. -/
def bigEndian (width n : Nat) : Bytes :=
  match width with
  | 0 => []
  | width + 1 => UInt8.ofNat (n / Nat.pow 256 width) :: bigEndian width n

/-- The number that octets denote, the most significant first. -/
def ofBigEndian (bytes : Bytes) : Nat := bytes.foldl (fun n b => 256 * n + b.toNat) 0

/-- The first `count` pieces of `size` octets each. -/
def pieces (size : Nat) : Nat → Bytes → List Bytes
  | 0, _ => []
  | count + 1, bytes => bytes.take size :: pieces size count (bytes.drop size)

/-- A message with its padding; the length takes `lengthWidth` octets. -/
def padded (blockSize lengthWidth : Nat) (message : Bytes) : Bytes :=
  let used := message.length + 1 + lengthWidth
  let zeros := (blockSize - used % blockSize) % blockSize
  message ++ 0x80 :: List.replicate zeros 0 ++ bigEndian lengthWidth (8 * message.length)

/-- The padded message in blocks. -/
def blocks (blockSize lengthWidth : Nat) (message : Bytes) : List Bytes :=
  let bytes := padded blockSize lengthWidth message
  pieces blockSize (bytes.length / blockSize) bytes

end PackageRelease.Digest
