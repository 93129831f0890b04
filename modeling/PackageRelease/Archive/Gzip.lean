import PackageRelease.Digest.Crc32

/-! # Gzip files

  A file is a header of ten octets, a sequence of blocks, the checksum and the length. The blocks
  written here are stored ones: each holds up to 65535 octets as they are. Reading accepts exactly
  the files that consist of such blocks and whose checksum and length agree with the content. The
  format leaves open how a content is packed into blocks, so the octets of a file are those of one
  compressor among many; what every compressor has in common is what is read back.
-/

namespace PackageRelease.Gzip

/-- A number in `width` octets, the least significant first. -/
def littleEndian : (width n : Nat) → Bytes
  | 0, _ => []
  | width + 1, n => UInt8.ofNat (n % 256) :: littleEndian width (n / 256)

/-- The number that octets denote, the least significant first. -/
def ofLittleEndian : Bytes → Nat
  | [] => 0
  | b :: rest => b.toNat + 256 * ofLittleEndian rest

/-- The header: the magic number, the method, no flags, no time, no system. -/
def header : Bytes := [0x1F, 0x8B, 0x08, 0, 0, 0, 0, 0, 0, 0xFF]

/-- The greatest number of octets in a stored block. -/
def maxBlock : Nat := 65535

/-- One stored block. -/
def block (last : Bool) (content : Bytes) : Bytes :=
  (if last then 1 else 0) :: littleEndian 2 content.length ++
    littleEndian 2 (65535 - content.length) ++ content

/-- A content in `count` full blocks and a last one. -/
def blocks : (count : Nat) → Bytes → Bytes
  | 0, content => block true content
  | count + 1, content =>
    block false (content.take maxBlock) ++ blocks count (content.drop maxBlock)

/-- The checksum and the length at the end of a file. -/
def trailer (content : Bytes) : Bytes :=
  littleEndian 4 (Crc32.checksum content).toNat ++ littleEndian 4 content.length

/-- A content as a gzip file. -/
def compress (content : Bytes) : Bytes :=
  header ++ blocks ((content.length - 1) / maxBlock) content ++ trailer content

/-- Reads stored blocks: their content and what follows the last one. -/
def readBlocks? : (fuel : Nat) → Bytes → Option (Bytes × Bytes)
  | 0, _ => none
  | fuel + 1, flag :: l0 :: l1 :: n0 :: n1 :: rest => do
    let length := ofLittleEndian [l0, l1]
    guard (ofLittleEndian [n0, n1] = 65535 - length ∧ length ≤ rest.length)
    if flag = 1 then return (rest.take length, rest.drop length)
    guard (flag = 0)
    let (content, rest') ← readBlocks? fuel (rest.drop length)
    return (rest.take length ++ content, rest')
  | _ + 1, _ => none

/-- The content of a gzip file of stored blocks. -/
def decompress? (file : Bytes) : Option Bytes := do
  guard (file.take header.length = header)
  let (content, rest) ← readBlocks? file.length (file.drop header.length)
  guard (rest = trailer content)
  return content

end PackageRelease.Gzip
