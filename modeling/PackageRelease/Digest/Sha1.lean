import PackageRelease.Digest.Block

/-! # SHA-1

  Each block of sixteen words is stretched to eighty, and eighty rounds mix them into five words of
  state. The digest has twenty octets.
-/

namespace PackageRelease.Sha1

/-- The five words of state. -/
structure State where
  a : UInt32
  b : UInt32
  c : UInt32
  d : UInt32
  e : UInt32
  deriving DecidableEq, Repr

/-- The state before the first block. -/
def start : State := ⟨0x67452301, 0xEFCDAB89, 0x98BADCFE, 0x10325476, 0xC3D2E1F0⟩

/-- A word turned left by `n` bits. -/
def rotate (n : UInt32) (w : UInt32) : UInt32 := w <<< n ||| w >>> (32 - n)

/-- The words of a block. -/
def words (block : Bytes) : List UInt32 :=
  (Digest.pieces 4 16 block).map fun word => UInt32.ofNat (Digest.ofBigEndian word)

/-- The first `count` words that a window of sixteen words grows into. -/
def schedule : Nat → List UInt32 → List UInt32
  | 0, _ => []
  | count + 1, window =>
    let next := rotate 1
      (window.getD 13 0 ^^^ window.getD 8 0 ^^^ window.getD 2 0 ^^^ window.getD 0 0)
    window.getD 0 0 :: schedule count (window.drop 1 ++ [next])

/-- The mixing function and the constant of a round. -/
def mix (round : Nat) (b c d : UInt32) : UInt32 × UInt32 :=
  if round < 20 then ((b &&& c) ||| (~~~b &&& d), 0x5A827999)
  else if round < 40 then (b ^^^ c ^^^ d, 0x6ED9EBA1)
  else if round < 60 then ((b &&& c) ||| (b &&& d) ||| (c &&& d), 0x8F1BBCDC)
  else (b ^^^ c ^^^ d, 0xCA62C1D6)

/-- One round with one word. -/
def step (s : State) (word : UInt32) (round : Nat) : State :=
  let (f, k) := mix round s.b s.c s.d
  ⟨rotate 5 s.a + f + s.e + k + word, s.a, rotate 30 s.b, s.c, s.d⟩

/-- The state after a block. -/
def absorb (s : State) (block : Bytes) : State :=
  let t := ((schedule 80 (words block)).zipIdx).foldl (fun s (word, round) => step s word round) s
  ⟨s.a + t.a, s.b + t.b, s.c + t.c, s.d + t.d, s.e + t.e⟩

/-- The digest of a message. -/
def digest (message : Bytes) : Bytes :=
  let s := (Digest.blocks 64 8 message).foldl absorb start
  [s.a, s.b, s.c, s.d, s.e].flatMap fun word => Digest.bigEndian 4 word.toNat

end PackageRelease.Sha1
