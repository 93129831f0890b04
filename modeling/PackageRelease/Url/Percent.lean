import PackageRelease.Text.Basic
import PackageRelease.Text.Utf8

/-! # Percent encoding

  A character that may not stand in a part of an address is written as the octets of its UTF-8 form,
  each as a percent sign and two capital hexadecimal digits. Control characters and all characters
  beyond ASCII are always written so; each part of an address reserves some more.
-/

namespace PackageRelease.Percent

/-! ### Encoding -/

/-- The code of an octet. -/
def octet (b : UInt8) : List Char :=
  ['%', Text.hexDigitUpper (b.toNat / 16), Text.hexDigitUpper (b.toNat % 16)]

/-- Whether a character is encoded in every part. -/
def isAlwaysEncoded (c : Char) : Bool := c.toNat < 0x20 || 0x7F ≤ c.toNat

/-- A character in a part that reserves `reserved`. -/
def encodeChar (reserved : Char → Bool) (c : Char) : List Char :=
  if isAlwaysEncoded c || reserved c then (Text.encode (String.singleton c)).flatMap octet else [c]

/-- Characters in a part that reserves `reserved`. -/
def encode (reserved : Char → Bool) (cs : List Char) : List Char :=
  cs.flatMap (encodeChar reserved)

/-- The characters that a fragment reserves. -/
def inFragment (c : Char) : Bool := [' ', '"', '<', '>', '`'].contains c

/-- The characters that a path reserves. -/
def inPath (c : Char) : Bool := inFragment c || ['#', '?', '{', '}'].contains c

/-- The characters that a user name or password reserves. -/
def inUserInfo (c : Char) : Bool :=
  inPath c || ['/', ':', ';', '=', '@', '[', '\\', ']', '^', '|'].contains c

/-- The characters that a query reserves. -/
def inQuery (c : Char) : Bool := [' ', '"', '#', '<', '>', '\''].contains c

/-! ### Decoding -/

/-- The octets that characters denote. A percent sign without two digits stands for itself. -/
def decode : List Char → Bytes
  | '%' :: a :: b :: rest =>
    match Text.hexValue? a, Text.hexValue? b with
    | some high, some low => UInt8.ofNat (16 * high + low) :: decode rest
    | _, _ => 0x25 :: decode (a :: b :: rest)
  | c :: rest => Text.encode (String.singleton c) ++ decode rest
  | [] => []
termination_by cs => cs.length

end PackageRelease.Percent
