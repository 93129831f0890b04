import PackageRelease.Text.Utf8
import PackageRelease.Text.Basic

/-! # Octets in hexadecimal

  Each octet is two small hexadecimal digits.
-/

namespace PackageRelease.Hex

/-- The two digits of an octet. -/
def encodeOctet (b : UInt8) : List Char :=
  [Text.hexDigit (b.toNat / 16), Text.hexDigit (b.toNat % 16)]

/-- The digits of octets. -/
def encode (bytes : Bytes) : String := String.ofList (bytes.flatMap encodeOctet)

/-- The octets that pairs of digits denote. -/
def decodeChars? : List Char → Option Bytes
  | [] => some []
  | [_] => none
  | a :: b :: rest => do
    let high ← Text.hexValue? a
    let low ← Text.hexValue? b
    return UInt8.ofNat (16 * high + low) :: (← decodeChars? rest)

/-- The octets that a text of digits denotes. -/
def decode? (s : String) : Option Bytes := decodeChars? s.toList

end PackageRelease.Hex
