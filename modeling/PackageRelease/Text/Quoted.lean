import PackageRelease.Text.Basic
import PackageRelease.Text.Unprintable

/-! # Quoted text in diagnostics

  A message that cites a text or a character puts it in quotes. Inside, the enclosing quote, the
  backslash and the usual control characters have short escapes, and a character that would not
  be seen is written as its code point in hexadecimal.
-/

namespace PackageRelease.Text

/-- A number in small hexadecimal digits, without zeros in front. -/
def hexadecimal (n : Nat) : String := String.ofList (Nat.toDigits 16 n)

/-- One character between quotes of the kind `quote`. -/
def quotedChar (quote c : Char) : List Char :=
  match c with
  | '\x00' => ['\\', '0']
  | '\t' => ['\\', 't']
  | '\r' => ['\\', 'r']
  | '\n' => ['\\', 'n']
  | '\\' => ['\\', '\\']
  | c =>
    if c = quote then ['\\', c]
    else if isUnprintable c then
      ['\\', 'u', '{'] ++ Nat.toDigits 16 c.toNat ++ ['}']
    else [c]

/-- A text in double quotes. -/
def quoted (s : String) : String :=
  String.ofList ('"' :: s.toList.flatMap (quotedChar '"') ++ ['"'])

/-- A character in single quotes. -/
def quotedOne (c : Char) : String :=
  String.ofList ('\'' :: quotedChar '\'' c ++ ['\''])

end PackageRelease.Text
