/-! # Text

  Characters and strings as the release tool sees them:

  - `isBlank` is the Unicode property `White_Space`; it decides what `trim` removes.
  - Letter case is folded for ASCII letters only.
  - Numbers are written in decimal without padding unless a width is asked for.

  Functions on `List Char` do the work, functions on `String` wrap them, so that a
  statement about a string is proved on its list of characters.
-/

namespace PackageRelease.Text

/-! ### Classes of characters -/

/-- The characters with the Unicode property `White_Space`. -/
def isBlank (c : Char) : Bool :=
  let n := c.toNat
  (0x09 ≤ n && n ≤ 0x0D) || n == 0x20 || n == 0x85 || n == 0xA0 || n == 0x1680 ||
  (0x2000 ≤ n && n ≤ 0x200A) || n == 0x2028 || n == 0x2029 || n == 0x202F || n == 0x205F ||
  n == 0x3000

/-- Whether a character is a decimal digit `0` to `9`. -/
def isDigit (c : Char) : Bool := '0' ≤ c && c ≤ '9'

/-- The value of a decimal digit. -/
def digitValue (c : Char) : Nat := c.toNat - '0'.toNat

/-- Whether a character is an ASCII letter. -/
def isLetter (c : Char) : Bool := ('a' ≤ c && c ≤ 'z') || ('A' ≤ c && c ≤ 'Z')

/-- The value of a hexadecimal digit of either case. -/
def hexValue? (c : Char) : Option Nat :=
  if '0' ≤ c && c ≤ '9' then some (c.toNat - '0'.toNat)
  else if 'a' ≤ c && c ≤ 'f' then some (c.toNat - 'a'.toNat + 10)
  else if 'A' ≤ c && c ≤ 'F' then some (c.toNat - 'A'.toNat + 10)
  else none

/-- An ASCII capital becomes its small letter; every other character stays. -/
def lowerChar (c : Char) : Char :=
  if 'A' ≤ c && c ≤ 'Z' then Char.ofNat (c.toNat + 32) else c

/-! ### Trimming and folding -/

/-- Removes from both ends the characters that satisfy `p`. -/
def stripWhere (p : Char → Bool) (cs : List Char) : List Char :=
  ((cs.dropWhile p).reverse.dropWhile p).reverse

/-- Removes white space from both ends. -/
def trim (s : String) : String := String.ofList (stripWhere isBlank s.toList)

/-- Whether a text holds nothing but white space. -/
def isBlankText (s : String) : Bool := s.toList.all isBlank

/-- Removes every `c` at the end. -/
def trimEnd (c : Char) (s : String) : String :=
  String.ofList (s.toList.reverse.dropWhile (· == c)).reverse

/-- Folds the ASCII capitals of a text. -/
def lower (s : String) : String := String.ofList (s.toList.map lowerChar)

/-! ### Searching and splitting -/

/-- What follows `lead`, when the text begins with it. -/
def after? : List Char → List Char → Option (List Char)
  | [], cs => some cs
  | _ :: _, [] => none
  | p :: ps, c :: cs => if p == c then after? ps cs else none

/-- Whether `needle` occurs somewhere in the text. -/
def occursIn (needle : List Char) : List Char → Bool
  | [] => needle.isEmpty
  | c :: cs => (after? needle (c :: cs)).isSome || occursIn needle cs

/-- Whether the text begins with `lead`. -/
def startsWith (lead s : String) : Bool := (after? lead.toList s.toList).isSome

/-- Whether `needle` occurs in `s`. -/
def contains (needle s : String) : Bool := occursIn needle.toList s.toList

/-- The pieces between the characters that satisfy `p`; one more than there are such characters. -/
def splitWhere (p : Char → Bool) : List Char → List (List Char)
  | [] => [[]]
  | c :: cs =>
    if p c then [] :: splitWhere p cs
    else match splitWhere p cs with
      | [] => [[c]]
      | piece :: rest => (c :: piece) :: rest

/-- The pieces of a text between the occurrences of `c`. -/
def split (c : Char) (s : String) : List String :=
  (splitWhere (· == c) s.toList).map String.ofList

/-- The text before and after the first `c`. -/
def splitOnce? (c : Char) : List Char → Option (List Char × List Char)
  | [] => none
  | d :: cs =>
    if d == c then some ([], cs)
    else (splitOnce? c cs).map fun (before, after) => (d :: before, after)

/-- Every `c` replaced by the text `new`. -/
def replaceChar (c : Char) (new : String) (s : String) : String :=
  String.ofList (s.toList.flatMap fun d => if d == c then new.toList else [d])

/-- The pieces with `sep` between them. -/
def join (sep : String) : List String → String
  | [] => ""
  | [s] => s
  | s :: rest => s ++ sep ++ join sep rest

/-! ### Numbers -/

/-- The decimal digits of a number, at least one. -/
def decimal (n : Nat) : String := String.ofList (Nat.toDigits 10 n)

/-- Digits with zeros in front up to `width` places. -/
def padLeft (width : Nat) (digits : List Char) : List Char :=
  List.replicate (width - digits.length) '0' ++ digits

/-- A signed number in decimal. -/
def decimalInt (i : Int) : String :=
  if i < 0 then "-" ++ decimal i.natAbs else decimal i.natAbs

/-- The number that decimal digits denote, read from the left. -/
def digitsValue (cs : List Char) : Nat := cs.foldl (fun n c => 10 * n + digitValue c) 0

/-- One small hexadecimal digit. -/
def hexDigit (n : Nat) : Char :=
  if n < 10 then Char.ofNat ('0'.toNat + n) else Char.ofNat ('a'.toNat + (n - 10))

/-- One capital hexadecimal digit. -/
def hexDigitUpper (n : Nat) : Char :=
  if n < 10 then Char.ofNat ('0'.toNat + n) else Char.ofNat ('A'.toNat + (n - 10))

/-- Why a text is not a whole number. -/
inductive IntegerError where
  /-- There is no character at all. -/
  | empty
  /-- A character is not a digit, or a sign stands alone. -/
  | invalidDigit
  /-- The number lies above the range. -/
  | tooLarge
  /-- The number lies below the range. -/
  | tooSmall
  deriving DecidableEq, Repr

/-- The wording of a failed reading of a whole number. -/
def IntegerError.message : IntegerError → String
  | .empty => "cannot parse integer from empty string"
  | .invalidDigit => "invalid digit found in string"
  | .tooLarge => "number too large to fit in target type"
  | .tooSmall => "number too small to fit in target type"

/-- Reads a whole number in decimal between `least` and `greatest`. One sign may stand in front;
    a minus sign only where negative numbers are in range. A bad digit wins over a bad range only if
    it comes before the place where the range is left. -/
def readInteger (least greatest : Int) (s : String) : Except IntegerError Int :=
  match s.toList with
  | [] => .error .empty
  | ['+'] => .error .invalidDigit
  | ['-'] => .error .invalidDigit
  | '+' :: cs => go cs 1 0
  | '-' :: cs => if least < 0 then go cs (-1) 0 else .error .invalidDigit
  | cs => go cs 1 0
where
  /-- Adds one digit at a time in the direction of the sign. -/
  go : List Char → Int → Int → Except IntegerError Int
    | [], _, n => .ok n
    | c :: cs, sign, n =>
      if isDigit c then
        let next := 10 * n + sign * digitValue c
        if greatest < next then .error .tooLarge
        else if next < least then .error .tooSmall
        else go cs sign next
      else .error .invalidDigit

end PackageRelease.Text
