import PackageRelease.Number.Binary64
import PackageRelease.Text.Basic
import PackageRelease.Toml.Basic

/-! # TOML values without quotes

  A word in the place of a value is a literal, a number, a date or a time. Single underscores may
  stand between the digits of a number, and a decimal number has no zero in front of other digits.
  A fraction of a second keeps nine places.
-/

namespace PackageRelease.Toml

open Text (isDigit digitValue hexValue?)

/-! ### Digits -/

/-- The digits of a group in which single underscores may stand between two digits. -/
def groupedDigits? (isMember : Char → Bool) (cs : List Char) : Option (List Char) := do
  let pieces := Text.splitWhere (· == '_') cs
  guard (pieces.all fun piece => !piece.isEmpty && piece.all isMember)
  return pieces.flatten

/-- The decimal digits in front of a point or of an exponent, or of a whole number. -/
def wholeDigits? (cs : List Char) : Option (List Char) := do
  let digits ← groupedDigits? isDigit cs
  guard (digits.length = 1 || digits.head? ≠ some '0')
  return digits

/-- A sign and what follows it. -/
def splitSign : List Char → Bool × List Char
  | '-' :: rest => (true, rest)
  | '+' :: rest => (false, rest)
  | cs => (false, cs)

/-! ### Whole numbers -/

/-- The base that a whole number with a base names, and its digits. -/
def base? : List Char → Option (Nat × List Char)
  | '0' :: 'x' :: rest => some (16, rest)
  | '0' :: 'o' :: rest => some (8, rest)
  | '0' :: 'b' :: rest => some (2, rest)
  | _ => none

/-- The value of digits in a base. -/
def baseValue? (base : Nat) (cs : List Char) : Option Nat := do
  let digits ← groupedDigits? (fun c => (hexValue? c).any (· < base)) cs
  let values ← digits.mapM hexValue?
  return values.foldl (fun n d => base * n + d) 0

/-- A whole number. Only a decimal one has a sign. -/
def integer? (cs : List Char) : Option Int :=
  match base? cs with
  | some (base, digits) => (baseValue? base digits).map fun n => (n : Int)
  | none => do
    let (negative, rest) := splitSign cs
    let n := Text.digitsValue (← wholeDigits? rest)
    return if negative then -n else n

/-! ### Floating point numbers -/

/-- The parts of a number in front of and behind a mark. -/
def splitAtMark (isMark : Char → Bool) (cs : List Char) : List Char × Option (List Char) :=
  match cs.dropWhile (!isMark ·) with
  | [] => (cs, none)
  | _ :: rest => (cs.takeWhile (!isMark ·), some rest)

/-- The digits behind a point, if there is one. -/
def fractionDigits? : Option (List Char) → Option (List Char)
  | none => some []
  | some cs => groupedDigits? isDigit cs

/-- The value of an exponent, if there is one. -/
def exponent? : Option (List Char) → Option Int
  | none => some 0
  | some cs => do
    let (negative, rest) := splitSign cs
    let n := Text.digitsValue (← groupedDigits? isDigit rest)
    return if negative then -n else n

/-- A number with a point or an exponent, without its sign. -/
def unsignedFloat? (negative : Bool) (cs : List Char) : Option TomlFloat := do
  let (mantissa, exponentText?) := splitAtMark (fun c => c = 'e' || c = 'E') cs
  let (whole, fractionText?) := splitAtMark (· = '.') mantissa
  guard (exponentText?.isSome || fractionText?.isSome)
  let whole ← wholeDigits? whole
  let fraction ← fractionDigits? fractionText?
  let exponent ← exponent? exponentText?
  let digits := Text.digitsValue (whole ++ fraction)
  return match Binary64.ofDecimal? negative digits (exponent - fraction.length) with
    | some value => .finite value
    | none => .tooLarge

/-- A floating point number. -/
def float? (cs : List Char) : Option TomlFloat :=
  let (negative, rest) := splitSign cs
  if rest = ['i', 'n', 'f'] then some (.infinity negative)
  else if rest = ['n', 'a', 'n'] then some .nan
  else unsignedFloat? negative rest

/-! ### Dates and times -/

/-- The number that two digits denote, if it lies in a range. -/
def twoDigits? (least greatest : Nat) (a b : Char) : Option Nat := do
  guard (isDigit a && isDigit b)
  let n := Text.digitsValue [a, b]
  guard (least ≤ n && n ≤ greatest)
  return n

/-- The number of days in a month. -/
def daysIn (year month : Nat) : Nat :=
  if month = 2 then
    if (year % 4 = 0 ∧ year % 100 ≠ 0) ∨ year % 400 = 0 then 29 else 28
  else if month ∈ [4, 6, 9, 11] then 30
  else 31

/-- A date at the front, and what follows it. -/
def date? : List Char → Option (List Char × List Char)
  | y₁ :: y₂ :: y₃ :: y₄ :: '-' :: m₁ :: m₂ :: '-' :: d₁ :: d₂ :: rest => do
    guard ([y₁, y₂, y₃, y₄].all isDigit)
    let month ← twoDigits? 1 12 m₁ m₂
    let _ ← twoDigits? 1 (daysIn (Text.digitsValue [y₁, y₂, y₃, y₄]) month) d₁ d₂
    return ([y₁, y₂, y₃, y₄, '-', m₁, m₂, '-', d₁, d₂], rest)
  | _ => none

/-- The fraction of a second at the front in its normal form, and what follows it. -/
def secondFraction? : List Char → Option (List Char × List Char)
  | '.' :: rest => do
    let digits := rest.takeWhile isDigit
    guard (!digits.isEmpty)
    let kept := ((digits.take 9).reverse.dropWhile (· = '0')).reverse
    return (if kept.isEmpty then [] else '.' :: kept, rest.dropWhile isDigit)
  | cs => some ([], cs)

/-- Seconds at the front in their normal form, and what follows them. Without them there is no
    fraction either. -/
def seconds? : List Char → Option (List Char × List Char)
  | ':' :: s₁ :: s₂ :: rest => do
    let _ ← twoDigits? 0 60 s₁ s₂
    let (fraction, rest) ← secondFraction? rest
    return (':' :: s₁ :: s₂ :: fraction, rest)
  | ':' :: _ => none
  | cs => some ([':', '0', '0'], cs)

/-- A time at the front in its normal form, and what follows it. -/
def time? : List Char → Option (List Char × List Char)
  | h₁ :: h₂ :: ':' :: m₁ :: m₂ :: rest => do
    let _ ← twoDigits? 0 23 h₁ h₂
    let _ ← twoDigits? 0 59 m₁ m₂
    let (seconds, rest) ← seconds? rest
    return (h₁ :: h₂ :: ':' :: m₁ :: m₂ :: seconds, rest)
  | _ => none

/-- The distance from universal time in its normal form, if it is given. -/
def offset? : List Char → Option (List Char)
  | [] => some []
  | ['Z'] | ['z'] => some ['Z']
  | [sign, h₁, h₂, ':', m₁, m₂] => do
    guard (sign = '+' || sign = '-')
    let hours ← twoDigits? 0 23 h₁ h₂
    let minutes ← twoDigits? 0 59 m₁ m₂
    let sign := if hours = 0 ∧ minutes = 0 then '+' else sign
    return [sign, h₁, h₂, ':', m₁, m₂]
  | _ => none

/-- A date, a time or both in normal form. Only both together have a distance from universal
    time. -/
def moment? (cs : List Char) : Option (List Char) :=
  match date? cs with
  | some (date, []) => some date
  | some (date, separator :: rest) => do
    guard (separator ∈ ['T', 't', ' '])
    let (time, rest) ← time? rest
    return date ++ 'T' :: time ++ (← offset? rest)
  | none =>
    match time? cs with
    | some (time, []) => some time
    | _ => none

/-- Whether a word could be a date that a time follows behind a space. -/
def isDate (cs : List Char) : Bool := (date? cs).any fun (_, rest) => rest.isEmpty

/-! ### All of them -/

/-- The value that a word without quotes denotes. -/
def ofWord? (cs : List Char) : Option Toml :=
  if cs = "true".toList then some (.bool true)
  else if cs = "false".toList then some (.bool false)
  else match integer? cs, float? cs, moment? cs with
    | some n, _, _ => some (.integer n)
    | none, some x, _ => some (.float x)
    | none, none, some text => some (.moment (String.ofList text))
    | none, none, none => none

/-- Whether a word can be a part of a key as it is. -/
def isBareKey (cs : List Char) : Bool :=
  cs.all fun c => Text.isLetter c || isDigit c || c = '_' || c = '-'

end PackageRelease.Toml
