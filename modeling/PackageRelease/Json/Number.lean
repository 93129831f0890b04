import PackageRelease.Json.Basic
import PackageRelease.Number.Layout
import PackageRelease.Number.Word
import PackageRelease.Text.Basic

/-! # JSON numbers as text

  Reading keeps whole numbers of up to 64 bits exactly. Every other literal becomes a double in
  two rounding steps: as many leading digits as fit in 64 bits are rounded to a double, and that
  is multiplied or divided by a rounded power of ten. The result can therefore be a neighbour of
  the double nearest to the literal.

  Writing a double uses its shortest digits, positionally from `0.00001` up to sixteen digits in
  front of the point and with an exponent outside of that.
-/

namespace PackageRelease.JsonNumber

open Text (isDigit digitValue)

/-! ### Reading -/

/-- The parts of a number literal. -/
structure Literal where
  /-- Whether a minus sign stands in front. -/
  negative : Bool
  /-- The digits in front of the point. -/
  whole : List Char
  /-- The digits behind the point, if there is one. -/
  fraction : Option (List Char)
  /-- The sign and digits of the exponent, if there is one. -/
  exponent : Option (Bool × List Char)
  deriving DecidableEq, Repr

/-- The greatest significand that is kept while digits are read. -/
def significandLimit : Nat := Word.count 64 - 1

/-- Appends digits to a significand until one no longer fits. Returns the significand and how many
    digits were taken. -/
def takeDigits : List Char → Nat → Nat × Nat
  | [], n => (n, 0)
  | c :: cs, n =>
    let next := 10 * n + digitValue c
    if significandLimit < next then (n, 0)
    else
      let (m, taken) := takeDigits cs next
      (m, taken + 1)

/-- The exponent of a literal as a number. -/
def exponentValue : Option (Bool × List Char) → Int
  | none => 0
  | some (true, digits) => -(Text.digitsValue digits : Int)
  | some (false, digits) => Text.digitsValue digits

/-- Divides by the greatest power of ten until nothing is left or the count runs out. -/
def divideDown : Nat → Binary64 → Option Binary64
  | 0, x => some x
  | n + 1, x =>
    if x.isZero then some x
    else do divideDown n (← x.div? (← Binary64.powerOfTen? 308))

/-- The double for `significand * 10 ^ exponent`, rounded once for the significand and once for
    each power of ten. Nothing, when it lies beyond the greatest double. -/
def scale? (significand : Nat) (exponent : Int) : Option Binary64 := do
  let x ← Binary64.ofNat? significand
  if 0 ≤ exponent then
    if x.isZero then some x
    else if 308 < exponent then none
    else x.mul? (← Binary64.powerOfTen? exponent.toNat)
  else
    let size := (-exponent).toNat
    let steps := (size - 1) / 308
    let y ← divideDown steps x
    if y.isZero then some y else y.div? (← Binary64.powerOfTen? (size - 308 * steps))

/-- The number that a literal denotes; nothing when it is out of range. -/
def ofLiteral? (l : Literal) : Option JsonNumber := do
  let (n, taken) := takeDigits l.whole 0
  let dropped := l.whole.length - taken
  match l.fraction, l.exponent with
  | none, none =>
    if dropped = 0 then
      if !l.negative then return .integer n
      else if 0 < n ∧ Word.holdsSigned 64 (-n) then return .integer (-n)
      else return .double { (← Binary64.ofNat? n) with negative := true }
    else return .double { (← scale? n dropped) with negative := l.negative }
  | fraction, exponent =>
    let (m, places) := takeDigits (fraction.getD []) n
    let x ← scale? m ((dropped : Int) - places + exponentValue exponent)
    return .double { x with negative := l.negative }

/-! ### Writing -/

/-- `0.00001` and sixteen digits in front of the point are the last positional forms. -/
def doubleLayout : DecimalLayout := ⟨-4, 16⟩

/-- The text of a number. -/
def render : JsonNumber → List Char
  | .integer i => (Text.decimalInt i).toList
  | .double x => x.render doubleLayout

end PackageRelease.JsonNumber
