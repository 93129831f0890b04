import PackageRelease.Number.Binary64

/-! # Shortest decimal digits

  The decimal text of a double has the fewest digits that read back as the same number. Among
  the decimals of that length the one nearest to the exact value is taken, and on a tie the one
  with an even last digit.

  For 1, 2, … 17 digits the two neighbours of the exact value on that decimal grid are compared
  with the interval of reals that round to it. All comparisons are between natural numbers.
-/

namespace PackageRelease

/-- A decimal number `0.d₁d₂…dₙ * 10 ^ point`; the last digit is not zero. -/
structure Decimal where
  /-- The digits, most significant first. -/
  digits : List Char
  /-- Where the point stands, counted from in front of the first digit. -/
  point : Int
  deriving DecidableEq, Repr

namespace Decimal

/-- Zeros at the end carry no value behind the point. -/
def ofDigits (digits : List Char) (point : Int) : Decimal :=
  ⟨(digits.reverse.dropWhile (· == '0')).reverse, point⟩

end Decimal

namespace Binary64

/-- The decimal exponent of the first digit of a positive number. -/
def leadingExponent (x : Binary64) : Int :=
  let shifted := x.units * Nat.pow 10 340 / Nat.pow 2 unitPower
  ((Nat.toDigits 10 shifted).length : Int) - 1 - 340

/-- The better neighbour of `x` among the decimals with `count` digits, if one reads back. -/
def candidate? (x : Binary64) (count : Nat) : Option Decimal :=
  let lead := x.leadingExponent
  let shift : Int := (count : Int) - 1 - lead
  let up := Nat.pow 10 shift.toNat
  let down := 4 * Nat.pow 2 unitPower * Nat.pow 10 (-shift).toNat
  -- quarters of the last place keep the lower bound of a power of two exact
  let lowGap := if x.significand = Nat.pow 2 52 ∧ 0 < x.power then 1 else 2
  let scale := Nat.pow 2 x.power * up
  let value := 4 * x.significand * scale
  let low := (4 * x.significand - lowGap) * scale
  let high := (4 * x.significand + 2) * scale
  let below := value / down
  let closed := x.significand % 2 = 0
  let fits (n : Nat) : Bool :=
    if closed then low ≤ n * down ∧ n * down ≤ high else low < n * down ∧ n * down < high
  let belowDistance := value - below * down
  let aboveDistance := (below + 1) * down - value
  let nearer :=
    if belowDistance < aboveDistance then below
    else if aboveDistance < belowDistance then below + 1
    else if below % 2 = 0 then below else below + 1
  let chosen? :=
    if fits nearer then some nearer
    else if fits below then some below
    else if fits (below + 1) then some (below + 1)
    else none
  chosen?.map fun n =>
    let digits := Nat.toDigits 10 n
    Decimal.ofDigits digits ((digits.length : Int) - shift)

/-- The shortest digits of a positive number that read back as it. -/
def shortest (x : Binary64) : Decimal :=
  ((List.range 17).findSome? fun k => x.candidate? (k + 1)).getD ⟨['0'], 1⟩

end Binary64

end PackageRelease
