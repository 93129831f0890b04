/-! # Double precision numbers

  A finite number in the format `binary64`, held by its exact value: a sign and the magnitude
  `significand * 2 ^ power / 2 ^ 1074`. Every operation computes the exact result as a quotient
  of natural numbers and rounds it once, to the nearest representable number and on a tie to the
  even significand, so nothing here depends on the machine's own arithmetic.
-/

namespace PackageRelease

/-- A finite double precision number. -/
structure Binary64 where
  /-- Whether the sign bit is set; zero carries it too. -/
  negative : Bool
  /-- Fewer than 54 bits; exactly 53 of them unless `power` is zero. -/
  significand : Nat
  /-- The exponent of the last place, counted from the least one. -/
  power : Nat
  deriving DecidableEq, Repr, Inhabited

namespace Binary64

/-- The unit of the least exponent is `1 / 2 ^ 1074`. -/
def unitPower : Nat := 1074

/-- The greatest `power` of a finite number. -/
def maxPower : Nat := 2045

/-- The quotient rounded to the nearest whole number; a half goes to the even neighbour. -/
def roundQuotient (num den : Nat) : Nat :=
  let q := num / den
  let r := num % den
  if 2 * r < den then q
  else if den < 2 * r then q + 1
  else if q % 2 = 0 then q else q + 1

/-- The number nearest to `num / den`, or nothing when it lies beyond the greatest finite one. -/
def round? (negative : Bool) (num den : Nat) : Option Binary64 :=
  let scaled := num * Nat.pow 2 unitPower
  let bits := if scaled / den = 0 then 0 else (scaled / den).log2 + 1
  let power := bits - 53
  let significand := roundQuotient scaled (den * Nat.pow 2 power)
  let (significand, power) :=
    if significand = Nat.pow 2 53 then (Nat.pow 2 52, power + 1) else (significand, power)
  if maxPower < power then none else some ⟨negative, significand, power⟩

/-- Zero with either sign. -/
def zero (negative : Bool) : Binary64 := ⟨negative, 0, 0⟩

/-- Whether the number is a zero. -/
def isZero (x : Binary64) : Bool := x.significand = 0

/-- The magnitude, counted in units of `1 / 2 ^ 1074`. -/
def units (x : Binary64) : Nat := x.significand * Nat.pow 2 x.power

/-- The number nearest to a natural number. -/
def ofNat? (n : Nat) : Option Binary64 := round? false n 1

/-- The number with the sign reversed. -/
def neg (x : Binary64) : Binary64 := { x with negative := !x.negative }

/-- The product of the magnitudes. -/
def mul? (x y : Binary64) : Option Binary64 :=
  round? false (x.units * y.units) (Nat.pow 2 unitPower * Nat.pow 2 unitPower)

/-- The quotient of the magnitudes; the divisor is not zero. -/
def div? (x y : Binary64) : Option Binary64 := round? false x.units y.units

/-- The number nearest to a power of ten. -/
def powerOfTen? (k : Nat) : Option Binary64 := ofNat? (Nat.pow 10 k)

/-- The number nearest to `digits * 10 ^ exponent`. -/
def ofDecimal? (negative : Bool) (digits : Nat) (exponent : Int) : Option Binary64 :=
  if digits = 0 then some (zero negative)
  else if 0 ≤ exponent then
    -- any number with more digits than this lies beyond the greatest one
    if 400 < exponent then none else round? negative (digits * Nat.pow 10 exponent.toNat) 1
  else if exponent + digits.log2 < -401 then
    -- less than half of the least positive one
    some (zero negative)
  else round? negative digits (Nat.pow 10 (-exponent).toNat)

end Binary64

end PackageRelease
