import PackageRelease.Number.Binary64
import PackageRelease.Text.Basic

/-! # Seconds with one decimal place

  A duration of whole milliseconds is turned into a double of seconds: the fraction of a second
  is rounded first, then its sum with the whole seconds. What is written is that double, rounded
  to tenths; a half goes to the even tenth.
-/

namespace PackageRelease

namespace Binary64

/-- The sum of the magnitudes. -/
def add? (x y : Binary64) : Option Binary64 := round? false (x.units + y.units) (Nat.pow 2 unitPower)

/-- The number of seconds in a duration. -/
def ofMilliseconds? (milliseconds : Nat) : Option Binary64 := do
  (← ofNat? (milliseconds / 1000)).add? (← round? false (milliseconds % 1000) 1000)

/-- The magnitude in tenths. -/
def tenths (x : Binary64) : Nat := roundQuotient (10 * x.units) (Nat.pow 2 unitPower)

end Binary64

/-- A duration in seconds with one decimal place. -/
def Text.seconds (milliseconds : Nat) : String :=
  let tenths := ((Binary64.ofMilliseconds? milliseconds).map Binary64.tenths).getD 0
  Text.decimal (tenths / 10) ++ "." ++ Text.decimal (tenths % 10)

end PackageRelease
