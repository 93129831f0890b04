import Mathlib.Data.List.DropRight
import PackageRelease.Number.Shortest
import PackageRelease.Proofs.Json.Numeral

/-! # The grid of decimals

  The decimals with a number of digits form a grid. A double is written with a point of the first
  grid on which one of its two neighbours is read as the double again.
-/

namespace PackageRelease

open Text (isDigit)

/-! ### Decimals with digits -/

namespace Decimal

/-- Whether a decimal has digits and does not begin with a zero, unless it is zero. -/
structure IsNormal (d : Decimal) : Prop where
  /-- There is a digit. -/
  nonempty : d.digits ≠ []
  /-- There is nothing else. -/
  isDigit : ∀ c ∈ d.digits, Text.isDigit c = true
  /-- Only the decimal zero begins with a zero. -/
  leads : d.digits.head? = some '0' → d = ⟨['0'], 1⟩

/-- The digits of a positive number make a decimal without zeros at the end. -/
theorem isNormal_ofDigits {n : Nat} (h : 0 < n) (point : Int) :
    (ofDigits (Nat.toDigits 10 n) point).IsNormal := by
  have hhead := Text.head?_toDigits_ne h
  obtain ⟨c, rest, hdigits⟩ := List.exists_cons_of_ne_nil (@Nat.toDigits_ne_nil n 10)
  -- what is left begins with the first digit, because that is no zero
  have hfront := List.rdropWhile_prefix (· == '0') (Nat.toDigits 10 n)
  have hne : (Nat.toDigits 10 n).rdropWhile (· == '0') ≠ [] := by
    intro hnil
    have hzero := List.rdropWhile_eq_nil_iff.mp hnil c (hdigits ▸ List.mem_cons_self)
    rw [hdigits, eq_of_beq hzero] at hhead
    exact hhead rfl
  refine ⟨hne, fun d hd => Text.isDigit_of_mem_toDigits (hfront.subset hd), fun hzero => ?_⟩
  obtain ⟨zeros, hzeros⟩ := hfront
  rw [← hzeros, List.head?_append_of_ne_nil _ hne] at hhead
  exact absurd hzero hhead

end Decimal

namespace Binary64

/-! ### One grid -/

/-- How many places stand behind the point when there are `count` digits. -/
def places (x : Binary64) (count : Nat) : Int := (count : Int) - 1 - x.leadingExponent

/-- One unit of the last place, where `x` counts `scale`s. -/
def gridUnit (x : Binary64) (count : Nat) : Nat :=
  4 * Nat.pow 2 unitPower * Nat.pow 10 (-x.places count).toNat

/-- A quarter of one unit of the significand of `x`. -/
def quarter (x : Binary64) (count : Nat) : Nat :=
  Nat.pow 2 x.power * Nat.pow 10 (x.places count).toNat

/-- How many quarters below `x` numbers are still read as `x`. -/
def lowGap (x : Binary64) : Nat := if x.significand = Nat.pow 2 52 ∧ 0 < x.power then 1 else 2

/-- Whether a point of the grid is read as `x`. -/
def covers (x : Binary64) (count n : Nat) : Bool :=
  let low := (4 * x.significand - x.lowGap) * x.quarter count
  let high := (4 * x.significand + 2) * x.quarter count
  if x.significand % 2 = 0 then low ≤ n * x.gridUnit count ∧ n * x.gridUnit count ≤ high
  else low < n * x.gridUnit count ∧ n * x.gridUnit count < high

/-- The greatest point of the grid that is not above `x`. -/
def below (x : Binary64) (count : Nat) : Nat :=
  4 * x.significand * x.quarter count / x.gridUnit count

/-- The point of the grid that is nearest to `x`. -/
def nearest (x : Binary64) (count : Nat) : Nat :=
  let value := 4 * x.significand * x.quarter count
  let belowDistance := value - x.below count * x.gridUnit count
  let aboveDistance := (x.below count + 1) * x.gridUnit count - value
  if belowDistance < aboveDistance then x.below count
  else if aboveDistance < belowDistance then x.below count + 1
  else if x.below count % 2 = 0 then x.below count else x.below count + 1

/-- A point of the grid as a decimal. -/
def gridPoint (x : Binary64) (count n : Nat) : Decimal :=
  Decimal.ofDigits (Nat.toDigits 10 n) ((Nat.toDigits 10 n).length - x.places count)

theorem candidate?_eq (x : Binary64) (count : Nat) : x.candidate? count =
    (if x.covers count (x.nearest count) then some (x.nearest count)
      else if x.covers count (x.below count) then some (x.below count)
      else if x.covers count (x.below count + 1) then some (x.below count + 1)
      else none).map (x.gridPoint count) := rfl

variable {x : Binary64} {count n : Nat}

/-- A candidate is a point of the grid that is read as `x`. -/
theorem covers_of_candidate? {d : Decimal} (h : x.candidate? count = some d) :
    ∃ n, x.covers count n = true ∧ d = x.gridPoint count n := by
  rw [candidate?_eq] at h
  obtain ⟨n, hchosen, rfl⟩ := Option.map_eq_some_iff.mp h
  refine ⟨n, ?_, rfl⟩
  repeat' split at hchosen
  all_goals first
    | cases hchosen; assumption
    | cases hchosen

theorem lowGap_lt (hx : x.isZero = false) : x.lowGap < 4 * x.significand := by
  unfold isZero at hx
  rw [decide_eq_false_iff_not] at hx
  unfold lowGap
  split <;> omega

/-- Zero is not read as a positive number. -/
theorem pos_of_covers (hx : x.isZero = false) (h : x.covers count n = true) : 0 < n := by
  have hlow : 0 < (4 * x.significand - x.lowGap) * x.quarter count :=
    Nat.mul_pos (Nat.sub_pos_of_lt (lowGap_lt hx))
      (Nat.mul_pos (Nat.pow_pos (by decide)) (Nat.pow_pos (by decide)))
  refine Nat.pos_of_ne_zero ?_
  rintro rfl
  unfold covers at h
  dsimp only at h
  rw [Nat.zero_mul] at h
  split at h
  · exact absurd (of_decide_eq_true h).1 (Nat.not_le.mpr hlow)
  · exact absurd (of_decide_eq_true h).1 (Nat.not_lt_zero _)

/-- The shortest digits of a positive number are digits. -/
theorem isNormal_shortest (hx : x.isZero = false) : x.shortest.IsNormal := by
  unfold shortest
  cases hfound : (List.range 17).findSome? fun k => x.candidate? (k + 1) with
  | none => exact ⟨by simp, List.forall_mem_singleton.mpr rfl, fun _ => rfl⟩
  | some d =>
    obtain ⟨k, -, hk⟩ := List.exists_of_findSome?_eq_some hfound
    obtain ⟨n, hcovers, rfl⟩ := covers_of_candidate? hk
    exact Decimal.isNormal_ofDigits (pos_of_covers hx hcovers) _

end Binary64

end PackageRelease
