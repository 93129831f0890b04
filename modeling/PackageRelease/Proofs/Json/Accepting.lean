import Mathlib.Algebra.Order.Field.Power
import PackageRelease.Proofs.Json.Keeping
import PackageRelease.Proofs.Number.Rounding

/-! # Numbers that are accepted

  A literal is refused only if its number has no place among the doubles. Whatever is read is within
  their range, and every literal is read whose value stays a little below the greatest double, no
  matter how many digits it has and where its point stands.
-/

namespace PackageRelease

open Binary64 (IsFinite)
open Text (digitValue)

namespace JsonNumber

/-! ### Powers of ten -/

section scaling
variable {x : Binary64}

/-- Dividing by powers of ten leads to a double. -/
theorem exists_divideDown (hx : x.IsFinite) (count : Nat) :
    ∃ y, divideDown count x = some y ∧ y.IsFinite := by
  induction count generalizing x with
  | zero => exact ⟨x, rfl, hx⟩
  | succ count ih =>
    unfold divideDown
    split
    · exact ⟨x, rfl, hx⟩
    · obtain ⟨power, hpower, hle⟩ := @Binary64.exists_powerOfTen? 308 (Nat.le_refl 308)
      obtain ⟨y, hy, hfinite⟩ := Binary64.exists_div? hx (hle (by decide))
      rw [hpower, Option.bind_eq_bind, Option.bind_some, hy]
      exact ih hfinite

variable {significand : Nat} {exponent : Int}

/-- A number of up to 64 bits is rounded to a double. -/
theorem exists_ofNat?_of_le (hle : significand ≤ significandLimit) :
    ∃ x, Binary64.ofNat? significand = some x := by
  have hlt : 2 * (significandLimit * Nat.pow 2 Binary64.unitPower) <
      (2 ^ 54 - 1) * 2 ^ Binary64.maxPower := by
    decide +kernel
  exact Binary64.exists_ofNat? (Nat.lt_of_le_of_lt
    (Nat.mul_le_mul_left 2 (Nat.mul_le_mul_right (Nat.pow 2 Binary64.unitPower) hle)) hlt)

/-- A number of up to 64 bits divided by a power of ten is a double. -/
theorem exists_scale?_of_neg (hle : significand ≤ significandLimit) (hneg : exponent < 0) :
    ∃ y, scale? significand exponent = some y := by
  obtain ⟨x, hx⟩ := exists_ofNat?_of_le hle
  obtain ⟨y, hy, hfinite⟩ := exists_divideDown (Binary64.isFinite_of_ofNat? hx)
    (((-exponent).toNat - 1) / 308)
  unfold scale?
  rw [hx, Option.bind_eq_bind, Option.bind_some, if_neg (Int.not_le.mpr hneg)]
  dsimp only
  rw [hy, Option.bind_some]
  split
  · exact ⟨y, rfl⟩
  · obtain ⟨power, hpower, hle⟩ := @Binary64.exists_powerOfTen?
      ((-exponent).toNat - 308 * (((-exponent).toNat - 1) / 308)) (by omega)
    obtain ⟨z, hz, -⟩ := Binary64.exists_div? hfinite (hle (by omega))
    exact ⟨z, by rw [hpower, Option.bind_some, hz]⟩

/-- No power of ten with more places is below the greatest double. -/
theorem le_of_mul_powerOfTen_le {power : Nat} (hpos : 0 < significand)
    (h : 2 * (significand * Nat.pow 10 power * Nat.pow 2 Binary64.unitPower) ≤
      (2 ^ 54 - 5) * 2 ^ Binary64.maxPower) : power ≤ 308 := by
  obtain ⟨next, hnext, hlt⟩ : ∃ next, next = 309 ∧ (2 ^ 54 - 5) * 2 ^ Binary64.maxPower <
      2 * (Nat.pow 10 next * Nat.pow 2 Binary64.unitPower) := ⟨309, rfl, by decide +kernel⟩
  by_contra hmore
  have hle : Nat.pow 10 next ≤ Nat.pow 10 power := Nat.pow_le_pow_right (by decide) (by omega)
  have hmul : Nat.pow 10 next ≤ significand * Nat.pow 10 power :=
    Nat.le_trans hle (Nat.le_mul_of_pos_left _ hpos)
  exact Nat.not_le.mpr hlt (Nat.le_trans
    (Nat.mul_le_mul_left 2 (Nat.mul_le_mul_right (Nat.pow 2 Binary64.unitPower) hmul)) h)

/-- A number times a power of ten is a double if it stays below the greatest one. -/
theorem exists_scale?_of_le {power : Nat}
    (h : 2 * (significand * Nat.pow 10 power * Nat.pow 2 Binary64.unitPower) ≤
      (2 ^ 54 - 5) * 2 ^ Binary64.maxPower) :
    ∃ y, scale? significand power = some y := by
  have hten : 0 < Nat.pow 10 power := Nat.pow_pos (by decide)
  have hgreatest : 0 < 2 ^ Binary64.maxPower := Nat.pow_pos two_pos
  have hsmall : 2 * (significand * Nat.pow 2 Binary64.unitPower) <
      (2 ^ 54 - 1) * 2 ^ Binary64.maxPower := by
    have hle : significand ≤ significand * Nat.pow 10 power := Nat.le_mul_of_pos_right _ hten
    have hmul := Nat.mul_le_mul_right (Nat.pow 2 Binary64.unitPower) hle
    omega
  obtain ⟨x, hx⟩ := Binary64.exists_ofNat? hsmall
  unfold scale?
  rw [hx, Option.bind_eq_bind, Option.bind_some, if_pos (Int.natCast_nonneg power)]
  split
  · exact ⟨x, rfl⟩
  · next hzero =>
    have hpos : 0 < significand := by
      refine Nat.pos_of_ne_zero ?_
      rintro rfl
      have hnone : Binary64.ofNat? 0 = some (.zero false) := by decide +kernel
      rw [Option.some.inj (hx.symm.trans hnone)] at hzero
      exact hzero rfl
    have hpower := le_of_mul_powerOfTen_le hpos h
    obtain ⟨y, hy, -⟩ := Binary64.exists_powerOfTen? hpower
    obtain ⟨z, hz⟩ := Binary64.exists_mul? hx hy h
    rw [if_neg (by omega), Int.toNat_natCast, hy, Option.bind_some]
    exact ⟨z, hz⟩

/-- Whatever is read as a double is one. -/
theorem isFinite_of_scale? {y : Binary64} (h : scale? significand exponent = some y) :
    y.IsFinite := by
  have hten : ∀ {k : Nat} {power : Binary64}, Binary64.powerOfTen? k = some power →
      0 < power.units := Binary64.units_pos_of_ofNat? (Nat.pow_pos (by decide))
  have hdown : ∀ {count : Nat} {x y : Binary64}, x.IsFinite → divideDown count x = some y →
      y.IsFinite := by
    intro count x y hx hy
    obtain ⟨z, hz, hfinite⟩ := exists_divideDown hx count
    cases hz.symm.trans hy
    exact hfinite
  obtain ⟨x, hx, h⟩ := Option.bind_eq_some_iff.mp h
  have hfinite := Binary64.isFinite_of_ofNat? hx
  split at h
  · split at h
    · cases h
      exact hfinite
    · split at h
      · cases h
      · obtain ⟨power, -, h⟩ := Option.bind_eq_some_iff.mp h
        exact Binary64.isFinite_of_round? (Nat.mul_pos Binary64.unit_pos Binary64.unit_pos) h
  · obtain ⟨z, hz, h⟩ := Option.bind_eq_some_iff.mp h
    split at h
    · cases h
      exact hdown hfinite hz
    · obtain ⟨power, hpower, h⟩ := Option.bind_eq_some_iff.mp h
      exact Binary64.isFinite_of_round? (hten hpower) h

end scaling

theorem isFinite_of_ofLiteral? {l : Literal} {x : Binary64}
    (h : ofLiteral? l = some (.double x)) : x.IsFinite := by
  have hsigned : ∀ {y : Binary64} (negative : Bool), y.IsFinite →
      IsFinite { y with negative } := fun _ hy => ⟨hy.significand_lt, hy.power_le⟩
  unfold ofLiteral? at h
  dsimp only at h
  split at h
  · split at h
    · split at h
      · cases h
      · split at h
        · cases h
        · obtain ⟨y, hy, h⟩ := Option.bind_eq_some_iff.mp h
          cases h
          exact hsigned true (Binary64.isFinite_of_ofNat? hy)
    · obtain ⟨y, hy, h⟩ := Option.bind_eq_some_iff.mp h
      cases h
      exact hsigned _ (isFinite_of_scale? hy)
  · obtain ⟨y, hy, h⟩ := Option.bind_eq_some_iff.mp h
    cases h
    exact hsigned _ (isFinite_of_scale? hy)

/-! ### Digits -/

theorem mul_pow_le_foldl_digits (cs : List Char) (n : Nat) :
    n * 10 ^ cs.length ≤ cs.foldl (fun n c => 10 * n + digitValue c) n := by
  induction cs generalizing n with
  | nil => exact Nat.le_of_eq (Nat.mul_one n)
  | cons c cs ih =>
    refine Nat.le_trans ?_ (ih (10 * n + digitValue c))
    rw [List.length_cons, pow_succ', ← Nat.mul_assoc, Nat.mul_comm n]
    exact Nat.mul_le_mul_right _ (Nat.le_add_right _ _)

/-- The digits that are not taken are not counted. -/
theorem takeDigits_mul_le (cs : List Char) (n : Nat) : ∃ left,
    cs.length = (takeDigits cs n).2 + left ∧
      (takeDigits cs n).1 * 10 ^ left ≤ cs.foldl (fun n c => 10 * n + digitValue c) n := by
  induction cs generalizing n with
  | nil => exact ⟨0, rfl, Nat.le_of_eq (Nat.mul_one n)⟩
  | cons c cs ih =>
    unfold takeDigits
    dsimp only
    split
    · exact ⟨_, (Nat.zero_add _).symm, mul_pow_le_foldl_digits (c :: cs) n⟩
    · obtain ⟨left, hlength, hle⟩ := ih (10 * n + digitValue c)
      exact ⟨left, by rw [List.length_cons, hlength, Nat.add_right_comm], hle⟩

theorem digitsValue_append (front back : List Char) :
    Text.digitsValue (front ++ back) =
      back.foldl (fun n c => 10 * n + digitValue c) (Text.digitsValue front) :=
  List.foldl_append

/-! ### Literals -/

/-- A little below the greatest double. Every literal up to here is accepted. -/
def safeLimit : ℚ :=
  ((2 ^ 54 - 5) * 2 ^ Binary64.maxPower : Nat) / (2 * Nat.pow 2 Binary64.unitPower : Nat)

theorem Literal.abs_value (l : Literal) : |l.value| = Text.digitsValue l.digits *
    10 ^ (exponentValue l.exponent - (l.fraction.getD []).length) := by
  unfold value
  split
  · rw [neg_one_mul, neg_mul, abs_neg, abs_of_nonneg (by positivity)]
  · rw [one_mul, abs_of_nonneg (by positivity)]

theorem le_of_magnitude_le {significand left power whole : Nat}
    (hle : significand * 10 ^ left ≤ whole)
    (h : (whole : ℚ) * 10 ^ ((power : Int) - left) ≤ safeLimit) :
    2 * (significand * Nat.pow 10 power * Nat.pow 2 Binary64.unitPower) ≤
      (2 ^ 54 - 5) * 2 ^ Binary64.maxPower := by
  have hunit : (0 : ℚ) < (2 * Nat.pow 2 Binary64.unitPower : Nat) :=
    Nat.cast_pos.mpr (Nat.mul_pos two_pos Binary64.unit_pos)
  have hscaled : (significand : ℚ) * 10 ^ power ≤ safeLimit := by
    calc (significand : ℚ) * 10 ^ power
        = significand * 10 ^ left * 10 ^ ((power : Int) - left) := by
          rw [mul_assoc, ← zpow_natCast 10 left, ← zpow_add₀ (by norm_num), add_sub_cancel,
            zpow_natCast]
      _ ≤ whole * 10 ^ ((power : Int) - left) := by
          gcongr
          exact_mod_cast hle
      _ ≤ safeLimit := h
  unfold safeLimit at hscaled
  rw [le_div_iff₀ hunit] at hscaled
  have hnat : significand * 10 ^ power * (2 * Nat.pow 2 Binary64.unitPower) ≤
      (2 ^ 54 - 5) * 2 ^ Binary64.maxPower := by
    exact_mod_cast hscaled
  rwa [Nat.mul_left_comm] at hnat

/-- How a literal with a point or an exponent is read. -/
theorem ofLiteral?_of_parts {l : Literal} (hwhole : Text.digitsValue l.whole ≤ significandLimit)
    (hparts : ¬(l.fraction = none ∧ l.exponent = none)) : ofLiteral? l =
      have taken := takeDigits (l.fraction.getD []) (Text.digitsValue l.whole)
      (scale? taken.1 (exponentValue l.exponent - taken.2)).map fun x =>
        .double { x with negative := l.negative } := by
  obtain ⟨negative, whole, fraction, exponent⟩ := l
  have hexponent : ∀ places : Nat, ((0 : Nat) : Int) - places + exponentValue exponent =
      exponentValue exponent - places := by
    omega
  unfold ofLiteral?
  dsimp only at hwhole hparts ⊢
  rw [takeDigits_eq hwhole]
  dsimp only
  rw [Nat.sub_self, Option.map_eq_bind]
  split
  · exact absurd ⟨rfl, rfl⟩ hparts
  · rw [hexponent]
    rfl

theorem exists_ofLiteral?_of_whole (negative : Bool) {whole : List Char}
    (h : Text.digitsValue whole ≤ significandLimit) :
    ∃ n, ofLiteral? ⟨negative, whole, none, none⟩ = some n := by
  obtain ⟨x, hx⟩ := exists_ofNat?_of_le h
  rw [ofLiteral?_whole negative h, hx]
  split
  · exact ⟨_, rfl⟩
  · split <;> exact ⟨_, rfl⟩

/-- A literal is accepted if its value stays a little below the greatest double. -/
theorem exists_ofLiteral?_of_le {l : Literal}
    (hwhole : Text.digitsValue l.whole ≤ significandLimit) (h : |l.value| ≤ safeLimit) :
    ∃ n, ofLiteral? l = some n := by
  by_cases hparts : l.fraction = none ∧ l.exponent = none
  · obtain ⟨negative, whole, fraction, exponent⟩ := l
    obtain ⟨rfl, rfl⟩ := hparts
    exact exists_ofLiteral?_of_whole negative hwhole
  · rw [ofLiteral?_of_parts hwhole hparts]
    dsimp only
    have hlimit := takeDigits_le (l.fraction.getD []) hwhole
    obtain ⟨left, hlength, hle⟩ := takeDigits_mul_le (l.fraction.getD []) (Text.digitsValue l.whole)
    rw [← digitsValue_append] at hle
    -- the digits that are not taken make the value larger only
    replace h : (Text.digitsValue l.digits : ℚ) *
        10 ^ (exponentValue l.exponent - (l.fraction.getD []).length) ≤ safeLimit := by
      rwa [← Literal.abs_value]
    rw [Literal.digits, hlength] at h
    generalize takeDigits (l.fraction.getD []) (Text.digitsValue l.whole) = taken at *
    obtain ⟨significand, places⟩ := taken
    dsimp only at *
    suffices hscale : ∃ x, scale? significand (exponentValue l.exponent - places) = some x by
      obtain ⟨x, hx⟩ := hscale
      exact ⟨_, congrArg (Option.map _) hx⟩
    by_cases hneg : exponentValue l.exponent - places < 0
    · exact exists_scale?_of_neg hlimit hneg
    · obtain ⟨power, hpower⟩ := Int.eq_ofNat_of_zero_le (Int.not_lt.mp hneg)
      rw [hpower]
      refine exists_scale?_of_le (le_of_magnitude_le hle ?_)
      rwa [← hpower, sub_sub, ← Nat.cast_add]

end JsonNumber

end PackageRelease
