import Mathlib.Tactic.Linarith
import Mathlib.Tactic.Ring
import PackageRelease.Number.Binary64

/-! # Rounding to a double

  Rounding keeps 53 binary places and changes a number by half of the last one at most. The key
  idea: the rest is small against the number, so a product or a quotient of rounded numbers is a
  double unless the exact one comes to the end of the range.

  All magnitudes are counted in units of `1 / 2 ^ 1074`.
-/

namespace PackageRelease.Binary64

/-- Whether a number is within the range of doubles. -/
structure IsFinite (x : Binary64) : Prop where
  /-- There are no more places than a double has. -/
  significand_lt : x.significand < 2 ^ 53
  /-- The last place is not above the greatest one. -/
  power_le : x.power ≤ maxPower

theorem unit_pos : 0 < Nat.pow 2 unitPower := by
  rw [Nat.pow_eq]
  exact Nat.pow_pos two_pos

theorem units_mk (negative : Bool) (significand power : Nat) :
    units ⟨negative, significand, power⟩ = significand * 2 ^ power := rfl

/-! ### Rounding a quotient -/

/-- A rounded quotient is off by a half at most. -/
theorem roundQuotient_spec (num : Nat) {den : Nat} (h : 0 < den) :
    2 * (roundQuotient num den * den) ≤ 2 * num + den ∧
      2 * num ≤ 2 * (roundQuotient num den * den) + den := by
  have hsplit := Nat.div_add_mod' num den
  have hrest := Nat.mod_lt num h
  have hsucc : (num / den + 1) * den = num / den * den + den := Nat.succ_mul _ den
  unfold roundQuotient
  dsimp only
  split
  · omega
  · split
    · omega
    · split <;> omega

/-! ### The places that are kept -/

/-- How many binary places a number has. -/
def bitCount (n : Nat) : Nat := if n = 0 then 0 else n.log2 + 1

theorem lt_two_pow_bitCount (n : Nat) : n < 2 ^ bitCount n := by
  unfold bitCount
  split
  · next hzero =>
    rw [hzero]
    exact Nat.one_pos
  · exact Nat.lt_log2_self

theorem two_pow_le_of_lt_bitCount {n k : Nat} (h : k < bitCount n) : 2 ^ k ≤ n := by
  unfold bitCount at h
  split at h
  · exact absurd h (Nat.not_lt_zero k)
  · next hpos =>
    exact Nat.le_trans (Nat.pow_le_pow_right two_pos (Nat.lt_succ_iff.mp h)) (Nat.log2_self_le hpos)

theorem bitCount_le {n k : Nat} (h : n < 2 ^ k) : bitCount n ≤ k :=
  Nat.not_lt.mp fun hlt => Nat.not_le.mpr h (two_pow_le_of_lt_bitCount hlt)

/-- How many places of a quotient are dropped. -/
def droppedPlaces (scaled den : Nat) : Nat := bitCount (scaled / den) - 53

/-- The last place of a quotient that is kept. -/
def lastPlace (scaled den : Nat) : Nat := den * 2 ^ droppedPlaces scaled den

/-- The places of a quotient that are kept, after rounding. -/
def keptPlaces (scaled den : Nat) : Nat := roundQuotient scaled (lastPlace scaled den)

section places
variable (scaled : Nat) {den : Nat} (hden : 0 < den)
include hden

theorem lastPlace_pos : 0 < lastPlace scaled den := Nat.mul_pos hden (Nat.pow_pos two_pos)

theorem scaled_lt : scaled < 2 ^ 53 * lastPlace scaled den := by
  have hlt := lt_two_pow_bitCount (scaled / den)
  have hle : 2 ^ bitCount (scaled / den) ≤ 2 ^ (53 + droppedPlaces scaled den) := by
    refine Nat.pow_le_pow_right two_pos ?_
    unfold droppedPlaces
    omega
  have hscaled := (Nat.div_lt_iff_lt_mul hden).mp (Nat.lt_of_lt_of_le hlt hle)
  rw [pow_add] at hscaled
  unfold lastPlace
  rwa [Nat.mul_comm den, ← Nat.mul_assoc]

theorem le_scaled (h : 0 < droppedPlaces scaled den) :
    2 ^ 52 * lastPlace scaled den ≤ scaled := by
  have hlt : 52 + droppedPlaces scaled den < bitCount (scaled / den) := by
    unfold droppedPlaces at *
    omega
  have hscaled := (Nat.le_div_iff_mul_le hden).mp (two_pow_le_of_lt_bitCount hlt)
  rw [pow_add] at hscaled
  unfold lastPlace
  rwa [Nat.mul_comm den, ← Nat.mul_assoc]

theorem keptPlaces_le : keptPlaces scaled den ≤ 2 ^ 53 := by
  have hpos := lastPlace_pos scaled hden
  have hlt := scaled_lt scaled hden
  obtain ⟨hle, -⟩ := roundQuotient_spec scaled hpos
  by_contra hmore
  have hmul := Nat.mul_le_mul_right (lastPlace scaled den) (Nat.not_le.mp hmore)
  unfold keptPlaces at hmul
  rw [Nat.succ_mul] at hmul
  omega

end places

/-! ### What a quotient is rounded to -/

/-- The double with the places that are kept. If rounding needs one place more, the last one, which
    is zero, is dropped, too. -/
def keep? (negative : Bool) (scaled den : Nat) : Option Binary64 :=
  if keptPlaces scaled den = Nat.pow 2 53 then
    if maxPower < droppedPlaces scaled den + 1 then none
    else some ⟨negative, Nat.pow 2 52, droppedPlaces scaled den + 1⟩
  else if maxPower < droppedPlaces scaled den then none
  else some ⟨negative, keptPlaces scaled den, droppedPlaces scaled den⟩

theorem keep?_eq (negative : Bool) (scaled den : Nat) : keep? negative scaled den =
    have bits := if scaled / den = 0 then 0 else (scaled / den).log2 + 1
    have power := bits - 53
    have significand := roundQuotient scaled (den * Nat.pow 2 power)
    have (significand, power) :=
      if significand = Nat.pow 2 53 then (Nat.pow 2 52, power + 1) else (significand, power)
    if maxPower < power then none else some ⟨negative, significand, power⟩ := by
  show keep? negative scaled den =
    have (significand, power) :=
      if keptPlaces scaled den = Nat.pow 2 53 then (Nat.pow 2 52, droppedPlaces scaled den + 1)
      else (keptPlaces scaled den, droppedPlaces scaled den)
    if maxPower < power then none else some ⟨negative, significand, power⟩
  unfold keep?
  by_cases hcarry : keptPlaces scaled den = Nat.pow 2 53
  · rw [if_pos hcarry, if_pos hcarry]
  · rw [if_neg hcarry, if_neg hcarry]

-- the definition is opened before it is applied: otherwise its powers would be evaluated
theorem round?_def : round? = fun negative num den =>
    have scaled := num * Nat.pow 2 unitPower
    have bits := if scaled / den = 0 then 0 else (scaled / den).log2 + 1
    have power := bits - 53
    have significand := roundQuotient scaled (den * Nat.pow 2 power)
    have (significand, power) :=
      if significand = Nat.pow 2 53 then (Nat.pow 2 52, power + 1) else (significand, power)
    if maxPower < power then none else some ⟨negative, significand, power⟩ := by
  delta round?
  rfl

theorem round?_eq (negative : Bool) (num den : Nat) :
    round? negative num den = keep? negative (num * Nat.pow 2 unitPower) den := by
  rw [round?_def]
  exact (keep?_eq negative _ den).symm

section rounded
variable {negative : Bool} {num den : Nat} {x : Binary64}

theorem isFinite_of_round? (hden : 0 < den) (h : round? negative num den = some x) :
    x.IsFinite := by
  have hle := keptPlaces_le (num * Nat.pow 2 unitPower) hden
  rw [round?_eq] at h
  unfold keep? at h
  split at h
  · split at h
    · cases h
    · next hpower =>
      cases h
      exact ⟨(by decide : 2 ^ 52 < 2 ^ 53), Nat.not_lt.mp hpower⟩
  · next hkept =>
    split at h
    · cases h
    · next hpower =>
      cases h
      exact ⟨Nat.lt_of_le_of_ne hle hkept, Nat.not_lt.mp hpower⟩

theorem units_of_round? (h : round? negative num den = some x) : x.units =
    keptPlaces (num * Nat.pow 2 unitPower) den *
      2 ^ droppedPlaces (num * Nat.pow 2 unitPower) den := by
  rw [round?_eq] at h
  unfold keep? at h
  split at h
  · next hkept =>
    split at h
    · cases h
    · cases h
      rw [units_mk, hkept, pow_succ' _ (droppedPlaces _ den), ← Nat.mul_assoc]
  · split at h
    · cases h
    · cases h
      rfl

/-- A quotient is rounded to a double if it is above the greatest one by less than half of its last
    place. -/
theorem exists_round? (hden : 0 < den)
    (h : 2 * (num * Nat.pow 2 unitPower) < (2 ^ 54 - 1) * (den * 2 ^ maxPower)) :
    ∃ x, round? negative num den = some x := by
  rw [round?_eq]
  unfold keep?
  generalize num * Nat.pow 2 unitPower = scaled at h ⊢
  have hdropped : droppedPlaces scaled den ≤ maxPower := by
    have hlt : scaled / den < 2 ^ (53 + maxPower) := by
      rw [Nat.div_lt_iff_lt_mul hden, pow_add, Nat.mul_assoc, Nat.mul_comm _ den]
      omega
    have := bitCount_le hlt
    unfold droppedPlaces
    omega
  split
  · next hkept =>
    -- one place more is needed only next to the next power of two
    have hne : droppedPlaces scaled den ≠ maxPower := by
      intro heq
      obtain ⟨hle, -⟩ := roundQuotient_spec scaled (lastPlace_pos scaled hden)
      rw [show roundQuotient scaled (lastPlace scaled den) = 2 ^ 53 from hkept, lastPlace,
        heq] at hle
      omega
    rw [if_neg (by omega)]
    exact ⟨_, rfl⟩
  · rw [if_neg (Nat.not_lt.mpr hdropped)]
    exact ⟨_, rfl⟩

end rounded

/-! ### Natural numbers -/

section natural_numbers
variable {n : Nat} {x : Binary64}

/-- A natural number is changed by one part in `2 ^ 53` at most. -/
theorem near_of_ofNat? (h : ofNat? n = some x) :
    2 ^ 53 * x.units ≤ (2 ^ 53 + 1) * (n * Nat.pow 2 unitPower) ∧
      (2 ^ 53 - 1) * (n * Nat.pow 2 unitPower) ≤ 2 ^ 53 * x.units := by
  rw [units_of_round? h]
  generalize n * Nat.pow 2 unitPower = scaled
  have hlast : lastPlace scaled 1 = 2 ^ droppedPlaces scaled 1 := Nat.one_mul _
  obtain ⟨hle, hge⟩ := roundQuotient_spec scaled (lastPlace_pos scaled Nat.one_pos)
  have hkept : keptPlaces scaled 1 = roundQuotient scaled (lastPlace scaled 1) := rfl
  rw [← hkept, hlast] at hle hge
  rcases Nat.eq_zero_or_pos (droppedPlaces scaled 1) with hzero | hpos
  · -- no place is dropped, so the number is not changed
    rw [hzero] at hle hge ⊢
    omega
  · have hsmall := le_scaled scaled Nat.one_pos hpos
    rw [hlast] at hsmall
    omega

theorem isFinite_of_ofNat? (h : ofNat? n = some x) : x.IsFinite := isFinite_of_round? Nat.one_pos h

theorem exists_ofNat? (h : 2 * (n * Nat.pow 2 unitPower) < (2 ^ 54 - 1) * 2 ^ maxPower) :
    ∃ x, ofNat? n = some x :=
  exists_round? Nat.one_pos (by rwa [Nat.one_mul])

theorem units_pos_of_ofNat? (hpos : 0 < n) (h : ofNat? n = some x) : 0 < x.units := by
  obtain ⟨-, hge⟩ := near_of_ofNat? h
  have hscaled := Nat.mul_pos hpos unit_pos
  omega

/-- The powers of ten below the greatest double are doubles. -/
theorem exists_powerOfTen? {k : Nat} (h : k ≤ 308) :
    ∃ x, powerOfTen? k = some x ∧ (0 < k → Nat.pow 2 unitPower ≤ x.units) := by
  -- the exponent is kept apart: otherwise its power would be evaluated
  obtain ⟨most, hmost, hgreatest⟩ : ∃ most, most = 308 ∧
      2 * (Nat.pow 10 most * Nat.pow 2 unitPower) < (2 ^ 54 - 1) * 2 ^ maxPower :=
    ⟨308, rfl, by decide +kernel⟩
  have hle : Nat.pow 10 k ≤ Nat.pow 10 most := Nat.pow_le_pow_right (by decide) (hmost ▸ h)
  obtain ⟨x, hx⟩ := exists_ofNat? (Nat.lt_of_le_of_lt
    (Nat.mul_le_mul_left 2 (Nat.mul_le_mul_right (Nat.pow 2 unitPower) hle)) hgreatest)
  refine ⟨x, hx, fun hpos => ?_⟩
  obtain ⟨-, hge⟩ := near_of_ofNat? hx
  have hten : 10 ≤ Nat.pow 10 k := Nat.le_self_pow hpos.ne' 10
  have hmul := Nat.mul_le_mul_right (Nat.pow 2 unitPower) hten
  generalize Nat.pow 2 unitPower = one at *
  omega

end natural_numbers

/-! ### Products and quotients -/

section operations
variable {x y : Binary64}

theorem IsFinite.units_le (h : x.IsFinite) : x.units ≤ (2 ^ 53 - 1) * 2 ^ maxPower := by
  have hsignificand : x.significand ≤ 2 ^ 53 - 1 := Nat.le_pred_of_lt h.significand_lt
  have hpower := h.power_le
  unfold units
  rw [Nat.pow_eq]
  gcongr
  decide

/-- A double divided by a number that is one or more is a double. -/
theorem exists_div? (hx : x.IsFinite) (hy : Nat.pow 2 unitPower ≤ y.units) :
    ∃ z, x.div? y = some z ∧ z.IsFinite := by
  have hone := unit_pos
  have hpos : 0 < y.units := Nat.lt_of_lt_of_le hone hy
  have hunits := hx.units_le
  have hgreatest : 0 < 2 ^ maxPower := Nat.pow_pos two_pos
  have hlt : 2 * (x.units * Nat.pow 2 unitPower) < (2 ^ 54 - 1) * (y.units * 2 ^ maxPower) := by
    generalize Nat.pow 2 unitPower = one at hy
    generalize 2 ^ maxPower = greatest at hunits hgreatest
    calc 2 * (x.units * one) ≤ 2 * ((2 ^ 53 - 1) * greatest * y.units) := by gcongr
      _ = (2 ^ 54 - 2) * (y.units * greatest) := by ring
      _ < (2 ^ 54 - 1) * (y.units * greatest) :=
        Nat.mul_lt_mul_of_pos_right (by decide) (Nat.mul_pos hpos hgreatest)
  obtain ⟨z, hz⟩ := @exists_round? false _ _ hpos hlt
  exact ⟨z, hz, isFinite_of_round? hpos hz⟩

/-- The product of two rounded numbers is a double if the exact product is below the greatest one by
    one and a half of its last place. -/
theorem exists_mul? {m n : Nat} (hx : ofNat? m = some x) (hy : ofNat? n = some y)
    (h : 2 * (m * n * Nat.pow 2 unitPower) ≤ (2 ^ 54 - 5) * 2 ^ maxPower) :
    ∃ z, x.mul? y = some z := by
  obtain ⟨hxNear, -⟩ := near_of_ofNat? hx
  obtain ⟨hyNear, -⟩ := near_of_ofNat? hy
  have hone := unit_pos
  have hgreatest : 0 < 2 ^ maxPower := Nat.pow_pos two_pos
  refine exists_round? (Nat.mul_pos hone hone) ?_
  generalize Nat.pow 2 unitPower = one at *
  generalize 2 ^ maxPower = greatest at *
  -- both errors together are smaller than what is left to the end of the range
  refine Nat.lt_of_mul_lt_mul_left (a := 2 ^ 53 * 2 ^ 53) ?_
  calc 2 ^ 53 * 2 ^ 53 * (2 * (x.units * y.units * one))
      = 2 * one * ((2 ^ 53 * x.units) * (2 ^ 53 * y.units)) := by ring
    _ ≤ 2 * one * (((2 ^ 53 + 1) * (m * one)) * ((2 ^ 53 + 1) * (n * one))) := by gcongr
    _ = (2 ^ 53 + 1) ^ 2 * (one * one) * (2 * (m * n * one)) := by ring
    _ ≤ (2 ^ 53 + 1) ^ 2 * (one * one) * ((2 ^ 54 - 5) * greatest) := by gcongr
    _ = (2 ^ 53 + 1) ^ 2 * (2 ^ 54 - 5) * (one * one * greatest) := by ring
    _ < 2 ^ 53 * 2 ^ 53 * (2 ^ 54 - 1) * (one * one * greatest) :=
      Nat.mul_lt_mul_of_pos_right (by decide) (Nat.mul_pos (Nat.mul_pos hone hone) hgreatest)
    _ = 2 ^ 53 * 2 ^ 53 * ((2 ^ 54 - 1) * (one * one * greatest)) := by ring

end operations

end PackageRelease.Binary64
