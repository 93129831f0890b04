import Mathlib.Data.List.DropRight
import PackageRelease.Proofs.Json.Accepting

/-! # What the digits of a double come to

  The text of a double says a number that is read as the double when it is rounded once. The reader
  rounds more than once and can come to a neighbour, but it always comes to a double: what the text
  says is below the greatest double by more than the reader loses, and the two greatest doubles,
  where this is not so, are read.
-/

namespace PackageRelease

open Text (isDigit digitValue digitsValue)

/-! ### Zeros -/

namespace Text

theorem digitsValue_zeros_append (count : Nat) (cs : List Char) :
    digitsValue (List.replicate count '0' ++ cs) = digitsValue cs := by
  induction count with
  | zero => rfl
  | succ count ih => exact ih

theorem digitsValue_append_zeros (cs : List Char) (count : Nat) :
    digitsValue (cs ++ List.replicate count '0') = digitsValue cs * 10 ^ count := by
  induction count with
  | zero => rw [List.replicate_zero, List.append_nil, pow_zero, Nat.mul_one]
  | succ count ih =>
    rw [List.replicate_succ', ← List.append_assoc, JsonNumber.digitsValue_append, ih, pow_succ,
      ← Nat.mul_assoc, Nat.mul_comm _ 10]
    rfl

theorem digitValue_le {c : Char} (h : isDigit c = true) : digitValue c ≤ 9 := by
  unfold isDigit at h
  rw [Bool.and_eq_true, decide_eq_true_iff, decide_eq_true_iff] at h
  have hle : c.toNat ≤ 57 := h.2
  have hzero : '0'.toNat = 48 := rfl
  unfold digitValue
  omega

theorem digitsValue_lt {cs : List Char} (h : ∀ c ∈ cs, isDigit c = true) :
    digitsValue cs < 10 ^ cs.length := by
  induction cs using List.reverseRecOn with
  | nil => exact Nat.one_pos
  | append_singleton cs c ih =>
    obtain ⟨hcs, hc⟩ := List.forall_mem_append.mp h
    have hlt := ih hcs
    have hle := digitValue_le (hc c List.mem_cons_self)
    rw [JsonNumber.digitsValue_append, List.length_append, List.length_singleton, pow_succ]
    show 10 * digitsValue cs + digitValue c < _
    omega

end Text

/-! ### Decimals -/

namespace Decimal

/-- The number that a decimal stands for. -/
def value (d : Decimal) : ℚ := digitsValue d.digits * 10 ^ (d.point - d.digits.length)

theorem exponentValue_exponent (d : Decimal) :
    JsonNumber.exponentValue (some d.exponent) = d.point - 1 := by
  unfold exponent
  by_cases hneg : d.point - 1 < 0
  · rw [decide_eq_true hneg, JsonNumber.exponentValue, JsonNumber.digitsValue_toDigits]
    omega
  · rw [decide_eq_false hneg, JsonNumber.exponentValue, JsonNumber.digitsValue_toDigits]
    omega

/-- A decimal keeps its value in every layout. -/
theorem abs_value_literal {d : Decimal} (hne : d.digits ≠ []) (layout : DecimalLayout)
    (negative : Bool) : |(d.literal layout negative).value| = d.value := by
  rw [JsonNumber.Literal.abs_value]
  unfold literal JsonNumber.Literal.digits value
  dsimp only
  split
  · split
    · next hpoint =>
      -- the zeros behind the point are counted as places
      have hdigits : ['0'] ++ (List.replicate (-d.point).toNat '0' ++ d.digits) =
          List.replicate (1 + (-d.point).toNat) '0' ++ d.digits := by
        rw [List.replicate_add, List.append_assoc]
        rfl
      rw [Option.getD_some, hdigits, Text.digitsValue_zeros_append, List.length_append,
        List.length_replicate, JsonNumber.exponentValue]
      congr 2
      omega
    · split
      · next hlength =>
        have hdigits : d.digits ++ List.replicate (d.point - d.digits.length).toNat '0' ++ ['0'] =
            d.digits ++ List.replicate ((d.point - d.digits.length).toNat + 1) '0' := by
          rw [List.replicate_succ', List.append_assoc]
        rw [Option.getD_some, hdigits, Text.digitsValue_append_zeros, JsonNumber.exponentValue,
          List.length_singleton, Nat.cast_mul, Nat.cast_pow, mul_assoc, ← zpow_natCast,
          Nat.cast_ofNat, ← zpow_add₀ (by norm_num)]
        congr 2
        omega
      · rw [Option.getD_some, List.take_append_drop, List.length_drop, JsonNumber.exponentValue]
        congr 2
        omega
  · split
    · next heq => exact absurd heq hne
    · next c heq =>
      dsimp only
      rw [exponentValue_exponent, heq, Option.getD_none, List.append_nil, List.length_nil,
        List.length_singleton, Nat.cast_zero, sub_zero, Nat.cast_one]
    · next c rest hrest heq =>
      dsimp only
      rw [exponentValue_exponent, heq, Option.getD_some, List.length_cons, sub_sub, add_comm 1,
        Nat.cast_succ]
      rfl

/-- Dropping the zeros at the end of digits keeps what they stand for. -/
theorem value_ofDigits (digits : List Char) (point : Int) :
    (ofDigits digits point).value = digitsValue digits * 10 ^ (point - digits.length) := by
  have hkept : (ofDigits digits point).digits = digits.rdropWhile (· == '0') := rfl
  -- what is dropped are zeros
  have hdropped : digits = digits.rdropWhile (· == '0') ++
      List.replicate (digits.rtakeWhile (· == '0')).length '0' := by
    have hzeros := List.eq_replicate_of_mem fun c hc =>
      eq_of_beq (@List.mem_rtakeWhile_imp _ (· == '0') digits c hc)
    rw [← hzeros]
    unfold List.rdropWhile List.rtakeWhile
    rw [← List.reverse_append, List.takeWhile_append_dropWhile, List.reverse_reverse]
  unfold value
  rw [hkept]
  generalize digits.rdropWhile (· == '0') = kept at *
  generalize (digits.rtakeWhile (· == '0')).length = count at *
  subst hdropped
  rw [Text.digitsValue_append_zeros, List.length_append, List.length_replicate, Nat.cast_mul,
    Nat.cast_pow, mul_assoc, ← zpow_natCast, Nat.cast_ofNat, ← zpow_add₀ (by norm_num)]
  congr 2
  show point - kept.length = _
  omega

/-- In a layout with no more than sixteen digits in front of the point these fit in 64 bits. -/
theorem digitsValue_whole_le {d : Decimal} (h : d.IsNormal) (negative : Bool) :
    digitsValue (d.literal JsonNumber.doubleLayout negative).whole ≤
      JsonNumber.significandLimit := by
  have hdigits := (isWritten_literal h JsonNumber.doubleLayout negative).whole.2
  have hlength : (d.literal JsonNumber.doubleLayout negative).whole.length ≤ 16 := by
    unfold literal JsonNumber.doubleLayout
    dsimp only
    split
    · split
      · simp
      · split
        · simp
          omega
        · simp
          omega
    · split <;> simp
  have hlt := Text.digitsValue_lt hdigits
  have hle := Nat.pow_le_pow_right (show 0 < 10 by decide) hlength
  rw [JsonNumber.significandLimit_eq]
  omega

end Decimal

namespace Binary64

variable {x : Binary64} {count n : Nat}

theorem value_gridPoint (x : Binary64) (count n : Nat) :
    (x.gridPoint count n).value = n * 10 ^ (-x.places count) := by
  unfold gridPoint
  rw [Decimal.value_ofDigits, JsonNumber.digitsValue_toDigits]
  congr 2
  omega

/-- What is read as a double is above it by half of its last place at most. -/
theorem le_of_covers (h : x.covers count n = true) : (n : ℚ) * 10 ^ (-x.places count) ≤
    ((2 * x.significand + 1) * 2 ^ x.power : Nat) / (2 * Nat.pow 2 unitPower : Nat) := by
  have hle : n * x.gridUnit count ≤ (4 * x.significand + 2) * x.quarter count := by
    unfold covers at h
    dsimp only at h
    split at h
    · exact (of_decide_eq_true h).2
    · exact Nat.le_of_lt (of_decide_eq_true h).2
  -- one of the two powers of ten is one, so their quotient is the power of ten of the place
  have htens : (10 : ℚ) ^ (-x.places count) =
      10 ^ (-x.places count).toNat / 10 ^ (x.places count).toNat := by
    rw [← zpow_natCast, ← zpow_natCast, ← zpow_sub₀ (by norm_num)]
    congr 1
    omega
  have hunit : (0 : ℚ) < (2 * Nat.pow 2 unitPower : Nat) :=
    Nat.cast_pos.mpr (Nat.mul_pos two_pos unit_pos)
  unfold gridUnit quarter at hle
  rw [htens, mul_div_assoc', div_le_div_iff₀ (by positivity) hunit]
  generalize Nat.pow 2 unitPower = one at *
  have hscaled : n * 10 ^ (-x.places count).toNat * (2 * one) ≤
      (2 * x.significand + 1) * 2 ^ x.power * 10 ^ (x.places count).toNat := by
    simp only [Nat.pow_eq] at hle
    linarith
  exact_mod_cast hscaled

/-- The shortest digits of a double stand for a number that is above it by half of its last place at
    most. -/
theorem value_shortest_le (x : Binary64) : x.shortest.value ≤
    ((2 * x.significand + 1) * 2 ^ x.power : Nat) / (2 * Nat.pow 2 unitPower : Nat) := by
  unfold shortest
  cases hfound : (List.range 17).findSome? fun k => x.candidate? (k + 1) with
  | none =>
    rw [Option.getD_none, Decimal.value, show digitsValue ['0'] = 0 from rfl, Nat.cast_zero,
      zero_mul]
    exact div_nonneg (Nat.cast_nonneg _) (Nat.cast_nonneg _)
  | some d =>
    obtain ⟨k, -, hk⟩ := List.exists_of_findSome?_eq_some hfound
    obtain ⟨n, hcovers, rfl⟩ := covers_of_candidate? hk
    rw [Option.getD_some, value_gridPoint]
    exact le_of_covers hcovers

end Binary64

/-! ### Spelled numbers -/

namespace JsonNumber

/-- Whether a number has a text that is read: a whole number has 64 bits, a double is within its
    range. -/
def IsReadable : JsonNumber → Prop
  | .integer i => InRange (.integer i)
  | .double x => x.IsFinite

/-- The two greatest doubles are read, although what they are written as is above the limit. -/
theorem isSome_ofLiteral?_greatest : ∀ negative, ∀ k < 2,
    (ofLiteral? (spelling (.double ⟨negative, 2 ^ 53 - 1 - k, Binary64.maxPower⟩))).isSome =
      true := by
  decide +kernel

/-- What is read as a double is below the limit, unless this is one of the two greatest. -/
theorem le_safeLimit {x : Binary64} (hx : x.IsFinite)
    (hless : x.power < Binary64.maxPower ∨ x.significand + 3 ≤ 2 ^ 53) :
    (((2 * x.significand + 1) * 2 ^ x.power : Nat) / (2 * Nat.pow 2 Binary64.unitPower : Nat) : ℚ) ≤
      safeLimit := by
  have hle : (2 * x.significand + 1) * 2 ^ x.power ≤ (2 ^ 54 - 5) * 2 ^ Binary64.maxPower := by
    obtain ⟨hsignificand, hpower⟩ := hx
    generalize Binary64.maxPower = greatest at *
    rcases hless with hless | hless
    · -- with a lesser last place it is less than half of the greatest one
      have hdouble : 2 ^ (x.power + 1) ≤ 2 ^ greatest := Nat.pow_le_pow_right two_pos hless
      calc (2 * x.significand + 1) * 2 ^ x.power ≤ (2 ^ 54 - 5) * 2 * 2 ^ x.power :=
            Nat.mul_le_mul_right _ (by omega)
        _ = (2 ^ 54 - 5) * 2 ^ (x.power + 1) := by rw [pow_succ' 2 x.power, Nat.mul_assoc]
        _ ≤ (2 ^ 54 - 5) * 2 ^ greatest := Nat.mul_le_mul_left _ hdouble
    · exact Nat.mul_le_mul (by omega) (Nat.pow_le_pow_right two_pos hpower)
  exact div_le_div_of_nonneg_right (Nat.cast_le.mpr hle) (Nat.cast_nonneg _)

/-- What is written for a number is read as a number. -/
theorem exists_ofLiteral?_spelling {n : JsonNumber} (h : n.IsReadable) :
    ∃ m, ofLiteral? n.spelling = some m := by
  cases n with
  | integer i =>
    have hlimit : i.natAbs ≤ significandLimit := by
      have hrange := inRange_integer_iff.mp h
      rw [significandLimit_eq]
      omega
    exact exists_ofLiteral?_of_whole _ (by rwa [digitsValue_toDigits])
  | double x =>
    by_cases hless : x.power < Binary64.maxPower ∨ x.significand + 3 ≤ 2 ^ 53
    · cases hzero : x.isZero with
      | true =>
        refine exists_ofLiteral?_of_le ?_ ?_
        · rw [spelling, if_pos hzero]
          exact Nat.zero_le _
        · rw [value_spelling_zero hzero, abs_zero]
          exact div_nonneg (Nat.cast_nonneg _) (Nat.cast_nonneg _)
      | false =>
        have hnormal := Binary64.isNormal_shortest hzero
        rw [spelling, hzero, if_neg Bool.false_ne_true]
        refine exists_ofLiteral?_of_le (Decimal.digitsValue_whole_le hnormal _) ?_
        rw [Decimal.abs_value_literal hnormal.nonempty]
        exact (Binary64.value_shortest_le x).trans (le_safeLimit h hless)
    · obtain ⟨negative, significand, power⟩ := x
      obtain ⟨hsignificand, hpower⟩ := h
      rw [not_or, not_lt, not_le] at hless
      dsimp only at hsignificand hpower hless
      have hgreatest := isSome_ofLiteral?_greatest negative (2 ^ 53 - 1 - significand) (by omega)
      rw [show 2 ^ 53 - 1 - (2 ^ 53 - 1 - significand) = significand by omega,
        ← Nat.le_antisymm hpower hless.1] at hgreatest
      exact Option.isSome_iff_exists.mp hgreatest

end JsonNumber

end PackageRelease
