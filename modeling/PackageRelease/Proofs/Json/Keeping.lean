import Mathlib.Tactic.Linarith
import Mathlib.Tactic.NormNum
import Mathlib.Tactic.Ring
import PackageRelease.Proofs.Json.Spelling

/-! # Numbers that keep their value

  A number is kept if the text that is printed for it has the value that the text had which was
  read. A whole number of up to 64 bits is kept, because it is read exactly.
-/

namespace PackageRelease.JsonNumber

/-! ### Respelling -/

namespace Literal

/-- How a number is spelled when it has been read and is printed again. -/
def respelling (l : Literal) : Literal := l.number.spelling

/-- Whether a number that was read and printed again has the value that it had. -/
def IsKept (l : Literal) : Prop := l.respelling.value = l.value

/-- Whether a number is written without a point and an exponent and fits in 64 bits. -/
structure IsWord (l : Literal) : Prop where
  fraction_eq : l.fraction = none
  exponent_eq : l.exponent = none
  le_value : -9223372036854775808 ≤ l.value
  value_le : l.value ≤ 18446744073709551615

end Literal

/-! ### Whole numbers -/

theorem digitsValue_toDigits (n : Nat) : Text.digitsValue (Nat.toDigits 10 n) = n := by
  have := Nat.ofDigitChars_ten_toDigits (n := n)
  rwa [Nat.ofDigitChars_eq_foldl] at this

theorem Literal.value_eq (negative : Bool) (whole : List Char) :
    value ⟨negative, whole, none, none⟩ =
      (if negative then -1 else 1) * (Text.digitsValue whole : ℚ) := by
  simp [value, digits, exponentValue]

theorem value_spelling_integer (i : Int) : (JsonNumber.integer i).spelling.value = i := by
  rw [spelling, Literal.value_eq, digitsValue_toDigits, ← Int.cast_natCast]
  by_cases hi : i < 0
  · rw [if_pos (decide_eq_true hi), show (i.natAbs : Int) = -i by omega, Int.cast_neg]
    ring
  · rw [if_neg (by simpa using hi), show (i.natAbs : Int) = i by omega, one_mul]

theorem value_spelling_zero {x : Binary64} (hx : x.isZero = true) :
    (JsonNumber.double x).spelling.value = 0 := by
  rw [spelling, if_pos hx, Literal.value]
  simp [Literal.digits, Text.digitsValue, Text.digitValue]

/-- Digits that fit in 64 bits are read to the last one. -/
theorem ofLiteral?_whole {whole : List Char} (negative : Bool)
    (h : Text.digitsValue whole ≤ significandLimit) :
    ofLiteral? ⟨negative, whole, none, none⟩ =
      if !negative then some (.integer (Text.digitsValue whole))
      else if 0 < Text.digitsValue whole ∧ Word.holdsSigned 64 (-Text.digitsValue whole) = true then
        some (.integer (-Text.digitsValue whole))
      else (Binary64.ofNat? (Text.digitsValue whole)).map fun x =>
        .double { x with negative := true } := by
  unfold ofLiteral?
  dsimp only
  rw [takeDigits_eq h]
  dsimp only
  rw [if_pos (Nat.sub_self _), Option.map_eq_bind]
  rfl

/-- A whole number of up to 64 bits is kept. -/
theorem Literal.isKept_of_isWord {l : Literal} (h : l.IsWord) : l.IsKept := by
  obtain ⟨negative, whole, fraction, exponent⟩ := l
  obtain ⟨rfl, rfl, hle, hge⟩ := h
  rw [value_eq] at hle hge
  unfold IsKept respelling number
  rw [value_eq]
  generalize hn : Text.digitsValue whole = n at hle hge
  cases negative with
  | false =>
    rw [if_neg Bool.false_ne_true, one_mul] at hge
    have hlimit : n ≤ significandLimit := by
      rw [significandLimit_eq]
      exact_mod_cast hge
    rw [ofLiteral?_whole false (hn ▸ hlimit), hn]
    simp [value_spelling_integer]
  | true =>
    rw [if_pos rfl, neg_one_mul] at hle
    have hlimit : n ≤ 9223372036854775808 := by
      have := neg_le_neg hle
      rw [neg_neg, neg_neg] at this
      exact_mod_cast this
    rw [ofLiteral?_whole true (by rw [hn, significandLimit_eq]; omega), hn]
    rcases Nat.eq_zero_or_pos n with rfl | hpos
    · -- zero keeps its sign, but that has no value
      have hzero : Binary64.ofNat? 0 = some (Binary64.zero false) := by decide +kernel
      rw [if_neg (by decide), if_neg (by simp), hzero]
      exact (value_spelling_zero rfl).trans (by simp)
    · have hsigned : Word.holdsSigned 64 (-n) = true := Word.holdsSigned_iff.mpr (by omega)
      rw [if_neg (by decide), if_pos ⟨hpos, hsigned⟩]
      simp [value_spelling_integer]

end PackageRelease.JsonNumber
