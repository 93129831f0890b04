/-! # Words

  A word has a fixed number of bits. Without a sign it holds the numbers from zero up; with a sign
  as many negative numbers as others. A sum that no word holds is no word.
-/

namespace PackageRelease.Word

/-- How many numbers a word tells apart. -/
def count (bits : Nat) : Nat := Nat.pow 2 bits

/-- The greatest number in a word without a sign. -/
def greatest (bits : Nat) : Int := (count bits : Int) - 1

/-- The greatest number in a word with a sign. -/
def greatestSigned (bits : Nat) : Int := (count (bits - 1) : Int) - 1

/-- The least number in a word with a sign. -/
def leastSigned (bits : Nat) : Int := -(count (bits - 1) : Int)

/-- Whether a word without a sign holds a number. -/
def holds (bits : Nat) (n : Int) : Bool := 0 ≤ n ∧ n ≤ greatest bits

/-- Whether a word with a sign holds a number. -/
def holdsSigned (bits : Nat) (n : Int) : Bool := leastSigned bits ≤ n ∧ n ≤ greatestSigned bits

/-! ### Sums -/

/-- The sum of two words, if 32 bits hold it. -/
def add? (a b : UInt32) : Option UInt32 :=
  if a.toNat + b.toNat < count 32 then some (a + b) else none

theorem count_eq : count 32 = UInt32.size := rfl

theorem add?_eq_some_iff {a b c : UInt32} : add? a b = some c ↔ c.toNat = a.toNat + b.toNat := by
  have hc := c.toNat_lt_size
  unfold add?
  rw [count_eq]
  split
  · next hfits =>
    have hsum : (a + b).toNat = a.toNat + b.toNat := by
      rw [UInt32.toNat_add]
      exact Nat.mod_eq_of_lt hfits
    rw [Option.some.injEq, ← UInt32.toNat_inj, hsum]
    exact eq_comm
  · next hlarge =>
    simp only [reduceCtorEq, false_iff]
    omega

theorem add?_eq_none_iff {a b : UInt32} :
    add? a b = none ↔ UInt32.size ≤ a.toNat + b.toNat := by
  unfold add?
  rw [count_eq]
  simp

end PackageRelease.Word
