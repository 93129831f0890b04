import Mathlib.Algebra.Order.Ring.Nat
import Mathlib.Data.Option.Basic
import PackageRelease.Archive.Gzip

/-! # Compressed files

  A compressed file is read back as what was compressed. The key idea: a block says how many octets
  it holds, so reading takes exactly these and goes on behind them, and the induction is on the
  number of full blocks. What is left behind the last block is the trailer, which is the same again
  because it is computed from the content.
-/

namespace PackageRelease.Gzip

/-! ### Numbers -/

theorem length_littleEndian (width n : Nat) : (littleEndian width n).length = width := by
  induction width generalizing n with
  | zero => rfl
  | succ width ih => exact congrArg (· + 1) (ih (n / 256))

/-- Octets denote the number that they are written for, as far as it fits. -/
theorem ofLittleEndian_littleEndian {width n : Nat} (h : n < 256 ^ width) :
    ofLittleEndian (littleEndian width n) = n := by
  induction width generalizing n with
  | zero =>
    rw [Nat.pow_zero] at h
    have hzero : n = 0 := by omega
    exact hzero.symm
  | succ width ih =>
    have hrest : n / 256 < 256 ^ width := by
      apply (Nat.div_lt_iff_lt_mul (by decide)).mpr
      rwa [← Nat.pow_succ]
    have hoctet : (UInt8.ofNat (n % 256)).toNat = n % 256 := by
      simp [UInt8.toNat_ofNat']
    rw [littleEndian, ofLittleEndian, ih hrest, hoctet]
    omega

/-- A length of two octets is read back. -/
theorem exists_littleEndian_two {n : Nat} (h : n ≤ maxBlock) :
    ∃ a b, littleEndian 2 n = [a, b] ∧ ofLittleEndian [a, b] = n := by
  refine ⟨_, _, rfl, @ofLittleEndian_littleEndian 2 n ?_⟩
  exact Nat.lt_of_le_of_lt h (by decide)

/-! ### Blocks -/

section blocks
variable {content : Bytes} {fuel count : Nat}

/-- What the front of a block is read as. -/
theorem exists_block (h : content.length ≤ maxBlock) (last : Bool) (rest : Bytes) :
    ∃ l0 l1 n0 n1, block last content ++ rest =
        (if last then 1 else 0) :: l0 :: l1 :: n0 :: n1 :: (content ++ rest) ∧
      ofLittleEndian [l0, l1] = content.length ∧
      ofLittleEndian [n0, n1] = 65535 - content.length := by
  obtain ⟨l0, l1, hlength, hread⟩ := exists_littleEndian_two h
  obtain ⟨n0, n1, hcheck, hreadCheck⟩ :=
    exists_littleEndian_two (n := 65535 - content.length) (Nat.sub_le _ _)
  refine ⟨l0, l1, n0, n1, ?_, hread, hreadCheck⟩
  unfold block
  rw [hlength, hcheck]
  simp only [List.cons_append, List.nil_append]

/-- The two lengths of a block agree, and all of its octets are there. -/
theorem guard_block (content rest : Bytes) :
    (guard (65535 - content.length = 65535 - content.length ∧
      content.length ≤ (content ++ rest).length) : Option Unit) = some () := by
  refine (Option.guard_eq_some' ()).mpr ⟨rfl, ?_⟩
  rw [List.length_append]
  exact Nat.le_add_right _ _

/-- Behind a last block nothing is read. -/
theorem readBlocks?_last (h : content.length ≤ maxBlock) (fuel : Nat) (rest : Bytes) :
    readBlocks? (fuel + 1) (block true content ++ rest) = some (content, rest) := by
  obtain ⟨l0, l1, n0, n1, hblock, hlength, hcheck⟩ := exists_block h true rest
  rw [hblock, readBlocks?, hlength, hcheck, guard_block]
  simp only [Option.bind_eq_bind, Option.bind_some, List.take_left, List.drop_left]
  rfl

/-- Behind any other block, reading goes on. -/
theorem readBlocks?_further (h : content.length ≤ maxBlock) (fuel : Nat) (rest : Bytes) :
    readBlocks? (fuel + 1) (block false content ++ rest) =
      (readBlocks? fuel rest).map fun (further, rest') => (content ++ further, rest') := by
  obtain ⟨l0, l1, n0, n1, hblock, hlength, hcheck⟩ := exists_block h false rest
  rw [hblock, readBlocks?, hlength, hcheck, guard_block]
  simp only [Bool.false_eq_true, if_false, Option.bind_eq_bind, Option.bind_some,
    List.take_left, List.drop_left]
  cases readBlocks? fuel rest <;> rfl

/-- A content that fits in its blocks is read back from them. -/
theorem readBlocks?_blocks (h : content.length ≤ (count + 1) * maxBlock) (hfuel : count < fuel)
    (rest : Bytes) : readBlocks? fuel (blocks count content ++ rest) = some (content, rest) := by
  induction count generalizing content fuel with
  | zero =>
    obtain ⟨fuel, rfl⟩ := Nat.exists_eq_add_one_of_ne_zero (Nat.ne_of_gt hfuel)
    rw [Nat.zero_add, Nat.one_mul] at h
    exact readBlocks?_last h fuel rest
  | succ count ih =>
    obtain ⟨fuel, rfl⟩ := Nat.exists_eq_add_one_of_ne_zero (Nat.ne_of_gt (Nat.zero_lt_of_lt hfuel))
    have hfull : (content.take maxBlock).length ≤ maxBlock := by
      rw [List.length_take]
      exact Nat.min_le_left _ _
    have hleft : (content.drop maxBlock).length ≤ (count + 1) * maxBlock := by
      rw [Nat.succ_mul] at h
      rw [List.length_drop]
      omega
    rw [blocks, List.append_assoc, readBlocks?_further hfull,
      ih hleft (Nat.lt_of_succ_lt_succ hfuel), Option.map_some]
    dsimp only
    rw [List.take_append_drop]

theorem length_block (last : Bool) (content : Bytes) :
    (block last content).length = content.length + 5 := by
  unfold block
  simp only [List.length_append, List.length_cons, length_littleEndian]
  omega

/-- Every block takes some octets, so there is fuel for all of them. -/
theorem lt_length_blocks (count : Nat) (content : Bytes) :
    count < (blocks count content).length := by
  induction count generalizing content with
  | zero =>
    rw [blocks, length_block]
    omega
  | succ count ih =>
    have hrest := ih (content.drop maxBlock)
    rw [blocks, List.length_append, length_block]
    omega

end blocks

/-! ### Files -/

/-- What is compressed is read back. -/
theorem decompress?_compress (content : Bytes) : decompress? (compress content) = some content := by
  have hlength : content.length ≤ ((content.length - 1) / maxBlock + 1) * maxBlock := by
    unfold maxBlock
    omega
  have hfuel : (content.length - 1) / maxBlock < (compress content).length := by
    have hblocks := lt_length_blocks ((content.length - 1) / maxBlock) content
    unfold compress
    rw [List.length_append, List.length_append]
    omega
  have hdrop : (compress content).drop header.length =
      blocks ((content.length - 1) / maxBlock) content ++ trailer content := by
    unfold compress
    rw [List.append_assoc, List.drop_left]
  have htake : (compress content).take header.length = header := by
    unfold compress
    rw [List.append_assoc, List.take_left]
  unfold decompress?
  rw [htake, hdrop, readBlocks?_blocks hlength hfuel]
  simp only [Option.bind_eq_bind, Option.bind_some]
  rfl

end PackageRelease.Gzip
