import Mathlib.Data.List.Basic
import Mathlib.Tactic.Ring
import PackageRelease.Archive.Tar

/-! # Records of an archive read back

  What is written as a header with its content is read as that header with that content. The key
  idea: every field of a header has its width whatever it holds, so each field stands at its place,
  and the reader finds the size, the kind and the checksum that were written. From one record the
  reader goes on where the next one begins, so the records of a whole archive follow by induction.
-/

namespace PackageRelease

/-! ### Numbers in binary -/

namespace Digest

theorem length_bigEndian (width n : Nat) : (bigEndian width n).length = width := by
  induction width with
  | zero => rfl
  | succ width ih => rw [bigEndian, List.length_cons, ih]

/-- Octets denote the number that they are written for, as far as it fits. -/
theorem ofBigEndian_bigEndian {width n : Nat} (h : n < Nat.pow 256 width) :
    ofBigEndian (bigEndian width n) = n := by
  -- the octets in front count as much as the width behind them allows
  have hgeneral : ∀ front, (bigEndian width n).foldl (fun n b => 256 * n + b.toNat) front =
      front * 256 ^ width + n % 256 ^ width := by
    clear h
    induction width with
    | zero =>
      intro front
      simp [bigEndian, Nat.mod_one]
    | succ width ih =>
      intro front
      rw [bigEndian, List.foldl_cons, ih]
      have hoctet : (UInt8.ofNat (n / Nat.pow 256 width)).toNat = n / 256 ^ width % 256 := by
        simp [UInt8.toNat_ofNat']
      have hsplit := Nat.mod_mul (x := n) (a := 256 ^ width) (b := 256)
      rw [hoctet, Nat.pow_succ, hsplit]
      ring
  have hvalue := hgeneral 0
  have hmod : n % 256 ^ width = n := Nat.mod_eq_of_lt h
  rw [Nat.zero_mul, Nat.zero_add, hmod] at hvalue
  exact hvalue

end Digest

namespace Tar

/-! ### Numbers in fields -/

/-- The octet of a digit. -/
def digitOctet (c : Char) : UInt8 := UInt8.ofNat c.toNat

theorem toNat_digitOctet {c : Char} (h : c.toNat ≤ 0x37) : (digitOctet c).toNat = c.toNat := by
  unfold digitOctet
  rw [UInt8.toNat_ofNat']
  omega

theorem mem_toDigits {n : Nat} {c : Char} (h : c ∈ Nat.toDigits 8 n) :
    0x30 ≤ c.toNat ∧ c.toNat ≤ 0x37 := by
  induction n using Nat.strongRecOn with
  | ind n ih =>
    have hdigit : ∀ m < 8, 0x30 ≤ (Nat.digitChar m).toNat ∧ (Nat.digitChar m).toNat ≤ 0x37 := by
      decide
    rw [Nat.toDigits_eq_if (by decide)] at h
    split at h
    · next hsmall =>
      obtain rfl := List.mem_singleton.mp h
      exact hdigit n hsmall
    · rcases List.mem_append.mp h with hfront | hlast
      · exact ih (n / 8) (by omega) hfront
      · obtain rfl := List.mem_singleton.mp hlast
        exact hdigit (n % 8) (by omega)

theorem mem_padLeft {width n : Nat} {c : Char}
    (h : c ∈ Text.padLeft width (Nat.toDigits 8 n)) : 0x30 ≤ c.toNat ∧ c.toNat ≤ 0x37 := by
  rcases List.mem_append.mp h with hzero | hdigit
  · rw [List.eq_of_mem_replicate hzero]
    decide
  · exact mem_toDigits hdigit

theorem length_padLeft {width n : Nat} (hwidth : 0 < width) (h : n < 8 ^ width) :
    (Text.padLeft width (Nat.toDigits 8 n)).length = width := by
  have hlength := (Nat.length_toDigits_le_iff (by decide) hwidth).mpr h
  unfold Text.padLeft
  rw [List.length_append, List.length_replicate]
  omega

/-- A number takes the whole field. -/
theorem length_octal {width : Nat} (hwidth : 1 < width) (n : Nat) :
    (octal width n).length = width := by
  unfold octal
  split
  · next h =>
    have hlength := length_padLeft (by omega) h
    rw [List.length_append, List.length_map, hlength, List.length_singleton]
    omega
  · rw [List.length_cons, Digest.length_bigEndian]
    omega

/-- Digits are read up to the zero behind them. -/
theorem number?_digits {digits : Bytes} (hne : digits ≠ [])
    (hdigits : ∀ b ∈ digits, 0x30 ≤ b ∧ b ≤ 0x37) (rest : Bytes) :
    number? (digits ++ 0 :: rest) =
      some (digits.foldl (fun n b => 8 * n + (b.toNat - 0x30)) 0) := by
  have hstop : (digits ++ 0 :: rest).takeWhile (· ≠ 0) = digits := by
    rw [List.takeWhile_append_of_pos fun b hb => ?_, List.takeWhile_cons_of_neg (by simp),
      List.append_nil]
    have hlow := (hdigits b hb).1
    rw [UInt8.le_iff_toNat_le] at hlow
    rw [decide_eq_true_eq]
    rintro rfl
    simp at hlow
  have hall : (digits.all fun b => 0x30 ≤ b && b ≤ 0x37) = true := by
    simpa [List.all_eq_true] using hdigits
  cases digits with
  | nil => exact absurd rfl hne
  | cons first digits =>
    -- no digit is the mark of the binary form
    have hfirst : first ≠ 0x80 := by
      have hhigh := (hdigits first List.mem_cons_self).2
      rintro rfl
      exact absurd hhigh (by decide)
    rw [List.cons_append] at hstop ⊢
    rw [number?, if_neg hfirst, hstop]
    exact if_pos hall

/-- A number that a field can hold is read from it. -/
theorem number?_octal {width n : Nat} (hwidth : 1 < width) (h : n < Nat.pow 256 (width - 1)) :
    number? (octal width n) = some n := by
  unfold octal
  split
  · next hsmall =>
    have hdigits : ∀ b ∈ (Text.padLeft (width - 1) (Nat.toDigits 8 n)).map digitOctet,
        0x30 ≤ b ∧ b ≤ 0x37 := by
      intro b hb
      obtain ⟨c, hc, rfl⟩ := List.mem_map.mp hb
      obtain ⟨hlow, hhigh⟩ := mem_padLeft hc
      have hoctet := toNat_digitOctet hhigh
      rw [UInt8.le_iff_toNat_le, UInt8.le_iff_toNat_le, hoctet]
      exact ⟨hlow, hhigh⟩
    have hne : (Text.padLeft (width - 1) (Nat.toDigits 8 n)).map digitOctet ≠ [] := by
      intro hnil
      have hlength := length_padLeft (by omega) hsmall
      rw [List.map_eq_nil_iff.mp hnil, List.length_nil] at hlength
      omega
    have hread : Nat.ofDigitChars 8 (Text.padLeft (width - 1) (Nat.toDigits 8 n)) 0 = n := by
      unfold Text.padLeft
      rw [Nat.ofDigitChars_append, Nat.ofDigitChars_replicate_zero, Nat.mul_zero,
        Nat.ofDigitChars_toDigits (by decide) (by decide)]
    rw [Nat.ofDigitChars_eq_foldl] at hread
    refine (number?_digits hne hdigits []).trans (congrArg some ?_)
    rw [List.foldl_map]
    refine (List.foldl_ext _ _ _ fun m c hc => ?_).trans hread
    rw [toNat_digitOctet (mem_padLeft hc).2]
    rfl
  · -- the binary form says so with its first octet
    rw [number?, if_pos rfl, Digest.ofBigEndian_bigEndian h]

/-! ### The places of fields -/

theorem length_fill {width : Nat} {bytes : Bytes} (h : bytes.length ≤ width) :
    (fill width bytes).length = width := by
  unfold fill
  rw [List.length_append, List.length_replicate]
  omega

/-- A field is what stands behind as many octets as there are in front of it. -/
theorem Field.of_append {field : Field} {front value back : Bytes}
    (hfront : front.length = field.offset) (hvalue : value.length = field.width) :
    field.of (front ++ value ++ back) = value := by
  unfold Field.of
  rw [List.append_assoc, List.drop_left' hfront, List.take_left' hvalue]

namespace Header

variable {h : Header}

/-- Owner and group as they stand in a header. -/
def owners (h : Header) : Bytes :=
  match h.owner? with
  | some n => octal 8 n
  | none => fill 8 []

theorem front_eq (h : Header) : h.front =
    fill 100 h.name ++ octal 8 permissions ++ h.owners ++ h.owners ++ octal 12 h.size ++
      octal 12 h.time := by
  cases howner : h.owner? <;> simp only [front, owners, howner]

theorem length_owners (h : Header) : h.owners.length = 8 := by
  unfold owners
  split
  · exact length_octal (by decide) _
  · rfl

theorem length_front (hname : h.name.length ≤ 100) : h.front.length = 148 := by
  rw [front_eq]
  simp only [List.length_append, length_fill hname, length_owners, length_octal (by decide : 1 < 8),
    length_octal (by decide : 1 < 12)]

theorem length_back (h : Header) : h.back.length = 356 := by
  have hmark : (Text.encode "ustar  ").length = 7 := by decide
  have hempty : ∀ width, (fill width []).length = width := fun width => length_fill (Nat.zero_le width)
  unfold back
  simp only [List.cons_append, List.length_cons, List.length_append, hempty, List.length_nil, hmark]

theorem length_record (hname : h.name.length ≤ 100) : h.record.length = recordSize := by
  unfold record
  rw [List.length_append, List.length_append, length_front hname, length_octal (by decide),
    length_back]
  rfl

/-! ### What is read in a header -/

theorem of_name (hname : h.name.length ≤ 100) : Field.name.of h.record = fill 100 h.name := by
  have hrecord : h.record = [] ++ fill 100 h.name ++ (octal 8 permissions ++ h.owners ++ h.owners ++
      octal 12 h.size ++ octal 12 h.time ++ octal 8 (sum h.front + 8 * 0x20 + sum h.back) ++
      h.back) := by
    unfold record
    rw [front_eq]
    simp only [List.append_assoc, List.nil_append]
  rw [hrecord]
  exact Field.of_append rfl (length_fill hname)

theorem of_size (hname : h.name.length ≤ 100) : Field.size.of h.record = octal 12 h.size := by
  have hrecord : h.record = fill 100 h.name ++ octal 8 permissions ++ h.owners ++ h.owners ++
      octal 12 h.size ++ (octal 12 h.time ++ octal 8 (sum h.front + 8 * 0x20 + sum h.back) ++
      h.back) := by
    unfold record
    rw [front_eq]
    simp only [List.append_assoc]
  rw [hrecord]
  refine Field.of_append ?_ (length_octal (by decide) _)
  simp only [List.length_append, length_fill hname, length_owners, length_octal (by decide : 1 < 8)]
  rfl

theorem of_kind (hname : h.name.length ≤ 100) : Field.kind.of h.record = [h.kind.flag] := by
  have hrecord : h.record = h.front ++ octal 8 (sum h.front + 8 * 0x20 + sum h.back) ++
      [h.kind.flag] ++ (fill 100 [] ++ Text.encode "ustar  " ++ [0] ++ fill 247 []) := by
    unfold record back
    simp only [List.append_assoc, List.cons_append, List.nil_append]
  rw [hrecord]
  refine Field.of_append ?_ rfl
  rw [List.length_append, length_front hname, length_octal (by decide)]
  rfl

theorem sum_append (front back : Bytes) : sum (front ++ back) = sum front + sum back := by
  -- what is summed up in front is only added to
  have hgeneral : ∀ (bytes : Bytes) (n : Nat),
      bytes.foldl (fun n b => n + b.toNat) n = n + sum bytes := by
    intro bytes
    unfold sum
    induction bytes with
    | nil => exact fun n => rfl
    | cons b bytes ih =>
      intro n
      rw [List.foldl_cons, List.foldl_cons, ih, ih (0 + b.toNat)]
      omega
  unfold sum
  rw [List.foldl_append]
  exact hgeneral back _

theorem sum_le (bytes : Bytes) : sum bytes ≤ 255 * bytes.length := by
  induction bytes with
  | nil => exact Nat.le_refl 0
  | cons b bytes ih =>
    have hb := b.toNat_lt
    have hcons := sum_append [b] bytes
    have hsingle : sum [b] = b.toNat := Nat.zero_add _
    rw [List.singleton_append, hsingle] at hcons
    rw [hcons, List.length_cons]
    omega

theorem checks_record (hname : h.name.length ≤ 100) : checks h.record = true := by
  have hfront := length_front hname
  have hchecksum : Field.checksum.of h.record =
      octal 8 (sum h.front + 8 * 0x20 + sum h.back) :=
    Field.of_append hfront (length_octal (by decide) _)
  have htake : h.record.take 148 = h.front := by
    unfold record
    rw [List.append_assoc, List.take_left' hfront]
  have hdrop : h.record.drop 156 = h.back := by
    unfold record
    refine List.drop_left' ?_
    rw [List.length_append, hfront, length_octal (by decide)]
  -- the sum of so few octets fits into the field
  have hsmall : sum h.front + 8 * 0x20 + sum h.back < Nat.pow 256 (8 - 1) := by
    have hfrontsum := sum_le h.front
    have hbacksum := sum_le h.back
    rw [hfront] at hfrontsum
    rw [length_back] at hbacksum
    refine Nat.lt_of_le_of_lt ?_ (by decide : 200000 < Nat.pow 256 (8 - 1))
    omega
  unfold checks
  rw [hchecksum, number?_octal (by decide) hsmall, htake, hdrop]
  exact decide_eq_true rfl

end Header

/-! ### One record -/

/-- A header that can be read with the content behind it. -/
structure Part where
  /-- The header. -/
  header : Header
  /-- What stands behind it. -/
  content : Bytes
  /-- The name fits into its field. -/
  length_name : header.name.length ≤ 100
  /-- The header announces as much as there is. -/
  size_eq : header.size = content.length
  /-- The length fits into its field. -/
  size_lt : content.length < Nat.pow 256 11

namespace Part

/-- The octets of a part. -/
def bytes (part : Part) : Bytes := framed part.header part.content

/-- What is read for a part. -/
def record (part : Part) : Record := ⟨part.header.record, part.content⟩

theorem length_bytes (part : Part) :
    part.bytes.length = recordSize + (part.content.length + gap part.content.length) := by
  unfold bytes framed
  rw [List.length_append, List.length_append, List.length_replicate,
    Header.length_record part.length_name]
  omega

/-- No part looks like the end of an archive. -/
theorem append_ne_finish (part : Part) (rest : Bytes) : part.bytes ++ rest ≠ finish := by
  intro hfinish
  have hkind := Header.of_kind part.length_name
  have hzero : Field.kind.of (finish.take recordSize) = [0] := by decide
  have htake : (part.bytes ++ rest).take recordSize = part.header.record := by
    unfold bytes framed
    rw [List.append_assoc, List.append_assoc]
    exact List.take_left' (Header.length_record part.length_name)
  rw [hfinish] at htake
  rw [← htake, hzero] at hkind
  cases hflag : part.header.kind <;> rw [hflag] at hkind <;> cases hkind

/-- A part is read, and the reader goes on where it ends. -/
theorem readRecords?_append (part : Part) (fuel : Nat) (rest : Bytes) :
    readRecords? (fuel + 1) (part.bytes ++ rest) =
      (readRecords? fuel rest).map (part.record :: ·) := by
  have hlength := Header.length_record part.length_name
  have htake : (part.bytes ++ rest).take recordSize = part.header.record := by
    unfold bytes framed
    rw [List.append_assoc, List.append_assoc]
    exact List.take_left' hlength
  have hdrop : (part.bytes ++ rest).drop recordSize =
      part.content ++ (List.replicate (gap part.content.length) 0 ++ rest) := by
    unfold bytes framed
    rw [List.append_assoc, List.append_assoc]
    exact List.drop_left' hlength
  have hsize : number? (Field.size.of part.header.record) = some part.content.length := by
    rw [Header.of_size part.length_name, part.size_eq]
    exact number?_octal (by decide) part.size_lt
  have hcontent : (part.content ++ (List.replicate (gap part.content.length) 0 ++ rest)).take
      part.content.length = part.content := List.take_left' rfl
  have hrest : (part.content ++ (List.replicate (gap part.content.length) 0 ++ rest)).drop
      (part.content.length + gap part.content.length) = rest := by
    rw [← List.append_assoc]
    refine List.drop_left' ?_
    rw [List.length_append, List.length_replicate]
  rw [readRecords?, if_neg (part.append_ne_finish rest), htake, hdrop]
  have hchecked : (guard (part.header.record.length = recordSize ∧
      checks part.header.record = true) : Option Unit) = some () :=
    (Option.guard_eq_some' ()).mpr ⟨hlength, Header.checks_record part.length_name⟩
  have hroom : (guard (part.content.length + gap part.content.length ≤
      (part.content ++ (List.replicate (gap part.content.length) 0 ++ rest)).length) :
        Option Unit) = some () := by
    refine (Option.guard_eq_some' ()).mpr ?_
    simp only [List.length_append, List.length_replicate]
    omega
  simp only [hchecked, hsize, hroom, hcontent, hrest, Option.bind_eq_bind, Option.bind_some]
  cases readRecords? fuel rest <;> rfl

end Part

/-! ### All records -/

/-- The parts of an archive are read one after the other, up to the end of the archive. -/
theorem readRecords?_parts (parts : List Part) {fuel : Nat} (h : parts.length < fuel) :
    readRecords? fuel (parts.flatMap Part.bytes ++ finish) = some (parts.map Part.record) := by
  induction parts generalizing fuel with
  | nil =>
    cases fuel with
    | zero => cases h
    | succ fuel => exact if_pos rfl
  | cons part parts ih =>
    cases fuel with
    | zero => cases h
    | succ fuel =>
      have hrest := ih (Nat.lt_of_succ_lt_succ h)
      rw [List.flatMap_cons, List.append_assoc, part.readRecords?_append, hrest]
      rfl

/-- Every part takes a record at least, so the length of an archive allows for all of them. -/
theorem length_parts (parts : List Part) :
    recordSize * parts.length ≤ (parts.flatMap Part.bytes).length := by
  induction parts with
  | nil => exact Nat.zero_le _
  | cons part parts ih =>
    have hpart := part.length_bytes
    rw [List.flatMap_cons, List.length_append, List.length_cons, Nat.mul_succ]
    omega

theorem records?_parts (parts : List Part) :
    records? (parts.flatMap Part.bytes ++ finish) = some (parts.map Part.record) := by
  refine readRecords?_parts parts ?_
  have hlength := length_parts parts
  have hfinish : finish.length = 2 * recordSize := List.length_replicate
  have hsize : recordSize = 512 := rfl
  rw [List.length_append, hfinish]
  rw [hsize] at hlength ⊢
  omega

end Tar

end PackageRelease
