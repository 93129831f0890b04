import PackageRelease.Text.Basic
import PackageRelease.Text.Utf8

/-! # Octets of a text

  A text becomes octets character by character. The octets of one character are as many as it needs,
  and none of them is zero unless it is the character zero itself.
-/

namespace PackageRelease.Text

theorem encode_ofList (cs : List Char) :
    encode (String.ofList cs) = cs.flatMap String.utf8EncodeChar := by
  unfold encode String.toUTF8
  rw [String.toByteArray_ofList]
  unfold List.utf8Encode
  exact List.toList_data_toByteArray

theorem encode_eq (s : String) : encode s = s.toList.flatMap String.utf8EncodeChar := by
  have h := encode_ofList s.toList
  rwa [String.ofList_toList] at h

theorem encode_append (s t : String) : encode (s ++ t) = encode s ++ encode t := by
  rw [encode_eq, encode_eq, encode_eq, String.toList_append, List.flatMap_append]

theorem encode_injective {s t : String} (h : encode s = encode t) : s = t := by
  have hdecode := decode?_encode s
  rw [h, decode?_encode] at hdecode
  exact (Option.some.inj hdecode).symm

theorem encode_ne_nil {s : String} (h : s ≠ "") : encode s ≠ [] := by
  intro hnil
  have hdecode := decode?_encode s
  rw [hnil] at hdecode
  exact h (Option.some.inj (hdecode.symm.trans (decode?_encode "")))

theorem length_encode_ofList (cs : List Char) :
    (encode (String.ofList cs)).length = utf8Length cs := by
  rw [encode_ofList]
  induction cs with
  | nil => rfl
  | cons c cs ih => rw [List.flatMap_cons, List.length_append, String.length_utf8EncodeChar, ih]; rfl

/-- A part of a text that is as long as the whole text is the whole text. -/
theorem eq_of_sublist {part whole : List Char} (hpart : part.Sublist whole)
    (hlength : utf8Length whole ≤ utf8Length part) : part = whole := by
  have hle : ∀ {part whole : List Char}, part.Sublist whole → utf8Length part ≤ utf8Length whole := by
    intro part whole h
    induction h with
    | slnil => exact Nat.le_refl _
    | cons c _ ih => exact Nat.le_trans ih (Nat.le_add_left _ _)
    | cons_cons c _ ih => exact Nat.add_le_add_left ih _
  induction hpart with
  | slnil => rfl
  | cons c hrest _ =>
    have hpos := c.utf8Size_pos
    have hrest := hle hrest
    rw [utf8Length] at hlength
    omega
  | cons_cons c _ ih => rw [ih (Nat.le_of_add_le_add_left hlength)]

/-- What is taken of a text fits into the limit. -/
theorem utf8Length_takeUtf8 (limit : Nat) (cs : List Char) :
    utf8Length (takeUtf8 limit cs) ≤ limit := by
  induction cs generalizing limit with
  | nil => exact Nat.zero_le _
  | cons c cs ih =>
    rw [takeUtf8]
    split
    · next hfits =>
      have hrest := ih (limit - c.utf8Size)
      rw [utf8Length]
      omega
    · exact Nat.zero_le _

/-- Only the character zero has an octet zero. -/
theorem zero_notMem_utf8EncodeChar {c : Char} (h : c ≠ '\x00') :
    0 ∉ String.utf8EncodeChar c := by
  have hvalue : c.val.toNat ≠ 0 := by
    intro hzero
    exact h (Char.ext (UInt32.toNat_inj.mp hzero))
  have hoctet : ∀ n : Nat, n < 256 → n ≠ 0 → (0 : UInt8) ≠ UInt8.ofNat n := by
    intro n hlt hne hzero
    have hnat := congrArg UInt8.toNat hzero
    rw [UInt8.toNat_ofNat', Nat.mod_eq_of_lt hlt] at hnat
    exact hne hnat.symm
  unfold String.utf8EncodeChar
  dsimp only
  -- one octet holds the value; in longer forms every octet has its highest bit set
  split
  · simpa using hoctet _ (by omega) hvalue
  split
  · simp only [List.mem_cons, List.not_mem_nil, or_false, not_or]
    exact ⟨hoctet _ (by omega) (by omega), hoctet _ (by omega) (by omega)⟩
  split
  · simp only [List.mem_cons, List.not_mem_nil, or_false, not_or]
    exact ⟨hoctet _ (by omega) (by omega), hoctet _ (by omega) (by omega),
      hoctet _ (by omega) (by omega)⟩
  · simp only [List.mem_cons, List.not_mem_nil, or_false, not_or]
    exact ⟨hoctet _ (by omega) (by omega), hoctet _ (by omega) (by omega),
      hoctet _ (by omega) (by omega), hoctet _ (by omega) (by omega)⟩

theorem zero_notMem_encode {s : String} (h : '\x00' ∉ s.toList) : 0 ∉ encode s := by
  rw [encode_eq, List.mem_flatMap]
  rintro ⟨c, hc, hzero⟩
  have hne : c ≠ '\x00' := by
    rintro rfl
    exact h hc
  exact zero_notMem_utf8EncodeChar hne hzero

end PackageRelease.Text
