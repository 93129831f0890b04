import Mathlib.Data.Option.Basic
import PackageRelease.Encoding.Base64

/-! # Octets survive base 64

  The digits of octets are read as those octets. The key idea: four digits carry the 24 bits of
  three octets, and the bits that the padding stands for are zero. Which of its three cases reading
  takes is decided by the padding alone, because no digit is the padding.
-/

namespace PackageRelease.Base64

/-! ### Digits -/

theorem value?_digit {n : Nat} (h : n < 64) : value? (digit n) = some n := by
  have hall : ∀ n : Fin 64, value? (digit n) = some n.val := by decide +kernel
  exact hall ⟨n, h⟩

theorem digit_ne_padding {n : Nat} (h : n < 64) : digit n ≠ '=' := by
  have hall : ∀ n : Fin 64, digit n ≠ '=' := by decide +kernel
  exact hall ⟨n, h⟩

/-- Two digits and the padding carry one octet when the bits past it are zero. -/
theorem decodeChars?_two_digits {a b : Nat} (ha : a < 64) (hb : b < 64) (hbits : b % 16 = 0) :
    decodeChars? [digit a, digit b, '=', '='] = some [UInt8.ofNat (a * 4 + b / 16)] := by
  have hguard : (guard (b % 16 = 0) : Option Unit) = some () := (Option.guard_eq_some' ()).mpr hbits
  rw [decodeChars?, value?_digit ha, value?_digit hb]
  show ((guard (b % 16 = 0) : Option Unit) >>= fun _ => some [UInt8.ofNat (a * 4 + b / 16)]) = _
  rw [hguard]
  rfl

/-- Three digits and the padding carry two octets when the bits past them are zero. -/
theorem decodeChars?_three_digits {a b c : Nat} (ha : a < 64) (hb : b < 64) (hc : c < 64)
    (hbits : c % 4 = 0) :
    decodeChars? [digit a, digit b, digit c, '='] =
      some [UInt8.ofNat (a * 4 + b / 16), UInt8.ofNat (b % 16 * 16 + c / 4)] := by
  have hguard : (guard (c % 4 = 0) : Option Unit) = some () := (Option.guard_eq_some' ()).mpr hbits
  rw [decodeChars?.eq_3 _ _ _ (digit_ne_padding hc), value?_digit ha, value?_digit hb,
    value?_digit hc]
  show ((guard (c % 4 = 0) : Option Unit) >>= fun _ =>
    some [UInt8.ofNat (a * 4 + b / 16), UInt8.ofNat (b % 16 * 16 + c / 4)]) = _
  rw [hguard]
  rfl

/-- Digits without padding. -/
theorem decodeChars?_four_digits {a b c d : Nat} (ha : a < 64) (hb : b < 64) (hc : c < 64)
    (hd : d < 64) (rest : List Char) :
    decodeChars? (digit a :: digit b :: digit c :: digit d :: rest) =
      (decodeChars? rest).map fun octets => UInt8.ofNat (a * 4 + b / 16) ::
        UInt8.ofNat (b % 16 * 16 + c / 4) :: UInt8.ofNat (c % 4 * 64 + d) :: octets := by
  have hpadding := digit_ne_padding hd
  rw [decodeChars?.eq_4 _ _ _ _ _ (fun _ h => absurd h hpadding) fun h => absurd h hpadding,
    value?_digit ha, value?_digit hb, value?_digit hc, value?_digit hd]
  cases decodeChars? rest <;> rfl

/-! ### Octets -/

/-- The digits of octets are read as those octets. The induction takes three octets at a time. -/
theorem decodeChars?_encodeChars (octets : Bytes) :
    decodeChars? (encodeChars octets) = some octets := by
  have hoctet : ∀ (x : UInt8) (n : Nat), n = x.toNat → UInt8.ofNat n = x := by
    rintro x _ rfl
    exact UInt8.ofNat_toNat
  induction octets using encodeChars.induct with
  | case1 => rfl
  | case2 a =>
    have ha := a.toNat_lt
    rw [encodeChars, decodeChars?_two_digits (by omega) (by omega) (by omega),
      hoctet a _ (by omega)]
  | case3 a b =>
    have ha := a.toNat_lt
    have hb := b.toNat_lt
    rw [encodeChars, decodeChars?_three_digits (by omega) (by omega) (by omega) (by omega),
      hoctet a _ (by omega), hoctet b _ (by omega)]
  | case4 a b c rest ih =>
    have ha := a.toNat_lt
    have hb := b.toNat_lt
    have hc := c.toNat_lt
    rw [encodeChars, decodeChars?_four_digits (by omega) (by omega) (by omega) (by omega), ih,
      Option.map_some, hoctet a _ (by omega), hoctet b _ (by omega), hoctet c _ (by omega)]

theorem decode?_encode (octets : Bytes) : decode? (encode octets) = some octets := by
  unfold decode? encode
  rw [String.toList_ofList]
  exact decodeChars?_encodeChars octets

end PackageRelease.Base64
