import PackageRelease.Proofs.Text.Octets
import PackageRelease.Url.Percent

/-! # Percent codes

  A text decodes to its own octets exactly if it holds no code. Writing some of its characters as
  codes does not change what it decodes to, as long as percent signs and hexadecimal digits are not
  among them: a code that was there before is still there, and no code comes up by accident.
-/

namespace PackageRelease.Percent

/-! ### One step of decoding -/

/-- Whether two hexadecimal digits stand in front. -/
def StartsCode : List Char → Prop
  | a :: b :: _ => (Text.hexValue? a).isSome = true ∧ (Text.hexValue? b).isSome = true
  | _ => False

/-- Whether a percent sign with two hexadecimal digits stands somewhere. -/
def HoldsCode (cs : List Char) : Prop := ∃ front back, cs = front ++ '%' :: back ∧ StartsCode back

theorem not_startsCode {a : Char} (h : Text.hexValue? a = none) (rest : List Char) :
    ¬ StartsCode (a :: rest) := by
  cases rest with
  | nil => exact id
  | cons b rest =>
    intro hstarts
    cases h ▸ hstarts.1

theorem encode_singleton (c : Char) :
    Text.encode (String.singleton c) = String.utf8EncodeChar c := by
  have h := Text.encode_ofList [c]
  rwa [List.flatMap_singleton] at h

theorem decode_of_ne {c : Char} (h : c ≠ '%') (rest : List Char) :
    decode (c :: rest) = String.utf8EncodeChar c ++ decode rest := by
  rw [decode, encode_singleton]
  rintro _ _ _ rfl
  exact absurd rfl h

theorem decode_code {a b : Char} {m n : Nat} (ha : Text.hexValue? a = some m)
    (hb : Text.hexValue? b = some n) (rest : List Char) :
    decode ('%' :: a :: b :: rest) = UInt8.ofNat (16 * m + n) :: decode rest := by
  rw [decode, ha, hb]

/-- A percent sign without two digits behind it stands for itself. -/
theorem decode_of_not_startsCode {rest : List Char} (h : ¬ StartsCode rest) :
    decode ('%' :: rest) = String.utf8EncodeChar '%' ++ decode rest := by
  match rest with
  | [] =>
    rw [decode, encode_singleton]
    intro _ _ _ _ heq
    cases heq
  | [a] =>
    rw [decode, encode_singleton]
    intro _ _ _ _ heq
    cases heq
  | a :: b :: rest =>
    rw [decode]
    split
    · next ha hb => exact absurd ⟨by rw [ha]; rfl, by rw [hb]; rfl⟩ h
    · rfl

/-- Induction along decoding, which takes up one character or one code at a time. -/
@[elab_as_elim]
theorem decode_induction {P : List Char → Prop} (nil : P [])
    (char : ∀ c rest, ¬ (c = '%' ∧ StartsCode rest) →
      decode (c :: rest) = String.utf8EncodeChar c ++ decode rest → P rest → P (c :: rest))
    (code : ∀ a b high low rest, Text.hexValue? a = some high → Text.hexValue? b = some low →
      decode ('%' :: a :: b :: rest) = UInt8.ofNat (16 * high + low) :: decode rest → P rest →
        P ('%' :: a :: b :: rest))
    (cs : List Char) : P cs := by
  match cs with
  | [] => exact nil
  | c :: rest =>
    by_cases hc : c = '%'
    · subst hc
      by_cases hstarts : StartsCode rest
      · match rest, hstarts with
        | a :: b :: rest, ⟨ha, hb⟩ =>
          obtain ⟨high, ha⟩ := Option.isSome_iff_exists.mp ha
          obtain ⟨low, hb⟩ := Option.isSome_iff_exists.mp hb
          exact code a b high low rest ha hb (decode_code ha hb rest)
            (decode_induction nil char code rest)
      · exact char '%' rest (fun h => hstarts h.2) (decode_of_not_startsCode hstarts)
          (decode_induction nil char code rest)
    · exact char c rest (fun h => hc h.1) (decode_of_ne hc rest)
        (decode_induction nil char code rest)
termination_by cs.length

/-! ### Texts without codes -/

theorem holdsCode_cons_iff (c : Char) (rest : List Char) :
    HoldsCode (c :: rest) ↔ (c = '%' ∧ StartsCode rest) ∨ HoldsCode rest := by
  constructor
  · rintro ⟨front, back, h, hstarts⟩
    cases front with
    | nil =>
      cases h
      exact .inl ⟨rfl, hstarts⟩
    | cons d front =>
      cases h
      exact .inr ⟨front, back, rfl, hstarts⟩
  · rintro (⟨rfl, hstarts⟩ | ⟨front, back, rfl, hstarts⟩)
    · exact ⟨[], rest, rfl, hstarts⟩
    · exact ⟨c :: front, back, rfl, hstarts⟩

theorem not_holdsCode_of_notMem {cs : List Char} (h : '%' ∉ cs) : ¬ HoldsCode cs := by
  rintro ⟨front, back, rfl, -⟩
  exact h (List.mem_append_right _ List.mem_cons_self)

theorem decode_of_not_holdsCode {cs : List Char} (h : ¬ HoldsCode cs) :
    decode cs = cs.flatMap String.utf8EncodeChar := by
  induction cs using decode_induction with
  | nil => rw [decode]; rfl
  | char c rest _ hdecode ih =>
    rw [holdsCode_cons_iff, not_or] at h
    rw [hdecode, ih h.2, List.flatMap_cons]
  | code a b high low rest ha hb =>
    exact absurd ⟨[], _, rfl, by rw [ha]; rfl, by rw [hb]; rfl⟩ h

/-- Decoding never makes a text longer, and a code makes it shorter. -/
theorem length_decode (cs : List Char) :
    (decode cs).length ≤ Text.utf8Length cs ∧
      (HoldsCode cs → (decode cs).length < Text.utf8Length cs) := by
  induction cs using decode_induction with
  | nil =>
    refine ⟨by rw [decode]; exact Nat.zero_le _, ?_⟩
    rintro ⟨front, back, h, -⟩
    simp at h
  | char c rest hno hdecode ih =>
    rw [hdecode, List.length_append, String.length_utf8EncodeChar, Text.utf8Length]
    refine ⟨Nat.add_le_add_left ih.1 _, fun hholds => Nat.add_lt_add_left (ih.2 ?_) _⟩
    exact ((holdsCode_cons_iff c rest).mp hholds).resolve_left hno
  | code a b high low rest _ _ hdecode ih =>
    have ha := a.utf8Size_pos
    have hb := b.utf8Size_pos
    have hpercent : '%'.utf8Size = 1 := rfl
    rw [hdecode, List.length_cons, Text.utf8Length, Text.utf8Length, Text.utf8Length]
    omega

/-- Of all that is left of a text when characters are left out, only the whole text decodes to its
    octets, and only if it holds no code. -/
theorem eq_of_decode {part whole : List Char} (hpart : part.Sublist whole)
    (h : decode part = whole.flatMap String.utf8EncodeChar) : part = whole ∧ ¬ HoldsCode whole := by
  have hsize : (decode part).length = Text.utf8Length whole := by
    rw [h, ← Text.encode_ofList, Text.length_encode_ofList]
  have hlength := length_decode part
  have heq := Text.eq_of_sublist hpart (Nat.le_trans (Nat.le_of_eq hsize.symm) hlength.1)
  subst heq
  exact ⟨rfl, fun hholds => Nat.ne_of_lt (hlength.2 hholds) hsize⟩

/-! ### Writing some characters as codes -/

/-- A way to write each character as itself or as codes that decode to it. -/
def IsCoding (write : Char → List Char) : Prop :=
  ∀ c, write c = [c] ∨
    c ≠ '%' ∧ Text.hexValue? c = none ∧ ∃ code, write c = '%' :: code ∧
      ∀ rest, decode (write c ++ rest) = String.utf8EncodeChar c ++ decode rest

section coding
variable {write : Char → List Char}

/-- In front of a written text stand two digits exactly if they stood in front of the text. -/
theorem IsCoding.startsCode_flatMap (hwrite : IsCoding write) (cs : List Char) :
    StartsCode (cs.flatMap write) ↔ StartsCode cs := by
  match cs with
  | [] => exact Iff.rfl
  | a :: rest =>
    rw [List.flatMap_cons]
    rcases hwrite a with ha | ⟨-, hvalue, code, ha, -⟩
    · rw [ha]
      match rest with
      | [] => exact Iff.rfl
      | b :: rest =>
        rw [List.flatMap_cons]
        rcases hwrite b with hb | ⟨-, hvalue, code, hb, -⟩
        · rw [hb]
          exact Iff.rfl
        · rw [hb]
          refine iff_of_false (fun h => ?_) (fun h => ?_)
          · cases h.2
          · cases hvalue ▸ h.2
    · rw [ha]
      exact iff_of_false (not_startsCode rfl _) (not_startsCode hvalue rest)

theorem IsCoding.decode_flatMap (hwrite : IsCoding write) (cs : List Char) :
    decode (cs.flatMap write) = decode cs := by
  have hdigit : ∀ {c value}, Text.hexValue? c = some value → write c = [c] := by
    intro c value hc
    refine (hwrite c).resolve_right ?_
    rintro ⟨-, hnone, -⟩
    rw [hc] at hnone
    cases hnone
  have hpercent : write '%' = ['%'] := (hwrite '%').resolve_right fun h => h.1 rfl
  induction cs using decode_induction with
  | nil => rfl
  | char c rest hno hdecode ih =>
    rw [List.flatMap_cons, hdecode]
    rcases hwrite c with hc | ⟨-, -, -, -, hc⟩
    · rw [hc, List.singleton_append, ← ih]
      by_cases hsign : c = '%'
      · subst hsign
        refine decode_of_not_startsCode fun hstarts => hno ⟨rfl, ?_⟩
        exact (hwrite.startsCode_flatMap rest).mp hstarts
      · exact decode_of_ne hsign _
    · rw [hc, ih]
  | code a b high low rest ha hb hdecode ih =>
    rw [List.flatMap_cons, List.flatMap_cons, List.flatMap_cons, hpercent, hdigit ha, hdigit hb,
      hdecode, ← ih]
    exact decode_code ha hb _

end coding

/-! ### The codes of octets -/

theorem hexValue?_hexDigitUpper {n : Nat} (h : n < 16) :
    Text.hexValue? (Text.hexDigitUpper n) = some n := by
  decide +revert

theorem decode_octet (b : UInt8) (rest : List Char) :
    decode (octet b ++ rest) = b :: decode rest := by
  have hlt := b.toNat_lt
  unfold octet
  rw [List.cons_append, List.cons_append, List.cons_append, List.nil_append,
    decode_code (hexValue?_hexDigitUpper (by omega)) (hexValue?_hexDigitUpper (by omega)),
    Nat.div_add_mod, UInt8.ofNat_toNat]

theorem decode_octets (b : Bytes) (rest : List Char) :
    decode (b.flatMap octet ++ rest) = b ++ decode rest := by
  induction b with
  | nil => rfl
  | cons octet b ih => rw [List.flatMap_cons, List.append_assoc, decode_octet, ih]; rfl

/-- Whether characters can be reserved: codes are not made of them. -/
def Reservable (reserved : Char → Bool) : Prop :=
  ∀ c, reserved c = true → c ≠ '%' ∧ Text.hexValue? c = none

theorem reservable_contains {cs : List Char}
    (h : (cs.all fun c => c ≠ '%' && (Text.hexValue? c).isNone) = true) :
    Reservable cs.contains := by
  intro c hc
  have := List.all_eq_true.mp h c (List.contains_iff_mem.mp hc)
  simpa using this

theorem Reservable.or {p q : Char → Bool} (hp : Reservable p) (hq : Reservable q) :
    Reservable fun c => p c || q c := by
  intro c hc
  rcases Bool.or_eq_true_iff.mp hc with hc | hc
  · exact hp c hc
  · exact hq c hc

theorem reservable_inPath : Reservable inPath :=
  .or (reservable_contains (by decide)) (reservable_contains (by decide))

theorem reservable_inUserInfo : Reservable inUserInfo :=
  .or reservable_inPath (reservable_contains (by decide))

/-- Hexadecimal digits stand between `0` and `f`. -/
theorem range_of_hexValue? {c : Char} {value : Nat} (h : Text.hexValue? c = some value) :
    0x30 ≤ c.toNat ∧ c.toNat ≤ 0x66 := by
  have hle : ∀ {a b : Char}, a ≤ b → a.toNat ≤ b.toNat := UInt32.le_iff_toNat_le.mp
  unfold Text.hexValue? at h
  simp only [Bool.and_eq_true, decide_eq_true_eq] at h
  split at h
  · next hrange => exact ⟨hle hrange.1, Nat.le_trans (hle hrange.2) (by decide)⟩
  split at h
  · next hrange => exact ⟨Nat.le_trans (by decide) (hle hrange.1), hle hrange.2⟩
  split at h
  · next hrange =>
    exact ⟨Nat.le_trans (by decide) (hle hrange.1), Nat.le_trans (hle hrange.2) (by decide)⟩
  · cases h

theorem reservable_isAlwaysEncoded : Reservable isAlwaysEncoded := by
  intro c hc
  unfold isAlwaysEncoded at hc
  simp only [Bool.or_eq_true, decide_eq_true_eq] at hc
  refine ⟨?_, Option.eq_none_iff_forall_ne_some.mpr fun value hvalue => ?_⟩
  · rintro rfl
    revert hc
    decide
  · have := range_of_hexValue? hvalue
    omega

theorem isCoding_encodeChar {reserved : Char → Bool} (h : Reservable reserved) :
    IsCoding (encodeChar reserved) := by
  intro c
  unfold encodeChar
  split
  · next hcoded =>
    obtain ⟨hsign, hvalue⟩ := (reservable_isAlwaysEncoded.or h) c hcoded
    rw [encode_singleton]
    refine .inr ⟨hsign, hvalue, ?_⟩
    cases hoctets : String.utf8EncodeChar c with
    | nil => exact absurd hoctets String.utf8EncodeChar_ne_nil
    | cons b more => exact ⟨_, rfl, decode_octets (b :: more)⟩
  · exact .inl rfl

/-- Encoding does not change what a text decodes to. -/
theorem decode_encode {reserved : Char → Bool} (h : Reservable reserved) (cs : List Char) :
    decode (encode reserved cs) = decode cs :=
  (isCoding_encodeChar h).decode_flatMap cs

/-! ### What an encoded text is made of -/

theorem encode_of_forall {reserved : Char → Bool} {cs : List Char}
    (h : ∀ c ∈ cs, (isAlwaysEncoded c || reserved c) = false) :
    encode reserved cs = cs := by
  induction cs with
  | nil => rfl
  | cons c cs ih =>
    rw [List.forall_mem_cons] at h
    unfold encode at ih ⊢
    rw [List.flatMap_cons, ih h.2, encodeChar, h.1]
    rfl

/-- Nothing is lost in an encoded text. -/
theorem encode_ne_nil {reserved : Char → Bool} {cs : List Char} (h : cs ≠ []) :
    encode reserved cs ≠ [] := by
  obtain ⟨c, rest, rfl⟩ := List.exists_cons_of_ne_nil h
  intro hnil
  unfold encode at hnil
  have hc := (List.append_eq_nil_iff.mp (List.flatMap_cons.symm.trans hnil)).1
  unfold encodeChar at hc
  split at hc
  · rw [encode_singleton] at hc
    cases hoctets : String.utf8EncodeChar c with
    | nil => exact String.utf8EncodeChar_ne_nil hoctets
    | cons b more =>
      rw [hoctets] at hc
      cases hc
  · cases hc

/-- Signs and digits of codes are never reserved. -/
theorem Reservable.unreserved {reserved : Char → Bool} (h : Reservable reserved) {c : Char}
    (hc : c = '%' ∨ (Text.hexValue? c).isSome = true) :
    (isAlwaysEncoded c || reserved c) = false := by
  refine Bool.eq_false_iff.mpr fun hreserved => ?_
  obtain ⟨hsign, hvalue⟩ := (reservable_isAlwaysEncoded.or h) c hreserved
  rcases hc with hc | hc
  · exact hsign hc
  · rw [hvalue] at hc
    cases hc

/-- An encoded text is made of its own characters, as far as they are not reserved, and of codes. -/
theorem of_mem_encode {reserved : Char → Bool} {cs : List Char} {c : Char}
    (hc : c ∈ encode reserved cs) :
    c ∈ cs ∧ (isAlwaysEncoded c || reserved c) = false ∨
      c = '%' ∨ (Text.hexValue? c).isSome = true := by
  obtain ⟨d, hd, hc⟩ := List.mem_flatMap.mp hc
  unfold encodeChar at hc
  split at hc
  · obtain ⟨b, -, hb⟩ := List.mem_flatMap.mp hc
    have hlt := b.toNat_lt
    have hdigit : ∀ n < 16, (Text.hexValue? (Text.hexDigitUpper n)).isSome = true := by
      intro n hn
      rw [hexValue?_hexDigitUpper hn]
      rfl
    unfold octet at hb
    simp only [List.mem_cons, List.not_mem_nil, or_false] at hb
    rcases hb with rfl | rfl | rfl
    · exact .inr (.inl rfl)
    · exact .inr (.inr (hdigit _ (by omega)))
    · exact .inr (.inr (hdigit _ (by omega)))
  · next hkept =>
    cases List.mem_singleton.mp hc
    exact .inl ⟨hd, Bool.eq_false_iff.mpr hkept⟩

theorem unreserved_of_mem_encode {reserved : Char → Bool} (h : Reservable reserved)
    {cs : List Char} {c : Char} (hc : c ∈ encode reserved cs) :
    (isAlwaysEncoded c || reserved c) = false :=
  (of_mem_encode hc).elim And.right h.unreserved

end PackageRelease.Percent
