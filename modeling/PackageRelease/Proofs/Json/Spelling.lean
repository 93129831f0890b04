import PackageRelease.Proofs.Json.Meaning
import PackageRelease.Proofs.Number.Grid

/-! # How a value is spelled when it is printed

  What is printed says the value: every number has a spelling, with digits, a point and an exponent
  where the layout puts them, and the text around them is the same in every layout up to blanks.
-/

namespace PackageRelease

open Text (isDigit)
open JsonNumber.Literal (IsDigits WritesFraction WritesExponent)

/-! ### Whole numbers -/

/-- The sign of a number in front of its digits. -/
def signOf (negative : Bool) : List Char := if negative then ['-'] else []

theorem isDigits_toDigits (n : Nat) : IsDigits (Nat.toDigits 10 n) :=
  ⟨Nat.toDigits_ne_nil, fun _ => Text.isDigit_of_mem_toDigits⟩

theorem unpadded_toDigits {n : Nat} (h : (Nat.toDigits 10 n).head? = some '0') :
    Nat.toDigits 10 n = ['0'] := by
  rcases Nat.eq_zero_or_pos n with rfl | hpos
  · exact Nat.toDigits_zero 10
  · exact absurd h (Text.head?_toDigits_ne hpos)

theorem isDigits_zero : IsDigits ['0'] := ⟨by simp, List.forall_mem_singleton.mpr rfl⟩

theorem isDigit_of_mem_zeros {n : Nat} : ∀ c ∈ List.replicate n '0', isDigit c = true := by
  intro c hc
  rw [List.eq_of_mem_replicate hc]
  rfl

/-! ### Decimals -/

namespace Decimal

/-- The exponent of a number with one digit in front of the point. -/
def exponent (d : Decimal) : Bool × List Char :=
  (decide (d.point - 1 < 0), Nat.toDigits 10 (d.point - 1).natAbs)

/-- The parts of a decimal in a layout. -/
def literal (layout : DecimalLayout) (negative : Bool) (d : Decimal) : JsonNumber.Literal :=
  let count : Int := d.digits.length
  if layout.leastPoint ≤ d.point ∧ d.point ≤ layout.greatestPoint then
    if d.point ≤ 0 then
      ⟨negative, ['0'], some (List.replicate (-d.point).toNat '0' ++ d.digits), none⟩
    else if count ≤ d.point then
      ⟨negative, d.digits ++ List.replicate (d.point - count).toNat '0', some ['0'], none⟩
    else ⟨negative, d.digits.take d.point.toNat, some (d.digits.drop d.point.toNat), none⟩
  else
    match d.digits with
    | [] => ⟨negative, ['0'], some ['0'], none⟩
    | [c] => ⟨negative, [c], none, some d.exponent⟩
    | c :: rest => ⟨negative, [c], some rest, some d.exponent⟩

theorem writesExponent_exponent (d : Decimal) :
    WritesExponent (some d.exponent) (renderExponent (d.point - 1)) := by
  unfold renderExponent exponent
  rw [Text.decimal, String.toList_ofList]
  simpa only [decide_eq_true_eq] using
    @WritesExponent.signed _ 'e' (decide (d.point - 1 < 0)) (.inl rfl) (isDigits_toDigits _)

theorem isWritten_literal {d : Decimal} (h : d.IsNormal) (layout : DecimalLayout)
    (negative : Bool) : (d.literal layout negative).IsWritten (signOf negative ++ d.render layout) := by
  have hne := h.nonempty
  have hdigits := h.isDigit
  unfold literal render
  dsimp only
  split
  · split
    · -- zeros stand between the point and the digits
      have hfraction := List.forall_mem_append.mpr ⟨@isDigit_of_mem_zeros (-d.point).toNat, hdigits⟩
      exact ⟨isDigits_zero, fun _ => rfl, _, _, .present ⟨by simp [hne], hfraction⟩, .absent,
        by simp [signOf]⟩
    · split
      · -- zeros stand between the digits and the point
        have hwhole := List.forall_mem_append.mpr
          ⟨hdigits, @isDigit_of_mem_zeros (d.point - d.digits.length).toNat⟩
        refine ⟨⟨by simp [hne], hwhole⟩, fun hzero => ?_, _, _, .present isDigits_zero, .absent,
          by simp [signOf]⟩
        dsimp only at hzero ⊢
        obtain ⟨c, rest, hcons⟩ := List.exists_cons_of_ne_nil hne
        rw [hcons, List.cons_append, List.head?_cons] at hzero
        rw [h.leads (by rw [hcons]; exact hzero)]
        rfl
      · -- the point stands between the digits
        next hpositive hinside =>
        have htake : d.digits.take d.point.toNat ≠ [] := by
          rw [ne_eq, List.take_eq_nil_iff]
          exact not_or.mpr ⟨by omega, hne⟩
        have hdrop : d.digits.drop d.point.toNat ≠ [] := by
          rw [ne_eq, List.drop_eq_nil_iff]
          omega
        refine ⟨⟨htake, fun c hc => hdigits c (List.mem_of_mem_take hc)⟩, fun hzero => ?_, _, _,
          .present ⟨hdrop, fun c hc => hdigits c (List.mem_of_mem_drop hc)⟩, .absent,
          by simp [signOf]⟩
        dsimp only at hzero
        rw [List.head?_take, if_neg (by omega)] at hzero
        rw [h.leads hzero] at hinside
        simp at hinside
  · have hexponent := d.writesExponent_exponent
    cases heq : d.digits with
    | nil => exact absurd heq hne
    | cons c rest =>
      rw [heq] at hdigits
      obtain ⟨hc, hrest⟩ := List.forall_mem_cons.mp hdigits
      cases rest with
      | nil => exact ⟨⟨by simp, hdigits⟩, by simp, _, _, .absent, hexponent, by simp [signOf]⟩
      | cons next rest =>
        exact ⟨⟨by simp, List.forall_mem_singleton.mpr hc⟩, by simp, _, _,
          .present ⟨List.cons_ne_nil _ _, hrest⟩, hexponent, by simp [signOf]⟩

end Decimal

/-! ### Numbers -/

namespace JsonNumber

/-- How a number is spelled when it is printed. -/
def spelling : JsonNumber → Literal
  | .integer i => ⟨decide (i < 0), Nat.toDigits 10 i.natAbs, none, none⟩
  | .double x =>
    if x.isZero then ⟨x.negative, ['0'], some ['0'], none⟩
    else x.shortest.literal doubleLayout x.negative

theorem isWritten_spelling (n : JsonNumber) : n.spelling.IsWritten n.render := by
  cases n with
  | integer i =>
    refine ⟨isDigits_toDigits _, unpadded_toDigits, [], [], .absent, .absent, ?_⟩
    unfold render spelling Text.decimalInt Text.decimal
    dsimp only
    split
    · next hi => simp [hi]
    · next hi => simp [hi]
  | double x =>
    unfold render spelling Binary64.render
    dsimp only
    split
    · exact ⟨isDigits_zero, fun _ => rfl, _, _, .present isDigits_zero, .absent, by simp⟩
    · next hx =>
      have hnormal := Binary64.isNormal_shortest (Bool.eq_false_iff.mpr hx)
      exact Decimal.isWritten_literal hnormal doubleLayout x.negative

end JsonNumber

/-! ### Strings -/

theorem writesText_escapeChar {s cs : List Char} (c : Char) (h : WritesText s cs) :
    WritesText (c :: s) (Json.escapeChar c ++ cs) := by
  unfold Json.escapeChar
  split
  iterate 7 exact .letter (by decide) h
  · next hquote hbackslash _ _ _ _ _ =>
    split
    · next hcontrol =>
      have hunit := JsonToken.hexUnit?_hexDigit c.toNat hcontrol
      have hwrites := WritesText.unit hunit (by omega) h
      rwa [Char.ofNat_toNat] at hwrites
    · next hcontrol => exact .plain hquote hbackslash (Nat.not_lt.mp hcontrol) h

theorem writesText_flatMap (s : List Char) : WritesText s (s.flatMap Json.escapeChar) := by
  induction s with
  | nil => exact .nil
  | cons c s ih => exact writesText_escapeChar c ih

theorem isWritten_renderText (s : String) :
    (Lexeme.text s).IsWritten (Json.renderText s.toList) := .text (writesText_flatMap s.toList)

/-! ### Layouts -/

namespace Lexeme

variable {lexemes : List Lexeme} {cs : List Char}

/-- Blanks may stand anywhere between lexemes. -/
theorem Makes.blank {gap : List Char} (hgap : ∀ c ∈ gap, IsBlank c) (h : Makes lexemes cs) :
    Makes lexemes (gap ++ cs) := by
  cases h with
  | done hrest => exact .done (List.forall_mem_append.mpr ⟨hgap, hrest⟩)
  | @next lexeme lexemes front word cs hfront hword h =>
    rw [← List.append_assoc, ← List.append_assoc]
    exact .next (List.forall_mem_append.mpr ⟨hgap, hfront⟩) hword h

/-- Lexemes need no blanks between them. -/
theorem Makes.cons {lexeme : Lexeme} {word : List Char} (hword : lexeme.IsWritten word)
    (h : Makes lexemes cs) : Makes (lexeme :: lexemes) (word ++ cs) :=
  .next (List.forall_mem_nil _) hword h

/-- A sign in front of lexemes. -/
theorem Makes.sign {lexeme : Lexeme} {c : Char} (hword : lexeme.IsWritten [c])
    (h : Makes lexemes cs) : Makes (lexeme :: lexemes) (c :: cs) := .cons hword h

theorem isBlank_lineBreak (layout : Json.Layout) (level : Nat) :
    ∀ c ∈ layout.lineBreak level, IsBlank c := by
  cases layout with
  | compact => exact List.forall_mem_nil _
  | pretty =>
    refine List.forall_mem_cons.mpr ⟨.inr (.inr (.inl rfl)), fun c hc => ?_⟩
    exact .inl (List.eq_of_mem_replicate hc)

theorem Makes.lineBreak (layout : Json.Layout) (level : Nat) (h : Makes lexemes cs) :
    Makes lexemes (layout.lineBreak level ++ cs) := h.blank (isBlank_lineBreak layout level)

theorem Makes.colon (layout : Json.Layout) (h : Makes lexemes cs) :
    Makes (.colon :: lexemes) (layout.colon ++ cs) := by
  cases layout with
  | compact => exact .sign .colon h
  | pretty =>
    have hblank : ∀ c ∈ [' '], IsBlank c := List.forall_mem_singleton.mpr (.inl rfl)
    exact .sign .colon (h.blank hblank)

/-- A key, its colon and what stands behind them. -/
theorem Makes.field (layout : Json.Layout) (level : Nat) (key : String) (h : Makes lexemes cs) :
    Makes (.text key :: .colon :: lexemes) (layout.lineBreak level ++
      (Json.renderText key.toList ++ (layout.colon ++ cs))) :=
  .lineBreak layout level (.cons (isWritten_renderText key) (.colon layout h))

end Lexeme

/-! ### Values -/

namespace Document

open Lexeme (Makes)
open Json (renderAt renderItems renderFields)

/-- How a value is spelled when it is printed. -/
def spelled (document : Document JsonNumber) : Document JsonNumber.Literal :=
  document.map (·.spelling)

/-- How items are spelled. -/
def spelledItems (items : List (Document JsonNumber)) : List (Document JsonNumber.Literal) :=
  mapItems (·.spelling) items

/-- How fields are spelled. -/
def spelledFields (fields : List (String × Document JsonNumber)) :
    List (String × Document JsonNumber.Literal) := mapFields (·.spelling) fields

theorem spelled_array_cons (item : Document JsonNumber) (items : List (Document JsonNumber)) :
    (array (item :: items)).spelled = .array (item.spelled :: spelledItems items) := rfl

theorem spelled_object_cons (key : String) (value : Document JsonNumber)
    (fields : List (String × Document JsonNumber)) : (object ((key, value) :: fields)).spelled =
      .object ((key, value.spelled) :: spelledFields fields) := rfl

theorem spelledItems_cons (item : Document JsonNumber) (items : List (Document JsonNumber)) :
    spelledItems (item :: items) = item.spelled :: spelledItems items := rfl

theorem spelledFields_cons (key : String) (value : Document JsonNumber)
    (fields : List (String × Document JsonNumber)) :
    spelledFields ((key, value) :: fields) = (key, value.spelled) :: spelledFields fields := rfl

mutual

/-- What is printed for a value are the lexemes of its spelling. -/
theorem makes_renderAt (layout : Json.Layout) (document : Document JsonNumber) (level : Nat)
    {rest : List Lexeme} {cs : List Char} (h : Makes rest cs) :
    Makes (document.spelled.lexemes ++ rest) (renderAt layout level document.toJson ++ cs) := by
  match document with
  | .null => exact .cons .null h
  | .bool true => exact .cons .true h
  | .bool false => exact .cons .false h
  | .number n => exact .cons (.number n.isWritten_spelling) h
  | .string s => exact .cons (isWritten_renderText s) h
  | .array [] => exact .sign .arrayOpen (.sign .arrayClose h)
  | .object [] => exact .sign .objectOpen (.sign .objectClose h)
  | .array (item :: items) =>
    have hitems := makes_renderItems layout items level h
    have hitem := makes_renderAt layout item (level + 1) hitems
    simp only [toJson, toJsonItems, renderAt, List.cons_append, List.append_assoc]
    rw [spelled_array_cons, lexemes, List.cons_append, List.append_assoc]
    exact .sign .arrayOpen (hitem.lineBreak layout _)
  | .object ((key, value) :: fields) =>
    have hfields := makes_renderFields layout fields level h
    have hvalue := makes_renderAt layout value (level + 1) hfields
    simp only [toJson, toJsonFields, renderAt, List.cons_append, List.append_assoc]
    rw [spelled_object_cons, lexemes, List.cons_append, List.cons_append, List.cons_append,
      List.append_assoc]
    exact .sign .objectOpen (hvalue.field layout _ key)

theorem makes_renderItems (layout : Json.Layout) (items : List (Document JsonNumber)) (level : Nat)
    {rest : List Lexeme} {cs : List Char} (h : Makes rest cs) :
    Makes (lexemesOfItems (spelledItems items) ++ rest)
      (renderItems layout level (toJsonItems items) ++ cs) := by
  match items with
  | [] =>
    simp only [toJsonItems, renderItems, List.append_assoc]
    exact .lineBreak layout level (.sign .arrayClose h)
  | item :: items =>
    have hitems := makes_renderItems layout items level h
    have hitem := makes_renderAt layout item (level + 1) hitems
    simp only [toJsonItems, renderItems, List.cons_append, List.append_assoc]
    rw [spelledItems_cons, lexemesOfItems, List.cons_append, List.append_assoc]
    exact .sign .comma (hitem.lineBreak layout _)

theorem makes_renderFields (layout : Json.Layout) (fields : List (String × Document JsonNumber))
    (level : Nat) {rest : List Lexeme} {cs : List Char} (h : Makes rest cs) :
    Makes (lexemesOfFields (spelledFields fields) ++ rest)
      (renderFields layout level (toJsonFields fields) ++ cs) := by
  match fields with
  | [] =>
    simp only [toJsonFields, renderFields, List.append_assoc]
    exact .lineBreak layout level (.sign .objectClose h)
  | (key, value) :: fields =>
    have hfields := makes_renderFields layout fields level h
    have hvalue := makes_renderAt layout value (level + 1) hfields
    simp only [toJsonFields, renderFields, List.cons_append, List.append_assoc]
    rw [spelledFields_cons, lexemesOfFields, List.cons_append, List.cons_append, List.cons_append,
      List.append_assoc]
    exact .sign .comma (hvalue.field layout _ key)

end

end Document

end PackageRelease
