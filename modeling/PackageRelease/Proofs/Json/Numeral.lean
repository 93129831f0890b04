import Mathlib.Data.List.TakeWhile
import PackageRelease.Json.Printer
import PackageRelease.Proofs.Json.Reading

/-! # Numbers that are printed and read again

  A numeral is a text that is scanned to its end as one number. The key idea: a scanner that has
  come to the end of a text does the same in front of anything that does not go on with the number,
  so a numeral is one token wherever it is printed.

  The digits of a whole number are a numeral for it. Of a double it is only asked that its own text
  reads back.
-/

namespace PackageRelease

open Text (isDigit digitValue)

/-! ### Digits -/

/-- The decimal digits of a number are digits. -/
theorem Text.isDigit_of_mem_toDigits {n : Nat} {c : Char} (h : c ∈ Nat.toDigits 10 n) :
    isDigit c = true :=
  Nat.isDigit_of_mem_toDigits (by decide) (by decide) h

/-- No positive number begins with a zero. -/
theorem Text.head?_toDigits_ne {n : Nat} (h : 0 < n) : (Nat.toDigits 10 n).head? ≠ some '0' := by
  induction n using Nat.strongRecOn with
  | ind n ih =>
    rw [Nat.toDigits_eq_if (by decide)]
    split
    · next hsmall =>
      have hdigit : ∀ m < 10, 0 < m → [Nat.digitChar m].head? ≠ some '0' := by decide
      exact hdigit n hsmall h
    · next hlarge =>
      have hfront := ih (n / 10) (by omega) (by omega)
      rw [List.head?_append]
      cases hhead : (Nat.toDigits 10 (n / 10)).head? with
      | none => exact absurd (List.head?_eq_none_iff.mp hhead) Nat.toDigits_ne_nil
      | some c => rwa [hhead] at hfront

namespace JsonNumber

/-- The number that digits denote behind a number. -/
theorem le_foldl_digits (cs : List Char) (n : Nat) :
    n ≤ cs.foldl (fun n c => 10 * n + digitValue c) n := by
  induction cs generalizing n with
  | nil => exact Nat.le_refl n
  | cons c cs ih =>
    refine Nat.le_trans ?_ (ih (10 * n + digitValue c))
    omega

/-- Digits whose number is in range are taken to the last one. -/
theorem takeDigits_eq {cs : List Char} {n : Nat}
    (h : cs.foldl (fun n c => 10 * n + digitValue c) n ≤ significandLimit) :
    takeDigits cs n = (cs.foldl (fun n c => 10 * n + digitValue c) n, cs.length) := by
  induction cs generalizing n with
  | nil => rfl
  | cons c cs ih =>
    have hnext : ¬ significandLimit < 10 * n + digitValue c :=
      Nat.not_lt.mpr (Nat.le_trans (le_foldl_digits cs _) h)
    unfold takeDigits
    dsimp only
    rw [if_neg hnext, ih h]
    rfl

theorem takeDigits_toDigits {n : Nat} (h : n ≤ significandLimit) :
    takeDigits (Nat.toDigits 10 n) 0 = (n, (Nat.toDigits 10 n).length) := by
  have hvalue : (Nat.toDigits 10 n).foldl (fun n c => 10 * n + digitValue c) 0 = n := by
    have := Nat.ofDigitChars_ten_toDigits (n := n)
    rwa [Nat.ofDigitChars_eq_foldl] at this
  rw [takeDigits_eq (by rw [hvalue]; exact h), hvalue]

end JsonNumber

/-! ### Scanning in front of something else -/

namespace JsonToken

/-- Whether a number cannot go on with a text. -/
def EndsNumber (rest : List Char) : Prop :=
  ∀ c ∈ rest.head?, isDigit c = false ∧ c ≠ '.' ∧ c ≠ 'e' ∧ c ≠ 'E'

variable {rest : List Char}

theorem digitRun_append (hrest : EndsNumber rest) (cs : List Char) :
    digitRun (cs ++ rest) = ((digitRun cs).1, (digitRun cs).2 ++ rest) := by
  unfold digitRun
  induction cs with
  | nil =>
    cases rest with
    | nil => rfl
    | cons c rest =>
      obtain ⟨hc, -⟩ := hrest c rfl
      simp [hc]
  | cons c cs ih =>
    by_cases hc : isDigit c = true
    · simpa [hc] using ih
    · simp [hc]

theorem scanWhole_append (hrest : EndsNumber rest) {cs digits after : List Char}
    (h : scanWhole cs = .ok (digits, after)) :
    scanWhole (cs ++ rest) = .ok (digits, after ++ rest) := by
  unfold scanWhole at h ⊢
  rw [digitRun_append hrest]
  generalize digitRun cs = run at h ⊢
  obtain ⟨found, behind⟩ := run
  dsimp only at h ⊢
  -- the digits are the same, so the two errors are as far away as before
  split at h
  · cases h
  · cases h
  · next _ _ hnil hzero heq =>
    cases heq
    cases h
    split
    · next heq =>
      cases heq
      exact absurd rfl hnil
    · next heq =>
      cases heq
      exact absurd rfl (hzero _ _)
    · next heq =>
      cases heq
      rfl

theorem scanFraction_append (hrest : EndsNumber rest) {cs after : List Char}
    {fraction : Option (List Char)} (h : scanFraction cs = .ok (fraction, after)) :
    scanFraction (cs ++ rest) = .ok (fraction, after ++ rest) := by
  unfold scanFraction at h ⊢
  split at h
  · next behind =>
    simp only [List.cons_append, digitRun_append hrest]
    generalize digitRun behind = run at h ⊢
    obtain ⟨found, left⟩ := run
    cases found with
    | nil => cases h
    | cons c found =>
      cases h
      rfl
  · next hpoint =>
    cases h
    split
    · next behind heq =>
      cases cs with
      | nil =>
        -- a point behind the number would go on with it
        subst heq
        exact absurd rfl (hrest '.' rfl).2.1
      | cons c cs =>
        cases heq
        exact absurd rfl (hpoint cs)
    · rfl

/-- The exponent with given digits, if there are any. -/
def exponentOf (negative : Bool) :
    List Char × List Char → Except JsonError (Option (Bool × List Char) × List Char)
  | ([], after) => .error (missingDigit after)
  | (digits, after) => .ok (some (negative, digits), after)

theorem exponentOf_append (hrest : EndsNumber rest) {negative : Bool} {cs after : List Char}
    {exponent : Option (Bool × List Char)}
    (h : exponentOf negative (digitRun cs) = .ok (exponent, after)) :
    exponentOf negative (digitRun (cs ++ rest)) = .ok (exponent, after ++ rest) := by
  rw [digitRun_append hrest]
  generalize digitRun cs = run at h ⊢
  obtain ⟨found, behind⟩ := run
  cases found with
  | nil => cases h
  | cons c found =>
    cases h
    rfl

/-- The sign of an exponent, if there is one, stands in front of its digits. -/
theorem scanExponent_cons {c : Char} (hc : c = 'e' ∨ c = 'E') (cs : List Char) :
    scanExponent (c :: cs) =
      if cs.head? = some '+' then exponentOf false (digitRun cs.tail)
      else if cs.head? = some '-' then exponentOf true (digitRun cs.tail)
      else exponentOf false (digitRun cs) := by
  unfold scanExponent
  dsimp only
  rw [if_pos hc]
  cases cs with
  | nil => rfl
  | cons d cs =>
    by_cases hplus : d = '+'
    · subst hplus
      rfl
    by_cases hminus : d = '-'
    · subst hminus
      rfl
    rw [if_neg (by simpa using hplus), if_neg (by simpa using hminus)]
    simp only [List.cons.injEq, hplus, hminus, false_and, imp_self, implies_true]
    rfl

theorem scanExponent_append (hrest : EndsNumber rest) {cs after : List Char}
    {exponent : Option (Bool × List Char)} (h : scanExponent cs = .ok (exponent, after)) :
    scanExponent (cs ++ rest) = .ok (exponent, after ++ rest) := by
  cases cs with
  | nil =>
    cases h
    cases rest with
    | nil => rfl
    | cons c rest =>
      -- what stands behind the number does not begin an exponent
      obtain ⟨-, -, he, hE⟩ := hrest c rfl
      unfold scanExponent
      rw [List.nil_append]
      dsimp only
      rw [if_neg (not_or.mpr ⟨he, hE⟩)]
  | cons c cs =>
    by_cases hc : c = 'e' ∨ c = 'E'
    · rw [scanExponent_cons hc] at h
      rw [List.cons_append, scanExponent_cons hc]
      cases cs with
      | nil => cases h
      | cons d cs =>
        rw [List.head?_cons, List.tail_cons] at h
        rw [List.cons_append, List.head?_cons, List.tail_cons]
        split at h
        · next hplus =>
          rw [if_pos hplus]
          exact exponentOf_append hrest h
        · next hplus =>
          rw [if_neg hplus]
          split at h
          · next hminus =>
            rw [if_pos hminus]
            exact exponentOf_append hrest h
          · next hminus =>
            rw [if_neg hminus]
            exact exponentOf_append hrest h
    · unfold scanExponent at h ⊢
      rw [List.cons_append]
      dsimp only at h ⊢
      rw [if_neg hc] at h ⊢
      cases h
      rfl

theorem scanUnsigned_append (hrest : EndsNumber rest) {negative : Bool} {cs after : List Char}
    {literal : JsonNumber.Literal} (h : scanUnsigned negative cs = .ok (literal, after)) :
    scanUnsigned negative (cs ++ rest) = .ok (literal, after ++ rest) := by
  -- each part ends where it ended before, with more behind it
  obtain ⟨⟨whole, behindWhole⟩, hwhole, h⟩ := bind_eq_ok.mp h
  obtain ⟨⟨fraction, behindFraction⟩, hfraction, h⟩ := bind_eq_ok.mp h
  obtain ⟨⟨exponent, behindExponent⟩, hexponent, h⟩ := bind_eq_ok.mp h
  cases h
  refine bind_eq_ok.mpr ⟨_, scanWhole_append hrest hwhole, ?_⟩
  refine bind_eq_ok.mpr ⟨_, scanFraction_append hrest hfraction, ?_⟩
  exact bind_eq_ok.mpr ⟨_, scanExponent_append hrest hexponent, rfl⟩

/-! ### Numerals -/

/-- Scans the parts of a number that begins with `c`. -/
def scanParts (c : Char) (cs : List Char) : Except JsonError (JsonNumber.Literal × List Char) :=
  if c = '-' then scanUnsigned true cs else scanUnsigned false (c :: cs)

theorem scanParts_append (hrest : EndsNumber rest) {c : Char} {cs after : List Char}
    {literal : JsonNumber.Literal} (h : scanParts c cs = .ok (literal, after)) :
    scanParts c (cs ++ rest) = .ok (literal, after ++ rest) := by
  unfold scanParts at h ⊢
  split
  · next hc =>
    rw [if_pos hc] at h
    exact scanUnsigned_append hrest h
  · next hc =>
    rw [if_neg hc] at h
    rw [← List.cons_append]
    exact scanUnsigned_append hrest h

/-- Whether a text is scanned to its end as a number. -/
def IsNumeral (text : List Char) (n : JsonNumber) : Prop :=
  ∃ c cs literal, text = c :: cs ∧ (c = '-' ∨ isDigit c = true) ∧
    scanParts c cs = .ok (literal, []) ∧ JsonNumber.ofLiteral? literal = some n

/-- A character of a number separates nothing and is the beginning of nothing else. -/
theorem scan_eq_scanNumber {c : Char} (h : c = '-' ∨ isDigit c = true) (cs : List Char) :
    isSpace c = false ∧ scan c cs = scanNumber c cs := by
  have hspace : isSpace c = false := by
    rcases h with rfl | h
    · rfl
    · unfold isSpace
      by_contra hc
      simp only [Bool.not_eq_false, Bool.or_eq_true, decide_eq_true_iff] at hc
      rcases hc with ((rfl | rfl) | rfl) | rfl <;> cases h
  refine ⟨hspace, ?_⟩
  unfold scan
  -- no other token begins with a digit or a minus sign
  split
  iterate 10
    rcases h with h | h
    · cases h
    · cases h
  rw [if_pos]
  simpa using h

theorem scanNumber_eq (c : Char) (cs : List Char) :
    scanNumber c cs = match scanParts c cs with
      | .error fault => (.bad fault, 0)
      | .ok (literal, after) =>
        match JsonNumber.ofLiteral? literal with
        | some n => (.scalar (.number n), cs.length - after.length)
        | none => (.bad .numberOutOfRange, 0) := rfl

/-- A token whose characters are skipped. -/
theorem tokens_cons {c : Char} {lead : List Char} {token : JsonToken} (hspace : isSpace c = false)
    (h : scan c (lead ++ rest) = (token, lead.length)) :
    tokens (c :: lead ++ rest) = token :: tokens rest := by
  unfold tokens
  rw [List.cons_append, tokensFrom, hspace, h]
  exact congrArg (token :: ·) (tokensFrom_append lead rest)

/-- A numeral is one token in front of anything with which it cannot go on. -/
theorem tokens_of_isNumeral {text : List Char} {n : JsonNumber} (h : IsNumeral text n)
    (hrest : EndsNumber rest) : tokens (text ++ rest) = .scalar (.number n) :: tokens rest := by
  obtain ⟨c, cs, literal, rfl, hc, hparts, hliteral⟩ := h
  obtain ⟨hspace, hscan⟩ := scan_eq_scanNumber hc (cs ++ rest)
  refine tokens_cons hspace (hscan.trans ?_)
  rw [scanNumber_eq, scanParts_append hrest hparts]
  dsimp only
  rw [hliteral, List.nil_append, List.length_append, Nat.add_sub_cancel]

end JsonToken

/-! ### Whole numbers -/

open JsonToken

theorem scanUnsigned_toDigits (negative : Bool) (n : Nat) :
    scanUnsigned negative (Nat.toDigits 10 n) =
      .ok (⟨negative, Nat.toDigits 10 n, none, none⟩, []) := by
  have hrun : digitRun (Nat.toDigits 10 n) = (Nat.toDigits 10 n, []) := by
    unfold digitRun
    rw [List.takeWhile_eq_self_iff.mpr fun c => Text.isDigit_of_mem_toDigits,
      List.dropWhile_eq_nil_iff.mpr fun c => Text.isDigit_of_mem_toDigits]
  have hwhole : scanWhole (Nat.toDigits 10 n) = .ok (Nat.toDigits 10 n, []) := by
    unfold scanWhole
    rw [hrun]
    split
    · next heq => exact absurd (congrArg Prod.fst heq) Nat.toDigits_ne_nil
    · next heq =>
      -- a number of more than one digit is positive and does not begin with a zero
      have hdigits := congrArg Prod.fst heq
      dsimp only at hdigits
      rcases Nat.eq_zero_or_pos n with rfl | hpos
      · rw [Nat.toDigits_zero] at hdigits
        cases hdigits
      · exact absurd (by rw [hdigits]; rfl) (Text.head?_toDigits_ne hpos)
    · next heq =>
      cases heq
      rfl
  refine bind_eq_ok.mpr ⟨_, hwhole, ?_⟩
  rfl

/-- Digits without a sign denote their number. -/
theorem JsonNumber.ofLiteral?_toDigits {n : Nat} (h : n ≤ significandLimit) :
    ofLiteral? ⟨false, Nat.toDigits 10 n, none, none⟩ = some (.integer n) := by
  unfold ofLiteral?
  dsimp only
  rw [takeDigits_toDigits h]
  dsimp only
  rw [if_pos (Nat.sub_self _)]
  rfl

/-- Digits behind a minus sign denote the negative number, if it has a place. -/
theorem JsonNumber.ofLiteral?_neg_toDigits {n : Nat} (h : n ≤ significandLimit) (hpos : 0 < n)
    (hsigned : Word.holdsSigned 64 (-n) = true) :
    ofLiteral? ⟨true, Nat.toDigits 10 n, none, none⟩ = some (.integer (-n)) := by
  unfold ofLiteral?
  dsimp only
  rw [takeDigits_toDigits h]
  dsimp only
  rw [if_pos (Nat.sub_self _), if_neg (by decide), if_pos ⟨hpos, hsigned⟩]
  rfl

/-- The decimal text of a whole number is a numeral for it. -/
theorem isNumeral_integer {i : Int} (h : JsonNumber.InRange (.integer i)) :
    IsNumeral (JsonNumber.integer i).render (.integer i) := by
  rw [JsonNumber.inRange_integer_iff] at h
  have hlimit : i.natAbs ≤ JsonNumber.significandLimit := by
    rw [JsonNumber.significandLimit_eq]
    omega
  rw [JsonNumber.render, Text.decimalInt, Text.decimal]
  by_cases hi : i < 0
  · have hsigned : Word.holdsSigned 64 (-i.natAbs) = true := by
      rw [Word.holdsSigned_iff]
      omega
    have hnumber := JsonNumber.ofLiteral?_neg_toDigits hlimit (by omega) hsigned
    rw [show -(i.natAbs : Int) = i by omega] at hnumber
    rw [if_pos hi, String.toList_append, String.toList_ofList, String.toList_ofList]
    exact ⟨'-', Nat.toDigits 10 i.natAbs, _, rfl, .inl rfl,
      scanUnsigned_toDigits true i.natAbs, hnumber⟩
  · have hnumber := JsonNumber.ofLiteral?_toDigits hlimit
    rw [show (i.natAbs : Int) = i by omega] at hnumber
    have hscanned := scanUnsigned_toDigits false i.natAbs
    rw [if_neg hi, String.toList_ofList]
    cases hdigits : Nat.toDigits 10 i.natAbs with
    | nil => exact absurd hdigits Nat.toDigits_ne_nil
    | cons c cs =>
      have hc : isDigit c = true := Text.isDigit_of_mem_toDigits (hdigits ▸ List.mem_cons_self)
      have hne : c ≠ '-' := by
        rintro rfl
        cases hc
      rw [hdigits] at hscanned hnumber
      refine ⟨c, cs, _, rfl, .inr hc, ?_, hnumber⟩
      rw [scanParts, if_neg hne]
      exact hscanned

/-! ### Doubles -/

/-- Whether a character can stand in the text of a double. -/
def Text.isNumberChar (c : Char) : Bool := isDigit c || c ∈ ['-', '+', '.', 'e']

open Text (isNumberChar)

theorem Text.isNumberChar_of_isDigit {c : Char} (h : isDigit c = true) : isNumberChar c = true := by
  unfold isNumberChar
  rw [h, Bool.true_or]

theorem Text.isNumberChar_of_mem_toDigits {n : Nat} {c : Char} (h : c ∈ Nat.toDigits 10 n) :
    isNumberChar c = true :=
  isNumberChar_of_isDigit (isDigit_of_mem_toDigits h)

namespace Decimal

theorem isNumberChar_of_mem_renderExponent {e : Int} {c : Char} (h : c ∈ renderExponent e) :
    isNumberChar c = true := by
  unfold renderExponent at h
  rw [Text.decimal, String.toList_ofList] at h
  rcases List.mem_cons.mp h with rfl | h
  · rfl
  rcases List.mem_cons.mp h with rfl | h
  · split <;> rfl
  · exact Text.isNumberChar_of_mem_toDigits h

/-- Laying out digits adds only characters of numbers. -/
theorem isNumberChar_of_mem_render {d : Decimal} (hdigits : ∀ c ∈ d.digits, isNumberChar c = true)
    {layout : DecimalLayout} {c : Char} (h : c ∈ d.render layout) : isNumberChar c = true := by
  unfold render at h
  dsimp only at h
  split at h
  · -- positional forms add zeros and a point
    split at h
    · simp only [List.mem_append, List.mem_cons, List.mem_replicate] at h
      rcases h with (rfl | rfl | ⟨-, rfl⟩) | h
      · rfl
      · rfl
      · rfl
      · exact hdigits c h
    split at h
    · simp only [List.mem_append, List.mem_cons, List.mem_replicate, List.not_mem_nil,
        or_false] at h
      rcases h with (h | ⟨-, rfl⟩) | rfl | rfl
      · exact hdigits c h
      · rfl
      · rfl
      · rfl
    · rcases List.mem_append.mp h with h | h
      · exact hdigits c (List.mem_of_mem_take h)
      rcases List.mem_cons.mp h with rfl | h
      · rfl
      · exact hdigits c (List.mem_of_mem_drop h)
  · -- the other forms add an exponent
    split at h
    · simp only [List.mem_cons, List.not_mem_nil, or_false] at h
      rcases h with rfl | rfl | rfl <;> rfl
    · next first hfirst =>
      rcases List.mem_cons.mp h with rfl | h
      · exact hdigits c (hfirst ▸ List.mem_cons_self)
      · exact isNumberChar_of_mem_renderExponent h
    · next first rest _ hfirst =>
      rcases List.mem_append.mp h with h | h
      · rcases List.mem_cons.mp h with rfl | h
        · exact hdigits c (hfirst ▸ List.mem_cons_self)
        rcases List.mem_cons.mp h with rfl | h
        · rfl
        · exact hdigits c (hfirst ▸ List.mem_cons_of_mem _ h)
      · exact isNumberChar_of_mem_renderExponent h

end Decimal

namespace Binary64

theorem isNumberChar_of_mem_shortest {x : Binary64} {c : Char} (h : c ∈ x.shortest.digits) :
    isNumberChar c = true := by
  unfold shortest at h
  cases hfound : (List.range 17).findSome? fun k => x.candidate? (k + 1) with
  | none =>
    rw [hfound] at h
    obtain rfl := List.mem_singleton.mp h
    rfl
  | some d =>
    rw [hfound] at h
    -- the digits are those of a whole number without zeros at the end
    obtain ⟨k, -, hk⟩ := List.exists_of_findSome?_eq_some hfound
    obtain ⟨n, -, rfl⟩ := Option.map_eq_some_iff.mp hk
    have hmem := (List.dropWhile_sublist _).subset (List.mem_reverse.mp h)
    exact Text.isNumberChar_of_mem_toDigits (List.mem_reverse.mp hmem)

theorem isNumberChar_of_mem_render {x : Binary64} {layout : DecimalLayout} {c : Char}
    (h : c ∈ x.render layout) : isNumberChar c = true := by
  unfold render at h
  dsimp only at h
  have hsign : c ∈ (if x.negative = true then ['-'] else []) → isNumberChar c = true := by
    intro h
    split at h
    · obtain rfl := List.mem_singleton.mp h
      rfl
    · cases h
  split at h
  · rcases List.mem_append.mp h with h | h
    · exact hsign h
    · simp only [List.mem_cons, List.not_mem_nil, or_false] at h
      rcases h with rfl | rfl | rfl <;> rfl
  · rcases List.mem_append.mp h with h | h
    · exact hsign h
    · exact Decimal.isNumberChar_of_mem_render (fun c => isNumberChar_of_mem_shortest) h

end Binary64

namespace JsonToken

/-- Tokens are left out of a text without white space only if all of it is skipped. -/
theorem length_le_of_tokensFrom_eq_nil {skip : Nat} {cs : List Char}
    (hspace : ∀ c ∈ cs, isSpace c = false) (h : tokensFrom skip cs = []) : cs.length ≤ skip := by
  induction cs generalizing skip with
  | nil => exact Nat.zero_le skip
  | cons c cs ih =>
    cases skip with
    | succ skip =>
      exact Nat.succ_le_succ (ih (fun d hd => hspace d (List.mem_cons_of_mem _ hd)) h)
    | zero =>
      rw [tokensFrom, hspace c List.mem_cons_self] at h
      cases h

theorem isSpace_of_isNumberChar {c : Char} (h : isNumberChar c = true) : isSpace c = false := by
  unfold isSpace
  by_contra hc
  simp only [Bool.not_eq_false, Bool.or_eq_true, decide_eq_true_iff] at hc
  rcases hc with ((rfl | rfl) | rfl) | rfl <;> cases h

theorem after_eq_nil_of_scanParts {c : Char} (hc : c = '-' ∨ isDigit c = true) {after : List Char}
    {literal : JsonNumber.Literal} (h : scanParts c [] = .ok (literal, after)) : after = [] := by
  rcases hc with rfl | hc
  · cases h
  · have hne : c ≠ '-' := by
      rintro rfl
      cases hc
    have hrun : digitRun [c] = ([c], []) := by simp [digitRun, hc]
    rw [scanParts, if_neg hne] at h
    obtain ⟨⟨whole, behindWhole⟩, hwhole, h⟩ := bind_eq_ok.mp h
    unfold scanWhole at hwhole
    rw [hrun] at hwhole
    split at hwhole
    · cases hwhole
    · cases hwhole
    · next heq =>
      cases heq
      cases hwhole
      cases h
      rfl

/-- Nothing is left behind a number if no further token is found there. -/
theorem after_eq_nil_of_tokensFrom {c : Char} (hc : c = '-' ∨ isDigit c = true)
    {cs after : List Char} {literal : JsonNumber.Literal}
    (hparts : scanParts c cs = .ok (literal, after)) (hspace : ∀ d ∈ cs, isSpace d = false)
    (hnil : tokensFrom (cs.length - after.length) cs = []) : after = [] := by
  have hle := length_le_of_tokensFrom_eq_nil hspace hnil
  cases cs with
  | nil => exact after_eq_nil_of_scanParts hc hparts
  | cons d cs =>
    rw [List.length_cons] at hle
    exact List.eq_nil_of_length_eq_zero (by omega)

/-- The other characters of numbers begin no value. -/
theorem not_begins_value {c : Char} (hchar : isNumberChar c = true)
    (hc : ¬(c = '-' ∨ isDigit c = true)) (cs : List Char) :
    ∃ fault, Json.Reader.start.step (scan c cs).1 = .error fault := by
  unfold isNumberChar at hchar
  rw [Bool.or_eq_true, decide_eq_true_iff] at hchar
  simp only [List.mem_cons, List.not_mem_nil, or_false] at hchar
  rcases hchar with hdigit | rfl | rfl | rfl | rfl
  · exact absurd (.inr hdigit) hc
  · exact absurd (.inl rfl) hc
  · exact ⟨_, rfl⟩
  · exact ⟨_, rfl⟩
  · exact ⟨_, rfl⟩

/-- A text of characters of numbers that is read as a number is a numeral for it. -/
theorem isNumeral_of_parseChars {text : List Char} {n : JsonNumber}
    (hchars : ∀ c ∈ text, isNumberChar c = true)
    (h : Json.parseChars text = .ok (.number n)) : IsNumeral text n := by
  obtain ⟨last, hrun, hfinish⟩ := bind_eq_ok.mp h
  cases text with
  | nil =>
    cases hrun
    cases hfinish
  | cons c cs =>
    have hspace := isSpace_of_isNumberChar (hchars c List.mem_cons_self)
    rw [tokens, tokensFrom, hspace, if_neg Bool.false_ne_true, Json.Reader.run_cons] at hrun
    obtain ⟨next, hstep, hrest⟩ := bind_eq_ok.mp hrun
    by_cases hc : c = '-' ∨ isDigit c = true
    · rw [(scan_eq_scanNumber hc cs).2, scanNumber_eq] at hstep hrest
      cases hparts : scanParts c cs with
      | error fault =>
        rw [hparts] at hstep
        cases hstep
      | ok parts =>
        obtain ⟨literal, after⟩ := parts
        rw [hparts] at hstep hrest
        dsimp only at hstep hrest
        cases hliteral : JsonNumber.ofLiteral? literal with
        | none =>
          rw [hliteral] at hstep
          cases hstep
        | some value =>
          rw [hliteral] at hstep hrest
          dsimp only at hrest
          cases hstep
          obtain ⟨hnil, rfl⟩ := Json.Reader.eq_nil_of_run_nothing hrest
          cases hfinish
          have hafter := after_eq_nil_of_tokensFrom hc hparts
            (fun d hd => isSpace_of_isNumberChar (hchars d (List.mem_cons_of_mem _ hd))) hnil
          subst hafter
          exact ⟨c, cs, literal, rfl, hc, hparts, hliteral⟩
    · obtain ⟨fault, hfault⟩ := not_begins_value (hchars c List.mem_cons_self) hc cs
      cases hfault.symm.trans hstep

end JsonToken

/-- The text of a double that reads back is a numeral for it. -/
theorem isNumeral_double {x : Binary64}
    (h : Json.parse (Json.compact (.number (.double x))) = .ok (.number (.double x))) :
    IsNumeral (JsonNumber.double x).render (.double x) := by
  refine isNumeral_of_parseChars (fun c => Binary64.isNumberChar_of_mem_render) ?_
  unfold Json.parse Json.compact Json.render at h
  rwa [String.toList_ofList, Json.renderAt] at h

end PackageRelease
