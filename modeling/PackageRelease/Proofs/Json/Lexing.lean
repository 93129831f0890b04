import Mathlib.Data.List.Chain
import PackageRelease.Proofs.Json.Grammar
import PackageRelease.Proofs.Json.Printing

/-! # Texts are cut into their lexemes

  Whatever a text is made of, the reader sees: each lexeme becomes one token, in the same order. The
  only lexeme that can be refused is a number that no double is near. The key idea: only a number
  has no end of its own, and in a document it is followed by a sign or by nothing.
-/

namespace PackageRelease

open Text (isDigit)

namespace JsonToken

variable {rest : List Char}

/-! ### Numbers -/

open JsonNumber.Literal (IsDigits WritesFraction WritesExponent)

/-- Whether no further digit stands in front. -/
def EndsDigits (rest : List Char) : Prop := ∀ c ∈ rest.head?, isDigit c = false

theorem digitRun_of_isDigits {digits : List Char} (h : ∀ c ∈ digits, isDigit c = true)
    (hrest : EndsDigits rest) : digitRun (digits ++ rest) = (digits, rest) := by
  have hstop : rest.takeWhile isDigit = [] ∧ rest.dropWhile isDigit = rest := by
    cases rest with
    | nil => exact ⟨rfl, rfl⟩
    | cons c rest =>
      have hc := hrest c rfl
      exact ⟨List.takeWhile_cons_of_neg (by rw [hc]; decide),
        List.dropWhile_cons_of_neg (by rw [hc]; decide)⟩
  unfold digitRun
  rw [List.takeWhile_append_of_pos h, List.dropWhile_append_of_pos h, hstop.1, hstop.2,
    List.append_nil]

theorem scanWhole_of_isDigits {digits : List Char} (h : IsDigits digits)
    (hunpadded : digits.head? = some '0' → digits = ['0']) (hrest : EndsDigits rest) :
    scanWhole (digits ++ rest) = .ok (digits, rest) := by
  unfold scanWhole
  rw [digitRun_of_isDigits h.2 hrest]
  split
  · next heq => exact absurd (Prod.mk.inj heq).1 h.1
  · next heq =>
    have hdigits := (Prod.mk.inj heq).1
    rw [hunpadded (by rw [hdigits]; rfl)] at hdigits
    cases hdigits
  · next heq =>
    cases heq
    rfl

theorem scanFraction_of_writes {fraction : Option (List Char)} {cs : List Char}
    (h : WritesFraction fraction cs) (hrest : EndsDigits rest) (hpoint : rest.head? ≠ some '.') :
    scanFraction (cs ++ rest) = .ok (fraction, rest) := by
  cases h with
  | absent =>
    unfold scanFraction
    rw [List.nil_append]
    split
    · exact absurd rfl hpoint
    · rfl
  | @present digits h =>
    unfold scanFraction
    rw [List.cons_append]
    simp only [digitRun_of_isDigits h.2 hrest]
    cases digits with
    | nil => exact absurd rfl h.1
    | cons d digits => rfl

theorem scanExponent_of_writes {exponent : Option (Bool × List Char)} {cs : List Char}
    (h : WritesExponent exponent cs) (hrest : EndsNumber rest) :
    scanExponent (cs ++ rest) = .ok (exponent, rest) := by
  have hends : EndsDigits rest := fun c hc => (hrest c hc).1
  have hexponentOf : ∀ {negative : Bool} {digits : List Char}, IsDigits digits →
      exponentOf negative (digitRun (digits ++ rest)) = .ok (some (negative, digits), rest) := by
    intro negative digits h
    rw [digitRun_of_isDigits h.2 hends]
    cases digits with
    | nil => exact absurd rfl h.1
    | cons d digits => rfl
  cases h with
  | absent =>
    show scanExponent ([] ++ rest) = .ok (none, [] ++ rest)
    exact scanExponent_append hrest rfl
  | @unsigned digits mark hmark h =>
    rw [List.cons_append, scanExponent_cons hmark]
    cases digits with
    | nil => exact absurd rfl h.1
    | cons d digits =>
      have hd := h.2 d List.mem_cons_self
      have hplus : d ≠ '+' := by
        rintro rfl
        cases hd
      have hminus : d ≠ '-' := by
        rintro rfl
        cases hd
      rw [List.cons_append, List.head?_cons, if_neg (by simpa using hplus),
        if_neg (by simpa using hminus), ← List.cons_append]
      exact hexponentOf h
  | @signed digits mark negative hmark h =>
    rw [List.cons_append, scanExponent_cons hmark]
    cases negative with
    | true => exact hexponentOf h
    | false => exact hexponentOf h

/-- Neither a digit nor a point stands where the exponent is. -/
theorem head?_of_writesExponent {exponent : Option (Bool × List Char)} {cs : List Char}
    (h : WritesExponent exponent cs) (hrest : EndsNumber rest) :
    EndsDigits (cs ++ rest) ∧ (cs ++ rest).head? ≠ some '.' := by
  have hmark : ∀ {mark : Char} {tail : List Char}, mark = 'e' ∨ mark = 'E' →
      EndsDigits (mark :: tail) ∧ (mark :: tail).head? ≠ some '.' := by
    rintro mark tail (rfl | rfl)
    · refine ⟨?_, by simp⟩
      rintro _ ⟨⟩
      rfl
    · refine ⟨?_, by simp⟩
      rintro _ ⟨⟩
      rfl
  cases h with
  | absent => exact ⟨fun c hc => (hrest c hc).1, fun hpoint => (hrest '.' hpoint).2.1 rfl⟩
  | unsigned h _ => exact hmark h
  | signed h _ => exact hmark h

/-- A number is scanned to its end. -/
theorem scanParts_of_isWritten {l : JsonNumber.Literal} {cs : List Char} (h : l.IsWritten cs)
    (hrest : EndsNumber rest) : ∃ c tail, cs = c :: tail ∧ (c = '-' ∨ isDigit c = true) ∧
      scanParts c (tail ++ rest) = .ok (l, rest) := by
  obtain ⟨negative, whole, fraction?, exponent?⟩ := l
  obtain ⟨hwhole, hunpadded, fraction, exponent, hfraction, hexponent, rfl⟩ := h
  obtain ⟨hends, hpoint⟩ := head?_of_writesExponent hexponent hrest
  have hendsWhole : EndsDigits (fraction ++ (exponent ++ rest)) := by
    cases hfraction with
    | absent => exact hends
    | present _ =>
      rintro _ ⟨⟩
      rfl
  have hscan : scanUnsigned negative (whole ++ (fraction ++ (exponent ++ rest))) =
      .ok (⟨negative, whole, fraction?, exponent?⟩, rest) := by
    refine bind_eq_ok.mpr ⟨_, scanWhole_of_isDigits hwhole hunpadded hendsWhole, ?_⟩
    refine bind_eq_ok.mpr ⟨_, scanFraction_of_writes hfraction hends hpoint, ?_⟩
    exact bind_eq_ok.mpr ⟨_, scanExponent_of_writes hexponent hrest, rfl⟩
  cases negative with
  | true =>
    refine ⟨'-', whole ++ fraction ++ exponent, by simp, .inl rfl, ?_⟩
    unfold scanParts
    rw [if_pos rfl, List.append_assoc, List.append_assoc]
    exact hscan
  | false =>
    cases whole with
    | nil => exact absurd rfl hwhole.1
    | cons c digits =>
      have hc := hwhole.2 c List.mem_cons_self
      refine ⟨c, digits ++ fraction ++ exponent, rfl, .inr hc, ?_⟩
      unfold scanParts
      rw [if_neg (by rintro rfl; cases hc), List.append_assoc, List.append_assoc]
      exact hscan

/-- A number becomes one token, unless no double is near. -/
theorem tokens_of_isWritten {l : JsonNumber.Literal} {cs : List Char} (h : l.IsWritten cs)
    (hrest : EndsNumber rest) : (∃ n, JsonNumber.ofLiteral? l = some n ∧
      tokens (cs ++ rest) = .scalar (.number n) :: tokens rest) ∨
    JsonNumber.ofLiteral? l = none ∧ .bad .numberOutOfRange ∈ tokens (cs ++ rest) := by
  obtain ⟨c, tail, rfl, hc, hparts⟩ := scanParts_of_isWritten h hrest
  obtain ⟨hspace, hscan⟩ := scan_eq_scanNumber hc (tail ++ rest)
  rw [scanNumber_eq, hparts] at hscan
  dsimp only at hscan
  cases hliteral : JsonNumber.ofLiteral? l with
  | some n =>
    rw [hliteral, List.length_append, Nat.add_sub_cancel] at hscan
    exact .inl ⟨n, rfl, tokens_cons hspace hscan⟩
  | none =>
    rw [hliteral] at hscan
    refine .inr ⟨rfl, ?_⟩
    unfold tokens
    rw [List.cons_append, tokensFrom, hspace, hscan]
    exact List.mem_cons_self

/-! ### Strings -/

theorem scanText_letter {letter c : Char} (hunit : letter ≠ 'u') (h : shortEscape? letter = some c)
    (rest : List Char) : scanText ('\\' :: letter :: rest) = pushChar c 2 (scanText rest) := by
  rw [scanText.eq_def]
  split
  · next heq => cases heq
  · next heq => cases heq
  · next heq => exact absurd (List.cons.inj (List.cons.inj heq).2).1 hunit
  · next heq => exact absurd (List.cons.inj (List.cons.inj heq).2).1 hunit
  · next heq => cases heq
  · next heq =>
    cases heq
    rw [h]
  · next hbackslash heq =>
    cases heq
    exact (hbackslash letter rest rfl rfl).elim

theorem scanText_unit {a b c d : Char} {n : Nat} (hn : hexUnit? a b c d = some n)
    (hchar : n < 0xD800 ∨ 0xDFFF < n) (rest : List Char) :
    scanText ('\\' :: 'u' :: a :: b :: c :: d :: rest) =
      pushChar (Char.ofNat n) 6 (scanText rest) := by
  rw [scanText, hn]
  dsimp only
  rw [if_neg (by omega), if_neg (by omega)]

theorem scanText_pair {a b c d e f g h : Char} {high low : Nat}
    (hhigh : hexUnit? a b c d = some high) (hhighRange : 0xD800 ≤ high ∧ high ≤ 0xDBFF)
    (hlow : hexUnit? e f g h = some low) (hlowRange : 0xDC00 ≤ low ∧ low ≤ 0xDFFF)
    (rest : List Char) :
    scanText ('\\' :: 'u' :: a :: b :: c :: d :: '\\' :: 'u' :: e :: f :: g :: h :: rest) =
      pushChar (surrogatePair high low) 12 (scanText rest) := by
  rw [scanText, hhigh]
  dsimp only
  rw [if_neg (by omega), if_pos hhighRange]
  simp only [hlow]
  exact if_pos hlowRange

/-- A string is scanned to its closing quote. -/
theorem scanText_of_writesText {s cs : List Char} (h : WritesText s cs) (rest : List Char) :
    scanText (cs ++ '"' :: rest) = .ok (s, cs.length + 1) := by
  have hpush : ∀ {c : Char} {s : List Char} {n k : Nat}, k + n = n + k →
      pushChar c n (.ok (s, k + 1)) = .ok (c :: s, k + n + 1) := by
    intro c s n k hcomm
    rw [hcomm]
    rfl
  induction h with
  | nil => rfl
  | plain hquote hbackslash hcontrol _ ih =>
    rw [List.cons_append, scanText_plain hquote hbackslash (Nat.not_lt.mpr hcontrol), ih]
    exact hpush (Nat.add_comm _ _)
  | @letter c letter s cs hletter _ ih =>
    have hescape : letter ≠ 'u' ∧ shortEscape? letter = some c := by
      simp only [List.mem_cons, Prod.mk.injEq, List.not_mem_nil, or_false] at hletter
      rcases hletter with ⟨rfl, rfl⟩ | ⟨rfl, rfl⟩ | ⟨rfl, rfl⟩ | ⟨rfl, rfl⟩ | ⟨rfl, rfl⟩ |
        ⟨rfl, rfl⟩ | ⟨rfl, rfl⟩ | ⟨rfl, rfl⟩ <;> exact ⟨by decide, rfl⟩
    rw [List.cons_append, List.cons_append, scanText_letter hescape.1 hescape.2, ih]
    exact hpush (Nat.add_comm _ _)
  | unit hn hchar _ ih =>
    simp only [List.cons_append]
    rw [scanText_unit hn hchar, ih]
    exact hpush (Nat.add_comm _ _)
  | pair hhigh hhighRange hlow hlowRange _ ih =>
    simp only [List.cons_append]
    rw [scanText_pair hhigh hhighRange hlow hlowRange, ih, surrogatePair, Nat.add_comm _ 0x10000,
      ← Nat.add_assoc]
    exact hpush (Nat.add_comm _ _)

end JsonToken

/-! ### Lexemes -/

namespace Lexeme

open JsonToken

/-- The token that a lexeme becomes. -/
def token : Lexeme → JsonToken
  | .arrayOpen => .arrayOpen
  | .arrayClose => .arrayClose
  | .objectOpen => .objectOpen
  | .objectClose => .objectClose
  | .comma => .comma
  | .colon => .colon
  | .null => .scalar .null
  | .bool value => .scalar (.bool value)
  | .number l =>
    match JsonNumber.ofLiteral? l with
    | some n => .scalar (.number n)
    | none => .bad .numberOutOfRange
  | .text s => .text s

/-- Whether a number may end in front of a lexeme. -/
def isSign : Lexeme → Bool
  | .arrayClose | .objectClose | .comma => true
  | _ => false

/-- Whether a lexeme may stand in front of another one. -/
def StandsBefore (lexeme next : Lexeme) : Prop := ∀ l, lexeme = .number l → next.isSign = true

theorem endsNumber_of_isBlank {c : Char} (h : IsBlank c) :
    isDigit c = false ∧ c ≠ '.' ∧ c ≠ 'e' ∧ c ≠ 'E' := by
  rcases h with rfl | rfl | rfl | rfl <;> decide

/-- No number goes on in front of what may stand behind it. -/
theorem Makes.endsNumber {lexemes : List Lexeme} {cs : List Char} (h : Makes lexemes cs)
    (hnext : ∀ next ∈ lexemes.head?, next.isSign = true) : EndsNumber cs := by
  cases h with
  | done hgap => exact fun c hc => endsNumber_of_isBlank (hgap c (List.mem_of_mem_head? hc))
  | @next lexeme lexemes gap word cs hgap hword h =>
    have hsign := hnext lexeme rfl
    cases gap with
    | cons c gap =>
      rintro _ ⟨⟩
      exact endsNumber_of_isBlank (hgap c List.mem_cons_self)
    | nil =>
      cases hword with
      | arrayClose | objectClose | comma => exact endsNumber_of_head? rfl (by decide)
      | _ => cases hsign

theorem tokens_of_isBlank {gap : List Char} (h : ∀ c ∈ gap, IsBlank c) (rest : List Char) :
    tokens (gap ++ rest) = tokens rest := by
  induction gap with
  | nil => rfl
  | cons c gap ih =>
    obtain ⟨hc, hgap⟩ := List.forall_mem_cons.mp h
    have hspace : isSpace c = true := by rcases hc with rfl | rfl | rfl | rfl <;> rfl
    rw [← ih hgap]
    unfold tokens
    rw [List.cons_append, tokensFrom, if_pos hspace]

/-- A lexeme becomes its token, or it is refused and everything behind it is lost. -/
theorem IsWritten.tokens_eq {lexeme : Lexeme} {word rest : List Char} (h : lexeme.IsWritten word)
    (hrest : ∀ l, lexeme = .number l → EndsNumber rest) :
    tokens (word ++ rest) = lexeme.token :: tokens rest ∨
      lexeme.token = .bad .numberOutOfRange ∧
        .bad .numberOutOfRange ∈ tokens (word ++ rest) := by
  cases h with
  | number h =>
    refine (tokens_of_isWritten h (hrest _ rfl)).imp ?_ (And.imp_left fun hnone => ?_)
    · rintro ⟨n, hn, htokens⟩
      rw [htokens, token, hn]
    · rw [token, hnone]
  | @text s cs h =>
    have hscan : scan '"' ((cs ++ ['"']) ++ rest) = (.text s, (cs ++ ['"']).length) := by
      unfold scan
      rw [List.append_assoc, List.singleton_append, scanText_of_writesText h, List.length_append]
      dsimp only
      rw [String.ofList_toList]
      rfl
    exact .inl (tokens_cons rfl hscan)
  | _ => exact .inl rfl

/-- The lexemes of a text become its tokens, unless a number is refused. -/
theorem Makes.tokens_eq {lexemes : List Lexeme} {cs : List Char} (h : Makes lexemes cs)
    (hchain : lexemes.IsChain StandsBefore) :
    tokens cs = lexemes.map token ∨ .bad .numberOutOfRange ∈ lexemes.map token ∧
      .bad .numberOutOfRange ∈ tokens cs := by
  induction h with
  | done hgap =>
    have hnone := tokens_of_isBlank hgap []
    rw [List.append_nil] at hnone
    exact .inl hnone
  | @next lexeme lexemes gap word cs hgap hword h ih =>
    obtain ⟨hnext, hchain⟩ := List.isChain_cons.mp hchain
    have hends : ∀ l, lexeme = .number l → EndsNumber cs := fun l hl =>
      h.endsNumber fun next hmem => hnext next hmem l hl
    rw [List.append_assoc, tokens_of_isBlank hgap]
    rw [List.map_cons]
    rcases hword.tokens_eq hends with htokens | ⟨hrefused, hbad⟩
    · rw [htokens]
      exact (ih hchain).imp (congrArg _)
        (And.imp (List.mem_cons_of_mem _) (List.mem_cons_of_mem _))
    · exact .inr ⟨hrefused ▸ List.mem_cons_self, hbad⟩

end Lexeme

end PackageRelease
