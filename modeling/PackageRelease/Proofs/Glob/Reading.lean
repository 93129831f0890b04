import Mathlib.Data.List.Forall2
import PackageRelease.Glob.Search
import PackageRelease.Proofs.Outcome
import PackageRelease.Proofs.Path.Extending

/-! # Reading a pattern behind a directory

  The pattern of an entry is read behind the text of a directory in which every special character is
  put into brackets. The key idea: such a text reads as itself, character by character, and it ends
  in a slash; so what is read of the entry does not depend on the directory in front of it.
-/

namespace PackageRelease

namespace Glob

/-! ### Texts without a meaning -/

/-- Whether a character has a meaning in patterns, or closes one that has. -/
def IsSpecial (c : Char) : Prop := c = '?' ∨ c = '*' ∨ c = '[' ∨ c = ']'

instance (c : Char) : Decidable (IsSpecial c) := inferInstanceAs (Decidable (_ ∨ _ ∨ _ ∨ _))

/-- The characters of an escaped text. -/
def escapeChars (cs : List Char) : List Char :=
  cs.flatMap fun c => if IsSpecial c then ['[', c, ']'] else [c]

/-- The pattern that stands for a text only. -/
def verbatim (cs : List Char) : Pattern :=
  cs.map fun c => if IsSpecial c then .within [.single c] else .char c

theorem toList_escape (s : String) : (escape s).toList = escapeChars s.toList := by
  unfold escape
  rw [String.toList_ofList]
  rfl

/-- A character without a meaning reads as itself. -/
theorem readTokens_char (position : Nat) (previous : Option Char) {c : Char} (cs : List Char)
    (hquestion : c ≠ '?') (hstar : c ≠ '*') (hopen : c ≠ '[') :
    readTokens position previous 0 (c :: cs) =
      (do return .char c :: (← readTokens (position + 1) (some c) 0 cs)) :=
  readTokens.eq_10 position previous c cs hquestion hstar hopen

/-- A star without another one behind it reads as any characters. -/
theorem readTokens_star (position : Nat) (previous : Option Char) {cs : List Char}
    (hsingle : ∀ rest, cs = '*' :: rest → False) :
    readTokens position previous 0 ('*' :: cs) =
      (do return .anySequence :: (← readTokens (position + 1) (some '*') 0 cs)) :=
  readTokens.eq_8 position previous cs (fun _ => hsingle _) hsingle

/-- An escaped text reads as itself, whatever follows. -/
theorem readTokens_escapeChars (cs rest : List Char) (position : Nat) (previous : Option Char) :
    ∃ position' previous', readTokens position previous 0 (escapeChars cs ++ rest) =
      (readTokens position' previous' 0 rest).map (verbatim cs ++ ·) := by
  induction cs generalizing position previous with
  | nil =>
    refine ⟨position, previous, ?_⟩
    show readTokens position previous 0 rest = _
    cases readTokens position previous 0 rest <;> rfl
  | cons c cs ih =>
    by_cases hc : IsSpecial c
    · obtain ⟨position', previous', hrest⟩ := ih (position + 3) (some ']')
      refine ⟨position', previous', ?_⟩
      have hchars : escapeChars (c :: cs) ++ rest =
          '[' :: c :: ']' :: (escapeChars cs ++ rest) := by
        unfold escapeChars
        rw [List.flatMap_cons, if_pos hc]
        rfl
      have hbracket : bracket? (c :: ']' :: (escapeChars cs ++ rest)) =
          some (.within [.single c], 2) := by
        rcases hc with rfl | rfl | rfl | rfl <;> rfl
      rw [hchars, readTokens, hbracket]
      dsimp only
      rw [readTokens, readTokens, hrest]
      unfold verbatim
      rw [List.map_cons, if_pos hc]
      cases readTokens position' previous' 0 rest <;> rfl
    · obtain ⟨position', previous', hrest⟩ := ih (position + 1) (some c)
      refine ⟨position', previous', ?_⟩
      have hchars : escapeChars (c :: cs) ++ rest = c :: (escapeChars cs ++ rest) := by
        unfold escapeChars
        rw [List.flatMap_cons, if_neg hc]
        rfl
      obtain ⟨hquestion, hstar, hopen, -⟩ : c ≠ '?' ∧ c ≠ '*' ∧ c ≠ '[' ∧ c ≠ ']' := by
        simpa [IsSpecial] using hc
      rw [hchars, readTokens_char _ _ _ hquestion hstar hopen, hrest]
      unfold verbatim
      rw [List.map_cons, if_neg hc]
      cases readTokens position' previous' 0 rest <;> rfl

theorem toOption_cons (token : Token) {first second : Except Fault Pattern}
    (h : first.toOption = second.toOption) :
    (do return token :: (← first) : Except Fault Pattern).toOption =
      (do return token :: (← second) : Except Fault Pattern).toOption := by
  cases first <;> cases second
  · rfl
  · cases h
  · cases h
  · cases h
    rfl

/-- Of two stars, the position is in the fault only. -/
theorem toOption_readTokens_stars {rest : List Char}
    (ih : ∀ position other previous skip, (readTokens position previous skip ('*' :: rest)).toOption =
      (readTokens other previous skip ('*' :: rest)).toOption)
    (position other : Nat) (previous : Option Char) :
    (readTokens position previous 0 ('*' :: '*' :: rest)).toOption =
      (readTokens other previous 0 ('*' :: '*' :: rest)).toOption := by
  cases rest with
  | nil =>
    rw [readTokens, readTokens]
    split <;> rfl
  | cons c rest =>
    by_cases hthird : c = '*'
    · subst hthird
      rfl
    by_cases hslash : c = '/'
    · subst hslash
      rw [readTokens.eq_6, readTokens.eq_6]
      split
      · rfl
      · exact toOption_cons _ (ih _ _ _ _)
    · have hmisplaced : ∀ position, readTokens position previous 0 ('*' :: '*' :: c :: rest) = _ :=
        fun position => readTokens.eq_7 position previous (c :: rest)
          (fun _ h => hthird (List.cons.inj h).1) nofun (fun _ h => hslash (List.cons.inj h).1)
      rw [hmisplaced, hmisplaced]
      split <;> rfl

/-- What is read does not depend on how many characters were read before. -/
theorem toOption_readTokens (position other : Nat) (previous : Option Char) (skip : Nat)
    (cs : List Char) :
    (readTokens position previous skip cs).toOption =
      (readTokens other previous skip cs).toOption := by
  induction cs generalizing position other previous skip with
  | nil => rfl
  | cons c cs ih =>
    cases skip with
    | succ skip => exact ih _ _ _ _
    | zero =>
      by_cases hquestion : c = '?'
      · subst hquestion
        exact toOption_cons _ (ih _ _ _ _)
      by_cases hstar : c = '*'
      · subst hstar
        by_cases hpair : ∃ rest, cs = '*' :: rest
        · obtain ⟨rest, rfl⟩ := hpair
          exact toOption_readTokens_stars ih _ _ _
        · have hsingle : ∀ rest, cs = '*' :: rest → False := fun rest h => hpair ⟨rest, h⟩
          rw [readTokens_star _ _ hsingle, readTokens_star _ _ hsingle]
          exact toOption_cons _ (ih _ _ _ _)
      by_cases hopen : c = '['
      · subst hopen
        rw [readTokens, readTokens]
        cases bracket? cs with
        | none => rfl
        | some found => exact toOption_cons _ (ih _ _ _ _)
      · rw [readTokens_char _ _ _ hquestion hstar hopen, readTokens_char _ _ _ hquestion hstar hopen]
        exact toOption_cons _ (ih _ _ _ _)

/-- An escaped text has its slashes where the text has them. -/
theorem splitWhere_escapeChars (cs : List Char) :
    Text.splitWhere (· == '/') (escapeChars cs) =
      (Text.splitWhere (· == '/') cs).map escapeChars := by
  induction cs with
  | nil => rfl
  | cons c cs ih =>
    have hchars : escapeChars (c :: cs) =
        (if IsSpecial c then ['[', c, ']'] else [c]) ++ escapeChars cs := List.flatMap_cons
    by_cases hc : c = '/'
    · subst hc
      rw [hchars, if_neg (by decide), List.singleton_append,
        Text.splitWhere_cons_of_pos rfl, Text.splitWhere_cons_of_pos rfl, ih]
      rfl
    · -- brackets are no slashes either
      have hslash : ∀ d ∈ (if IsSpecial c then ['[', c, ']'] else [c]), (d == '/') = false := by
        intro d hd
        rw [beq_eq_false_iff_ne]
        rintro rfl
        split at hd
        · simp only [List.mem_cons, List.not_mem_nil, or_false] at hd
          rcases hd with hd | hd | hd
          · exact absurd hd (by decide)
          · exact hc hd.symm
          · exact absurd hd (by decide)
        · exact hc (List.mem_singleton.mp hd).symm
      obtain ⟨first, rest, hsplit, hcons⟩ :=
        @Text.splitWhere_cons_of_neg (· == '/') c (by simpa using hc) cs
      rw [hsplit, List.map_cons] at ih
      rw [hchars, hcons, Text.splitWhere_append_of_forall hslash ih, List.map_cons]
      congr 1

theorem parse_escapeChars (cs : List Char) : Pattern.parse (escapeChars cs) = .ok (verbatim cs) := by
  obtain ⟨position, previous, hread⟩ := readTokens_escapeChars cs [] 0 none
  rw [List.append_nil] at hread
  unfold Pattern.parse
  rw [hread]
  show Except.ok (verbatim cs ++ []) = _
  rw [List.append_nil]

/-! ### The texts of a directory -/

/-- The text of a directory without a slash at the end. -/
def lead (d : Path) : List Char :=
  if d.endsInSlash then d.text.toList.dropLast else d.text.toList

/-- The texts between the slashes of a directory. -/
def texts (d : Path) : List String :=
  if d.isAbsolute then
    if lead d = [] then [] else (Text.splitWhere (· == '/') ((lead d).drop 1)).map String.ofList
  else (Text.splitWhere (· == '/') (lead d)).map String.ofList

section directory
variable {d : Path}

theorem toList_text_eq (d : Path) :
    d.text.toList = lead d ++ if d.endsInSlash then ['/'] else [] := by
  unfold lead
  by_cases hslash : d.endsInSlash = true
  · rw [if_pos hslash, if_pos hslash]
    unfold Path.endsInSlash at hslash
    obtain ⟨front, hfront⟩ := List.getLast?_eq_some_iff.mp (of_decide_eq_true hslash)
    rw [hfront, List.dropLast_concat]
  · rw [if_neg hslash, if_neg hslash, List.append_nil]

/-- The slash at the front of an absolute directory belongs to its text, or is all of it. -/
theorem lead_of_isAbsolute (habsolute : d.isAbsolute = true) :
    lead d = [] ∨ ∃ rest, lead d = '/' :: rest := by
  have htext := toList_text_eq d
  unfold Path.isAbsolute at habsolute
  have hhead := of_decide_eq_true habsolute
  cases hlead : lead d with
  | nil => exact .inl rfl
  | cons c rest =>
    rw [htext, hlead] at hhead
    cases hhead
    exact .inr ⟨rest, rfl⟩

/-- The text of a directory that is not absolute does not begin with a slash. -/
theorem lead_of_relative (hd : d.text ≠ "") (hrelative : d.isAbsolute = false) :
    ∃ c rest, lead d = c :: rest ∧ c ≠ '/' := by
  have htext := toList_text_eq d
  unfold Path.isAbsolute at hrelative
  rw [decide_eq_false_iff_not] at hrelative
  cases hlead : lead d with
  | nil =>
    rw [hlead, List.nil_append] at htext
    split at htext
    · rw [htext] at hrelative
      exact absurd rfl hrelative
    · exact absurd (String.toList_eq_nil_iff.mp htext) hd
  | cons c rest =>
    refine ⟨c, rest, rfl, ?_⟩
    rintro rfl
    rw [htext, hlead] at hrelative
    exact hrelative rfl

/-- The texts of a directory hold what its pieces hold. -/
theorem pieces_eq_texts (d : Path) : d.pieces = (texts d).filter (· ≠ "") := by
  have hpieces : ∀ cs, Path.piecesOf cs =
      ((Text.splitWhere (· == '/') cs).map String.ofList).filter (· ≠ "") := by
    intro cs
    unfold Path.piecesOf
    exact List.filter_congr fun s _ => by by_cases h : s = "" <;> simp [h]
  have hnothing : Path.piecesOf [] = [] := rfl
  have hlead : d.pieces = Path.piecesOf (lead d) := by
    rw [Path.pieces_eq, toList_text_eq d]
    split
    · rw [Path.piecesOf_append_slash, hnothing, List.append_nil]
    · rw [List.append_nil]
  rw [hlead]
  unfold texts
  cases habsolute : d.isAbsolute with
  | false => exact hpieces _
  | true =>
    rw [if_pos rfl]
    rcases lead_of_isAbsolute habsolute with hnil | ⟨rest, hrest⟩
    · rw [hnil]
      rfl
    · have hslash : '/' :: rest = [] ++ '/' :: rest := rfl
      rw [hrest, if_neg (List.cons_ne_nil _ _), hslash, Path.piecesOf_append_slash, hnothing]
      exact hpieces rest

theorem slash_notMem_texts {s : String} (h : s ∈ texts d) : '/' ∉ s.toList := by
  unfold texts at h
  split at h
  · split at h
    · cases h
    · exact Text.slash_notMem_of_mem_pieces h
  · exact Text.slash_notMem_of_mem_pieces h

/-- The texts of a directory take no more octets than the directory, but for one slash. -/
theorem octets_texts_le (d : Path) :
    Text.octets (texts d) + (if d.isAbsolute then 1 else 0) ≤ d.text.utf8ByteSize + 1 := by
  have hsplit : ∀ cs, Text.octets ((Text.splitWhere (· == '/') cs).map String.ofList) =
      (String.ofList cs).utf8ByteSize + 1 := by
    intro cs
    have hsize := Text.octets_split (String.ofList cs)
    unfold Text.split at hsize
    rw [String.toList_ofList] at hsize
    exact hsize
  have hlead : (String.ofList (lead d)).utf8ByteSize ≤ d.text.utf8ByteSize := by
    have htext : d.text = String.ofList (lead d) ++
        String.ofList (if d.endsInSlash then ['/'] else []) := by
      rw [← String.ofList_append, ← toList_text_eq, String.ofList_toList]
    rw [htext, String.utf8ByteSize_append]
    exact Nat.le_add_right _ _
  unfold texts
  cases habsolute : d.isAbsolute with
  | false =>
    rw [if_neg Bool.false_ne_true, if_neg Bool.false_ne_true, hsplit]
    omega
  | true =>
    rw [if_pos rfl, if_pos rfl]
    rcases lead_of_isAbsolute habsolute with hnil | ⟨rest, hrest⟩
    · rw [if_pos hnil]
      exact Nat.le_add_left _ _
    · have hslash : '/'.utf8Size = 1 := rfl
      rw [hrest, String.ofList_cons, String.utf8ByteSize_append, String.utf8ByteSize_singleton,
        hslash] at hlead
      rw [hrest, if_neg (List.cons_ne_nil _ _), List.drop_one, List.tail_cons, hsplit]
      omega

/-- A directory that is not absolute begins with a text that is not empty. -/
theorem texts_of_relative (hd : d.text ≠ "") (hrelative : d.isAbsolute = false) :
    ∃ first others, texts d = first :: others ∧ first ≠ "" := by
  obtain ⟨c, rest, hlead, hc⟩ := lead_of_relative hd hrelative
  obtain ⟨first, others, -, hcons⟩ :=
    @Text.splitWhere_cons_of_neg (· == '/') c (by simpa using hc) rest
  refine ⟨String.ofList (c :: first), others.map String.ofList, ?_, by simp⟩
  unfold texts
  rw [hrelative, if_neg Bool.false_ne_true, hlead, hcons, List.map_cons]

/-! ### The pattern of an entry -/

/-- An escaped text ends in a slash only if the text does. -/
theorem getLast?_escapeChars {cs : List Char} (h : (escapeChars cs).getLast? = some '/') :
    cs.getLast? = some '/' := by
  rcases cs.eq_nil_or_concat' with rfl | ⟨front, c, rfl⟩
  · exact h
  unfold escapeChars at h
  rw [List.flatMap_append, List.flatMap_singleton, List.getLast?_append] at h
  rw [List.getLast?_concat]
  split at h
  · exact absurd h (by simp)
  · simpa using h

theorem escape_ne {s : String} (h : s ≠ "") : escape s ≠ "" := by
  intro hempty
  have hchars := congrArg String.toList hempty
  rw [toList_escape] at hchars
  obtain ⟨c, cs, hcs⟩ := List.exists_cons_of_ne_nil (fun h' => h (String.toList_eq_nil_iff.mp h'))
  rw [hcs] at hchars
  unfold escapeChars at hchars
  rw [List.flatMap_cons] at hchars
  split at hchars <;> cases hchars

/-- The pattern of an entry behind a directory, as a text. -/
theorem toList_pattern (hd : d.text ≠ "") {rest : String}
    (hrelative : (⟨rest⟩ : Path).isAbsolute = false) :
    (Path.join ⟨escape d.text⟩ ⟨rest⟩).text.toList = escapeChars (lead d) ++ '/' :: rest.toList := by
  have hempty : (escape d.text).isEmpty = false := by simpa using escape_ne hd
  have htext : (escape d.text).toList =
      escapeChars (lead d) ++ if d.endsInSlash then ['/'] else [] := by
    rw [toList_escape, toList_text_eq d]
    unfold escapeChars
    rw [List.flatMap_append]
    split <;> rfl
  -- a slash is written exactly if the directory does not end in one
  have hslash : (⟨escape d.text⟩ : Path).endsInSlash = d.endsInSlash := by
    cases h : d.endsInSlash with
    | true =>
      unfold Path.endsInSlash
      rw [htext, h]
      simp
    | false =>
      unfold Path.endsInSlash at h ⊢
      rw [decide_eq_false_iff_not] at h ⊢
      rw [toList_escape]
      exact fun hescaped => h (getLast?_escapeChars hescaped)
  unfold Path.join
  rw [hrelative, if_neg Bool.false_ne_true, hempty, Bool.false_or, hslash]
  cases h : d.endsInSlash with
  | true =>
    rw [if_pos rfl, String.toList_append, htext, h, if_pos rfl, List.append_assoc,
      List.singleton_append]
  | false =>
    rw [if_neg Bool.false_ne_true, String.toList_append, String.toList_append, htext, h,
      if_neg Bool.false_ne_true, List.append_nil, List.append_assoc]
    rfl

/-- The texts between the slashes of an entry; nothing stands behind a slash at its end. -/
def entryPieces (rest : String) : List (List Char) :=
  let pieces := Text.splitWhere (· == '/') rest.toList
  if pieces.getLast? = some [] then pieces.dropLast else pieces

/-- How an entry is read behind a directory: as a whole, and piece by piece. -/
def Reads (rest : String) (patterns : List Pattern) : Prop :=
  (∃ whole, readTokens 0 (some '/') 0 rest.toList = .ok whole) ∧
    (entryPieces rest).mapM Pattern.parse = .ok patterns

/-- What is read of the whole text depends on the entry only. -/
theorem readTokens_pattern (d : Path) (rest : List Char) :
    (∃ whole, Pattern.parse (escapeChars (lead d) ++ '/' :: rest) = .ok whole) ↔
      ∃ whole, readTokens 0 (some '/') 0 rest = .ok whole := by
  obtain ⟨position, previous, hread⟩ := readTokens_escapeChars (lead d) ('/' :: rest) 0 none
  have hslash : readTokens position previous 0 ('/' :: rest) =
      (do return .char '/' :: (← readTokens (position + 1) (some '/') 0 rest) :
        Except Fault Pattern) :=
    readTokens_char _ _ _ (by decide) (by decide) (by decide)
  have hposition := toOption_readTokens (position + 1) 0 (some '/') 0 rest
  unfold Pattern.parse
  rw [hread, hslash]
  cases hfirst : readTokens (position + 1) (some '/') 0 rest <;>
    cases hsecond : readTokens 0 (some '/') 0 rest <;> rw [hfirst, hsecond] at hposition
  · exact iff_of_false nofun nofun
  · cases hposition
  · cases hposition
  · exact iff_of_true ⟨_, rfl⟩ ⟨_, rfl⟩

/-- The pattern starts at the root exactly if the directory does. -/
theorem head?_pattern (hd : d.text ≠ "") (rest : List Char) :
    (escapeChars (lead d) ++ '/' :: rest).head? = some '/' ↔ d.isAbsolute = true := by
  cases habsolute : d.isAbsolute with
  | true =>
    refine iff_of_true ?_ rfl
    rcases lead_of_isAbsolute habsolute with hnil | ⟨others, hothers⟩
    · rw [hnil]
      rfl
    · rw [hothers]
      rfl
  | false =>
    refine iff_of_false (fun hhead => ?_) Bool.false_ne_true
    obtain ⟨c, others, hothers, hc⟩ := lead_of_relative hd habsolute
    unfold escapeChars at hhead
    rw [hothers, List.flatMap_cons] at hhead
    split at hhead
    · cases hhead
    · cases hhead
      exact hc rfl

/-- Between the slashes of the pattern stand the texts of the directory and those of the entry. -/
theorem splitWhere_pattern (d : Path) (rest : List Char) :
    Text.splitWhere (· == '/') (if d.isAbsolute then
        (escapeChars (lead d) ++ '/' :: rest).drop 1 else escapeChars (lead d) ++ '/' :: rest) =
      (texts d).map (fun s => escapeChars s.toList) ++ Text.splitWhere (· == '/') rest := by
  have htexts : ∀ cs, Text.splitWhere (· == '/') (escapeChars cs ++ '/' :: rest) =
      ((Text.splitWhere (· == '/') cs).map String.ofList).map (fun s => escapeChars s.toList) ++
        Text.splitWhere (· == '/') rest := by
    intro cs
    rw [Text.splitWhere_append_cons rfl, splitWhere_escapeChars, List.map_map]
    congr 1
    exact List.map_congr_left fun piece _ => by rw [Function.comp_apply, String.toList_ofList]
  unfold texts
  cases habsolute : d.isAbsolute with
  | false => exact htexts (lead d)
  | true =>
    rw [if_pos rfl, if_pos rfl]
    rcases lead_of_isAbsolute habsolute with hnil | ⟨others, hothers⟩
    · rw [if_pos hnil, hnil]
      rfl
    · rw [hothers, if_neg (List.cons_ne_nil _ _)]
      exact htexts others

/-- The texts of a directory are read as themselves. -/
theorem mapM_parse_escapeChars (front : List String) (back : List (List Char)) :
    ((front.map fun s => escapeChars s.toList) ++ back).mapM Pattern.parse =
      (back.mapM Pattern.parse).map ((front.map fun s => verbatim s.toList) ++ ·) := by
  induction front with
  | nil =>
    show back.mapM Pattern.parse = _
    cases back.mapM Pattern.parse <;> rfl
  | cons s front ih =>
    rw [List.map_cons, List.cons_append, List.mapM_cons, parse_escapeChars, ih]
    cases back.mapM Pattern.parse <;> rfl

/-- A text is a query if it is a pattern as a whole and piece by piece. -/
theorem query_parse_eq_ok_iff {text : String} {query : Query} :
    Query.parse text = .ok query ↔ (∃ whole, Pattern.parse text.toList = .ok whole) ∧
      ∃ patterns,
        (let pieces := Text.splitWhere (· == '/')
            (if text.toList.head? = some '/' then text.toList.drop 1 else text.toList)
          if pieces.getLast? = some [] then pieces.dropLast else pieces).mapM Pattern.parse =
            .ok patterns ∧
        query = {
          start := ⟨if text.toList.head? = some '/' then "/" else "."⟩
          components :=
            if text.toList.head? = some '/' ∧ text.toList.length = 1 then [[]] else patterns
          directoriesOnly := text.toList.getLast? = some '/' } := by
  unfold Query.parse
  rw [bind_eq_ok]
  have hdiscard : (∃ nothing, discard (Pattern.parse text.toList) = .ok nothing) ↔
      ∃ whole, Pattern.parse text.toList = .ok whole := by
    cases Pattern.parse text.toList with
    | error fault => exact iff_of_false nofun nofun
    | ok whole => exact iff_of_true ⟨_, rfl⟩ ⟨_, rfl⟩
  rw [exists_and_right, hdiscard]
  refine and_congr_right fun _ => ?_
  rw [bind_eq_ok]
  refine exists_congr fun patterns => and_congr_right fun _ => ?_
  exact ⟨fun h => (Except.ok.inj h).symm, fun h => congrArg _ h.symm⟩

/-- The query of an entry asks for the texts of the directory first, and then for what the entry
    asks for. -/
theorem parse_pattern_eq_ok_iff (hd : d.text ≠ "") {rest : String}
    (hrelative : (⟨rest⟩ : Path).isAbsolute = false) (hrest : rest ≠ "") {query : Query} :
    Query.parse (Path.join ⟨escape d.text⟩ ⟨rest⟩).text = .ok query ↔
      ∃ patterns, Reads rest patterns ∧ query = {
        start := ⟨if d.isAbsolute then "/" else "."⟩
        components := (texts d).map (fun s => verbatim s.toList) ++ patterns
        directoriesOnly := (⟨rest⟩ : Path).endsInSlash } := by
  have hlong : rest.toList ≠ [] := fun h => hrest (String.toList_eq_nil_iff.mp h)
  have hsplit := splitWhere_pattern d rest.toList
  have hhead := head?_pattern hd rest.toList
  have hend : (escapeChars (lead d) ++ '/' :: rest.toList).getLast? = rest.toList.getLast? := by
    rw [List.getLast?_append_of_ne_nil _ (List.cons_ne_nil _ _), List.getLast?_cons_of_ne_nil hlong]
  have hlength : (escapeChars (lead d) ++ '/' :: rest.toList).length ≠ 1 := by
    have := List.length_pos_iff.mpr hlong
    rw [List.length_append, List.length_cons]
    omega
  -- the last text is one of the entry
  have hlast : ∀ front : List (List Char),
      (if (front ++ Text.splitWhere (· == '/') rest.toList).getLast? = some [] then
        (front ++ Text.splitWhere (· == '/') rest.toList).dropLast
      else front ++ Text.splitWhere (· == '/') rest.toList) = front ++ entryPieces rest := by
    intro front
    have hne := Text.splitWhere_ne_nil (· == '/') rest.toList
    unfold entryPieces
    dsimp only
    rw [List.getLast?_append_of_ne_nil _ hne, List.dropLast_append_of_ne_nil hne]
    split <;> rfl
  rw [query_parse_eq_ok_iff, toList_pattern hd hrelative, readTokens_pattern]
  simp only [hhead, hend, hlength, and_false, if_false, hsplit, hlast]
  rw [mapM_parse_escapeChars]
  unfold Reads
  cases hpatterns : (entryPieces rest).mapM Pattern.parse with
  | error fault => simp [Except.map]
  | ok patterns => simp [Except.map, Path.endsInSlash, and_assoc]

end directory

/-! ### What an entry asks for -/

/-- Each text has its own pattern. -/
theorem forall₂_of_mapM {pieces : List (List Char)} {patterns : List Pattern}
    (h : pieces.mapM Pattern.parse = .ok patterns) :
    List.Forall₂ (fun piece pattern => Pattern.parse piece = .ok pattern) pieces patterns := by
  induction pieces generalizing patterns with
  | nil =>
    cases h
    exact .nil
  | cons piece pieces ih =>
    rw [List.mapM_cons] at h
    obtain ⟨first, hfirst, h⟩ := bind_eq_ok.mp h
    obtain ⟨others, hothers, h⟩ := bind_eq_ok.mp h
    cases h
    exact .cons hfirst (ih hothers)

theorem exists_of_forall₂ {α β : Type} {R : α → β → Prop} {front : List α} {back : List β}
    (h : List.Forall₂ R front back) {b : β} (hb : b ∈ back) : ∃ a ∈ front, R a b := by
  induction h with
  | nil => cases hb
  | @cons a _ _ _ hab _ ih =>
    rcases List.mem_cons.mp hb with rfl | hb
    · exact ⟨a, List.mem_cons_self, hab⟩
    · obtain ⟨found, hfound, hrelated⟩ := ih hb
      exact ⟨found, List.mem_cons_of_mem _ hfound, hrelated⟩

theorem entryPieces_sublist (rest : String) :
    (entryPieces rest).Sublist (Text.splitWhere (· == '/') rest.toList) := by
  unfold entryPieces
  dsimp only
  split
  · exact List.dropLast_sublist _
  · exact List.Sublist.refl _

/-- Every character but the slashes belongs to some text. -/
theorem exists_entryPiece {rest : String} {c : Char} (hc : c ∈ rest.toList) (hslash : c ≠ '/') :
    ∃ piece ∈ entryPieces rest, c ∈ piece := by
  obtain ⟨piece, hpiece, hmem⟩ :=
    @Text.exists_mem_splitWhere (· == '/') c (by simpa using hslash) _ hc
  refine ⟨piece, ?_, hmem⟩
  unfold entryPieces
  dsimp only
  split
  · next hlast =>
    -- the text that is left out is empty
    obtain ⟨front, hfront⟩ := List.getLast?_eq_some_iff.mp hlast
    rw [hfront] at hpiece
    rw [hfront, List.dropLast_concat]
    rcases List.mem_append.mp hpiece with hpiece | hpiece
    · exact hpiece
    · obtain rfl := List.mem_singleton.mp hpiece
      cases hmem
  · exact hpiece

section entry_patterns
variable {rest : String} {patterns : List Pattern} (h : Reads rest patterns)
include h

/-- Each pattern is that of a text between two slashes of the entry. -/
theorem Reads.exists_piece {pattern : Pattern} (hpattern : pattern ∈ patterns) :
    ∃ piece ∈ Text.split '/' rest, Pattern.parse piece.toList = .ok pattern := by
  obtain ⟨piece, hpiece, hparse⟩ := exists_of_forall₂ (forall₂_of_mapM h.2) hpattern
  refine ⟨String.ofList piece, List.mem_map.mpr ⟨piece, ?_, rfl⟩, ?_⟩
  · exact (entryPieces_sublist rest).subset hpiece
  · rw [String.toList_ofList]
    exact hparse

theorem Reads.length_le : patterns.length ≤ rest.utf8ByteSize + 1 := by
  have hsplit := Text.length_split_le rest
  unfold Text.split at hsplit
  rw [List.length_map] at hsplit
  rw [← (forall₂_of_mapM h.2).length_eq]
  exact Nat.le_trans (entryPieces_sublist rest).length_le hsplit

/-- Only an entry that is empty or a slash asks for nothing. -/
theorem Reads.ne_nil (hrest : rest ≠ "") (hrelative : (⟨rest⟩ : Path).isAbsolute = false) :
    patterns ≠ [] := by
  rintro rfl
  obtain ⟨c, cs, hchars⟩ :=
    List.exists_cons_of_ne_nil fun h' => hrest (String.toList_eq_nil_iff.mp h')
  have hc : (c == '/') = false := by
    unfold Path.isAbsolute at hrelative
    rw [hchars] at hrelative
    simpa using hrelative
  obtain ⟨first, others, -, hsplit⟩ := @Text.splitWhere_cons_of_neg (· == '/') c hc cs
  -- the first text is not empty, so it is not left out
  have hpieces : ∃ pieces, entryPieces rest = (c :: first) :: pieces := by
    unfold entryPieces
    rw [hchars, hsplit]
    dsimp only
    split
    · next hlast =>
      cases others with
      | nil => cases hlast
      | cons next others => exact ⟨_, rfl⟩
    · exact ⟨_, rfl⟩
  obtain ⟨pieces, hpieces⟩ := hpieces
  have hread := h.2
  rw [hpieces, List.mapM_cons] at hread
  obtain ⟨_, -, hread⟩ := bind_eq_ok.mp hread
  obtain ⟨_, -, hread⟩ := bind_eq_ok.mp hread
  cases hread

end entry_patterns

/-- A set is not a character. -/
theorem ne_char_of_bracket? {cs : List Char} {token : Token} {taken : Nat}
    (h : bracket? cs = some (token, taken)) (c : Char) : token ≠ .char c := by
  unfold bracket? at h
  split at h
  · split at h
    · cases h
      exact nofun
    · cases h
  · cases h
  · split at h
    · cases h
      exact nofun
    · cases h
  · cases h

theorem literal?_cons_of_ne {token : Token} (h : ∀ c, token ≠ .char c) (rest : Pattern) :
    Pattern.literal? (token :: rest) = none := by
  cases token with
  | char c => exact absurd rfl (h c)
  | anyChar => rfl
  | anySequence => rfl
  | anyDirectories => rfl
  | within set => rfl
  | except set => rfl

/-- A pattern that stands for one name is read from a text without wildcards. The cases are those of
    the reading. -/
theorem not_wildcard_of_literal {position : Nat} {previous : Option Char} {cs : List Char}
    {pattern : Pattern} (h : readTokens position previous 0 cs = .ok pattern) {text : List Char}
    (hliteral : pattern.literal? = some text) : ∀ c ∈ cs, ¬ (c = '*' ∨ c = '?' ∨ c = '[') := by
  have hother : ∀ {token : Token} {read : Except Fault Pattern} {pattern : Pattern},
      (do return token :: (← read) : Except Fault Pattern) = .ok pattern →
      (∀ c, token ≠ .char c) → pattern.literal? = none := by
    intro token read pattern hread htoken
    obtain ⟨rest, -, hread⟩ := bind_eq_ok.mp hread
    cases hread
    exact literal?_cons_of_ne htoken rest
  generalize hskip : 0 = skip at h
  fun_induction readTokens position previous skip cs generalizing pattern text with
  | case1 => exact nofun
  | case2 => cases hskip
  | case3 => rw [hother h nofun] at hliteral; cases hliteral
  | case4 => cases h
  | case5 => cases h
  | case6 =>
    cases h
    cases hliteral
  | case7 => rw [hother h nofun] at hliteral; cases hliteral
  | case8 => cases h
  | case9 => rw [hother h nofun] at hliteral; cases hliteral
  | case10 _ _ _ _ _ hbracket =>
    rw [hother h (ne_char_of_bracket? hbracket)] at hliteral
    cases hliteral
  | case11 => cases h
  | case12 _ _ d cs hquestion hstar hopen ih =>
    obtain ⟨rest, hrest, h⟩ := bind_eq_ok.mp h
    cases h
    obtain ⟨tail, htail, -⟩ := Option.map_eq_some_iff.mp hliteral
    intro c hc
    rcases List.mem_cons.mp hc with rfl | hc
    · rintro (h | h | h)
      · exact hstar h
      · exact hquestion h
      · exact hopen h
    · exact ih htail rfl hrest c hc

/-- An entry with a wildcard has a pattern that stands for more than one name. -/
theorem Reads.exists_wildcard {rest : String} {patterns : List Pattern} (h : Reads rest patterns)
    {c : Char} (hc : c ∈ rest.toList) (hwild : c = '*' ∨ c = '?' ∨ c = '[') :
    ∃ pattern ∈ patterns, pattern.literal? = none := by
  have hslash : c ≠ '/' := by
    rintro rfl
    revert hwild
    decide
  obtain ⟨piece, hpiece, hmem⟩ := exists_entryPiece hc hslash
  obtain ⟨pattern, hpattern, hparse⟩ := exists_of_forall₂ (forall₂_of_mapM h.2).flip hpiece
  refine ⟨pattern, hpattern, ?_⟩
  cases hliteral : pattern.literal? with
  | none => rfl
  | some text => exact absurd hwild (not_wildcard_of_literal hparse hliteral c hmem)

/-- The characters of a pattern are characters of its text. The cases are those of the reading. -/
theorem mem_of_readTokens {position : Nat} {previous : Option Char} {skip : Nat} {cs : List Char}
    {pattern : Pattern} (h : readTokens position previous skip cs = .ok pattern) {c : Char}
    (hc : .char c ∈ pattern) : c ∈ cs := by
  have hother : ∀ {token : Token} {cs : List Char} {read : Except Fault Pattern}
      {pattern : Pattern} (d : Char),
      (do return token :: (← read) : Except Fault Pattern) = .ok pattern → .char c ∈ pattern →
      token ≠ .char c → (∀ {rest}, read = .ok rest → .char c ∈ rest → c ∈ cs) → c ∈ d :: cs := by
    intro token cs read pattern d hread hmem htoken ih
    obtain ⟨rest, hrest, hread⟩ := bind_eq_ok.mp hread
    cases hread
    rcases List.mem_cons.mp hmem with heq | hmem
    · exact absurd heq.symm htoken
    · exact List.mem_cons_of_mem d (ih hrest hmem)
  fun_induction readTokens position previous skip cs generalizing pattern with
  | case1 =>
    cases h
    cases hc
  | case2 _ _ _ _ _ ih => exact List.mem_cons_of_mem _ (ih h hc)
  | case3 _ _ _ ih => exact hother _ h hc nofun ih
  | case4 => cases h
  | case5 => cases h
  | case6 =>
    cases h
    simp at hc
  | case7 _ _ _ _ _ ih => exact hother _ h hc nofun ih
  | case8 => cases h
  | case9 _ _ _ _ _ ih => exact hother _ h hc nofun ih
  | case10 _ _ _ _ _ hbracket ih => exact hother _ h hc (ne_char_of_bracket? hbracket c) ih
  | case11 => cases h
  | case12 _ _ d cs _ _ _ ih =>
    obtain ⟨rest, hrest, h⟩ := bind_eq_ok.mp h
    cases h
    rcases List.mem_cons.mp hc with heq | hmem
    · cases heq
      exact List.mem_cons_self
    · exact List.mem_cons_of_mem d (ih hrest hmem)

end Glob

end PackageRelease
