import PackageRelease.Proofs.Json.Finite
import PackageRelease.Proofs.Json.Magnitude

/-! # What is printed can be read

  The text that is printed for a value is accepted, whatever doubles stand in it, and what is read
  from it is the value up to its doubles. The key idea: what is printed says the value with every
  number in its spelling, no spelling is refused, and containers do not lie deeper than before.
-/

namespace PackageRelease

/-! ### Documents that are accepted -/

namespace Document

open Json.Reader

variable {document : Document JsonNumber.Literal}

/-- A text is accepted if it says a document that fits and none of whose numbers is refused. -/
theorem parseChars_of_makes {cs : List Char} (hsaid : Lexeme.Makes document.lexemes cs)
    (hread : ∀ l ∈ document.numbers, JsonNumber.ofLiteral? l = some l.number)
    (hfits : document.read.Fits 0) : Json.parseChars cs = .ok document.read := by
  have hrun := makes_of_fits hfits Json.Reader.start [] [] (expectsValue_value []) rfl
  have hchain := isChain_lexemes document .nil (by rintro _ ⟨⟩)
  have hbad := bad_notMem_of_run hrun .numberOutOfRange
  rw [List.append_nil] at hchain hbad
  rw [← map_token_lexemes document hread] at hbad
  have htokens := (hsaid.tokens_eq hchain).resolve_right fun h => hbad h.1
  rw [map_token_lexemes document hread, ← List.append_nil (Json.tokenList _)] at htokens
  unfold Json.parseChars
  rw [htokens, hrun]
  rfl

theorem mem_numbersOfItems {ν : Type} {items : List (Document ν)} {n : ν} :
    n ∈ numbersOfItems items ↔ ∃ item ∈ items, n ∈ item.numbers := by
  induction items with
  | nil => exact iff_of_false List.not_mem_nil (by rintro ⟨_, ⟨⟩, -⟩)
  | cons item items ih =>
    simp only [numbersOfItems, List.mem_append, ih, List.mem_cons, exists_eq_or_imp]

theorem mem_numbersOfFields {ν : Type} {fields : List (String × Document ν)} {n : ν} :
    n ∈ numbersOfFields fields ↔ ∃ field ∈ fields, n ∈ field.2.numbers := by
  induction fields with
  | nil => exact iff_of_false List.not_mem_nil (by rintro ⟨_, ⟨⟩, -⟩)
  | cons field fields ih =>
    simp only [numbersOfFields, List.mem_append, ih, List.mem_cons, exists_eq_or_imp]

end Document

/-! ### Values as documents -/

/-- Whatever a literal becomes is in range. -/
theorem JsonNumber.Literal.inRange_number (l : JsonNumber.Literal) : l.number.InRange := by
  unfold number
  cases hl : ofLiteral? l with
  | none => exact inRange_of_le (Nat.zero_le _)
  | some n => exact inRange_of_ofLiteral? hl

namespace Json

mutual

/-- A value as a document. -/
def toDocument : Json → Document JsonNumber
  | .null => .null
  | .bool value => .bool value
  | .number n => .number n
  | .string s => .string s
  | .array items => .array (toDocuments items)
  | .object fields => .object (toFieldDocuments fields)

/-- The items of an array as documents. -/
def toDocuments : List Json → List (Document JsonNumber)
  | [] => []
  | item :: items => toDocument item :: toDocuments items

/-- The fields of an object as documents. -/
def toFieldDocuments : List (String × Json) → List (String × Document JsonNumber)
  | [] => []
  | (key, value) :: fields => (key, toDocument value) :: toFieldDocuments fields

end

mutual

theorem toJson_toDocument (value : Json) : value.toDocument.toJson = value := by
  match value with
  | .null | .bool _ | .number _ | .string _ => rfl
  | .array items => rw [toDocument, Document.toJson, toJsonItems_toDocuments items]
  | .object fields => rw [toDocument, Document.toJson, toJsonFields_toFieldDocuments fields]

theorem toJsonItems_toDocuments (items : List Json) :
    Document.toJsonItems (toDocuments items) = items := by
  match items with
  | [] => rfl
  | item :: items =>
    rw [toDocuments, Document.toJsonItems, toJson_toDocument item, toJsonItems_toDocuments items]

theorem toJsonFields_toFieldDocuments (fields : List (String × Json)) :
    Document.toJsonFields (toFieldDocuments fields) = fields := by
  match fields with
  | [] => rfl
  | (key, value) :: fields =>
    rw [toFieldDocuments, Document.toJsonFields, toJson_toDocument value,
      toJsonFields_toFieldDocuments fields]

end

/-- What the text of a value says. -/
def said (value : Json) : Document JsonNumber.Literal := value.toDocument.spelled

/-- What is read from the text of a value. -/
def reread (value : Json) : Json := value.said.read

theorem toDocuments_eq (items : List Json) : toDocuments items = items.map toDocument := by
  induction items with
  | nil => rfl
  | cons item items ih => rw [toDocuments, ih, List.map_cons]

theorem toFieldDocuments_eq (fields : Fields Json) :
    toFieldDocuments fields = fields.map fun field => (field.1, field.2.toDocument) := by
  induction fields with
  | nil => rfl
  | cons field fields ih => rw [toFieldDocuments, ih, List.map_cons]

theorem said_array (items : List Json) : said (.array items) = .array (items.map said) := by
  unfold said
  rw [toDocument, Document.spelled, Document.map, Document.mapItems_eq, toDocuments_eq,
    List.map_map]
  rfl

theorem said_object (fields : Fields Json) :
    said (.object fields) = .object (fields.map fun field => (field.1, field.2.said)) := by
  unfold said
  rw [toDocument, Document.spelled, Document.map, Document.mapFields_eq, toFieldDocuments_eq,
    List.map_map]
  rfl

theorem reread_array (items : List Json) : reread (.array items) = .array (items.map reread) := by
  unfold reread
  rw [said_array, Document.read, Document.map, Document.toJson, Document.toJsonItems_eq,
    Document.mapItems_eq, List.map_map, List.map_map]
  rfl

theorem reread_object (fields : Fields Json) :
    reread (.object fields) = .object (fields.map fun field => (field.1, field.2.reread)) := by
  unfold reread
  rw [said_object, Document.read, Document.map, Document.toJson, Document.toJsonFields_eq,
    Document.mapFields_eq, List.map_map, List.map_map]
  rfl

/-- What is read from the text of a value fits where the value fits. -/
theorem Fits.reread {level : Nat} {value : Json} (h : value.Fits level) :
    value.reread.Fits level := by
  induction h with
  | null => exact .null
  | bool value => exact .bool value
  | @number level n hrange => exact .number n.spelling.inRange_number
  | string s => exact .string s
  | @array level items hlevel _ ih =>
    rw [reread_array]
    refine .array hlevel fun other hother => ?_
    obtain ⟨item, hmem, rfl⟩ := List.mem_map.mp hother
    exact ih item hmem
  | @object level fields hlevel hkeys _ ih =>
    rw [reread_object]
    refine .object hlevel ?_ fun other hother => ?_
    · unfold Fields.keys at hkeys ⊢
      rwa [List.map_map]
    · obtain ⟨field, hmem, rfl⟩ := List.mem_map.mp hother
      exact ih field hmem

/-- No number in the text of a value is refused. -/
theorem accepted_of_fits {level : Nat} {value : Json} (h : value.Fits level)
    (hfinite : value.IsFinite) :
    ∀ l ∈ value.said.numbers, JsonNumber.ofLiteral? l = some l.number := by
  induction h with
  | null | bool | string => exact List.forall_mem_nil _
  | @number level n hrange =>
    have hreadable : n.IsReadable := by
      cases n with
      | integer i => exact hrange
      | double x => exact hfinite x .here
    obtain ⟨m, hm⟩ := JsonNumber.exists_ofLiteral?_spelling hreadable
    refine List.forall_mem_singleton.mpr ?_
    rw [JsonNumber.Literal.number, hm]
    rfl
  | @array level items _ _ ih =>
    rw [said_array]
    intro l hl
    obtain ⟨other, hother, hl⟩ := Document.mem_numbersOfItems.mp hl
    obtain ⟨item, hmem, rfl⟩ := List.mem_map.mp hother
    exact ih item hmem (isFinite_array_iff.mp hfinite item hmem) l hl
  | @object level fields _ _ _ ih =>
    rw [said_object]
    intro l hl
    obtain ⟨other, hother, hl⟩ := Document.mem_numbersOfFields.mp hl
    obtain ⟨field, hmem, rfl⟩ := List.mem_map.mp hother
    exact ih field hmem (isFinite_object_iff.mp hfinite field hmem) l hl

/-- The text of a value is accepted in every layout, with blanks behind it. -/
theorem parseChars_renderAt_of_isFinite {value : Json} (h : value.Fits 0)
    (hfinite : value.IsFinite) (layout : Layout) {gap : List Char}
    (hgap : ∀ c ∈ gap, Lexeme.IsBlank c) :
    parseChars (renderAt layout 0 value ++ gap) = .ok value.reread := by
  have hsaid := Document.makes_renderAt layout value.toDocument 0 (.done hgap)
  rw [toJson_toDocument, List.append_nil] at hsaid
  exact Document.parseChars_of_makes hsaid (accepted_of_fits h hfinite) h.reread

end Json

end PackageRelease
