import Mathlib.Data.Rat.Defs
import Mathlib.Algebra.Field.Rat
import PackageRelease.Json.Token

/-! # What a JSON text says

  A text is a sequence of lexemes with blanks between them. What it says is a document: a tree whose
  numbers stand as they are written, because a number that was read need not be the one that was
  meant. Nothing here depends on how texts are read.
-/

namespace PackageRelease

/-! ### Documents -/

/-- A tree of JSON with numbers of some kind. -/
inductive Document (ν : Type) where
  /-- The literal `null`. -/
  | null
  /-- The literals `true` and `false`. -/
  | bool (value : Bool)
  /-- A number. -/
  | number (value : ν)
  /-- A string. -/
  | string (value : String)
  /-- An array. -/
  | array (items : List (Document ν))
  /-- An object, its fields in order. -/
  | object (fields : List (String × Document ν))

namespace Document

variable {ν μ κ : Type}

mutual

/-- The same tree with other numbers. -/
def map (f : ν → μ) : Document ν → Document μ
  | .null => .null
  | .bool value => .bool value
  | .number value => .number (f value)
  | .string value => .string value
  | .array items => .array (mapItems f items)
  | .object fields => .object (mapFields f fields)

/-- The items with other numbers. -/
def mapItems (f : ν → μ) : List (Document ν) → List (Document μ)
  | [] => []
  | item :: items => map f item :: mapItems f items

/-- The fields with other numbers. -/
def mapFields (f : ν → μ) : List (String × Document ν) → List (String × Document μ)
  | [] => []
  | (key, value) :: fields => (key, map f value) :: mapFields f fields

end

mutual

/-- The numbers of a tree, from the left. -/
def numbers : Document ν → List ν
  | .null | .bool _ | .string _ => []
  | .number value => [value]
  | .array items => numbersOfItems items
  | .object fields => numbersOfFields fields

/-- The numbers of items. -/
def numbersOfItems : List (Document ν) → List ν
  | [] => []
  | item :: items => numbers item ++ numbersOfItems items

/-- The numbers of fields. -/
def numbersOfFields : List (String × Document ν) → List ν
  | [] => []
  | (_, value) :: fields => numbers value ++ numbersOfFields fields

end

mutual

/-- The value that a tree of numbers is. -/
def toJson : Document JsonNumber → Json
  | .null => .null
  | .bool value => .bool value
  | .number value => .number value
  | .string value => .string value
  | .array items => .array (toJsonItems items)
  | .object fields => .object (toJsonFields fields)

/-- The values of items. -/
def toJsonItems : List (Document JsonNumber) → List Json
  | [] => []
  | item :: items => toJson item :: toJsonItems items

/-- The values of fields. -/
def toJsonFields : List (String × Document JsonNumber) → List (String × Json)
  | [] => []
  | (key, value) :: fields => (key, toJson value) :: toJsonFields fields

end

theorem mapItems_eq (f : ν → μ) (items : List (Document ν)) :
    mapItems f items = items.map fun item => item.map f := by
  induction items with
  | nil => rfl
  | cons item items ih => rw [mapItems, ih, List.map_cons]

theorem mapFields_eq (f : ν → μ) (fields : List (String × Document ν)) :
    mapFields f fields = fields.map fun field => (field.1, field.2.map f) := by
  induction fields with
  | nil => rfl
  | cons field fields ih => rw [mapFields, ih, List.map_cons]

theorem toJsonItems_eq (items : List (Document JsonNumber)) :
    toJsonItems items = items.map fun item => item.toJson := by
  induction items with
  | nil => rfl
  | cons item items ih => rw [toJsonItems, ih, List.map_cons]

theorem toJsonFields_eq (fields : List (String × Document JsonNumber)) :
    toJsonFields fields = fields.map fun field => (field.1, field.2.toJson) := by
  induction fields with
  | nil => rfl
  | cons field fields ih => rw [toJsonFields, ih, List.map_cons]

/-- Whether no object in a tree has a key twice. -/
inductive Distinct : Document ν → Prop where
  | null : Distinct .null
  | bool (value : Bool) : Distinct (.bool value)
  | number (value : ν) : Distinct (.number value)
  | string (value : String) : Distinct (.string value)
  | array {items : List (Document ν)} (hitems : ∀ item ∈ items, Distinct item) :
      Distinct (.array items)
  | object {fields : List (String × Document ν)} (hkeys : (fields.map Prod.fst).Nodup)
      (hfields : ∀ field ∈ fields, Distinct field.2) : Distinct (.object fields)

mutual

/-- Numbers are exchanged one after the other or at once. -/
theorem map_map (f : ν → μ) (g : μ → κ) (document : Document ν) :
    (document.map f).map g = document.map (g ∘ f) := by
  match document with
  | .null | .bool _ | .number _ | .string _ => rfl
  | .array items => rw [map, map, map, mapItems_mapItems f g items]
  | .object fields => rw [map, map, map, mapFields_mapFields f g fields]

theorem mapItems_mapItems (f : ν → μ) (g : μ → κ) (items : List (Document ν)) :
    mapItems g (mapItems f items) = mapItems (g ∘ f) items := by
  match items with
  | [] => rfl
  | item :: items =>
    rw [mapItems, mapItems, mapItems, map_map f g item, mapItems_mapItems f g items]

theorem mapFields_mapFields (f : ν → μ) (g : μ → κ) (fields : List (String × Document ν)) :
    mapFields g (mapFields f fields) = mapFields (g ∘ f) fields := by
  match fields with
  | [] => rfl
  | (key, value) :: fields =>
    rw [mapFields, mapFields, mapFields, map_map f g value, mapFields_mapFields f g fields]

end

mutual

/-- Two ways to exchange numbers give the same tree exactly if they agree on its numbers. -/
theorem map_eq_map_iff {f g : ν → μ} (document : Document ν) :
    document.map f = document.map g ↔ ∀ n ∈ document.numbers, f n = g n := by
  match document with
  | .null | .bool _ | .string _ => exact iff_of_true rfl (List.forall_mem_nil _)
  | .number n => rw [map, map, number.injEq, numbers, List.forall_mem_singleton]
  | .array items => rw [map, map, array.injEq, numbers, mapItems_eq_mapItems_iff items]
  | .object fields => rw [map, map, object.injEq, numbers, mapFields_eq_mapFields_iff fields]

theorem mapItems_eq_mapItems_iff {f g : ν → μ} (items : List (Document ν)) :
    mapItems f items = mapItems g items ↔ ∀ n ∈ numbersOfItems items, f n = g n := by
  match items with
  | [] => exact iff_of_true rfl (List.forall_mem_nil _)
  | item :: items =>
    rw [mapItems, mapItems, List.cons.injEq, numbersOfItems, List.forall_mem_append,
      map_eq_map_iff item, mapItems_eq_mapItems_iff items]

theorem mapFields_eq_mapFields_iff {f g : ν → μ} (fields : List (String × Document ν)) :
    mapFields f fields = mapFields g fields ↔ ∀ n ∈ numbersOfFields fields, f n = g n := by
  match fields with
  | [] => exact iff_of_true rfl (List.forall_mem_nil _)
  | (key, value) :: fields =>
    rw [mapFields, mapFields, List.cons.injEq, Prod.mk.injEq, numbersOfFields,
      List.forall_mem_append, map_eq_map_iff value, mapFields_eq_mapFields_iff fields]
    simp only [true_and]

end

end Document

/-! ### Numbers as they are written -/

namespace JsonNumber.Literal

/-- At least one digit and nothing else. -/
def IsDigits (cs : List Char) : Prop := cs ≠ [] ∧ ∀ c ∈ cs, Text.isDigit c = true

/-- How the digits behind the point are written. -/
inductive WritesFraction : Option (List Char) → List Char → Prop where
  | absent : WritesFraction none []
  | present {digits : List Char} (h : IsDigits digits) : WritesFraction (some digits) ('.' :: digits)

/-- How the exponent is written: a plus sign may be left out. -/
inductive WritesExponent : Option (Bool × List Char) → List Char → Prop where
  | absent : WritesExponent none []
  | unsigned {digits : List Char} {mark : Char} (hmark : mark = 'e' ∨ mark = 'E')
      (h : IsDigits digits) : WritesExponent (some (false, digits)) (mark :: digits)
  | signed {digits : List Char} {mark : Char} {negative : Bool} (hmark : mark = 'e' ∨ mark = 'E')
      (h : IsDigits digits) :
      WritesExponent (some (negative, digits)) (mark :: (if negative then '-' else '+') :: digits)

/-- Whether a text is a number with the given parts: no zero stands in front of another digit. -/
structure IsWritten (l : Literal) (cs : List Char) : Prop where
  whole : IsDigits l.whole
  unpadded : l.whole.head? = some '0' → l.whole = ['0']
  text_eq : ∃ fraction exponent, WritesFraction l.fraction fraction ∧
    WritesExponent l.exponent exponent ∧
    cs = (if l.negative then ['-'] else []) ++ l.whole ++ fraction ++ exponent

/-- The digits of a number without its point. -/
def digits (l : Literal) : List Char := l.whole ++ l.fraction.getD []

/-- The exact value of a number. -/
def value (l : Literal) : ℚ :=
  (if l.negative then -1 else 1) * (Text.digitsValue l.digits : ℚ) *
    10 ^ (exponentValue l.exponent - (l.fraction.getD []).length)

end JsonNumber.Literal

/-! ### Strings as they are written -/

/-- How the characters of a string are written between its quotes. -/
inductive WritesText : List Char → List Char → Prop where
  /-- Nothing stands for nothing. -/
  | nil : WritesText [] []
  /-- A character stands for itself, unless it is a quote, a backslash or a control character. -/
  | plain {c : Char} {s cs : List Char} (hquote : c ≠ '"') (hbackslash : c ≠ '\\')
      (hcontrol : 0x20 ≤ c.toNat) (h : WritesText s cs) : WritesText (c :: s) (c :: cs)
  /-- An escape with one letter. -/
  | letter {c letter : Char} {s cs : List Char}
      (hletter : (letter, c) ∈ [('"', '"'), ('\\', '\\'), ('/', '/'), ('b', '\x08'), ('f', '\x0c'),
        ('n', '\n'), ('r', '\r'), ('t', '\t')])
      (h : WritesText s cs) : WritesText (c :: s) ('\\' :: letter :: cs)
  /-- An escape with the number of a character. -/
  | unit {a b c d : Char} {n : Nat} {s cs : List Char} (hn : JsonToken.hexUnit? a b c d = some n)
      (hchar : n < 0xD800 ∨ 0xDFFF < n) (h : WritesText s cs) :
      WritesText (Char.ofNat n :: s) ('\\' :: 'u' :: a :: b :: c :: d :: cs)
  /-- Two escapes for a character that has no place in one. -/
  | pair {a b c d e f g h : Char} {high low : Nat} {s cs : List Char}
      (hhigh : JsonToken.hexUnit? a b c d = some high) (hhighRange : 0xD800 ≤ high ∧ high ≤ 0xDBFF)
      (hlow : JsonToken.hexUnit? e f g h = some low) (hlowRange : 0xDC00 ≤ low ∧ low ≤ 0xDFFF)
      (hrest : WritesText s cs) :
      WritesText (Char.ofNat (0x10000 + (high - 0xD800) * 0x400 + (low - 0xDC00)) :: s)
        ('\\' :: 'u' :: a :: b :: c :: d :: '\\' :: 'u' :: e :: f :: g :: h :: cs)

/-! ### Lexemes -/

/-- A unit of a JSON text. -/
inductive Lexeme where
  | arrayOpen
  | arrayClose
  | objectOpen
  | objectClose
  | comma
  | colon
  | null
  | bool (value : Bool)
  | number (literal : JsonNumber.Literal)
  | text (value : String)

namespace Lexeme

/-- How a lexeme is written. -/
inductive IsWritten : Lexeme → List Char → Prop where
  | arrayOpen : IsWritten .arrayOpen ['[']
  | arrayClose : IsWritten .arrayClose [']']
  | objectOpen : IsWritten .objectOpen ['\x7b']
  | objectClose : IsWritten .objectClose ['\x7d']
  | comma : IsWritten .comma [',']
  | colon : IsWritten .colon [':']
  | null : IsWritten .null ['n', 'u', 'l', 'l']
  | true : IsWritten (.bool true) ['t', 'r', 'u', 'e']
  | false : IsWritten (.bool false) ['f', 'a', 'l', 's', 'e']
  | number {l : JsonNumber.Literal} {cs : List Char} (h : l.IsWritten cs) : IsWritten (.number l) cs
  | text {s : String} {cs : List Char} (h : WritesText s.toList cs) :
      IsWritten (.text s) ('"' :: cs ++ ['"'])

/-- Whether a character separates lexemes. -/
def IsBlank (c : Char) : Prop := c = ' ' ∨ c = '\t' ∨ c = '\n' ∨ c = '\r'

/-- Whether a text is made of lexemes, with blanks in front, between and behind. -/
inductive Makes : List Lexeme → List Char → Prop where
  | done {gap : List Char} (hgap : ∀ c ∈ gap, IsBlank c) : Makes [] gap
  | next {lexeme : Lexeme} {lexemes : List Lexeme} {gap word cs : List Char}
      (hgap : ∀ c ∈ gap, IsBlank c) (hword : lexeme.IsWritten word) (h : Makes lexemes cs) :
      Makes (lexeme :: lexemes) (gap ++ word ++ cs)

end Lexeme

namespace Document

mutual

/-- The lexemes of a tree. -/
def lexemes : Document JsonNumber.Literal → List Lexeme
  | .null => [.null]
  | .bool value => [.bool value]
  | .number l => [.number l]
  | .string s => [.text s]
  | .array [] => [.arrayOpen, .arrayClose]
  | .array (item :: items) => .arrayOpen :: (lexemes item ++ lexemesOfItems items)
  | .object [] => [.objectOpen, .objectClose]
  | .object ((key, value) :: fields) =>
    .objectOpen :: .text key :: .colon :: (lexemes value ++ lexemesOfFields fields)

/-- The lexemes of the further items of an array. -/
def lexemesOfItems : List (Document JsonNumber.Literal) → List Lexeme
  | [] => [.arrayClose]
  | item :: items => .comma :: (lexemes item ++ lexemesOfItems items)

/-- The lexemes of the further fields of an object. -/
def lexemesOfFields : List (String × Document JsonNumber.Literal) → List Lexeme
  | [] => [.objectClose]
  | (key, value) :: fields =>
    .comma :: .text key :: .colon :: (lexemes value ++ lexemesOfFields fields)

end

/-- Whether a text says a document. -/
def IsSaid (document : Document JsonNumber.Literal) (text : String) : Prop :=
  Lexeme.Makes document.lexemes text.toList

end Document

end PackageRelease
