import PackageRelease.Number.Binary64

/-! # JSON values

  A value keeps what the text said: the order of the fields of an object, and whether a number
  was an integer in the range of 64 bits or not. An object has each key once; a second value for
  a key replaces the first one in its place.
-/

namespace PackageRelease

/-! ### Ordered fields -/

/-- Named values in the order in which their names first came. -/
abbrev Fields (α : Type) := List (String × α)

namespace Fields

variable {α : Type}

/-- The value under a name. -/
def get? (fields : Fields α) (key : String) : Option α := fields.lookup key

/-- Gives a name a value: in its place if the name is there, else at the end. -/
def set : Fields α → String → α → Fields α
  | [], key, value => [(key, value)]
  | (k, v) :: rest, key, value =>
    if k = key then (k, value) :: rest else (k, v) :: set rest key value

/-- The names in order. -/
def keys (fields : Fields α) : List String := fields.map Prod.fst

@[simp] theorem get?_set_self (fields : Fields α) (key : String) (value : α) :
    get? (set fields key value) key = some value := by
  induction fields with
  | nil => simp [get?, set]
  | cons field rest ih =>
    obtain ⟨k, v⟩ := field
    by_cases h : k = key
    · simp [get?, set, h]
    · have h' : (key == k) = false := by simp [Ne.symm h]
      simpa [get?, set, h, List.lookup_cons, h'] using ih

theorem get?_set_of_ne {key other : String} (h : other ≠ key) (fields : Fields α) (value : α) :
    get? (set fields key value) other = get? fields other := by
  have hne : (other == key) = false := by simp [h]
  induction fields with
  | nil => simp [get?, set, List.lookup_cons, hne]
  | cons field rest ih =>
    obtain ⟨k, v⟩ := field
    by_cases hk : k = key
    · subst hk
      have h' : (other == k) = false := by simp [h]
      simp [get?, set, List.lookup_cons, h']
    · simp only [get?, set, hk, if_false, List.lookup_cons] at ih ⊢
      rw [ih]

end Fields

/-! ### Values -/

/-- A number: a whole number that fits in 64 bits, signed or unsigned, or else a double. -/
inductive JsonNumber where
  /-- A whole number from `-2 ^ 63` to `2 ^ 64 - 1`. -/
  | integer (value : Int)
  /-- Any other number, and negative zero. -/
  | double (value : Binary64)
  deriving DecidableEq, Repr

/-- A JSON value. -/
inductive Json where
  /-- The literal `null`. -/
  | null
  /-- The literals `true` and `false`. -/
  | bool (value : Bool)
  /-- A number. -/
  | number (value : JsonNumber)
  /-- A string. -/
  | string (value : String)
  /-- An array. -/
  | array (items : List Json)
  /-- An object, its fields in order. -/
  | object (fields : List (String × Json))
  deriving Repr, Inhabited

namespace Json

mutual

/-- Equality of values can be decided. -/
def decEq : (a b : Json) → Decidable (a = b)
  | .null, .null => isTrue rfl
  | .bool a, .bool b => decidable_of_iff (a = b) (by simp)
  | .number a, .number b => decidable_of_iff (a = b) (by simp)
  | .string a, .string b => decidable_of_iff (a = b) (by simp)
  | .array a, .array b =>
    match decEqItems a b with
    | isTrue h => isTrue (by rw [h])
    | isFalse h => isFalse (by intro h'; cases h'; exact h rfl)
  | .object a, .object b =>
    match decEqFields a b with
    | isTrue h => isTrue (by rw [h])
    | isFalse h => isFalse (by intro h'; cases h'; exact h rfl)
  | .null, .bool _ | .null, .number _ | .null, .string _ | .null, .array _ | .null, .object _
  | .bool _, .null | .bool _, .number _ | .bool _, .string _ | .bool _, .array _
  | .bool _, .object _ | .number _, .null | .number _, .bool _ | .number _, .string _
  | .number _, .array _ | .number _, .object _ | .string _, .null | .string _, .bool _
  | .string _, .number _ | .string _, .array _ | .string _, .object _ | .array _, .null
  | .array _, .bool _ | .array _, .number _ | .array _, .string _ | .array _, .object _
  | .object _, .null | .object _, .bool _ | .object _, .number _ | .object _, .string _
  | .object _, .array _ => isFalse (by intro h; cases h)

/-- Equality of arrays can be decided. -/
def decEqItems : (a b : List Json) → Decidable (a = b)
  | [], [] => isTrue rfl
  | [], _ :: _ | _ :: _, [] => isFalse (by intro h; cases h)
  | a :: as, b :: bs =>
    match decEq a b, decEqItems as bs with
    | isTrue h, isTrue h' => isTrue (by rw [h, h'])
    | isFalse h, _ => isFalse (by intro h'; cases h'; exact h rfl)
    | _, isFalse h => isFalse (by intro h'; cases h'; exact h rfl)

/-- Equality of fields can be decided. -/
def decEqFields : (a b : List (String × Json)) → Decidable (a = b)
  | [], [] => isTrue rfl
  | [], _ :: _ | _ :: _, [] => isFalse (by intro h; cases h)
  | (k, a) :: as, (l, b) :: bs =>
    match decEq a b, decEqFields as bs with
    | isTrue h, isTrue h' =>
      if hk : k = l then isTrue (by rw [h, h', hk])
      else isFalse (by intro h''; cases h''; exact hk rfl)
    | isFalse h, _ => isFalse (by intro h'; cases h'; exact h rfl)
    | _, isFalse h => isFalse (by intro h'; cases h'; exact h rfl)

end

instance : DecidableEq Json := decEq

/-- The text of a string value. -/
def string? : Json → Option String
  | .string s => some s
  | _ => none

/-- The items of an array. -/
def array? : Json → Option (List Json)
  | .array items => some items
  | _ => none

/-- The fields of an object. -/
def object? : Json → Option (Fields Json)
  | .object fields => some fields
  | _ => none

/-- The value under a key of an object; nothing for a value of any other kind. -/
def field? (value : Json) (key : String) : Option Json :=
  value.object?.bind fun fields => fields.get? key

/-- The kind of a value as a noun with its article. -/
def kindName : Json → String
  | .null => "null"
  | .bool _ => "a boolean"
  | .number _ => "a number"
  | .string _ => "a string"
  | .array _ => "an array"
  | .object _ => "an object"

end Json

end PackageRelease
