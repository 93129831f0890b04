import PackageRelease.Json.Basic

/-! # TOML values

  A TOML document is a table: named values in the order of the text. Tables and arrays remember
  how they came about, because that decides whether later lines may add to them:

  - what stands in braces or brackets is complete,
  - a table with a header has only that one, and only further headers may go below it,
  - a table that so far is only a step on the way to another one stays open.
-/

namespace PackageRelease

/-- A floating point number. -/
inductive TomlFloat where
  /-- A finite number. -/
  | finite (value : Binary64)
  /-- `inf`, with either sign. -/
  | infinity (negative : Bool)
  /-- `nan`. -/
  | nan
  /-- A literal beyond the greatest finite number; nobody can use its value. -/
  | tooLarge
  deriving DecidableEq, Repr

/-- How a table came about. -/
inductive TableKind where
  /-- It stands in braces. -/
  | braced
  /-- It has a header of its own. -/
  | headed
  /-- It is a step on the way to a table with a header. -/
  | implied
  /-- It is a step on the way to a value with a dotted key. -/
  | dotted
  deriving DecidableEq, Repr

/-- A TOML value. -/
inductive Toml where
  /-- A string. -/
  | string (value : String)
  /-- A whole number of any size. -/
  | integer (value : Int)
  /-- A floating point number. -/
  | float (value : TomlFloat)
  /-- The literals `true` and `false`. -/
  | bool (value : Bool)
  /-- A date, a time or both, in its normal form. -/
  | moment (text : String)
  /-- An array; `ofTables` if it grows by a header with two brackets. -/
  | array (items : List Toml) (ofTables : Bool)
  /-- A table. -/
  | table (fields : List (String × Toml)) (kind : TableKind)
  deriving Repr, Inhabited

/-- The word for the kind of a value. -/
def Toml.kindName : Toml → String
  | .string _ => "string"
  | .integer _ => "integer"
  | .float _ => "float"
  | .bool _ => "boolean"
  | .moment _ => "datetime"
  | .array _ _ => "array"
  | .table _ _ => "table"

/-- Whether further dotted keys may go into a table, or further headers. -/
def TableKind.admits (kind : TableKind) (byDottedKey : Bool) : Bool :=
  match kind with
  | .braced => false
  | .headed => !byDottedKey
  | .implied | .dotted => true

end PackageRelease
