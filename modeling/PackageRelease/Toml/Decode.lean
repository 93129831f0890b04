import PackageRelease.Number.Layout
import PackageRelease.Number.Word
import PackageRelease.Text.Quoted
import PackageRelease.Toml.Basic
import PackageRelease.Toml.Fault

/-! # Taking values out of TOML

  A reader asks for a kind of value; a value of another kind is a fault that describes what was
  found. A date or time counts as a table with one field of a reserved name.
-/

namespace PackageRelease.Toml

/-! ### Describing a value -/

/-- Doubles are described without an exponent. -/
def floatLayout : DecimalLayout := ⟨-400, 400⟩

/-- A whole number in a description, with its width unless it fits in 64 bits. -/
def describeInteger (n : Int) : Except TomlFault String :=
  let text := "integer " ++ TomlFault.marked (Text.decimalInt n)
  if Word.holdsSigned 64 n || Word.holds 64 n then .ok text
  else if Word.holdsSigned 128 n then .ok (text ++ " as i128")
  else if Word.holds 128 n then .ok (text ++ " as u128")
  else .error .integerTooLarge

/-- A floating point number in a description. -/
def describeFloat (x : TomlFloat) : Except TomlFault String :=
  let text (s : String) := "floating point " ++ TomlFault.marked s
  match x with
  | .finite value => .ok (text (String.ofList (value.render floatLayout)))
  | .infinity false => .ok (text "inf")
  | .infinity true => .ok (text "-inf")
  | .nan => .ok (text "NaN")
  | .tooLarge => .error .floatTooLarge

/-- What a value is, for a fault. -/
def describe : Toml → Except TomlFault String
  | .string s => .ok ("string " ++ Text.quoted s)
  | .integer n => describeInteger n
  | .float x => describeFloat x
  | .bool b => .ok ("boolean " ++ TomlFault.marked (if b then "true" else "false"))
  | .moment _ | .table _ _ => .ok "map"
  | .array _ _ => .ok "sequence"

/-- The fault for a value of another kind than the expected one. -/
def refuse {α : Type} (expected : String) (value : Toml) : Except TomlFault α := do
  throw (.wrongKind (← value.describe) expected)

/-! ### Single values -/

/-- A string. -/
def text : Toml → Except TomlFault String
  | .string s => .ok s
  | value => value.refuse "a string"

/-- A path. -/
def pathText : Toml → Except TomlFault String
  | .string s => .ok s
  | value => value.refuse "path string"

/-- A truth value. -/
def truth : Toml → Except TomlFault Bool
  | .bool b => .ok b
  | value => value.refuse "a boolean"

/-- A whole number with 32 bits. -/
def count32 : Toml → Except TomlFault UInt32
  | .integer n => do
    if Word.holds 32 n then return UInt32.ofNat n.toNat
    else if Word.holdsSigned 64 n || Word.holds 64 n then
      throw (.wrongValue (← describeInteger n) "u32")
    else (Toml.integer n).refuse "u32"
  | value => value.refuse "u32"

/-- Strings in an array. -/
def texts : Toml → Except TomlFault (List String)
  | .array items _ => items.mapM text
  | value => value.refuse "a sequence"

/-! ### Tables -/

/-- The reserved name under which a date or time appears as a field. -/
def momentKey : String := "$__toml_private_datetime"

/-- The fields of a value that can be taken for a table. -/
def fields? : Toml → Option (Fields Toml)
  | .table fields _ => some fields
  | .moment text => some [(momentKey, .string text)]
  | _ => none

mutual

/-- Checks everything in a value from the left that is neither an array nor a table. -/
def forLeaves (check : Toml → Except TomlFault Unit) : Toml → Except TomlFault Unit
  | .array items _ => forItems check items
  | .table fields _ => forFields check fields
  | value => check value

/-- Checks everything in the items of an array. -/
def forItems (check : Toml → Except TomlFault Unit) : List Toml → Except TomlFault Unit
  | [] => .ok ()
  | item :: rest => do
    forLeaves check item
    forItems check rest

/-- Checks everything in the fields of a table. -/
def forFields (check : Toml → Except TomlFault Unit) : List (String × Toml) → Except TomlFault Unit
  | [] => .ok ()
  | (_, value) :: rest => do
    forLeaves check value
    forFields check rest

end

/-- Checks that a number can be read at all. -/
def checkReadable (value : Toml) : Except TomlFault Unit := discard value.describe

/-- Checks that a number can be kept: a whole number has 64 bits with a sign. -/
def checkStorable : Toml → Except TomlFault Unit
  | .integer n => do
    if Word.holdsSigned 64 n then return ()
    else if Word.holds 64 n then throw .integerNotSigned
    else (Toml.integer n).refuse "any valid TOML value"
  | value => value.checkReadable

/-- Named strings in order. All values are checked before the first one is asked to be a string. -/
def namedTexts (value : Toml) : Except TomlFault (List (String × String)) :=
  match value.fields? with
  | none => value.refuse "a map"
  | some fields => do
    forFields checkStorable fields
    fields.mapM fun (key, value) =>
      match value with
      | .string s => .ok (key, s)
      | other => .error (.fieldNotString key other.kindName)

end PackageRelease.Toml
