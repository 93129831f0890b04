import PackageRelease.Text.Basic

/-! # Causes of an unusable TOML document

  A document can fail to be TOML at all, or hold other things than the reader of its values asks
  for. Of several faults the one that comes first in the document is reported, but text that is no
  TOML is reported before anything else.
-/

namespace PackageRelease

/-- Why a TOML document cannot be used. -/
inductive TomlFault where
  /-- The text is no TOML. -/
  | malformed
  /-- A field that nobody asks for. -/
  | unknownField (name : String) (known : List String)
  /-- A field that is asked for is not there. -/
  | missingField (name : String)
  /-- A field is there twice under different names. -/
  | duplicateField (name : String)
  /-- A word that is none of the choices. -/
  | unknownChoice (name : String) (known : List String)
  /-- A value of another kind than the one that is asked for. -/
  | wrongKind (found expected : String)
  /-- A value of the right kind outside of its range. -/
  | wrongValue (found expected : String)
  /-- An array with too few items. -/
  | wrongLength (length : Nat) (expected : String)
  /-- A field to set that is no string. -/
  | fieldNotString (key kind : String)
  /-- A whole number with more than 128 bits. -/
  | integerTooLarge
  /-- A whole number above the greatest signed one with 64 bits. -/
  | integerNotSigned
  /-- A number beyond the greatest finite one. -/
  | floatTooLarge
  /-- A choice is neither a word nor a table. -/
  | noChoice
  /-- A choice is a table without exactly one field. -/
  | notOneChoice
  /-- A choice in a table has something behind it. -/
  | choiceNotEmpty
  deriving DecidableEq, Repr

namespace TomlFault

/-- A word between backquotes. -/
def marked (word : String) : String := "`" ++ word ++ "`"

/-- Several words of which one is expected. -/
def oneOf : List String → String
  | [] => "nothing"
  | [a] => marked a
  | [a, b] => marked a ++ " or " ++ marked b
  | words => "one of " ++ Text.join ", " (words.map marked)

/-- The wording of a fault. -/
def message : TomlFault → String
  | .malformed => "the text is not a TOML document"
  | .unknownField name known => "unknown field " ++ marked name ++ ", expected " ++ oneOf known
  | .missingField name => "missing field " ++ marked name
  | .duplicateField name => "duplicate field " ++ marked name
  | .unknownChoice name known => "unknown variant " ++ marked name ++ ", expected " ++ oneOf known
  | .wrongKind found expected => "invalid type: " ++ found ++ ", expected " ++ expected
  | .wrongValue found expected => "invalid value: " ++ found ++ ", expected " ++ expected
  | .wrongLength length expected =>
    "invalid length " ++ Text.decimal length ++ ", expected " ++ expected
  | .fieldNotString key kind => "set." ++ key ++ " must be a string, found " ++ kind
  | .integerTooLarge => "integer number overflowed"
  | .integerNotSigned => "u64 value was too large"
  | .floatTooLarge => "floating-point number overflowed"
  | .noChoice => "wanted string or table"
  | .notOneChoice => "wanted exactly 1 element"
  | .choiceNotEmpty => "expected an empty value"

/-- The fault as a report of its own: a heading and the wording, each on a line. -/
def report (fault : TomlFault) : String := "TOML parse error\n" ++ fault.message ++ "\n"

end TomlFault

end PackageRelease
