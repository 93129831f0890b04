/-! # Causes of a malformed JSON text

  Each constructor is one way in which a text fails to be JSON. The first fault from the left
  decides.
-/

namespace PackageRelease

/-- Why a text is not JSON. -/
inductive JsonError where
  /-- The text ends where a value is due, inside a literal or inside a number. -/
  | endInValue
  /-- The text ends inside an object. -/
  | endInObject
  /-- The text ends inside an array. -/
  | endInArray
  /-- The text ends inside a string. -/
  | endInString
  /-- No value begins with this character. -/
  | valueExpected
  /-- A literal is misspelt. -/
  | literalExpected
  /-- No colon follows a key. -/
  | colonExpected
  /-- Neither a comma nor the end follows a field. -/
  | fieldEndExpected
  /-- Neither a comma nor the end follows an item. -/
  | itemEndExpected
  /-- A key of an object is not a string. -/
  | keyNotString
  /-- A comma stands before the end of an array or object. -/
  | trailingComma
  /-- Something follows the value. -/
  | trailingCharacters
  /-- A number breaks the grammar. -/
  | invalidNumber
  /-- A number is too large for a double. -/
  | numberOutOfRange
  /-- A backslash is followed by no known escape. -/
  | invalidEscape
  /-- An escaped surrogate has no partner. -/
  | loneSurrogate
  /-- No second escape follows a leading surrogate. -/
  | unfinishedSurrogate
  /-- A control character stands in a string. -/
  | controlCharacter
  /-- Arrays and objects are nested too deeply. -/
  | nestedTooDeeply
  deriving DecidableEq, Repr

/-- The wording of each cause. -/
def JsonError.message : JsonError → String
  | .endInValue => "EOF while parsing a value"
  | .endInObject => "EOF while parsing an object"
  | .endInArray => "EOF while parsing a list"
  | .endInString => "EOF while parsing a string"
  | .valueExpected => "expected value"
  | .literalExpected => "expected ident"
  | .colonExpected => "expected `:`"
  | .fieldEndExpected => "expected `,` or `\x7d`"
  | .itemEndExpected => "expected `,` or `]`"
  | .keyNotString => "key must be a string"
  | .trailingComma => "trailing comma"
  | .trailingCharacters => "trailing characters"
  | .invalidNumber => "invalid number"
  | .numberOutOfRange => "number out of range"
  | .invalidEscape => "invalid escape"
  | .loneSurrogate => "lone leading surrogate in hex escape"
  | .unfinishedSurrogate => "unexpected end of hex escape"
  | .controlCharacter => "control character (\\u0000-\\u001F) found while parsing a string"
  | .nestedTooDeeply => "recursion limit exceeded"

end PackageRelease
