import PackageRelease.Json.Number

/-! # Writing JSON

  A value is written either on one line without any space, or over several lines with two spaces
  for each level. An empty array or object is `[]` or `\x7b\x7d` in both layouts. A string escapes
  the quote, the backslash and the control characters below U+0020, and nothing else.
-/

namespace PackageRelease.Json

/-- How a value is laid out. -/
inductive Layout where
  /-- On one line, without spaces. -/
  | compact
  /-- One item or field a line, indented by level. -/
  | pretty
  deriving DecidableEq, Repr

namespace Layout

/-- What stands in front of an item or a closing bracket at a level. -/
def lineBreak : Layout → Nat → List Char
  | .compact, _ => []
  | .pretty, level => '\n' :: List.replicate (2 * level) ' '

/-- What stands between a key and its value. -/
def colon : Layout → List Char
  | .compact => [':']
  | .pretty => [':', ' ']

end Layout

/-- The text of one character inside a string. -/
def escapeChar (c : Char) : List Char :=
  match c with
  | '"' => ['\\', '"']
  | '\\' => ['\\', '\\']
  | '\x08' => ['\\', 'b']
  | '\x0c' => ['\\', 'f']
  | '\n' => ['\\', 'n']
  | '\r' => ['\\', 'r']
  | '\t' => ['\\', 't']
  | c =>
    if c.toNat < 0x20 then
      ['\\', 'u', '0', '0', Text.hexDigit (c.toNat / 16), Text.hexDigit (c.toNat % 16)]
    else [c]

/-- A string in quotes. -/
def renderText (cs : List Char) : List Char := '"' :: cs.flatMap escapeChar ++ ['"']

mutual

/-- The text of a value at a level. -/
def renderAt (layout : Layout) (level : Nat) : Json → List Char
  | .null => ['n', 'u', 'l', 'l']
  | .bool true => ['t', 'r', 'u', 'e']
  | .bool false => ['f', 'a', 'l', 's', 'e']
  | .number n => n.render
  | .string s => renderText s.toList
  | .array [] => ['[', ']']
  | .array (item :: items) =>
    '[' :: layout.lineBreak (level + 1) ++ renderAt layout (level + 1) item ++
      renderItems layout level items
  | .object [] => ['{', '}']
  | .object ((key, value) :: fields) =>
    '{' :: layout.lineBreak (level + 1) ++ renderText key.toList ++ layout.colon ++
      renderAt layout (level + 1) value ++ renderFields layout level fields

/-- The further items of an array and its end. -/
def renderItems (layout : Layout) (level : Nat) : List Json → List Char
  | [] => layout.lineBreak level ++ [']']
  | item :: items =>
    ',' :: layout.lineBreak (level + 1) ++ renderAt layout (level + 1) item ++
      renderItems layout level items

/-- The further fields of an object and its end. -/
def renderFields (layout : Layout) (level : Nat) : List (String × Json) → List Char
  | [] => layout.lineBreak level ++ ['}']
  | (key, value) :: fields =>
    ',' :: layout.lineBreak (level + 1) ++ renderText key.toList ++ layout.colon ++
      renderAt layout (level + 1) value ++ renderFields layout level fields

end

/-- The text of a value in a layout. -/
def render (layout : Layout) (value : Json) : String := String.ofList (renderAt layout 0 value)

/-- The text on one line. -/
def compact (value : Json) : String := render .compact value

/-- The text over several lines. -/
def pretty (value : Json) : String := render .pretty value

end PackageRelease.Json
