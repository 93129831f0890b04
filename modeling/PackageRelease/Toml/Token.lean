import PackageRelease.Text.Basic

/-! # TOML tokens

  A text is cut into tokens from the left. Punctuation and line ends are tokens of their own, a
  string is one token with its content, and everything else up to the next punctuation, blank or
  line end is a word. What a word means depends on where it stands, so it is left as it is.

  A comment counts as a blank. A space is kept apart from other blanks, because exactly one space
  may stand between a date and a time.
-/

namespace PackageRelease

/-- A lexical unit of a TOML text. -/
inductive TomlToken where
  /-- `.` separates the parts of a key. -/
  | dot
  /-- `=` separates a key from its value. -/
  | equals
  /-- `,` separates items and fields. -/
  | comma
  /-- `[` opens an array or a header. -/
  | bracketOpen
  /-- `]` closes an array or a header. -/
  | bracketClose
  /-- `\x7b` opens an inline table. -/
  | braceOpen
  /-- `\x7d` closes an inline table. -/
  | braceClose
  /-- One space. -/
  | space
  /-- A tab or a comment. -/
  | blank
  /-- The end of a line. -/
  | lineEnd
  /-- A string on one line. -/
  | text (value : String)
  /-- A string that may span lines. -/
  | longText (value : String)
  /-- Characters without quotes. -/
  | word (letters : List Char)
  /-- Something that is no token. -/
  | bad
  deriving DecidableEq, Repr

namespace TomlToken

open Text (hexValue?)

/-! ### Characters -/

/-- Whether a character may stand in a comment or a string: no control character but the tab. -/
def isPlain (c : Char) : Bool := c = '\t' || (0x20 ≤ c.toNat && c.toNat ≠ 0x7F)

/-- Whether a word ends in front of a character. -/
def endsWord (c : Char) : Bool :=
  c ∈ ['.', '=', ',', '[', ']', '{', '}', ' ', '\t', '#', '\r', '\n']

/-- Whether a character is a space or a tab. -/
def isBlankChar (c : Char) : Bool := c = ' ' || c = '\t'

/-! ### Escapes -/

/-- The character that a one-letter escape stands for. -/
def shortEscape? : Char → Option Char
  | 'b' => some '\x08'
  | 't' => some '\t'
  | 'n' => some '\n'
  | 'f' => some '\x0c'
  | 'r' => some '\r'
  | 'e' => some '\x1b'
  | '"' => some '"'
  | '\\' => some '\\'
  | _ => none

/-- The number of hexadecimal digits that an escape takes. -/
def hexCount? : Char → Option Nat
  | 'x' => some 2
  | 'u' => some 4
  | 'U' => some 8
  | _ => none

/-- The character with a code point, if there is one. -/
def charOf? (n : Nat) : Option Char := if n.isValidChar then some (Char.ofNat n) else none

/-- The character that an escape behind its backslash stands for, and how many characters the
    escape takes. -/
def escape? : List Char → Option (Char × Nat)
  | [] => none
  | e :: rest =>
    match hexCount? e with
    | none => (shortEscape? e).map fun c => (c, 1)
    | some count => do
      let digits := rest.take count
      guard (digits.length = count)
      let values ← digits.mapM hexValue?
      let c ← charOf? (values.foldl (fun n d => 16 * n + d) 0)
      return (c, count + 1)

/-- How many blanks and line ends stand at the front. -/
def emptyCount : List Char → Nat
  | '\r' :: '\n' :: rest => emptyCount rest + 2
  | c :: rest => if isBlankChar c || c = '\n' then emptyCount rest + 1 else 0
  | [] => 0

/-- How many characters a backslash at the end of a line takes with it: what follows it up to the
    next character that is neither blank nor a line end. The rest of its own line is blank. -/
def foldedCount? (rest : List Char) : Option Nat :=
  match rest.dropWhile isBlankChar with
  | '\n' :: _ | '\r' :: '\n' :: _ => some (emptyCount rest)
  | _ => none

/-! ### Strings

Each scanner starts behind the opening quotes and gives the content and how many characters it
took, the closing quotes included. The first argument counts characters that belong to an escape.
-/

/-- Puts a character in front of what was read. -/
def push (c : Char) (taken : Nat) : Option (List Char × Nat) → Option (List Char × Nat)
  | some (cs, n) => some (c :: cs, taken + n)
  | none => none

/-- Counts further characters that add nothing to the content. -/
def pass (taken : Nat) : Option (List Char × Nat) → Option (List Char × Nat)
  | some (cs, n) => some (cs, taken + n)
  | none => none

/-- A string between single quotes. -/
def scanLiteral : List Char → Option (List Char × Nat)
  | [] => none
  | '\'' :: _ => some ([], 1)
  | c :: rest => if isPlain c then push c 1 (scanLiteral rest) else none

/-- A string between double quotes. -/
def scanQuoted : Nat → List Char → Option (List Char × Nat)
  | _, [] => none
  | skip + 1, _ :: rest => pass 1 (scanQuoted skip rest)
  | 0, '"' :: _ => some ([], 1)
  | 0, '\\' :: rest =>
    match escape? rest with
    | some (c, n) => push c 1 (scanQuoted n rest)
    | none => none
  | 0, c :: rest => if isPlain c then push c 1 (scanQuoted 0 rest) else none

/-- The end of a string between three quotes: up to two further quotes belong to it. -/
def closing? (quote : Char) (cs : List Char) : Option (List Char × Nat) :=
  let count := min (cs.takeWhile (· = quote)).length 5
  if 3 ≤ count then some (List.replicate (count - 3) quote, count) else none

/-- A string between three single quotes. -/
def scanLongLiteral : List Char → Option (List Char × Nat)
  | [] => none
  | c :: rest =>
    match closing? '\'' (c :: rest) with
    | some found => some found
    | none =>
      if isPlain c || c = '\n' || (c = '\r' && rest.head? = some '\n') then
        push c 1 (scanLongLiteral rest)
      else none

/-- A string between three double quotes. -/
def scanLongQuoted : Nat → List Char → Option (List Char × Nat)
  | _, [] => none
  | skip + 1, _ :: rest => pass 1 (scanLongQuoted skip rest)
  | 0, c :: rest =>
    match closing? '"' (c :: rest) with
    | some found => some found
    | none =>
      if c = '\\' then
        match escape? rest with
        | some (c, n) => push c 1 (scanLongQuoted n rest)
        | none =>
          match foldedCount? rest with
          | some n => pass 1 (scanLongQuoted n rest)
          | none => none
      else if isPlain c || c = '\n' || (c = '\r' && rest.head? = some '\n') then
        push c 1 (scanLongQuoted 0 rest)
      else none

/-- A line end right behind three opening quotes is no content. -/
def firstLineEnd : List Char → Nat
  | '\n' :: _ => 1
  | '\r' :: '\n' :: _ => 2
  | _ => 0

/-- A string between three quotes, by the scanner for its content. -/
def scanLong (scanner : List Char → Option (List Char × Nat)) (cs : List Char) :
    TomlToken × Nat :=
  let lead := firstLineEnd cs
  match scanner (cs.drop lead) with
  | some (content, n) => (.longText (String.ofList content), 2 + lead + n)
  | none => (.bad, 0)

/-- A string on one line, by the scanner for its content. -/
def scanShort (scanner : List Char → Option (List Char × Nat)) (cs : List Char) :
    TomlToken × Nat :=
  match scanner cs with
  | some (content, n) => (.text (String.ofList content), n)
  | none => (.bad, 0)

/-! ### The whole text -/

/-- A comment behind its sign. -/
def scanComment (cs : List Char) : TomlToken × Nat :=
  let comment := cs.takeWhile fun c => c ≠ '\n' && c ≠ '\r'
  if comment.all isPlain then (.blank, comment.length) else (.bad, 0)

/-- The token that begins with `c`, and how many of the following characters belong to it. -/
def scan (c : Char) (cs : List Char) : TomlToken × Nat :=
  match c with
  | '.' => (.dot, 0)
  | '=' => (.equals, 0)
  | ',' => (.comma, 0)
  | '[' => (.bracketOpen, 0)
  | ']' => (.bracketClose, 0)
  | '{' => (.braceOpen, 0)
  | '}' => (.braceClose, 0)
  | ' ' => (.space, 0)
  | '\t' => (.blank, 0)
  | '#' => scanComment cs
  | '\n' => (.lineEnd, 0)
  | '\r' => if cs.head? = some '\n' then (.lineEnd, 1) else (.bad, 0)
  | '\'' =>
    match cs with
    | '\'' :: '\'' :: rest => scanLong scanLongLiteral rest
    | _ => scanShort scanLiteral cs
  | '"' =>
    match cs with
    | '"' :: '"' :: rest => scanLong (scanLongQuoted 0) rest
    | _ => scanShort (scanQuoted 0) cs
  | c =>
    let rest := cs.takeWhile (!endsWord ·)
    (.word (c :: rest), rest.length)

/-- The tokens of a text of which the first `skip` characters belong to the token before. -/
def tokensFrom : Nat → List Char → List TomlToken
  | _, [] => []
  | skip + 1, _ :: cs => tokensFrom skip cs
  | 0, c :: cs => (scan c cs).1 :: tokensFrom (scan c cs).2 cs

/-- The tokens of a text. A byte order mark at the start is none. -/
def tokens (cs : List Char) : List TomlToken :=
  match cs with
  | '\uFEFF' :: rest => tokensFrom 0 rest
  | cs => tokensFrom 0 cs

end TomlToken

end PackageRelease
