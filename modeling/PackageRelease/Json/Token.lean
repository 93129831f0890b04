import PackageRelease.Text.Utf8
import PackageRelease.Json.Error
import PackageRelease.Json.Number

/-! # JSON tokens

  A text is cut into tokens from the left. A fault inside a string, a literal or a number becomes
  a token of its own, because it is only reported where the reader reaches it as a value or a key:
  where a comma is due, any other token is the fault.

  `tokens` walks over the characters once; a token that took `n` further characters lets the walk
  skip them.
-/

namespace PackageRelease

/-- A lexical unit of a JSON text. -/
inductive JsonToken where
  /-- `[` opens an array. -/
  | arrayOpen
  /-- `]` closes an array. -/
  | arrayClose
  /-- `\x7b` opens an object. -/
  | objectOpen
  /-- `\x7d` closes an object. -/
  | objectClose
  /-- `,` separates items and fields. -/
  | comma
  /-- `:` separates a key from its value. -/
  | colon
  /-- A literal or a number. -/
  | scalar (value : Json)
  /-- A string. -/
  | text (value : String)
  /-- Something that begins like a string and is none. -/
  | badText (fault : JsonError)
  /-- Something else that is no token. -/
  | bad (fault : JsonError)
  deriving DecidableEq, Repr

namespace JsonToken

open Text (isDigit hexValue? utf8Length)

/-! ### Literals -/

/-- Compares what follows with the rest of a literal. -/
def literalFault? : List Char → List Char → Option JsonError
  | [], _ => none
  | _ :: _, [] => some .endInValue
  | e :: es, c :: cs => if e = c then literalFault? es cs else some .literalExpected

/-- A literal with the given remaining letters. -/
def scanLiteral (rest : List Char) (value : Json) (cs : List Char) : JsonToken × Nat :=
  match literalFault? rest cs with
  | none => (.scalar value, rest.length)
  | some fault => (.bad fault, 0)

/-! ### Strings -/

/-- The character that a one-letter escape stands for. -/
def shortEscape? : Char → Option Char
  | '"' => some '"'
  | '\\' => some '\\'
  | '/' => some '/'
  | 'b' => some '\x08'
  | 'f' => some '\x0c'
  | 'n' => some '\n'
  | 'r' => some '\r'
  | 't' => some '\t'
  | _ => none

/-- The number that four hexadecimal digits denote. -/
def hexUnit? (a b c d : Char) : Option Nat := do
  let a ← hexValue? a
  let b ← hexValue? b
  let c ← hexValue? c
  let d ← hexValue? d
  return ((a * 16 + b) * 16 + c) * 16 + d

/-- Fewer than four characters follow `\u`: the text ends too early unless they fill four octets. -/
def shortHexFault (cs : List Char) : JsonError :=
  if 4 ≤ utf8Length cs then .invalidEscape else .endInString

/-- Puts a character that took `n` characters of text in front of what was read. -/
def pushChar (c : Char) (n : Nat) :
    Except JsonError (List Char × Nat) → Except JsonError (List Char × Nat)
  | .ok (cs, k) => .ok (c :: cs, n + k)
  | .error fault => .error fault

/-- The code point of a surrogate pair. -/
def surrogatePair (high low : Nat) : Char :=
  Char.ofNat ((high - 0xD800) * 0x400 + (low - 0xDC00) + 0x10000)

/-- Reads a string behind its opening quote. Returns its characters and how many characters of
    text they took, the closing quote included. -/
def scanText : List Char → Except JsonError (List Char × Nat)
  | [] => .error .endInString
  | '"' :: _ => .ok ([], 1)
  | '\\' :: 'u' :: a :: b :: c :: d :: rest =>
    match hexUnit? a b c d with
    | none => .error .invalidEscape
    | some unit =>
      if 0xDC00 ≤ unit ∧ unit ≤ 0xDFFF then .error .loneSurrogate
      else if 0xD800 ≤ unit ∧ unit ≤ 0xDBFF then
        match rest with
        | '\\' :: 'u' :: e :: f :: g :: h :: rest' =>
          match hexUnit? e f g h with
          | none => .error .invalidEscape
          | some low =>
            if 0xDC00 ≤ low ∧ low ≤ 0xDFFF then
              pushChar (surrogatePair unit low) 12 (scanText rest')
            else .error .loneSurrogate
        | '\\' :: 'u' :: short => .error (shortHexFault short)
        | [] => .error .endInString
        | ['\\'] => .error .endInString
        | _ => .error .unfinishedSurrogate
      else pushChar (Char.ofNat unit) 6 (scanText rest)
  | '\\' :: 'u' :: short => .error (shortHexFault short)
  | '\\' :: [] => .error .endInString
  | '\\' :: e :: rest =>
    match shortEscape? e with
    | some c => pushChar c 2 (scanText rest)
    | none => .error .invalidEscape
  | c :: rest =>
    if c.toNat < 0x20 then .error .controlCharacter else pushChar c 1 (scanText rest)

/-! ### Numbers -/

/-- The digits at the front and what follows them. -/
def digitRun (cs : List Char) : List Char × List Char :=
  (cs.takeWhile isDigit, cs.dropWhile isDigit)

/-- A missing digit is the end of the text or a fault in the number. -/
def missingDigit : List Char → JsonError
  | [] => .endInValue
  | _ :: _ => .invalidNumber

/-- Reads the exponent of a number, if one follows. -/
def scanExponent (cs : List Char) :
    Except JsonError (Option (Bool × List Char) × List Char) :=
  match cs with
  | c :: rest =>
    if c = 'e' ∨ c = 'E' then
      let (negative, rest) := match rest with
        | '+' :: r => (false, r)
        | '-' :: r => (true, r)
        | r => (false, r)
      match digitRun rest with
      | ([], after) => .error (missingDigit after)
      | (digits, after) => .ok (some (negative, digits), after)
    else .ok (none, cs)
  | [] => .ok (none, [])

/-- Reads the digits behind a point, if one follows. -/
def scanFraction (cs : List Char) : Except JsonError (Option (List Char) × List Char) :=
  match cs with
  | '.' :: rest =>
    match digitRun rest with
    | ([], after) => .error (missingDigit after)
    | (digits, after) => .ok (some digits, after)
  | _ => .ok (none, cs)

/-- Reads the digits in front of the point: no zero stands in front of another digit. -/
def scanWhole (cs : List Char) : Except JsonError (List Char × List Char) :=
  match digitRun cs with
  | ([], after) => .error (missingDigit after)
  | ('0' :: _ :: _, _) => .error .invalidNumber
  | (digits, after) => .ok (digits, after)

/-- Reads an unsigned number and returns its parts and what follows it. -/
def scanUnsigned (negative : Bool) (cs : List Char) :
    Except JsonError (JsonNumber.Literal × List Char) := do
  let (whole, rest) ← scanWhole cs
  let (fraction, rest) ← scanFraction rest
  let (exponent, rest) ← scanExponent rest
  return (⟨negative, whole, fraction, exponent⟩, rest)

/-- A number that begins with the character `c`. -/
def scanNumber (c : Char) (cs : List Char) : JsonToken × Nat :=
  let scanned := if c = '-' then scanUnsigned true cs else scanUnsigned false (c :: cs)
  match scanned with
  | .error fault => (.bad fault, 0)
  | .ok (literal, rest) =>
    match JsonNumber.ofLiteral? literal with
    | some n => (.scalar (.number n), cs.length - rest.length)
    | none => (.bad .numberOutOfRange, 0)

/-! ### The whole text -/

/-- Whether a character separates tokens and is none. -/
def isSpace (c : Char) : Bool := c = ' ' || c = '\t' || c = '\n' || c = '\r'

/-- The token that begins with `c`, and how many of the following characters belong to it. -/
def scan (c : Char) (cs : List Char) : JsonToken × Nat :=
  match c with
  | '[' => (.arrayOpen, 0)
  | ']' => (.arrayClose, 0)
  | '{' => (.objectOpen, 0)
  | '}' => (.objectClose, 0)
  | ',' => (.comma, 0)
  | ':' => (.colon, 0)
  | 'n' => scanLiteral ['u', 'l', 'l'] .null cs
  | 't' => scanLiteral ['r', 'u', 'e'] (.bool true) cs
  | 'f' => scanLiteral ['a', 'l', 's', 'e'] (.bool false) cs
  | '"' =>
    match scanText cs with
    | .ok (chars, n) => (.text (String.ofList chars), n)
    | .error fault => (.badText fault, 0)
  | c => if c = '-' || isDigit c then scanNumber c cs else (.bad .valueExpected, 0)

/-- The tokens of a text of which the first `skip` characters belong to the token before. -/
def tokensFrom : Nat → List Char → List JsonToken
  | _, [] => []
  | skip + 1, _ :: cs => tokensFrom skip cs
  | 0, c :: cs =>
    if isSpace c then tokensFrom 0 cs
    else (scan c cs).1 :: tokensFrom (scan c cs).2 cs

/-- The tokens of a text. -/
def tokens (cs : List Char) : List JsonToken := tokensFrom 0 cs

theorem tokensFrom_append (lead cs : List Char) :
    tokensFrom lead.length (lead ++ cs) = tokens cs := by
  induction lead with
  | nil => rfl
  | cons c lead ih => simpa [tokensFrom] using ih

end JsonToken

end PackageRelease
