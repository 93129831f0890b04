import PackageRelease.Number.Word
import PackageRelease.Text.Quoted

/-! # Semantic versions

  `Version.parse` reads a version from the left and reports the first fault. Two versions are equal
  when all their parts are, the build metadata included.
-/

namespace PackageRelease

/-- A semantic version. -/
structure Version where
  /-- The first number. -/
  major : Nat
  /-- The second number. -/
  minor : Nat
  /-- The third number. -/
  patch : Nat
  /-- The identifiers behind a hyphen, empty without one. -/
  preRelease : String
  /-- The identifiers behind a plus sign, empty without one. -/
  build : String
  deriving DecidableEq, Repr

namespace Version

/-! ### Faults -/

/-- The part of a version that a fault concerns. -/
inductive Part where
  | major
  | minor
  | patch
  | preRelease
  | build
  deriving DecidableEq, Repr

/-- The name of a part in messages. -/
def Part.name : Part → String
  | .major => "major version number"
  | .minor => "minor version number"
  | .patch => "patch version number"
  | .preRelease => "pre-release identifier"
  | .build => "build metadata"

/-- Why a text is not a version. -/
inductive Fault where
  /-- There is no character. -/
  | empty
  /-- The text ends where a part is due. -/
  | unexpectedEnd (part : Part)
  /-- A character cannot begin the part. -/
  | unexpectedChar (part : Part) (c : Char)
  /-- A character cannot follow the part. -/
  | unexpectedCharAfter (part : Part) (c : Char)
  /-- A number has a zero in front. -/
  | leadingZero (part : Part)
  /-- A number does not fit in 64 bits. -/
  | overflow (part : Part)
  /-- An identifier between two dots is empty. -/
  | emptySegment (part : Part)
  deriving DecidableEq, Repr

/-- The wording of each fault. -/
def Fault.message : Fault → String
  | .empty => "empty string, expected a semver version"
  | .unexpectedEnd part => "unexpected end of input while parsing " ++ part.name
  | .unexpectedChar part c =>
    "unexpected character " ++ Text.quotedOne c ++ " while parsing " ++ part.name
  | .unexpectedCharAfter part c =>
    "unexpected character " ++ Text.quotedOne c ++ " after " ++ part.name
  | .leadingZero part => "invalid leading zero in " ++ part.name
  | .overflow part => "value of " ++ part.name ++ " exceeds u64::MAX"
  | .emptySegment part => "empty identifier segment in " ++ part.name

/-! ### Reading -/

open Text (isDigit isLetter digitValue)

/-- Reads digits behind those that make `value`; `any` tells whether there were some. -/
def readDigits (part : Part) (value : Nat) (any : Bool) :
    List Char → Except Fault (Nat × List Char)
  | [] => if any then .ok (value, []) else .error (.unexpectedEnd part)
  | c :: cs =>
    if isDigit c then
      if value = 0 ∧ any then .error (.leadingZero part)
      else
        let next := 10 * value + digitValue c
        if Word.count 64 ≤ next then .error (.overflow part) else readDigits part next true cs
    else if any then .ok (value, c :: cs)
    else .error (.unexpectedChar part c)

/-- Reads a number. -/
def readNumber (part : Part) (cs : List Char) : Except Fault (Nat × List Char) :=
  readDigits part 0 false cs

/-- Reads the dot behind a number. -/
def readDot (part : Part) : List Char → Except Fault (List Char)
  | '.' :: cs => .ok cs
  | c :: _ => .error (.unexpectedCharAfter part c)
  | [] => .error (.unexpectedEnd part)

/-- Whether a character may stand in an identifier. -/
def isIdentifierChar (c : Char) : Bool := isLetter c || c = '-' || isDigit c

/-- What is wrong with one identifier. A number in front of the build metadata has no zero in
    front. -/
def segmentFault? (part : Part) (segment : List Char) : Option Fault :=
  if segment.isEmpty then some (.emptySegment part)
  else if part = .preRelease ∧ segment.all isDigit ∧ 1 < segment.length ∧
      segment.head? = some '0' then some (.leadingZero part)
  else none

/-- Reads identifiers separated by dots. -/
def readIdentifiers (part : Part) (cs : List Char) : Except Fault (String × List Char) :=
  let run := cs.takeWhile fun c => isIdentifierChar c || c = '.'
  let rest := cs.dropWhile fun c => isIdentifierChar c || c = '.'
  match (Text.splitWhere (· == '.') run).findSome? (segmentFault? part) with
  | some fault => .error fault
  | none => .ok (String.ofList run, rest)

/-- Reads a version. -/
def parse (text : String) : Except Fault Version := do
  let cs := text.toList
  if cs.isEmpty then throw .empty
  let (major, cs) ← readNumber .major cs
  let cs ← readDot .major cs
  let (minor, cs) ← readNumber .minor cs
  let cs ← readDot .minor cs
  let (patch, cs) ← readNumber .patch cs
  let (last, preRelease, cs) ← match cs with
    | '-' :: rest => do
      let (identifiers, rest) ← readIdentifiers .preRelease rest
      pure (Part.preRelease, identifiers, rest)
    | _ => pure (Part.patch, "", cs)
  let (last, build, cs) ← match cs with
    | '+' :: rest => do
      let (identifiers, rest) ← readIdentifiers .build rest
      pure (Part.build, identifiers, rest)
    | _ => pure (last, "", cs)
  match cs with
  | [] => return ⟨major, minor, patch, preRelease, build⟩
  | c :: _ => throw (.unexpectedCharAfter last c)

/-- The version that a text denotes, if it is one. -/
def parse? (text : String) : Option Version := (parse text).toOption

/-! ### Writing -/

/-- The text of a version. -/
def render (v : Version) : String :=
  Text.decimal v.major ++ "." ++ Text.decimal v.minor ++ "." ++ Text.decimal v.patch ++
    (if v.preRelease.isEmpty then "" else "-" ++ v.preRelease) ++
    (if v.build.isEmpty then "" else "+" ++ v.build)

end Version

end PackageRelease
