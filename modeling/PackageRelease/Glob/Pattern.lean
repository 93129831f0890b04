import PackageRelease.Text.Basic

/-! # Glob patterns

  A pattern is a sequence of tokens. `?` stands for one character, `*` for any number of them,
  `[...]` and `[!...]` for one character inside or outside a set, and `**` as a whole component
  for any number of directories. A dot in front of a name is matched like any other character.
-/

namespace PackageRelease.Glob

/-! ### Tokens -/

/-- A member of a character set. -/
inductive CharRange where
  /-- One character. -/
  | single (c : Char)
  /-- All characters from the first to the last one. -/
  | range (first last : Char)
  deriving DecidableEq, Repr

/-- A token of a pattern. -/
inductive Token where
  /-- The character itself. -/
  | char (c : Char)
  /-- Any one character. -/
  | anyChar
  /-- Any characters. -/
  | anySequence
  /-- Any directories. -/
  | anyDirectories
  /-- One character of a set. -/
  | within (set : List CharRange)
  /-- One character that is not in a set. -/
  | except (set : List CharRange)
  deriving DecidableEq, Repr

/-- A pattern. -/
abbrev Pattern := List Token

/-! ### Faults -/

/-- Why a text is not a pattern. -/
inductive Cause where
  /-- More than two stars in a row. -/
  | tooManyStars
  /-- Two stars beside something else than a slash. -/
  | misplacedDirectories
  /-- A bracket without its partner. -/
  | invalidRange
  deriving DecidableEq, Repr

/-- A cause and the number of characters in front of it. -/
structure Fault where
  /-- How many characters stand in front of the fault. -/
  position : Nat
  /-- What is wrong. -/
  cause : Cause
  deriving DecidableEq, Repr

/-- The wording of a cause. -/
def Cause.message : Cause → String
  | .tooManyStars => "wildcards are either regular `*` or recursive `**`"
  | .misplacedDirectories => "recursive wildcards must form a single path component"
  | .invalidRange => "invalid range pattern"

/-- The wording of a fault. -/
def Fault.message (fault : Fault) : String :=
  "Pattern syntax error near position " ++ Text.decimal fault.position ++ ": " ++
    fault.cause.message

/-! ### Reading a pattern -/

/-- The members of a set: a hyphen between two characters makes a range. -/
def charRanges : List Char → List CharRange
  | a :: '-' :: b :: rest => .range a b :: charRanges rest
  | a :: rest => .single a :: charRanges rest
  | [] => []

/-- The set behind an opening bracket and how many characters it takes with its closing bracket.
    The first member may itself be a closing bracket. -/
def bracket? (cs : List Char) : Option (Token × Nat) :=
  match cs with
  | '!' :: c :: more =>
    if more.contains ']' then
      let members := more.takeWhile (· ≠ ']')
      some (.except (charRanges (c :: members)), members.length + 3)
    else none
  | '!' :: [] => none
  | c :: more =>
    if more.contains ']' then
      let members := more.takeWhile (· ≠ ']')
      some (.within (charRanges (c :: members)), members.length + 2)
    else none
  | [] => none

/-- Reads tokens behind `previous`, skipping characters that a token before has taken. -/
def readTokens (position : Nat) (previous : Option Char) :
    Nat → List Char → Except Fault Pattern
  | _, [] => .ok []
  | skip + 1, c :: cs => readTokens (position + 1) (some c) skip cs
  | 0, '?' :: cs => do return .anyChar :: (← readTokens (position + 1) (some '?') 0 cs)
  | 0, '*' :: cs =>
    match cs with
    | '*' :: '*' :: _ => .error ⟨position + 2, .tooManyStars⟩
    | '*' :: rest =>
      if previous.isSome ∧ previous ≠ some '/' then
        .error ⟨position - 1, .misplacedDirectories⟩
      else match rest with
        | [] => .ok [.anyDirectories]
        | '/' :: _ => do
          return .anyDirectories :: (← readTokens (position + 1) (some '*') 2 cs)
        | _ => .error ⟨position + 2, .misplacedDirectories⟩
    | _ => do return .anySequence :: (← readTokens (position + 1) (some '*') 0 cs)
  | 0, '[' :: cs =>
    match bracket? cs with
    | some (token, taken) => do
      return token :: (← readTokens (position + 1) (some '[') taken cs)
    | none => .error ⟨position, .invalidRange⟩
  | 0, c :: cs => do return .char c :: (← readTokens (position + 1) (some c) 0 cs)

/-- The pattern that a text denotes. -/
def Pattern.parse (cs : List Char) : Except Fault Pattern := readTokens 0 none 0 cs

/-! ### Matching -/

/-- Whether a character belongs to a set. -/
def inRanges (set : List CharRange) (c : Char) : Bool :=
  set.any fun
    | .single d => c = d
    | .range first last => first ≤ c && c ≤ last

/-- Whether some end of a name is accepted. -/
def acceptsEnd (accepts : List Char → Bool) : List Char → Bool
  | [] => accepts []
  | c :: cs => accepts (c :: cs) || acceptsEnd accepts cs

/-- Whether a pattern stands for a name. -/
def Pattern.accepts : Pattern → List Char → Bool
  | [], cs => cs.isEmpty
  | .anySequence :: rest, cs => acceptsEnd (Pattern.accepts rest) cs
  | .anyDirectories :: rest, cs => acceptsEnd (Pattern.accepts rest) cs
  | .char d :: rest, c :: cs => c = d && Pattern.accepts rest cs
  | .anyChar :: rest, _ :: cs => Pattern.accepts rest cs
  | .within set :: rest, c :: cs => inRanges set c && Pattern.accepts rest cs
  | .except set :: rest, c :: cs => !inRanges set c && Pattern.accepts rest cs
  | _ :: _, [] => false

/-- The text of a pattern that stands for one name only. -/
def Pattern.literal? : Pattern → Option (List Char)
  | [] => some []
  | .char c :: rest => (Pattern.literal? rest).map (c :: ·)
  | _ :: _ => none

/-- Whether a component stands for any number of directories. -/
def Pattern.isRecursive (p : Pattern) : Bool := p.contains .anyDirectories

/-- Whether the first character has to be a dot. -/
def Pattern.startsWithDot (p : Pattern) : Bool := p.head? = some (.char '.')

/-! ### Writing a literal -/

/-- A text in which no character has a special meaning. -/
def escape (s : String) : String :=
  String.ofList <| s.toList.flatMap fun c =>
    if c = '?' ∨ c = '*' ∨ c = '[' ∨ c = ']' then ['[', c, ']'] else [c]

/-- Whether a text holds a character that starts a wildcard. -/
def hasWildcard (s : String) : Bool := s.toList.any fun c => c = '*' || c = '?' || c = '['

end PackageRelease.Glob
