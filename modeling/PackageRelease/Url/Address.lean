import PackageRelease.Text.Basic
import PackageRelease.Url.Fault

/-! # Numeric addresses

  An address of four octets is given by one to four numbers in octal, decimal or hexadecimal, of
  which the last one fills all octets that are left. An address of eight groups may leave out one
  run of zeros and may end in four octets; it is written with its longest run of at least two zero
  groups left out.
-/

namespace PackageRelease

/-! ### Four octets -/

namespace Ipv4

/-- A number in one of the three bases: nothing if it is not a number. -/
def number? (cs : List Char) : Option Nat :=
  match cs with
  | [] => none
  | '0' :: 'x' :: digits | '0' :: 'X' :: digits =>
    if digits.all fun c => (Text.hexValue? c).isSome then
      some (digits.foldl (fun n c => 16 * n + (Text.hexValue? c).getD 0) 0)
    else none
  | '0' :: c :: digits =>
    if (c :: digits).all fun d => '0' ≤ d && d ≤ '7' then
      some ((c :: digits).foldl (fun n d => 8 * n + Text.digitValue d) 0)
    else none
  | cs => if cs.all Text.isDigit then some (Text.digitsValue cs) else none

/-- The pieces between dots, without an empty one at the end. -/
def parts (host : List Char) : List (List Char) :=
  let pieces := Text.splitWhere (· == '.') host
  if pieces.getLast? = some [] then pieces.dropLast else pieces

/-- Whether the last piece of a host is a number, so that the host has to be an address. -/
def endsInNumber (host : List Char) : Bool :=
  match (parts host).getLast? with
  | some last => (!last.isEmpty && last.all Text.isDigit) || (number? last).isSome
  | none => false

/-- The address of up to three leading octets and a last number. -/
def combine (position : Nat) : List Nat → Option Nat
  | [] => none
  | [last] => if last < Nat.pow 256 (4 - position) then some last else none
  | n :: rest => do
    guard (n < 256)
    return n * Nat.pow 256 (3 - position) + (← combine (position + 1) rest)

/-- The address that a host denotes. -/
def parse? (host : List Char) : Option Nat := do
  let pieces := parts host
  guard (pieces.length ≤ 4)
  combine 0 (← pieces.mapM number?)

/-- The text of an address. -/
def render (address : Nat) : String :=
  Text.join "." ([3, 2, 1, 0].map fun k => Text.decimal (address / Nat.pow 256 k % 256))

end Ipv4

/-! ### Eight groups -/

namespace Ipv6

/-- What has been read: the groups, and how many of them stood in front of the gap. -/
structure Reading where
  /-- The groups from the left. -/
  groups : List Nat
  /-- The place of the gap. -/
  gap? : Option Nat
  deriving DecidableEq, Repr

/-- One group of one to four digits. -/
def group? (cs : List Char) : Option Nat := do
  guard (cs ≠ [] ∧ cs.length ≤ 4)
  let digits ← cs.mapM Text.hexValue?
  return digits.foldl (fun n d => 16 * n + d) 0

/-- One decimal octet without zeros in front. -/
def decimalOctet? (cs : List Char) : Option Nat := do
  guard (cs ≠ [] ∧ cs.all Text.isDigit ∧ (cs.head? ≠ some '0' ∨ cs.length = 1))
  guard (Text.digitsValue cs < 256)
  return Text.digitsValue cs

/-- The two groups that four decimal octets make. -/
def octetGroups? (cs : List Char) : Option (List Nat) := do
  match ← (Text.splitWhere (· == '.') cs).mapM decimalOctet? with
  | [a, b, c, d] => return [256 * a + b, 256 * c + d]
  | _ => none

/-- Reads the pieces between colons. `afterGap` tells whether the piece before was empty. -/
def readPieces (reading : Reading) (afterGap : Bool) : List (List Char) → Option Reading
  | [] => some reading
  | [[]] => if afterGap then some reading else none
  | [] :: rest =>
    if reading.gap?.isSome then none
    else readPieces { reading with gap? := some reading.groups.length } true rest
  | piece :: rest =>
    if rest.isEmpty ∧ piece.contains '.' then do
      return { reading with groups := reading.groups ++ (← octetGroups? piece) }
    else do
      readPieces { reading with groups := reading.groups ++ [← group? piece] } false rest

/-- The eight groups that a text denotes. -/
def parse? (cs : List Char) : Option (List Nat) := do
  let reading ← match Text.splitWhere (· == ':') cs with
    | [] :: [] :: piece :: rest => readPieces ⟨[], some 0⟩ true (piece :: rest)
    | [] :: _ => none
    | pieces => readPieces ⟨[], none⟩ false pieces
  match reading.gap? with
  | none => if reading.groups.length = 8 then some reading.groups else none
  | some place =>
    if reading.groups.length ≤ 7 then
      some (reading.groups.take place ++ List.replicate (8 - reading.groups.length) 0 ++
        reading.groups.drop place)
    else none

/-- The number of zero groups in front. -/
def zeros (groups : List Nat) : Nat := (groups.takeWhile (· = 0)).length

/-- The first place of the longest run of zeros, and its length. -/
def longestRun (position : Nat) : List Nat → Nat × Nat
  | [] => (position, 0)
  | g :: rest =>
    let here := zeros (g :: rest)
    let later := longestRun (position + 1) rest
    if later.2 ≤ here then (position, here) else later

/-- The text of eight groups, without brackets. -/
def render (groups : List Nat) : String :=
  let hex (gs : List Nat) := Text.join ":" (gs.map fun g => String.ofList (Nat.toDigits 16 g))
  let (place, length) := longestRun 0 groups
  if length < 2 then hex groups
  else hex (groups.take place) ++ "::" ++ hex (groups.drop (place + length))

end Ipv6

end PackageRelease
