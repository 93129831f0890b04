import PackageRelease.Text.Basic

/-! # Punycode

  A label of a domain name with characters beyond ASCII is written in letters, digits and hyphens:
  first its ASCII characters, then where the others go. Those are taken in ascending order; a number
  of variable length tells how many (character, place) pairs lie between one and the next. The
  thresholds between digits adapt to the numbers seen so far.
-/

namespace PackageRelease.Punycode

/-! ### Digits -/

/-- The digit of a value below 36. -/
def digit (n : Nat) : Char := if n < 26 then Char.ofNat (97 + n) else Char.ofNat (22 + n)

/-- The value of a digit. -/
def value? (c : Char) : Option Nat :=
  if 'a' ≤ c && c ≤ 'z' then some (c.toNat - 97)
  else if 'A' ≤ c && c ≤ 'Z' then some (c.toNat - 65)
  else if Text.isDigit c then some (Text.digitValue c + 26)
  else none

/-- The threshold of the digit at `place`, which goes up by 36 a digit. -/
def threshold (bias place : Nat) : Nat := max 1 (min 26 (place - bias))

theorem one_le_threshold (bias place : Nat) : 1 ≤ threshold bias place := by
  unfold threshold; omega

theorem threshold_le (bias place : Nat) : threshold bias place ≤ 26 := by
  unfold threshold; omega

/-- Divides until at most 455 is left and counts 36 for each division. -/
def shrink (delta count : Nat) : Nat × Nat :=
  if 455 < delta then shrink (delta / 35) (count + 36) else (delta, count)
termination_by delta
decreasing_by exact Nat.div_lt_self (by omega) (by omega)

/-- The bias after a number, with how many characters there are now. -/
def adapt (delta characters : Nat) (isFirst : Bool) : Nat :=
  let delta := if isFirst then delta / 700 else delta / 2
  let (delta, count) := shrink (delta + delta / characters) 0
  count + 36 * delta / (delta + 38)

/-! ### Encoding -/

/-- A number in digits of falling weight. -/
def encodeNumber (bias place n : Nat) : List Char :=
  let t := threshold bias place
  if n < t then [digit n]
  else digit (t + (n - t) % (36 - t)) :: encodeNumber bias (place + 36) ((n - t) / (36 - t))
termination_by n
decreasing_by
  have := one_le_threshold bias place
  exact Nat.lt_of_le_of_lt (Nat.div_le_self _ _) (by omega)

/-- What an encoding has come to. -/
structure Progress where
  /-- The digits so far. -/
  output : List Char
  /-- The pairs passed since the last number. -/
  delta : Nat
  /-- The bias of the next number. -/
  bias : Nat
  /-- How many characters have been placed. -/
  placed : Nat
  deriving DecidableEq, Repr

/-- Passes one character of the label while `current` is being placed. -/
def Progress.pass (basic current : Nat) (p : Progress) (c : Char) : Progress :=
  if c.toNat < current then { p with delta := p.delta + 1 }
  else if c.toNat = current then
    { output := p.output ++ encodeNumber p.bias 36 p.delta
      delta := 0
      bias := adapt p.delta (p.placed + 1) (p.placed = basic)
      placed := p.placed + 1 }
  else p

/-- Places the code points, given in ascending order. `next` is the least one not passed yet. -/
def placeAll (label : List Char) (basic : Nat) : (next : Nat) → List Nat → Progress → Progress
  | _, [], p => p
  | next, current :: rest, p =>
    let p := { p with delta := p.delta + (current - next) * (p.placed + 1) }
    let p := label.foldl (Progress.pass basic current) p
    placeAll label basic (current + 1) rest { p with delta := p.delta + 1 }

/-- Puts a number into an ascending list without repetition. -/
def insertOnce (n : Nat) : List Nat → List Nat
  | [] => [n]
  | m :: rest => if n < m then n :: m :: rest else if n = m then m :: rest else m :: insertOnce n rest

/-- The written form of a label, without the mark in front of it. -/
def encode (label : List Char) : List Char :=
  let basic := label.filter (·.toNat < 0x80)
  let others := (label.filter (0x80 ≤ ·.toNat)).foldr (fun c ns => insertOnce c.toNat ns) []
  let start : Progress :=
    { output := if basic.isEmpty then [] else basic ++ ['-']
      delta := 0, bias := 72, placed := basic.length }
  (placeAll label basic.length 0x80 others start).output

/-! ### Decoding -/

/-- Adds a number in digits to `total`. -/
def decodeNumber (bias : Nat) : (place weight total : Nat) → List Char → Option (Nat × List Char)
  | _, _, _, [] => none
  | place, weight, total, c :: rest => do
    let d ← value? c
    let t := threshold bias place
    if d < t then return (total + d * weight, rest)
    decodeNumber bias (place + 36) (weight * (36 - t)) (total + d * weight) rest

/-- Puts in one character after the other. -/
def insertAll : (fuel bias next index : Nat) → (output digits : List Char) → Option (List Char)
  | _, _, _, _, output, [] => some output
  | 0, _, _, _, _, _ => none
  | fuel + 1, bias, next, index, output, digits => do
    let (total, rest) ← decodeNumber bias 36 1 index digits
    let characters := output.length + 1
    let next := next + total / characters
    let place := total % characters
    guard (next.isValidChar)
    insertAll fuel (adapt (total - index) characters (index = 0)) next (place + 1)
      (output.take place ++ Char.ofNat next :: output.drop place) rest

/-- The label that a written form without its mark stands for. -/
def decode? (written : List Char) : Option (List Char) := do
  let digits := (written.reverse.takeWhile (· ≠ '-')).reverse
  let basic := written.take (written.length - digits.length - 1)
  guard (basic.all (·.toNat < 0x80))
  insertAll digits.length 72 0x80 0 basic digits

end PackageRelease.Punycode
