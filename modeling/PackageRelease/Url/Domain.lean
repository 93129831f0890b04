import PackageRelease.Text.Utf8
import PackageRelease.Url.DomainCharacter
import PackageRelease.Url.Fault
import PackageRelease.Url.Punycode

/-! # Domain names

  A domain name is brought into the one form that is looked up: small letters, accents joined to
  their letters, and every label with a character beyond ASCII in its written form behind `xn--`.
-/

namespace PackageRelease.Domain

open DomainCharacter (Direction direction)

/-- What stands in front of the written form of a label. -/
def mark : List Char := ['x', 'n', '-', '-']

/-- The ASCII characters that no domain name holds. -/
def isForbidden (c : Char) : Bool :=
  c.toNat ≤ 0x20 || c.toNat = 0x7F ||
    ['%', '#', '/', ':', '<', '>', '?', '@', '[', '\\', ']', '^', '|'].contains c

/-- Whether each joiner stands behind a sign that allows it. -/
def joinersAllowed : Option Char → List Char → Bool
  | _, [] => true
  | before?, c :: cs =>
    (!(c.toNat = 0x200C || c.toNat = 0x200D) || before?.any DomainCharacter.isVirama) &&
      joinersAllowed (some c) cs

/-- Whether a label of characters beyond ASCII is in its one form. -/
def isValidLabel (label : List Char) : Bool :=
  label.all DomainCharacter.isValid && label.all (fun c => !isForbidden c) &&
    DomainCharacter.composeAll label = label && !label.head?.any DomainCharacter.isMark &&
    joinersAllowed none label

/-- Whether a label keeps to one direction. -/
def hasOneDirection (label : List Char) : Bool :=
  let directions := label.map direction
  match directions with
  | [] => true
  | .right :: _ =>
    directions.all (· ≠ .left) &&
      !(directions.contains .digit && directions.contains .arabicDigit) &&
      [some .right, some .digit, some .arabicDigit].contains
        (directions.reverse.dropWhile (· = .mark)).head?
  | .left :: _ =>
    directions.all (fun d => d ≠ .right && d ≠ .arabicDigit) &&
      [some .left, some .digit].contains (directions.reverse.dropWhile (· = .mark)).head?
  | _ => false

/-- The characters that a label stands for. -/
def expand? (label : List Char) : Option (List Char) :=
  match Text.after? mark label with
  | some written => do
    let decoded ← Punycode.decode? written
    guard (decoded.any (0x80 ≤ ·.toNat) && isValidLabel decoded)
    return decoded
  | none =>
    if label.all (·.toNat < 0x80) then
      if label.any isForbidden then none else some label
    else if isValidLabel label then some label else none

/-- The ASCII form of a label. -/
def fold (label : List Char) : List Char :=
  if label.all (·.toNat < 0x80) then label else mark ++ Punycode.encode label

/-- The form in which a domain name is looked up. -/
def toAscii (name : Bytes) : Except UrlFault (List Char) :=
  let form? : Option (List Char) := do
    let text ← Text.decode? name
    let mapped ← text.toList.mapM DomainCharacter.map?
    let labels := Text.splitWhere (· == '.') (DomainCharacter.composeAll mapped.flatten)
    let expanded ← labels.mapM expand?
    let rightToLeft := expanded.any fun label =>
      label.any fun c => direction c = .right || direction c = .arabicDigit
    guard (!rightToLeft || expanded.all hasOneDirection)
    return (expanded.map fold).intersperse ['.'] |>.flatten
  match form? with
  | some form => .ok form
  | none => .error .invalidDomain

end PackageRelease.Domain
