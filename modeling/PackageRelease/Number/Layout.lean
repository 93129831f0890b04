import PackageRelease.Number.Shortest
import PackageRelease.Text.Basic

/-! # Layout of decimals

  A double is written with its shortest digits. Where the point stands decides between two forms:
  inside the bounds of a layout all places are written out, with at least one digit behind the
  point; outside of them one digit stands in front of the point and an exponent follows.
-/

namespace PackageRelease

/-- Where a decimal is written positionally and where with an exponent. -/
structure DecimalLayout where
  /-- The least place of the point that is written positionally. -/
  leastPoint : Int
  /-- The greatest place of the point that is written positionally. -/
  greatestPoint : Int

namespace Decimal

/-- A decimal exponent always carries its sign. -/
def renderExponent (e : Int) : List Char :=
  'e' :: (if e < 0 then '-' else '+') :: (Text.decimal e.natAbs).toList

/-- A decimal with a point or an exponent. -/
def render (layout : DecimalLayout) (d : Decimal) : List Char :=
  let count : Int := d.digits.length
  if layout.leastPoint ≤ d.point ∧ d.point ≤ layout.greatestPoint then
    if d.point ≤ 0 then
      '0' :: '.' :: List.replicate (-d.point).toNat '0' ++ d.digits
    else if count ≤ d.point then
      d.digits ++ List.replicate (d.point - count).toNat '0' ++ ['.', '0']
    else
      d.digits.take d.point.toNat ++ '.' :: d.digits.drop d.point.toNat
  else
    match d.digits with
    | [] => ['0', '.', '0']
    | [c] => c :: renderExponent (d.point - 1)
    | c :: rest => c :: '.' :: rest ++ renderExponent (d.point - 1)

end Decimal

/-- The text of a double in a layout. Zero carries its sign. -/
def Binary64.render (layout : DecimalLayout) (x : Binary64) : List Char :=
  let sign := if x.negative then ['-'] else []
  if x.isZero then sign ++ ['0', '.', '0'] else sign ++ x.shortest.render layout

end PackageRelease
