import Cbor.Decimal.Shortest
import Cbor.Text

/-!
# Written floats

How the shortest decimal of a float is laid out.  A decimal whose first digit stands at an
exponent of a given range is written positionally, with a point and at least one digit on either
side of it; every other one has one digit before the point and an exponent.
-/

namespace Cbor.Decimal

structure Layout where
  tie : Tie
  /-- The least exponent of the first digit that is written positionally. -/
  plainFrom : Int
  /-- The least exponent above `plainFrom` that is not. -/
  plainBelow : Int
  plusSign : Bool
  deriving DecidableEq, Repr

namespace Layout

def positional (digits : Text) (exponent : Int) : Text :=
  let width : Int := digits.length
  if 0 ≤ exponent then digits ++ List.replicate exponent.toNat '0' ++ ['.', '0']
  else if width + exponent ≤ 0 then
    ['0', '.'] ++ List.replicate (-(width + exponent)).toNat '0' ++ digits
  else
    let whole := (width + exponent).toNat
    digits.take whole ++ ['.'] ++ digits.drop whole

def scientific (layout : Layout) (digits : Text) (leading : Int) : Text :=
  let fraction := digits.drop 1
  digits.take 1 ++ (if fraction.isEmpty then [] else '.' :: fraction) ++ ['e'] ++
    (if layout.plusSign ∧ 0 ≤ leading then ['+'] else []) ++ Text.ofInt leading

def decimal (layout : Layout) (x : Shortest) : Text :=
  let digits := Text.ofNat x.digits
  let leading := x.exponent + digits.length - 1
  if layout.plainFrom ≤ leading ∧ leading < layout.plainBelow then positional digits x.exponent
  else layout.scientific digits leading

def finite? (layout : Layout) : FloatValue → Option Text
  | .nan | .infinite _ => none
  | .zero negative => some (sign negative ++ "0.0".toList)
  | .finite negative x => some (sign negative ++ layout.decimal (shortest layout.tie x))
where
  sign (negative : Bool) : Text := if negative then ['-'] else []

end Layout

end Cbor.Decimal
