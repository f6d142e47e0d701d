/-!
# Binary floats

Bit patterns of the binary interchange formats: what number one stands for, the pattern of the
same number in a wider format, and the pattern nearest to a natural number.
-/

namespace Cbor

def twoPow (exponent : Nat) : Nat := Nat.pow 2 exponent

structure FloatFormat where
  exponentBits : Nat
  fractionBits : Nat
  deriving DecidableEq, Repr

namespace FloatFormat

def half : FloatFormat := ⟨5, 10⟩

def single : FloatFormat := ⟨8, 23⟩

def double : FloatFormat := ⟨11, 52⟩

def topExponent (format : FloatFormat) : Nat := twoPow format.exponentBits - 1

def bias (format : FloatFormat) : Nat := twoPow (format.exponentBits - 1) - 1

def assemble (format : FloatFormat) (sign exponent fraction : Nat) : Nat :=
  (sign * twoPow format.exponentBits + exponent) * twoPow format.fractionBits + fraction

/--
The pattern of the same number in a wider format.  A subnormal number is shifted until its
leading one is the implicit bit; the payload of a NaN keeps its place at the top of the fraction,
so different NaNs stay different.
-/
def widen (narrow wide : FloatFormat) (bits : Nat) : Nat :=
  let fraction := bits % twoPow narrow.fractionBits
  let exponent := bits / twoPow narrow.fractionBits % twoPow narrow.exponentBits
  let sign := bits / twoPow narrow.fractionBits / twoPow narrow.exponentBits % 2
  let shift := wide.fractionBits - narrow.fractionBits
  let rebias := wide.bias - narrow.bias
  if exponent = narrow.topExponent then
    wide.assemble sign wide.topExponent (fraction * twoPow shift)
  else if exponent ≠ 0 then
    wide.assemble sign (exponent + rebias) (fraction * twoPow shift)
  else if fraction = 0 then wide.assemble sign 0 0
  else
    let lead := fraction.log2
    wide.assemble sign (rebias + 1 + lead - narrow.fractionBits)
      ((fraction - twoPow lead) * twoPow (wide.fractionBits - lead))

/-- The pattern of the float nearest to a natural number, of two equally near ones the even one.
A fraction that is rounded up beyond its field carries into the exponent. -/
def ofNat (format : FloatFormat) (number : Nat) : Nat :=
  if number = 0 then 0
  else
    let lead := number.log2
    let exponent := lead + format.bias
    if lead ≤ format.fractionBits then
      format.assemble 0 exponent ((number - twoPow lead) * twoPow (format.fractionBits - lead))
    else
      let step := twoPow (lead - format.fractionBits)
      let below := number / step
      let remainder := number % step
      let up := step < 2 * remainder ∨ (step = 2 * remainder ∧ below % 2 = 1)
      format.assemble 0 exponent (below - twoPow format.fractionBits + if up then 1 else 0)

def negated (format : FloatFormat) (bits : Nat) : Nat :=
  twoPow (format.exponentBits + format.fractionBits) + bits

end FloatFormat

structure Magnitude where
  mantissa : Nat
  exponent : Int
  /-- The number is a power of two where the spacing of the floats below is half that above. -/
  atBoundary : Bool
  deriving DecidableEq, Repr

inductive FloatValue where
  | nan
  | infinite (negative : Bool)
  | zero (negative : Bool)
  | finite (negative : Bool) (magnitude : Magnitude)
  deriving DecidableEq, Repr

namespace FloatValue

def ofBits (format : FloatFormat) (bits : Nat) : FloatValue :=
  let fractionSize := twoPow format.fractionBits
  let fraction := bits % fractionSize
  let exponent := bits / fractionSize % twoPow format.exponentBits
  let negative := bits / fractionSize / twoPow format.exponentBits % 2 == 1
  -- the exponent of the last place of subnormal numbers
  let least : Int := 1 - (format.bias : Int) - format.fractionBits
  if exponent = format.topExponent then
    if fraction = 0 then .infinite negative else .nan
  else if exponent = 0 then
    if fraction = 0 then .zero negative else .finite negative ⟨fraction, least, false⟩
  else
    .finite negative
      ⟨fractionSize + fraction, least + (exponent - 1 : Nat), fraction == 0 && exponent != 1⟩

end FloatValue

end Cbor
