import Cbor.Float.Binary

/-!
# Shortest decimals

The decimals that read back as a float are those in an interval around it, which reaches half
way to the floats on either side and holds its ends when the mantissa is even.  The shortest
decimal is the point nearest to the float on the coarsest decimal grid that has a point in the
interval.  All comparisons are exact.
-/

namespace Cbor.Decimal

inductive Tie where
  | up
  | even
  deriving DecidableEq, Repr

structure Shortest where
  digits : Nat
  exponent : Int
  deriving DecidableEq, Repr

/-- The ends and the centre of the interval, counted in quarters of the float's last place. -/
structure Interval where
  lower : Nat
  centre : Nat
  upper : Nat
  closed : Bool
  unit : Int
  deriving DecidableEq, Repr

namespace Interval

def ofMagnitude (x : Magnitude) : Interval where
  lower := 4 * x.mantissa - (if x.atBoundary then 1 else 2)
  centre := 4 * x.mantissa
  upper := 4 * x.mantissa + 2
  closed := x.mantissa % 2 = 0
  unit := x.exponent - 2

def scale (unit exponent : Int) : Nat × Nat :=
  (Nat.pow 2 unit.toNat * Nat.pow 10 (-exponent).toNat,
    Nat.pow 2 (-unit).toNat * Nat.pow 10 exponent.toNat)

/-- The point of the grid of step `10 ^ exponent` in the interval that is nearest to its centre. -/
def nearest? (interval : Interval) (tie : Tie) (exponent : Int) : Option Nat :=
  let (numerator, denominator) := scale interval.unit exponent
  let centre := interval.centre * numerator
  let below := centre / denominator
  let above := below + 1
  let reaches (first second : Nat) : Bool :=
    first < second || (interval.closed && first == second)
  let belowIn := reaches (interval.lower * numerator) (below * denominator)
  let aboveIn := reaches (above * denominator) (interval.upper * numerator)
  let toBelow := centre - below * denominator
  let toAbove := above * denominator - centre
  if belowIn && aboveIn then
    if toBelow < toAbove then some below
    else if toAbove < toBelow then some above
    else match tie with
      | .up => some above
      | .even => some (if below % 2 = 0 then below else above)
  else if belowIn then some below
  else if aboveIn then some above
  else none

def coarsen (interval : Interval) (tie : Tie) : (rounds : Nat) → Shortest → Shortest
  | 0, found => found
  | rounds + 1, found =>
      match interval.nearest? tie (found.exponent + 1) with
      | none => found
      | some digits => coarsen interval tie rounds ⟨digits, found.exponent + 1⟩

end Interval

/--
The shortest decimal of a float.  The search starts on a grid finer than a quarter of the last
place, and each coarser grid at least halves the digits, so there are no more rounds than bits.
-/
def shortest (tie : Tie) (x : Magnitude) : Shortest :=
  let interval := Interval.ofMagnitude x
  -- a little below the decimal exponent of the unit: the common logarithm of two is 0.30103
  let start := interval.unit * 30103 / 100000 - 1
  let (numerator, denominator) := Interval.scale interval.unit start
  interval.coarsen tie (interval.centre.log2 + 8)
    ⟨interval.centre * numerator / denominator, start⟩

end Cbor.Decimal
