/-!
# Numbers from decimal notation

The number that a decimal with a 64-bit significand is read as: the significand is rounded to a
floating-point number, which is then multiplied or divided by a rounded power of ten. A decimal too
large for the range has no number, and one too small is zero.
-/

namespace Workflow.Decimal

/-- Exponents up to this one have a power of ten in range. -/
def maxPower : Nat := 308

def tenPower (n : Nat) : Float := Float.ofScientific 1 false n

/-- Multiplies `x` by `10 ^ exponent`. Below the range it divides by the largest power first, which
happens at most twice before the number is zero. -/
def scale : Nat → Float → Int → Option Float
  | 0, x, _ => some x
  | fuel + 1, x, exponent =>
    if exponent.natAbs ≤ maxPower then
      if 0 ≤ exponent then
        let y := x * tenPower exponent.natAbs
        if y.isInf then none else some y
      else some (x / tenPower exponent.natAbs)
    else if x == 0.0 then some x
    else if 0 ≤ exponent then none
    else scale fuel (x / tenPower maxPower) (exponent + maxPower)

/-- The number `± significand * 10 ^ exponent`, if it is in range. -/
def toFloat? (negative : Bool) (significand : Nat) (exponent : Int) : Option Float :=
  (scale 4 significand.toUInt64.toFloat exponent).map fun x => if negative then -x else x

end Workflow.Decimal
