/-!
# Tolerance

Magnitudes up to one ten-millionth count as zero: such a coefficient is left out
of a written expression, and a smaller value in a report is read as zero.  A
coefficient as near as this to one or to minus one is written as a bare sign.
-/

namespace MixedInteger.Tolerance

/-- The magnitude up to which a number counts as zero. -/
def epsilon : Float := 1e-7

/-- The distance between one and the next binary64 value. -/
def unitRounding : Float := Float.ofBits 0x3CB0000000000000

/-- The number counts as zero. -/
def isNearZero (x : Float) : Bool :=
  x.abs ≤ epsilon

/--
The number counts as one or minus one.  The allowance covers the rounding of
the subtraction, so that a number a whole tolerance away from one is included.
-/
def isNearUnit (x : Float) : Bool :=
  (x.abs - 1.0).abs ≤ epsilon + unitRounding

/-- A magnitude below the tolerance becomes zero. -/
def snapped (x : Float) : Float :=
  if x.abs < epsilon then 0.0 else x

end MixedInteger.Tolerance
