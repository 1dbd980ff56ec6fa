import QuantityCalculus.Number.Scalar
import QuantityCalculus.Number.Written
import QuantityCalculus.Number.Elementary

namespace QuantityCalculus
namespace Number

/-!
The scalars the calculator runs on: binary floating-point numbers.  The four
operations round to the nearest number by themselves; everything else is
defined in this library and rounds in the same way.
-/

instance : Scalar Float where
  ofInt number := nearest (number < 0) number.natAbs 1
  ofDecimal := nearestDecimal
  infinity := infinite false
  undefined := undefined
  pi := 3.141592653589793
  euler := 2.718281828459045
  add := Float.add
  sub := Float.sub
  mul := Float.mul
  div := Float.div
  rem := remainder
  pow := power
  neg := Float.neg
  abs := magnitude
  sin := sine
  cos := cosine
  tan := tangent
  log := naturalLog
  arcsin := arcSine
  arccos := arcCosine
  arctan := arcTangent
  eq := Float.beq
  le a b := decide (a ≤ b)
  lt a b := decide (a < b)
  isFinite := isFinite
  truncate := wholePart
  ratio := exactRatio
  shortest := shortestText
  fixed := fixedText

end Number
end QuantityCalculus
