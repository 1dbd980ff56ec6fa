import QuantityCalculus.Number.Rounding

namespace QuantityCalculus
namespace Number

/-!
Elementary functions on fixed-point numbers.

A fixed-point number is a whole number of units of `2 ^ -precision`.  All
functions here are finite sums of exact whole-number operations, each of which
loses less than one unit, so the distance to the true value is bounded by the
number of steps.  They are used with far more places than a result needs, and
the caller checks that the remaining doubt does not reach the result.
-/

/-- The fixed-point one. -/
def unit (precision : Nat) : Int := (Nat.pow 2 precision : Nat)

/-- The product of two fixed-point numbers. -/
def mulFixed (precision : Nat) (a b : Int) : Int :=
  (a * b).tdiv (unit precision)

/-- The quotient of two fixed-point numbers. -/
def divFixed (precision : Nat) (a b : Int) : Int :=
  (a * unit precision).tdiv b

/-- The square root of a nonnegative fixed-point number. -/
def sqrtFixed (precision : Nat) (a : Int) : Int :=
  (Nat.sqrt (a.toNat * Nat.pow 2 precision) : Nat)

/-- A mantissa times a power of two as a fixed-point number, rounded towards zero. -/
def ofScaled (precision : Nat) (mantissa : Int) (exponent : Int) : Int :=
  match exponent + precision with
  | .ofNat up => mantissa * (Nat.pow 2 up : Nat)
  | .negSucc down => mantissa.tdiv (Nat.pow 2 (down + 1) : Nat)

/--
The sum of `power / (2 k + 1)` over successive powers, each a constant factor
times the one before; it ends when the powers vanish.
-/
def sumOdd (precision : Nat) (factor : Int) : Nat -> Nat -> Int -> Int
  | 0, _, _ => 0
  | terms + 1, k, power =>
      if power = 0 then 0
      else power.tdiv (2 * k + 1 : Nat) +
        sumOdd precision factor terms (k + 1) (mulFixed precision power factor)

/--
The sum of a series whose terms arise from one another by a constant factor
and a division by the next two numbers.
-/
def sumFactorial (precision : Nat) (factor : Int) : Nat -> Nat -> Int -> Int
  | 0, _, _ => 0
  | terms + 1, k, term =>
      if term = 0 then 0
      else term + sumFactorial precision factor terms (k + 2)
        ((mulFixed precision term factor).tdiv ((k + 1) * (k + 2) : Nat))

/-- The arc tangent of a number well below one. -/
def arctanSeries (precision : Nat) (x : Int) : Int :=
  sumOdd precision (-(mulFixed precision x x)) (precision + 1) 0 x

/-- Half the logarithm of `(1 + x) / (1 - x)`, for a number well below one. -/
def arctanhSeries (precision : Nat) (x : Int) : Int :=
  sumOdd precision (mulFixed precision x x) (precision + 1) 0 x

/-- The circle constant, from two arc tangents. -/
def piFixed (precision : Nat) : Int :=
  let inverse (n : Nat) : Int := (unit precision).tdiv n
  16 * arctanSeries precision (inverse 5) - 4 * arctanSeries precision (inverse 239)

/-- The logarithm of two. -/
def logTwoFixed (precision : Nat) : Int :=
  2 * arctanhSeries precision ((unit precision).tdiv 3)

/--
Repeated halving of an arc tangent: the argument `x / (1 + sqrt (1 + x ^ 2))`
belongs to half the angle.
-/
def arctanHalved (precision : Nat) : Nat -> Int -> Int
  | 0, x => arctanSeries precision x
  | halvings + 1, x =>
      let one := unit precision
      let hypotenuse := sqrtFixed precision (one + mulFixed precision x x)
      2 * arctanHalved precision halvings (divFixed precision x (one + hypotenuse))

/-- The arc tangent of a number between minus one and one. -/
def arctanFixed (precision : Nat) (x : Int) : Int :=
  arctanHalved precision 3 x

/-- The sine of a number of at most one right angle. -/
def sinFixed (precision : Nat) (x : Int) : Int :=
  sumFactorial precision (-(mulFixed precision x x)) (precision + 1) 1 x

/-- The cosine of a number of at most one right angle. -/
def cosFixed (precision : Nat) (x : Int) : Int :=
  sumFactorial precision (-(mulFixed precision x x)) (precision + 1) 0 (unit precision)

/-- The terms of the exponential series. -/
def sumExponential (precision : Nat) (x : Int) : Nat -> Nat -> Int -> Int
  | 0, _, _ => 0
  | terms + 1, k, term =>
      if term = 0 then 0
      else term + sumExponential precision x terms (k + 1)
        ((mulFixed precision term x).tdiv (k + 1 : Nat))

/-- Repeated squaring. -/
def squareTimes (precision : Nat) : Nat -> Int -> Int
  | 0, x => x
  | times + 1, x => squareTimes precision times (mulFixed precision x x)

/-- The exponential of a number of at most one. -/
def expFixed (precision : Nat) (x : Int) : Int :=
  squareTimes precision 8
    (sumExponential precision (x.tdiv 256) (precision + 1) 0 (unit precision))

/-- The logarithm of a mantissa times a power of two. -/
def logScaled (precision : Nat) (mantissa : Nat) (exponent : Int) : Int :=
  let lead := mantissa.log2
  -- The mantissa is brought to between three quarters and three halves.
  let high := decide (3 * Nat.pow 2 lead ≤ 2 * mantissa)
  let places : Nat := if high then lead + 1 else lead
  let reduced := ofScaled precision mantissa (-(places : Int))
  let one := unit precision
  (exponent + places) * logTwoFixed precision +
    2 * arctanhSeries precision (divFixed precision (reduced - one) (reduced + one))

end Number
end QuantityCalculus
