import QuantityCalculus.Number.Elementary
import QuantityCalculus.Number.Ratio

namespace QuantityCalculus

/-!
Binary numbers with fifty-three significant bits and exponents of any size.

They round like the numbers of the calculator, but never become too large or
too small: a power with a great exponent and the root that undoes it stay what
they are.  There is one zero, and there are neither infinite nor undefined
values; an operation without a value has no result.
-/

/-- An odd mantissa times a power of two, or zero with the exponent zero. -/
structure Wide where
  mantissa : Int
  exponent : Int
deriving DecidableEq, Ord, Repr

namespace Wide

open Number

/-- How many bits of a mantissa are kept. -/
def significantBits : Nat := 53

def zero : Wide := ⟨0, 0⟩

def isZero (x : Wide) : Bool := x.mantissa == 0

def isNegative (x : Wide) : Bool := decide (x.mantissa < 0)

def neg (x : Wide) : Wide := ⟨-x.mantissa, x.exponent⟩

def abs (x : Wide) : Wide := ⟨x.mantissa.natAbs, x.exponent⟩

/-- A number with a sign from its magnitude. -/
def withSign (negative : Bool) (x : Wide) : Wide := if negative then x.neg else x

/-- A mantissa of any length times a power of two, rounded to the nearest number. -/
def round (mantissa : Int) (exponent : Int) : Wide :=
  let size := mantissa.natAbs
  if size = 0 then zero
  else
    let surplus := size.log2 + 1 - significantBits
    let kept := roundQuotient size (Nat.pow 2 surplus)
    let (odd, shift) := oddMantissa (significantBits + 1) kept (exponent + surplus)
    withSign (mantissa < 0) ⟨odd, shift⟩

def ofInt (number : Int) : Wide := round number 0

/-- The number nearest to a quotient. -/
def ofRatio (ratio : Ratio) : Wide :=
  let size := ratio.numerator.natAbs
  if size = 0 then zero
  else
    let step := leadingExponent size ratio.denominator - (significantBits - 1 : Nat)
    let mantissa :=
      match step with
      | .ofNat up => roundQuotient size (ratio.denominator * Nat.pow 2 up)
      | .negSucc down => roundQuotient (size * Nat.pow 2 (down + 1)) ratio.denominator
    withSign ratio.isNegative (round mantissa step)

/-- The exponent of the leading bit. -/
def lead (x : Wide) : Int := leadOf x.mantissa.natAbs x.exponent

/-- The mantissa over a smaller exponent. -/
def mantissaAt (x : Wide) (exponent : Int) : Int :=
  x.mantissa * (Nat.pow 2 (x.exponent - exponent).toNat : Nat)

/-- Beyond this distance of the leading bits a summand is lost. -/
def lostBits : Int := 128

def add (x y : Wide) : Wide :=
  if x.isZero then y
  else if y.isZero then x
  else if lostBits < x.lead - y.lead then x
  else if lostBits < y.lead - x.lead then y
  else
    let exponent := min x.exponent y.exponent
    round (x.mantissaAt exponent + y.mantissaAt exponent) exponent

def sub (x y : Wide) : Wide := x.add y.neg

def mul (x y : Wide) : Wide := round (x.mantissa * y.mantissa) (x.exponent + y.exponent)

/-- The quotient by a number that is not zero. -/
def div (x y : Wide) : Wide :=
  let quotient := ofRatio (Ratio.of x.mantissa y.mantissa.natAbs)
  withSign y.isNegative
    (if quotient.isZero then zero else ⟨quotient.mantissa, quotient.exponent + x.exponent - y.exponent⟩)

def lt (x y : Wide) : Bool := (x.sub y).isNegative

def le (x y : Wide) : Bool := !lt y x

def one : Wide := ofInt 1

/-- Half of a number. -/
def halved (x : Wide) : Wide := if x.isZero then x else ⟨x.mantissa, x.exponent - 1⟩

/-- Exponents beyond this are never written out. -/
def moderateExponent : Nat := 100000

/-- The whole number that a number is, if it is one of moderate size. -/
def toInt? (x : Wide) : Option Int :=
  if x.exponent < 0 || moderateExponent < x.exponent then none else some (x.mantissaAt 0)

/-- The exact value, if it is of moderate size. -/
def toRatio? (x : Wide) : Option Ratio :=
  if moderateExponent < x.exponent.natAbs then none
  else
    match x.exponent with
    | .ofNat up => some (Ratio.ofInt (x.mantissa * (Nat.pow 2 up : Nat)))
    | .negSucc down => some (Ratio.of x.mantissa (Nat.pow 2 (down + 1)))

/-- The remainder of a division rounded down by a number that is not zero. -/
def modulo? (x y : Wide) : Option Wide :=
  if y.isZero || moderateExponent < (x.exponent - y.exponent).natAbs then none
  else
    let exponent := min x.exponent y.exponent
    some (round ((x.mantissaAt exponent).fmod (y.mantissaAt exponent)) exponent)

/-! ## Elementary functions -/

/-- The places behind the point that intermediate results have. -/
def workingPlaces : Nat := 320

def pi : Wide := round (piFixed workingPlaces) (-(workingPlaces : Int))

/-- Numbers whose leading bit lies beyond this are too large for an exponential. -/
def exponentialLimit : Int := 64

/-- The exponential of a fixed-point number. -/
def expFixedPoint (places : Nat) (x : Int) : Wide :=
  let two := logTwoFixed places
  let doublings := x.fdiv two
  round (expFixed places (x - doublings * two)) (doublings - places)

/-- A number this small changes nothing next to one, and is its own sine and arc tangent. -/
def isTiny (x : Wide) : Bool := x.isZero || decide (x.lead < -200)

def exp? (x : Wide) : Option Wide :=
  if x.isTiny then some one
  else if exponentialLimit < x.lead then none
  else some (expFixedPoint workingPlaces (ofScaled workingPlaces x.mantissa x.exponent))

/-- The logarithm of a positive number. -/
def log (x : Wide) : Wide :=
  round (logScaled workingPlaces x.mantissa.natAbs x.exponent) (-(workingPlaces : Int))

/-- The square root of a number that is not negative. -/
def sqrt (x : Wide) : Wide :=
  let shift : Nat := if x.exponent % 2 = 0 then workingPlaces else workingPlaces + 1
  round (Nat.sqrt (x.mantissa.natAbs * Nat.pow 2 shift) : Nat) ((x.exponent - shift).tdiv 2)

/-- A positive base to an exponent given as a quotient. -/
def raisePositive? (base : Wide) (exponent : Ratio) : Option Wide :=
  let power := ofRatio exponent
  let places := workingPlaces + (max 0 power.lead).toNat
  let logarithm := logScaled places base.mantissa.natAbs base.exponent
  let product := (logarithm * exponent.numerator).tdiv exponent.denominator
  if exponentialLimit < (product.natAbs.log2 : Int) - places || 4096 < power.lead then none
  else some (expFixedPoint places product)

/-- A power with a whole exponent. -/
def raiseInt? (base : Wide) (exponent : Int) : Option Wide :=
  let count := exponent.natAbs
  if base.isZero then
    if exponent < 0 then none else some (if exponent = 0 then one else zero)
  else
    let size :=
      if count ≤ 64 then
        some (round (Nat.pow base.mantissa.natAbs count : Nat) (base.exponent * count))
      else raisePositive? base.abs (Ratio.ofInt count)
    size.map fun size =>
      withSign (base.isNegative && count % 2 == 1) (if exponent < 0 then one.div size else size)

/-- Angles whose leading bit lies beyond this have no sine. -/
def angleLimit : Int := 20000

/-- Sine and cosine. -/
def sinCos? (x : Wide) : Option (Wide × Wide) :=
  if angleLimit < x.lead then none
  else if x.isTiny then some (x, one)
  else
    let places := workingPlaces + smallPlaces x.mantissa.natAbs x.exponent
    let (s, c) := sinCosFixed places x.mantissa.natAbs x.exponent
    some (withSign x.isNegative (round s (-(places : Int))), round c (-(places : Int)))

/-- The arc tangent. -/
def arctan (x : Wide) : Wide :=
  let size := x.abs
  if x.isTiny then x
  else if (one.div size).isTiny then withSign x.isNegative pi.halved
  else
    let small := if x.lead < 0 then size else one.div size
    let places := workingPlaces + smallPlaces small.mantissa.natAbs small.exponent
    let angle := arctanFixed places (ofScaled places small.mantissa small.exponent)
    withSign x.isNegative
      (round (if x.lead < 0 then angle else (piFixed places).tdiv 2 - angle) (-(places : Int)))

/-- The magnitude is at most one. -/
def withinOne (x : Wide) : Bool := !lt one x.abs

/-- The arc sine of a number of magnitude at most one. -/
def arcsin (x : Wide) : Wide :=
  if x.isTiny then x
  else
    let places := workingPlaces + smallPlaces x.mantissa.natAbs x.exponent
    withSign x.isNegative
      (round (arcSineFixed places x.mantissa.natAbs x.exponent) (-(places : Int)))

/-- The arc cosine of a number of magnitude at most one. -/
def arccos (x : Wide) : Wide :=
  if x.isTiny then pi.halved
  else
    let places := workingPlaces
    let angle := signed x.isNegative (arcSineFixed places x.mantissa.natAbs x.exponent)
    round ((piFixed places).tdiv 2 - angle) (-(places : Int))

/-- The number whose hyperbolic cosine is a number of magnitude at least one. -/
def hyperbolicArc (x : Wide) : Wide :=
  let size := x.abs
  (size.add (((size.sub one).mul (size.add one)).sqrt)).log

end Wide
end QuantityCalculus
