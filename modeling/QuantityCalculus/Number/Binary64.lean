import QuantityCalculus.Number.Ratio
import QuantityCalculus.Number.Rounding

namespace QuantityCalculus
namespace Number

/-!
Binary floating-point numbers of sixty-four bits, taken apart and put together.

A finite number is a whole mantissa times a power of two.  `Parts` shows that
reading of the bits, and `nearest` goes the other way: it finds the number that
is nearest to an exact quotient.  Every function that this library computes
exactly (decimal reading and writing, remainders, elementary functions) passes
through these two.
-/

/-- What the bits of a number say. -/
inductive Parts where
  | undefined
  | infinite (negative : Bool)
  /-- The mantissa times two to the exponent. -/
  | finite (negative : Bool) (mantissa : Nat) (exponent : Int)
deriving Repr, DecidableEq

/-- The parts of a number. -/
def parts (number : Float) : Parts :=
  let bits := number.toBits.toNat
  let negative := Nat.ble (Nat.pow 2 63) bits
  let biased : Nat := bits / Nat.pow 2 52 % Nat.pow 2 11
  let fraction : Nat := bits % Nat.pow 2 52
  if biased = 2047 then
    if fraction = 0 then .infinite negative else .undefined
  else if biased = 0 then .finite negative fraction (-1074)
  else .finite negative (fraction + Nat.pow 2 52) ((biased : Int) - 1075)

/-- The number with the given bits and sign. -/
def ofMagnitudeBits (negative : Bool) (bits : Nat) : Float :=
  Float.ofBits (UInt64.ofNat (bits + if negative then Nat.pow 2 63 else 0))

/-- The bits of infinity without a sign; larger magnitudes are not numbers. -/
def infinityBits : Nat := 2047 * Nat.pow 2 52

/-- The exponent of the leading bit of a positive quotient. -/
def leadingExponent (numerator denominator : Nat) : Int :=
  let guess : Int := (numerator.log2 : Int) - denominator.log2
  let (scaledNumerator, scaledDenominator) :=
    match guess with
    | .ofNat up => (numerator, denominator * Nat.pow 2 up)
    | .negSucc down => (numerator * Nat.pow 2 (down + 1), denominator)
  if scaledNumerator < scaledDenominator then guess - 1 else guess

/--
The bits of the number nearest to a quotient.  The step between neighbours is
two to the `step`; mantissas count steps, and a mantissa that rounds up to the
next power of two carries into the exponent by itself.
-/
def nearestBits (numerator denominator : Nat) : Nat :=
  if numerator = 0 then 0
  else
    let step := max (leadingExponent numerator denominator - 52) (-1074)
    let mantissa :=
      match step with
      | .ofNat up => roundQuotient numerator (denominator * Nat.pow 2 up)
      | .negSucc down => roundQuotient (numerator * Nat.pow 2 (down + 1)) denominator
    min ((step + 1074).toNat * Nat.pow 2 52 + mantissa) infinityBits

/-- The number nearest to a quotient, with a sign. -/
def nearest (negative : Bool) (numerator denominator : Nat) : Float :=
  ofMagnitudeBits negative (nearestBits numerator denominator)

/-- The number nearest to a mantissa times a power of two, with a sign. -/
def nearestScaled (negative : Bool) (mantissa : Nat) (exponent : Int) : Float :=
  let (numerator, denominator) := scaledRatio mantissa exponent
  nearest negative numerator denominator

/-- Infinity with a sign. -/
def infinite (negative : Bool) : Float :=
  ofMagnitudeBits negative infinityBits

/-- The undefined number. -/
def undefined : Float :=
  Float.ofBits (UInt64.ofNat (2047 * Nat.pow 2 52 + Nat.pow 2 51))

/-- Zero with a sign. -/
def signedZero (negative : Bool) : Float :=
  ofMagnitudeBits negative 0

/--
The number nearest to a mantissa times a power of ten.  An exponent far outside
the range of the numbers is settled by the size of the mantissa alone, so that
no power of ten is ever computed from a text's exponent unchecked.
-/
def nearestDecimal (mantissa : Nat) (exponent : Int) : Float :=
  let places : Int := (mantissa.log2 * 30103 / 100000 : Nat)
  if mantissa = 0 then signedZero false
  else if 400 < places + exponent then infinite false
  else if places + exponent < -400 then signedZero false
  else
    match exponent with
    | .ofNat up => nearest false (mantissa * Nat.pow 10 up) 1
    | .negSucc down => nearest false mantissa (Nat.pow 10 (down + 1))

/-- The whole part of a finite number, rounded towards zero; zero for the others. -/
def wholePart (number : Float) : Int :=
  match parts number with
  | .finite negative mantissa exponent =>
      let (numerator, denominator) := scaledRatio mantissa exponent
      let magnitude : Int := (numerator / denominator : Nat)
      if negative then -magnitude else magnitude
  | _ => 0

/-- The exact value of a finite number; zero for the others. -/
def exactRatio (number : Float) : Ratio :=
  match parts number with
  | .finite negative mantissa exponent =>
      let (numerator, denominator) := scaledRatio mantissa exponent
      Ratio.of (if negative then -(numerator : Int) else numerator) denominator
  | _ => Ratio.zero

/-- The number without its sign. -/
def magnitude (number : Float) : Float :=
  Float.ofBits (UInt64.ofNat (number.toBits.toNat % Nat.pow 2 63))

/-- A number is finite when its parts are. -/
def isFinite (number : Float) : Bool :=
  match parts number with
  | .finite .. => true
  | _ => false

/--
The remainder of a division rounded towards zero.  It is exact: both numbers
are whole multiples of the smaller of their steps.
-/
def remainder (dividend divisor : Float) : Float :=
  match parts dividend, parts divisor with
  | .finite negative m e, .finite _ n d =>
      if n = 0 then undefined
      else
        let step := min e d
        nearestScaled negative
          ((m * Nat.pow 2 (e - step).toNat) % (n * Nat.pow 2 (d - step).toNat)) step
  | .finite .., .infinite _ => dividend
  | _, _ => undefined

end Number
end QuantityCalculus
