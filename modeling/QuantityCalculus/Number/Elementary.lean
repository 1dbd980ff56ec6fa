import QuantityCalculus.Number.Binary64
import QuantityCalculus.Number.FixedPoint

namespace QuantityCalculus
namespace Number

/-!
Powers, logarithms and circular functions, rounded to the nearest number.

Each function is first computed with a limited number of places.  When the two
ends of the interval of doubt round to the same number, that number is the
rounded true value; otherwise the computation is repeated with more places.
Arguments for which the true value is itself a number, or lies exactly between
two, would defeat this test and are settled beforehand by exact arithmetic.
-/

/-- A fixed-point value, scaled by a power of two, with a bound on its error. -/
structure Estimate where
  precision : Nat
  value : Int
  error : Nat
  exponent : Int

/-- The numerator and denominator of a magnitude in an estimate. -/
def Estimate.ratio (estimate : Estimate) (magnitude : Nat) : Nat × Nat :=
  scaledRatio magnitude (estimate.exponent - estimate.precision)

/-- The number nearest to every value that the estimate leaves possible, if there is one. -/
def Estimate.settled? (estimate : Estimate) : Option Float :=
  let size := estimate.value.natAbs
  if size ≤ estimate.error then none
  else
    let low := estimate.ratio (size - estimate.error)
    let high := estimate.ratio (size + estimate.error)
    if nearestBits low.1 low.2 = nearestBits high.1 high.2 then
      some (nearest (estimate.value < 0) low.1 low.2)
    else none

/-- The number nearest to the middle of an estimate. -/
def Estimate.middle (estimate : Estimate) : Float :=
  let ratio := estimate.ratio estimate.value.natAbs
  nearest (estimate.value < 0) ratio.1 ratio.2

/-- Successive numbers of places. -/
def precisions : List Nat := [160, 320, 640, 1280]

/-- The first settled estimate, with ever more places. -/
def refine (estimate : Nat -> Estimate) : Float :=
  (precisions.findSome? fun places => (estimate places).settled?).getD (estimate 2560).middle

/-- Room for the rounding of the steps of one computation, in units. -/
def stepError (precision : Nat) : Nat := 64 * precision

/-- The exponent of the leading bit of a mantissa times a power of two. -/
def leadOf (mantissa : Nat) (exponent : Int) : Int := (mantissa.log2 : Int) + exponent

/-- Extra places that a small argument needs so that its result keeps its leading digits. -/
def smallPlaces (mantissa : Nat) (exponent : Int) : Nat :=
  (-(leadOf mantissa exponent)).toNat + 64

/-- The quarter turn an angle lies in, and the rest of the angle in fixed-point form. -/
def reduceAngle (precision : Nat) (mantissa : Nat) (exponent : Int) : Int × Int :=
  let wide := precision + (leadOf mantissa exponent).toNat + 8
  let quarter := piFixed wide
  let angle := 2 * ofScaled wide mantissa exponent
  -- Twice the angle over half a turn, rounded to the nearest whole number.
  let turns := (2 * angle + quarter).fdiv (2 * quarter)
  let rest := angle - turns * quarter
  (turns, rest.tdiv (Nat.pow 2 (wide - precision + 1) : Nat))

/-- Sine and cosine of an angle of any size. -/
def sinCosFixed (precision : Nat) (mantissa : Nat) (exponent : Int) : Int × Int :=
  let (turns, rest) := reduceAngle precision mantissa exponent
  let s := sinFixed precision rest
  let c := cosFixed precision rest
  match (turns % 4).toNat with
  | 0 => (s, c)
  | 1 => (c, -s)
  | 2 => (-s, -c)
  | _ => (-c, s)

/-- The sign of a negative argument, for odd functions. -/
def signed (negative : Bool) (value : Int) : Int :=
  if negative then -value else value

/-- The sine of an angle in radians. -/
def sine (angle : Float) : Float :=
  match parts angle with
  | .finite negative mantissa exponent =>
      if mantissa = 0 then angle
      else refine fun places =>
        let precision := places + smallPlaces mantissa exponent
        { precision, exponent := 0, error := stepError precision
          value := signed negative (sinCosFixed precision mantissa exponent).1 }
  | _ => undefined

/-- The cosine of an angle in radians. -/
def cosine (angle : Float) : Float :=
  match parts angle with
  | .finite _ mantissa exponent =>
      if mantissa = 0 then nearest false 1 1
      else refine fun places =>
        let precision := places + 64
        { precision, exponent := 0, error := stepError precision
          value := (sinCosFixed precision mantissa exponent).2 }
  | _ => undefined

/-- The tangent of an angle in radians. -/
def tangent (angle : Float) : Float :=
  match parts angle with
  | .finite negative mantissa exponent =>
      if mantissa = 0 then angle
      else refine fun places =>
        let precision := places + smallPlaces mantissa exponent
        let (s, c) := sinCosFixed precision mantissa exponent
        let steepness := (unit precision).tdiv c
        { precision, exponent := 0
          error := stepError precision * (steepness * steepness + 2).natAbs
          value := signed negative (divFixed precision s c) }
  | _ => undefined

/-- The arc tangent, in radians. -/
def arcTangent (ratio : Float) : Float :=
  match parts ratio with
  | .undefined => undefined
  | .infinite negative => refine fun precision =>
      { precision, exponent := 0, error := stepError precision
        value := signed negative ((piFixed precision).tdiv 2) }
  | .finite negative mantissa exponent =>
      if mantissa = 0 then ratio
      else if leadOf mantissa exponent < 0 then refine fun places =>
        let precision := places + smallPlaces mantissa exponent
        { precision, exponent := 0, error := stepError precision
          value := signed negative (arctanFixed precision (ofScaled precision mantissa exponent)) }
      else refine fun places =>
        let precision := places + 64
        let inverse :=
          match exponent with
          | .ofNat up => (unit precision).tdiv (mantissa * Nat.pow 2 up : Nat)
          | .negSucc down => (unit precision * (Nat.pow 2 (down + 1) : Nat)).tdiv mantissa
        { precision, exponent := 0, error := stepError precision
          value := signed negative
            ((piFixed precision).tdiv 2 - arctanFixed precision inverse) }

/-- The arc sine of a nonnegative number of at most one, as twice an arc tangent. -/
def arcSineFixed (precision : Nat) (mantissa : Nat) (exponent : Int) : Int :=
  let x := ofScaled precision mantissa exponent
  let one := unit precision
  let adjacent : Int := (Nat.sqrt (one * one - x * x).toNat : Nat)
  2 * arctanFixed precision (divFixed precision x (one + adjacent))

/-- A magnitude is above one. -/
def exceedsOne (mantissa : Nat) (exponent : Int) : Bool :=
  let (numerator, denominator) := scaledRatio mantissa exponent
  Nat.blt denominator numerator

/-- The arc sine, in radians. -/
def arcSine (ratio : Float) : Float :=
  match parts ratio with
  | .finite negative mantissa exponent =>
      if mantissa = 0 then ratio
      else if exceedsOne mantissa exponent then undefined
      else refine fun places =>
        let precision := places + smallPlaces mantissa exponent
        { precision, exponent := 0, error := stepError precision
          value := signed negative (arcSineFixed precision mantissa exponent) }
  | _ => undefined

/-- The arc cosine, in radians; it is zero at one. -/
def arcCosine (ratio : Float) : Float :=
  match parts ratio with
  | .finite negative mantissa exponent =>
      if exceedsOne mantissa exponent then undefined
      else if ratio == nearest false 1 1 then signedZero false
      else refine fun places =>
        -- An argument too small to show in these places is a zero of the arc sine.
        let precision := places + 64
        { precision, exponent := 0, error := stepError precision
          value := (piFixed precision).tdiv 2 -
            signed negative (arcSineFixed precision mantissa exponent) }
  | _ => undefined

/-- The natural logarithm; it is zero at one. -/
def naturalLog (number : Float) : Float :=
  match parts number with
  | .undefined => undefined
  | .infinite negative => if negative then undefined else number
  | .finite negative mantissa exponent =>
      if mantissa = 0 then infinite true
      else if negative then undefined
      else if number == nearest false 1 1 then signedZero false
      else refine fun places =>
        let precision := places + 64
        { precision, exponent := 0, error := 4096 * stepError precision
          value := logScaled precision mantissa exponent }

/-- A positive number as an odd mantissa times a power of two; `fuel` bounds the halvings. -/
def oddMantissa : Nat -> Nat -> Int -> Nat × Int
  | 0, mantissa, exponent => (mantissa, exponent)
  | fuel + 1, mantissa, exponent =>
      if mantissa % 2 = 0 then oddMantissa fuel (mantissa / 2) (exponent + 1)
      else (mantissa, exponent)

/-- Repeated exact square roots of an odd mantissa times a power of two. -/
def exactRoots? : Nat -> Nat × Int -> Option (Nat × Int)
  | 0, base => some base
  | times + 1, (mantissa, exponent) =>
      let root := Nat.sqrt mantissa
      if root * root = mantissa && exponent % 2 = 0 then
        if mantissa = 1 && exponent = 0 then some (1, 0)
        else exactRoots? times (root, exponent / 2)
      else none

/-- A base raised to a whole power, when the exact result is of moderate size. -/
def exactPower? (base : Nat × Int) (downwards : Bool) (power : Nat) : Option (Nat × Nat) :=
  let (mantissa, exponent) := base
  let shift := max (-5000) (min 5000 (exponent * power))
  if mantissa = 1 then
    some (scaledRatio 1 (if downwards then -shift else shift))
  else if mantissa.log2 * power ≤ 4096 && shift.natAbs < 5000 then
    let (numerator, denominator) := scaledRatio (Nat.pow mantissa power) shift
    some (if downwards then (denominator, numerator) else (numerator, denominator))
  else none

/-- A whole number is odd when no factor of two was taken from it. -/
def isOddWhole (power : Nat × Int) : Bool := power.2 == 0

/--
A positive finite base other than one to a nonzero finite power.  The power is
an odd whole number times a power of two; a negative power is `downwards`.
-/
def positivePower (mantissa : Nat) (exponent : Int) (downwards : Bool) (power : Nat × Int) :
    Float :=
  let base := oddMantissa 53 mantissa exponent
  let exact :=
    match power.2 with
    | .ofNat up =>
        if up ≤ 64 then exactPower? base downwards (power.1 * Nat.pow 2 up) else none
    | .negSucc down => (exactRoots? (down + 1) base).bind fun root =>
        exactPower? root downwards power.1
  match exact with
  | some (numerator, denominator) => nearest false numerator denominator
  | none =>
      let growth := leadOf power.1 power.2
      let size := logScaled 128 mantissa exponent
      -- The logarithm of the result, in units, decides overflow and underflow.
      let rough := signed downwards (ofScaled 0 (size * power.1) (power.2 - 118))
      if 2097152 < rough then infinite false
      else if rough < -2097152 then signedZero false
      else refine fun places =>
        let precision := places + 64
        let wide := precision + growth.toNat + 64
        let logarithm := signed downwards
          (ofScaled 0 (logScaled wide mantissa exponent * power.1)
            (power.2 - ((wide - precision : Nat) : Int)))
        let two := logTwoFixed precision
        let doublings := logarithm.fdiv two
        { precision, exponent := doublings, error := Nat.pow 2 13 * stepError precision
          value := expFixed precision (logarithm - doublings * two) }

/-- A magnitude below, at, or above one. -/
def compareOne (mantissa : Nat) (exponent : Int) : Ordering :=
  let (numerator, denominator) := scaledRatio mantissa exponent
  compare numerator denominator

/--
Powers.  Anything to the power zero is one and one to any power is one, also
where the other operand is undefined; a negative base needs a whole power, and
an odd one keeps the sign.
-/
def power (base exponent : Float) : Float :=
  let one := nearest false 1 1
  let odd (n : Nat) (d : Int) : Bool := isOddWhole (oddMantissa 1100 n d)
  let whole (n : Nat) (d : Int) : Bool := decide (0 ≤ (oddMantissa 1100 n d).2)
  match parts base, parts exponent with
  | _, .finite _ 0 _ => one
  | .undefined, _ => undefined
  | .finite negative m e, .undefined =>
      if !negative && compareOne m e == .eq then one else undefined
  | .infinite _, .undefined => undefined
  | .finite _ m e, .infinite down =>
      match compareOne m e with
      | .eq => one
      | .lt => if down then infinite false else signedZero false
      | .gt => if down then signedZero false else infinite false
  | .infinite _, .infinite down => if down then signedZero false else infinite false
  | .infinite negative, .finite down n d =>
      let sign := negative && odd n d
      if down then signedZero sign else infinite sign
  | .finite negative 0 _, .finite down n d =>
      let sign := negative && odd n d
      if down then infinite sign else signedZero sign
  | .finite negative m e, .finite down n d =>
      if negative && !whole n d then undefined
      else
        let size :=
          if compareOne m e == .eq then one
          else positivePower m e down (oddMantissa 1100 n d)
        if negative && odd n d then -size else size

end Number
end QuantityCalculus
