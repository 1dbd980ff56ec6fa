import QuantityCalculus.Number.Wide

namespace QuantityCalculus

/-!
Complex numbers with parts of any size.

Checking a solution may lead through square roots and logarithms of negative
numbers and back, so it is carried out on complex numbers, with the principal
values of all functions.  On the real line the functions of real numbers are
used as far as they have a value.
-/

/-- A complex number. -/
structure Complex where
  re : Wide
  im : Wide
deriving DecidableEq, Repr

namespace Complex

/-- A real number. -/
def ofReal (x : Wide) : Complex := ⟨x, Wide.zero⟩

def ofInt (number : Int) : Complex := ofReal (Wide.ofInt number)

def zero : Complex := ofInt 0

def one : Complex := ofInt 1

/-- The imaginary unit. -/
def unit : Complex := ⟨Wide.zero, Wide.one⟩

def isReal (z : Complex) : Bool := z.im.isZero

def isZero (z : Complex) : Bool := z.re.isZero && z.im.isZero

def plus (z w : Complex) : Complex := ⟨z.re.add w.re, z.im.add w.im⟩

def neg (z : Complex) : Complex := ⟨z.re.neg, z.im.neg⟩

def minus (z w : Complex) : Complex := plus z w.neg

def times (z w : Complex) : Complex :=
  ⟨(z.re.mul w.re).sub (z.im.mul w.im), (z.re.mul w.im).add (z.im.mul w.re)⟩

def scale (x : Wide) (z : Complex) : Complex := ⟨x.mul z.re, x.mul z.im⟩

/-- The imaginary unit times a number. -/
def turn (z : Complex) : Complex := ⟨z.im.neg, z.re⟩

/-- The square of the modulus. -/
def normSquare (z : Complex) : Wide := (z.re.mul z.re).add (z.im.mul z.im)

def modulus (z : Complex) : Wide :=
  if z.isReal then z.re.abs else z.normSquare.sqrt

/-- The quotient; there is none by zero. -/
def quotient? (z w : Complex) : Option Complex :=
  if w.isZero then none
  else if w.isReal then some ⟨z.re.div w.re, z.im.div w.re⟩
  else
    let size := w.normSquare
    some ⟨((z.re.mul w.re).add (z.im.mul w.im)).div size,
      ((z.im.mul w.re).sub (z.re.mul w.im)).div size⟩

/-- The angle of a number that is not zero, from minus to plus half a turn. -/
def angle (z : Complex) : Wide :=
  if z.re.isZero then Wide.withSign z.im.isNegative Wide.pi.halved
  else
    let slope := (z.im.div z.re).arctan
    if !z.re.isNegative then slope
    else if z.im.isNegative then slope.sub Wide.pi
    else slope.add Wide.pi

def exp? (z : Complex) : Option Complex := do
  let size ← z.re.exp?
  if z.isReal then return ofReal size
  let (s, c) ← z.im.sinCos?
  return ⟨size.mul c, size.mul s⟩

/-- The logarithm; there is none of zero. -/
def log? (z : Complex) : Option Complex :=
  if z.isZero then none
  else if z.isReal && !z.re.isNegative then some (ofReal z.re.log)
  else some ⟨z.modulus.log, z.angle⟩

/-- Powers with whole exponents by squaring; `bound` exceeds the bits of the exponent. -/
def raiseNat (z : Complex) : Nat -> Nat -> Complex
  | 0, _ => one
  | bound + 1, exponent =>
      if exponent = 0 then one
      else
        let square := raiseNat (times z z) bound (exponent / 2)
        if exponent % 2 = 1 then times z square else square

/-- A real base to a real exponent, where the power is real. -/
def raiseReal? (base : Wide) (exponent : Wide) : Option Wide :=
  match exponent.toInt? with
  | some count => base.raiseInt? count
  | none =>
      if base.isNegative || base.isZero then none
      else exponent.toRatio?.bind base.raisePositive?

/-- Powers; zero has powers with positive real exponents only. -/
def raise? (z w : Complex) : Option Complex := do
  if z.isZero then
    if w.isZero then return one
    else if w.isReal && !w.re.isNegative then return zero
    else failure
  else
    match if z.isReal && w.isReal then raiseReal? z.re w.re else none with
    | some power => return ofReal power
    | none =>
        match if w.isReal then w.re.toInt? else none with
        | some count =>
            if count.natAbs ≤ 64 then
              let power := raiseNat z 8 count.natAbs
              if count < 0 then quotient? one power else return power
            else (times w (← z.log?)).exp?
        | none => (times w (← z.log?)).exp?

def sqrt? (z : Complex) : Option Complex :=
  if z.isReal then
    if z.re.isNegative then some ⟨Wide.zero, z.re.neg.sqrt⟩ else some (ofReal z.re.sqrt)
  else raise? z (ofReal Wide.one.halved)

/-- Half the sum, and half the difference, of an exponential and its inverse. -/
def hyperbolic? (x : Wide) : Option (Wide × Wide) := do
  let up ← x.exp?
  let down ← x.neg.exp?
  return ((up.add down).halved, (up.sub down).halved)

def sin? (z : Complex) : Option Complex := do
  let (s, c) ← z.re.sinCos?
  if z.isReal then return ofReal s
  let (ch, sh) ← hyperbolic? z.im
  return ⟨s.mul ch, c.mul sh⟩

def cos? (z : Complex) : Option Complex := do
  let (s, c) ← z.re.sinCos?
  if z.isReal then return ofReal c
  let (ch, sh) ← hyperbolic? z.im
  return ⟨c.mul ch, (s.mul sh).neg⟩

def tan? (z : Complex) : Option Complex := do quotient? (← z.sin?) (← z.cos?)

/-- The arc sine; on the real line beyond one its imaginary part has the opposite sign. -/
def arcsin? (z : Complex) : Option Complex :=
  if z.isReal then
    if z.re.withinOne then some (ofReal z.re.arcsin)
    else
      some ⟨Wide.withSign z.re.isNegative Wide.pi.halved,
        Wide.withSign (!z.re.isNegative) z.re.hyperbolicArc⟩
  else do
    let root ← sqrt? (minus one (times z z))
    let logarithm ← log? (plus z.turn root)
    return logarithm.turn.neg

def arccos? (z : Complex) : Option Complex :=
  if z.isReal && z.re.withinOne then some (ofReal z.re.arccos)
  else do return minus (ofReal Wide.pi.halved) (← z.arcsin?)

def arctan? (z : Complex) : Option Complex :=
  if z.isReal then some (ofReal z.re.arctan)
  else do
    let left ← log? (minus one z.turn)
    let right ← log? (plus one z.turn)
    return scale Wide.one.halved (minus left right).turn

/-- The remainder of a division of real numbers rounded down. -/
def modulo? (z w : Complex) : Option Complex :=
  if z.isReal && w.isReal then (z.re.modulo? w.re).map ofReal else none

/-! ## The continued factorial -/

/-- The coefficients of the partial fractions that approximate the gamma function. -/
def gammaCoefficients : List (Int × Nat) :=
  [(676520368121885, 12), (-1259139216722403, 12), (771323428777653, 12),
   (-176615029162141, 12), (12507343278687, 12), (-138571095266, 12), (9984369578, 15),
   (150563274, 15)]

/-- The leading summand of the approximation. -/
def gammaBase : Ratio := Ratio.of 99999999999980993 (Nat.pow 10 17)

/-- The sum of the partial fractions at a number. -/
def gammaSum? (z : Complex) : Nat -> List (Int × Nat) -> Option Complex
  | _, [] => some (ofReal (Wide.ofRatio gammaBase))
  | k, (coefficient, places) :: rest => do
      let numerator := Wide.ofRatio (Ratio.of coefficient (Nat.pow 10 places))
      let summand ← quotient? (ofReal numerator) (plus z (ofInt k))
      return plus summand (← gammaSum? z (k + 1) rest)

/-- The factorial to the right of minus one half, up to small errors. -/
def rightFactorial? (z : Complex) : Option Complex := do
  let shifted := plus z (ofReal (Wide.ofRatio ⟨15, 2⟩))
  let power ← raise? shifted (plus z (ofReal Wide.one.halved))
  let decay ← exp? shifted.neg
  let sum ← gammaSum? z 1 gammaCoefficients
  let root := (Wide.pi.add Wide.pi).sqrt
  return scale root (times (times power decay) sum)

/-- The factorial continued to all numbers, by reflection to the left of minus one half. -/
def factorial? (z : Complex) : Option Complex :=
  if (z.re.add Wide.one.halved).isNegative then do
    let reflected ← rightFactorial? (minus z.neg one)
    let s ← sin? (scale Wide.pi (plus z one))
    quotient? (ofReal Wide.pi) (times s reflected)
  else rightFactorial? z

end Complex
end QuantityCalculus
