import QuantityCalculus.Term.Arithmetic

namespace QuantityCalculus
namespace Term

/-!
Functions of terms in normal form.

A function of a rounded number is computed.  Exact values are known for the
angles that are multiples of a quarter of a right angle's third or half, and
for the numbers that these lead back to.  A circular function of its own
inverse is undone, but an inverse function of a circular one is not, as the
angle may lie outside of its range.  The logarithm of an exponential is undone
if the exponent is real.
-/

/-- The value of a function of a rounded number, if it is real. -/
def rounded? (function : TermFunction) (term : Term) : Option Term :=
  match term with
  | .number (.rounded value) =>
      match function.value? (Complex.ofReal value) with
      | some z => if z.isReal then some (.number (Numeral.ofWide z.re)) else none
      | none => none
  | _ => none

/-- The square root of a whole number. -/
def root (radicand : Int) : Term := raise (ofInt radicand) half

/-- The multiple of half a turn that an angle is, if it is an exact one. -/
def halfTurns? (angle : Term) : Option Ratio :=
  match angle with
  | .pi => some Ratio.one
  | .times (.number (.exact ratio)) .pi => some ratio
  | .number value => if value.isZero then some Ratio.zero else none
  | _ => none

/-- The sines of the first quarter turn that are known, by the multiple of half a turn. -/
def knownSines : List (Ratio × Term) :=
  [(Ratio.zero, zero), (⟨1, 6⟩, half), (⟨1, 4⟩, product [half, root 2]),
   (⟨1, 3⟩, product [half, root 3]), (⟨1, 2⟩, one)]

/-- The sine of an angle from zero to half a turn. -/
def upperSine? (turns : Ratio) : Option Term :=
  let reflected := if Ratio.lt Ratio.half turns then Ratio.one.sub turns else turns
  knownSines.lookup reflected

/-- The sine of a multiple of half a turn, if it is known. -/
def exactSine? (turns : Ratio) : Option Term :=
  let reduced := turns.modulo (Ratio.ofInt 2)
  if reduced.lt Ratio.one then upperSine? reduced
  else (upperSine? (reduced.sub Ratio.one)).map negate

/-- The cosine of a multiple of half a turn, if it is known. -/
def exactCosine? (turns : Ratio) : Option Term := exactSine? (turns.add Ratio.half)

/-- One less the square of a term. -/
def oneMinusSquare (x : Term) : Term := difference one (raise x (ofInt 2))

/-- One more than the square of a term. -/
def onePlusSquare (x : Term) : Term := sum [one, raise x (ofInt 2)]

def squareRoot (x : Term) : Term := raise x half

/-- The sine of an inverse function. -/
def sineOfInverse? (angle : Term) : Option Term :=
  match angle with
  | .apply .arcsin x => some x
  | .apply .arccos x => some (squareRoot (oneMinusSquare x))
  | .apply .arctan x => some (quotient x (squareRoot (onePlusSquare x)))
  | _ => none

/-- The cosine of an inverse function. -/
def cosineOfInverse? (angle : Term) : Option Term :=
  match angle with
  | .apply .arccos x => some x
  | .apply .arcsin x => some (squareRoot (oneMinusSquare x))
  | .apply .arctan x => some (quotient one (squareRoot (onePlusSquare x)))
  | _ => none

/-- The tangent of an inverse function. -/
def tangentOfInverse? (angle : Term) : Option Term :=
  match angle with
  | .apply .arctan x => some x
  | .apply .arcsin x => some (quotient x (squareRoot (oneMinusSquare x)))
  | .apply .arccos x => some (quotient (squareRoot (oneMinusSquare x)) x)
  | _ => none

/-- The function of an angle without its minus sign, for an odd function. -/
def oddPart (function : TermFunction) (term : Term) : Term :=
  if term.isNegated then negate (.apply function (negate term)) else .apply function term

/-- The sine. -/
def sine (angle : Term) : Term :=
  match ((halfTurns? angle).bind exactSine?).or (sineOfInverse? angle) with
  | some known => known
  | none => oddPart .sin angle

/-- The cosine. -/
def cosine (angle : Term) : Term :=
  match ((halfTurns? angle).bind exactCosine?).or (cosineOfInverse? angle) with
  | some known => known
  | none => .apply .cos (if angle.isNegated then negate angle else angle)

/-- The tangent of a multiple of half a turn, if it is known. -/
def exactTangent? (turns : Ratio) : Option Term := do
  return quotient (← exactSine? turns) (← exactCosine? turns)

/-- The tangent. -/
def tangent (angle : Term) : Term :=
  match ((halfTurns? angle).bind exactTangent?).or (tangentOfInverse? angle) with
  | some known => known
  | none => oddPart .tan angle

/-- A multiple of half a turn. -/
def halfTurns (turns : Ratio) : Term := product [ofRatio turns, .pi]

/-- The angles whose sines are known exactly. -/
def knownArcSine? (x : Term) : Option Ratio :=
  (knownSines.find? fun entry => entry.2 == x).map Prod.fst

/-- The arc sine. -/
def arcSine (x : Term) : Term :=
  match knownArcSine? x with
  | some turns => halfTurns turns
  | none =>
      match knownArcSine? (negate x) with
      | some turns => halfTurns turns.neg
      | none => oddPart .arcsin x

/-- The arc cosine. -/
def arcCosine (x : Term) : Term :=
  match knownArcSine? x with
  | some turns => halfTurns (Ratio.half.sub turns)
  | none =>
      match knownArcSine? (negate x) with
      | some turns => halfTurns (Ratio.half.add turns)
      | none => .apply .arccos x

/-- The arc tangent. -/
def arcTangent (x : Term) : Term :=
  if x = zero then zero
  else if x = one then halfTurns ⟨1, 4⟩
  else if x = ofInt (-1) then halfTurns ⟨-1, 4⟩
  else oddPart .arctan x

/-- The natural logarithm. -/
def logarithm (x : Term) : Term :=
  match x with
  | .euler => one
  | .power .euler exponent => if exponent.sign.isReal then exponent else .apply .log x
  | .imaginary => product [half, .imaginary, .pi]
  | .number value =>
      if value.isOne then zero
      else if value.isZero then .unbounded
      else if value.isNegative then
        sum [product [.imaginary, .pi],
          match value.neg with
          | .rounded size => .number (Numeral.ofWide size.log)
          | size => if size.isOne then zero else .apply .log (.number size)]
      else
        match value with
        | .exact ratio =>
            if ratio.numerator = 1 then negate (.apply .log (ofInt ratio.denominator))
            else .apply .log x
        | .rounded _ => .apply .log x
  | x =>
      if x.isConstant && x.sign.isNegative then
        sum [product [.imaginary, .pi], .apply .log (negate x)]
      else .apply .log x

/-- Factorials of numbers beyond this are left as they are. -/
def factorialLimit : Nat := 20000

/-- The factorial of a whole number that is not negative. -/
def wholeFactorial (count : Nat) : Nat :=
  (List.range count).foldl (fun known n => known * (n + 1)) 1

/-- The factorial. -/
def factorial (x : Term) : Term :=
  match x.toInt? with
  | some (.ofNat count) =>
      if count ≤ factorialLimit then ofInt (wholeFactorial count) else .apply .factorial x
  | some (.negSucc _) => .unbounded
  | none => .apply .factorial x

/-- A function of a term that is not finite. -/
def applyInfinite (function : TermFunction) (term : Term) : Term :=
  match function, term with
  | _, .undefined => .undefined
  | .abs, _ => .infinite false
  | .log, .unbounded => .unbounded
  | .log, _ => .infinite false
  | .arcsin, _ | .arccos, _ => .unbounded
  | .arctan, .infinite negative => halfTurns (if negative then Ratio.half.neg else Ratio.half)
  | .factorial, .infinite false => .infinite false
  | _, _ => .undefined

/-- A function of a term. -/
def applied (function : TermFunction) (term : Term) : Term :=
  if !term.isFinite then applyInfinite function term
  else
    match rounded? function term with
    | some value => value
    | none =>
        match function with
        | .sin => sine term
        | .cos => cosine term
        | .tan => tangent term
        | .log => logarithm term
        | .arcsin => arcSine term
        | .arccos => arcCosine term
        | .arctan => arcTangent term
        | .abs => absolute term
        | .factorial => factorial term

/-! ## Remainders -/

/-- A remainder by a divisor that bounds the dividend: the dividend lies within one divisor. -/
def remainderWithin? (dividend divisor distance : Term) : Option Term :=
  if !distance.sign.isNegative then none
  else if divisor.sign.isPositive then
    if dividend.sign.isPositive then some (sum [distance, divisor])
    else if dividend.sign.isNegative then some (negate distance)
    else none
  else if divisor.sign.isNegative then
    if dividend.sign.isPositive then some distance
    else if dividend.sign.isNegative then some (sum [negate distance, divisor])
    else none
  else none

/-- The whole part of a real constant, rounded towards zero. -/
def wholePart? (term : Term) : Option Int := do
  let value ← term.constantValue?
  let size ← value.abs.toRatio?
  return if value.isNegative then -size.floor else size.floor

/-- The remainder by a ratio that is a number. -/
def remainderByRatio? (dividend divisor : Term) : Option Term := do
  let count ← wholePart? (quotient dividend divisor)
  let rest := difference dividend (product [ofInt count, divisor])
  return if (product [rest, divisor]).sign.isNegative then sum [rest, divisor] else rest

/-- The remainder where it is a number or simpler than a remainder. -/
def simpleRemainder? (dividend divisor : Term) : Option Term :=
  if !dividend.isFinite || !divisor.isFinite || divisor = zero then some .undefined
  else if dividend = zero || dividend = divisor || dividend = negate divisor then some zero
  else
    match dividend, divisor with
    | .number a, .number b => (a.modulo? b).map Term.number
    | _, _ =>
        let ratio := quotient dividend divisor
        if ratio.toInt?.isSome then some zero
        else
          match remainderByRatio? dividend divisor with
          | some rest => some rest
          | none =>
              let distance := difference (absolute dividend) (absolute divisor)
              if distance.sign.isNegative then remainderWithin? dividend divisor distance
              else
                let next := difference distance (absolute divisor)
                remainderWithin? dividend divisor next

/-- The remainder of a term that is no sum. -/
def remainderOfPart (dividend divisor : Term) : Term :=
  match simpleRemainder? dividend divisor with
  | some rest => rest
  | none => .remainder dividend divisor

/-- The remainder of a division rounded down. -/
def modulo (dividend divisor : Term) : Term :=
  match simpleRemainder? dividend divisor with
  | some rest => rest
  | none =>
      match dividend with
      | .remainder inner innerDivisor =>
          if remainderOfPart innerDivisor divisor = zero then remainderOfPart inner divisor
          else if (product [innerDivisor, difference divisor innerDivisor]).sign.isNotNegative then
            dividend
          else .remainder dividend divisor
      | .plus a b =>
          let reduced := (addends (.plus a b)).map fun part =>
            let rest := remainderOfPart part divisor
            if part.remainderCount < rest.remainderCount then part else rest
          remainderOfPart (sum reduced) divisor
      | _ => .remainder dividend divisor

end Term
end QuantityCalculus
