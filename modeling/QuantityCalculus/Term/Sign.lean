import QuantityCalculus.Term.Value

namespace QuantityCalculus

/-!
What is known about the sign of a term.

Every symbol is positive.  What follows for a term is an approximation: it says
which signs the term may have, and whether it is certainly real.  Terms without
symbols are computed.
-/

/-- The signs a term may have, if it is real. -/
structure Sign where
  isReal : Bool
  mayBeNegative : Bool
  mayBeZero : Bool
  mayBePositive : Bool
deriving DecidableEq, Repr

namespace Sign

def positive : Sign := ⟨true, false, false, true⟩

def negative : Sign := ⟨true, true, false, false⟩

def zero : Sign := ⟨true, false, true, false⟩

def notNegative : Sign := ⟨true, false, true, true⟩

/-- A real number about which nothing else is known. -/
def real : Sign := ⟨true, true, true, true⟩

/-- Nothing is known. -/
def any : Sign := ⟨false, true, true, true⟩

def isPositive (sign : Sign) : Bool := sign.isReal && !sign.mayBeNegative && !sign.mayBeZero

def isNegative (sign : Sign) : Bool := sign.isReal && !sign.mayBePositive && !sign.mayBeZero

def isNotNegative (sign : Sign) : Bool := sign.isReal && !sign.mayBeNegative

def isNotPositive (sign : Sign) : Bool := sign.isReal && !sign.mayBePositive

def isNotZero (sign : Sign) : Bool := sign.isReal && !sign.mayBeZero

def ofWide (value : Wide) : Sign :=
  if value.isZero then zero else if value.isNegative then negative else positive

/-- The sign of a sum. -/
def plus (a b : Sign) : Sign where
  isReal := a.isReal && b.isReal
  mayBeNegative := a.mayBeNegative || b.mayBeNegative
  mayBeZero :=
    (a.mayBeZero && b.mayBeZero) || (a.mayBePositive && b.mayBeNegative)
      || (a.mayBeNegative && b.mayBePositive)
  mayBePositive := a.mayBePositive || b.mayBePositive

/-- The sign of a product. -/
def times (a b : Sign) : Sign where
  isReal := a.isReal && b.isReal
  mayBeNegative :=
    (a.mayBePositive && b.mayBeNegative) || (a.mayBeNegative && b.mayBePositive)
  mayBeZero := a.mayBeZero || b.mayBeZero
  mayBePositive :=
    (a.mayBePositive && b.mayBePositive) || (a.mayBeNegative && b.mayBeNegative)

/-- The sign of a power with a whole exponent. -/
def raise (base : Sign) (exponent : Int) : Sign :=
  if exponent < 0 && base.mayBeZero then { any with isReal := false }
  else if exponent % 2 = 0 then
    { isReal := base.isReal, mayBeNegative := !base.isReal, mayBeZero := base.mayBeZero
      mayBePositive := true }
  else base

/-- The sign of a power. -/
def power (base exponent : Sign) (wholeExponent : Option Int) : Sign :=
  match wholeExponent with
  | some count => base.raise count
  | none =>
      if base.isPositive && exponent.isReal then positive
      else if base.isNotNegative && exponent.isPositive then notNegative
      else any

/-- The sign of a function of a term with a sign. -/
def apply (argument : Sign) : TermFunction -> Sign
  | .abs =>
      { isReal := true, mayBeNegative := false, mayBeZero := argument.mayBeZero
        mayBePositive := true }
  | .sin | .cos | .tan => if argument.isReal then real else any
  | .arctan => if argument.isReal then { argument with isReal := true } else any
  | .log => if argument.isPositive then real else any
  | .factorial => if argument.isNotNegative then real else any
  | .arcsin | .arccos => any

end Sign

namespace Term

/-- What is known of the sign of a term; a part without symbols that is no chain is computed. -/
def sign (term : Term) : Sign :=
  match term with
  | .number value =>
      if value.isZero then Sign.zero else if value.isNegative then Sign.negative
      else Sign.positive
  | .pi | .euler | .symbol _ => Sign.positive
  | .plus a b =>
      match constantValue? (.plus a b) with
      | some value => Sign.ofWide value
      | none => a.sign.plus b.sign
  | .times a b => a.sign.times b.sign
  | .power a b =>
      match constantValue? (.power a b) with
      | some value => Sign.ofWide value
      | none => a.sign.power b.sign b.toInt?
  | .apply function a =>
      match constantValue? (.apply function a) with
      | some value => Sign.ofWide value
      | none => a.sign.apply function
  | .remainder a b =>
      if a.sign.isReal && b.sign.isPositive then Sign.notNegative
      else if a.sign.isReal && b.sign.isReal then Sign.real
      else Sign.any
  | .infinite negative => if negative then Sign.negative else Sign.positive
  | .imaginary | .undefined | .unbounded => Sign.any

/-- A term that is certainly finite. -/
def isFinite (term : Term) : Bool :=
  match term with
  | .undefined | .unbounded | .infinite _ => false
  | _ => true

end Term
end QuantityCalculus
