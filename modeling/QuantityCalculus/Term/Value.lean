import QuantityCalculus.Term.Basic

namespace QuantityCalculus

/-!
The value of a term at a point.

A point gives each symbol a number.  Values are complex; a term that is
undefined or infinite somewhere has no value.
-/

/-- The numbers that symbols stand for. -/
abbrev Point := List (String × Wide)

/-- The function on complex numbers. -/
def TermFunction.value? : TermFunction -> Complex -> Option Complex
  | .sin => Complex.sin?
  | .cos => Complex.cos?
  | .tan => Complex.tan?
  | .log => Complex.log?
  | .arcsin => Complex.arcsin?
  | .arccos => Complex.arccos?
  | .arctan => Complex.arctan?
  | .abs => fun z => some (Complex.ofReal z.modulus)
  | .factorial => Complex.factorial?

namespace Term

/-- A power whose base or exponent calls for a function of its own. -/
def powerValue? (base exponent : Term) (baseValue exponentValue : Complex) : Option Complex :=
  match base, exponent with
  | .euler, _ => exponentValue.exp?
  | _, .number (.exact ratio) =>
      if ratio = Ratio.half then baseValue.sqrt?
      else if baseValue.isReal && !baseValue.re.isNegative && !baseValue.re.isZero
          && !ratio.isWhole then
        (baseValue.re.raisePositive? ratio).map Complex.ofReal
      else baseValue.raise? exponentValue
  | _, _ => baseValue.raise? exponentValue

/-- The value of a term at a point, if it has one. -/
def value? (point : Point) : Term -> Option Complex
  | .number value => some (Complex.ofReal value.toWide)
  | .pi => some (Complex.ofReal Wide.pi)
  | .euler => Complex.one.exp?
  | .imaginary => some Complex.unit
  | .symbol name => (point.lookup name).map Complex.ofReal
  | .plus a b => do return Complex.plus (← a.value? point) (← b.value? point)
  | .times a b => do return Complex.times (← a.value? point) (← b.value? point)
  | .power a b => do powerValue? a b (← a.value? point) (← b.value? point)
  | .apply function a => do function.value? (← a.value? point)
  | .remainder a b => do Complex.modulo? (← a.value? point) (← b.value? point)
  | .undefined | .unbounded | .infinite _ => none

/-- The value of a real term without symbols. -/
def constantValue? (term : Term) : Option Wide :=
  if term.isConstant then
    match term.value? [] with
    | some z => if z.isReal then some z.re else none
    | none => none
  else none

end Term
end QuantityCalculus
