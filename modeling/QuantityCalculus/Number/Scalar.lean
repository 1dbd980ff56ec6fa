import QuantityCalculus.Number.Ratio

namespace QuantityCalculus

/-!
The numbers that expressions are about.

Everything above this module (expressions, quantities, registries, evaluation,
solving, plotting) is written for an arbitrary type of scalars, so that one
definition serves two purposes.  With the binary floating-point numbers it is
the calculator; with an exact field it is the arithmetic that the calculator
approximates.  The class lists what the definitions use and asks for no laws:
a law that a statement depends on is a hypothesis of that statement.

Undefined and infinite results are values, never failures.  Comparisons are
therefore Boolean functions of their own, because an undefined value is
neither below, above, nor equal to anything.
-/

/-- The operations that expressions and quantities need of their numbers. -/
class Scalar (R : Type) where
  /-- A whole number. -/
  ofInt : Int -> R
  /-- `ofDecimal mantissa exponent` is the mantissa times that power of ten. -/
  ofDecimal : Nat -> Int -> R
  /-- The value of an overflow. -/
  infinity : R
  /-- The value of an operation that has none. -/
  undefined : R
  /-- The circle constant. -/
  pi : R
  /-- The base of the natural logarithm. -/
  euler : R
  add : R -> R -> R
  sub : R -> R -> R
  mul : R -> R -> R
  div : R -> R -> R
  /-- The remainder of a division rounded towards zero. -/
  rem : R -> R -> R
  pow : R -> R -> R
  neg : R -> R
  abs : R -> R
  sin : R -> R
  cos : R -> R
  tan : R -> R
  /-- The natural logarithm. -/
  log : R -> R
  arcsin : R -> R
  arccos : R -> R
  arctan : R -> R
  eq : R -> R -> Bool
  le : R -> R -> Bool
  lt : R -> R -> Bool
  isFinite : R -> Bool
  /-- The whole part of a finite number, rounded towards zero. -/
  truncate : R -> Int
  /-- The exact value of a finite number. -/
  ratio : R -> Ratio
  /-- The shortest decimal text that reads back as the number. -/
  shortest : R -> List Char
  /-- The decimal text with a given number of places after the point. -/
  fixed : Nat -> R -> List Char

namespace Scalar

variable {R : Type} [Scalar R]

/-- The whole number that a number is, if it is one. -/
def toInt? (value : R) : Option Int :=
  if isFinite value && eq value (ofInt (truncate value)) then some (truncate value) else none

/-- Every comparison with an undefined value fails, also the one with itself. -/
def isUndefined (value : R) : Bool :=
  !eq value value

/-- A power of ten with a whole exponent. -/
def tenTo (exponent : Int) : R :=
  ofDecimal 1 exponent

end Scalar
end QuantityCalculus
