namespace QuantityCalculus

/-!
Exact quotients of whole numbers.

A quotient is kept in lowest terms with a positive denominator, so equal
quotients are the same value.
-/

/-- A quotient of whole numbers in lowest terms. -/
structure Ratio where
  numerator : Int
  denominator : Nat
deriving DecidableEq, Ord, Repr

namespace Ratio

/-- The quotient of a whole number and a positive one. -/
def of (numerator : Int) (denominator : Nat) : Ratio :=
  let common := Nat.gcd numerator.natAbs denominator
  ⟨numerator.tdiv common, denominator / common⟩

/-- A whole number. -/
def ofInt (number : Int) : Ratio := ⟨number, 1⟩

def zero : Ratio := ofInt 0

def one : Ratio := ofInt 1

def half : Ratio := ⟨1, 2⟩

def isWhole (ratio : Ratio) : Bool := ratio.denominator == 1

def isNegative (ratio : Ratio) : Bool := decide (ratio.numerator < 0)

def neg (ratio : Ratio) : Ratio := ⟨-ratio.numerator, ratio.denominator⟩

def abs (ratio : Ratio) : Ratio := ⟨ratio.numerator.natAbs, ratio.denominator⟩

def add (a b : Ratio) : Ratio :=
  of (a.numerator * b.denominator + b.numerator * a.denominator) (a.denominator * b.denominator)

def sub (a b : Ratio) : Ratio := a.add b.neg

def mul (a b : Ratio) : Ratio :=
  of (a.numerator * b.numerator) (a.denominator * b.denominator)

/-- One over a quotient that is not zero. -/
def inverse (ratio : Ratio) : Ratio :=
  let size : Int := ratio.denominator
  ⟨if ratio.isNegative then -size else size, ratio.numerator.natAbs⟩

/-- The greatest whole number that is not above a quotient. -/
def floor (ratio : Ratio) : Int := ratio.numerator.fdiv ratio.denominator

/-- What is left of a quotient above its floor. -/
def fraction (ratio : Ratio) : Ratio := ratio.sub (ofInt ratio.floor)

/-- The remainder of a division rounded down; the divisor is not zero. -/
def modulo (a b : Ratio) : Ratio :=
  a.sub (b.mul (ofInt (a.mul b.inverse).floor))

/-- A power with an exponent that counts factors. -/
def raise (ratio : Ratio) (exponent : Nat) : Ratio :=
  let size : Int := (Nat.pow ratio.numerator.natAbs exponent : Nat)
  ⟨if ratio.isNegative && exponent % 2 = 1 then -size else size,
    Nat.pow ratio.denominator exponent⟩

/-- One quotient is below another. -/
def lt (a b : Ratio) : Bool := (a.sub b).isNegative

end Ratio
end QuantityCalculus
