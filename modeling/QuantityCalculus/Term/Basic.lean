import QuantityCalculus.Number.Complex

namespace QuantityCalculus

/-!
Terms: expressions as symbolic arithmetic sees them.

Where the evaluation of an expression gives a number, symbolic arithmetic keeps
names as they are and brings what stands around them into a normal form.  Whole
numbers and their quotients are exact and of any size; literals with a fraction
part are rounded.  Every symbol stands for some positive number.

A sum and a product are chains of their parts.  This module defines the terms,
their order, and how chains are taken apart and put together; the normal form
itself is built elsewhere.
-/

/-- A number in a term: exact, or rounded and not zero. -/
inductive Numeral where
  | exact (value : Ratio)
  | rounded (value : Wide)
deriving DecidableEq, Ord, Repr

namespace Numeral

def ofInt (number : Int) : Numeral := .exact (Ratio.ofInt number)

def zero : Numeral := ofInt 0

def one : Numeral := ofInt 1

/-- A rounded number; a rounded zero is the exact one. -/
def ofWide (value : Wide) : Numeral := if value.isZero then zero else .rounded value

def toWide : Numeral -> Wide
  | .exact value => Wide.ofRatio value
  | .rounded value => value

def isZero (number : Numeral) : Bool := number == zero

def isOne (number : Numeral) : Bool := number == one

def isNegative : Numeral -> Bool
  | .exact value => value.isNegative
  | .rounded value => value.isNegative

def isExact : Numeral -> Bool
  | .exact _ => true
  | .rounded _ => false

/-- The whole number that an exact number is, if it is one. -/
def toInt? : Numeral -> Option Int
  | .exact value => if value.isWhole then some value.numerator else none
  | .rounded _ => none

/-- An operation on exact numbers, or on rounded ones as soon as one of them is rounded. -/
def combine (onExact : Ratio -> Ratio -> Ratio) (onRounded : Wide -> Wide -> Wide) :
    Numeral -> Numeral -> Numeral
  | .exact a, .exact b => .exact (onExact a b)
  | a, b => ofWide (onRounded a.toWide b.toWide)

def add : Numeral -> Numeral -> Numeral := combine Ratio.add Wide.add

def mul (a b : Numeral) : Numeral :=
  if a.isZero || b.isZero then zero else combine Ratio.mul Wide.mul a b

def neg : Numeral -> Numeral
  | .exact value => .exact value.neg
  | .rounded value => .rounded value.neg

def abs (number : Numeral) : Numeral := if number.isNegative then number.neg else number

/-- One over a number that is not zero. -/
def inverse : Numeral -> Numeral
  | .exact value => .exact value.inverse
  | .rounded value => ofWide (Wide.one.div value)

/-- One number is below another. -/
def lt (a b : Numeral) : Bool := (a.add b.neg).isNegative

/-- The remainder of a division rounded down by a number that is not zero. -/
def modulo? : Numeral -> Numeral -> Option Numeral
  | .exact a, .exact b => some (.exact (a.modulo b))
  | a, b => (a.toWide.modulo? b.toWide).map ofWide

end Numeral

/-- The functions in terms. -/
inductive TermFunction where
  | sin | cos | tan | log | arcsin | arccos | arctan | abs | factorial
deriving DecidableEq, Repr

/-- A place in some fixed order. -/
def TermFunction.rank : TermFunction -> Nat
  | .sin => 0
  | .cos => 1
  | .tan => 2
  | .log => 3
  | .arcsin => 4
  | .arccos => 5
  | .arctan => 6
  | .abs => 7
  | .factorial => 8

/-- A term. -/
inductive Term where
  | number (value : Numeral)
  /-- No value at all. -/
  | undefined
  /-- Infinite, in no direction. -/
  | unbounded
  | infinite (negative : Bool)
  | pi
  | euler
  | imaginary
  | symbol (name : String)
  | plus (first rest : Term)
  | times (first rest : Term)
  | power (base exponent : Term)
  | apply (function : TermFunction) (argument : Term)
  | remainder (dividend divisor : Term)
deriving DecidableEq, Repr

namespace Term

def ofInt (number : Int) : Term := .number (Numeral.ofInt number)

def ofRatio (ratio : Ratio) : Term := .number (.exact ratio)

def zero : Term := ofInt 0

def one : Term := ofInt 1

def half : Term := ofRatio Ratio.half

/-! ## Order -/

/-- A place in the order of the kinds of terms. -/
def rank : Term -> Nat
  | .number _ => 0
  | .undefined => 1
  | .unbounded => 2
  | .infinite _ => 3
  | .pi => 4
  | .euler => 5
  | .imaginary => 6
  | .symbol _ => 7
  | .plus .. => 8
  | .times .. => 9
  | .power .. => 10
  | .apply .. => 11
  | .remainder .. => 12

/-- The order of terms: by kind, and by parts within a kind. -/
def order : Term -> Term -> Ordering
  | .number a, .number b => compare a b
  | .infinite a, .infinite b => compare a b
  | .symbol a, .symbol b => compare a b
  | .plus a b, .plus c d => (order a c).then (order b d)
  | .times a b, .times c d => (order a c).then (order b d)
  | .power a b, .power c d => (order a c).then (order b d)
  | .remainder a b, .remainder c d => (order a c).then (order b d)
  | .apply f a, .apply g b => (compare f.rank g.rank).then (order a b)
  | a, b => compare a.rank b.rank

/-- A list in the order of terms that belong to its members. -/
def sortedBy {α : Type} (key : α -> Term) (members : List α) : List α :=
  members.mergeSort fun a b => (order (key a) (key b)).isLE

/-! ## Chains -/

/-- The parts of a sum. -/
def addends : Term -> List Term
  | .plus first rest => first.addends ++ rest.addends
  | term => [term]

/-- The parts of a product. -/
def factors : Term -> List Term
  | .times first rest => first.factors ++ rest.factors
  | term => [term]

/-- The sum of some parts as they are. -/
def chainSum : List Term -> Term
  | [] => zero
  | [term] => term
  | term :: rest => .plus term (chainSum rest)

/-- The product of some parts as they are. -/
def chainProduct : List Term -> Term
  | [] => one
  | [term] => term
  | term :: rest => .times term (chainProduct rest)

/-- The leading number of a product, and what it multiplies. -/
def splitCoefficient : Term -> Numeral × Term
  | .number value => (value, one)
  | .times (.number value) rest => (value, rest)
  | term => (Numeral.one, term)

/-- A number times a term that starts with no number. -/
def withCoefficient (value : Numeral) (term : Term) : Term :=
  if value.isOne then term
  else if term = one then .number value
  else .times (.number value) term

/-- The base and the exponent of a power; any other term is a power of itself. -/
def splitPower : Term -> Term × Term
  | .power base exponent => (base, exponent)
  | term => (term, one)

/-! ## Views -/

/-- The whole number that a term is, if it is one. -/
def toInt? : Term -> Option Int
  | .number value => value.toInt?
  | _ => none

/-- The symbols of a term. -/
def symbols : Term -> List String
  | .symbol name => [name]
  | .plus a b | .times a b | .power a b | .remainder a b => a.symbols ++ b.symbols
  | .apply _ a => a.symbols
  | _ => []

/-- A term without symbols. -/
def isConstant (term : Term) : Bool := term.symbols.isEmpty

/-- How many remainders a term holds. -/
def remainderCount : Term -> Nat
  | .plus a b | .times a b | .power a b => a.remainderCount + b.remainderCount
  | .remainder a b => a.remainderCount + b.remainderCount + 1
  | .apply _ a => a.remainderCount
  | _ => 0

/-- A term that starts with a minus sign. -/
def isNegated (term : Term) : Bool :=
  match (term.addends.filter fun part => !part.isConstant) ++ term.addends with
  | part :: _ => part.splitCoefficient.1.isNegative
  | [] => false

end Term
end QuantityCalculus
