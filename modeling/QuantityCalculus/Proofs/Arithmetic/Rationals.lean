import Mathlib.Algebra.Order.Ring.Rat
import Mathlib.Data.Rat.Defs
import Mathlib.Tactic.NormNum
import QuantityCalculus.Proofs.Arithmetic.Exact

namespace QuantityCalculus

/-!
# The rational numbers as scalars

Where a statement in exact arithmetic is about the four operations only, the rational
numbers carry it out, and what they carry out can be computed.  Powers, roots, logarithms
and circular functions lead out of them; they are given no value here.
-/

instance rationalScalar : Scalar ℚ where
  ofInt number := number
  ofDecimal mantissa exponent := mantissa * (10 : ℚ) ^ exponent
  infinity := 0
  undefined := 0
  pi := 0
  euler := 0
  add a b := a + b
  sub a b := a - b
  mul a b := a * b
  div a b := a / b
  rem a b := a - b * ((a / b).num.tdiv (a / b).den : Int)
  pow _ _ := 0
  neg a := -a
  abs a := |a|
  sin _ := 0
  cos _ := 0
  tan _ := 0
  log _ := 0
  arcsin _ := 0
  arccos _ := 0
  arctan _ := 0
  eq a b := decide (a = b)
  le a b := decide (a ≤ b)
  lt a b := decide (a < b)
  isFinite _ := true
  truncate a := a.num.tdiv a.den
  ratio a := ⟨a.num, a.den⟩
  shortest a := Number.integerText (a.num.tdiv a.den)
  fixed _ a := Number.integerText (a.num.tdiv a.den)

instance rationalScalar_exact : ExactScalar ℚ where
  add_eq _ _ := rfl
  sub_eq _ _ := rfl
  mul_eq _ _ := rfl
  div_eq _ _ _ := rfl
  ofInt_eq _ := rfl
  ofDecimal_eq _ _ := rfl
  ten_ne_zero := by norm_num

end QuantityCalculus
