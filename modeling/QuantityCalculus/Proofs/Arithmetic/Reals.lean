import Mathlib.Analysis.SpecialFunctions.Pow.Real
import Mathlib.Analysis.SpecialFunctions.Trigonometric.Arctan
import Mathlib.Analysis.SpecialFunctions.Trigonometric.Inverse
import QuantityCalculus.Proofs.Arithmetic.Exact

namespace QuantityCalculus

/-!
# The real numbers as scalars

The real numbers carry out exactly what the calculator approximates, the powers,
logarithms and circular functions included.  A real number has no finite text
in general, so the functions that show numbers give its whole part; no
statement in exact arithmetic looks at them.
-/

open Classical in
noncomputable instance realScalar : Scalar ℝ where
  ofInt number := number
  ofDecimal mantissa exponent := mantissa * (10 : ℝ) ^ exponent
  infinity := 0
  undefined := 0
  pi := Real.pi
  euler := Real.exp 1
  add a b := a + b
  sub a b := a - b
  mul a b := a * b
  div a b := a / b
  rem a b := a - b * (if 0 ≤ a / b then ⌊a / b⌋ else ⌈a / b⌉ : Int)
  pow a b := a ^ b
  neg a := -a
  abs a := |a|
  sin := Real.sin
  cos := Real.cos
  tan := Real.tan
  log := Real.log
  arcsin := Real.arcsin
  arccos := Real.arccos
  arctan := Real.arctan
  eq a b := decide (a = b)
  le a b := decide (a ≤ b)
  lt a b := decide (a < b)
  isFinite _ := true
  truncate a := if 0 ≤ a then ⌊a⌋ else ⌈a⌉
  ratio a := Ratio.ofInt ⌊a⌋
  shortest a := Number.integerText ⌊a⌋
  fixed _ a := Number.integerText ⌊a⌋

instance realScalar_exact : ExactScalar ℝ where
  add_eq _ _ := rfl
  sub_eq _ _ := rfl
  mul_eq _ _ := rfl
  div_eq _ _ _ := rfl
  ofInt_eq _ := rfl
  ofDecimal_eq _ _ := rfl
  ten_ne_zero := by norm_num

end QuantityCalculus
