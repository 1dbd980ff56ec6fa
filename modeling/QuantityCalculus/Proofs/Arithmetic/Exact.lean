import Mathlib.Algebra.Field.Basic
import Mathlib.Tactic.FieldSimp
import Mathlib.Tactic.Ring
import QuantityCalculus.Evaluation

namespace QuantityCalculus

/-!
# Exact arithmetic

The calculator computes with rounded numbers.  A statement about what its
expressions mean is a statement about the numbers that rounding approximates:
scalars that form a field, in which the four operations are those of the field
and a decimal is its exact value.

`ExactScalar` asks for nothing else.  A quotient is the field's quotient only
where the divisor is not zero, and powers, roots, logarithms and circular
functions are arbitrary functions.  Under these laws a magnitude only changes
how a quantity is shown: normalizing keeps the plain value, so the plain value
of every operation on quantities is the operation on the plain values.
-/

/-- Scalars whose four operations and decimals are those of a field. -/
class ExactScalar (K : Type) [Field K] [Scalar K] : Prop where
  add_eq : forall a b : K, Scalar.add a b = a + b
  sub_eq : forall a b : K, Scalar.sub a b = a - b
  mul_eq : forall a b : K, Scalar.mul a b = a * b
  /-- What dividing by zero gives is left open. -/
  div_eq : forall a b : K, b ≠ 0 -> Scalar.div a b = a / b
  ofInt_eq : forall number : Int, (Scalar.ofInt number : K) = number
  ofDecimal_eq : forall (mantissa : Nat) (exponent : Int),
    (Scalar.ofDecimal mantissa exponent : K) = mantissa * (10 : K) ^ exponent
  ten_ne_zero : (10 : K) ≠ 0

variable {K : Type} [Field K] [Scalar K] [ExactScalar K]

theorem tenTo_eq (exponent : Int) : (Scalar.tenTo exponent : K) = (10 : K) ^ exponent := by
  rw [Scalar.tenTo, ExactScalar.ofDecimal_eq, Nat.cast_one, one_mul]

theorem tenTo_ne_zero (exponent : Int) : (Scalar.tenTo exponent : K) ≠ 0 := by
  rw [tenTo_eq]
  exact zpow_ne_zero exponent ExactScalar.ten_ne_zero

/-! ## Magnitudes -/

/-- Rescaling multiplies by a power of ten, whichever way it goes. -/
theorem Magnitude.rebase_eq (value : K) (source target : Magnitude) :
    Magnitude.rebase value source target =
      value * (10 : K) ^ (source.exponent - target.exponent) := by
  unfold Magnitude.rebase
  dsimp only
  split
  · rename_i same
    rw [same, zpow_zero, mul_one]
  · split
    · rw [ExactScalar.mul_eq, tenTo_eq]
    · rw [ExactScalar.div_eq _ _ (tenTo_ne_zero _), tenTo_eq, zpow_neg, div_inv_eq_mul]

theorem Magnitude.rebase_rebase (value : K) (first second third : Magnitude) :
    Magnitude.rebase (Magnitude.rebase value first second) second third =
      Magnitude.rebase value first third := by
  simp only [Magnitude.rebase_eq]
  rw [mul_assoc, ← zpow_add₀ ExactScalar.ten_ne_zero, sub_add_sub_cancel]

/-- Counting a plain value under a magnitude loses nothing. -/
theorem Magnitude.rebase_plain_rebase (value : K) (magnitude : Magnitude) :
    Magnitude.rebase (Magnitude.rebase value .plain magnitude) magnitude .plain = value := by
  rw [Magnitude.rebase_rebase, Magnitude.rebase_same]

/-! ## Quantities -/

namespace Quantity

omit [Field K] [ExactScalar K] in
@[simp] theorem unit_normalize (quantity : Quantity K) :
    quantity.normalize.unit = quantity.unit := by
  unfold normalize
  split
  · rfl
  · split <;> rfl

omit [Field K] [ExactScalar K] in
@[simp] theorem unit_withValue (quantity : Quantity K) (value : K) :
    (quantity.withValue value).unit = quantity.unit :=
  unit_normalize _

theorem base_eq (quantity : Quantity K) :
    quantity.base = quantity.value * (10 : K) ^ quantity.magnitude.exponent := by
  rw [base, Magnitude.rebase_eq]
  exact congrArg (quantity.value * (10 : K) ^ ·) (Int.sub_zero _)

/-- Counting the plain value under the magnitude of a quantity gives the number it is shown by. -/
theorem rebase_base (quantity : Quantity K) :
    Magnitude.rebase quantity.base .plain quantity.magnitude = quantity.value := by
  rw [base, Magnitude.rebase_rebase, Magnitude.rebase_same]

@[simp] theorem base_normalize (quantity : Quantity K) :
    quantity.normalize.base = quantity.base := by
  unfold normalize
  split
  · exact Magnitude.rebase_same _ _
  · split
    · rfl
    · exact Magnitude.rebase_plain_rebase _ _

@[simp] theorem base_withValue (quantity : Quantity K) (value : K) :
    (quantity.withValue value).base = value := by
  rw [withValue, base_normalize, base_ofUnit]

@[simp] theorem base_linear (op : Operator) (left right : Quantity K) :
    (linear op left right).base = op.apply left.base right.base := by
  rw [linear, base_normalize, base_ofUnit]

@[simp] theorem base_power (left right : Quantity K) :
    (left.power right).base = Scalar.pow left.base right.base :=
  base_withValue _ _

@[simp] theorem base_modulus (left right : Quantity K) :
    (left.modulus right).base = Scalar.rem left.base right.base :=
  base_withValue _ _

end Quantity

end QuantityCalculus
