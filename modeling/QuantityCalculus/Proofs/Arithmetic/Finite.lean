import Mathlib.Algebra.Order.Field.Basic
import Mathlib.Algebra.Order.Floor.Ring
import Mathlib.Data.Rat.Floor
import QuantityCalculus.Proofs.Arithmetic.Rationals

namespace QuantityCalculus

/-!
# Exact arithmetic where there is a value

A sample of a plot need not be a number: a quotient by zero is infinite, and the root of a
negative number is nothing at all.  So the numbers that a plot computes with are not a field.
What stands in for exact arithmetic here is a partial map into an ordered field: the scalars
that are finite have a value, and with these values the operations are those of the field.

Nothing is asked of the scalars without a value.  What dividing by zero gives and what cutting
a negative number down to a whole one gives is left open too.
-/

/-- Scalars whose finite ones stand for numbers of an ordered field and are computed exactly. -/
class ExactWhereFinite (R : Type) (K : outParam Type) [Scalar R] [Field K] [LinearOrder K] where
  /-- The number that a scalar stands for, if it is finite. -/
  value? : R -> Option K
  isFinite_eq : forall a : R, Scalar.isFinite a = (value? a).isSome
  ofInt_eq : forall number : Int, value? (Scalar.ofInt number) = some (number : K)
  ofDecimal_eq : forall (mantissa : Nat) (exponent : Int),
    value? (Scalar.ofDecimal mantissa exponent) = some (mantissa * (10 : K) ^ exponent)
  sub_eq : forall {a b : R} {u v : K}, value? a = some u -> value? b = some v ->
    value? (Scalar.sub a b) = some (u - v)
  mul_eq : forall {a b : R} {u v : K}, value? a = some u -> value? b = some v ->
    value? (Scalar.mul a b) = some (u * v)
  div_eq : forall {a b : R} {u v : K}, value? a = some u -> value? b = some v -> v ≠ 0 ->
    value? (Scalar.div a b) = some (u / v)
  abs_eq : forall {a : R} {u : K}, value? a = some u -> value? (Scalar.abs a) = some |u|
  lt_eq : forall {a b : R} {u v : K}, value? a = some u -> value? b = some v ->
    Scalar.lt a b = decide (u < v)
  eq_eq : forall {a b : R} {u v : K}, value? a = some u -> value? b = some v ->
    Scalar.eq a b = decide (u = v)
  truncate_bounds : forall {a : R} {u : K}, value? a = some u -> 0 ≤ u ->
    (Scalar.truncate a : K) ≤ u ∧ u < Scalar.truncate a + 1

export ExactWhereFinite (value?)

/-! ## The rational numbers and a place without a value -/

/-- The operations of the rational numbers, which give nothing where they are given nothing. -/
instance missingScalar : Scalar (Option ℚ) where
  ofInt number := some (Scalar.ofInt number)
  ofDecimal mantissa exponent := some (Scalar.ofDecimal mantissa exponent)
  infinity := none
  undefined := none
  pi := some Scalar.pi
  euler := some Scalar.euler
  add := Option.map₂ Scalar.add
  sub := Option.map₂ Scalar.sub
  mul := Option.map₂ Scalar.mul
  div a b := if b = some 0 then none else Option.map₂ Scalar.div a b
  rem := Option.map₂ Scalar.rem
  pow := Option.map₂ Scalar.pow
  neg := Option.map Scalar.neg
  abs := Option.map Scalar.abs
  sin := Option.map Scalar.sin
  cos := Option.map Scalar.cos
  tan := Option.map Scalar.tan
  log := Option.map Scalar.log
  arcsin := Option.map Scalar.arcsin
  arccos := Option.map Scalar.arccos
  arctan := Option.map Scalar.arctan
  eq a b := (Option.map₂ Scalar.eq a b).getD false
  le a b := (Option.map₂ Scalar.le a b).getD false
  lt a b := (Option.map₂ Scalar.lt a b).getD false
  isFinite := Option.isSome
  truncate a := (a.map Scalar.truncate).getD 0
  ratio a := Scalar.ratio (a.getD 0)
  shortest a := Scalar.shortest (a.getD 0)
  fixed places a := Scalar.fixed places (a.getD 0)

theorem rationalScalar_truncate {u : ℚ} (nonnegative : 0 ≤ u) :
    (Scalar.truncate u : ℚ) ≤ u ∧ u < Scalar.truncate u + 1 := by
  have isFloor : Scalar.truncate u = ⌊u⌋ := by
    rw [Rat.floor_def']
    exact Int.tdiv_eq_ediv_of_nonneg (Rat.num_nonneg.mpr nonnegative)
  rw [isFloor]
  exact ⟨Int.floor_le u, Int.lt_floor_add_one u⟩

instance missingScalar_exact : ExactWhereFinite (Option ℚ) ℚ where
  value? := id
  isFinite_eq _ := rfl
  ofInt_eq _ := rfl
  ofDecimal_eq _ _ := rfl
  sub_eq := by rintro _ _ _ _ ⟨⟩ ⟨⟩; rfl
  mul_eq := by rintro _ _ _ _ ⟨⟩ ⟨⟩; rfl
  div_eq := by
    rintro _ _ u v ⟨⟩ ⟨⟩ notZero
    exact if_neg fun zero => notZero (Option.some.inj zero)
  abs_eq := by rintro _ _ ⟨⟩; rfl
  lt_eq := by rintro _ _ _ _ ⟨⟩ ⟨⟩; rfl
  eq_eq := by rintro _ _ _ _ ⟨⟩ ⟨⟩; rfl
  truncate_bounds := by rintro _ _ ⟨⟩ nonnegative; exact rationalScalar_truncate nonnegative

end QuantityCalculus
