import QuantityCalculus.Expr.Basic
import QuantityCalculus.Magnitude
import QuantityCalculus.Number.Shown
import QuantityCalculus.Units.Basic

namespace QuantityCalculus

/-!
Quantities: a value, counted in a magnitude of a unit.

Arithmetic works on plain values, and its results are normalized: shown under
the magnitude that fits them.  A quantity that already stands in its bracket is
left as it is, so that normalizing again never rescales.  A sum keeps its unit
only when both operands carry the same one; a remainder and a power keep the
unit of the left operand.
-/

/-- A value in a unit and a magnitude. -/
structure Quantity (R : Type) where
  value : R
  unit : UnitOfMeasure
  magnitude : Magnitude
deriving Repr

variable {R : Type} [Scalar R]

/-- An operator applied to plain numbers; every result is a number. -/
def Operator.apply : Operator -> R -> R -> R
  | .add => Scalar.add
  | .subtract => Scalar.sub
  | .multiply => Scalar.mul
  | .divide => Scalar.div
  | .modulus => Scalar.rem
  | .power => Scalar.pow

namespace Quantity

/-- A plain value in a unit. -/
def ofUnit (value : R) (unit : UnitOfMeasure) : Quantity R :=
  ⟨value, unit, .plain⟩

/-- A plain number. -/
def ofScalar (value : R) : Quantity R :=
  ofUnit value .dimensionless

/-- The plain value, whatever the magnitude. -/
def base (quantity : Quantity R) : R :=
  Magnitude.rebase quantity.value quantity.magnitude .plain

theorem base_plain (value : R) (unit : UnitOfMeasure) : base ⟨value, unit, .plain⟩ = value :=
  Magnitude.rebase_same value .plain

@[simp] theorem base_ofUnit (value : R) (unit : UnitOfMeasure) : (ofUnit value unit).base = value :=
  base_plain value unit

@[simp] theorem base_ofScalar (value : R) : (ofScalar value).base = value :=
  base_ofUnit value _

/-- A quantity without a unit. -/
def isDimensionless (quantity : Quantity R) : Bool :=
  quantity.unit.isDimensionless

/-- The quantity under the magnitude that fits it; numbers without a unit are plain. -/
def normalize (quantity : Quantity R) : Quantity R :=
  if quantity.isDimensionless then ⟨quantity.base, quantity.unit, .plain⟩
  else if quantity.magnitude ≠ .yotta && Magnitude.inBracket quantity.value then quantity
  else
    let magnitude := Magnitude.bestFit quantity.base
    ⟨Magnitude.rebase quantity.base .plain magnitude, quantity.unit, magnitude⟩

/-- Another plain value in the same unit, normalized. -/
def withValue (quantity : Quantity R) (value : R) : Quantity R :=
  (ofUnit value quantity.unit).normalize

/-- The magnitude and unit as they are shown. -/
def label (quantity : Quantity R) : String :=
  quantity.magnitude.id ++ quantity.unit.label.symbol

/-- The quantity as it is shown. -/
def text (quantity : Quantity R) : String :=
  let number := String.ofList (Number.valueText quantity.value)
  if quantity.label = "" then number else number ++ "[" ++ quantity.label ++ "]"

/-- Equal values in the same unit and magnitude; an undefined value equals nothing. -/
def same (left right : Quantity R) : Bool :=
  Scalar.eq left.value right.value && left.unit.same right.unit &&
    left.magnitude == right.magnitude

/-- A sum or difference. -/
def linear (op : Operator) (left right : Quantity R) : Quantity R :=
  let unit := if left.unit.same right.unit then left.unit else .dimensionless
  (ofUnit (op.apply left.base right.base) unit).normalize

/-- The remainder of a division. -/
def modulus (left right : Quantity R) : Quantity R :=
  left.withValue (Operator.modulus.apply left.base right.base)

/-- A power. -/
def power (left right : Quantity R) : Quantity R :=
  left.withValue (Operator.power.apply left.base right.base)

end Quantity
end QuantityCalculus
