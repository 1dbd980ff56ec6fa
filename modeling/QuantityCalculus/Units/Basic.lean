import QuantityCalculus.Expr.Basic

namespace QuantityCalculus

/-!
Units of measure.

A unit belongs to a catalog and has a symbol there; two units are the same unit
when both agree.  A catalog may be replaced by a newer one while quantities in
the older units are still around.  The edition tells apart a unit from its
successor of the same label: it says which definition's relations apply, and
takes no part in comparing units.
-/

/-- What a unit is known by. -/
structure UnitLabel where
  catalog : String
  symbol : String
deriving DecidableEq, Repr

/-- A unit: its label, and the definition it comes from. -/
structure UnitOfMeasure where
  label : UnitLabel
  edition : Nat
deriving DecidableEq, Repr

namespace UnitOfMeasure

/-- The unit of plain numbers. -/
def dimensionless : UnitOfMeasure := ⟨⟨"", ""⟩, 0⟩

/-- A unit without a symbol is no unit. -/
def isDimensionless (unit : UnitOfMeasure) : Bool :=
  unit.label.symbol == ""

/-- Two units are the same when they are known by the same label. -/
def same (left right : UnitOfMeasure) : Bool :=
  left.label == right.label

end UnitOfMeasure

/-- The two operations that make units from units. -/
inductive UnitOperator where
  | times | per
deriving DecidableEq, Repr

/-- The operation that undoes scaling by the other. -/
def UnitOperator.inverse : UnitOperator -> UnitOperator
  | .times => .per
  | .per => .times

/-- The operator that an operation is written with. -/
def UnitOperator.operator : UnitOperator -> Operator
  | .times => .multiply
  | .per => .divide

/-- The operation on units that an operator stands for, if it stands for one. -/
def UnitOperator.ofOperator? : Operator -> Option UnitOperator
  | .multiply => some .times
  | .divide => some .per
  | _ => none

/-- The sign of the operation. -/
def UnitOperator.symbol (op : UnitOperator) : String :=
  op.operator.symbol

end QuantityCalculus
