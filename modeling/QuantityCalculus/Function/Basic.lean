import QuantityCalculus.Expr.Basic
import QuantityCalculus.Table

namespace QuantityCalculus

/-!
Stored functions.

A function is an expression, its body, with default bindings for some of the
variables of the body.  A call evaluates the body where the call's own
bindings, and those defaults that nothing else supplies, are in force.
-/

/-- A function: its body and its defaults, in order. -/
structure FunctionDefinition (R : Type) where
  body : Expr R
  defaults : Table (Expr R)
deriving DecidableEq, Repr

/-- Stored functions by name. -/
abbrev FunctionStore (R : Type) := Table (FunctionDefinition R)

end QuantityCalculus
