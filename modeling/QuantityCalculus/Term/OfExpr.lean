import QuantityCalculus.Evaluation
import QuantityCalculus.Term.Replacement

namespace QuantityCalculus

/-!
The term of an expression.

Every variable becomes a symbol, except for the constants that are always
there.  A called function becomes its body, with the terms of the arguments and
of the other defaults in the place of its variables; a function that is not
stored has no value.  Memory, units and statements have no term, and neither
have the functions that are not computed; meeting one of them is a failure.
-/

variable {R : Type} [Scalar R]

/-- The function in terms, for the functions that are computed. -/
def FunctionKind.termFunction? : FunctionKind -> Option TermFunction
  | .sin => some .sin
  | .cos => some .cos
  | .tan => some .tan
  | .log => some .log
  | .arcsin => some .arcsin
  | .arccos => some .arccos
  | .arctan => some .arctan
  | .sec | .csc | .cot | .hyp => none

/-- The operation on terms. -/
def Operator.onTerms : Operator -> Term -> Term -> Term
  | .add => fun x y => Term.sum [x, y]
  | .subtract => Term.difference
  | .multiply => fun x y => Term.product [x, y]
  | .divide => Term.quotient
  | .modulus => Term.modulo
  | .power => Term.raise

namespace Term

/-- The term of a literal: exact for a whole number, rounded otherwise. -/
def ofLiteral (value : R) : Term :=
  if Scalar.isUndefined value then .undefined
  else if !Scalar.isFinite value then .infinite (Scalar.lt value (Scalar.ofInt 0))
  else
    let ratio := Scalar.ratio value
    if ratio.isWhole then ofRatio ratio else .number (Numeral.ofWide (Wide.ofRatio ratio))

/-- The terms of the constants that are always there. -/
def constants : Table Term :=
  [("pi", .pi), ("e", .euler), ("tau", product [ofInt 2, .pi])]

/-- The term of a name. -/
def ofName (name : String) : Term := (constants.get? name).getD (.symbol name)

end Term

/-- A term that is made when it is needed, or the failure to make it. -/
abbrev DelayedTerm := Unit -> Except Failure Term

/-- The terms of a table, made one after the other. -/
def madeTerms : Table DelayedTerm -> Except Failure (Table Term)
  | [] => .ok []
  | (name, make) :: rest => do
      let term ← make ()
      .ok ((name, term) :: (← madeTerms rest))

mutual

/-- The term of an expression, with the help of `body` for the expressions of stored functions. -/
def Expr.termWith (functions : FunctionStore R) (body : Expr R -> Except Failure Term)
    (expr : Expr R) : Except Failure Term :=
  match expr with
  | .num value => .ok (Term.ofLiteral value)
  | .var name => .ok (Term.ofName name)
  | .paren x => x.termWith functions body
  | .binary op x y => do
      let left ← x.termWith functions body
      .ok (op.onTerms left (← y.termWith functions body))
  | .fraction x y => do
      let top ← x.termWith functions body
      .ok (Term.quotient top (← y.termWith functions body))
  | .sqrt x => do .ok (Term.raise (← x.termWith functions body) Term.half)
  | .root x i => do
      let radicand ← x.termWith functions body
      let index ← i.termWith functions body
      .ok (Term.raise radicand (Term.quotient Term.one index))
  | .func kind x =>
      match kind.termFunction? with
      | none => .error (.functionNotImplemented kind.name)
      | some function => do .ok (Term.applied function (← x.termWith functions body))
  | .abs x => do .ok (Term.applied .abs (← x.termWith functions body))
  | .factorial x => do .ok (Term.applied .factorial (← x.termWith functions body))
  | .call name arguments =>
      match functions.get? name with
      | none => .ok .undefined
      | some definition => do
          let defaults : Table DelayedTerm :=
            definition.defaults.map fun entry => (entry.1, fun _ => body entry.2)
          let term ← body definition.body
          let given ← madeTerms (defaults.update (arguments.termsWith functions body))
          .ok (term.replaceAll given)
  | .mem | .memAt _ => .error (.noSymbolicForm "Mem")
  | .marked .. => .error (.noSymbolicForm "UnitAnnotation")
  | .binding .. => .error (.noSymbolicForm "Binding")
  | .equation .. => .error (.noSymbolicForm "Equation")
  | .declaration .. => .error (.noSymbolicForm "Declaration")
  | .target _ => .error (.noSymbolicForm "TargetMarker")

/-- The terms of the arguments of a call. -/
def Arguments.termsWith (functions : FunctionStore R) (body : Expr R -> Except Failure Term) :
    Arguments R -> Table DelayedTerm
  | .nil => []
  | .cons name value rest =>
      (name, fun _ => value.termWith functions body) :: rest.termsWith functions body

end

/-- The term of an expression, through a limited number of nested calls. -/
def Expr.termWithin (functions : FunctionStore R) : Nat -> Expr R -> Except Failure Term
  | 0, _ => .ok .undefined
  | depth + 1, expr => expr.termWith functions (termWithin functions depth)

/-- The term of an expression. -/
def Expr.term (functions : FunctionStore R) (expr : Expr R) : Except Failure Term :=
  expr.termWithin functions (resolutionLimit + 1)

end QuantityCalculus
