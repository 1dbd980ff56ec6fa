import QuantityCalculus.Evaluation
import QuantityCalculus.Expr.Children
import QuantityCalculus.Expr.Written

namespace QuantityCalculus

/-!
Solving an equation for a variable.

In `y = E`, where the variable occurs once in `E`, the way from the root of `E`
down to the variable is undone step by step, outermost first: each parent on
the way is inverted for the child the way leads into.  The result expresses
the variable through `y`.  Nothing is simplified or regrouped.
-/

variable {R : Type} [Scalar R]

/-- The variable occurs exactly once. -/
def checkSolvable (expr : Expr R) (target : String) : Except Failure PUnit :=
  match expr.occurrences target with
  | 0 => .error (.targetNotFound target)
  | 1 => .ok ⟨⟩
  | _ => .error (.targetNotUnique target)

/-- An operand of a fraction that moves beside an operator keeps its grouping. -/
def lifted : Expr R -> Expr R
  | .binary op x y => .paren (.binary op x y)
  | expr => expr

/-- The two operands of an expression that divides. -/
def quotient? : Expr R -> Option (Expr R × Expr R)
  | .fraction x y => some (x, y)
  | .binary .divide x y => some (x, y)
  | _ => none

/-- Undoing a multiplication: dividing by a quotient is dividing by its numerator and
multiplying by its denominator. -/
def undoFactor (current other : Expr R) : Expr R :=
  match quotient? other with
  | some (x, y) => .binary .multiply (.binary .divide current (lifted x)) (lifted y)
  | none => .binary .divide current other

/-- An operator undone for its left operand, given the right one. -/
def undoLeft (op : Operator) (right current : Expr R) : Except Failure (Expr R) :=
  match op with
  | .add => .ok (.binary .subtract current right)
  | .subtract => .ok (.binary .add current right)
  | .multiply => .ok (undoFactor current right)
  | .divide => .ok (.binary .multiply current right)
  | .power => .ok (.root current right)
  | .modulus => .error (.notInvertible "the modulus operator")

/-- An operator undone for its right operand, given the left one. -/
def undoRight (op : Operator) (left current : Expr R) : Except Failure (Expr R) :=
  match op with
  | .add => .ok (.binary .subtract current left)
  | .subtract => .ok (.binary .subtract left current)
  | .multiply => .ok (undoFactor current left)
  | .divide => .ok (.binary .divide left current)
  | .power => .error (.notInvertible "a power for its exponent")
  | .modulus => .error (.notInvertible "the modulus operator")

/-- A function undone. -/
def undoFunction (kind : FunctionKind) (current : Expr R) : Except Failure (Expr R) :=
  match kind, kind.inverse? with
  | .log, _ => .ok (.binary .power (.var "e") current)
  | _, some inverse => .ok (.func inverse current)
  | kind, none => .error (.notInvertible kind.name)

/-- One step of the way undone: what the child in the slot is, when the parent is `current`. -/
def undoStep (step : PathStep R) (current : Expr R) : Except Failure (Expr R) :=
  match step with
  | (.binary op left right, slot) =>
      if slot = .x then undoLeft op right current else undoRight op left current
  | (.fraction x y, slot) =>
      if slot = .x then .ok (.binary .multiply current (lifted y))
      else .ok (.binary .divide (lifted x) current)
  | (.paren _, _) => .ok current
  | (.sqrt _, _) => .ok (.binary .power current (.num (Scalar.ofInt 2)))
  | (.root _ index, slot) =>
      if slot = .x then .ok (.binary .power current index)
      else .error (.notInvertible "a root for its index")
  | (.func kind _, _) => undoFunction kind current
  | (parent, _) => .error (.notInvertible parent.kindName)

/-- A whole way undone, outermost step first. -/
def undoPath : List (PathStep R) -> Expr R -> Except Failure (Expr R)
  | [], current => .ok current
  | step :: rest, current => do undoPath rest (← undoStep step current)

/-- The target expressed through a name for the value of the expression. -/
def solve (expr : Expr R) (target substitute : String) : Except Failure (Expr R) :=
  match expr.pathTo? target with
  | none => .error (.targetNotFound target)
  | some path => undoPath path (.var substitute)

/-- The expression is a variable other than the one to solve for. -/
def namedSide? (target : Option String) : Expr R -> Option String
  | .var name => if target = some name then none else some name
  | _ => none

/-- The name on one side of an equation and the expression on the other. -/
def splitEquation (places : Nat) (lhs rhs : Expr R) (target : Option String) :
    Except Failure (String × Expr R) :=
  match namedSide? target lhs, namedSide? target rhs with
  | some name, _ => .ok (name, rhs)
  | none, some name => .ok (name, lhs)
  | none, none => .error (.noSingleVariable ((Expr.equation lhs rhs).text places))

/-- An equation solved for a variable, as an equation. -/
def solveEquation (places : Nat) (lhs rhs : Expr R) (target : String) :
    Except Failure (Expr R) := do
  let (substitute, expr) ← splitEquation places lhs rhs (some target)
  checkSolvable expr target
  let solved ← solve expr target substitute
  .ok (.equation (.var target) solved)

/-- Two numbers agree up to a billionth of the larger, or a trillionth at all. -/
def isClose (left right : R) : Bool :=
  if Scalar.eq left right then true
  else if !Scalar.isFinite left || !Scalar.isFinite right then false
  else
    let difference := Scalar.abs (Scalar.sub right left)
    let relative := Scalar.tenTo (-9)
    Scalar.le difference (Scalar.abs (Scalar.mul relative right)) ||
      Scalar.le difference (Scalar.abs (Scalar.mul relative left)) ||
      Scalar.le difference (Scalar.tenTo (-12))

/--
Whether a solution leads back to the value that the target was given.  The
target is bound to the value, the expression gives the value of the
substitute, and the solution of that has to be the first value again.
-/
def verifyNumerically (environment : Environment R) (scopes : Scopes R) (scope : ScopeId)
    (expr : Expr R) (target substitute : String) (solved : Expr R) (value : R) :
    Except Failure Bool := do
  let (forward, opened) := scopes.openChild scope none
  let y ← evaluate environment (opened.bind forward target (.num value) none) forward expr
  let (backward, opened) := scopes.openChild scope none
  let back ← evaluate environment (opened.bind backward substitute (.num y.base) none) backward
    solved
  .ok (isClose back.base value)

end QuantityCalculus
