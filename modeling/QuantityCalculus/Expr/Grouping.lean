import QuantityCalculus.Expr.Basic

namespace QuantityCalculus

/-!
Grouping: the parentheses that a written expression needs to be read back.

An expression is written without regard to the strength of its operators, so a
tree that did not come from text may read back as another one.  `grouped` adds
parentheses exactly where an operand binds less tightly than its place
demands, and where a negative number would lose its sign to what follows.
-/

variable {R : Type} [Scalar R]

/-- How tightly an operator binds. -/
def Operator.strength : Operator -> Nat
  | .add | .subtract => 1
  | .multiply | .divide | .modulus => 2
  | .power => 3

/-- A literal that is written with a sign, or as no number at all. -/
def isNegativeLiteral (value : R) : Bool :=
  !Scalar.le (Scalar.ofInt 0) value

/-- The operands of equal strength that a place takes without parentheses: powers on the
right of their sign, everything else on the left. -/
def Operator.groupsTowards (op : Operator) (left : Bool) : Bool :=
  if op = .power then !left else left

/-- An operand that needs parentheses on one side of an operator. -/
def needsGroupBeside (op : Operator) (left : Bool) : Expr R -> Bool
  | .num value => isNegativeLiteral value && op == .power && left
  | .binary inner _ _ =>
      decide (inner.strength < op.strength) ||
        (inner.strength == op.strength && !op.groupsTowards left)
  | _ => false

/-- An operand that needs parentheses in front of a factorial sign or a unit bracket. -/
def needsGroupBefore : Expr R -> Bool
  | .num value => isNegativeLiteral value
  | .binary .. => true
  | _ => false

/-- An expression in parentheses, if asked for. -/
def parenIf (needed : Bool) (expr : Expr R) : Expr R :=
  if needed then .paren expr else expr

mutual

/-- The expression with the parentheses it needs. -/
def Expr.grouped : Expr R -> Expr R
  | .num value => .num value
  | .var name => .var name
  | .mem => .mem
  | .target name => .target name
  | .memAt i => .memAt i.grouped
  | .func kind x => .func kind x.grouped
  | .factorial x => .factorial (parenIf (needsGroupBefore x.grouped) x.grouped)
  | .sqrt x => .sqrt x.grouped
  | .root x i => .root x.grouped i.grouped
  | .abs x => .abs x.grouped
  | .fraction x y => .fraction x.grouped y.grouped
  | .binary op x y =>
      .binary op (parenIf (needsGroupBeside op true x.grouped) x.grouped)
        (parenIf (needsGroupBeside op false y.grouped) y.grouped)
  | .binding name x => .binding name x.grouped
  | .call name arguments => .call name arguments.grouped
  | .paren x => .paren x.grouped
  | .marked mark x => .marked mark (parenIf (needsGroupBefore x.grouped) x.grouped)
  | .equation l r => .equation l.grouped r.grouped
  | .declaration name x => .declaration name x.grouped

/-- The arguments of a call with the parentheses they need. -/
def Arguments.grouped : Arguments R -> Arguments R
  | .nil => .nil
  | .cons name value rest => .cons name value.grouped rest.grouped

end

end QuantityCalculus
