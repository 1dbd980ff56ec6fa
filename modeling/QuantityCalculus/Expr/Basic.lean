import QuantityCalculus.Number.Scalar

namespace QuantityCalculus

/-!
Expressions over variables, numbers, units and functions.

One type serves expressions and statements alike: a statement (an equation, a
declaration, the choice of a target) may be written, listed and taken apart
like an expression, and only evaluation refuses it.  The arguments of a call
are bindings of names to expressions, in the order in which they were written.
-/

/-- The functions that have a name of their own in expressions. -/
inductive FunctionKind where
  | sin | cos | tan | log | sec | csc | cot | hyp | arcsin | arccos | arctan
deriving DecidableEq, Repr

/-- The operators written between their operands. -/
inductive Operator where
  | add | subtract | multiply | divide | modulus | power
deriving DecidableEq, Repr

/-- What a unit bracket asks for. -/
inductive UnitMark where
  /-- Multiply by the unit. -/
  | apply (symbol : String)
  /-- Express the value in the unit. -/
  | cast (symbol : String)
  /-- Show the value under its best magnitude. -/
  | normalize
deriving DecidableEq, Repr

mutual

/-- Expressions and statements. -/
inductive Expr (R : Type) where
  | num (value : R)
  | var (name : String)
  /-- The latest remembered result. -/
  | mem
  /-- An earlier remembered result, counted from the latest. -/
  | memAt (index : Expr R)
  | func (kind : FunctionKind) (x : Expr R)
  | factorial (x : Expr R)
  | sqrt (x : Expr R)
  | root (x index : Expr R)
  | abs (x : Expr R)
  | fraction (x y : Expr R)
  | binary (op : Operator) (x y : Expr R)
  | binding (name : String) (x : Expr R)
  | call (name : String) (arguments : Arguments R)
  | paren (x : Expr R)
  | marked (mark : UnitMark) (x : Expr R)
  | equation (lhs rhs : Expr R)
  | declaration (name : String) (x : Expr R)
  | target (name : String)

/-- The bindings that a call makes, in order. -/
inductive Arguments (R : Type) where
  | nil
  | cons (name : String) (value : Expr R) (rest : Arguments R)

end

deriving instance DecidableEq for Expr, Arguments
deriving instance Repr for Expr, Arguments
deriving instance Inhabited for Expr, Arguments

/-- The name that a function is written with. -/
def FunctionKind.name : FunctionKind -> String
  | .sin => "sin"
  | .cos => "cos"
  | .tan => "tan"
  | .log => "log"
  | .sec => "sec"
  | .csc => "csc"
  | .cot => "cot"
  | .hyp => "hyp"
  | .arcsin => "arcsin"
  | .arccos => "arccos"
  | .arctan => "arctan"

/-- Functions of an angle. -/
def FunctionKind.takesAngle : FunctionKind -> Bool
  | .sin | .cos | .tan => true
  | _ => false

/-- Functions whose value is an angle. -/
def FunctionKind.givesAngle : FunctionKind -> Bool
  | .arcsin | .arccos | .arctan => true
  | _ => false

/-- Functions whose names are set aside but that are not computed. -/
def FunctionKind.isReserved : FunctionKind -> Bool
  | .sec | .csc | .cot | .hyp => true
  | _ => false

/-- The function that undoes a function of an angle, and conversely. -/
def FunctionKind.inverse? : FunctionKind -> Option FunctionKind
  | .sin => some .arcsin
  | .cos => some .arccos
  | .tan => some .arctan
  | .arcsin => some .sin
  | .arccos => some .cos
  | .arctan => some .tan
  | _ => none

/-- All functions, in the order in which they are declared. -/
def FunctionKind.all : List FunctionKind :=
  [.sin, .cos, .tan, .log, .sec, .csc, .cot, .hyp, .arcsin, .arccos, .arctan]

/-- The function of a name. -/
def FunctionKind.ofName? (name : String) : Option FunctionKind :=
  all.find? fun kind => kind.name == name

/-- The words that call a function: its name, and a shorter word for some. -/
def FunctionKind.keywords : List (String × FunctionKind) :=
  [("sin", .sin), ("cos", .cos), ("tan", .tan), ("log", .log), ("ln", .log), ("sec", .sec),
   ("csc", .csc), ("cot", .cot), ("hyp", .hyp), ("arcsin", .arcsin), ("asin", .arcsin),
   ("arccos", .arccos), ("acos", .arccos), ("arctan", .arctan), ("atan", .arctan)]

/-- The function that a word calls. -/
def FunctionKind.ofKeyword? (word : String) : Option FunctionKind :=
  (keywords.find? fun entry => entry.1 == word).map Prod.snd

/-- Words that cannot name a variable or a function. -/
def reservedNames : List String :=
  FunctionKind.keywords.map Prod.fst ++ ["frac", "sqrt", "root", "mem"]

/-- The sign of an operator. -/
def Operator.symbol : Operator -> String
  | .add => "+"
  | .subtract => "-"
  | .multiply => "*"
  | .divide => "/"
  | .modulus => "%"
  | .power => "^"

/-- The operator of a sign. -/
def Operator.ofSymbol? (sign : String) : Option Operator :=
  [add, subtract, multiply, divide, modulus, power].find? fun op => op.symbol == sign

/-- The word for an operator. -/
def Operator.word : Operator -> String
  | .add => "add"
  | .subtract => "subtract"
  | .multiply => "multiply"
  | .divide => "divide"
  | .modulus => "modulus"
  | .power => "power"

/-- The arguments of a call as pairs of a name and an expression. -/
def Arguments.toList {R : Type} : Arguments R -> List (String × Expr R)
  | .nil => []
  | .cons name value rest => (name, value) :: rest.toList

/-- The arguments of a call from pairs of a name and an expression. -/
def Arguments.ofList {R : Type} : List (String × Expr R) -> Arguments R
  | [] => .nil
  | (name, value) :: rest => .cons name value (.ofList rest)

theorem Arguments.toList_ofList {R : Type} (pairs : List (String × Expr R)) :
    (Arguments.ofList pairs).toList = pairs := by
  induction pairs with
  | nil => rfl
  | cons pair rest ih => simp [Arguments.ofList, Arguments.toList, ih]

theorem Arguments.ofList_toList {R : Type} (arguments : Arguments R) :
    Arguments.ofList arguments.toList = arguments :=
  match arguments with
  | .nil => rfl
  | .cons name value rest => by
      simp [Arguments.toList, Arguments.ofList, Arguments.ofList_toList rest]

/-- The kind of an expression, as messages and listings name it. -/
def Expr.kindName {R : Type} : Expr R -> String
  | .num _ => "Num"
  | .var _ => "Var"
  | .mem | .memAt _ => "Mem"
  | .func .. => "UnaryFunc"
  | .factorial _ => "Factorial"
  | .sqrt _ | .root .. => "Root"
  | .abs _ => "Abs"
  | .fraction .. => "Fraction"
  | .binary .. => "BinaryOp"
  | .binding .. => "Binding"
  | .call .. => "FunctionCall"
  | .paren _ => "Parenthesized"
  | .marked .. => "UnitAnnotation"
  | .equation .. => "Equation"
  | .declaration .. => "Declaration"
  | .target _ => "TargetMarker"

/-- An expression that is an operator between its operands. -/
def Expr.isInfix {R : Type} : Expr R -> Bool
  | .binary .. => true
  | _ => false

/-- Statements that only stand on their own. -/
def Expr.isStatement {R : Type} : Expr R -> Bool
  | .equation .. | .declaration .. | .target _ => true
  | _ => false

end QuantityCalculus
