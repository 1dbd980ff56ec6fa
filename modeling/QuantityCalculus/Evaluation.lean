import QuantityCalculus.AngleMode
import QuantityCalculus.Function.Basic
import QuantityCalculus.Scope
import QuantityCalculus.Units.Registry

namespace QuantityCalculus

/-!
Evaluation of expressions.

Variables and calls are resolved when they are met: a variable by evaluating
the expression it is bound to, a call by evaluating the body of the function in
a scope of its own.  The trail records which resolutions are under way; one
that would repeat itself is a cycle.  No more than a limited number of
resolutions may be under way, and this number is what the recursion through
bindings and bodies counts down; within one expression it follows the
expression.
-/

/-- What all scopes of a calculation share. -/
structure Environment (R : Type) where
  registry : Registry R
  constants : Table R
  functions : FunctionStore R
  angleMode : AngleMode
  /-- What a random variable of whole numbers stands for. -/
  randomWhole : R
  /-- What a random variable of fractions stands for. -/
  randomFraction : R

/-- A resolution under way. -/
inductive Resolution where
  | variable (definedIn : ScopeId) (name : String) (evaluatedIn : ScopeId)
  | function (name : String)
deriving DecidableEq, Repr

/-- How many resolutions may be under way at once. -/
def resolutionLimit : Nat := 64

/-- The names of the functions under way, outermost first. -/
def callers (trail : List Resolution) : List String :=
  (trail.filterMap fun
    | .function name => some name
    | .variable .. => none).reverse

/-- Names that start like this stand for random numbers. -/
def randomStart : List Char := ['r', 'n', 'g']

/-- A name stands for a random number. -/
def isRandomName (name : String) : Bool :=
  randomStart.isPrefixOf name.toList

/-- The names of the constants that are always there. -/
def builtInConstants : List String := ["pi", "e", "tau"]

variable {R : Type} [Scalar R]

/-- The values of the constants that are always there. -/
def builtInConstantTable : Table R :=
  [("pi", Scalar.pi), ("e", Scalar.euler), ("tau", Scalar.mul (Scalar.ofInt 2) Scalar.pi)]

/-- An environment without stored functions and with the constants that are always there. -/
def Environment.initial (registry : Registry R) : Environment R where
  registry := registry
  constants := builtInConstantTable
  functions := []
  angleMode := .deg
  randomWhole := Scalar.ofInt 0
  randomFraction := Scalar.ofDecimal 5 (-1)

/-- The random number that a name stands for; its last letter tells which kind. -/
def Environment.random (environment : Environment R) (name : String) :
    Except Failure (Quantity R) :=
  if name.toList.getLast? = some 'i' then .ok (Quantity.ofScalar environment.randomWhole)
  else if name.toList.getLast? = some 'd' then .ok (Quantity.ofScalar environment.randomFraction)
  else .error (.invalidRandomName name)

/-- The memory index that a quantity stands for. -/
def memoryIndex (quantity : Quantity R) : Except Failure Int :=
  match Scalar.toInt? quantity.base with
  | some index => .ok index
  | none => .error (.fractionalIndex quantity.text)

/-- An operator applied to quantities. -/
def Environment.binary (environment : Environment R) (op : Operator) (left right : Quantity R) :
    Except Failure (Quantity R) :=
  match op with
  | .add | .subtract => .ok (Quantity.linear op left right)
  | .multiply => environment.registry.combine .times left right
  | .divide => environment.registry.combine .per left right
  | .modulus => .ok (left.modulus right)
  | .power => .ok (left.power right)

/-- A function applied to a plain number, in the angle mode in force. -/
def FunctionKind.apply (mode : AngleMode) (kind : FunctionKind) (x : R) : R :=
  match kind with
  | .sin => Scalar.sin (mode.into x)
  | .cos => Scalar.cos (mode.into x)
  | .tan => Scalar.tan (mode.into x)
  | .log => Scalar.log x
  | .arcsin => mode.outOf (Scalar.arcsin x)
  | .arccos => mode.outOf (Scalar.arccos x)
  | .arctan => mode.outOf (Scalar.arctan x)
  | .sec | .csc | .cot | .hyp => Scalar.undefined

/-- A function applied to a quantity; the result is a plain number. -/
def Environment.function (environment : Environment R) (kind : FunctionKind)
    (argument : Quantity R) : Except Failure (Quantity R) :=
  if kind.isReserved then .error (.functionNotImplemented kind.name)
  else .ok (Quantity.ofScalar (kind.apply environment.angleMode argument.base))

/-- A product continued by `count` further whole factors, as long as it stays finite. -/
def productFrom : Nat -> Nat -> R -> R
  | 0, _, product => product
  | count + 1, next, product =>
      let product := Scalar.mul product (Scalar.ofInt next)
      if Scalar.isFinite product then productFrom count (next + 1) product else product

/-- The factorial of the whole part of a quantity, in its unit. -/
def factorial (argument : Quantity R) : Quantity R :=
  if Scalar.isFinite argument.base then
    argument.withValue
      (productFrom (Scalar.truncate argument.base - 1).toNat 2 (Scalar.ofInt 1))
  else argument.withValue argument.base

/-- A root of a quantity as a plain number. -/
def rootOf (radicand : Quantity R) (index : R) : Quantity R :=
  Quantity.ofScalar
    (Operator.power.apply radicand.base (Operator.divide.apply (Scalar.ofInt 1) index))

/-- What a unit bracket makes of a quantity, in a scope with the given catalogs enabled. -/
def Environment.mark (environment : Environment R) (enabled : List String) (mark : UnitMark)
    (inner : Quantity R) : Except Failure (Quantity R) :=
  match mark with
  | .normalize => .ok inner.normalize
  | .cast symbol => environment.registry.convert inner symbol enabled
  | .apply symbol => do
      let (magnitude, unit) ← environment.registry.resolve symbol enabled
      environment.registry.combine .times inner ⟨Scalar.ofInt 1, unit, magnitude⟩

/-- The scope of a call: defaults for what is not bound around the call, then its arguments. -/
def callScope (scopes : Scopes R) (scope : ScopeId) (definition : FunctionDefinition R)
    (arguments : List (String × Expr R)) : ScopeId × Scopes R :=
  let defaults := definition.defaults.filter fun entry => !scopes.isBound scope entry.1
  let supplied : Table (BoundExpr R) := defaults.map fun entry => (entry.1, ⟨entry.2, none⟩)
  let given : Table (BoundExpr R) := arguments.map fun entry => (entry.1, ⟨entry.2, some scope⟩)
  let (id, opened) := scopes.openChild scope (some definition.body)
  (id, opened.update id fun found => { found with bindings := supplied.update given })

/-- Evaluates an expression in a scope, where some resolutions are under way. -/
abbrev Evaluator (R : Type) :=
  List Resolution -> Scopes R -> ScopeId -> Expr R -> Except Failure (Quantity R)

/-- A variable, resolved with the help of an evaluator for what it is bound to. -/
def evaluateVariable (environment : Environment R) (deeper : Evaluator R)
    (trail : List Resolution) (scopes : Scopes R) (scope : ScopeId) (name : String) :
    Except Failure (Quantity R) :=
  if isRandomName name then environment.random name
  else
    match environment.constants.get? name with
    | some value => .ok (Quantity.ofScalar value)
    | none => do
        let (definedIn, bound) ← scopes.lookup scope name
        let evaluatedIn := bound.scope.getD scope
        let resolution := Resolution.variable definedIn name evaluatedIn
        if trail.contains resolution then .error (.cyclicVariable name)
        else deeper (resolution :: trail) scopes evaluatedIn bound.expr

/-- A call, resolved with the help of an evaluator for the body; without a body it has no value. -/
def evaluateCall (environment : Environment R) (deeper : Evaluator R)
    (trail : List Resolution) (scopes : Scopes R) (scope : ScopeId) (name : String)
    (arguments : List (String × Expr R)) : Except Failure (Quantity R) :=
  match environment.functions.get? name with
  | none => .ok (Quantity.ofScalar Scalar.undefined)
  | some definition =>
      if trail.contains (.function name) then .error (.cyclicFunction (callers trail) name)
      else
        let (id, opened) := callScope scopes scope definition arguments
        deeper (.function name :: trail) opened id definition.body

/-- Evaluates an expression, with another evaluator for what its names lead to. -/
def evaluateWith (environment : Environment R) (deeper : Evaluator R)
    (trail : List Resolution) (scopes : Scopes R) (scope : ScopeId) :
    Expr R -> Except Failure (Quantity R)
  | .num value => .ok (Quantity.ofScalar value)
  | .var name => evaluateVariable environment deeper trail scopes scope name
  | .mem => scopes.memoryAt scope 0
  | .memAt i => do
      let index ← memoryIndex (← evaluateWith environment deeper trail scopes scope i)
      scopes.memoryAt scope index
  | .func kind x => do
      environment.function kind (← evaluateWith environment deeper trail scopes scope x)
  | .factorial x => do
      .ok (factorial (← evaluateWith environment deeper trail scopes scope x))
  | .sqrt x => do
      .ok (rootOf (← evaluateWith environment deeper trail scopes scope x) (Scalar.ofInt 2))
  | .root x i => do
      let radicand ← evaluateWith environment deeper trail scopes scope x
      let index ← evaluateWith environment deeper trail scopes scope i
      .ok (rootOf radicand index.base)
  | .abs x => do
      let inner ← evaluateWith environment deeper trail scopes scope x
      .ok { inner with value := Scalar.abs inner.value }
  | .fraction x y => do
      let numerator ← evaluateWith environment deeper trail scopes scope x
      let denominator ← evaluateWith environment deeper trail scopes scope y
      environment.registry.combine .per numerator denominator
  | .binary op x y => do
      let left ← evaluateWith environment deeper trail scopes scope x
      let right ← evaluateWith environment deeper trail scopes scope y
      environment.binary op left right
  | .call name arguments =>
      evaluateCall environment deeper trail scopes scope name arguments.toList
  | .paren x => evaluateWith environment deeper trail scopes scope x
  | .marked mark x => do
      let inner ← evaluateWith environment deeper trail scopes scope x
      environment.mark (scopes.enabledIn scope) mark inner
  | .binding .. => .error (.statementEvaluated "Binding")
  | .equation .. => .error (.statementEvaluated "Equation")
  | .declaration .. => .error (.statementEvaluated "Declaration")
  | .target _ => .error (.statementEvaluated "TargetMarker")

/-- Evaluates where only a given number of further resolutions may be under way. -/
def evaluateWithin (environment : Environment R) : Nat -> Evaluator R
  | 0 => evaluateWith environment fun _ _ _ _ => .error (.resolutionTooDeep resolutionLimit)
  | rounds + 1 => evaluateWith environment (evaluateWithin environment rounds)

/-- The quantity that an expression stands for in a scope. -/
def evaluate (environment : Environment R) (scopes : Scopes R) (scope : ScopeId)
    (expr : Expr R) : Except Failure (Quantity R) :=
  evaluateWithin environment resolutionLimit [] scopes scope expr

end QuantityCalculus
