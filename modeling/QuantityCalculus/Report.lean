import QuantityCalculus.Expr.FreeNames
import QuantityCalculus.Plot
import QuantityCalculus.Solution
import QuantityCalculus.Source.Statement
import QuantityCalculus.Units.Batch

namespace QuantityCalculus

/-!
Requests answered with reports.

Each request takes the texts a user wrote and answers with a report that can be
shown or passed on, or with the failure.  No request changes anything.
-/

variable {R : Type} [Scalar R]

/-- An environment and the scope in which a request is answered. -/
structure Place (R : Type) where
  environment : Environment R
  scopes : Scopes R
  scope : ScopeId

/-- A place with nothing but a root scope in which all catalogs are enabled. -/
def Place.root (environment : Environment R) : Place R :=
  let (scope, scopes) := Scopes.openRoot [] environment.registry.catalogs.keys
  ⟨environment, scopes, scope⟩

/-- The place where requests are answered that bring none of their own. -/
def Place.default (places : Nat) : Except Failure (Place R) := do
  .ok (Place.root (Environment.initial (← Registry.empty.withBuiltIns places)))

/-- The report of an evaluation, a drawing or a written form. -/
structure EvalReport (R : Type) where
  result : String
  value : Option R
  /-- The label of the unit, if there is one. -/
  unit : Option String
  /-- The names that nothing supplied, if there are any. -/
  freeNames : Option (List String)

/-- The report of a solution. -/
structure SolveReport where
  target : String
  expression : String
  markup : String
  /-- Whether the solution was confirmed, if that could be decided. -/
  verified : Option Bool

/-- A report that consists of a text. -/
def EvalReport.ofText (result : String) : EvalReport R :=
  ⟨result, none, none, none⟩

/-- The report of evaluating an expression. -/
def Place.report (place : Place R) (source : String) : Except Failure (EvalReport R) := do
  let expr ← Source.parseExpression source
  let quantity ← evaluate place.environment place.scopes place.scope expr
  let supplied :=
    place.environment.constants.keys ++ (place.scopes.visible place.scope).keys
  let unknown := (expr.freeNames place.environment.functions).filter fun name =>
    !supplied.contains name
  .ok { result := quantity.text
        value := some quantity.value
        unit := if quantity.label = "" then none else some quantity.label
        freeNames := if unknown.isEmpty then none else some unknown }

/-- The report of isolating a variable; `verify` tells whether the solution is right. -/
def reportSolution (places : Nat)
    (verify : Expr R -> String -> String -> Expr R -> Option Bool)
    (expr : Expr R) (target substitute : String) : Except Failure SolveReport := do
  checkSolvable expr target
  let solved ← solve expr target substitute
  .ok ⟨target, solved.write .plain places, solved.write .markup places,
    verify expr target substitute solved⟩

/-- The report of isolating a variable in an expression. -/
def reportSolve (places : Nat)
    (verify : Expr R -> String -> String -> Expr R -> Option Bool)
    (source target substitute : String) : Except Failure SolveReport := do
  reportSolution places verify (← Source.parseExpression source) target substitute

/-- The report of solving an equation for a variable. -/
def reportSolveEquation (places : Nat)
    (verify : Expr R -> String -> String -> Expr R -> Option Bool)
    (source target : String) : Except Failure SolveReport := do
  match (← Source.parse source : Expr R) with
  | .equation lhs rhs => do
      let (substitute, expr) ← splitEquation places lhs rhs (some target)
      reportSolution places verify expr target substitute
  | _ => .error (.notAnEquation source)

/-- The written form of a name. -/
def WrittenForm.ofName? : String -> Option WrittenForm
  | "plain" => some .plain
  | "latex" => some .markup
  | _ => none

/-- The report of writing a statement in a form. -/
def reportWritten (R : Type) [Scalar R] (places : Nat) (source form : String) :
    Except Failure (EvalReport R) := do
  let expr : Expr R ← Source.parse source
  match WrittenForm.ofName? form with
  | some form => .ok (.ofText (expr.write form places))
  | none => .error (.unknownForm form)

/-- The report of drawing the expressions of a text, separated by semicolons. -/
def Place.reportPlot (place : Place R) (source name : String) (low high : R) :
    Except Failure (EvalReport R) := do
  let parts := (Text.piecesOf ';' source).filter fun part => Text.trimmed part != ""
  let exprs ← parts.mapM Source.parseExpression
  let lines ← Plot.drawExpressions place.environment place.scopes place.scope exprs name low high 0
  .ok (.ofText (String.intercalate "\n" lines))

/-! ## Reports as text -/

/-- A truth value as it is shown in a report. -/
def truthText (value : Bool) : String :=
  if value then "True" else "False"

/-- A refused request on one line. -/
def refusedText (report : String) (failure : Failure) : String :=
  report ++ "(ok=False, error=" ++ Text.quoted failure.message ++ ", error_code="
    ++ Text.quoted failure.code ++ ")"

/-- The parts of a report that are there, on one line. -/
def reportText (report : String) (parts : List (Option String)) : String :=
  report ++ "(" ++ String.intercalate ", " ("ok=True" :: parts.filterMap id) ++ ")"

/-- The report of an evaluation on one line. -/
def EvalReport.describe : Except Failure (EvalReport R) -> String
  | .error failure => refusedText "EvalResult" failure
  | .ok report => reportText "EvalResult"
      [some ("result=" ++ Text.quoted report.result),
       report.unit.map fun unit => "unit=" ++ Text.quoted unit,
       report.freeNames.map fun names => "free_symbols=" ++ Text.quotedNames names]

/-- The report of a solution on one line. -/
def SolveReport.describe : Except Failure SolveReport -> String
  | .error failure => refusedText "SolveResult" failure
  | .ok report => reportText "SolveResult"
      [some ("target=" ++ Text.quoted report.target),
       some ("expression=" ++ Text.quoted report.expression),
       report.verified.map fun verified => "verified=" ++ truthText verified]

end QuantityCalculus
