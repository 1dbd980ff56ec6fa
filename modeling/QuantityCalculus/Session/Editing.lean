import QuantityCalculus.Session.MissingNames
import QuantityCalculus.Text.Identifier

namespace QuantityCalculus
namespace Action

/-!
Editing: expressions, bindings and the scopes opened for them.

An expression with missing names opens a scope above the current one, a loaded
function or a solution opens one above the base.  Binding a name in such a
scope shows at once what is still missing or, with nothing missing, the
result.  The binding stays even if computing the result fails.
-/

variable {R : Type} [Scalar R]

/-- The line that names what is missing. -/
def missingLine (names : List String) : String :=
  "Missing variables: " ++ String.intercalate ", " names

/-- Puts a scope on top. -/
def enter (scope : ScopeId) : Action R PUnit :=
  modify fun session => { session with editing := scope :: session.editing, target := none }

/-- Opens a scope for an expression inside another scope, and puts it on top. -/
def openInside (parent : ScopeId) (owner : Expr R) : Action R ScopeId := do
  let (scope, scopes) := (← get).scopes.openChild parent (some owner)
  changeScopes fun _ => scopes
  enter scope
  return scope

/-- Opens a scope above the base for an expression, with some names bound. -/
def openEditor (owner : Expr R) (bindings : Table (Expr R)) : Action R PUnit := do
  let scope ← openInside Session.base owner
  changeScopes fun scopes =>
    bindings.foldl (fun scopes entry => scopes.bind scope entry.1 entry.2 none) scopes

/-- What is missing for an expression, or its equation with the result, in the current scope. -/
def progressOf (owner : Expr R) : Action R String := do
  let session ← get
  match session.missing owner with
  | [] => return session.shown owner ++ " = " ++ (← remember owner session.current)
  | names => return missingLine names

/-- What is missing for the expression being edited, or its result if results are shown. -/
def status : Action R (List String) := do
  let session ← get
  let owner ← session.edited
  if session.missing owner = [] && !session.autoEval then return []
  else return [← progressOf owner]

/-- A name that a variable or a constant may have. -/
def isBindable (name : String) : Bool :=
  Text.isNameLine name.toList && !reservedNames.contains name

/-- What is shown of the current scope after a binding. -/
def progressLines : Action R (List String) := do
  let session ← get
  match session.isEditing && session.autoEval, session.ownerOf? session.current with
  | true, some owner => return [← progressOf owner]
  | _, _ => return []

/-- Binds a name in the current scope, unless its expression needs the name itself. -/
def bindName (name : String) (expr : Expr R) : Action R (List String) := do
  let session ← get
  if !isBindable name then throw (.invalidVariableName name)
  if (expr.neededNames session.environment.functions).contains name then
    throw (.selfReference name)
  changeScopes fun scopes => scopes.bind session.current name expr none
  return (name ++ " = " ++ session.shown expr) :: (← progressLines)

/-- Shows the value of an expression, or opens a scope to bind what is missing. -/
def enterExpression (expr : Expr R) : Action R (List String) := do
  let session ← get
  match session.missing expr with
  | [] => return [← remember expr session.current]
  | names => do
      let _ ← openInside session.current expr
      return [session.shown expr, missingLine names]

/-- Carries out a statement. -/
def enterStatement (statement : Expr R) : Action R (List String) := do
  let session ← get
  match statement with
  | .target name => do
      set { session with target := some name }
      return ["Target set to " ++ name]
  | .declaration name expr => bindName name expr
  | .equation (.var name) expr => bindName name expr
  | .equation lhs rhs => throw (.invalidAssignment (session.shown (.equation lhs rhs)))
  | expr =>
      match session.isEditing, session.target with
      | true, some name => bindName name expr
      | _, _ => enterExpression expr

end Action
end QuantityCalculus
