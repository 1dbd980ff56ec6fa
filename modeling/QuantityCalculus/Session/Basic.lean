import QuantityCalculus.Evaluation
import QuantityCalculus.Expr.Written
import QuantityCalculus.Storage.Settings

namespace QuantityCalculus

/-!
Sessions: what a user has built up line by line.

The base scope holds what is bound outside of any expression.  An expression
that needs values opens a scope in which they can be bound; such scopes lie
above the base, the latest on top, and may be put aside.  A target set by the
user belongs to the scope on top, so it is forgotten when that scope changes.

A session may keep its state in a file tree.  What cannot be written is lost
without a word: a session that fails to keep something goes on as before.

An action changes the session and may fail; what it changed before it failed
stays changed.
-/

/-- The state of a session. -/
structure Session (R : Type) where
  environment : Environment R
  scopes : Scopes R
  /-- The scopes of the expressions being edited, the latest first. -/
  editing : List ScopeId
  /-- The scopes that were put aside, the latest first. -/
  stash : List ScopeId
  /-- The variable that the next expression is bound to. -/
  target : Option String
  /-- Results are shown as soon as nothing is missing. -/
  autoEval : Bool
  running : Bool
  /-- What is kept between sessions, if anything is. -/
  files : Option FileTree
  /-- How many places literals are written with. -/
  places : Nat
  /-- Solutions are verified. -/
  verifies : Bool

/-- The scope below all others. -/
def Session.base : ScopeId := 0

/-- Something done in a session: a result or a failure, and the session afterwards. -/
abbrev Action (R : Type) := ExceptT Failure (StateM (Session R))

namespace Session

variable {R : Type}

/-- The scope that lines refer to. -/
def current (session : Session R) : ScopeId :=
  session.editing.headD base

/-- Some expression is being edited. -/
def isEditing (session : Session R) : Bool :=
  !session.editing.isEmpty

/-- The expression of a scope, if it was opened for one. -/
def ownerOf? (session : Session R) (scope : ScopeId) : Option (Expr R) :=
  session.scopes.ownerOf? scope

/-- The expression that is being edited. -/
def edited (session : Session R) : Except Failure (Expr R) :=
  match session.isEditing, session.ownerOf? session.current with
  | true, some owner => .ok owner
  | _, _ => .error .notEditing

/-- The scopes of a session from the base to the top. -/
def stack (session : Session R) : List ScopeId :=
  base :: session.editing.reverse

/-- The catalogs enabled in a scope, in order. -/
def enabledIn (session : Session R) (scope : ScopeId) : List String :=
  Text.sortedNames (session.scopes.enabledIn scope)

variable [Scalar R]

/-- An expression as it is shown. -/
def shown (session : Session R) (expr : Expr R) : String :=
  expr.text session.places

/-- The expression of a scope as it is shown. -/
def ownerText (session : Session R) (scope : ScopeId) : String :=
  ((session.ownerOf? scope).map session.shown).getD ""

/-- The settings of a session. -/
def settings (session : Session R) : Table (JsonValue R) :=
  [(StoredSettings.angleModeField, .string session.environment.angleMode.name),
   (StoredSettings.autoEvalField, .truth session.autoEval),
   (StoredSettings.enabledField, .list ((session.enabledIn base).map .string))]

/-- The session after a change of what is kept, if anything is. -/
def keeping (session : Session R) (change : FileTree -> FileTree × Bool) : Session R :=
  { session with files := session.files.map fun tree => (change tree).1 }

/-- The session with its settings kept. -/
def keepingSettings (session : Session R) : Session R :=
  session.keeping fun tree => tree.saveSettings session.settings

end Session

namespace Action

variable {R : Type}

/-- A result or a failure that leaves the session as it is. -/
def ofResult {α : Type} (result : Except Failure α) : Action R α :=
  ExceptT.mk (pure result)

instance : MonadLift (Except Failure) (Action R) where
  monadLift := ofResult

/-- Changes what is kept. -/
def keep (change : FileTree -> FileTree × Bool) : Action R PUnit :=
  modify fun session => session.keeping change

/-- Keeps the settings. -/
def keepSettings [Scalar R] : Action R PUnit :=
  modify Session.keepingSettings

/-- Changes what all scopes share. -/
def changeEnvironment (change : Environment R -> Environment R) : Action R PUnit :=
  modify fun session => { session with environment := change session.environment }

/-- Changes the scopes. -/
def changeScopes (change : Scopes R -> Scopes R) : Action R PUnit :=
  modify fun session => { session with scopes := change session.scopes }

variable [Scalar R]

/-- The value of an expression in a scope. -/
def value (expr : Expr R) (scope : ScopeId) : Action R (Quantity R) := do
  let session ← get
  evaluate session.environment session.scopes scope expr

/-- The text of the value of an expression in a scope, which is remembered there. -/
def remember (expr : Expr R) (scope : ScopeId) : Action R String := do
  let quantity ← value expr scope
  changeScopes fun scopes => scopes.pushMemory scope quantity
  return quantity.text

end Action
end QuantityCalculus
