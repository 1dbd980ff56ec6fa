import QuantityCalculus.Expr.FreeNames
import QuantityCalculus.Session.Basic

namespace QuantityCalculus

/-!
The names that an expression still needs.

From a name in a scope the search goes on to the names of the expression that
is bound to it, in the scope in which that expression is evaluated.  Constants
and random numbers need nothing.  A name that no scope binds is missing.

Every pair of a scope and a name is visited at most once: the search carries
the pairs that were not visited yet, and this list gets shorter with each
visit, so there are as many rounds as there are pairs.
-/

/-- A name as it is looked up in a scope. -/
abbrev NameInScope := ScopeId × String

/-- What looking up a name leads to. -/
inductive NameSupply where
  /-- Nothing further is needed. -/
  | supplied
  | missing
  /-- Further names are needed. -/
  | needs (names : List NameInScope)
deriving DecidableEq, Repr

variable {R : Type}

/-- What the look-up of a name in a scope leads to. -/
def nameSupply (environment : Environment R) (scopes : Scopes R) (place : NameInScope) :
    NameSupply :=
  if environment.constants.has place.2 || isRandomName place.2 then .supplied
  else
    match scopes.lookup? place.1 place.2 with
    | none => .missing
    | some (_, bound) =>
        let scope := bound.scope.getD place.1
        .needs ((bound.expr.neededNames environment.functions).map fun name => (scope, name))

/-- All names that occur in some expression of the scopes. -/
def namesInScopes (environment : Environment R) (scopes : Scopes R) : List String :=
  scopes.flatMap fun scope => scope.bindings.flatMap fun entry =>
    entry.2.expr.neededNames environment.functions

/-- All pairs of a scope and one of some names. -/
def namesEverywhere (scopes : Scopes R) (names : List String) : List NameInScope :=
  (List.range scopes.length).flatMap fun scope => names.map fun name => (scope, name)

/-- The missing names that some pending names lead to, through names not visited yet; every round
visits one of these. -/
def missingAmong (environment : Environment R) (scopes : Scopes R) :
    Nat -> List NameInScope -> List NameInScope -> List String
  | 0, _, _ => []
  | rounds + 1, unvisited, pending =>
      match pending.dropWhile fun place => !unvisited.contains place with
      | [] => []
      | place :: rest =>
          let others := unvisited.erase place
          match nameSupply environment scopes place with
          | .supplied => missingAmong environment scopes rounds others rest
          | .missing => place.2 :: missingAmong environment scopes rounds others rest
          | .needs names => missingAmong environment scopes rounds others (names ++ rest)

/-- The names that an expression still needs in a scope, in order. -/
def missingNames (environment : Environment R) (scopes : Scopes R) (scope : ScopeId)
    (expr : Expr R) : List String :=
  let needed := expr.neededNames environment.functions
  let unvisited :=
    (namesEverywhere scopes (Text.sortedNames (needed ++ namesInScopes environment scopes)))
  Text.sortedNames
    (missingAmong environment scopes unvisited.length unvisited
      (needed.map fun name => (scope, name)))

/-- The names that an expression still needs in the current scope of a session. -/
def Session.missing (session : Session R) (expr : Expr R) : List String :=
  missingNames session.environment session.scopes session.current expr

end QuantityCalculus
