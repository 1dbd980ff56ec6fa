import QuantityCalculus.Failure
import QuantityCalculus.Quantity
import QuantityCalculus.Table
import QuantityCalculus.Text.Ordering

namespace QuantityCalculus

/-!
Scopes: where names are bound and results are remembered.

Scopes form a tree.  Each has its own bindings, its own memory and its own set
of enabled catalogs, which it takes over from its parent when it is opened.
All scopes of a calculation are kept in one list, the newest first, so a scope
is known by its place counted from the oldest, and its parent stands further
back in the list.  A chain of scopes is therefore found by going through the
list once, and it always ends.

A binding may fix the scope in which its expression is evaluated; without it
the expression is evaluated wherever the name was looked up.
-/

/-- The place of a scope, counted from the oldest. -/
abbrev ScopeId := Nat

/-- An expression bound to a name, with the scope it is evaluated in, if that is fixed. -/
structure BoundExpr (R : Type) where
  expr : Expr R
  scope : Option ScopeId
deriving DecidableEq, Repr

/-- One scope. -/
structure Scope (R : Type) where
  parent : Option ScopeId
  /-- The expression for which the scope was opened. -/
  owner : Option (Expr R)
  bindings : Table (BoundExpr R)
  /-- Remembered results, the latest first. -/
  memory : List (Quantity R)
  /-- The names of the enabled catalogs. -/
  enabled : List String
deriving Repr

/-- All scopes, the newest first. -/
abbrev Scopes (R : Type) := List (Scope R)

namespace Scopes

variable {R : Type}

/-- The scope at a place. -/
def scope? (id : ScopeId) : Scopes R -> Option (Scope R)
  | [] => none
  | scope :: older => if id = older.length then some scope else scope? id older

/-- A scope and its ancestors, the innermost first. -/
def chain (id : ScopeId) : Scopes R -> List (ScopeId × Scope R)
  | [] => []
  | scope :: older =>
      if id = older.length then
        (id, scope) ::
          match scope.parent with
          | none => []
          | some parent => chain parent older
      else chain id older

/-- The scopes with one of them changed. -/
def update (id : ScopeId) (change : Scope R -> Scope R) : Scopes R -> Scopes R
  | [] => []
  | scope :: older =>
      if id = older.length then change scope :: older else scope :: update id change older

/-- A new root scope, and the scopes with it. -/
def openRoot (scopes : Scopes R) (enabled : List String) : ScopeId × Scopes R :=
  (scopes.length, ⟨none, none, [], [], enabled⟩ :: scopes)

/-- The enabled catalogs of a scope. -/
def enabledIn (scopes : Scopes R) (id : ScopeId) : List String :=
  ((scopes.scope? id).map Scope.enabled).getD []

/-- The expression for which a scope was opened. -/
def ownerOf? (scopes : Scopes R) (id : ScopeId) : Option (Expr R) :=
  (scopes.scope? id).bind Scope.owner

/-- A new scope inside another, and the scopes with it; without an owner it has its parent's. -/
def openChild (scopes : Scopes R) (parent : ScopeId) (owner : Option (Expr R)) :
    ScopeId × Scopes R :=
  (scopes.length,
    ⟨some parent, owner.or (scopes.ownerOf? parent), [], [], scopes.enabledIn parent⟩ :: scopes)

/-! ## Bindings -/

/-- The scopes with a name bound in one of them. -/
def bind (scopes : Scopes R) (id : ScopeId) (name : String) (expr : Expr R)
    (scope : Option ScopeId) : Scopes R :=
  scopes.update id fun found => { found with bindings := found.bindings.set name ⟨expr, scope⟩ }

/-- The bindings of a scope itself. -/
def ownBindings (scopes : Scopes R) (id : ScopeId) : Table (BoundExpr R) :=
  ((scopes.scope? id).map Scope.bindings).getD []

/-- The scopes without a binding of one of them, which has to be there. -/
def unbind (scopes : Scopes R) (id : ScopeId) (name : String) : Except Failure (Scopes R) :=
  if (scopes.ownBindings id).has name then
    .ok (scopes.update id fun found => { found with bindings := found.bindings.remove name })
  else .error (.unknownVariable name)

/-- The scopes with all bindings of one of them removed. -/
def clearBindings (scopes : Scopes R) (id : ScopeId) : Scopes R :=
  scopes.update id fun found => { found with bindings := [] }

/-- The first binding of a name in a chain, with the scope that holds it. -/
def lookupIn? (name : String) : List (ScopeId × Scope R) -> Option (ScopeId × BoundExpr R)
  | [] => none
  | (id, scope) :: outer =>
      match scope.bindings.get? name with
      | some bound => some (id, bound)
      | none => lookupIn? name outer

/-- The binding of a name that is visible in a scope, with the scope that holds it. -/
def lookup? (scopes : Scopes R) (id : ScopeId) (name : String) :
    Option (ScopeId × BoundExpr R) :=
  lookupIn? name (scopes.chain id)

/-- The visible binding of a name, or the failure to find it. -/
def lookup (scopes : Scopes R) (id : ScopeId) (name : String) :
    Except Failure (ScopeId × BoundExpr R) :=
  match scopes.lookup? id name with
  | some found => .ok found
  | none => .error (.unknownVariable name)

/-- A name is bound in some scope of a chain. -/
def isBound (scopes : Scopes R) (id : ScopeId) (name : String) : Bool :=
  (scopes.chain id).any fun entry => entry.2.bindings.has name

/-- All visible bindings; inner scopes shadow outer ones. -/
def visible (scopes : Scopes R) (id : ScopeId) : Table (BoundExpr R) :=
  (scopes.chain id).foldr (fun entry visible => visible.update entry.2.bindings) []

/-- A scope on one line, by its distance from the root and the names bound in it. -/
def describe (scopes : Scopes R) (id : ScopeId) : String :=
  let depth := (scopes.chain id).length - 1
  "Context(depth=" ++ String.ofList (Number.integerText depth) ++ ", vars="
    ++ Text.quotedNames (Text.sortedNames (scopes.ownBindings id).keys) ++ ")"

/-! ## Memory -/

/-- The visible memory, latest first and innermost first. -/
def memoryValues (scopes : Scopes R) (id : ScopeId) : List (Quantity R) :=
  (scopes.chain id).flatMap fun entry => entry.2.memory

/-- A remembered result, counted from the latest. -/
def memoryAt (scopes : Scopes R) (id : ScopeId) (index : Int) : Except Failure (Quantity R) :=
  match index with
  | .ofNat position =>
      match (scopes.memoryValues id)[position]? with
      | some quantity => .ok quantity
      | none => .error (.unknownMemory index)
  | .negSucc _ => .error (.unknownMemory index)

/-- The scopes with all memory of one of them removed. -/
def clearMemory (scopes : Scopes R) (id : ScopeId) : Scopes R :=
  scopes.update id fun found => { found with memory := [] }

/-- A result is already the latest of a memory. -/
def isLatest [Scalar R] (quantity : Quantity R) : List (Quantity R) -> Bool
  | [] => false
  | latest :: _ => latest.same quantity

/-- The scopes with a result remembered in one of them, unless it is the latest there. -/
def pushMemory [Scalar R] (scopes : Scopes R) (id : ScopeId) (quantity : Quantity R) : Scopes R :=
  scopes.update id fun found =>
    if isLatest quantity found.memory then found
    else { found with memory := quantity :: found.memory }

/-! ## Catalogs -/

/-- A set of names with one more. -/
def withName (name : String) (names : List String) : List String :=
  if names.contains name then names else names ++ [name]

/-- The scopes with a catalog enabled in one of them. -/
def enable (scopes : Scopes R) (id : ScopeId) (catalog : String) : Scopes R :=
  scopes.update id fun found => { found with enabled := withName catalog found.enabled }

/-- The scopes with a catalog disabled in one of them. -/
def disable (scopes : Scopes R) (id : ScopeId) (catalog : String) : Scopes R :=
  scopes.update id fun found => { found with enabled := found.enabled.filter (· != catalog) }

end Scopes
end QuantityCalculus
