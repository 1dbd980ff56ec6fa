import QuantityCalculus.Function.Basic
import QuantityCalculus.Text.Ordering

namespace QuantityCalculus

/-!
The names an expression needs.

An expression needs the variables it mentions.  A call needs what its
arguments need and what the body of the function needs, less what the call or
the defaults of the function bind.  A body may lead back to its own function;
such an inner call adds nothing, so the search goes through a function at most
once on any way down, and its depth is bounded by the number of functions.
-/

variable {R : Type}

/-- What the body of a called function needs, or nothing for a call that is not followed. -/
abbrev BodyNames := String -> Option (List String)

mutual

/-- The names an expression needs, when `bodyNames` answers for called functions. -/
def Expr.namesWith (bodyNames : BodyNames) : Expr R -> List String
  | .num _ | .mem | .target _ => []
  | .var name => [name]
  | .memAt i => i.namesWith bodyNames
  | .func _ x | .factorial x | .sqrt x | .abs x | .binding _ x | .paren x | .marked _ x
  | .declaration _ x => x.namesWith bodyNames
  | .root x i => x.namesWith bodyNames ++ i.namesWith bodyNames
  | .fraction x y | .binary _ x y => x.namesWith bodyNames ++ y.namesWith bodyNames
  | .call function arguments =>
      arguments.namesWith bodyNames ++
        ((bodyNames function).getD []).filter fun name =>
          !(arguments.toList.map Prod.fst).contains name
  | .equation l r => l.namesWith bodyNames ++ r.namesWith bodyNames

/-- The names that the arguments of a call need. -/
def Arguments.namesWith (bodyNames : BodyNames) : Arguments R -> List String
  | .nil => []
  | .cons _ value rest => value.namesWith bodyNames ++ rest.namesWith bodyNames

end

/--
What the body of a function needs beyond its defaults, going through `depth`
further functions and through none that is already being visited.
-/
def bodyNames (store : FunctionStore R) : Nat -> List String -> BodyNames
  | 0, _, _ => none
  | depth + 1, visiting, function =>
      if visiting.contains function then none
      else (store.get? function).map fun definition =>
        (definition.body.namesWith (bodyNames store depth (function :: visiting))).filter
          fun name => !definition.defaults.keys.contains name

/-- The names an expression needs, in some order and perhaps repeatedly. -/
def Expr.neededNames (store : FunctionStore R) (expr : Expr R) : List String :=
  expr.namesWith (bodyNames store store.length [])

/-- The names an expression needs, sorted and without repetition. -/
def Expr.freeNames (store : FunctionStore R) (expr : Expr R) : List String :=
  Text.sortedNames (expr.neededNames store)

end QuantityCalculus
