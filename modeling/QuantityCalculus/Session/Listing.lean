import QuantityCalculus.Function.Written
import QuantityCalculus.Session.Basic

namespace QuantityCalculus
namespace Session

/-!
Listings of what a session holds.

Each listing has a line of its own to show when there is nothing to list.
-/

variable {R : Type} [Scalar R]

/-- Some lines, or another line if there are none. -/
def orElse (line : String) (lines : List String) : List String :=
  if lines.isEmpty then [line] else lines

/-- A number of entries or a place in a list as text. -/
def countText (count : Nat) : String :=
  String.ofList (Number.integerText count)

/-- The visible variables. -/
def variableLines (session : Session R) : List String :=
  (Text.sortedBy Prod.fst (session.scopes.visible session.current)).map fun entry =>
    entry.1 ++ " = " ++ session.shown entry.2.expr

/-- A function with its defaults. -/
def functionLine (session : Session R) (name : String) (definition : FunctionDefinition R) :
    String :=
  let defaults := definition.defaults.map fun entry => entry.1 ++ "=" ++ session.shown entry.2
  name ++ ": " ++ session.shown definition.body ++
    if defaults.isEmpty then "" else " (" ++ String.intercalate ", " defaults ++ ")"

/-- The stored functions. -/
def functionLines (session : Session R) : List String :=
  (FunctionStore.listed session.environment.functions).map fun entry =>
    session.functionLine entry.1 entry.2

/-- The constants. -/
def constantLines (session : Session R) : List String :=
  (Text.sortedBy Prod.fst session.environment.constants).map fun entry =>
    entry.1 ++ " = " ++ String.ofList (Scalar.shortest entry.2)

/-- The expressions of some scopes by their places. -/
def placedOwners (session : Session R) (first : Nat) (scopes : List ScopeId) : List String :=
  (scopes.zipIdx first).map fun (scope, place) =>
    countText place ++ ": " ++ session.ownerText scope

/-- The expressions being edited, by their places above the base. -/
def stackLines (session : Session R) : List String :=
  session.placedOwners 1 session.editing.reverse

/-- The expressions put aside, from the first on. -/
def stashLines (session : Session R) : List String :=
  session.placedOwners 0 session.stash.reverse

/-- The remembered results. -/
def memoryLines (session : Session R) : List String :=
  ((session.scopes.memoryValues session.current).zipIdx).map fun (quantity, place) =>
    "mem[" ++ countText place ++ "] = " ++ quantity.text

/-- The catalogs. -/
def catalogLines (session : Session R) : List String :=
  session.environment.registry.catalogs.map fun entry =>
    let mark :=
      if (session.scopes.enabledIn session.current).contains entry.1 then " [enabled]" else ""
    entry.1 ++ " (" ++ countText entry.2.units.length ++ " units)" ++ mark

/-- The units of the enabled catalogs. -/
def unitLines (session : Session R) : List String :=
  let registry := session.environment.registry
  let enabled := session.scopes.enabledIn session.current
  (registry.catalogs.filter fun entry => enabled.contains entry.1).flatMap fun entry =>
    (Text.sortedBy Prod.fst entry.2.units).map fun (symbol, unit) =>
      symbol ++ " (" ++ registry.nameOf unit ++ ") in " ++ entry.1

/-- The lines of a listing. -/
def listing (session : Session R) (what : String) : Except Failure (List String) :=
  match what with
  | "vars" => .ok (orElse "No variables" session.variableLines)
  | "func" | "functions" => .ok (orElse "No functions" session.functionLines)
  | "constant" | "constants" => .ok session.constantLines
  | "stack" => .ok (orElse "Stack is empty" session.stackLines)
  | "mem" => .ok (orElse "Memory is empty" session.memoryLines)
  | "stash" => .ok (orElse "Stash is empty" session.stashLines)
  | "enabled" => .ok (orElse "No catalogs enabled" (session.enabledIn session.current))
  | "packs" => .ok (orElse "No catalogs" session.catalogLines)
  | "units" => .ok (orElse "No units" session.unitLines)
  | what => .error (.unknownListing what)

end Session
end QuantityCalculus
