import QuantityCalculus.Evaluation
import QuantityCalculus.Expr.FreeNames
import QuantityCalculus.Expr.Grouping
import QuantityCalculus.Expr.Written
import QuantityCalculus.Source.Statement
import QuantityCalculus.Text.Identifier
import QuantityCalculus.Units.Declaration

namespace QuantityCalculus

/-!
Functions as text, and the store that keeps them by name.

A function is written as its body on the first line and one default on each
further line, all with the parentheses that reading them back needs.  Blank
lines and comments are allowed, and a default may end in a semicolon.  The name
of a function is not part of its text.
-/

variable {R : Type} [Scalar R]

/-- The text of a function, each of its lines ended. -/
def FunctionDefinition.text (places : Nat) (definition : FunctionDefinition R) : String :=
  let defaults := definition.defaults.map fun entry =>
    entry.1 ++ " = " ++ entry.2.grouped.text places
  String.intercalate "\n" (definition.body.grouped.text places :: defaults) ++ "\n"

/-- The value of an assignment: without the blanks and the semicolon that may end its line. -/
def assignedValue (text : List Char) : List Char :=
  let ended := Text.trimEnd text
  let value := if ended.getLast? = some ';' then Text.trimEnd ended.dropLast else ended
  -- A value is never empty, even if that makes the semicolon its text.
  if value.isEmpty then text.take 1 else value

/-- The name and the value of an assignment `name = value`, if a line is one. -/
def assignment? (line : List Char) : Option (String × List Char) :=
  let start := Text.trimStart line
  let name := start.takeWhile Text.isNameCharacter
  if !Text.isName name then none
  else
    match Text.trimStart (start.drop name.length) with
    | '=' :: rest =>
        let value := Text.trimStart rest
        if value.isEmpty then none else some (String.ofList name, assignedValue value)
    | _ => none

/-- The defaults that the lines of a function make. -/
def readDefaults (function : String) :
    List String -> Table (Expr R) -> Except Failure (Table (Expr R))
  | [], defaults => .ok defaults
  | line :: rest, defaults =>
      match assignment? line.toList with
      | none => .error (.invalidDefault function line)
      | some (name, value) => do
          let expr ← Source.parseExpression (String.ofList value)
          readDefaults function rest (defaults.set name expr)

/-- The function that a text describes. -/
def FunctionDefinition.parse (name text : String) : Except Failure (FunctionDefinition R) :=
  match contentLines text with
  | [] => .error (.functionWithoutBody name)
  | first :: rest => do
      let body ← Source.parseExpression first
      let defaults ← readDefaults name rest []
      .ok ⟨body, defaults⟩

/-- A name that a function may have: a name, but no word of the language and no constant. -/
def validFunctionName (name : String) : Except Failure PUnit :=
  if !Text.isNameLine name.toList then .error (.invalidFunctionName name)
  else if reservedNames.contains name || builtInConstants.contains name then
    .error (.reservedFunctionName name)
  else .ok ⟨⟩

namespace FunctionStore

/-- The store with a function; one of the same name gives way. -/
def define (store : FunctionStore R) (name : String) (definition : FunctionDefinition R) :
    Except Failure (FunctionStore R) := do
  validFunctionName name
  .ok (store.set name definition)

/-- The store with the function that a text describes. -/
def defineText (store : FunctionStore R) (name text : String) :
    Except Failure (FunctionStore R) := do
  validFunctionName name
  let definition ← FunctionDefinition.parse name text
  .ok (store.set name definition)

/-- A stored function, which has to be there. -/
def fetch (store : FunctionStore R) (name : String) : Except Failure (FunctionDefinition R) :=
  match store.get? name with
  | some definition => .ok definition
  | none => .error (.unknownFunction name)

/-- The store without a function, which has to be there. -/
def discard (store : FunctionStore R) (name : String) : Except Failure (FunctionStore R) := do
  let _ ← store.fetch name
  .ok (store.remove name)

/-- The store with a function under another name, which has to be free. -/
def rename (store : FunctionStore R) (old new : String) : Except Failure (FunctionStore R) := do
  validFunctionName new
  if store.has new then .error (.duplicateFunction new)
  else
    let definition ← store.fetch old
    .ok ((store.remove old).set new definition)

/-- The stored functions in the order of their names. -/
def listed (store : FunctionStore R) : List (String × FunctionDefinition R) :=
  Text.sortedBy Prod.fst store

end FunctionStore

/-- The names that a function's body needs or its defaults supply, sorted. -/
def FunctionDefinition.parameters (store : FunctionStore R)
    (definition : FunctionDefinition R) : List String :=
  Text.sortedNames (definition.body.neededNames store ++ definition.defaults.keys)

end QuantityCalculus
