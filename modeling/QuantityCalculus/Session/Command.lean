import QuantityCalculus.Plot
import QuantityCalculus.Session.Editing
import QuantityCalculus.Session.Listing
import QuantityCalculus.Solution
import QuantityCalculus.Storage.Catalogs
import QuantityCalculus.Storage.Constants
import QuantityCalculus.Storage.Functions
import QuantityCalculus.Verification

namespace QuantityCalculus

/-!
The commands of a session.

A command takes the words that follow it on its line and answers with the lines
to show.
-/

/-- The commands. -/
inductive Command where
  | help | leave | list | set | unset | mode | enable | disable | unit | relation | save | load
  | edit | rename | delete | clear | drop | stash | restore | evaluate | solve | graph | latex
deriving DecidableEq, Repr

namespace Command

/-- The words for the commands. -/
def words : List (String × Command) :=
  [("help", help), ("exit", leave), ("quit", leave), ("list", list), ("set", set),
   ("unset", unset), ("mode", mode), ("enable", enable), ("disable", disable), ("unit", unit),
   ("relation", relation), ("save", save), ("load", load), ("edit", edit), ("rename", rename),
   ("delete", delete), ("clear", clear), ("drop", drop), ("stash", stash), ("restore", restore),
   ("eval", evaluate), ("solve", solve), ("graph", graph), ("latex", latex)]

/-- The command of a word. -/
def ofWord? (word : String) : Option Command :=
  (words.find? fun entry => entry.1 == word).map Prod.snd

/-- What the help command shows. -/
def helpLines : List String :=
  ["Enter an expression to evaluate it, e.g. 230[V]*16[A] or frac(1)(2).",
   "Expressions with unknown variables open an editor: bind them with name = value.",
   "",
   "Commands:",
   "  list <vars|func|constant|stack|mem|stash|enabled|packs|units>",
   "  set <name> <value>        define a constant      unset <name>",
   "  mode [deg|rad|grad]       show or set the angle mode",
   "  enable|disable <catalog>  toggle a unit catalog",
   "  unit <catalog> <symbol> [display name]",
   "  relation <catalog> <a*b=c>",
   "  save <name> | load <name> | edit <name> | rename <old> <new> | delete <name>",
   "  solve <for> <lhs> [function]",
   "  graph [--ascii] <f>; <g>; ...",
   "  latex [expression]        render in LaTeX markup",
   "  eval | drop | stash | restore",
   "  clear <vars|mem|stash|stack|all>",
   "  help | exit"]

end Command

namespace Action

variable {R : Type} [Scalar R]

/-- Words joined by single blanks. -/
def phrase (words : List String) : String := String.intercalate " " words

/-! ## Constants, angles and units -/

/-- Changes the constants and keeps them. -/
def changeConstants (change : Table R -> Table R) : Action R PUnit := do
  changeEnvironment fun environment =>
    { environment with constants := change environment.constants }
  let constants := (← get).environment.constants
  keep fun tree => tree.saveConstants constants

/-- Defines a constant as the value of an expression. -/
def setConstant : List String -> Action R (List String)
  | name :: first :: rest => do
      if !isBindable name then throw (.invalidConstantName name)
      if builtInConstants.contains name then throw (.builtInConstant name)
      let expr ← Source.parseExpression (phrase (first :: rest))
      let quantity ← value expr (← get).current
      changeConstants fun constants => constants.set name quantity.base
      return [name ++ " = " ++ (Quantity.ofScalar quantity.base).text]
  | _ => throw (.usage "set <name> <value>")

/-- Removes a constant. -/
def unsetConstant : List String -> Action R (List String)
  | name :: _ => do
      if builtInConstants.contains name then throw (.builtInConstant name)
      if !(← get).environment.constants.has name then throw (.unknownConstant name)
      changeConstants fun constants => constants.remove name
      return ["Removed constant " ++ name]
  | [] => throw (.usage "unset <name>")

/-- Shows the angle mode, after a change if there is a word for a new one. -/
def chooseMode (words : List String) : Action R (List String) := do
  if let word :: _ := words then
    let angleMode ← AngleMode.parse word
    changeEnvironment fun environment => { environment with angleMode }
    keepSettings
  return ["Angle mode: " ++ (← get).environment.angleMode.name]

/-- Shows the catalogs that are enabled in the current scope. -/
def enabledLine (none : String) : Action R (List String) := do
  let session ← get
  let names := session.enabledIn session.current
  return ["Enabled: " ++ if names.isEmpty then none else String.intercalate ", " names]

/-- Enables catalogs in the current scope, up to the first that is not there. -/
def enableAll : List String -> Action R PUnit
  | [] => pure ⟨⟩
  | name :: rest => do
      let session ← get
      let _ ← session.environment.registry.catalog name
      changeScopes fun scopes => scopes.enable session.current name
      enableAll rest

/-- Enables catalogs in the current scope. -/
def enableCatalogs (names : List String) : Action R (List String) := do
  enableAll names
  keepSettings
  enabledLine ""

/-- Disables catalogs in the current scope. -/
def disableCatalogs (names : List String) : Action R (List String) := do
  let session ← get
  changeScopes fun scopes =>
    names.foldl (fun scopes name => scopes.disable session.current name) scopes
  keepSettings
  enabledLine "none"

/-- Keeps a catalog as it now is. -/
def keepCatalog (name : String) : Action R PUnit := do
  let registry := (← get).environment.registry
  let catalog ← registry.catalog name
  keep fun tree => tree.saveCatalog registry name catalog

/-- Defines a unit, and enables its catalog in the base and in the current scope. -/
def defineUnit : List String -> Action R (List String)
  | catalog :: symbol :: rest => do
      let session ← get
      let (unit, registry) ←
        session.environment.registry.defineUnit catalog symbol (phrase rest)
      changeEnvironment fun environment => { environment with registry }
      changeScopes fun scopes =>
        (scopes.enable Session.base catalog).enable session.current catalog
      keepCatalog catalog
      return ["Defined unit " ++ unit.label.symbol ++ " (" ++ registry.nameOf unit ++ ") in "
        ++ catalog]
  | _ => throw (.usage "unit <catalog> <symbol> [display name]")

/-- Declares a relation between units. -/
def declareRelation : List String -> Action R (List String)
  | catalog :: first :: rest => do
      let line := String.join (first :: rest)
      let session ← get
      let registry ← session.environment.registry.defineRelation session.places catalog line
      changeEnvironment fun environment => { environment with registry }
      keepCatalog catalog
      return ["Declared " ++ line ++ " in " ++ catalog]
  | _ => throw (.usage "relation <catalog> <a*b=c>")

/-! ## Functions -/

/-- Changes the stored functions. -/
def setFunctions (functions : FunctionStore R) : Action R PUnit :=
  changeEnvironment fun environment => { environment with functions }

/-- Stores the expression being edited, with what is bound in its scope as defaults. -/
def saveEdited : List String -> Action R (List String)
  | name :: _ => do
      let session ← get
      let body ← session.edited
      let own := session.scopes.ownBindings session.current
      let definition : FunctionDefinition R :=
        ⟨body, own.map fun entry => (entry.1, entry.2.expr)⟩
      setFunctions (← FunctionStore.define session.environment.functions name definition)
      keep fun tree => tree.saveFunction session.places name definition
      return ["Saved function " ++ name]
  | [] => throw (.usage "save <name>")

/-- Edits a stored function in a scope of its own. -/
def editFunction (verb name : String) : Action R (List String) := do
  let session ← get
  let definition ← FunctionStore.fetch session.environment.functions name
  openEditor definition.body definition.defaults
  return (verb ++ " " ++ name ++ ": " ++ session.shown definition.body) :: (← status)

/-- Reads a function again from what is kept, if anything is kept. -/
def reloadFunction (name : String) : Action R PUnit := do
  let session ← get
  if let some tree := session.files then
    match tree.loadFunction session.environment.functions name with
    | .ok functions => setFunctions functions
    | .error (.failure failure) => throw failure
    | .error _ => throw (.unknownFunction name)

/-- Loads a function and edits it. -/
def loadFunction : List String -> Action R (List String)
  | name :: _ => do
      reloadFunction name
      editFunction "Loaded" name
  | [] => throw (.usage "load <name>")

/-- Edits a stored function, or shows the expression being edited. -/
def edit : List String -> Action R (List String)
  | name :: _ => editFunction "Editing" name
  | [] => do
      let session ← get
      let owner ← session.edited
      return ("Editing " ++ session.shown owner) :: (← status)

/-- Stores a function under another name. -/
def renameFunction : List String -> Action R (List String)
  | [old, new] => do
      setFunctions (← FunctionStore.rename (← get).environment.functions old new)
      keep fun tree => tree.renameFunction old new
      return ["Renamed " ++ old ++ " to " ++ new]
  | _ => throw (.usage "rename <old> <new>")

/-- Removes a stored function. -/
def deleteFunction : List String -> Action R (List String)
  | name :: _ => do
      setFunctions (← FunctionStore.discard (← get).environment.functions name)
      keep fun tree => tree.deleteFunction name
      return ["Deleted function " ++ name]
  | [] => throw (.usage "delete <name>")

/-! ## The stack -/

/-- Clears a part of the session or all of it. -/
def clear (words : List String) : Action R (List String) := do
  let what := (words.head?.map Text.lowerCase).getD "all"
  if !(["vars", "mem", "stash", "stack", "all"].contains what) then throw (.unknownClearing what)
  let all := what == "all"
  let current := (← get).current
  if all || what == "vars" then changeScopes fun scopes => scopes.clearBindings current
  if all || what == "mem" then changeScopes fun scopes => scopes.clearMemory current
  if all || what == "stash" then modify fun session => { session with stash := [] }
  if all || what == "stack" then
    modify fun session => { session with editing := [], target := none }
  return ["Cleared " ++ what]

/-- Takes the scope on top away, and answers with its place and its expression. -/
def takeTop : Action R (ScopeId × Expr R) := do
  let session ← get
  let owner ← session.edited
  modify fun session => { session with editing := session.editing.tail, target := none }
  return (session.current, owner)

/-- Gives up the expression being edited. -/
def dropTop : Action R (List String) := do
  let (_, owner) ← takeTop
  return ["Dropped " ++ (← get).shown owner]

/-- Puts the expression being edited aside. -/
def stashTop : Action R (List String) := do
  let (scope, owner) ← takeTop
  modify fun session => { session with stash := scope :: session.stash }
  return ["Stashed " ++ (← get).shown owner]

/-- Takes up again what was put aside last. -/
def restore : Action R (List String) := do
  let session ← get
  match session.stash with
  | [] => throw .emptyStash
  | scope :: rest => do
      set { session with stash := rest }
      enter scope
      return ("Restored " ++ session.ownerText scope) :: (← status)

/-- Evaluates the expression being edited. -/
def evaluateEdited : Action R (List String) := do
  let session ← get
  let owner ← session.edited
  return [session.shown owner ++ " = " ++ (← remember owner session.current)]

/-! ## Solving and showing -/

/-- The verdict on a solution, if solutions are verified and this one can be. -/
def verdictLines (session : Session R) (expr : Expr R) (target substitute : String)
    (solved : Expr R) : List String :=
  if !session.verifies then []
  else
    match verifySolution session.environment.functions expr target substitute solved with
    | .ok true => ["Verified"]
    | .ok false => ["Warning: solution could not be verified"]
    | .error _ => []

/-- Isolates a variable in an expression, and edits the solution. -/
def solveExpression (expr : Expr R) (target substitute : String) : Action R (List String) := do
  let session ← get
  checkSolvable expr target
  let solved ← QuantityCalculus.solve expr target substitute
  openEditor solved []
  return (target ++ " = " ++ session.shown solved) ::
    verdictLines session expr target substitute solved ++ (← status)

/-- Isolates a variable in the expression being edited or in the body of a function. -/
def solve : List String -> Action R (List String)
  | [target, substitute] => do
      solveExpression (← (← get).edited) target substitute
  | [target, substitute, function] => do
      let definition ← FunctionStore.fetch (← get).environment.functions function
      solveExpression definition.body target substitute
  | _ => throw (.usage "solve <for> <lhs> [function]")

/-- What a part of a graph command stands for: a stored function by its name, or an expression. -/
def graphed (functions : FunctionStore R) (part : String) : Except Failure (Expr R) :=
  if functions.has part then .ok (.call part .nil) else Source.parseExpression part

/-- The word that asks for a drawing with characters. -/
def characterOption : String := "--ascii"

/-- The expressions that a graph command names, or the one being edited if it names none. -/
def graphedExprs (session : Session R) (words : List String) : Except Failure (List (Expr R)) :=
  let text := phrase (words.filter (· != characterOption))
  if text = "" && session.isEditing then .ok (session.ownerOf? session.current).toList
  else
    (((Text.piecesOf ';' text).map Text.trimmed).filter (· != "")).mapM
      (graphed session.environment.functions)

/-- Draws expressions over `x`. -/
def graph (words : List String) : Action R (List String) := do
  let session ← get
  let exprs ← graphedExprs session words
  Plot.drawExpressions session.environment session.scopes session.current exprs "x"
    (Scalar.ofInt (-10)) (Scalar.ofInt 10) 0

/-- Shows the markup of a statement or of the expression being edited. -/
def showMarkup (words : List String) : Action R (List String) := do
  let session ← get
  let expr ← if words.isEmpty then session.edited else Source.parse (phrase words)
  return [expr.write .markup session.places]

/-- Ends the session. -/
def leave : Action R (List String) := do
  modify fun session => { session with running := false }
  keepSettings
  return []

end Action

/-- Carries out a command with the words that follow it. -/
def Command.run {R : Type} [Scalar R] (command : Command) (words : List String) :
    Action R (List String) :=
  match command with
  | .help => return Command.helpLines
  | .leave => Action.leave
  | .list => do (← get).listing ((words.head?.map Text.lowerCase).getD "vars")
  | .set => Action.setConstant words
  | .unset => Action.unsetConstant words
  | .mode => Action.chooseMode words
  | .enable => Action.enableCatalogs words
  | .disable => Action.disableCatalogs words
  | .unit => Action.defineUnit words
  | .relation => Action.declareRelation words
  | .save => Action.saveEdited words
  | .load => Action.loadFunction words
  | .edit => Action.edit words
  | .rename => Action.renameFunction words
  | .delete => Action.deleteFunction words
  | .clear => Action.clear words
  | .drop => Action.dropTop
  | .stash => Action.stashTop
  | .restore => Action.restore
  | .evaluate => Action.evaluateEdited
  | .solve => Action.solve words
  | .graph => Action.graph words
  | .latex => Action.showMarkup words

end QuantityCalculus
