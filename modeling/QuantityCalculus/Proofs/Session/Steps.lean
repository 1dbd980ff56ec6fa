import Mathlib.Logic.Relation
import QuantityCalculus.Proofs.Session.Refusals

namespace QuantityCalculus

/-!
# What a line does to a session

Whatever a line does, it does in a few elementary changes: a result is remembered, a scope
is opened, a name is bound, something is stored and kept.  So what all of these leave alone
is left alone by every line, and an invariant of sessions needs one case for each of them.

The settings stand apart.  They are kept by some lines only, and by these at the very end,
so that what is kept is what is in force after the line.
-/

variable {R : Type} [Scalar R]

/-! ## Elementary changes -/

/-- The name under which a line stores a function, if that is what it does. -/
def Line.givenName? : Line -> Option String
  | .command .save (name :: _) => some name
  | .command .rename [_, new] => some new
  | _ => none

/-- The name of the constant that a line sets, if that is what it does. -/
def Line.constant? : Line -> Option String
  | .command .set (name :: _) => some name
  | _ => none

/-- The catalog in which a line defines a unit, if that is what it does. -/
def Line.catalog? : Line -> Option String
  | .command .unit (name :: _ :: _) => some name
  | _ => none

/-- A line keeps the settings: it ends the session, or it succeeds in changing a setting. -/
def Line.settles (session : Session R) : Line -> Bool
  | .command .leave _ => true
  | .command .disable _ => true
  | .command .enable names => names.all fun name => session.environment.registry.catalogs.has name
  | .command .mode (word :: _) => (AngleMode.parse word).toOption.isSome
  | _ => false

namespace Session

/-- The session with a scope on top that was just opened for an expression. -/
def withScope (session : Session R) (parent : ScopeId) (owner : Expr R) : Session R :=
  { session with
    scopes := (session.scopes.openChild parent (some owner)).2
    editing := session.scopes.length :: session.editing
    target := none }

/-- The session with other constants, which are kept. -/
def withConstants (session : Session R) (constants : Table R) : Session R :=
  Session.keeping { session with environment := { session.environment with constants } }
    fun tree => tree.saveConstants constants

/-- The session with a changed registry, of which one catalog is kept. -/
def withRegistry (session : Session R) (registry : Registry R) (name : String)
    (catalog : Catalog R) : Session R :=
  Session.keeping { session with environment := { session.environment with registry } }
    fun tree => tree.saveCatalog registry name catalog

/-- The session with another angle mode. -/
def withAngleMode (session : Session R) (angleMode : AngleMode) : Session R :=
  { session with environment := { session.environment with angleMode } }

/-- The session with some catalogs disabled in the current scope. -/
def disabling (session : Session R) (names : List String) : Session R :=
  { session with
    scopes := names.foldl (fun scopes name => scopes.disable session.current name)
      session.scopes }

/-- A constant is set or taken away, but none of those that are always there. -/
inductive Revises (line : Line) (constants : Table R) : Table R -> Prop
  | set {name : String} (given : line.constant? = some name)
      (bindable : Action.isBindable name = true)
      (own : builtInConstants.contains name = false) (value : R) :
      Revises line constants (constants.set name value)
  | removed {name : String} (own : builtInConstants.contains name = false) :
      Revises line constants (constants.remove name)

/-- One of the changes that a line is made of. -/
inductive Change (line : Line) (session : Session R) : Session R -> Prop
  | remembered (scope : ScopeId) (quantity : Quantity R) :
      Change line session { session with scopes := session.scopes.pushMemory scope quantity }
  | opened (parent : ScopeId) (owner : Expr R) :
      Change line session (session.withScope parent owner)
  | bound (scope : ScopeId) (name : String) (expr : Expr R) :
      Change line session { session with scopes := session.scopes.bind scope name expr none }
  | clearedBindings (scope : ScopeId) :
      Change line session { session with scopes := session.scopes.clearBindings scope }
  | clearedMemory (scope : ScopeId) :
      Change line session { session with scopes := session.scopes.clearMemory scope }
  | clearedStash : Change line session { session with stash := [] }
  | clearedStack : Change line session { session with editing := [], target := none }
  | dropped {scope : ScopeId} {rest : List ScopeId} (top : session.editing = scope :: rest) :
      Change line session { session with editing := rest, target := none }
  | putAside {scope : ScopeId} {rest : List ScopeId} (top : session.editing = scope :: rest) :
      Change line session
        { session with editing := rest, stash := scope :: session.stash, target := none }
  | restored {scope : ScopeId} {others : List ScopeId} (aside : session.stash = scope :: others) :
      Change line session (session.withRestored scope others)
  | stopped : Change line session { session with running := false }
  | enabled (scope : ScopeId) (name : String) :
      Change line session { session with scopes := session.scopes.enable scope name }
  | constants {constants : Table R}
      (revises : Revises line session.environment.constants constants) :
      Change line session (session.withConstants constants)
  | unit {name symbol shown : String} {unit : UnitOfMeasure} {changed : Registry R}
      {catalog : Catalog R} (given : line.catalog? = some name)
      (defined : session.environment.registry.defineUnit name symbol shown = .ok (unit, changed))
      (found : changed.catalog name = .ok catalog) (scope : ScopeId) :
      Change line session
        (withRegistry { session with
          scopes := (session.scopes.enable base name).enable scope name } changed name catalog)
  | relation {name source : String} {changed : Registry R} {catalog : Catalog R}
      (defined : session.environment.registry.defineRelation session.places name source =
        .ok changed)
      (found : changed.catalog name = .ok catalog) :
      Change line session (session.withRegistry changed name catalog)
  | saved {name : String} {definition : FunctionDefinition R} {functions : FunctionStore R}
      (given : line.givenName? = some name)
      (defined : FunctionStore.define session.environment.functions name definition =
        .ok functions) :
      Change line session
        ((session.storing functions).keeping fun tree =>
          tree.saveFunction session.places name definition)
  | reloaded {tree : FileTree} {name : String} {functions : FunctionStore R}
      (kept : session.files = some tree)
      (loaded : tree.loadFunction session.environment.functions name = .ok functions) :
      Change line session (session.storing functions)
  | renamed {old new : String} {functions : FunctionStore R}
      (given : line.givenName? = some new)
      (defined : FunctionStore.rename session.environment.functions old new = .ok functions) :
      Change line session
        ((session.storing functions).keeping fun tree => tree.renameFunction old new)
  | deleted {name : String} {functions : FunctionStore R}
      (discarded : FunctionStore.discard session.environment.functions name = .ok functions) :
      Change line session
        ((session.storing functions).keeping fun tree => tree.deleteFunction name)

/-- What a line does before it keeps the settings, if it keeps them. -/
abbrev Changes (line : Line) : Session R -> Session R -> Prop :=
  Relation.ReflTransGen (Change line)

/-- The settings are kept, possibly with a change that goes with them. -/
inductive Settling (session : Session R) : Session R -> Prop
  | kept : Settling session session.keepingSettings
  | mode (angleMode : AngleMode) :
      Settling session (session.withAngleMode angleMode).keepingSettings
  | disabled (names : List String) : Settling session (session.disabling names).keepingSettings

/-- All that a line may do. -/
inductive Passes (line : Line) (before after : Session R) : Prop
  /-- A target is chosen for the scope on top. -/
  | aims (unsettled : line.settles before = false) (name : String)
      (same : after = { before with target := some name })
  | changes (unsettled : line.settles before = false) (changed : Changes line before after)
  | settles (settled : line.settles before = true) {middle : Session R}
      (changed : Changes line before middle) (settling : Settling middle after)

/-- What no elementary change loses is not lost before the settings are kept. -/
theorem Changes.preserves {line : Line} {motive : Session R -> Prop}
    (each : forall {before after : Session R}, Change line before after -> motive before ->
      motive after)
    {before after : Session R} (changed : Changes line before after) (holds : motive before) :
    motive after := by
  induction changed with
  | refl => exact holds
  | tail _ change inductionHypothesis => exact each change inductionHypothesis

/-- A property that neither a change of the scopes and what is stored, nor the choice of a target,
nor the settings can break is kept by a line. -/
theorem Passes.preserves {line : Line} {motive : Session R -> Prop}
    (each : forall {before after : Session R}, Change line before after -> motive before ->
      motive after)
    (settling : forall {before after : Session R}, Settling before after -> motive before ->
      motive after)
    (aims : forall {session : Session R} (name : String), motive session ->
      motive { session with target := some name })
    {before after : Session R} (passes : Passes line before after) (holds : motive before) :
    motive after := by
  cases passes with
  | aims _ name same => exact same ▸ aims name holds
  | changes _ changed => exact changed.preserves each holds
  | settles _ changed further => exact settling further (changed.preserves each holds)

end Session

/-! ## Actions -/

namespace Action

open Session

variable {line : Line}

section

variable {α β : Type} {first : Action R α} {rest : α -> Action R β}

theorem leads_changes_bind (one : first.Leads (Changes line))
    (two : forall value, (rest value).Leads (Changes line)) :
    (first >>= rest).Leads (Changes line) :=
  Leads.bind Relation.ReflTransGen.trans one two

theorem OnlyReads.changes (reads : first.OnlyReads) : first.Leads (Changes line) :=
  reads.leads fun _ => .refl

theorem changes_throw (failure : Failure) : (throw failure : Action R α).Leads (Changes line) :=
  (onlyReads_throw failure).changes

theorem changes_pure (value : α) : (pure value : Action R α).Leads (Changes line) :=
  (onlyReads_pure value).changes

theorem changes_lift (result : Except Failure α) :
    (liftM result : Action R α).Leads (Changes line) :=
  (onlyReads_lift result).changes

/-- Answering after the last change changes nothing more. -/
theorem changes_bind_pure {before session after : Session R} {value : α} {result : β}
    (run : first session = (.ok value, after)) (changed : Changes line before after) :
    Changes line before ((first >>= fun _ => (pure result : Action R β)) session).2 := by
  rw [run_bind_of_ok run]
  exact changed

/-- A step that is taken or left out. -/
theorem leads_changes_optional {condition : Prop} [Decidable condition]
    {first : Action R PUnit} {rest : PUnit -> Action R α} (one : first.Leads (Changes line))
    (two : (rest ⟨⟩).Leads (Changes line)) :
    (if condition then first >>= rest else rest ⟨⟩).Leads (Changes line) :=
  Leads.ite (leads_changes_bind one fun _ => two) two

end

/-! ### Editing -/

theorem changes_remember (expr : Expr R) (scope : ScopeId) :
    (remember expr scope).Leads (Changes line) :=
  leads_changes_bind (onlyReads_value expr scope).changes fun quantity =>
    leads_changes_bind (fun _ => .single (.remembered scope quantity)) fun _ => changes_pure _

theorem changes_openInside (parent : ScopeId) (owner : Expr R) :
    (openInside parent owner).Leads (Changes line) :=
  fun _ => .single (.opened parent owner)

theorem changes_bind (scope : ScopeId) (name : String) (expr : Expr R) :
    (changeScopes fun scopes => scopes.bind scope name expr none).Leads (Changes line) :=
  fun _ => .single (.bound scope name expr)

/-- The scopes with some names bound in one of them, one name after the other. -/
theorem changes_bindAll (scope : ScopeId) (bindings : Table (Expr R)) (session : Session R) :
    Changes line session { session with
      scopes := bindings.foldl (fun scopes entry => scopes.bind scope entry.1 entry.2 none)
        session.scopes } := by
  induction bindings generalizing session with
  | nil => exact .refl
  | cons entry rest inductionHypothesis =>
      exact .head (.bound scope entry.1 entry.2) (inductionHypothesis _)

theorem changes_openEditor (owner : Expr R) (bindings : Table (Expr R)) :
    (openEditor owner bindings).Leads (Changes line) :=
  leads_changes_bind (changes_openInside Session.base owner) fun scope =>
    changes_bindAll scope bindings

theorem changes_progressOf (owner : Expr R) : (progressOf owner).Leads (Changes line) := by
  refine Leads.get_bind fun session => ?_
  split
  · exact leads_changes_bind (changes_remember owner session.current) fun _ => changes_pure _
  · exact changes_pure _

theorem changes_status : (status : Action R (List String)).Leads (Changes line) := by
  refine Leads.get_bind fun session => leads_changes_bind (changes_lift _) fun owner => ?_
  refine Leads.ite (changes_pure _) ?_
  exact leads_changes_bind (changes_progressOf owner) fun _ => changes_pure _

theorem changes_progressLines : (progressLines : Action R (List String)).Leads (Changes line) := by
  refine Leads.get_bind fun session => ?_
  split
  · exact leads_changes_bind (changes_progressOf _) fun _ => changes_pure _
  · exact changes_pure _

theorem changes_bindName (name : String) (expr : Expr R) :
    (bindName name expr).Leads (Changes line) := by
  refine Leads.get_bind fun session => ?_
  refine Leads.ite (onlyReads_throw_bind _ _).changes ?_
  refine Leads.ite (onlyReads_throw_bind _ _).changes ?_
  refine leads_changes_bind (changes_bind session.current name expr) fun _ => ?_
  exact leads_changes_bind changes_progressLines fun _ => changes_pure _

theorem changes_enterExpression (expr : Expr R) :
    (enterExpression expr).Leads (Changes line) := by
  refine Leads.get_bind fun session => ?_
  split
  · exact leads_changes_bind (changes_remember expr session.current) fun _ => changes_pure _
  · exact leads_changes_bind (changes_openInside session.current expr) fun _ => changes_pure _

/-! ### Constants and units -/

theorem changes_changeConstants {change : Table R -> Table R}
    (revises : forall constants, Revises line constants (change constants)) :
    (changeConstants change : Action R PUnit).Leads (Changes line) :=
  fun _ => .single (.constants (revises _))

theorem changes_setConstant (words : List String) :
    (setConstant words : Action R _).Leads (Changes (.command .set words)) := by
  unfold setConstant
  split
  · refine Leads.guarded (onlyReads_throw_bind _ _).changes fun bindable => ?_
    refine Leads.guarded (onlyReads_throw_bind _ _).changes fun own => ?_
    refine leads_changes_bind (changes_lift _) fun expr => Leads.get_bind fun session => ?_
    refine leads_changes_bind (onlyReads_value expr session.current).changes fun quantity => ?_
    refine leads_changes_bind (changes_changeConstants fun constants => ?_) fun _ => changes_pure _
    exact .set rfl (by simpa using bindable) (Bool.eq_false_iff.mpr own) _
  · exact changes_throw _

theorem changes_unsetConstant (words : List String) :
    (unsetConstant words : Action R _).Leads (Changes line) := by
  unfold unsetConstant
  split
  · refine Leads.guarded (onlyReads_throw_bind _ _).changes fun own => ?_
    refine Leads.get_bind fun session => Leads.ite (onlyReads_throw_bind _ _).changes ?_
    refine leads_changes_bind (changes_changeConstants fun constants => ?_) fun _ => changes_pure _
    exact .removed (Bool.eq_false_iff.mpr own)
  · exact changes_throw _

theorem changes_enabling (names : List String) (session : Session R) :
    Changes line session (session.enabling names) := by
  induction names generalizing session with
  | nil => exact .refl
  | cons name rest inductionHypothesis =>
      exact .head (.enabled session.current name) (inductionHypothesis _)

omit [Scalar R] in
/-- Catalogs are enabled all if all are there, and otherwise up to the first that is not. -/
theorem run_enableAll_cases (names : List String) (session : Session R) :
    ((names.all fun name => session.environment.registry.catalogs.has name) = true ∧
        enableAll names session = (.ok ⟨⟩, session.enabling names)) ∨
      ((names.all fun name => session.environment.registry.catalogs.has name) = false ∧
        ∃ known failure, enableAll names session = (.error failure, session.enabling known)) := by
  induction names generalizing session with
  | nil => exact Or.inl ⟨rfl, rfl⟩
  | cons name rest inductionHypothesis =>
      rw [enableAll, run_get_bind, run_bind, run_lift, List.all_cons, Table.has]
      cases found : session.environment.registry.catalogs.get? name with
      | none =>
          rw [Registry.catalog, found]
          exact Or.inr ⟨rfl, [], _, rfl⟩
      | some catalog =>
          rw [catalog_of_get? found, Option.isSome_some, Bool.true_and]
          rcases inductionHypothesis (session.enabling [name]) with
            ⟨all, run⟩ | ⟨some, known, failure, run⟩
          · exact Or.inl ⟨all, run⟩
          · exact Or.inr ⟨some, name :: known, failure, run⟩

theorem changes_defineUnit (words : List String) :
    (defineUnit words : Action R _).Leads (Changes (.command .unit words)) := by
  unfold defineUnit
  split
  · rename_i name symbol rest
    intro session
    rw [run_get_bind, run_bind, run_lift]
    cases defined : session.environment.registry.defineUnit name symbol (phrase rest) with
    | error failure => exact .refl
    | ok result =>
        rcases result with ⟨unit, changed⟩
        rcases catalog_defineUnit defined with ⟨catalog, found⟩
        have entered := run_keepCatalog { session with
          environment := { session.environment with registry := changed }
          scopes := (session.scopes.enable Session.base name).enable session.current name } found
        exact changes_bind_pure entered (.single (.unit rfl defined found session.current))
  · exact changes_throw _

theorem changes_declareRelation (words : List String) :
    (declareRelation words : Action R _).Leads (Changes line) := by
  unfold declareRelation
  split
  · rename_i name first rest
    intro session
    dsimp only
    rw [run_get_bind, run_bind, run_lift]
    cases defined : session.environment.registry.defineRelation session.places name
        (String.join (first :: rest)) with
    | error failure => exact .refl
    | ok changed =>
        rcases catalog_defineRelation defined with ⟨catalog, found⟩
        have entered := run_keepCatalog { session with
          environment := { session.environment with registry := changed } } found
        exact changes_bind_pure entered (.single (.relation defined found))
  · exact changes_throw _

/-! ### Functions -/

theorem changes_saveEdited (words : List String) :
    (saveEdited words : Action R _).Leads (Changes (.command .save words)) := by
  unfold saveEdited
  split
  · rename_i name rest
    intro session
    rw [run_get_bind, run_bind, run_lift]
    cases session.edited with
    | error failure => exact .refl
    | ok body =>
        dsimp only
        rw [run_bind, run_lift]
        cases defined : FunctionStore.define session.environment.functions name
            ⟨body, (session.scopes.ownBindings session.current).map fun entry =>
              (entry.1, entry.2.expr)⟩ with
        | error failure => exact .refl
        | ok functions => exact .single (.saved rfl defined)
  · exact changes_throw _

theorem changes_editFunction (verb name : String) :
    (editFunction verb name : Action R _).Leads (Changes line) := by
  refine Leads.get_bind fun session => leads_changes_bind (changes_lift _) fun definition => ?_
  refine leads_changes_bind (changes_openEditor _ _) fun _ => ?_
  exact leads_changes_bind changes_status fun _ => changes_pure _

theorem changes_reloadFunction (name : String) :
    (reloadFunction name : Action R PUnit).Leads (Changes line) := by
  intro session
  rcases run_reloadFunction name session with
    ⟨failure, run⟩ | run | ⟨tree, functions, kept, loaded, run⟩
  · rw [run]
  · rw [run]
  · rw [run]
    exact .single (.reloaded kept loaded)

theorem changes_loadFunction (words : List String) :
    (loadFunction words : Action R _).Leads (Changes line) := by
  unfold loadFunction
  split
  · exact leads_changes_bind (changes_reloadFunction _) fun _ => changes_editFunction _ _
  · exact changes_throw _

theorem changes_edit (words : List String) : (edit words : Action R _).Leads (Changes line) := by
  unfold edit
  split
  · exact changes_editFunction _ _
  · refine Leads.get_bind fun session => leads_changes_bind (changes_lift _) fun owner => ?_
    exact leads_changes_bind changes_status fun _ => changes_pure _

theorem changes_renameFunction (words : List String) :
    (renameFunction words : Action R _).Leads (Changes (.command .rename words)) := by
  unfold renameFunction
  split
  · rename_i old new
    intro session
    rw [run_get_bind, run_bind, run_lift]
    cases renamed : FunctionStore.rename session.environment.functions old new with
    | error failure => exact .refl
    | ok functions => exact .single (.renamed rfl renamed)
  · exact changes_throw _

theorem changes_deleteFunction (words : List String) :
    (deleteFunction words : Action R _).Leads (Changes line) := by
  unfold deleteFunction
  split
  · rename_i name rest
    intro session
    rw [run_get_bind, run_bind, run_lift]
    cases discarded : FunctionStore.discard session.environment.functions name with
    | error failure => exact .refl
    | ok functions => exact .single (.deleted discarded)
  · exact changes_throw _

/-! ### The stack -/

theorem changes_clear (words : List String) :
    (clear words : Action R _).Leads (Changes line) := by
  refine Leads.ite (onlyReads_throw_bind _ _).changes (Leads.get_bind fun session => ?_)
  refine leads_changes_optional (fun _ => .single (.clearedBindings session.current)) ?_
  refine leads_changes_optional (fun _ => .single (.clearedMemory session.current)) ?_
  refine leads_changes_optional (fun _ => .single .clearedStash) ?_
  exact leads_changes_optional (fun _ => .single .clearedStack) (changes_pure _)

omit [Scalar R] in
/-- The scope on top is taken away together with its expression, unless only the base is there. -/
theorem run_takeTop (session : Session R) :
    (∃ failure, takeTop session = (.error failure, session)) ∨
      ∃ scope rest owner, session.editing = scope :: rest ∧
        takeTop session =
          (.ok (scope, owner), { session with editing := rest, target := none }) := by
  rw [takeTop, run_get_bind]
  cases found : session.edited with
  | error failure => exact Or.inl ⟨failure, rfl⟩
  | ok owner =>
      cases places : session.editing with
      | nil =>
          rw [edited, isEditing, places] at found
          cases found
      | cons scope rest =>
          refine Or.inr ⟨scope, rest, owner, rfl, ?_⟩
          change (Except.ok (session.current, owner), { session with
            editing := session.editing.tail, target := none }) = _
          rw [current, places, List.headD_cons, List.tail_cons]

theorem changes_dropTop : (dropTop : Action R _).Leads (Changes line) := by
  refine leads_changes_bind (fun session => ?_) fun _ => Leads.get_bind fun _ => changes_pure _
  rcases run_takeTop session with ⟨failure, run⟩ | ⟨scope, rest, owner, top, run⟩
  · rw [run]
  · rw [run]
    exact .single (.dropped top)

theorem changes_stashTop : (stashTop : Action R _).Leads (Changes line) := by
  intro session
  rcases run_takeTop session with ⟨failure, run⟩ | ⟨scope, rest, owner, top, run⟩
  · rw [stashTop, run_bind, run]
  · rw [stashTop, run_bind_of_ok run]
    exact .single (.putAside top)

theorem changes_restore : (restore : Action R _).Leads (Changes line) := by
  intro session
  rw [restore, run_get_bind]
  cases aside : session.stash with
  | nil => exact .refl
  | cons scope others =>
      exact .head (.restored aside) (leads_changes_bind changes_status (fun _ => changes_pure _) _)

theorem changes_evaluateEdited : (evaluateEdited : Action R _).Leads (Changes line) :=
  Leads.get_bind fun session => leads_changes_bind (changes_lift _) fun owner =>
    leads_changes_bind (changes_remember owner session.current) fun _ => changes_pure _

/-! ### Solving and showing -/

theorem changes_solveExpression (expr : Expr R) (target substitute : String) :
    (solveExpression expr target substitute).Leads (Changes line) := by
  refine Leads.get_bind fun session => leads_changes_bind (changes_lift _) fun _ => ?_
  refine leads_changes_bind (changes_lift _) fun solved => ?_
  refine leads_changes_bind (changes_openEditor solved []) fun _ => ?_
  exact leads_changes_bind changes_status fun _ => changes_pure _

theorem changes_solve (words : List String) : (solve words : Action R _).Leads (Changes line) := by
  unfold solve
  split
  · refine Leads.get_bind fun session => leads_changes_bind (changes_lift _) fun expr => ?_
    exact changes_solveExpression expr _ _
  · refine Leads.get_bind fun session => leads_changes_bind (changes_lift _) fun definition => ?_
    exact changes_solveExpression definition.body _ _
  · exact changes_throw _

theorem changes_showMarkup (words : List String) :
    (showMarkup words : Action R _).Leads (Changes line) := by
  refine Leads.get_bind fun session => ?_
  refine Leads.ite ?_ ?_
  · exact leads_changes_bind (changes_lift _) fun _ => changes_pure _
  · exact leads_changes_bind (changes_lift _) fun _ => changes_pure _

/-! ### Settings -/

theorem passes_chooseMode (words : List String) :
    (chooseMode words : Action R _).Leads (Passes (.command .mode words)) := by
  intro session
  cases words with
  | nil => exact .changes rfl .refl
  | cons word rest =>
      cases parsed : AngleMode.parse word with
      | error failure =>
          have unsettled : Line.settles session (.command .mode (word :: rest)) = false := by
            rw [Line.settles, parsed]
            rfl
          refine .changes unsettled ?_
          unfold chooseMode
          dsimp only
          rw [run_bind, run_lift, parsed]
      | ok angleMode =>
          have settled : Line.settles session (.command .mode (word :: rest)) = true := by
            rw [Line.settles, parsed]
            rfl
          refine .settles settled .refl ?_
          unfold chooseMode
          dsimp only
          rw [run_bind, run_lift, parsed]
          exact .mode angleMode

theorem passes_enableCatalogs (names : List String) :
    (enableCatalogs names : Action R _).Leads (Passes (.command .enable names)) := by
  intro session
  rw [enableCatalogs, run_bind]
  rcases run_enableAll_cases names session with ⟨settled, run⟩ | ⟨unsettled, known, failure, run⟩
  · rw [run]
    exact .settles settled (changes_enabling names session) .kept
  · rw [run]
    exact .changes unsettled (changes_enabling known session)

theorem passes_command (command : Command) (words : List String) :
    (command.run words : Action R _).Leads (Passes (.command command words)) := by
  intro session
  cases command with
  | help => exact .changes rfl .refl
  | leave => exact .settles rfl (.single .stopped) .kept
  | list => exact .changes rfl ((onlyReads_get.bind fun _ => onlyReads_lift _).changes session)
  | set => exact .changes rfl (changes_setConstant words session)
  | unset => exact .changes rfl (changes_unsetConstant words session)
  | mode => exact passes_chooseMode words session
  | enable => exact passes_enableCatalogs words session
  | disable => exact .settles rfl .refl (.disabled words)
  | unit => exact .changes rfl (changes_defineUnit words session)
  | relation => exact .changes rfl (changes_declareRelation words session)
  | save => exact .changes rfl (changes_saveEdited words session)
  | load => exact .changes rfl (changes_loadFunction words session)
  | edit => exact .changes rfl (changes_edit words session)
  | rename => exact .changes rfl (changes_renameFunction words session)
  | delete => exact .changes rfl (changes_deleteFunction words session)
  | clear => exact .changes rfl (changes_clear words session)
  | drop => exact .changes rfl (changes_dropTop session)
  | stash => exact .changes rfl (changes_stashTop session)
  | restore => exact .changes rfl (changes_restore session)
  | evaluate => exact .changes rfl (changes_evaluateEdited session)
  | solve => exact .changes rfl (changes_solve words session)
  | graph => exact .changes rfl ((onlyReads_graph words).changes session)
  | latex => exact .changes rfl (changes_showMarkup words session)

theorem passes_statement {source : String} (statement : Expr R) :
    (enterStatement statement).Leads (Passes (.statement source)) := by
  intro session
  rw [enterStatement, run_get_bind]
  split
  · rename_i name
    exact .aims rfl name rfl
  · exact .changes rfl (changes_bindName _ _ session)
  · exact .changes rfl (changes_bindName _ _ session)
  · exact .changes rfl (changes_throw _ session)
  · cases session.isEditing with
    | false => exact .changes rfl (changes_enterExpression _ session)
    | true =>
        cases session.target with
        | none => exact .changes rfl (changes_enterExpression _ session)
        | some name => exact .changes rfl (changes_bindName _ _ session)

end Action

/-! ## Lines -/

namespace Session

theorem passes_line (line : Line) (session : Session R) :
    Passes line session (line.run session).2 := by
  cases line with
  | command command words => exact Action.passes_command command words session
  | statement source =>
      rw [Line.run, run_bind, Action.run_lift]
      cases (Source.parse source : Except Failure (Expr R)) with
      | error failure => exact .changes rfl .refl
      | ok statement => exact Action.passes_statement statement session

/-- A line without text does nothing, any other is carried out. -/
theorem execute_snd (session : Session R) (input : String) :
    (session.execute input).2 =
      if Text.trim input.toList = [] then session
      else ((Line.ofText (Text.trim input.toList)).run session).2 := by
  rw [execute]
  cases Text.trim input.toList with
  | nil => rfl
  | cons c rest =>
      rw [if_neg (List.cons_ne_nil c rest)]
      dsimp only
      rcases (Line.ofText (c :: rest)).run session with ⟨_ | _, _⟩ <;> rfl

/-- A line that succeeds shows what it was carried out for. -/
theorem execute_of_run {session after : Session R} {input : String} {command : Command}
    {words lines : List String}
    (asks : Line.ofText (Text.trim input.toList) = .command command words)
    (run : (Line.command command words).run session = (.ok lines, after)) :
    session.execute input = (lines, after) := by
  rw [execute]
  split
  · rename_i empty
    have nothing : Line.ofText [] = .statement "" := by decide +kernel
    rw [empty, nothing] at asks
    cases asks
  · rw [asks, run]

/-- What every line of input does. -/
theorem passes_execute (session : Session R) (input : String) :
    Passes (Line.ofText (Text.trim input.toList)) session (session.execute input).2 := by
  rw [execute_snd]
  split
  · rename_i blank
    rw [blank]
    exact .changes rfl .refl
  · exact passes_line _ session

/-- A session after some input lines. -/
def afterLines (session : Session R) (inputs : List String) : Session R :=
  inputs.foldl (fun session input => (session.execute input).2) session

/-- What every input keeps holds after all of them. -/
theorem preserves_afterLines {motive : Session R -> Prop} {inputs : List String}
    (each : forall session input, input ∈ inputs -> motive session ->
      motive (session.execute input).2)
    {session : Session R} (holds : motive session) : motive (session.afterLines inputs) := by
  induction inputs generalizing session with
  | nil => exact holds
  | cons input rest inductionHypothesis =>
      exact inductionHypothesis
        (fun session other member => each session other (List.mem_cons_of_mem _ member))
        (each session input List.mem_cons_self holds)

end Session
end QuantityCalculus
