import QuantityCalculus.Number.BinaryScalar
import QuantityCalculus.Proofs.Scopes
import QuantityCalculus.Proofs.Session.Actions
import QuantityCalculus.Proofs.Units.Writing
import QuantityCalculus.Session.Start

namespace QuantityCalculus

/-!
# Lines that fail

A command that fails has mostly done nothing yet: what it looks up and evaluates comes
first, and what it changes cannot fail.  A statement may bind a name before its result is
computed, and this binding stays.

Three kinds of commands stop half-way.  Several catalogs are enabled one by one, up to the
first that is not there.  An editor that `load`, `edit` or `solve` opened stays open when the
expression in it cannot be evaluated, and so does a scope that `restore` took up again.
-/

variable {R : Type}

namespace Session

/-! ## What a failure leaves behind -/

/-- The session with a name bound in the current scope. -/
def binding (session : Session R) (name : String) (expr : Expr R) : Session R :=
  { session with scopes := session.scopes.bind session.current name expr none }

/-- The session with some catalogs enabled in the current scope. -/
def enabling (session : Session R) (names : List String) : Session R :=
  { session with
    scopes := names.foldl (fun scopes name => scopes.enable session.current name)
      session.scopes }

/-- The session with other stored functions. -/
def storing (session : Session R) (functions : FunctionStore R) : Session R :=
  { session with environment := { session.environment with functions } }

/-- The session with a scope above the base on top, for an expression and with some names bound. -/
def withEditor (session : Session R) (owner : Expr R) (bindings : Table (Expr R)) : Session R :=
  let opened := (session.scopes.openChild base (some owner)).2
  { session with
    scopes := bindings.foldl
      (fun scopes entry => scopes.bind session.scopes.length entry.1 entry.2 none) opened
    editing := session.scopes.length :: session.editing
    target := none }

/-- The session with the scope on top that was put aside last. -/
def withRestored (session : Session R) (scope : ScopeId) (others : List ScopeId) : Session R :=
  { session with stash := others, editing := scope :: session.editing, target := none }

/-- What is remembered in a scope itself. -/
def ownMemory (session : Session R) (scope : ScopeId) : List (Quantity R) :=
  ((session.scopes.scope? scope).map Scope.memory).getD []

/-- A session after a line that failed, which differs by no more than the binding that the line
made before its result could not be computed. -/
structure SameUpToBinding [Scalar R] (before : Session R) (failure : Failure) (line : Line)
    (after : Session R) : Prop where
  stack : after.stack = before.stack
  stash : after.stash = before.stash
  target : after.target = before.target
  enabled : forall scope, after.enabledIn scope = before.enabledIn scope
  memory : forall scope, after.ownMemory scope = before.ownMemory scope
  constants : after.environment.constants = before.environment.constants
  angleMode : after.environment.angleMode = before.environment.angleMode
  functions : after.environment.functions = before.environment.functions
  registry : after.environment.registry = before.environment.registry
  rest : after = before ∨ ∃ source name expr, line = .statement source ∧
    after = before.binding name expr ∧ Action.progressLines after = (.error failure, after)

/-- The result of what is being edited is to be shown, but cannot be computed. -/
def CannotShow [Scalar R] (session : Session R) (failure : Failure) : Prop :=
  Action.status session = (.error failure, session)

/-- What a command that stops half-way leaves behind. -/
inductive HalfWay [Scalar R] (before : Session R) (failure : Failure) :
    Line -> Session R -> Prop where
  /-- Some catalogs are there, the next is not. -/
  | enable {known others : List String} {unknown : String} (begun : known ≠ [])
      (there : forall name, name ∈ known -> before.environment.registry.catalogs.has name)
      (missing : failure = .unknownCatalog unknown) :
      HalfWay before failure (.command .enable (known ++ unknown :: others))
        (before.enabling known)
  /-- A solution, or a stored function, is being edited. -/
  | editor {command : Command} {words : List String} {owner : Expr R}
      {bindings : Table (Expr R)} (opens : command = .edit ∨ command = .solve)
      (stuck : (before.withEditor owner bindings).CannotShow failure) :
      HalfWay before failure (.command command words) (before.withEditor owner bindings)
  /-- A function that was read again is being edited. -/
  | loaded {words : List String} {functions : FunctionStore R} {owner : Expr R}
      {bindings : Table (Expr R)}
      (stuck : ((before.storing functions).withEditor owner bindings).CannotShow failure) :
      HalfWay before failure (.command .load words)
        ((before.storing functions).withEditor owner bindings)
  /-- A scope is no longer put aside. -/
  | restored {words : List String} {scope : ScopeId} {others : List ScopeId}
      (aside : before.stash = scope :: others)
      (stuck : (before.withRestored scope others).CannotShow failure) :
      HalfWay before failure (.command .restore words) (before.withRestored scope others)

/-- A line is refused, with this session left behind. -/
def Refuses [Scalar R] (session : Session R) (input : String) (failure : Failure)
    (after : Session R) : Prop :=
  Text.trim input.toList ≠ [] ∧
    (Line.ofText (Text.trim input.toList)).run session = (.error failure, after)

section

variable [Scalar R] {session after : Session R} {failure : Failure} {line : Line}

theorem sameUpToBinding_of_eq (same : after = session) :
    SameUpToBinding session failure line after := by
  rw [same]
  exact ⟨rfl, rfl, rfl, fun _ => rfl, fun _ => rfl, rfl, rfl, rfl, rfl, Or.inl rfl⟩

omit [Scalar R] in
/-- A binding shows in no other part of a scope. -/
theorem scope?_binding {α : Type} (part : Scope R -> α) (session : Session R)
    (name : String) (expr : Expr R) (scope : ScopeId)
    (apart : forall found bindings, part { found with bindings } = part found) :
    ((session.binding name expr).scopes.scope? scope).map part =
      (session.scopes.scope? scope).map part := by
  change ((session.scopes.update _ _).scope? scope).map part = _
  rw [Scopes.scope?_update, Option.map_map]
  refine congrFun (congrArg _ (funext fun found => ?_)) _
  rw [Function.comp_apply]
  split
  · exact apart found _
  · rfl

theorem sameUpToBinding_binding {source name : String} {expr : Expr R}
    (failed : Action.progressLines (session.binding name expr) =
      (.error failure, session.binding name expr)) :
    SameUpToBinding session failure (.statement source) (session.binding name expr) where
  stack := rfl
  stash := rfl
  target := rfl
  enabled := by
    intro scope
    rw [enabledIn, Scopes.enabledIn, scope?_binding Scope.enabled _ _ _ _ fun _ _ => rfl]
    rfl
  memory := by
    intro scope
    rw [ownMemory, scope?_binding Scope.memory _ _ _ _ fun _ _ => rfl]
    rfl
  constants := rfl
  angleMode := rfl
  functions := rfl
  registry := rfl
  rest := Or.inr ⟨source, name, expr, rfl, rfl, failed⟩

end

end Session

/-- A unit that was just defined is in its catalog. -/
theorem Registry.exists_unit_of_defineUnit {registry changed : Registry R}
    {name symbol shown : String} {unit : UnitOfMeasure}
    (defined : registry.defineUnit name symbol shown = .ok (unit, changed)) :
    ∃ catalog, changed.catalogs.get? name = some catalog ∧
      catalog.units.get? symbol = some unit := by
  rw [defineUnit] at defined
  split at defined
  · cases defined
  · dsimp only at defined
    split at defined
    · rename_i known there
      cases held : registry.catalogs.get? name with
      | none =>
          rw [held] at there
          cases there
      | some catalog =>
          rw [held, Option.getD_some] at there
          cases defined
          refine ⟨catalog, ?_, there⟩
          rw [← held]
          split <;> rfl
    · cases defined
      exact ⟨_, (Table.get?_set _ _ _ _).trans (if_pos rfl),
        (Table.get?_set _ _ _ _).trans (if_pos rfl)⟩

namespace Action

open Session

section

variable {session after : Session R} {failure : Failure}

theorem neverFails_keep (change : FileTree -> FileTree × Bool) :
    (keep change : Action R PUnit).NeverFails :=
  neverFails_modify _

/-! ## Results that are shown -/

variable [Scalar R]

theorem allOrNothing_progressOf (owner : Expr R) : (progressOf owner).AllOrNothing := by
  refine AllOrNothing.get_bind fun session => ?_
  split
  · exact (allOrNothing_remember owner session.current).bind_neverFails fun _ => neverFails_pure _
  · exact allOrNothing_pure _

theorem allOrNothing_status : (status : Action R (List String)).AllOrNothing := by
  refine AllOrNothing.get_bind fun session => AllOrNothing.lift_bind fun owner => ?_
  refine AllOrNothing.ite (allOrNothing_pure _) ?_
  exact (allOrNothing_progressOf owner).bind_neverFails fun _ => neverFails_pure _

theorem allOrNothing_progressLines : (progressLines : Action R (List String)).AllOrNothing := by
  refine AllOrNothing.get_bind fun session => ?_
  split
  · exact (allOrNothing_progressOf _).bind_neverFails fun _ => neverFails_pure _
  · exact allOrNothing_pure _

theorem allOrNothing_enterExpression (expr : Expr R) : (enterExpression expr).AllOrNothing := by
  refine AllOrNothing.get_bind fun session => ?_
  split
  · exact (allOrNothing_remember expr session.current).bind_neverFails fun _ => neverFails_pure _
  · exact NeverFails.bind_pure (fun _ => ⟨_, _, rfl⟩) _

/-- When the lines that end with where the editing stands are not shown, this is what failed. -/
theorem cannotShow_of_status {lines : List String -> List String}
    (failed : (status >>= fun shown => pure (lines shown)) session = (.error failure, after)) :
    after = session ∧ session.CannotShow failure := by
  rcases run_bind_eq_error.mp failed with shown | ⟨_, _, _, impossible⟩
  · have same := allOrNothing_status _ _ _ shown
    rw [same] at shown
    exact ⟨same, shown⟩
  · cases impossible

/-! ## Commands that do all or nothing -/

theorem neverFails_changeConstants (change : Table R -> Table R) :
    (changeConstants change).NeverFails :=
  (neverFails_modify _).bind fun _ => neverFails_get.bind fun _ => neverFails_keep _

theorem allOrNothing_setConstant (words : List String) :
    (setConstant words : Action R _).AllOrNothing := by
  unfold setConstant
  split
  · refine AllOrNothing.ite (allOrNothing_throw_bind _ _) ?_
    refine AllOrNothing.ite (allOrNothing_throw_bind _ _) ?_
    refine AllOrNothing.lift_bind fun expr => AllOrNothing.get_bind fun session => ?_
    refine (onlyReads_value expr session.current).bind_allOrNothing fun quantity => ?_
    exact (neverFails_changeConstants _).bind_pure _
  · exact allOrNothing_throw _

theorem allOrNothing_unsetConstant (words : List String) :
    (unsetConstant words : Action R _).AllOrNothing := by
  unfold unsetConstant
  split
  · refine AllOrNothing.ite (allOrNothing_throw_bind _ _) (AllOrNothing.get_bind fun session => ?_)
    refine AllOrNothing.ite (allOrNothing_throw_bind _ _) ?_
    exact (neverFails_changeConstants _).bind_pure _
  · exact allOrNothing_throw _

theorem allOrNothing_chooseMode (words : List String) :
    (chooseMode words : Action R _).AllOrNothing := by
  unfold chooseMode
  dsimp only
  split
  · refine AllOrNothing.lift_bind fun angleMode => ?_
    exact ((neverFails_modify _).bind fun _ => (neverFails_modify _).bind fun _ =>
      neverFails_get.bind fun _ => neverFails_pure _).allOrNothing
  · exact AllOrNothing.get_bind fun _ => allOrNothing_pure _

theorem neverFails_disableCatalogs (names : List String) :
    (disableCatalogs names : Action R _).NeverFails :=
  neverFails_get.bind fun _ => (neverFails_modify _).bind fun _ =>
    (neverFails_modify _).bind fun _ => neverFails_get.bind fun _ => neverFails_pure _

/-- A catalog that is there can be kept, or is lost without a word. -/
theorem run_keepCatalog {name : String} {catalog : Catalog R} (session : Session R)
    (found : session.environment.registry.catalog name = .ok catalog) :
    keepCatalog name session = (.ok ⟨⟩, session.keeping fun tree =>
      tree.saveCatalog session.environment.registry name catalog) := by
  rw [keepCatalog, run_get_bind, found]
  rfl

omit [Scalar R] in
theorem catalog_of_get? {registry : Registry R} {name : String} {catalog : Catalog R}
    (found : registry.catalogs.get? name = some catalog) : registry.catalog name = .ok catalog := by
  rw [Registry.catalog, found]

omit [Scalar R] in
theorem catalog_defineUnit {registry changed : Registry R} {catalog symbol name : String}
    {unit : UnitOfMeasure}
    (defined : registry.defineUnit catalog symbol name = .ok (unit, changed)) :
    ∃ found, changed.catalog catalog = .ok found := by
  rcases Registry.exists_unit_of_defineUnit defined with ⟨found, there, _⟩
  exact ⟨found, catalog_of_get? there⟩

theorem catalog_defineRelation {registry changed : Registry R} {places : Nat}
    {name line : String} (defined : registry.defineRelation places name line = .ok changed) :
    ∃ found, changed.catalog name = .ok found := by
  rcases Registry.of_defineRelation defined with ⟨_, _, _, _, _, _, _, rfl⟩
  exact ⟨_, catalog_of_get? ((Table.get?_set _ _ _ _).trans (if_pos rfl))⟩

theorem allOrNothing_defineUnit (words : List String) :
    (defineUnit words : Action R _).AllOrNothing := by
  unfold defineUnit
  split
  · rename_i catalog symbol rest
    refine AllOrNothing.get_bind fun looked => ?_
    cases defined : looked.environment.registry.defineUnit catalog symbol (phrase rest) with
    | error failure => exact OnlyReads.allOrNothing fun _ => rfl
    | ok result =>
        rcases result with ⟨unit, registry⟩
        rcases catalog_defineUnit defined with ⟨found, there⟩
        refine NeverFails.allOrNothing fun session => ?_
        have keeps := run_keepCatalog { session with
          environment := { session.environment with registry }
          scopes := (session.scopes.enable Session.base catalog).enable looked.current catalog }
          there
        exact ⟨_, _, run_bind_of_ok keeps _⟩
  · exact allOrNothing_throw _

theorem allOrNothing_declareRelation (words : List String) :
    (declareRelation words : Action R _).AllOrNothing := by
  unfold declareRelation
  split
  · rename_i catalog first rest
    refine AllOrNothing.get_bind fun looked => ?_
    cases defined : looked.environment.registry.defineRelation looked.places catalog
        (String.join (first :: rest)) with
    | error failure => exact OnlyReads.allOrNothing fun _ => rfl
    | ok registry =>
        rcases catalog_defineRelation defined with ⟨found, there⟩
        refine NeverFails.allOrNothing fun session => ?_
        have keeps := run_keepCatalog { session with
          environment := { session.environment with registry } } there
        exact ⟨_, _, run_bind_of_ok keeps _⟩
  · exact allOrNothing_throw _

theorem allOrNothing_saveEdited (words : List String) :
    (saveEdited words : Action R _).AllOrNothing := by
  unfold saveEdited
  split
  · refine AllOrNothing.get_bind fun session => AllOrNothing.lift_bind fun body => ?_
    refine AllOrNothing.lift_bind fun functions => ?_
    exact ((neverFails_modify _).bind fun _ => (neverFails_keep _).bind fun _ =>
      neverFails_pure _).allOrNothing
  · exact allOrNothing_throw _

omit [Scalar R] in
theorem allOrNothing_renameFunction (words : List String) :
    (renameFunction words : Action R _).AllOrNothing := by
  unfold renameFunction
  split
  · refine AllOrNothing.get_bind fun session => AllOrNothing.lift_bind fun functions => ?_
    exact ((neverFails_modify _).bind fun _ => (neverFails_keep _).bind fun _ =>
      neverFails_pure _).allOrNothing
  · exact allOrNothing_throw _

omit [Scalar R] in
theorem allOrNothing_deleteFunction (words : List String) :
    (deleteFunction words : Action R _).AllOrNothing := by
  unfold deleteFunction
  split
  · refine AllOrNothing.get_bind fun session => AllOrNothing.lift_bind fun functions => ?_
    exact ((neverFails_modify _).bind fun _ => (neverFails_keep _).bind fun _ =>
      neverFails_pure _).allOrNothing
  · exact allOrNothing_throw _

omit [Scalar R] in
/-- A step that is taken or left out. -/
theorem neverFails_optional {condition : Prop} [Decidable condition] {α : Type}
    {change : Session R -> Session R} {rest : PUnit -> Action R α}
    (further : (rest ⟨⟩).NeverFails) :
    (if condition then modify change >>= rest else rest ⟨⟩).NeverFails := by
  split
  · exact (neverFails_modify change).bind fun _ => further
  · exact further

omit [Scalar R] in
theorem allOrNothing_clear (words : List String) : (clear words : Action R _).AllOrNothing := by
  refine AllOrNothing.ite (allOrNothing_throw_bind _ _) (AllOrNothing.get_bind fun session => ?_)
  refine NeverFails.allOrNothing (neverFails_optional (neverFails_optional ?_))
  exact neverFails_optional (neverFails_optional (neverFails_pure _))

omit [Scalar R] in
theorem allOrNothing_takeTop : (takeTop : Action R _).AllOrNothing :=
  AllOrNothing.get_bind fun _ => AllOrNothing.lift_bind fun _ => (neverFails_modify _).bind_pure _

theorem allOrNothing_dropTop : (dropTop : Action R _).AllOrNothing :=
  allOrNothing_takeTop.bind_neverFails fun _ => neverFails_get.bind fun _ => neverFails_pure _

theorem allOrNothing_stashTop : (stashTop : Action R _).AllOrNothing :=
  allOrNothing_takeTop.bind_neverFails fun _ => (neverFails_modify _).bind fun _ =>
    neverFails_get.bind fun _ => neverFails_pure _

theorem allOrNothing_evaluateEdited : (evaluateEdited : Action R _).AllOrNothing :=
  AllOrNothing.get_bind fun session => AllOrNothing.lift_bind fun owner =>
    (allOrNothing_remember owner session.current).bind_neverFails fun _ => neverFails_pure _

theorem onlyReads_graph (words : List String) : (graph words : Action R _).OnlyReads :=
  onlyReads_get.bind fun _ => (onlyReads_lift _).bind fun _ => onlyReads_lift _

theorem allOrNothing_showMarkup (words : List String) :
    (showMarkup words : Action R _).AllOrNothing := by
  refine AllOrNothing.get_bind fun session => AllOrNothing.ite ?_ ?_
  · exact AllOrNothing.lift_bind fun _ => allOrNothing_pure _
  · exact AllOrNothing.lift_bind fun _ => allOrNothing_pure _

theorem neverFails_leave : (leave : Action R _).NeverFails :=
  (neverFails_modify _).bind fun _ => (neverFails_modify _).bind fun _ => neverFails_pure _

/-! ## Commands that stop half-way -/

omit [Scalar R] in
theorem run_enableAll {names : List String}
    (failed : enableAll names session = (.error failure, after)) :
    ∃ known unknown others, names = known ++ unknown :: others ∧
      (forall name, name ∈ known -> session.environment.registry.catalogs.has name) ∧
      failure = .unknownCatalog unknown ∧ after = session.enabling known := by
  induction names generalizing session with
  | nil => cases failed
  | cons name rest inductionHypothesis =>
      rw [enableAll, run_get_bind, run_bind, run_lift] at failed
      cases there : session.environment.registry.catalogs.get? name with
      | none =>
          rw [Registry.catalog, there] at failed
          cases failed
          exact ⟨[], name, rest, rfl, nofun, rfl, rfl⟩
      | some catalog =>
          rw [catalog_of_get? there] at failed
          rcases inductionHypothesis failed with ⟨known, unknown, others, rfl, held, missing, left⟩
          refine ⟨name :: known, unknown, others, rfl, fun other member => ?_, missing, left⟩
          rcases List.mem_cons.mp member with rfl | later
          · exact Option.isSome_of_eq_some there
          · exact held other later

theorem run_enableCatalogs {names : List String}
    (failed : enableCatalogs names session = (.error failure, after)) :
    after = session ∨ HalfWay session failure (.command .enable names) after := by
  rcases run_bind_eq_error.mp failed with stopped | ⟨_, _, _, impossible⟩
  · rcases run_enableAll stopped with ⟨known, unknown, others, rfl, held, missing, rfl⟩
    cases known with
    | nil => exact Or.inl rfl
    | cons name more => exact Or.inr (.enable (List.cons_ne_nil name more) held missing)
  · cases impossible

/-- An editor opens without failing, so what failed is showing where it stands. -/
theorem run_openEditor_bind {owner : Expr R} {bindings : Table (Expr R)}
    {lines : List String -> List String}
    (failed : (openEditor owner bindings >>= fun _ => status >>= fun shown =>
      pure (lines shown)) session = (.error failure, after)) :
    after = session.withEditor owner bindings ∧
      (session.withEditor owner bindings).CannotShow failure := by
  have opened : openEditor owner bindings session = (.ok ⟨⟩, session.withEditor owner bindings) :=
    rfl
  rw [run_bind_of_ok opened] at failed
  exact cannotShow_of_status failed

theorem run_editFunction {verb name : String}
    (failed : editFunction verb name session = (.error failure, after)) :
    (after = session ∧ session.environment.functions.get? name = none) ∨
      ∃ owner bindings, after = session.withEditor owner bindings ∧
        (session.withEditor owner bindings).CannotShow failure := by
  rw [editFunction, run_get_bind, run_bind, run_lift] at failed
  cases there : session.environment.functions.get? name with
  | none =>
      rw [FunctionStore.fetch, there] at failed
      cases failed
      exact Or.inl ⟨rfl, rfl⟩
  | some definition =>
      rw [FunctionStore.fetch, there] at failed
      exact Or.inr ⟨_, _, run_openEditor_bind failed⟩

theorem run_edit {words : List String}
    (failed : edit words session = (.error failure, after)) :
    after = session ∨ HalfWay session failure (.command .edit words) after := by
  cases words with
  | nil =>
      rw [edit, run_get_bind, run_bind, run_lift] at failed
      cases edited : session.edited with
      | error _ =>
          rw [edited] at failed
          cases failed
          exact Or.inl rfl
      | ok owner =>
          rw [edited] at failed
          exact Or.inl (cannotShow_of_status failed).1
  | cons name rest =>
      rcases run_editFunction failed with ⟨same, _⟩ | ⟨owner, bindings, rfl, stuck⟩
      · exact Or.inl same
      · exact Or.inr (.editor (Or.inl rfl) stuck)

/-- A function that was read again is stored under its name. -/
theorem get?_loadFunction {tree : FileTree} {store functions : FunctionStore R} {name : String}
    (loaded : tree.loadFunction store name = .ok functions) : functions.get? name ≠ none := by
  rw [FileTree.loadFunction] at loaded
  split at loaded
  · cases loaded
  · cases loaded
  · rename_i content _
    cases defined : FunctionStore.defineText store name content with
    | error failure =>
        rw [defined] at loaded
        cases loaded
    | ok result =>
        rw [defined] at loaded
        cases loaded
        rcases bind_eq_ok.mp defined with ⟨_, _, defined⟩
        rcases bind_eq_ok.mp defined with ⟨definition, _, stored⟩
        cases stored
        rw [Table.get?_set, if_pos rfl]
        exact Option.some_ne_none definition

theorem run_reloadFunction (name : String) (session : Session R) :
    (∃ failure, reloadFunction name session = (.error failure, session)) ∨
      reloadFunction name session = (.ok ⟨⟩, session) ∨
        ∃ tree functions, session.files = some tree ∧
          tree.loadFunction session.environment.functions name = .ok functions ∧
          reloadFunction name session = (.ok ⟨⟩, session.storing functions) := by
  rw [reloadFunction, run_get_bind]
  cases kept : session.files with
  | none => exact Or.inr (Or.inl rfl)
  | some tree =>
      dsimp only
      cases loaded : tree.loadFunction session.environment.functions name with
      | error fault =>
          cases fault with
          | failure cause => exact Or.inl ⟨cause, rfl⟩
          | _ => exact Or.inl ⟨.unknownFunction name, rfl⟩
      | ok functions =>
          exact Or.inr (Or.inr ⟨tree, functions, rfl, loaded, rfl⟩)

theorem run_loadFunction {words : List String}
    (failed : loadFunction words session = (.error failure, after)) :
    after = session ∨ HalfWay session failure (.command .load words) after := by
  cases words with
  | nil =>
      cases failed
      exact Or.inl rfl
  | cons name rest =>
      rw [loadFunction] at failed
      rcases run_reloadFunction name session with
        ⟨found, run⟩ | run | ⟨tree, functions, _, loaded, run⟩
      · rw [run_bind, run] at failed
        cases failed
        exact Or.inl rfl
      · rw [run_bind_of_ok run] at failed
        rcases run_editFunction failed with ⟨same, _⟩ | ⟨owner, bindings, rfl, stuck⟩
        · exact Or.inl same
        · have unread : ((session.storing session.environment.functions).withEditor owner
            bindings).CannotShow failure := stuck
          exact Or.inr (.loaded unread)
      · rw [run_bind_of_ok run] at failed
        rcases run_editFunction failed with ⟨_, missing⟩ | ⟨owner, bindings, rfl, stuck⟩
        · exact absurd missing (get?_loadFunction loaded)
        · exact Or.inr (.loaded stuck)

theorem run_solveExpression {expr : Expr R} {target substitute : String} {words : List String}
    (failed : solveExpression expr target substitute session = (.error failure, after)) :
    after = session ∨ HalfWay session failure (.command .solve words) after := by
  rw [solveExpression, run_get_bind, run_bind, run_lift] at failed
  cases checked : checkSolvable expr target with
  | error _ =>
      rw [checked] at failed
      cases failed
      exact Or.inl rfl
  | ok _ =>
      rw [checked] at failed
      dsimp only at failed
      rw [run_bind, run_lift] at failed
      cases solved : QuantityCalculus.solve expr target substitute with
      | error _ =>
          rw [solved] at failed
          cases failed
          exact Or.inl rfl
      | ok solution =>
          rw [solved] at failed
          rcases run_openEditor_bind failed with ⟨rfl, stuck⟩
          exact Or.inr (.editor (Or.inr rfl) stuck)

theorem run_solve {words : List String}
    (failed : solve words session = (.error failure, after)) :
    after = session ∨ HalfWay session failure (.command .solve words) after := by
  unfold solve at failed
  split at failed
  · rw [run_get_bind, run_bind, run_lift] at failed
    cases edited : session.edited with
    | error _ =>
        rw [edited] at failed
        cases failed
        exact Or.inl rfl
    | ok expr =>
        rw [edited] at failed
        exact run_solveExpression failed
  · rename_i target substitute function
    rw [run_get_bind, run_bind, run_lift] at failed
    cases fetched : FunctionStore.fetch session.environment.functions function with
    | error _ =>
        rw [fetched] at failed
        cases failed
        exact Or.inl rfl
    | ok definition =>
        rw [fetched] at failed
        exact run_solveExpression failed
  · cases failed
    exact Or.inl rfl

theorem run_restore {words : List String}
    (failed : restore session = (.error failure, after)) :
    after = session ∨ HalfWay session failure (.command .restore words) after := by
  rw [restore, run_get_bind] at failed
  cases aside : session.stash with
  | nil =>
      rw [aside] at failed
      cases failed
      exact Or.inl rfl
  | cons scope others =>
      rw [aside] at failed
      have stopped : (status >>= fun shown => pure
          (("Restored " ++ session.ownerText scope) :: shown))
          (session.withRestored scope others) = (.error failure, after) := failed
      rcases cannotShow_of_status stopped with ⟨rfl, stuck⟩
      exact Or.inr (.restored aside stuck)

theorem run_command {command : Command} {words : List String}
    (failed : command.run words session = (.error failure, after)) :
    after = session ∨ HalfWay session failure (.command command words) after := by
  cases command with
  | help => cases failed
  | leave => exact Or.inl (neverFails_leave.allOrNothing _ _ _ failed)
  | list =>
      exact Or.inl ((onlyReads_get.bind fun _ => onlyReads_lift _).allOrNothing _ _ _ failed)
  | set => exact Or.inl (allOrNothing_setConstant words _ _ _ failed)
  | unset => exact Or.inl (allOrNothing_unsetConstant words _ _ _ failed)
  | mode => exact Or.inl (allOrNothing_chooseMode words _ _ _ failed)
  | enable => exact run_enableCatalogs failed
  | disable => exact Or.inl ((neverFails_disableCatalogs words).allOrNothing _ _ _ failed)
  | unit => exact Or.inl (allOrNothing_defineUnit words _ _ _ failed)
  | relation => exact Or.inl (allOrNothing_declareRelation words _ _ _ failed)
  | save => exact Or.inl (allOrNothing_saveEdited words _ _ _ failed)
  | load => exact run_loadFunction failed
  | edit => exact run_edit failed
  | rename => exact Or.inl (allOrNothing_renameFunction words _ _ _ failed)
  | delete => exact Or.inl (allOrNothing_deleteFunction words _ _ _ failed)
  | clear => exact Or.inl (allOrNothing_clear words _ _ _ failed)
  | drop => exact Or.inl (allOrNothing_dropTop _ _ _ failed)
  | stash => exact Or.inl (allOrNothing_stashTop _ _ _ failed)
  | restore => exact run_restore failed
  | evaluate => exact Or.inl (allOrNothing_evaluateEdited _ _ _ failed)
  | solve => exact run_solve failed
  | graph => exact Or.inl ((onlyReads_graph words).allOrNothing _ _ _ failed)
  | latex => exact Or.inl (allOrNothing_showMarkup words _ _ _ failed)

/-! ## Statements -/

/-- A binding that was made stays when the result it leads to cannot be computed. -/
theorem run_bindName {source name : String} {expr : Expr R}
    (failed : bindName name expr session = (.error failure, after)) :
    SameUpToBinding session failure (.statement source) after := by
  rw [bindName, run_get_bind] at failed
  split at failed
  · exact sameUpToBinding_of_eq (allOrNothing_throw_bind _ _ _ _ _ failed)
  · split at failed
    · exact sameUpToBinding_of_eq (allOrNothing_throw_bind _ _ _ _ _ failed)
    · have bound : changeScopes (fun scopes => scopes.bind session.current name expr none) session =
          (.ok ⟨⟩, session.binding name expr) := rfl
      dsimp only at failed
      rw [run_bind_of_ok bound] at failed
      rcases run_bind_eq_error.mp failed with shown | ⟨_, _, _, impossible⟩
      · have same := allOrNothing_progressLines _ _ _ shown
        subst same
        exact sameUpToBinding_binding shown
      · cases impossible

theorem run_enterStatement {source : String} {statement : Expr R}
    (failed : enterStatement statement session = (.error failure, after)) :
    SameUpToBinding session failure (.statement source) after := by
  rw [enterStatement, run_get_bind] at failed
  split at failed
  · cases failed
  · exact run_bindName failed
  · exact run_bindName failed
  · exact sameUpToBinding_of_eq (allOrNothing_throw _ _ _ _ failed)
  · have expression : forall {expr : Expr R},
        enterExpression expr session = (.error failure, after) ->
          SameUpToBinding session failure (.statement source) after :=
      fun failed => sameUpToBinding_of_eq (allOrNothing_enterExpression _ _ _ _ failed)
    cases editing : session.isEditing with
    | false =>
        rw [editing] at failed
        exact expression failed
    | true =>
        rw [editing] at failed
        cases chosen : session.target with
        | none =>
            rw [chosen] at failed
            exact expression failed
        | some name =>
            rw [chosen] at failed
            exact run_bindName failed

theorem run_line {line : Line} (failed : line.run session = (.error failure, after)) :
    SameUpToBinding session failure line after ∨ HalfWay session failure line after := by
  cases line with
  | command command words => exact (run_command failed).imp_left sameUpToBinding_of_eq
  | statement source =>
      rw [Line.run, run_bind, run_lift] at failed
      cases parsed : (Source.parse source : Except Failure (Expr R)) with
      | error _ =>
          rw [parsed] at failed
          cases failed
          exact Or.inl (sameUpToBinding_of_eq rfl)
      | ok statement =>
          rw [parsed] at failed
          exact Or.inl (run_enterStatement failed)

end

end Action

/-! ## Lines -/

namespace Session

variable [Scalar R]

/-- A line that fails leaves the session as it was, up to a binding of its own, unless the line
is one of those that stop half-way. -/
theorem refused_line {session after : Session R} {input : String} {failure : Failure}
    (refused : session.Refuses input failure after) :
    session.execute input = ([failureLine failure], after) ∧
      (SameUpToBinding session failure (Line.ofText (Text.trim input.toList)) after ∨
        HalfWay session failure (Line.ofText (Text.trim input.toList)) after) := by
  refine ⟨?_, Action.run_line refused.2⟩
  rcases refused with ⟨something, failed⟩
  rw [execute]
  cases line : Text.trim input.toList with
  | nil => exact absurd line something
  | cons c rest =>
      rw [line] at failed
      dsimp only
      rw [failed]

/-- A command without the words that it needs, in a session without files. -/
theorem refused_line_usage :
    ∃ session : Session Float, start ⟨none, 15, true⟩ none = .ok session ∧
      session.Refuses "set" (.usage "set <name> <value>") session ∧
      session.execute "set" = ([failureLine (.usage "set <name> <value>")], session) := by
  rcases Option.isSome_iff_exists.mp (by decide +kernel :
    (start ⟨none, 15, true⟩ none : Except LoadFault (Session Float)).toOption.isSome) with
    ⟨session, known⟩
  have line : Line.ofText (Text.trim "set".toList) = .command .set [] := by decide +kernel
  have refused : session.Refuses "set" (.usage "set <name> <value>") session := by
    refine ⟨by decide +kernel, ?_⟩
    rw [line]
    rfl
  exact ⟨session, eq_ok_of_toOption known, refused, (refused_line refused).1⟩

/-- A catalog that is there is enabled, although the line fails for one that is not. -/
theorem refused_line_enables :
    ∃ first : Session Float, start ⟨none, 15, true⟩ none = .ok first ∧
      let session := (first.execute "disable electric").2
      session.enabledIn base = [] ∧
        (session.execute "enable electric nosuch").1 =
          [failureLine (.unknownCatalog "nosuch")] ∧
        (session.execute "enable electric nosuch").2.enabledIn base = ["electric"] := by
  rcases Option.isSome_iff_exists.mp (by decide +kernel :
    (start ⟨none, 15, true⟩ none : Except LoadFault (Session Float)).toOption.isSome) with
    ⟨first, known⟩
  have outcome : (start ⟨none, 15, true⟩ none : Except LoadFault (Session Float)).toOption.map
      (fun first =>
        let session := (first.execute "disable electric").2
        (session.enabledIn base, (session.execute "enable electric nosuch").1,
          (session.execute "enable electric nosuch").2.enabledIn base)) =
      some ([], [failureLine (.unknownCatalog "nosuch")], ["electric"]) := by decide +kernel
  rw [known] at outcome
  have parts := Option.some.inj outcome
  exact ⟨first, eq_ok_of_toOption known, congrArg Prod.fst parts,
    congrArg (fun answer => answer.2.1) parts, congrArg (fun answer => answer.2.2) parts⟩

end Session
end QuantityCalculus
