import QuantityCalculus.Proofs.Runs
import QuantityCalculus.Session.Line
import QuantityCalculus.Session.Start

namespace QuantityCalculus

/-!
# What actions do to a session

An action answers with a result or a failure and leaves a session behind in either case.
The notions of this module are about what it leaves: whether some relation holds between
the session before and the session after, whether an action can fail at all, and whether
it leaves everything as it was when it fails.  Each passes from the steps of an action to
the whole, so that a command is settled by looking at its steps.

A failure is harmless in two orders only: after steps that merely read, or before steps
that cannot fail.

The session that the first action finds is `Fresh`.
-/

namespace Action

variable {R α β : Type}

theorem run_lift (result : Except Failure α) (session : Session R) :
    (liftM result : Action R α) session = (result, session) :=
  rfl

/-! ## What is left behind -/

/-- A relation holds between the session before an action and the one after it. -/
def Leads (step : Session R -> Session R -> Prop) (action : Action R α) : Prop :=
  forall session, step session (action session).2

/-- The action leaves the session as it is. -/
abbrev OnlyReads (action : Action R α) : Prop :=
  action.Leads fun before after => after = before

/-- The action has a result whatever the session. -/
def NeverFails (action : Action R α) : Prop :=
  forall session, ∃ value after, action session = (.ok value, after)

/-- An action that fails leaves the session as it was. -/
def AllOrNothing (action : Action R α) : Prop :=
  forall session failure after, action session = (.error failure, after) -> after = session

section

variable {step : Session R -> Session R -> Prop} {first : Action R α} {rest : α -> Action R β}

theorem Leads.bind (transitive : forall {a b c}, step a b -> step b c -> step a c)
    (one : first.Leads step) (two : forall value, (rest value).Leads step) :
    (first >>= rest).Leads step := by
  intro session
  have begun := one session
  rw [run_bind]
  rcases outcome : first session with ⟨_ | value, middle⟩
  · rw [outcome] at begun
    exact begun
  · rw [outcome] at begun
    exact transitive begun (two value middle)

/-- What follows a look at the session starts with the session looked at. -/
theorem Leads.get_bind {rest : Session R -> Action R β}
    (two : forall session, (rest session).Leads step) :
    ((get : Action R (Session R)) >>= rest).Leads step :=
  fun session => two session session

/-- What stands behind a check is only done where the check lets it pass. -/
theorem Leads.guarded {condition : Prop} [Decidable condition] {left right : Action R α}
    (one : left.Leads step) (other : ¬ condition -> right.Leads step) :
    (if condition then left else right).Leads step := by
  split
  · exact one
  · exact other ‹_›

theorem Leads.ite {condition : Prop} [Decidable condition] {left right : Action R α}
    (one : left.Leads step) (other : right.Leads step) :
    (if condition then left else right).Leads step :=
  .guarded one fun _ => other

theorem OnlyReads.leads (reflexive : forall session, step session session)
    (reads : first.OnlyReads) : first.Leads step := by
  intro session
  rw [reads session]
  exact reflexive session

theorem onlyReads_pure (value : α) : (pure value : Action R α).OnlyReads :=
  fun _ => rfl

theorem onlyReads_throw (failure : Failure) : (throw failure : Action R α).OnlyReads :=
  fun _ => rfl

/-- What would follow a failure is not carried out. -/
theorem onlyReads_throw_bind (failure : Failure) (rest : α -> Action R β) :
    ((throw failure : Action R α) >>= rest).OnlyReads :=
  fun _ => rfl

theorem onlyReads_get : (get : Action R (Session R)).OnlyReads :=
  fun _ => rfl

theorem onlyReads_lift (result : Except Failure α) : (liftM result : Action R α).OnlyReads :=
  fun _ => rfl

theorem OnlyReads.bind (one : first.OnlyReads) (two : forall value, (rest value).OnlyReads) :
    (first >>= rest).OnlyReads :=
  Leads.bind (fun here there => there.trans here) one two

theorem neverFails_pure (value : α) : (pure value : Action R α).NeverFails :=
  fun session => ⟨value, session, rfl⟩

theorem neverFails_get : (get : Action R (Session R)).NeverFails :=
  fun session => ⟨session, session, rfl⟩

theorem neverFails_modify (change : Session R -> Session R) :
    (modify change : Action R PUnit).NeverFails :=
  fun session => ⟨⟨⟩, change session, rfl⟩

theorem NeverFails.bind (one : first.NeverFails) (two : forall value, (rest value).NeverFails) :
    (first >>= rest).NeverFails := by
  intro session
  rcases one session with ⟨value, middle, succeeded⟩
  rcases two value middle with ⟨result, after, further⟩
  exact ⟨result, after, (run_bind_of_ok succeeded rest).trans further⟩

theorem OnlyReads.allOrNothing (reads : first.OnlyReads) : first.AllOrNothing := by
  intro session failure after failed
  have same := reads session
  rw [failed] at same
  exact same

theorem NeverFails.allOrNothing (succeeds : first.NeverFails) : first.AllOrNothing := by
  intro session failure after failed
  rcases succeeds session with ⟨value, middle, succeeded⟩
  cases failed.symm.trans succeeded

/-- After steps that only read, nothing has changed yet. -/
theorem OnlyReads.bind_allOrNothing (reads : first.OnlyReads)
    (two : forall value, (rest value).AllOrNothing) : (first >>= rest).AllOrNothing := by
  intro session failure after failed
  rcases run_bind_eq_error.mp failed with here | ⟨value, middle, succeeded, later⟩
  · exact reads.allOrNothing session failure after here
  · have same := reads session
    rw [succeeded] at same
    exact (two value middle failure after later).trans same

/-- Before steps that cannot fail, nothing has to be undone. -/
theorem AllOrNothing.bind_neverFails (one : first.AllOrNothing)
    (two : forall value, (rest value).NeverFails) : (first >>= rest).AllOrNothing := by
  intro session failure after failed
  rcases run_bind_eq_error.mp failed with here | ⟨value, middle, _, later⟩
  · exact one session failure after here
  · rcases two value middle with ⟨_, _, succeeded⟩
    cases later.symm.trans succeeded

theorem AllOrNothing.get_bind {rest : Session R -> Action R β}
    (two : forall session, (rest session).AllOrNothing) :
    ((get : Action R (Session R)) >>= rest).AllOrNothing :=
  fun session => two session session

theorem AllOrNothing.lift_bind {result : Except Failure α}
    (two : forall value, (rest value).AllOrNothing) :
    ((liftM result : Action R α) >>= rest).AllOrNothing :=
  (onlyReads_lift result).bind_allOrNothing two

theorem allOrNothing_throw (failure : Failure) : (throw failure : Action R α).AllOrNothing :=
  (onlyReads_throw failure).allOrNothing

theorem allOrNothing_throw_bind (failure : Failure) (rest : α -> Action R β) :
    ((throw failure : Action R α) >>= rest).AllOrNothing :=
  (onlyReads_throw_bind failure rest).allOrNothing

theorem allOrNothing_pure (value : α) : (pure value : Action R α).AllOrNothing :=
  (onlyReads_pure value).allOrNothing

theorem NeverFails.bind_pure (one : first.NeverFails) (value : β) :
    (first >>= fun _ => (pure value : Action R β)).AllOrNothing :=
  (one.bind fun _ => neverFails_pure value).allOrNothing

theorem AllOrNothing.ite {condition : Prop} [Decidable condition] {left right : Action R α}
    (one : left.AllOrNothing) (other : right.AllOrNothing) :
    (if condition then left else right).AllOrNothing := by
  split
  · exact one
  · exact other

end

/-! ## Values -/

variable [Scalar R]

theorem onlyReads_value (expr : Expr R) (scope : ScopeId) : (value expr scope).OnlyReads :=
  onlyReads_get.bind fun _ => onlyReads_lift _

/-- A value that cannot be computed is not remembered either. -/
theorem allOrNothing_remember (expr : Expr R) (scope : ScopeId) :
    (remember expr scope).AllOrNothing :=
  (onlyReads_value expr scope).bind_allOrNothing fun _ =>
    ((neverFails_modify _).bind fun _ => neverFails_pure _).allOrNothing

end Action

/-! ## Sessions that have just started -/

variable {R : Type} [Scalar R]

omit [Scalar R] in
/-- The mode that is asked for comes before the one that was kept. -/
theorem StoredSettings.startingMode_eq {settings : StoredSettings R} {kept : AngleMode}
    (read : settings.angleModeOf = .ok kept) (options : SessionOptions) :
    settings.startingMode options = .ok (options.angleMode.getD kept) := by
  rw [startingMode]
  cases options.angleMode with
  | some asked => rfl
  | none => exact read

/-- What a session is made of when it starts. -/
structure Session.Parts (R : Type) where
  settings : StoredSettings R
  constants : Table R
  builtIn : Registry R
  functions : FunctionStore R
  angleMode : AngleMode
  enabled : List String

/-- The registry with the catalogs that are kept. -/
def Session.Parts.registry (parts : Session.Parts R) (options : SessionOptions)
    (files : Option FileTree) : Registry R :=
  ((files.getD []).loadAllCatalogs options.places parts.builtIn).1

/-- The parts are what is kept, or follow from it. -/
structure Session.Parts.LoadedFrom (parts : Session.Parts R) (options : SessionOptions)
    (files : Option FileTree) : Prop where
  settings : (files.getD []).loadSettings = .ok parts.settings
  constants : (files.getD []).loadConstants = .ok parts.constants
  builtIn : Registry.empty.withBuiltIns options.places = .ok parts.builtIn
  functions : ∃ count, (files.getD []).loadAllFunctions [] = .ok (parts.functions, count)
  angleMode : parts.settings.startingMode options = .ok parts.angleMode
  enabled : parts.settings.enabledAmong (parts.registry options files).catalogs.keys =
    .ok parts.enabled

/-- The session that is made of some parts. -/
def Session.Parts.session (parts : Session.Parts R) (options : SessionOptions)
    (files : Option FileTree) : Session R where
  environment :=
    { Environment.initial (parts.registry options files) with
      functions := parts.functions
      angleMode := parts.angleMode
      constants := (Environment.initial (parts.registry options files)).constants.update
        parts.constants }
  scopes := (Scopes.openRoot [] parts.enabled).2
  editing := []
  stash := []
  target := none
  autoEval := parts.settings.autoEval.isTrue
  running := true
  files
  places := options.places
  verifies := options.verifies

/-- A session starts if all its parts can be loaded, and is made of them. -/
theorem Session.start_eq_ok {options : SessionOptions} {files : Option FileTree}
    {session : Session R} : Session.start options files = .ok session <->
      ∃ parts : Session.Parts R, parts.LoadedFrom options files ∧
        parts.session options files = session := by
  constructor
  · intro started
    rcases bind_eq_ok.mp started with ⟨settings, settingsLoaded, started⟩
    rcases bind_eq_ok.mp started with ⟨constants, constantsLoaded, started⟩
    rcases bind_eq_ok.mp started with ⟨builtIn, built, started⟩
    rcases bind_eq_ok.mp started with ⟨⟨functions, count⟩, functionsLoaded, started⟩
    rcases bind_eq_ok.mp started with ⟨angleMode, counted, started⟩
    rcases bind_eq_ok.mp started with ⟨enabled, among, started⟩
    cases started
    exact ⟨⟨settings, constants, builtIn, functions, angleMode, enabled⟩,
      ⟨settingsLoaded, constantsLoaded, LoadFault.lift_eq_ok.mp built, ⟨count, functionsLoaded⟩,
        counted, among⟩, rfl⟩
  · rintro ⟨parts, loaded, rfl⟩
    rcases loaded with ⟨settings, constants, builtIn, ⟨count, functions⟩, angleMode, enabled⟩
    exact (bind_eq_of_ok settings).trans ((bind_eq_of_ok constants).trans
      ((bind_eq_of_ok (LoadFault.lift_eq_ok.mpr builtIn)).trans
        ((bind_eq_of_ok functions).trans ((bind_eq_of_ok angleMode).trans
          ((bind_eq_of_ok enabled).trans rfl)))))

/-- What every session starts with, whatever settings, constants and functions are kept. -/
structure Session.Fresh (options : SessionOptions) (files : Option FileTree)
    (builtIn : Registry R) (session : Session R) : Prop where
  built : Registry.empty.withBuiltIns options.places = .ok builtIn
  registry : session.environment.registry =
    ((files.getD []).loadAllCatalogs options.places builtIn).1
  files : session.files = files
  places : session.places = options.places
  base : ∃ enabled, session.scopes = (Scopes.openRoot [] enabled).2
  editing : session.editing = []
  stash : session.stash = []

theorem Session.fresh_of_start {options : SessionOptions} {files : Option FileTree}
    {session : Session R} (started : Session.start options files = .ok session) :
    ∃ builtIn, session.Fresh options files builtIn := by
  rcases start_eq_ok.mp started with ⟨parts, loaded, rfl⟩
  exact ⟨parts.builtIn, loaded.builtIn, rfl, rfl, rfl, ⟨parts.enabled, rfl⟩, rfl, rfl⟩

/-- The constants that are kept stand beside those that are always there. -/
theorem Session.constantTable_of_start {options : SessionOptions} {files : Option FileTree}
    {session : Session R} (started : Session.start options files = .ok session) :
    ∃ kept, (files.getD []).loadConstants = .ok kept ∧
      session.environment.constants = Table.update builtInConstantTable kept := by
  rcases start_eq_ok.mp started with ⟨parts, loaded, rfl⟩
  exact ⟨parts.constants, loaded.constants, rfl⟩

end QuantityCalculus
