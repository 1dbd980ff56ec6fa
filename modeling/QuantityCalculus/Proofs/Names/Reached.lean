import QuantityCalculus.Proofs.Evaluation.Unwatched
import QuantityCalculus.Proofs.Names.Unknown

namespace QuantityCalculus

/-!
# The names an evaluation reaches

An expression needs the names that are written in it, and it reaches those that are needed
by what a reached name is bound to.  An evaluation looks up nothing else.  Two contexts
that give the same expressions to these names therefore give the same outcome, however
their scopes are built: in how many scopes the names are bound, what is shadowed, and
which of them holds a name.

Cycles are reported by the scopes that hold the names and not by the names alone, so the
trails of the two evaluations differ.  As long as all bindings are evaluated where they
are looked up, a name determines what is recorded for it in either trail, and both trails
hold the same names at every moment.
-/

variable {R : Type}

/-- The names reached from an expression by following what names are bound to in a scope. -/
inductive Reached (store : FunctionStore R) (scopes : Scopes R) (scope : ScopeId)
    (expr : Expr R) : String -> Prop
  | needed {name : String} : name ∈ expr.freeNames store -> Reached store scopes scope expr name
  | followed {name other : String} {definedIn : ScopeId} {bound : BoundExpr R} :
      Reached store scopes scope expr name ->
      scopes.lookup? scope name = some (definedIn, bound) ->
      other ∈ bound.expr.freeNames store -> Reached store scopes scope expr other

/-- Two contexts give no expression to a name, or the same: one without calls, to be evaluated
wherever the name is looked up. -/
def SeenAlike (scopes others : Scopes R) (scope place : ScopeId) (name : String) : Prop :=
  Option.Rel (fun here there => here.2.expr = there.2.expr ∧ here.2.expr.callFree = true ∧
      here.2.scope = none ∧ there.2.scope = none)
    (scopes.lookup? scope name) (others.lookup? place name)

/-- A name that is seen alike in two contexts is as it has to be in the first. -/
theorem SeenAlike.first {scopes others : Scopes R} {scope place : ScopeId} {name : String}
    (alike : SeenAlike scopes others scope place name) :
    SeenAlike scopes scopes scope scope name := by
  unfold SeenAlike at alike ⊢
  generalize scopes.lookup? scope name = here at alike ⊢
  generalize others.lookup? place name = there at alike
  cases alike with
  | none => exact .none
  | some same => exact .some ⟨rfl, same.2.1, same.2.2.1, same.2.2.1⟩

/-! ## Trails of the same names -/

/-- Two trails of evaluations in two contexts report the same names as cyclic. -/
def ReportAlike (scopes others : Scopes R) (scope place : ScopeId)
    (trail otherTrail : List Resolution) : Prop :=
  forall name here there, scopes.lookup? scope name = some here ->
    others.lookup? place name = some there ->
    (.variable here.1 name scope ∈ trail <-> .variable there.1 name place ∈ otherTrail)

section

variable {scopes others : Scopes R} {scope place : ScopeId} {trail otherTrail : List Resolution}

theorem reportAlike_nil : ReportAlike scopes others scope place [] [] :=
  fun _ _ _ _ _ => ⟨nofun, nofun⟩

/-- Trails still report the same names when one more name is under way. -/
theorem ReportAlike.cons (alike : ReportAlike scopes others scope place trail otherTrail)
    {name : String} {here there : ScopeId × BoundExpr R}
    (found : scopes.lookup? scope name = some here)
    (otherFound : others.lookup? place name = some there) :
    ReportAlike scopes others scope place (.variable here.1 name scope :: trail)
      (.variable there.1 name place :: otherTrail) := by
  intro other hereNow thereNow foundNow otherFoundNow
  rw [List.mem_cons, List.mem_cons, alike other hereNow thereNow foundNow otherFoundNow]
  refine or_congr_left ?_
  by_cases same : other = name
  · subst same
    cases found.symm.trans foundNow
    cases otherFound.symm.trans otherFoundNow
    exact ⟨fun _ => rfl, fun _ => rfl⟩
  · exact ⟨fun entry => absurd (Resolution.variable.inj entry).2.1 same,
      fun entry => absurd (Resolution.variable.inj entry).2.1 same⟩

end

/-! ## The comparison -/

section

variable [Scalar R] {environment otherEnvironment : Environment R} {scopes others : Scopes R}
  {scope place : ScopeId}

/-- Nothing is changed and nothing excused. -/
def Comparison.identical : Comparison :=
  .excusing (fun _ => False) fun _ => False

omit [Scalar R] in
theorem memoryAt_of_memoryValues
    (memory : scopes.memoryValues scope = others.memoryValues place) (index : Int) :
    scopes.memoryAt scope index = others.memoryAt place index := by
  unfold Scopes.memoryAt
  rw [memory]

/-- Evaluations of what is reached have the same outcome in both contexts, by induction on the
levels.  What the induction carries is that the expression needs reached names only, and that the
trails report the same names. -/
theorem evaluateUpTo_alike_of_reached (calculates : environment.CalculatesAs otherEnvironment)
    (constants : forall name,
      environment.constants.get? name = otherEnvironment.constants.get? name)
    (enabled : forall catalog,
      catalog ∈ scopes.enabledIn scope <-> catalog ∈ others.enabledIn place)
    (memory : scopes.memoryValues scope = others.memoryValues place) {start : Expr R}
    (seen : forall name, Reached environment.functions scopes scope start name ->
      isRandomName name = false ∧ SeenAlike scopes others scope place name)
    (levels : Nat) {expr : Expr R} {trail otherTrail : List Resolution}
    (callFree : expr.callFree = true)
    (reached : forall name, name ∈ expr.freeNames environment.functions ->
      Reached environment.functions scopes scope start name)
    (reports : ReportAlike scopes others scope place trail otherTrail) :
    Comparison.identical.Holds (evaluateUpTo environment true levels trail scopes scope expr)
      (evaluateUpTo otherEnvironment true levels otherTrail others place expr) := by
  induction levels generalizing expr trail otherTrail with
  | zero => exact .error nofun
  | succ levels inductionHypothesis =>
      refine evaluateWith_alike_between_self calculates enabled expr
        (fun _ => memoryAt_of_memoryValues memory) (fun name met => ?_)
        fun name arguments met => absurd met (Expr.callFree_references callFree)
      have needed : name ∈ expr.freeNames environment.functions :=
        (Text.mem_sortedNames _ _).mpr
          (Expr.neededNames_of_references expr met (List.mem_singleton_self name))
      rcases seen name (reached name needed) with ⟨notRandom, alike⟩
      refine evaluateVariable_alike_between (fun random => ?_) (constants name) fun _ _ => ?_
      · rw [notRandom] at random
        cases random
      unfold SeenAlike at alike
      cases found : scopes.lookup? scope name <;>
        cases otherFound : others.lookup? place name <;> rw [found, otherFound] at alike
      case none.none => exact .none
      case none.some | some.none => cases alike
      case some.some here there =>
        cases alike with
        | some same =>
            rcases same with ⟨sameExpr, bodyCallFree, atLookup, otherAtLookup⟩
            refine .some (evaluateBound_alike ?_ ?_)
            · rw [atLookup, otherAtLookup]
              exact reports name here there found otherFound
            · rw [atLookup, otherAtLookup, ← sameExpr]
              refine inductionHypothesis bodyCallFree (fun other later => ?_)
                (reports.cons found otherFound)
              exact .followed (reached name needed) found later

end

/-! ## Names that are not reached -/

namespace Scopes

variable {scopes : Scopes R} {id scope : ScopeId} {name : String} {change : Scope R -> Scope R}

/-- A change of what one name is bound to. -/
structure ChangesOnly (name : String) (change : Scope R -> Scope R) : Prop where
  parent : forall scope, (change scope).parent = scope.parent
  memory : forall scope, (change scope).memory = scope.memory
  enabled : forall scope, (change scope).enabled = scope.enabled
  others : forall scope other, other ≠ name ->
    (change scope).bindings.get? other = scope.bindings.get? other

theorem ChangesOnly.enabledIn (only : ChangesOnly name change) (scope : ScopeId) :
    (scopes.update id change).enabledIn scope = scopes.enabledIn scope := by
  rw [Scopes.enabledIn, Scopes.enabledIn, scope?_update]
  cases scopes.scope? scope with
  | none => rfl
  | some found =>
      rw [Option.map_some]
      split
      · exact only.enabled found
      · rfl

theorem ChangesOnly.memoryValues (only : ChangesOnly name change) (scope : ScopeId) :
    (scopes.update id change).memoryValues scope = scopes.memoryValues scope := by
  rw [Scopes.memoryValues, Scopes.memoryValues, chain_update only.parent, List.flatMap_map]
  congr 1
  funext entry
  split
  · exact only.memory entry.2
  · rfl

/-- Any other name is found as before, in the same scope. -/
theorem ChangesOnly.lookup? (only : ChangesOnly name change) (scope : ScopeId) {other : String}
    (different : other ≠ name) :
    (scopes.update id change).lookup? scope other = scopes.lookup? scope other := by
  rw [Scopes.lookup?, Scopes.lookup?, chain_update only.parent]
  induction scopes.chain scope with
  | nil => rfl
  | cons entry outer inductionHypothesis =>
      rw [List.map_cons, lookupIn?, lookupIn?, inductionHypothesis]
      by_cases changed : entry.1 = id
      · rw [if_pos changed, only.others entry.2 other different]
      · rw [if_neg changed]

theorem changesOnly_set (name : String) (bound : BoundExpr R) :
    ChangesOnly name fun found => { found with bindings := found.bindings.set name bound } where
  parent := fun _ => rfl
  memory := fun _ => rfl
  enabled := fun _ => rfl
  others := fun _ _ different => (Table.get?_set _ _ _ _).trans (if_neg (Ne.symm different))

theorem changesOnly_remove (name : String) :
    ChangesOnly name fun found : Scope R =>
      { found with bindings := found.bindings.remove name } where
  parent := fun _ => rfl
  memory := fun _ => rfl
  enabled := fun _ => rfl
  others := fun _ _ different => (Table.get?_remove _ _ _).trans (if_neg (Ne.symm different))

end Scopes

/-! ## The outcome -/

section

variable [Scalar R] {environment otherEnvironment : Environment R} {scopes others : Scopes R}
  {scope place : ScopeId} {expr : Expr R}

/-- Contexts that give the same expressions to the names that are reached, and share all else that
an evaluation reads, give the same outcome. -/
theorem evaluate_eq_of_seenAlike (calculates : environment.CalculatesAs otherEnvironment)
    (constants : forall name,
      environment.constants.get? name = otherEnvironment.constants.get? name)
    (enabled : forall catalog,
      catalog ∈ scopes.enabledIn scope <-> catalog ∈ others.enabledIn place)
    (memory : scopes.memoryValues scope = others.memoryValues place)
    (callFree : expr.callFree = true)
    (seen : forall name, Reached environment.functions scopes scope expr name ->
      isRandomName name = false ∧ SeenAlike scopes others scope place name) :
    evaluate environment scopes scope expr = evaluate otherEnvironment others place expr := by
  rw [evaluate, evaluate, evaluateWithin_eq, evaluateWithin_eq]
  exact (evaluateUpTo_alike_of_reached calculates constants enabled memory seen _ callFree
    (fun _ => .needed) reportAlike_nil).eq (fun _ => False.elim) fun _ => False.elim

/-- A change of a name that is not reached does not change the outcome. -/
theorem evaluate_update_of_not_reached {id : ScopeId} {name : String}
    {change : Scope R -> Scope R} (only : Scopes.ChangesOnly name change)
    (callFree : expr.callFree = true)
    (seen : forall name, Reached environment.functions scopes scope expr name ->
      isRandomName name = false ∧ SeenAlike scopes scopes scope scope name)
    (notReached : ¬ Reached environment.functions scopes scope expr name) :
    evaluate environment (scopes.update id change) scope expr =
      evaluate environment scopes scope expr := by
  refine (evaluate_eq_of_seenAlike (.refl environment) (fun _ => rfl) (fun catalog => ?_) ?_
    callFree fun other reached => ?_).symm
  · rw [only.enabledIn]
  · rw [only.memoryValues]
  · have different : other ≠ name := fun same => notReached (same ▸ reached)
    rw [SeenAlike, only.lookup? scope different]
    exact seen other reached

/--
Evaluation of an expression without calls depends only on the names that are reached from it.
Two contexts have the same outcome when they share constants, units, angle mode, enabled
catalogs and visible memory and see the reached names alike; the scopes, their number and all
other bindings may differ, and so may the stored functions and the random numbers.  Binding,
binding again or removing a name that is not reached, in any scope, changes no outcome.
-/
theorem evaluate_depends_on_reached (calculates : environment.CalculatesAs otherEnvironment)
    (constants : forall name,
      environment.constants.get? name = otherEnvironment.constants.get? name)
    (enabled : forall catalog,
      catalog ∈ scopes.enabledIn scope <-> catalog ∈ others.enabledIn place)
    (memory : scopes.memoryValues scope = others.memoryValues place)
    (callFree : expr.callFree = true)
    (seen : forall name, Reached environment.functions scopes scope expr name ->
      isRandomName name = false ∧ SeenAlike scopes others scope place name) :
    evaluate environment scopes scope expr = evaluate otherEnvironment others place expr ∧
      forall id name, ¬ Reached environment.functions scopes scope expr name ->
        (forall value fixed, evaluate environment (scopes.bind id name value fixed) scope expr =
          evaluate environment scopes scope expr) ∧
        forall without, scopes.unbind id name = .ok without ->
          evaluate environment without scope expr = evaluate environment scopes scope expr := by
  have seenHere : forall name, Reached environment.functions scopes scope expr name ->
      isRandomName name = false ∧ SeenAlike scopes scopes scope scope name :=
    fun name reached => ⟨(seen name reached).1, (seen name reached).2.first⟩
  refine ⟨evaluate_eq_of_seenAlike calculates constants enabled memory callFree seen, ?_⟩
  intro id name notReached
  constructor
  · intro value fixed
    exact evaluate_update_of_not_reached (Scopes.changesOnly_set name ⟨value, fixed⟩) callFree
      seenHere notReached
  · intro without removed
    unfold Scopes.unbind at removed
    split at removed
    · cases removed
      exact evaluate_update_of_not_reached (Scopes.changesOnly_remove name) callFree seenHere
        notReached
    · cases removed

end

/-- A root scope in which `x` leads to `y`, and `z` to itself. -/
def onlyRoot : Scope Float :=
  ⟨none, none, [("x", ⟨.binary .multiply (.var "y") (.num 2), none⟩), ("y", ⟨.num 3, none⟩),
    ("z", ⟨.var "z", none⟩)], [], []⟩

/-- A scope and its parent: the inner one hides the `y` of the outer one, which binds `x`. -/
def hidingScopes : Scopes Float :=
  [⟨some 0, none, [("y", ⟨.num 3, none⟩)], [], []⟩,
    ⟨none, none, [("y", ⟨.num 5, none⟩),
      ("x", ⟨.binary .multiply (.var "y") (.num 2), none⟩)], [], []⟩]

/-- An environment with a stored function and random numbers of its own. -/
def furnished : Environment Float :=
  { Environment.initial Registry.empty with
    functions := [("f", ⟨.var "x", []⟩)]
    randomWhole := 7 }

/-- The expression `x + y` has one outcome in both contexts, and none of the changes of `z`
matters, although the contexts differ in their scopes, functions and random numbers. -/
theorem evaluate_depends_on_reached_sum :
    (evaluate (Environment.initial Registry.empty) [onlyRoot] 0
        (.binary .add (.var "x") (.var "y")) =
      evaluate furnished hidingScopes 1 (.binary .add (.var "x") (.var "y"))) ∧
      forall id value fixed,
        evaluate (Environment.initial Registry.empty) (Scopes.bind [onlyRoot] id "z" value fixed) 0
            (.binary .add (.var "x") (.var "y")) =
          evaluate (Environment.initial Registry.empty) [onlyRoot] 0
            (.binary .add (.var "x") (.var "y")) := by
  have reached : forall name, Reached [] [onlyRoot] 0 (.binary .add (.var "x") (.var "y")) name ->
      name = "x" ∨ name = "y" := by
    intro name reached
    induction reached with
    | needed listed =>
        have names : Expr.freeNames [] (.binary .add (.var "x") (.var "y") : Expr Float) =
            ["x", "y"] := by decide
        simpa [names] using listed
    | followed _ found listed inductionHypothesis =>
        rcases inductionHypothesis with rfl | rfl
        · cases found
          have names : Expr.freeNames [] (.binary .multiply (.var "y") (.num 2) : Expr Float) =
              ["y"] := by decide
          exact Or.inr (by simpa [names] using listed)
        · cases found
          have names : Expr.freeNames [] (.num 3 : Expr Float) = [] := by decide
          simp [names] at listed
  have alike : forall name, Reached [] [onlyRoot] 0 (.binary .add (.var "x") (.var "y")) name ->
      isRandomName name = false ∧ SeenAlike [onlyRoot] hidingScopes 0 1 name := by
    intro name isReached
    rcases reached name isReached with rfl | rfl
    · exact ⟨rfl, .some ⟨rfl, rfl, rfl, rfl⟩⟩
    · exact ⟨rfl, .some ⟨rfl, rfl, rfl, rfl⟩⟩
  have calculates : (Environment.initial Registry.empty).CalculatesAs furnished := ⟨rfl, rfl⟩
  have enabled : forall catalog, catalog ∈ Scopes.enabledIn [onlyRoot] 0 <->
      catalog ∈ hidingScopes.enabledIn 1 := fun _ => Iff.rfl
  have same := evaluate_depends_on_reached calculates (fun _ => rfl) enabled rfl rfl alike
  refine ⟨same.1, fun id value fixed => (same.2 id "z" (fun isReached => ?_)).1 value fixed⟩
  exact (reached "z" isReached).elim (by decide) (by decide)

end QuantityCalculus
