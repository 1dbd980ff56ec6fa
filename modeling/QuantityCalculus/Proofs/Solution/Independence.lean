import QuantityCalculus.Proofs.Arithmetic.Rationals
import QuantityCalculus.Proofs.Names.Unknown
import QuantityCalculus.Proofs.Solution.Parts

namespace QuantityCalculus

/-!
# What a solution needs

Solving takes the target out of an expression and puts the substitute in.  Everything that
stands beside the way to the target goes into the solution, once for each time that it is
written.  So the target, which is written once, is not written in its solution.

But what stands beside the way may call functions, and the body of a function may mention
the target.  The search for the one place where the target is written looks at the
expression alone; a solution needs its target exactly when the expression reaches the
target through a call.  Where it does not, evaluating the solution misses the target only
through a default or through what some name is bound to.
-/

variable {R : Type}

/-! ## Names that are counted -/

/-- A test that only leaves and calls may pass, and neither a number nor the number of Euler. -/
structure TestsNames (test : Expr R -> Bool) : Prop extends TestsOperands test where
  num : forall value, test (.num value) = false
  euler : test (.var "e") = false

/-- Such a test counts in a solution what it counts in the expression, with the substitute in place
of the target. -/
theorem TestsNames.count_solve [Scalar R] {test : Expr R -> Bool} (tests : TestsNames test)
    {expr solved : Expr R} {target substitute : String}
    (solving : solve expr target substitute = .ok solved) :
    solved.countParts test + (Expr.var target).countParts test =
      (Expr.var substitute).countParts test + expr.countParts test := by
  rcases solve_eq_ok.mp solving with ⟨path, found, _⟩
  have counted := tests.toTestsOperands.count_solve found solving
  rw [countP_addedAlong, tests.euler, Expr.two, tests.num] at counted
  exact counted

/-- Occurrences of a name other than the number of Euler. -/
theorem testsNames_isVar {name : String} (notEuler : name ≠ "e") :
    TestsNames (Expr.isVar name : Expr R -> Bool) where
  toTestsOperands := testsOperands_isVar name
  num := fun _ => rfl
  euler := by simpa [Expr.isVar] using notEuler.symm

/-! ## Names that calls need -/

/-- A call of a stored function whose body needs a name, which neither a default of the function
nor an argument of the call binds. -/
def Expr.callNeeds (store : FunctionStore R) (name : String) : Expr R -> Bool
  | .call function arguments =>
      ((store.get? function).any fun definition =>
        (definition.body.neededNames store).contains name &&
          !definition.defaults.keys.contains name) &&
        !(arguments.toList.map Prod.fst).contains name
  | _ => false

/-- An expression reaches a name through one of its calls. -/
def Expr.ReachesByCall (store : FunctionStore R) (name : String) (expr : Expr R) : Prop :=
  ∃ part, part ∈ expr.walk ∧ part.callNeeds store name = true

instance (store : FunctionStore R) (name : String) (expr : Expr R) :
    Decidable (expr.ReachesByCall store name) :=
  inferInstanceAs (Decidable (∃ part, part ∈ expr.walk ∧ _))

theorem testsNames_callNeeds (store : FunctionStore R) (name : String) :
    TestsNames (Expr.callNeeds store name) where
  num := fun _ => rfl
  func := fun _ _ => rfl
  sqrt := fun _ => rfl
  root := fun _ _ => rfl
  fraction := fun _ _ => rfl
  binary := fun _ _ _ => rfl
  paren := fun _ => rfl
  euler := rfl

theorem Expr.callNeeds_iff {store : FunctionStore R} {name function : String}
    {arguments : Arguments R} :
    (Expr.call function arguments).callNeeds store name = true <->
      ∃ definition, store.get? function = some definition ∧
        name ∈ definition.body.neededNames store ∧ name ∉ definition.defaults.keys ∧
        name ∉ arguments.toList.map Prod.fst := by
  cases found : store.get? function <;> simp [callNeeds, found, and_assoc]

theorem Expr.reachesByCall_iff {store : FunctionStore R} {name : String} {expr : Expr R} :
    expr.ReachesByCall store name <-> 0 < expr.countParts (Expr.callNeeds store name) :=
  List.countP_pos_iff.symm

/-- A part that uses a name itself: the variable, or a call that needs it. -/
def Expr.uses (store : FunctionStore R) (name : String) (part : Expr R) : Bool :=
  part.isVar name || part.callNeeds store name

/-- An operator uses no name; what is used within it, its operands use. -/
theorem Expr.uses_below {store : FunctionStore R} {name : String} {expr : Expr R}
    (parts : List (Expr R)) (walked : expr.walk = expr :: parts)
    (unused : expr.uses store name = false) :
    (∃ part, part ∈ parts ∧ part.uses store name = true) <->
      ∃ part, part ∈ expr.walk ∧ part.uses store name = true := by
  simp [walked, unused]

mutual

/-- An expression needs what its parts use. -/
theorem Expr.mem_neededNames {store : FunctionStore R} {name : String} (expr : Expr R) :
    name ∈ expr.neededNames store <-> ∃ part, part ∈ expr.walk ∧ part.uses store name = true := by
  match expr with
  | .num _ | .mem | .target _ =>
      simp [Expr.neededNames, Expr.namesWith, Expr.walk, Expr.uses, Expr.isVar, Expr.callNeeds]
  | .var other =>
      rw [Expr.neededNames, Expr.namesWith, List.mem_singleton]
      simp [Expr.walk, Expr.uses, Expr.isVar, Expr.callNeeds, @eq_comm _ name]
  | .memAt x | .func _ x | .factorial x | .sqrt x | .abs x | .binding _ x | .paren x
  | .marked _ x | .declaration _ x =>
      exact (Expr.mem_neededNames x).trans (Expr.uses_below x.walk rfl rfl)
  | .root x y | .fraction x y | .binary _ x y | .equation x y =>
      rw [← Expr.uses_below (x.walk ++ y.walk) rfl rfl]
      simp only [List.mem_append, or_and_right, exists_or, ← Expr.mem_neededNames x,
        ← Expr.mem_neededNames y]
      exact List.mem_append
  | .call function arguments =>
      rw [mem_neededNames_call, Arguments.mem_neededNames arguments, ← Expr.callNeeds_iff]
      simp only [Expr.walk, List.mem_cons, or_and_right, exists_or, exists_eq_left]
      exact or_comm

theorem Arguments.mem_neededNames {store : FunctionStore R} {name : String}
    (arguments : Arguments R) :
    (∃ entry, entry ∈ arguments.toList ∧ name ∈ entry.2.neededNames store) <->
      ∃ part, part ∈ arguments.walk ∧ part.uses store name = true := by
  match arguments with
  | .nil => simp [Arguments.toList, Arguments.walk]
  | .cons bound value rest =>
      have here : name ∈ value.neededNames store <->
          ∃ part, part ∈ value.walk ∧ part.uses store name = true := Expr.mem_neededNames value
      have later : (∃ entry, entry ∈ rest.toList ∧ name ∈ entry.2.neededNames store) <->
          ∃ part, part ∈ rest.walk ∧ part.uses store name = true := Arguments.mem_neededNames rest
      simp [Arguments.toList, Arguments.walk, here, later, or_and_right, exists_or, Expr.uses,
        Expr.isVar, Expr.callNeeds]

end

/-- A name is needed when it is written, or reached through a call. -/
theorem Expr.mem_neededNames_iff {store : FunctionStore R} {name : String} {expr : Expr R} :
    name ∈ expr.neededNames store <->
      0 < expr.occurrences name ∨ expr.ReachesByCall store name := by
  rw [Expr.mem_neededNames, Expr.occurrences, List.countP_pos_iff, Expr.ReachesByCall, ← exists_or]
  simp only [Expr.uses, Bool.or_eq_true, and_or_left]

/-! ## Evaluations that miss a name -/

/-- The value of a default of some stored function. -/
def Expr.IsDefaultIn (store : FunctionStore R) (expr : Expr R) : Prop :=
  ∃ function definition, store.get? function = some definition ∧
    ∃ name, (name, expr) ∈ definition.defaults

/-- What some name is bound to. -/
def Expr.IsBoundIn (scopes : Scopes R) (expr : Expr R) : Prop :=
  ∃ holder, holder ∈ scopes ∧ ∃ entry, entry ∈ holder.bindings ∧ entry.2.expr = expr

/-- A name is bound wherever the evaluation needs it, and wherever it is needed by an argument;
about the values that are given the evaluation says nothing. -/
structure Evaluation.Provides (environment : Environment R) (given : Expr R -> Prop)
    (name : String) (now : Evaluation R) : Prop where
  there : now.scope < now.scopes.length
  closed : now.scopes.Closed
  here : name ∈ now.expr.neededNames environment.functions ->
    now.scopes.isBound now.scope name = true
  bindings : forall holder, holder ∈ now.scopes -> forall entry, entry ∈ holder.bindings ->
    given entry.2.expr ∨ ∃ place, entry.2.scope = some place ∧
      (name ∈ entry.2.expr.neededNames environment.functions ->
        now.scopes.isBound place name = true)

/-- The scope of a call refers to scopes that are there. -/
theorem Scopes.Closed.openedScope {scopes : Scopes R} (closed : scopes.Closed) {scope : ScopeId}
    (there : scope < scopes.length) (definition : FunctionDefinition R)
    (arguments : List (String × Expr R)) :
    Scopes.Closed (QuantityCalculus.openedScope scopes scope definition arguments :: scopes) := by
  intro holder member entry binding place fixed
  rcases List.mem_cons.mp member with rfl | old
  · rcases mem_openedScope binding with ⟨unfixed, _⟩ | ⟨atCall, _⟩
    · cases unfixed.symm.trans fixed
    · cases atCall.symm.trans fixed
      exact Nat.lt_succ_of_lt there
  · exact Nat.lt_succ_of_lt (closed holder old entry binding place fixed)

namespace Evaluation

variable {environment : Environment R} {given : Expr R -> Prop} {name : String}
  {now next : Evaluation R}

/-- A value that a variable leads to is given, or provided for. -/
theorem Provides.lookup (provides : now.Provides environment given name) {looked : String}
    {definedIn : ScopeId} {bound : BoundExpr R} {trail : List Resolution}
    (found : now.scopes.lookup? now.scope looked = some (definedIn, bound)) :
    Provides environment given name
        ⟨trail, now.scopes, bound.scope.getD now.scope, bound.expr⟩ ∨
      (given bound.expr ∧ name ∈ bound.expr.neededNames environment.functions) := by
  rcases Scopes.lookup?_mem found with ⟨holder, member, binding⟩
  have there : bound.scope.getD now.scope < now.scopes.length := by
    cases fixed : bound.scope with
    | none => exact provides.there
    | some place => exact provides.closed holder member _ binding place fixed
  rcases provides.bindings holder member _ binding with isGiven | ⟨place, fixed, isBound⟩
  · by_cases needed : name ∈ bound.expr.neededNames environment.functions
    · exact Or.inr ⟨isGiven, needed⟩
    · exact Or.inl ⟨there, provides.closed, fun again => absurd again needed, provides.bindings⟩
  · refine Or.inl ⟨there, provides.closed, fun needed => ?_, provides.bindings⟩
    rw [fixed]
    exact isBound needed

/-- A call provides for its body and its arguments; its defaults are given. -/
theorem Provides.call (provides : now.Provides environment given name)
    (defaults : forall value : Expr R, value.IsDefaultIn environment.functions -> given value)
    {function : String} {arguments : Arguments R} {definition : FunctionDefinition R}
    {trail : List Resolution} (met : .call function arguments ∈ now.expr.references)
    (stored : environment.functions.get? function = some definition) :
    Provides environment given name
      ⟨trail, openedScope now.scopes now.scope definition arguments.toList :: now.scopes,
        now.scopes.length, definition.body⟩ where
  there := Nat.lt_succ_self _
  closed := provides.closed.openedScope provides.there definition arguments.toList
  here := by
    intro needed
    rw [Scopes.isBound_eq]
    rcases lookup?_openedScope now.scopes now.scope definition arguments.toList name with
      ⟨_, _, inScope⟩ | ⟨_, _, _, inScope⟩ | ⟨noArgument, shadowed, inScope⟩
    · exact congrArg Option.isSome inScope
    · exact congrArg Option.isSome inScope
    · refine (congrArg Option.isSome inScope).trans ?_
      rw [← Scopes.isBound_eq]
      by_cases isDefault : name ∈ definition.defaults.keys
      · exact shadowed isDefault
      · have atCall : name ∈ (Expr.call function arguments).neededNames environment.functions :=
          mem_neededNames_call.mpr (Or.inr ⟨definition, stored, needed, isDefault, noArgument⟩)
        exact provides.here (Expr.neededNames_of_references now.expr met atCall)
  bindings := by
    intro holder member entry binding
    rcases List.mem_cons.mp member with rfl | old
    · rcases mem_openedScope binding with ⟨_, isDefault⟩ | ⟨atCall, isArgument⟩
      · exact Or.inl (defaults _ ⟨function, definition, stored, entry.1, isDefault⟩)
      · refine Or.inr ⟨now.scope, atCall, fun needed => ?_⟩
        have ofCall : name ∈ (Expr.call function arguments).neededNames environment.functions :=
          mem_neededNames_call.mpr (Or.inl ⟨_, isArgument, needed⟩)
        rw [Scopes.isBound_cons_of_lt provides.there]
        exact provides.here (Expr.neededNames_of_references now.expr met ofCall)
    · rcases provides.bindings holder old entry binding with isGiven | ⟨place, fixed, isBound⟩
      · exact Or.inl isGiven
      · refine Or.inr ⟨place, fixed, fun needed => ?_⟩
        rw [Scopes.isBound_cons_of_lt (provides.closed holder old entry binding place fixed)]
        exact isBound needed

/-- Wherever an evaluation goes, it provides for a name, unless it has come to a given value that
needs the name. -/
theorem Provides.reaches (provides : now.Provides environment given name)
    (defaults : forall value : Expr R, value.IsDefaultIn environment.functions -> given value)
    (reached : now.Reaches environment next) :
    next.Provides environment given name ∨
      ∃ visited, now.Reaches environment visited ∧ given visited.expr ∧
        name ∈ visited.expr.neededNames environment.functions := by
  induction reached with
  | refl => exact Or.inl provides
  | tail before step inductionHypothesis =>
      rcases inductionHypothesis with provides | visited
      · cases step with
        | lookup met noConstant notRandom found =>
            rcases provides.lookup found with further | ⟨isGiven, needed⟩
            · exact Or.inl further
            · exact Or.inr ⟨_, before.tail (.lookup met noConstant notRandom found), isGiven,
                needed⟩
        | call met stored _ => exact Or.inl (provides.call defaults met stored)
      · exact Or.inr visited

end Evaluation

/-- An evaluation that fails for want of a name which its expression does not need has come to a
default, or to what some name is bound to, that needs it. -/
theorem unknownVariable_visits [Scalar R] {environment : Environment R} {scopes : Scopes R}
    {scope : ScopeId} {expr : Expr R} {name : String} (closed : scopes.Closed)
    (there : scope < scopes.length) (notNeeded : name ∉ expr.neededNames environment.functions)
    (failed : evaluate environment scopes scope expr = .error (.unknownVariable name)) :
    ∃ visited : Evaluation R, Evaluation.Reaches environment ⟨[], scopes, scope, expr⟩ visited ∧
      name ∈ visited.expr.neededNames environment.functions ∧
      (visited.expr.IsDefaultIn environment.functions ∨ visited.expr.IsBoundIn scopes) := by
  have reference : (Failure.unknownVariable name).IsReference := trivial
  rcases evaluate_fails reference failed with ⟨last, reached, stops⟩
  have provides : Evaluation.Provides environment
      (fun value => value.IsDefaultIn environment.functions ∨ value.IsBoundIn scopes) name
      ⟨[], scopes, scope, expr⟩ :=
    ⟨there, closed, fun needed => absurd needed notNeeded,
      fun holder member entry binding => Or.inl (Or.inr ⟨holder, member, entry, binding, rfl⟩)⟩
  rcases provides.reaches (fun value => Or.inl) reached with
    atLast | ⟨visited, reached, isGiven, needed⟩
  · cases stops with
    | unbound met _ _ nowhere =>
        have needed : name ∈ last.expr.neededNames environment.functions :=
          Expr.neededNames_of_references last.expr met (List.mem_singleton_self name)
        have isBound := atLast.here needed
        rw [Scopes.isBound_eq, nowhere] at isBound
        cases isBound
  · exact ⟨visited, reached, needed, isGiven⟩

/-! ## Solutions -/

section

variable [Scalar R]

/--
A solution does not mention its target.  It needs the target exactly when the expression
reaches the target through a call.  Otherwise its evaluation fails for want of the target
only after it has come to a default of a function, or to what a name is bound to, that
needs the target.
-/
theorem solved_independent {expr solved : Expr R} {target substitute : String}
    (solvable : checkSolvable expr target = .ok (⟨⟩ : PUnit.{1}))
    (solving : solve expr target substitute = .ok solved) (notEuler : target ≠ "e")
    (different : substitute ≠ target) (store : FunctionStore R) :
    solved.occurrences target = 0 ∧
      (target ∈ solved.freeNames store <-> expr.ReachesByCall store target) ∧
      (¬ expr.ReachesByCall store target ->
        forall (environment : Environment R) (scopes : Scopes R) (scope : ScopeId),
          environment.functions = store -> scopes.Closed -> scope < scopes.length ->
          evaluate environment scopes scope solved = .error (.unknownVariable target) ->
            ∃ visited : Evaluation R,
              Evaluation.Reaches environment ⟨[], scopes, scope, solved⟩ visited ∧
              target ∈ visited.expr.neededNames store ∧
              (visited.expr.IsDefaultIn store ∨ visited.expr.IsBoundIn scopes)) := by
  have once : expr.occurrences target = 1 := checkSolvable_ok_iff.mp ⟨_, solvable⟩
  have written := (testsNames_isVar notEuler).count_solve solving
  have called := (testsNames_callNeeds store target).count_solve solving
  have notWritten : solved.occurrences target = 0 := by
    have one : (Expr.var target : Expr R).countParts (Expr.isVar target) = 1 := by
      simp [Expr.countParts, Expr.walk, Expr.isVar]
    have none : (Expr.var substitute : Expr R).countParts (Expr.isVar target) = 0 := by
      simp [Expr.countParts, Expr.walk, Expr.isVar, different]
    rw [one, none, ← Expr.occurrences_eq, ← Expr.occurrences_eq, once] at written
    omega
  have reaches : solved.ReachesByCall store target <-> expr.ReachesByCall store target := by
    have none : forall name, (Expr.var name).countParts (Expr.callNeeds store target) = 0 :=
      fun _ => rfl
    rw [none, none] at called
    rw [Expr.reachesByCall_iff, Expr.reachesByCall_iff]
    omega
  have needed : target ∈ solved.neededNames store <-> expr.ReachesByCall store target := by
    rw [Expr.mem_neededNames_iff, notWritten, reaches]
    exact or_iff_right (Nat.lt_irrefl 0)
  refine ⟨notWritten, ?_, ?_⟩
  · rw [Expr.freeNames, Text.mem_sortedNames]
    exact needed
  · rintro notReached environment scopes scope rfl closed there failed
    exact unknownVariable_visits closed there (fun met => notReached (needed.mp met)) failed

end

/-! ## A target behind a call -/

/-- A function whose body mentions `x`, and one with a default that does. -/
def functionsOfTarget : FunctionStore ℚ :=
  [("f", ⟨.var "x", []⟩), ("d", ⟨.var "a", [("a", .var "x")]⟩)]

/-- The expression `x + $f{x=z} + $d`: the first call binds `x`, the second one leads to it through
a default only. -/
def sumWithCalls : Expr ℚ :=
  .binary .add (.binary .add (.var "x") (.call "f" (.cons "x" (.var "z") .nil))) (.call "d" .nil)

/-- An environment with these functions. -/
def environmentOfTarget : Environment ℚ :=
  { Environment.initial Registry.empty with functions := functionsOfTarget }

theorem closed_assignment [Scalar R] (values : Table R) : Scopes.Closed (assignment values) := by
  intro holder member entry binding place fixed
  cases List.mem_singleton.mp member
  rcases List.mem_map.mp binding with ⟨_, _, rfl⟩
  cases fixed

theorem solved_independent_default :
    ∃ solved, solve sumWithCalls "x" "y" = .ok solved ∧ solved.occurrences "x" = 0 ∧
      "x" ∉ solved.freeNames functionsOfTarget ∧
      ∃ visited : Evaluation ℚ, Evaluation.Reaches environmentOfTarget
          ⟨[], assignment [("y", 5)], 0, solved⟩ visited ∧
        "x" ∈ visited.expr.neededNames functionsOfTarget ∧
        (visited.expr.IsDefaultIn functionsOfTarget ∨
          visited.expr.IsBoundIn (assignment [("y", 5)])) := by
  have notReached : ¬ sumWithCalls.ReachesByCall functionsOfTarget "x" := by decide +kernel
  have solving : solve sumWithCalls "x" "y" =
      .ok (.binary .subtract (.binary .subtract (.var "y") (.call "d" .nil))
        (.call "f" (.cons "x" (.var "z") .nil))) := rfl
  rcases solved_independent rfl solving (by decide) (by decide) functionsOfTarget with
    ⟨notWritten, needed, visits⟩
  refine ⟨_, solving, notWritten, fun met => notReached (needed.mp met), ?_⟩
  exact visits notReached environmentOfTarget (assignment [("y", 5)]) 0 rfl (closed_assignment _)
    Nat.zero_lt_one rfl

/-- The solution `y - $f` of `y = x + $f` needs `x`, since the body of the function mentions it.
The solution `y - $d` of `y = x + $d` does not, but it cannot be evaluated without `x`. -/
theorem solved_needs_target :
    (checkSolvable (.binary .add (.var "x") (.call "f" .nil) : Expr ℚ) "x" = .ok ⟨⟩ ∧
      ∃ solved, solve (.binary .add (.var "x") (.call "f" .nil) : Expr ℚ) "x" "y" = .ok solved ∧
        "x" ∈ solved.freeNames functionsOfTarget) ∧
    (checkSolvable (.binary .add (.var "x") (.call "d" .nil) : Expr ℚ) "x" = .ok ⟨⟩ ∧
      ∃ solved, solve (.binary .add (.var "x") (.call "d" .nil) : Expr ℚ) "x" "y" = .ok solved ∧
        "x" ∉ solved.freeNames functionsOfTarget ∧
        evaluate environmentOfTarget (assignment [("y", 5)]) 0 solved =
          .error (.unknownVariable "x")) := by
  refine ⟨⟨rfl, _, rfl, ?_⟩, rfl, _, rfl, ?_, rfl⟩
  · rw [Expr.freeNames, Text.mem_sortedNames]
    decide +kernel
  · rw [Expr.freeNames, Text.mem_sortedNames]
    decide +kernel

end QuantityCalculus
