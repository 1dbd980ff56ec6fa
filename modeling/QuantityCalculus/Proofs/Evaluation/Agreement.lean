import QuantityCalculus.Proofs.Evaluation.Resolution

namespace QuantityCalculus

/-!
# Two evaluations side by side

Two evaluations of one expression can differ in what is under way, in the scopes, and in
how many resolutions are left.  They agree on the arithmetic in any case, so a comparison
of the two has to look at names and calls only: `evaluateWith_alike_between` carries it
from these to the whole expression, also where the second expression has other expressions
in the place of some names.

What a comparison allows is data.  The failures of the first evaluation may be changed in
the second, and each side may have failures that excuse it: one of these settles the
comparison whatever the other side does.
-/

variable {R : Type}

/-! ## Outcomes -/

/-- The failure to follow more names at once than is allowed. -/
def Failure.IsTooDeep (failure : Failure) : Prop :=
  failure = .resolutionTooDeep resolutionLimit

/-- What may differ between two outcomes. -/
structure Comparison where
  /-- What the second evaluation makes of a failure of the first. -/
  change : Failure -> Failure
  /-- The failures that excuse the first evaluation. -/
  firstExcused : Failure -> Prop
  /-- The failures that excuse the second evaluation. -/
  secondExcused : Failure -> Prop
  /-- Only the report of a function that calls itself is changed: it names the functions under
  way. -/
  change_other : forall failure, (forall callers name, failure ≠ .cyclicFunction callers name) ->
    change failure = failure

namespace Comparison

variable {α β : Type} {comparison : Comparison}

/-- The second outcome is the first with its failure changed, unless one of them is excused. -/
inductive Holds (comparison : Comparison) : Except Failure α -> Except Failure α -> Prop
  | ok {value} : Holds comparison (.ok value) (.ok value)
  | failed {failure} : Holds comparison (.error failure) (.error (comparison.change failure))
  | first {failure second} : comparison.firstExcused failure ->
      Holds comparison (.error failure) second
  | second {first failure} : comparison.secondExcused failure ->
      Holds comparison first (.error failure)

theorem Holds.bind {first second : Except Failure α} {rest other : α -> Except Failure β}
    (here : comparison.Holds first second)
    (further : forall value, comparison.Holds (rest value) (other value)) :
    comparison.Holds (first >>= rest) (second >>= other) := by
  cases here with
  | ok => exact further _
  | failed => exact .failed
  | first excused => exact .first excused
  | second excused => exact .second excused

/-- A failure that is not changed. -/
theorem Holds.error {failure : Failure}
    (other : forall callers name, failure ≠ .cyclicFunction callers name) :
    comparison.Holds (.error failure : Except Failure α) (.error failure) := by
  have changed : comparison.Holds (.error failure : Except Failure α)
      (.error (comparison.change failure)) := .failed
  rwa [comparison.change_other failure other] at changed

/-- What follows no names is the same on both sides. -/
theorem Holds.same {computation : Except Failure α} (follows : FollowsNoName computation) :
    comparison.Holds computation computation := by
  cases outcome : computation with
  | ok value => exact .ok
  | error failure =>
      refine .error fun callers name cyclic => follows failure outcome ?_
      rw [cyclic]
      trivial

/-- Outcomes that are not excused differ in the failure only. -/
theorem Holds.eq_mapError {first second : Except Failure α} (holds : comparison.Holds first second)
    (firstCounts : forall failure, comparison.firstExcused failure -> first ≠ .error failure)
    (secondCounts : forall failure, comparison.secondExcused failure -> second ≠ .error failure) :
    second = first.mapError comparison.change := by
  cases holds with
  | ok => rfl
  | failed => rfl
  | first excused => exact absurd rfl (firstCounts _ excused)
  | second excused => exact absurd rfl (secondCounts _ excused)

/-- A comparison that changes no failure, where some failures excuse a side. -/
def excusing (firstExcused secondExcused : Failure -> Prop) : Comparison where
  change := id
  firstExcused := firstExcused
  secondExcused := secondExcused
  change_other := fun _ _ => rfl

/-- Outcomes without excuses that change nothing are the same. -/
theorem Holds.eq {firstExcused secondExcused : Failure -> Prop} {first second : Except Failure α}
    (holds : (excusing firstExcused secondExcused).Holds first second)
    (firstCounts : forall failure, firstExcused failure -> first ≠ .error failure)
    (secondCounts : forall failure, secondExcused failure -> second ≠ .error failure) :
    first = second := by
  have same := holds.eq_mapError firstCounts secondCounts
  cases first <;> exact same.symm

end Comparison

/-! ## Expressions in the place of names -/

mutual

/-- An expression with other expressions, in parentheses, in the place of some variables. -/
def Expr.substituted (table : Table (Expr R)) : Expr R -> Expr R
  | .num value => .num value
  | .var name =>
      match table.get? name with
      | some value => .paren value
      | none => .var name
  | .mem => .mem
  | .memAt i => .memAt (i.substituted table)
  | .func kind x => .func kind (x.substituted table)
  | .factorial x => .factorial (x.substituted table)
  | .sqrt x => .sqrt (x.substituted table)
  | .root x i => .root (x.substituted table) (i.substituted table)
  | .abs x => .abs (x.substituted table)
  | .fraction x y => .fraction (x.substituted table) (y.substituted table)
  | .binary op x y => .binary op (x.substituted table) (y.substituted table)
  | .binding name x => .binding name (x.substituted table)
  | .call name arguments => .call name (arguments.substituted table)
  | .paren x => .paren (x.substituted table)
  | .marked mark x => .marked mark (x.substituted table)
  | .equation l r => .equation (l.substituted table) (r.substituted table)
  | .declaration name x => .declaration name (x.substituted table)
  | .target name => .target name

/-- The bindings of a call with other expressions in the place of some variables. -/
def Arguments.substituted (table : Table (Expr R)) : Arguments R -> Arguments R
  | .nil => .nil
  | .cons name value rest => .cons name (value.substituted table) (rest.substituted table)

end

mutual

theorem Expr.substituted_nil (expr : Expr R) : expr.substituted [] = expr := by
  match expr with
  | .num _ | .var _ | .mem | .target _ => rfl
  | .memAt x | .func _ x | .factorial x | .sqrt x | .abs x | .binding _ x | .paren x
  | .marked _ x | .declaration _ x => rw [Expr.substituted, Expr.substituted_nil x]
  | .root x y | .fraction x y | .binary _ x y | .equation x y =>
      rw [Expr.substituted, Expr.substituted_nil x, Expr.substituted_nil y]
  | .call _ arguments => rw [Expr.substituted, Arguments.substituted_nil arguments]

theorem Arguments.substituted_nil (arguments : Arguments R) :
    arguments.substituted [] = arguments := by
  match arguments with
  | .nil => rfl
  | .cons _ value rest =>
      rw [Arguments.substituted, Expr.substituted_nil value, Arguments.substituted_nil rest]

end

/-- Evaluation of an expression reads the memory. -/
def Expr.readsMemory : Expr R -> Bool
  | .mem | .memAt _ => true
  | .func _ x | .factorial x | .sqrt x | .abs x | .paren x | .marked _ x => x.readsMemory
  | .root x y | .fraction x y | .binary _ x y => x.readsMemory || y.readsMemory
  | .num _ | .var _ | .call .. | .binding .. | .equation .. | .declaration .. | .target _ => false

/-! ## The lift to expressions -/

section

variable [Scalar R]

omit [Scalar R] in
/-- Which catalogs are enabled matters, and not in which order. -/
theorem Registry.resolve_enabled (registry : Registry R) (symbol : String)
    {enabled others : List String} (same : forall name, name ∈ enabled <-> name ∈ others) :
    registry.resolve symbol enabled = registry.resolve symbol others := by
  have catalogs : registry.enabledCatalogs enabled = registry.enabledCatalogs others := by
    unfold Registry.enabledCatalogs
    congr 1
    refine List.filter_congr fun entry _ => ?_
    rw [Bool.eq_iff_iff, List.contains_iff_mem, List.contains_iff_mem]
    exact same entry.1
  rw [Registry.resolve, Registry.resolve, catalogs]

theorem Environment.mark_enabled (environment : Environment R) {enabled others : List String}
    (same : forall name, name ∈ enabled <-> name ∈ others) (mark : UnitMark)
    (inner : Quantity R) :
    environment.mark enabled mark inner = environment.mark others mark inner := by
  cases mark with
  | normalize => rfl
  | cast symbol =>
      simp only [Environment.mark, Registry.convert, Registry.resolve_enabled _ symbol same]
  | apply symbol => simp only [Environment.mark, Registry.resolve_enabled _ symbol same]

/-- Two environments that calculate alike: they have the same units and the same angle mode. -/
structure Environment.CalculatesAs (environment other : Environment R) : Prop where
  registry : environment.registry = other.registry
  angleMode : environment.angleMode = other.angleMode

namespace Environment.CalculatesAs

variable {environment other : Environment R}

omit [Scalar R] in
theorem refl (environment : Environment R) : environment.CalculatesAs environment :=
  ⟨rfl, rfl⟩

theorem function (alike : environment.CalculatesAs other) (kind : FunctionKind)
    (argument : Quantity R) :
    environment.function kind argument = other.function kind argument := by
  rw [Environment.function, Environment.function, alike.angleMode]

theorem binary (alike : environment.CalculatesAs other) (op : Operator) (left right : Quantity R) :
    environment.binary op left right = other.binary op left right := by
  cases op <;> simp only [Environment.binary, alike.registry]

theorem mark (alike : environment.CalculatesAs other) (enabled : List String) (mark : UnitMark)
    (inner : Quantity R) : environment.mark enabled mark inner = other.mark enabled mark inner := by
  cases mark <;> simp only [Environment.mark, alike.registry]

end Environment.CalculatesAs

variable {comparison : Comparison} {environment otherEnvironment : Environment R}
  {deeper other : Evaluator R} {trail otherTrail : List Resolution} {scopes others : Scopes R}
  {scope place : ScopeId} {table : Table (Expr R)}

/-- Evaluations that agree on the variables and calls of an expression agree on the expression,
by recursion on the expression.  The environments may differ in what their names stand for. -/
theorem evaluateWith_alike_between (calculates : environment.CalculatesAs otherEnvironment)
    (catalogs : forall name, name ∈ scopes.enabledIn scope <-> name ∈ others.enabledIn place)
    (expr : Expr R)
    (memory : expr.readsMemory = true ->
      forall index, scopes.memoryAt scope index = others.memoryAt place index)
    (names : forall name, .var name ∈ expr.references ->
      comparison.Holds (evaluateVariable environment deeper trail scopes scope name)
        (evaluateWith otherEnvironment other otherTrail others place
          ((Expr.var name).substituted table)))
    (calls : forall name arguments, .call name arguments ∈ expr.references ->
      comparison.Holds (evaluateCall environment deeper trail scopes scope name arguments.toList)
        (evaluateCall otherEnvironment other otherTrail others place name
          (arguments.substituted table).toList)) :
    comparison.Holds (evaluateWith environment deeper trail scopes scope expr)
      (evaluateWith otherEnvironment other otherTrail others place (expr.substituted table)) := by
  match expr with
  | .num _ => exact .ok
  | .var name => exact names name (List.mem_singleton_self _)
  | .call name arguments => exact calls name arguments (List.mem_singleton_self _)
  | .binding .. | .equation .. | .declaration .. | .target _ => exact .same (.error id)
  | .mem =>
      rw [Expr.substituted, evaluateWith, evaluateWith, memory rfl 0]
      exact .same (Scopes.memoryAt_followsNoName _ _ _)
  | .memAt x =>
      have inner :=
        evaluateWith_alike_between calculates catalogs x (fun _ => memory rfl) names calls
      refine inner.bind fun quantity => .bind (.same (memoryIndex_followsNoName quantity)) ?_
      intro index
      rw [memory rfl index]
      exact .same (Scopes.memoryAt_followsNoName _ _ _)
  | .func _ x =>
      refine (evaluateWith_alike_between calculates catalogs x memory names calls).bind fun _ => ?_
      rw [calculates.function]
      exact .same (Environment.function_followsNoName _ _ _)
  | .factorial x | .sqrt x | .abs x =>
      exact (evaluateWith_alike_between calculates catalogs x memory names calls).bind fun _ => .ok
  | .paren x => exact evaluateWith_alike_between calculates catalogs x memory names calls
  | .marked mark x =>
      refine (evaluateWith_alike_between calculates catalogs x memory names calls).bind
        fun inner => ?_
      rw [calculates.mark, Environment.mark_enabled otherEnvironment catalogs]
      exact .same (Environment.mark_followsNoName _ _ _ _)
  | .root x y | .fraction x y | .binary _ x y =>
      have left := evaluateWith_alike_between calculates catalogs x
        (fun reads => memory (Bool.or_eq_true_iff.mpr (Or.inl reads)))
        (fun name met => names name (List.mem_append_left _ met))
        (fun name arguments met => calls name arguments (List.mem_append_left _ met))
      have right := evaluateWith_alike_between calculates catalogs y
        (fun reads => memory (Bool.or_eq_true_iff.mpr (Or.inr reads)))
        (fun name met => names name (List.mem_append_right _ met))
        (fun name arguments met => calls name arguments (List.mem_append_right _ met))
      refine left.bind fun x => right.bind fun y => ?_
      first
        | exact .ok
        | rw [calculates.registry]; exact .same (Registry.combine_followsNoName _ _ _ _)
        | rw [calculates.binary]; exact .same (Environment.binary_followsNoName _ _ _ _)

/-- The same for one expression on both sides. -/
theorem evaluateWith_alike_between_self (calculates : environment.CalculatesAs otherEnvironment)
    (catalogs : forall name, name ∈ scopes.enabledIn scope <-> name ∈ others.enabledIn place)
    (expr : Expr R)
    (memory : expr.readsMemory = true ->
      forall index, scopes.memoryAt scope index = others.memoryAt place index)
    (names : forall name, .var name ∈ expr.references ->
      comparison.Holds (evaluateVariable environment deeper trail scopes scope name)
        (evaluateVariable otherEnvironment other otherTrail others place name))
    (calls : forall name arguments, .call name arguments ∈ expr.references ->
      comparison.Holds (evaluateCall environment deeper trail scopes scope name arguments.toList)
        (evaluateCall otherEnvironment other otherTrail others place name arguments.toList)) :
    comparison.Holds (evaluateWith environment deeper trail scopes scope expr)
      (evaluateWith otherEnvironment other otherTrail others place expr) := by
  have alike : comparison.Holds (evaluateWith environment deeper trail scopes scope expr)
      (evaluateWith otherEnvironment other otherTrail others place (expr.substituted [])) :=
    evaluateWith_alike_between calculates catalogs expr memory names fun name arguments met =>
      (Arguments.substituted_nil arguments).symm ▸ calls name arguments met
  rwa [Expr.substituted_nil] at alike

/-- The same in one environment and for one expression. -/
theorem evaluateWith_alike_self
    (catalogs : forall name, name ∈ scopes.enabledIn scope <-> name ∈ others.enabledIn place)
    (expr : Expr R)
    (memory : expr.readsMemory = true ->
      forall index, scopes.memoryAt scope index = others.memoryAt place index)
    (names : forall name, .var name ∈ expr.references ->
      comparison.Holds (evaluateVariable environment deeper trail scopes scope name)
        (evaluateVariable environment other otherTrail others place name))
    (calls : forall name arguments, .call name arguments ∈ expr.references ->
      comparison.Holds (evaluateCall environment deeper trail scopes scope name arguments.toList)
        (evaluateCall environment other otherTrail others place name arguments.toList)) :
    comparison.Holds (evaluateWith environment deeper trail scopes scope expr)
      (evaluateWith environment other otherTrail others place expr) :=
  evaluateWith_alike_between_self (.refl environment) catalogs expr memory names calls

/-! ## Names and calls -/

/-- What a name stands for where it is bound. -/
def evaluateBound (deeper : Evaluator R) (trail : List Resolution) (scopes : Scopes R)
    (scope : ScopeId) (name : String) (found : ScopeId × BoundExpr R) :
    Except Failure (Quantity R) :=
  if .variable found.1 name (found.2.scope.getD scope) ∈ trail then .error (.cyclicVariable name)
  else
    deeper (.variable found.1 name (found.2.scope.getD scope) :: trail) scopes
      (found.2.scope.getD scope) found.2.expr

/-- What a call of a stored function stands for. -/
def evaluateBody (deeper : Evaluator R) (trail : List Resolution) (scopes : Scopes R)
    (scope : ScopeId) (name : String) (arguments : List (String × Expr R))
    (definition : FunctionDefinition R) : Except Failure (Quantity R) :=
  if .function name ∈ trail then .error (.cyclicFunction (callers trail) name)
  else
    deeper (.function name :: trail) (openedScope scopes scope definition arguments :: scopes)
      scopes.length definition.body

omit [Scalar R] in
theorem evaluateVariable_eq {name : String}
    (noConstant : environment.constants.get? name = none) (notRandom : isRandomName name = false) :
    evaluateVariable environment deeper trail scopes scope name =
      match scopes.lookup? scope name with
      | none => .error (.unknownVariable name)
      | some found => evaluateBound deeper trail scopes scope name found := by
  unfold evaluateVariable Scopes.lookup
  rw [if_neg (Bool.eq_false_iff.mp notRandom), noConstant]
  cases scopes.lookup? scope name with
  | none => rfl
  | some found =>
      dsimp only [bind, Except.bind, evaluateBound]
      simp only [List.contains_iff_mem]

theorem evaluateCall_eq {name : String} {arguments : List (String × Expr R)}
    {definition : FunctionDefinition R}
    (stored : environment.functions.get? name = some definition) :
    evaluateCall environment deeper trail scopes scope name arguments =
      evaluateBody deeper trail scopes scope name arguments definition := by
  unfold evaluateCall evaluateBody
  rw [stored]
  simp only [List.contains_iff_mem, callScope_eq]

omit [Scalar R] in
/-- A name agrees when both sides find nothing, or agree on what they find. -/
theorem evaluateVariable_alike_between {name : String}
    (random : isRandomName name = true ->
      environment.random name = otherEnvironment.random name)
    (constants : environment.constants.get? name = otherEnvironment.constants.get? name)
    (found : environment.constants.get? name = none -> isRandomName name = false ->
      Option.Rel (fun here there =>
        comparison.Holds (evaluateBound deeper trail scopes scope name here)
          (evaluateBound other otherTrail others place name there))
        (scopes.lookup? scope name) (others.lookup? place name)) :
    comparison.Holds (evaluateVariable environment deeper trail scopes scope name)
      (evaluateVariable otherEnvironment other otherTrail others place name) := by
  cases notRandom : isRandomName name with
  | true =>
      rw [evaluateVariable, evaluateVariable, if_pos notRandom, if_pos notRandom, random notRandom]
      exact .same (Environment.random_followsNoName _ _)
  | false =>
      cases noConstant : environment.constants.get? name with
      | some value =>
          simp only [evaluateVariable, notRandom, noConstant, constants.symm.trans noConstant]
          exact .ok
      | none =>
          rw [evaluateVariable_eq noConstant notRandom,
            evaluateVariable_eq (constants.symm.trans noConstant) notRandom]
          have followed := found noConstant notRandom
          generalize scopes.lookup? scope name = here at followed
          generalize others.lookup? place name = there at followed
          cases followed with
          | none => exact .error nofun
          | some holds => exact holds

omit [Scalar R] in
/-- The same in one environment. -/
theorem evaluateVariable_alike {name : String}
    (found : environment.constants.get? name = none -> isRandomName name = false ->
      Option.Rel (fun here there =>
        comparison.Holds (evaluateBound deeper trail scopes scope name here)
          (evaluateBound other otherTrail others place name there))
        (scopes.lookup? scope name) (others.lookup? place name)) :
    comparison.Holds (evaluateVariable environment deeper trail scopes scope name)
      (evaluateVariable environment other otherTrail others place name) :=
  evaluateVariable_alike_between (fun _ => rfl) rfl found

/-- A call agrees when both sides agree on the body of the function. -/
theorem evaluateCall_alike {name : String} {arguments otherArguments : List (String × Expr R)}
    (followed : forall definition, environment.functions.get? name = some definition ->
      comparison.Holds (evaluateBody deeper trail scopes scope name arguments definition)
        (evaluateBody other otherTrail others place name otherArguments definition)) :
    comparison.Holds (evaluateCall environment deeper trail scopes scope name arguments)
      (evaluateCall environment other otherTrail others place name otherArguments) := by
  cases stored : environment.functions.get? name with
  | none =>
      simp only [evaluateCall, stored]
      exact .ok
  | some definition =>
      rw [evaluateCall_eq stored, evaluateCall_eq stored]
      exact followed definition stored

omit [Scalar R] in
/-- What is bound agrees when both sides are in the same cycle, or in none and agree there. -/
theorem evaluateBound_alike {name : String} {here there : ScopeId × BoundExpr R}
    (cycles : .variable here.1 name (here.2.scope.getD scope) ∈ trail <->
      .variable there.1 name (there.2.scope.getD place) ∈ otherTrail)
    (further : comparison.Holds
      (deeper (.variable here.1 name (here.2.scope.getD scope) :: trail) scopes
        (here.2.scope.getD scope) here.2.expr)
      (other (.variable there.1 name (there.2.scope.getD place) :: otherTrail) others
        (there.2.scope.getD place) there.2.expr)) :
    comparison.Holds (evaluateBound deeper trail scopes scope name here)
      (evaluateBound other otherTrail others place name there) := by
  unfold evaluateBound
  by_cases again : .variable here.1 name (here.2.scope.getD scope) ∈ trail
  · rw [if_pos again, if_pos (cycles.mp again)]
    exact .error nofun
  · rw [if_neg again, if_neg fun cycle => again (cycles.mpr cycle)]
    exact further

omit [Scalar R] in
/-- The same for the body of a function; a cycle is reported with the functions under way. -/
theorem evaluateBody_alike {name : String} {arguments otherArguments : List (String × Expr R)}
    {definition : FunctionDefinition R}
    (cycles : .function name ∈ trail <-> .function name ∈ otherTrail)
    (report : comparison.change (.cyclicFunction (callers trail) name) =
      .cyclicFunction (callers otherTrail) name)
    (further : .function name ∉ trail -> comparison.Holds
      (deeper (.function name :: trail) (openedScope scopes scope definition arguments :: scopes)
        scopes.length definition.body)
      (other (.function name :: otherTrail)
        (openedScope others place definition otherArguments :: others) others.length
        definition.body)) :
    comparison.Holds (evaluateBody deeper trail scopes scope name arguments definition)
      (evaluateBody other otherTrail others place name otherArguments definition) := by
  unfold evaluateBody
  by_cases again : .function name ∈ trail
  · rw [if_pos again, if_pos (cycles.mp again), ← report]
    exact .failed
  · rw [if_neg again, if_neg fun cycle => again (cycles.mpr cycle)]
    exact further again

omit [Scalar R] in
/-- A relation holds on an optional value when it holds on the value. -/
theorem rel_self {α : Type} {relation : α -> α -> Prop} (candidate : Option α)
    (holds : forall value, candidate = some value -> relation value value) :
    Option.Rel relation candidate candidate := by
  cases candidate with
  | none => exact .none
  | some value => exact .some (holds value rfl)

end

end QuantityCalculus
