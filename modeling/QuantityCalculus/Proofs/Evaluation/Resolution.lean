import Mathlib.Logic.Relation
import QuantityCalculus.Proofs.Evaluation.CallScope

namespace QuantityCalculus

/-!
# Where an evaluation goes

An evaluation leaves its expression in two ways only: it follows a variable to what the
variable is bound to, or a call to the body of the function.  `Evaluation.Continues` is
one such move, `Evaluation.Stops` says which names stop the evaluation where it is, and
every failure to follow a name is a stop that some moves lead to.

What holds of an evaluation and is kept by each move therefore holds wherever a name
fails.  No statement about such failures has to look at the arithmetic again.
-/

variable {R : Type}

/-! ## Failures of names and other failures -/

/-- The failures to follow a name: nothing is bound to it, or it leads back to itself. -/
def Failure.IsReference : Failure -> Prop
  | .unknownVariable _ | .cyclicVariable _ | .cyclicFunction .. => True
  | _ => False

/-- A computation that follows no names. -/
def FollowsNoName {α : Type} (computation : Except Failure α) : Prop :=
  forall failure, computation = .error failure -> ¬ failure.IsReference

namespace FollowsNoName

variable {α β : Type}

theorem ok (value : α) : FollowsNoName (.ok value) := nofun

theorem error {failure : Failure} (other : ¬ failure.IsReference) :
    FollowsNoName (.error failure : Except Failure α) := by
  intro found same
  cases same
  exact other

theorem bind {first : Except Failure α} {rest : α -> Except Failure β}
    (here : FollowsNoName first) (further : forall value, FollowsNoName (rest value)) :
    FollowsNoName (first >>= rest) := by
  intro failure failed
  rcases bind_eq_error.mp failed with first | ⟨value, _, later⟩
  · exact here failure first
  · exact further value failure later

end FollowsNoName

/-- When only the first part of a computation follows names, names fail in that part. -/
theorem fails_first {α β : Type} {first : Except Failure α} {rest : α -> Except Failure β}
    {failure : Failure} (failed : (first >>= rest) = .error failure)
    (reference : failure.IsReference) (further : forall value, FollowsNoName (rest value)) :
    first = .error failure := by
  rcases bind_eq_error.mp failed with here | ⟨value, _, later⟩
  · exact here
  · exact absurd reference (further value failure later)

/-- When the operands follow names and their combination does not, names fail in an operand. -/
theorem fails_operand {α β γ : Type} {left : Except Failure α} {right : Except Failure β}
    {combined : α -> β -> Except Failure γ} {failure : Failure}
    (failed : (left >>= fun x => right >>= combined x) = .error failure)
    (reference : failure.IsReference) (further : forall x y, FollowsNoName (combined x y)) :
    left = .error failure ∨ right = .error failure := by
  rcases bind_eq_error.mp failed with first | ⟨x, _, rest⟩
  · exact Or.inl first
  · exact Or.inr (fails_first rest reference (further x))

theorem Scopes.memoryAt_followsNoName (scopes : Scopes R) (scope : ScopeId) (index : Int) :
    FollowsNoName (scopes.memoryAt scope index) := by
  unfold Scopes.memoryAt
  split
  · split
    · exact .ok _
    · exact .error id
  · exact .error id

theorem memoryIndex_followsNoName [Scalar R] (quantity : Quantity R) :
    FollowsNoName (memoryIndex quantity) := by
  unfold memoryIndex
  split
  · exact .ok _
  · exact .error id

theorem Environment.random_followsNoName (environment : Environment R) (name : String) :
    FollowsNoName (environment.random name) := by
  unfold Environment.random
  split
  · exact .ok _
  · split
    · exact .ok _
    · exact .error id

section Operations

variable [Scalar R]

theorem Environment.function_followsNoName (environment : Environment R) (kind : FunctionKind)
    (argument : Quantity R) : FollowsNoName (environment.function kind argument) := by
  unfold Environment.function
  split
  · exact .error id
  · exact .ok _

theorem Registry.combine_followsNoName (registry : Registry R) (op : UnitOperator)
    (left right : Quantity R) : FollowsNoName (registry.combine op left right) := by
  unfold Registry.combine
  split
  · exact .ok _
  · split
    · exact .ok _
    · split
      · exact .error id
      · exact .ok _

omit [Scalar R] in
theorem Registry.resolve_followsNoName (registry : Registry R) (symbol : String)
    (enabled : List String) : FollowsNoName (registry.resolve symbol enabled) := by
  unfold Registry.resolve
  dsimp only
  split
  · exact .ok _
  · split
    · exact .ok _
    · exact .error id

theorem Environment.binary_followsNoName (environment : Environment R) (op : Operator)
    (left right : Quantity R) : FollowsNoName (environment.binary op left right) := by
  unfold Environment.binary
  split
  · exact .ok _
  · exact .ok _
  · exact Registry.combine_followsNoName _ _ _ _
  · exact Registry.combine_followsNoName _ _ _ _
  · exact .ok _
  · exact .ok _

theorem Environment.mark_followsNoName (environment : Environment R) (enabled : List String)
    (mark : UnitMark) (inner : Quantity R) :
    FollowsNoName (environment.mark enabled mark inner) := by
  cases mark with
  | normalize => exact .ok _
  | cast symbol =>
      refine .bind (Registry.resolve_followsNoName _ _ _) fun _ => ?_
      dsimp only
      split
      · exact .ok _
      · exact .ok _
  | apply symbol =>
      exact .bind (Registry.resolve_followsNoName _ _ _) fun _ =>
        Registry.combine_followsNoName _ _ _ _

end Operations

/-! ## The names an evaluation meets -/

/-- The variables and calls that the evaluation of an expression meets in the expression itself.
Arguments of a call are met later, if at all, and a statement is not evaluated. -/
def Expr.references : Expr R -> List (Expr R)
  | .var name => [.var name]
  | .call name arguments => [.call name arguments]
  | .memAt x | .func _ x | .factorial x | .sqrt x | .abs x | .paren x | .marked _ x =>
      x.references
  | .root x y | .fraction x y | .binary _ x y => x.references ++ y.references
  | .num _ | .mem | .binding .. | .equation .. | .declaration .. | .target _ => []

/-- What is met is a variable or a call. -/
theorem Expr.references_kind {part : Expr R} (expr : Expr R) (met : part ∈ expr.references) :
    (∃ name, part = .var name) ∨ ∃ name arguments, part = .call name arguments := by
  match expr with
  | .var name => exact Or.inl ⟨name, List.mem_singleton.mp met⟩
  | .call name arguments => exact Or.inr ⟨name, arguments, List.mem_singleton.mp met⟩
  | .memAt x | .func _ x | .factorial x | .sqrt x | .abs x | .paren x | .marked _ x =>
      exact Expr.references_kind x met
  | .root x y | .fraction x y | .binary _ x y =>
      exact (List.mem_append.mp met).elim (Expr.references_kind x) (Expr.references_kind y)
  | .num _ | .mem | .binding .. | .equation .. | .declaration .. | .target _ => cases met

/-- A name fails where the evaluation of an expression meets it. -/
theorem evaluateWith_fails [Scalar R] {environment : Environment R} {deeper : Evaluator R}
    {trail : List Resolution} {scopes : Scopes R} {scope : ScopeId} {failure : Failure}
    (reference : failure.IsReference) (expr : Expr R)
    (failed : evaluateWith environment deeper trail scopes scope expr = .error failure) :
    ∃ part, part ∈ expr.references ∧
      evaluateWith environment deeper trail scopes scope part = .error failure := by
  match expr with
  | .num _ => cases failed
  | .var name => exact ⟨_, List.mem_singleton_self _, failed⟩
  | .call name arguments => exact ⟨_, List.mem_singleton_self _, failed⟩
  | .mem => exact absurd reference (Scopes.memoryAt_followsNoName scopes scope 0 failure failed)
  | .binding .. | .equation .. | .declaration .. | .target _ =>
      cases failed
      cases reference
  | .memAt x =>
      refine evaluateWith_fails reference x (fails_first failed reference fun quantity => ?_)
      exact .bind (memoryIndex_followsNoName quantity)
        (Scopes.memoryAt_followsNoName scopes scope)
  | .func _ x =>
      exact evaluateWith_fails reference x
        (fails_first failed reference fun _ => Environment.function_followsNoName _ _ _)
  | .factorial x | .sqrt x | .abs x =>
      exact evaluateWith_fails reference x (fails_first failed reference fun _ => .ok _)
  | .paren x => exact evaluateWith_fails reference x failed
  | .marked _ x =>
      exact evaluateWith_fails reference x
        (fails_first failed reference fun _ => Environment.mark_followsNoName _ _ _ _)
  | .root x y =>
      rcases fails_operand failed reference fun _ _ => .ok _ with left | right
      · exact (evaluateWith_fails reference x left).imp fun _ =>
          And.imp_left (List.mem_append_left _)
      · exact (evaluateWith_fails reference y right).imp fun _ =>
          And.imp_left (List.mem_append_right _)
  | .fraction x y =>
      rcases fails_operand failed reference fun _ _ =>
          Registry.combine_followsNoName _ _ _ _ with left | right
      · exact (evaluateWith_fails reference x left).imp fun _ =>
          And.imp_left (List.mem_append_left _)
      · exact (evaluateWith_fails reference y right).imp fun _ =>
          And.imp_left (List.mem_append_right _)
  | .binary _ x y =>
      rcases fails_operand failed reference fun _ _ =>
          Environment.binary_followsNoName _ _ _ _ with left | right
      · exact (evaluateWith_fails reference x left).imp fun _ =>
          And.imp_left (List.mem_append_left _)
      · exact (evaluateWith_fails reference y right).imp fun _ =>
          And.imp_left (List.mem_append_right _)

/-! ## From one expression to the next -/

/-- What is evaluated, and in which scope, while some resolutions are under way. -/
structure Evaluation (R : Type) where
  trail : List Resolution
  scopes : Scopes R
  scope : ScopeId
  expr : Expr R

namespace Evaluation

/-- One evaluation goes on with another, which a name leads to. -/
inductive Continues (environment : Environment R) : Evaluation R -> Evaluation R -> Prop
  | lookup {now : Evaluation R} {name : String} {definedIn : ScopeId} {bound : BoundExpr R} :
      .var name ∈ now.expr.references ->
      environment.constants.has name = false -> isRandomName name = false ->
      now.scopes.lookup? now.scope name = some (definedIn, bound) ->
      Continues environment now
        ⟨.variable definedIn name (bound.scope.getD now.scope) :: now.trail, now.scopes,
          bound.scope.getD now.scope, bound.expr⟩
  | call {now : Evaluation R} {name : String} {arguments : Arguments R}
      {definition : FunctionDefinition R} :
      .call name arguments ∈ now.expr.references ->
      environment.functions.get? name = some definition -> .function name ∉ now.trail ->
      Continues environment now
        ⟨.function name :: now.trail,
          openedScope now.scopes now.scope definition arguments.toList :: now.scopes,
          now.scopes.length, definition.body⟩

/-- A name that cannot be followed stops an evaluation. -/
inductive Stops (environment : Environment R) : Evaluation R -> Failure -> Prop
  | unbound {now : Evaluation R} {name : String} :
      .var name ∈ now.expr.references ->
      environment.constants.has name = false -> isRandomName name = false ->
      now.scopes.lookup? now.scope name = none ->
      Stops environment now (.unknownVariable name)
  | variableAgain {now : Evaluation R} {name : String} {definedIn : ScopeId}
      {bound : BoundExpr R} :
      .var name ∈ now.expr.references ->
      now.scopes.lookup? now.scope name = some (definedIn, bound) ->
      .variable definedIn name (bound.scope.getD now.scope) ∈ now.trail ->
      Stops environment now (.cyclicVariable name)
  | functionAgain {now : Evaluation R} {name : String} {arguments : Arguments R} :
      .call name arguments ∈ now.expr.references -> .function name ∈ now.trail ->
      Stops environment now (.cyclicFunction (callers now.trail) name)

/-- The evaluations that an evaluation goes on with, itself included. -/
abbrev Reaches (environment : Environment R) : Evaluation R -> Evaluation R -> Prop :=
  Relation.ReflTransGen (Continues environment)

end Evaluation

/-- A variable that is not a constant and not random is looked up. -/
theorem evaluateVariable_fails [Scalar R] {environment : Environment R} {deeper : Evaluator R}
    {trail : List Resolution} {scopes : Scopes R} {scope : ScopeId} {name : String}
    {failure : Failure} (reference : failure.IsReference)
    (failed : evaluateVariable environment deeper trail scopes scope name = .error failure) :
    environment.constants.has name = false ∧ isRandomName name = false ∧
      ((scopes.lookup? scope name = none ∧ failure = .unknownVariable name) ∨
        ∃ definedIn bound, scopes.lookup? scope name = some (definedIn, bound) ∧
          ((.variable definedIn name (bound.scope.getD scope) ∈ trail ∧
              failure = .cyclicVariable name) ∨
            deeper (.variable definedIn name (bound.scope.getD scope) :: trail) scopes
              (bound.scope.getD scope) bound.expr = .error failure)) := by
  unfold evaluateVariable at failed
  split at failed
  · exact absurd reference (Environment.random_followsNoName environment name failure failed)
  · rename_i notRandom
    split at failed
    · cases failed
    · rename_i noConstant
      refine ⟨by rw [Table.has, noConstant]; rfl, Bool.eq_false_iff.mpr notRandom, ?_⟩
      unfold Scopes.lookup at failed
      cases found : scopes.lookup? scope name with
      | none =>
          rw [found] at failed
          cases failed
          exact Or.inl ⟨rfl, rfl⟩
      | some entry =>
          rcases entry with ⟨definedIn, bound⟩
          rw [found] at failed
          refine Or.inr ⟨definedIn, bound, rfl, ?_⟩
          dsimp only [bind, Except.bind] at failed
          split at failed
          · rename_i again
            cases failed
            exact Or.inl ⟨List.contains_iff_mem.mp again, rfl⟩
          · exact Or.inr failed

/-- A call that is stored and not under way is followed. -/
theorem evaluateCall_fails [Scalar R] {environment : Environment R} {deeper : Evaluator R}
    {trail : List Resolution} {scopes : Scopes R} {scope : ScopeId} {name : String}
    {arguments : List (String × Expr R)} {failure : Failure}
    (failed : evaluateCall environment deeper trail scopes scope name arguments =
      .error failure) :
    ∃ definition, environment.functions.get? name = some definition ∧
      ((.function name ∈ trail ∧ failure = .cyclicFunction (callers trail) name) ∨
        (.function name ∉ trail ∧
          deeper (.function name :: trail)
            (openedScope scopes scope definition arguments :: scopes) scopes.length
            definition.body = .error failure)) := by
  unfold evaluateCall at failed
  split at failed
  · cases failed
  · rename_i definition stored
    refine ⟨definition, stored, ?_⟩
    split at failed
    · rename_i again
      cases failed
      exact Or.inl ⟨List.contains_iff_mem.mp again, rfl⟩
    · rename_i fresh
      rw [callScope_eq] at failed
      exact Or.inr ⟨fun again => fresh (List.contains_iff_mem.mpr again), failed⟩

/-- One round: a name fails where it is met, or where the evaluator for what it leads to has
gone. -/
theorem evaluateWith_goesOn [Scalar R] {environment : Environment R} {deeper : Evaluator R}
    {start : Evaluation R} {failure : Failure} (reference : failure.IsReference)
    (onward : forall next : Evaluation R,
      deeper next.trail next.scopes next.scope next.expr = .error failure ->
        ∃ last, next.Reaches environment last ∧ last.Stops environment failure)
    (failed : evaluateWith environment deeper start.trail start.scopes start.scope start.expr =
      .error failure) :
    ∃ last, start.Reaches environment last ∧ last.Stops environment failure := by
  rcases evaluateWith_fails reference start.expr failed with ⟨part, member, here⟩
  rcases Expr.references_kind start.expr member with ⟨name, rfl⟩ | ⟨name, arguments, rfl⟩
  · rcases evaluateVariable_fails reference here with
      ⟨noConstant, notRandom, ⟨unbound, rfl⟩ | ⟨definedIn, bound, found, again | further⟩⟩
    · exact ⟨start, .refl, .unbound member noConstant notRandom unbound⟩
    · rcases again with ⟨again, rfl⟩
      exact ⟨start, .refl, .variableAgain member found again⟩
    · rcases onward ⟨_, _, _, _⟩ further with ⟨last, reached, stops⟩
      exact ⟨last, .head (.lookup member noConstant notRandom found) reached, stops⟩
  · rcases evaluateCall_fails here with ⟨definition, stored, ⟨again, rfl⟩ | ⟨fresh, further⟩⟩
    · exact ⟨start, .refl, .functionAgain member again⟩
    · rcases onward ⟨_, _, _, _⟩ further with ⟨last, reached, stops⟩
      exact ⟨last, .head (.call member stored fresh) reached, stops⟩

/-- Whatever is under way, a name fails where the evaluation has gone, by induction on the
rounds that are left. -/
theorem evaluateWithin_fails [Scalar R] {environment : Environment R} {rounds : Nat}
    {start : Evaluation R} {failure : Failure} (reference : failure.IsReference)
    (failed : evaluateWithin environment rounds start.trail start.scopes start.scope start.expr =
      .error failure) :
    ∃ last, start.Reaches environment last ∧ last.Stops environment failure := by
  induction rounds generalizing start with
  | zero =>
      refine evaluateWith_goesOn reference (fun _ tooDeep => ?_) failed
      cases tooDeep
      cases reference
  | succ rounds inductionHypothesis =>
      exact evaluateWith_goesOn reference (fun _ further => inductionHypothesis further) failed

/-- An evaluation that cannot follow a name has gone to where the name stops it. -/
theorem evaluate_fails [Scalar R] {environment : Environment R} {scopes : Scopes R}
    {scope : ScopeId} {expr : Expr R} {failure : Failure} (reference : failure.IsReference)
    (failed : evaluate environment scopes scope expr = .error failure) :
    ∃ last, Evaluation.Reaches environment ⟨[], scopes, scope, expr⟩ last ∧
      last.Stops environment failure :=
  evaluateWithin_fails reference failed

end QuantityCalculus
