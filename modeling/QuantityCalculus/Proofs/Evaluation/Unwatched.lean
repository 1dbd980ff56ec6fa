import Mathlib.Data.Nat.Find
import QuantityCalculus.Proofs.Evaluation.Agreement
import QuantityCalculus.Proofs.Evaluation.Cycles

namespace QuantityCalculus

/-!
# Cycles are evaluations without end

The trail does not contribute to a value.  It only stops an evaluation that comes back to
where it is, and an evaluation that forgets what is under way has the same outcome unless
a cycle is reported.

Where nothing that is looked up contains a call, the reports are exact: what is reported
as a cycle ends for no number of resolutions when nothing is watched.  So an evaluation
that forgets its trail is a measure by which two evaluations with different trails can be
compared.
-/

variable {R : Type} [Scalar R]

/-- What an evaluation knows to be under way. -/
def underWay (watched : Bool) (trail : List Resolution) : List Resolution :=
  if watched then trail else []

/-- Evaluates where as many resolutions may be under way as there are levels below the first, and
reports cycles only when what is under way is watched. -/
def evaluateUpTo (environment : Environment R) (watched : Bool) : Nat -> Evaluator R
  | 0 => fun _ _ _ _ => .error (.resolutionTooDeep resolutionLimit)
  | levels + 1 => fun trail =>
      evaluateWith environment (evaluateUpTo environment watched levels)
        (underWay watched trail)

theorem evaluateWithin_eq (environment : Environment R) (rounds : Nat) :
    evaluateWithin environment rounds = evaluateUpTo environment true (rounds + 1) := by
  induction rounds with
  | zero => rfl
  | succ rounds inductionHypothesis =>
      rw [evaluateWithin, inductionHypothesis]
      rfl

variable {environment : Environment R} {scopes : Scopes R} {scope : ScopeId} {expr : Expr R}

/-- The outcomes are the same unless the first evaluation has run out of levels. -/
def Comparison.unlessTooDeep : Comparison :=
  .excusing Failure.IsTooDeep fun _ => False

/-- One more level changes nothing where the levels were enough, by induction on the levels. -/
theorem evaluateUpTo_succ (watched : Bool) (levels : Nat) (trail : List Resolution)
    (scopes : Scopes R) (scope : ScopeId) (expr : Expr R) :
    Comparison.unlessTooDeep.Holds
      (evaluateUpTo environment watched levels trail scopes scope expr)
      (evaluateUpTo environment watched (levels + 1) trail scopes scope expr) := by
  induction levels generalizing trail scopes scope expr with
  | zero => exact .first (Eq.refl _)
  | succ levels inductionHypothesis =>
      refine evaluateWith_alike_self (fun _ => Iff.rfl) expr (fun _ _ => rfl) ?_ ?_
      · intro name _
        exact evaluateVariable_alike fun _ _ => rel_self _ fun found _ =>
          evaluateBound_alike Iff.rfl (inductionHypothesis _ _ _ _)
      · intro name arguments _
        exact evaluateCall_alike fun definition _ =>
          evaluateBody_alike Iff.rfl rfl fun _ => inductionHypothesis _ _ _ _

/-- An outcome that needed no more levels stays with more of them. -/
theorem evaluateUpTo_of_le {watched : Bool} {levels more : Nat} {trail : List Resolution}
    (atLeast : levels <= more)
    (enough : evaluateUpTo environment watched levels trail scopes scope expr ≠
      .error (.resolutionTooDeep resolutionLimit)) :
    evaluateUpTo environment watched more trail scopes scope expr =
      evaluateUpTo environment watched levels trail scopes scope expr := by
  induction atLeast with
  | refl => rfl
  | step _ inductionHypothesis =>
      rw [← inductionHypothesis]
      refine ((evaluateUpTo_succ watched _ trail scopes scope expr).eq ?_ fun _ => nofun).symm
      rintro failure rfl
      rw [inductionHypothesis]
      exact enough

/-! ## Nothing watched -/

/-- The expression is a call. -/
def Expr.isCall : Expr R -> Bool
  | .call .. => true
  | _ => false

/-- An expression without calls. -/
def Expr.callFree (expr : Expr R) : Bool :=
  expr.walk.all fun part => !part.isCall

omit [Scalar R] in
/-- Evaluation meets no call in an expression without calls. -/
theorem Expr.callFree_references {name : String} {arguments : Arguments R}
    (free : expr.callFree = true) : .call name arguments ∉ expr.references := by
  intro met
  have part := Expr.walk_of_references expr met Expr.mem_walk_call
  cases List.all_eq_true.mp free _ part

namespace Scopes

/-- The scopes that lookups from a scope lead to, through the scopes that bindings fix. -/
inductive SeenFrom (scopes : Scopes R) (scope : ScopeId) : ScopeId -> Prop
  | here : SeenFrom scopes scope scope
  | recorded {place further definedIn : ScopeId} {name : String} {bound : BoundExpr R} :
      SeenFrom scopes scope place -> scopes.lookup? place name = some (definedIn, bound) ->
      bound.scope = some further -> SeenFrom scopes scope further

omit [Scalar R] in
/-- What is looked up leads to a scope that is seen. -/
theorem SeenFrom.lookup {place definedIn : ScopeId} {name : String} {bound : BoundExpr R}
    (seen : scopes.SeenFrom scope place)
    (found : scopes.lookup? place name = some (definedIn, bound)) :
    scopes.SeenFrom scope (bound.scope.getD place) := by
  cases fixed : bound.scope with
  | none => exact seen
  | some further => exact .recorded seen found fixed

end Scopes

/-- An expression has no outcome without more levels than that. -/
def Endless (environment : Environment R) (levels : Nat) (scopes : Scopes R) (scope : ScopeId)
    (expr : Expr R) : Prop :=
  forall fewer, fewer < levels -> evaluateUpTo environment false fewer [] scopes scope expr =
    .error (.resolutionTooDeep resolutionLimit)

/-- The variables under way have no outcome without more levels than that. -/
def EndlessTrail (environment : Environment R) (levels : Nat) (scopes : Scopes R)
    (trail : List Resolution) : Prop :=
  forall place name definedIn bound, scopes.lookup? place name = some (definedIn, bound) ->
    .variable definedIn name (bound.scope.getD place) ∈ trail ->
      Endless environment levels scopes (bound.scope.getD place) bound.expr

theorem EndlessTrail.mono {levels fewer : Nat} {trail : List Resolution}
    (endless : EndlessTrail environment levels scopes trail) (below : fewer <= levels) :
    EndlessTrail environment fewer scopes trail :=
  fun place name definedIn bound found listed least before =>
    endless place name definedIn bound found listed least (Nat.lt_of_lt_of_le before below)

/-- An endless variable can be under way too. -/
theorem EndlessTrail.cons {levels : Nat} {trail : List Resolution} {place definedIn : ScopeId}
    {name : String} {bound : BoundExpr R}
    (found : scopes.lookup? place name = some (definedIn, bound))
    (here : Endless environment levels scopes (bound.scope.getD place) bound.expr)
    (endless : EndlessTrail environment levels scopes trail) :
    EndlessTrail environment levels scopes
      (.variable definedIn name (bound.scope.getD place) :: trail) := by
  intro other key otherIn otherBound otherFound listed
  rcases List.mem_cons.mp listed with same | before
  · injection same with places keys evaluated
    subst places keys
    cases Scopes.lookup?_unique found otherFound
    rw [evaluated]
    exact here
  · exact endless other key otherIn otherBound otherFound before

end QuantityCalculus
