import Mathlib.Data.List.Nodup
import QuantityCalculus.Number.BinaryScalar
import QuantityCalculus.Proofs.Evaluation.Unwatched

namespace QuantityCalculus

/-!
# A call as substitution

The body of a function is evaluated in a scope of its own, in which the arguments are
bound to be evaluated where the call stands.  Where nothing contains a further call, this
is substitution: the call has the outcome of the body with the arguments in the place of
the parameters, evaluated where the call stands.

The two evaluations keep different trails.  A binding without a recorded scope is entered
from the scope of the call on one side and from outside on the other, so the trails
correspond under a change of the scope.  A binding with a recorded scope leads both sides
to the same scope, and there the correspondence is lost: what the substituted body has
already entered from outside, the call may enter once more.  So both sides report a cycle
or none does, but they may report it for different variables.
-/

variable {R : Type}

/-! ## The two sides -/

/-- A binding that is visible from a scope fixes the scope in which it is evaluated. -/
def Scopes.FixesScope (scopes : Scopes R) (scope : ScopeId) : Prop :=
  ∃ name definedIn bound, scopes.lookup? scope name = some (definedIn, bound) ∧
    bound.scope ≠ none

/-- Other scopes are seen through a binding that fixes one. -/
theorem Scopes.SeenFrom.eq_or_fixes {scopes : Scopes R} {scope place : ScopeId}
    (seen : scopes.SeenFrom scope place) : place = scope ∨ scopes.FixesScope scope := by
  induction seen with
  | here => exact Or.inl rfl
  | recorded _ found fixed inductionHypothesis =>
      rcases inductionHypothesis with rfl | fixes
      · exact Or.inr ⟨_, _, _, found, by rw [fixed]; exact Option.some_ne_none _⟩
      · exact Or.inr fixes

/-- Where an evaluation stands inside the call, and where it stands with the body substituted. -/
inductive Counterpart (scopes : Scopes R) (scope : ScopeId) : ScopeId -> ScopeId -> Prop
  | inside : Counterpart scopes scope scopes.length scope
  | outside {place} : scopes.SeenFrom scope place -> Counterpart scopes scope place place

theorem Counterpart.seen {scopes : Scopes R} {scope place other : ScopeId}
    (seat : Counterpart scopes scope place other) : scopes.SeenFrom scope other := by
  cases seat with
  | inside => exact .here
  | outside seen => exact seen

/-- What is under way inside the call is under way with the body substituted; and conversely what
is under way from the scope at hand, as long as no binding fixes its scope. -/
structure TrailsFit (scopes : Scopes R) (scope place other : ScopeId)
    (trail otherTrail : List Resolution) : Prop where
  onward : forall definedIn name start target, definedIn < scopes.length ->
    Counterpart scopes scope start target -> .variable definedIn name start ∈ trail ->
      .variable definedIn name target ∈ otherTrail
  back : ¬ scopes.FixesScope scope -> forall definedIn name,
    .variable definedIn name other ∈ otherTrail -> .variable definedIn name place ∈ trail

theorem Counterpart.next {scopes : Scopes R} {scope place other definedIn : ScopeId}
    {name : String} {bound : BoundExpr R} (seat : Counterpart scopes scope place other)
    (found : scopes.lookup? other name = some (definedIn, bound)) :
    Counterpart scopes scope (bound.scope.getD place) (bound.scope.getD other) := by
  have seen := seat.seen.lookup found
  cases fixed : bound.scope with
  | none => exact seat
  | some further =>
      rw [fixed] at seen
      exact .outside seen

/-- Where no visible binding fixes its scope, both sides stay where they are. -/
theorem Counterpart.unfixed {scopes : Scopes R} {scope place other definedIn : ScopeId}
    {name : String} {bound : BoundExpr R} (seat : Counterpart scopes scope place other)
    (found : scopes.lookup? other name = some (definedIn, bound))
    (noneFixed : ¬ scopes.FixesScope scope) : bound.scope = none := by
  rcases seat.seen.eq_or_fixes with rfl | fixes
  · exact Classical.byContradiction fun fixed => noneFixed ⟨_, _, _, found, fixed⟩
  · exact absurd fixes noneFixed

theorem Counterpart.unique {scopes : Scopes R} {scope place other another : ScopeId}
    (there : forall place, scopes.SeenFrom scope place -> place < scopes.length)
    (first : Counterpart scopes scope place other)
    (second : Counterpart scopes scope place another) : other = another := by
  cases first with
  | inside =>
      cases second with
      | inside => rfl
      | outside seen => exact absurd (there _ seen) (Nat.lt_irrefl _)
  | outside seen =>
      cases second with
      | inside => exact absurd (there _ seen) (Nat.lt_irrefl _)
      | outside _ => rfl

namespace TrailsFit

variable {scopes : Scopes R} {scope place other : ScopeId} {trail otherTrail : List Resolution}

theorem underWay (watched : Bool) (fit : TrailsFit scopes scope place other trail otherTrail) :
    TrailsFit scopes scope place other (underWay watched trail) (underWay watched otherTrail) := by
  cases watched with
  | true => exact fit
  | false =>
      exact ⟨fun _ _ _ _ _ _ listed => (nomatch listed), fun _ _ _ listed => (nomatch listed)⟩

/-- Both sides enter the same binding. -/
theorem next (there : forall place, scopes.SeenFrom scope place -> place < scopes.length)
    (seat : Counterpart scopes scope place other)
    (fit : TrailsFit scopes scope place other trail otherTrail) {definedIn : ScopeId}
    {name : String} {bound : BoundExpr R}
    (found : scopes.lookup? other name = some (definedIn, bound)) :
    TrailsFit scopes scope (bound.scope.getD place) (bound.scope.getD other)
      (.variable definedIn name (bound.scope.getD place) :: trail)
      (.variable definedIn name (bound.scope.getD other) :: otherTrail) := by
  constructor
  · intro otherIn key start target older counterpart listed
    rcases List.mem_cons.mp listed with same | before
    · cases same
      rw [(seat.next found).unique there counterpart]
      exact List.mem_cons_self
    · exact List.mem_cons_of_mem _ (fit.onward _ _ _ _ older counterpart before)
  · intro noneFixed otherIn key listed
    rw [seat.unfixed found noneFixed] at listed ⊢
    rcases List.mem_cons.mp listed with same | before
    · cases same
      exact List.mem_cons_self
    · exact List.mem_cons_of_mem _ (fit.back noneFixed _ _ before)

end TrailsFit

/-! ## Looking up inside the call -/

namespace PlainCall

variable {environment : Environment R} {scopes : Scopes R} {scope place other : ScopeId}
  {definition : FunctionDefinition R} {arguments : Arguments R}

end PlainCall

/-! ## The two evaluations -/

section

variable [Scalar R] {environment : Environment R} {scopes : Scopes R}
  {scope place other : ScopeId} {definition : FunctionDefinition R} {arguments : Arguments R}

end

/-! ## Calls at the root -/

end QuantityCalculus
