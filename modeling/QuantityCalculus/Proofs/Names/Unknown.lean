import QuantityCalculus.Number.BinaryScalar
import QuantityCalculus.Proofs.Evaluation.Resolution
import QuantityCalculus.Proofs.Names.Missing
import QuantityCalculus.Proofs.Names.Needed

namespace QuantityCalculus

/-!
# Unknown variables are missing names

The search for missing names looks at an expression before it is evaluated, in the scopes
that are there; the evaluation opens further scopes, in which arguments are met late and
defaults only where nothing else is bound.  Both follow the same names, with one
exception: the search drops the names of defaults and does not look into them.

So an unknown variable is a missing name, or it is missing from a default, or from a
binding in place of which the default was believed to be used.
-/

variable {R : Type}

/-- A name that is missed by the search because of a default: the default needs it, or the name of
the default is bound after all, and leads to it. -/
def MissedByDefault (environment : Environment R) (scopes : Scopes R) (name : String) : Prop :=
  ∃ place, place < scopes.length ∧ ∃ function definition,
    environment.functions.get? function = some definition ∧
      ∃ entry, entry ∈ definition.defaults ∧
        (name ∈ missingNames environment scopes place entry.2 ∨
          (scopes.isBound place entry.1 = true ∧
            name ∈ missingNames environment scopes place (.var entry.1)))

/-! ## Looking up names beside a new scope -/

section

variable {environment : Environment R} {scopes : Scopes R} {new : Scope R}

theorem nameSupply_cons_of_lt {place : NameInScope} (older : place.1 < scopes.length) :
    nameSupply environment (new :: scopes) place = nameSupply environment scopes place := by
  unfold nameSupply
  rw [Scopes.lookup?_cons_of_lt older]

theorem leadsOn_cons_of_lt {place next : NameInScope} (older : place.1 < scopes.length) :
    LeadsOn environment (new :: scopes) place next <-> LeadsOn environment scopes place next := by
  unfold LeadsOn
  rw [nameSupply_cons_of_lt older]

theorem Scopes.isBound_cons_of_lt {id : ScopeId} {name : String} (older : id < scopes.length) :
    Scopes.isBound (new :: scopes) id name = scopes.isBound id name := by
  rw [isBound_eq, isBound_eq, lookup?_cons_of_lt older]

/-- The names that an evaluation meets are needed. -/
theorem Expr.neededNames_of_references {part : Expr R} {name : String} {store : FunctionStore R}
    (expr : Expr R) (met : part ∈ expr.references) (needed : name ∈ part.neededNames store) :
    name ∈ expr.neededNames store := by
  match expr with
  | .var _ | .call .. =>
      rw [← List.mem_singleton.mp met]
      exact needed
  | .memAt x | .func _ x | .factorial x | .sqrt x | .abs x | .paren x | .marked _ x =>
      exact Expr.neededNames_of_references x met needed
  | .root x y | .fraction x y | .binary _ x y =>
      exact List.mem_append.mpr <| (List.mem_append.mp met).imp
        (fun left => Expr.neededNames_of_references x left needed)
        (fun right => Expr.neededNames_of_references y right needed)
  | .num _ | .mem | .binding .. | .equation .. | .declaration .. | .target _ => cases met

end

/-! ## The names that may still be met -/

/-- All names that an evaluation may still look up are known, and those of them that nothing
binds are as wanted. -/
structure Evaluation.Covered (environment : Environment R) (wanted : String -> Prop)
    (known : NameInScope -> Prop) (now : Evaluation R) : Prop where
  there : now.scope < now.scopes.length
  closed : now.scopes.Closed
  older : forall place, known place -> place.1 < now.scopes.length
  needed : forall name, name ∈ now.expr.neededNames environment.functions ->
    known (now.scope, name)
  defaults : forall place, place < now.scopes.length -> forall function definition,
    environment.functions.get? function = some definition ->
      forall entry, entry ∈ definition.defaults ->
        (forall name, name ∈ entry.2.neededNames environment.functions -> known (place, name)) ∧
          (now.scopes.isBound place entry.1 = true -> known (place, entry.1))
  onward : forall place next, known place -> LeadsOn environment now.scopes place next -> known next
  unbound : forall place, known place ->
    nameSupply environment now.scopes place = .missing -> wanted place.2

namespace Evaluation

variable {environment : Environment R} {wanted : String -> Prop} {known : NameInScope -> Prop}
  {now : Evaluation R}

/-- A variable that is met is known, and so is all that it is bound to. -/
theorem Covered.lookup {name : String} {definedIn : ScopeId} {bound : BoundExpr R}
    {trail : List Resolution} (covered : now.Covered environment wanted known)
    (met : .var name ∈ now.expr.references)
    (noConstant : environment.constants.has name = false) (notRandom : isRandomName name = false)
    (found : now.scopes.lookup? now.scope name = some (definedIn, bound)) :
    Covered environment wanted known
      ⟨trail, now.scopes, bound.scope.getD now.scope, bound.expr⟩ where
  there := by
    rcases Scopes.lookup?_mem found with ⟨holder, member, binding⟩
    cases fixed : bound.scope with
    | none => exact covered.there
    | some place => exact covered.closed holder member _ binding place fixed
  closed := covered.closed
  older := covered.older
  needed := by
    intro next needed
    have here : known (now.scope, name) := covered.needed name
      (Expr.neededNames_of_references now.expr met (List.mem_singleton_self name))
    exact covered.onward _ _ here
      (leadsOn_iff.mpr ⟨noConstant, notRandom, definedIn, bound, found, rfl, needed⟩)
  defaults := covered.defaults
  onward := covered.onward
  unbound := covered.unbound

/-- The known names once a call has opened its scope: there its arguments, the defaults that took
effect, and what is known where the call stands. -/
def knownInside (known : NameInScope -> Prop) (now : Evaluation R)
    (definition : FunctionDefinition R) (arguments : List (String × Expr R))
    (place : NameInScope) : Prop :=
  known place ∨ (place.1 = now.scopes.length ∧
    (place.2 ∈ arguments.map Prod.fst ∨
      (place.2 ∈ definition.defaults.keys ∧ now.scopes.isBound now.scope place.2 = false) ∨
      known (now.scope, place.2)))

/-- Everything known where a call stands is known inside as well. -/
theorem knownInside_of_known {definition : FunctionDefinition R}
    {arguments : List (String × Expr R)} {name : String} (here : known (now.scope, name)) :
    knownInside known now definition arguments (now.scopes.length, name) :=
  Or.inr ⟨rfl, Or.inr (Or.inr here)⟩

/-- What the body of a called function needs is known inside: an argument, a default that took
effect, or a name needed where the call stands. -/
theorem Covered.body {name needed : String} {arguments : Arguments R}
    {definition : FunctionDefinition R} (covered : now.Covered environment wanted known)
    (met : .call name arguments ∈ now.expr.references)
    (stored : environment.functions.get? name = some definition)
    (inside : needed ∈ definition.body.neededNames environment.functions) :
    knownInside known now definition arguments.toList (now.scopes.length, needed) := by
  by_cases isArgument : needed ∈ arguments.toList.map Prod.fst
  · exact Or.inr ⟨rfl, Or.inl isArgument⟩
  by_cases isDefault : needed ∈ definition.defaults.keys
  · cases bound : now.scopes.isBound now.scope needed with
    | false => exact Or.inr ⟨rfl, Or.inr (Or.inl ⟨isDefault, bound⟩)⟩
    | true =>
        rcases List.mem_map.mp isDefault with ⟨entry, member, rfl⟩
        exact knownInside_of_known
          ((covered.defaults now.scope covered.there _ _ stored entry member).2 bound)
  · have atCall : needed ∈ (Expr.call name arguments).neededNames environment.functions :=
      mem_neededNames_call.mpr (Or.inr ⟨definition, stored, inside, isDefault, isArgument⟩)
    exact knownInside_of_known
      (covered.needed _ (Expr.neededNames_of_references now.expr met atCall))

/-- What the scope of a call leaves open is known where the call stands. -/
theorem Covered.outside {arguments : List (String × Expr R)} {definition : FunctionDefinition R}
    (covered : now.Covered environment wanted known) {name : String}
    (here : knownInside known now definition arguments (now.scopes.length, name))
    (noArgument : name ∉ arguments.map Prod.fst)
    (shadowed : name ∈ definition.defaults.keys -> now.scopes.isBound now.scope name = true) :
    known (now.scope, name) := by
  rcases here with older | ⟨_, isArgument | ⟨isDefault, free⟩ | known⟩
  · exact absurd (covered.older _ older) (Nat.lt_irrefl _)
  · exact absurd isArgument noArgument
  · cases free.symm.trans (shadowed isDefault)
  · exact known

/-- What is found inside a call leads to known names only. -/
theorem Covered.inside_onward {name : String} {arguments : Arguments R}
    {definition : FunctionDefinition R} (covered : now.Covered environment wanted known)
    (met : .call name arguments ∈ now.expr.references)
    (stored : environment.functions.get? name = some definition) {first : String}
    {next : NameInScope}
    (here : knownInside known now definition arguments.toList (now.scopes.length, first))
    (leads : LeadsOn environment
      (openedScope now.scopes now.scope definition arguments.toList :: now.scopes)
      (now.scopes.length, first) next) :
    knownInside known now definition arguments.toList next := by
  rcases next with ⟨place, second⟩
  rcases leadsOn_iff.mp leads with
    ⟨noConstant, notRandom, definedIn, bound, found, samePlace, needed⟩
  dsimp only at found samePlace needed noConstant notRandom
  rcases lookup?_openedScope now.scopes now.scope definition arguments.toList first with
    ⟨value, argument, inScope⟩ | ⟨value, supplied, free, inScope⟩ | ⟨noArgument, shadowed, inScope⟩
  · cases inScope.symm.trans found
    have atCall : second ∈ (Expr.call name arguments).neededNames environment.functions :=
      mem_neededNames_call.mpr (Or.inl ⟨_, argument, needed⟩)
    rw [samePlace]
    exact Or.inl (covered.needed _ (Expr.neededNames_of_references now.expr met atCall))
  · cases inScope.symm.trans found
    rw [samePlace]
    exact knownInside_of_known
      ((covered.defaults now.scope covered.there _ _ stored _ supplied).1 second needed)
  · have outside := covered.outside here noArgument shadowed
    rw [inScope] at found
    have known := covered.onward _ (bound.scope.getD now.scope, second) outside
      (leadsOn_iff.mpr ⟨noConstant, notRandom, definedIn, bound, found, rfl, needed⟩)
    rw [samePlace]
    cases fixed : bound.scope with
    | none =>
        rw [fixed] at known
        exact knownInside_of_known known
    | some place =>
        rw [fixed] at known
        exact Or.inl known

/-- What nothing binds inside a call is bound nowhere around it either. -/
theorem Covered.inside_unbound {arguments : List (String × Expr R)}
    {definition : FunctionDefinition R} (covered : now.Covered environment wanted known)
    {first : String}
    (here : knownInside known now definition arguments (now.scopes.length, first))
    (missing : nameSupply environment
      (openedScope now.scopes now.scope definition arguments :: now.scopes)
      (now.scopes.length, first) = .missing) :
    wanted first := by
  rcases nameSupply_missing_iff.mp missing with ⟨noConstant, notRandom, nowhere⟩
  dsimp only at noConstant notRandom nowhere
  rcases lookup?_openedScope now.scopes now.scope definition arguments first with
    ⟨_, _, inScope⟩ | ⟨_, _, _, inScope⟩ | ⟨noArgument, shadowed, inScope⟩
  · cases inScope.symm.trans nowhere
  · cases inScope.symm.trans nowhere
  · have outside := covered.outside here noArgument shadowed
    refine covered.unbound (now.scope, first) outside (nameSupply_missing_iff.mpr ?_)
    exact ⟨noConstant, notRandom, inScope.symm.trans nowhere⟩

/-- A default is known inside a call as it is known where the call stands. -/
theorem Covered.inside_defaults {function : String} {arguments : List (String × Expr R)}
    {definition called : FunctionDefinition R} (covered : now.Covered environment wanted known)
    (stored : environment.functions.get? function = some definition)
    {entry : String × Expr R} (member : entry ∈ definition.defaults)
    (bound : Scopes.isBound
      (openedScope now.scopes now.scope called arguments :: now.scopes)
      now.scopes.length entry.1 = true) :
    knownInside known now called arguments (now.scopes.length, entry.1) := by
  rw [Scopes.isBound_eq] at bound
  rcases lookup?_openedScope now.scopes now.scope called arguments entry.1 with
    ⟨value, argument, _⟩ | ⟨value, supplied, free, _⟩ | ⟨_, _, inScope⟩
  · exact Or.inr ⟨rfl, Or.inl (List.mem_map.mpr ⟨_, argument, rfl⟩)⟩
  · exact Or.inr ⟨rfl, Or.inr (Or.inl ⟨List.mem_map.mpr ⟨_, supplied, rfl⟩, free⟩)⟩
  · rw [inScope, ← Scopes.isBound_eq] at bound
    exact knownInside_of_known
      ((covered.defaults now.scope covered.there _ _ stored entry member).2 bound)

/-- A call opens a scope in which again all names that may be met are known. -/
theorem Covered.call {name : String} {arguments : Arguments R}
    {definition : FunctionDefinition R} {trail : List Resolution}
    (covered : now.Covered environment wanted known)
    (met : .call name arguments ∈ now.expr.references)
    (stored : environment.functions.get? name = some definition) :
    Covered environment wanted (knownInside known now definition arguments.toList)
      ⟨trail, openedScope now.scopes now.scope definition arguments.toList :: now.scopes,
        now.scopes.length, definition.body⟩ where
  there := Nat.lt_succ_self _
  closed := by
    intro holder member entry binding place fixed
    rcases List.mem_cons.mp member with rfl | old
    · rcases mem_openedScope binding with ⟨unfixed, _⟩ | ⟨atCall, _⟩
      · cases unfixed.symm.trans fixed
      · cases atCall.symm.trans fixed
        exact Nat.lt_succ_of_lt covered.there
    · exact Nat.lt_succ_of_lt (covered.closed holder old entry binding place fixed)
  older := by
    rintro place (known | ⟨here, _⟩)
    · exact Nat.lt_succ_of_lt (covered.older place known)
    · exact Nat.lt_succ_of_le (Nat.le_of_eq here)
  needed := fun needed inside => covered.body met stored inside
  defaults := by
    intro place there function other otherStored entry member
    rcases Nat.lt_succ_iff_lt_or_eq.mp there with older | rfl
    · have before := covered.defaults place older function other otherStored entry member
      refine ⟨fun needed inside => Or.inl (before.1 needed inside), fun bound => ?_⟩
      rw [Scopes.isBound_cons_of_lt older] at bound
      exact Or.inl (before.2 bound)
    · have before := covered.defaults now.scope covered.there function other otherStored entry
        member
      exact ⟨fun needed inside => knownInside_of_known (before.1 needed inside),
        covered.inside_defaults otherStored member⟩
  onward := by
    rintro ⟨place, first⟩ next here leads
    rcases here with known | ⟨rfl, inside⟩
    · exact Or.inl (covered.onward _ _ known
        ((leadsOn_cons_of_lt (covered.older _ known)).mp leads))
    · exact covered.inside_onward met stored (Or.inr ⟨rfl, inside⟩) leads
  unbound := by
    rintro ⟨place, first⟩ here missing
    rcases here with known | ⟨rfl, inside⟩
    · rw [nameSupply_cons_of_lt (covered.older _ known)] at missing
      exact covered.unbound _ known missing
    · exact covered.inside_unbound (Or.inr ⟨rfl, inside⟩) missing

/-- Wherever an evaluation goes, it knows what it may meet. -/
theorem Covered.reaches {last : Evaluation R} (covered : now.Covered environment wanted known)
    (reached : now.Reaches environment last) :
    ∃ known, last.Covered environment wanted known := by
  induction reached with
  | refl => exact ⟨known, covered⟩
  | tail _ step inductionHypothesis =>
      rcases inductionHypothesis with ⟨known, covered⟩
      cases step with
      | lookup met noConstant notRandom found =>
          exact ⟨known, covered.lookup met noConstant notRandom found⟩
      | call met stored _ => exact ⟨_, covered.call met stored⟩

end Evaluation

/-! ## The names known at first -/

/-- A name with which a way to a known name may start: one that the expression needs, one that a
default needs, or one that has a default but is bound. -/
def StartsWay (environment : Environment R) (scopes : Scopes R) (scope : ScopeId)
    (expr : Expr R) (place : NameInScope) : Prop :=
  (place.1 = scope ∧ place.2 ∈ expr.neededNames environment.functions) ∨
    ∃ function definition, environment.functions.get? function = some definition ∧
      ∃ entry, entry ∈ definition.defaults ∧
        (place.2 ∈ entry.2.neededNames environment.functions ∨
          (place.2 = entry.1 ∧ scopes.isBound place.1 entry.1 = true))

/-- Where such ways lead within the scopes that are there. -/
def KnownAtFirst (environment : Environment R) (scopes : Scopes R) (scope : ScopeId)
    (expr : Expr R) (place : NameInScope) : Prop :=
  ∃ first, first.1 < scopes.length ∧ StartsWay environment scopes scope expr first ∧
    Reaches environment scopes first place

section

variable {environment : Environment R} {scopes : Scopes R} {scope : ScopeId} {expr : Expr R}

/-- A known name that nothing binds is missing, or missed because of a default. -/
theorem missing_of_knownAtFirst (closed : scopes.Closed) {place : NameInScope}
    (known : KnownAtFirst environment scopes scope expr place)
    (unbound : nameSupply environment scopes place = .missing) :
    place.2 ∈ missingNames environment scopes scope expr ∨
      MissedByDefault environment scopes place.2 := by
  rcases known with ⟨⟨start, first⟩, there, starts, reached⟩
  rcases starts with ⟨here, needed⟩ | ⟨function, definition, stored, entry, member, reason⟩
  · cases here
    exact Or.inl (mem_missingNames closed there needed reached unbound)
  · refine Or.inr ⟨start, there, function, definition, stored, entry, member, ?_⟩
    rcases reason with needed | ⟨same, bound⟩
    · exact Or.inl (mem_missingNames closed there needed reached unbound)
    · cases same
      exact Or.inr ⟨bound,
        mem_missingNames closed there (List.mem_singleton_self _) reached unbound⟩

/-- A way from a scope that is there stays in such scopes. -/
theorem lt_of_reaches (closed : scopes.Closed) {first place : NameInScope}
    (there : first.1 < scopes.length) (reached : Reaches environment scopes first place) :
    place.1 < scopes.length := by
  induction reached with
  | refl => exact there
  | tail _ leads inductionHypothesis =>
      rcases leadsOn_iff.mp leads with ⟨_, _, definedIn, bound, found, samePlace, _⟩
      rcases Scopes.lookup?_mem found with ⟨holder, member, binding⟩
      rw [samePlace]
      cases fixed : bound.scope with
      | none => exact inductionHypothesis
      | some place => exact closed holder member _ binding place fixed

/-- Before the evaluation starts, all names that it may meet are known. -/
theorem covered_atFirst (closed : scopes.Closed) (there : scope < scopes.length) :
    Evaluation.Covered environment
      (fun name => name ∈ missingNames environment scopes scope expr ∨
        MissedByDefault environment scopes name)
      (KnownAtFirst environment scopes scope expr) ⟨[], scopes, scope, expr⟩ where
  there := there
  closed := closed
  older := fun _ ⟨_, first, _, reached⟩ => lt_of_reaches closed first reached
  needed := fun name needed => ⟨(scope, name), there, Or.inl ⟨rfl, needed⟩, .refl⟩
  defaults := by
    intro place there function definition stored entry member
    refine ⟨fun name needed => ?_, fun bound => ?_⟩
    · exact ⟨(place, name), there,
        Or.inr ⟨function, definition, stored, entry, member, Or.inl needed⟩, .refl⟩
    · exact ⟨(place, entry.1), there,
        Or.inr ⟨function, definition, stored, entry, member, Or.inr ⟨rfl, bound⟩⟩, .refl⟩
  onward := fun _ _ ⟨first, there, starts, reached⟩ leads =>
    ⟨first, there, starts, reached.tail leads⟩
  unbound := fun _ known unbound => missing_of_knownAtFirst closed known unbound

end

/-! ## Unknown variables -/

/--
A variable that an evaluation does not find is a missing name of the expression, or was
missed by the search because of a default.  Without defaults, an expression to which no
name is missing never fails for an unknown variable.
-/
theorem unknownVariable_isMissing [Scalar R] {environment : Environment R} {scopes : Scopes R}
    {scope : ScopeId} {expr : Expr R} {name : String} (closed : scopes.Closed)
    (there : scope < scopes.length)
    (failed : evaluate environment scopes scope expr = .error (.unknownVariable name)) :
    name ∈ missingNames environment scopes scope expr ∨
      MissedByDefault environment scopes name := by
  have reference : (Failure.unknownVariable name).IsReference := trivial
  rcases evaluate_fails reference failed with ⟨last, reached, stops⟩
  rcases (covered_atFirst closed there).reaches reached with ⟨known, covered⟩
  cases stops with
  | unbound met noConstant notRandom nowhere =>
      have here := covered.needed name
        (Expr.neededNames_of_references last.expr met (List.mem_singleton_self name))
      exact covered.unbound _ here
        (nameSupply_missing_iff.mpr ⟨noConstant, notRandom, nowhere⟩)

/-- One stored function, `p * x`, in which `x` stands for `z` unless it is bound. -/
def functionWithDefault : FunctionStore Float :=
  [("f", ⟨.binary .multiply (.var "p") (.var "x"), [("x", .var "z")]⟩)]

/-- An environment with that function and no units. -/
def environmentWithDefault : Environment Float :=
  { Environment.initial Registry.empty with functions := functionWithDefault }

/-- The call `$f{p=1}`. -/
def callWithDefault : Expr Float :=
  .call "f" (.cons "p" (.num 1) .nil)

theorem unknownVariable_isMissing_default :
    Scopes.Closed (Scopes.openRoot ([] : Scopes Float) []).2 ∧
      evaluate environmentWithDefault (Scopes.openRoot [] []).2 0 callWithDefault =
        .error (.unknownVariable "z") ∧
      ("z" ∈ missingNames environmentWithDefault (Scopes.openRoot [] []).2 0 callWithDefault ∨
        MissedByDefault environmentWithDefault (Scopes.openRoot [] []).2 "z") := by
  have closed : Scopes.Closed (Scopes.openRoot ([] : Scopes Float) []).2 := by
    intro scope member entry binding
    cases List.mem_singleton.mp member
    cases binding
  have failed : evaluate environmentWithDefault (Scopes.openRoot [] []).2 0 callWithDefault =
      .error (.unknownVariable "z") := rfl
  exact ⟨closed, failed, unknownVariable_isMissing closed Nat.zero_lt_one failed⟩

/-- No name is missing to the call `$f{p=1}`, and it fails for an unknown variable. -/
theorem unknownVariable_missed :
    missingNames environmentWithDefault (Scopes.openRoot [] []).2 0 callWithDefault = [] ∧
      evaluate environmentWithDefault (Scopes.openRoot [] []).2 0 callWithDefault =
        .error (.unknownVariable "z") := by
  have nothingNeeded : callWithDefault.neededNames environmentWithDefault.functions = [] := rfl
  refine ⟨?_, rfl⟩
  rw [missingNames, nothingNeeded, List.map_nil]
  rfl

end QuantityCalculus
