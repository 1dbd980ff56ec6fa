import Mathlib.Data.List.TakeWhile
import Mathlib.Logic.Relation
import QuantityCalculus.Proofs.Evaluation.CallScope
import QuantityCalculus.Session.MissingNames

namespace QuantityCalculus

/-!
# The search for missing names

The search follows names through the scopes: from a name in a scope to the names of the
expression bound to it, in the scope in which that expression is evaluated.  It visits
every name of a scope once.  What is shown here is that it reaches everything that can be
reached: a way from a needed name to one that no scope binds is never cut off, because
the part of it behind its last visited place lies among the places not visited yet.

The scopes that bindings fix have to be there; a scope that is not there could be looked
at by no search.
-/

variable {R : Type}

/-- Every scope that a binding fixes is there. -/
def Scopes.Closed (scopes : Scopes R) : Prop :=
  forall scope, scope ∈ scopes -> forall entry, entry ∈ scope.bindings ->
    forall place, entry.2.scope = some place -> place < scopes.length

/-! ## Ways through the scopes -/

section

variable {environment : Environment R} {scopes : Scopes R}

/-- Looking up one name in its scope leads to another. -/
def LeadsOn (environment : Environment R) (scopes : Scopes R) (place next : NameInScope) : Prop :=
  ∃ names, nameSupply environment scopes place = .needs names ∧ next ∈ names

/-- The places that can be reached from a place. -/
abbrev Reaches (environment : Environment R) (scopes : Scopes R) :
    NameInScope -> NameInScope -> Prop :=
  Relation.ReflTransGen (LeadsOn environment scopes)

/-- A name that leads on is bound, and leads to the names of what it is bound to. -/
theorem leadsOn_iff {place next : NameInScope} :
    LeadsOn environment scopes place next <->
      environment.constants.has place.2 = false ∧ isRandomName place.2 = false ∧
        ∃ definedIn bound, scopes.lookup? place.1 place.2 = some (definedIn, bound) ∧
          next.1 = bound.scope.getD place.1 ∧
          next.2 ∈ bound.expr.neededNames environment.functions := by
  rcases next with ⟨scope, name⟩
  unfold LeadsOn nameSupply
  cases environment.constants.has place.2 <;> cases isRandomName place.2 <;> try simp
  cases scopes.lookup? place.1 place.2 with
  | none => simp
  | some found =>
      rcases found with ⟨definedIn, bound⟩
      simp only [NameSupply.needs.injEq, exists_eq_left', List.mem_map, Prod.mk.injEq,
        Option.some.injEq, and_assoc]
      constructor
      · rintro ⟨_, needed, rfl, rfl⟩
        exact ⟨definedIn, bound, rfl, rfl, rfl, needed⟩
      · rintro ⟨_, _, rfl, rfl, rfl, needed⟩
        exact ⟨name, needed, rfl, rfl⟩

/-- A name that is missing is bound nowhere around its scope. -/
theorem nameSupply_missing_iff {place : NameInScope} :
    nameSupply environment scopes place = .missing <->
      environment.constants.has place.2 = false ∧ isRandomName place.2 = false ∧
        scopes.lookup? place.1 place.2 = none := by
  unfold nameSupply
  cases environment.constants.has place.2 <;> cases isRandomName place.2 <;>
    cases found : scopes.lookup? place.1 place.2 <;> simp

/-- A way that stays among some places, its first and last place included. -/
inductive WayAmong (environment : Environment R) (scopes : Scopes R)
    (places : List NameInScope) : NameInScope -> NameInScope -> Prop
  | here {place} : place ∈ places -> WayAmong environment scopes places place place
  | step {place next last} : place ∈ places -> LeadsOn environment scopes place next ->
      WayAmong environment scopes places next last ->
      WayAmong environment scopes places place last

/-- A way either avoids a place, or ends there, or goes on from it for the last time. -/
theorem WayAmong.behind {places : List NameInScope} {first last : NameInScope}
    (way : WayAmong environment scopes places first last) (place : NameInScope) :
    (first ≠ place ∧ WayAmong environment scopes (places.erase place) first last) ∨
      last = place ∨
      ∃ next, LeadsOn environment scopes place next ∧
        WayAmong environment scopes (places.erase place) next last := by
  induction way with
  | @here first member =>
      by_cases same : first = place
      · exact Or.inr (Or.inl same)
      · exact Or.inl ⟨same, .here ((List.mem_erase_of_ne same).mpr member)⟩
  | @step first next last member leads _ inductionHypothesis =>
      rcases inductionHypothesis with ⟨_, avoids⟩ | rest
      · by_cases same : first = place
        · exact Or.inr (Or.inr ⟨next, same ▸ leads, avoids⟩)
        · exact Or.inl ⟨same, .step ((List.mem_erase_of_ne same).mpr member) leads avoids⟩
      · exact Or.inr rest

theorem WayAmong.first_mem {places : List NameInScope} {first last : NameInScope}
    (way : WayAmong environment scopes places first last) : first ∈ places := by
  cases way with
  | here member => exact member
  | step member _ _ => exact member

/-! ## The search follows every way -/

/-- What waits and was not visited is still there after the places that were. -/
theorem mem_dropWhile_visited {unvisited pending : List NameInScope} {place : NameInScope}
    (waits : place ∈ pending) (unseen : place ∈ unvisited) :
    place ∈ pending.dropWhile fun other => !unvisited.contains other := by
  rw [← List.takeWhile_append_dropWhile (p := fun other => !unvisited.contains other)
    (l := pending)] at waits
  refine (List.mem_append.mp waits).resolve_left fun before => ?_
  have visited := List.mem_takeWhile_imp before
  rw [List.contains_iff_mem.mpr unseen] at visited
  cases visited

/-- The search finds what a way among the places not visited yet leads to, by induction on the
rounds, of which there are as many as such places. -/
theorem mem_missingAmong {rounds : Nat} {unvisited pending : List NameInScope}
    {first last : NameInScope} (enough : unvisited.length <= rounds) (waits : first ∈ pending)
    (way : WayAmong environment scopes unvisited first last)
    (missing : nameSupply environment scopes last = .missing) :
    last.2 ∈ missingAmong environment scopes rounds unvisited pending := by
  induction rounds generalizing unvisited pending first with
  | zero =>
      rw [List.length_eq_zero_iff.mp (Nat.le_zero.mp enough)] at way
      cases way.first_mem
  | succ rounds inductionHypothesis =>
      have stays := mem_dropWhile_visited waits way.first_mem
      have unseen := List.head?_dropWhile_not (fun other => !unvisited.contains other) pending
      rw [missingAmong]
      generalize pending.dropWhile (fun other => !unvisited.contains other) = left at stays unseen
      cases left with
      | nil => cases stays
      | cons place rest =>
          have new : place ∈ unvisited := by simpa using unseen
          have fewer : (unvisited.erase place).length <= rounds := by
            rw [List.length_erase_of_mem new]
            exact Nat.sub_le_of_le_add enough
          dsimp only
          cases supply : nameSupply environment scopes place with
          | supplied =>
              rcases way.behind place with ⟨different, avoids⟩ | ends | ⟨_, ⟨_, needs, _⟩, _⟩
              · exact inductionHypothesis fewer
                  ((List.mem_cons.mp stays).resolve_left different) avoids
              · rw [ends, supply] at missing
                cases missing
              · rw [supply] at needs
                cases needs
          | missing =>
              rcases way.behind place with ⟨different, avoids⟩ | ends | ⟨_, ⟨_, needs, _⟩, _⟩
              · exact List.mem_cons_of_mem _ (inductionHypothesis fewer
                  ((List.mem_cons.mp stays).resolve_left different) avoids)
              · exact ends ▸ List.mem_cons_self
              · rw [supply] at needs
                cases needs
          | needs names =>
              rcases way.behind place with
                ⟨different, avoids⟩ | ends | ⟨next, ⟨_, needs, member⟩, onward⟩
              · have later := (List.mem_cons.mp stays).resolve_left different
                exact inductionHypothesis fewer (List.mem_append_right _ later) avoids
              · rw [ends, supply] at missing
                cases missing
              · rw [supply] at needs
                cases needs
                exact inductionHypothesis fewer (List.mem_append_left _ member) onward

/-! ## All places that can be reached are looked at -/

/-- The places that the search for an expression may visit. -/
def searchedPlaces (environment : Environment R) (scopes : Scopes R) (expr : Expr R) :
    List NameInScope :=
  namesEverywhere scopes
    (Text.sortedNames (expr.neededNames environment.functions ++ namesInScopes environment scopes))

theorem mem_searchedPlaces {expr : Expr R} {place : NameInScope} :
    place ∈ searchedPlaces environment scopes expr <->
      place.1 < scopes.length ∧
        (place.2 ∈ expr.neededNames environment.functions ∨
          place.2 ∈ namesInScopes environment scopes) := by
  rcases place with ⟨scope, name⟩
  simp [searchedPlaces, namesEverywhere, Text.mem_sortedNames]

/-- A searched place leads to searched places only. -/
theorem searchedPlaces_leadsOn (closed : scopes.Closed) {expr : Expr R}
    {place next : NameInScope} (searched : place ∈ searchedPlaces environment scopes expr)
    (leads : LeadsOn environment scopes place next) :
    next ∈ searchedPlaces environment scopes expr := by
  rcases leadsOn_iff.mp leads with ⟨_, _, definedIn, bound, found, sameScope, needed⟩
  rcases Scopes.lookup?_mem found with ⟨holder, member, binding⟩
  refine mem_searchedPlaces.mpr ⟨?_, Or.inr ?_⟩
  · rw [sameScope]
    cases fixed : bound.scope with
    | none => exact (mem_searchedPlaces.mp searched).1
    | some scope => exact closed holder member _ binding scope fixed
  · exact List.mem_flatMap.mpr ⟨holder, member, List.mem_flatMap.mpr ⟨_, binding, needed⟩⟩

/-- The name that no scope binds at the end of a way from a needed name is missing. -/
theorem mem_missingNames (closed : scopes.Closed) {scope : ScopeId}
    (there : scope < scopes.length) {expr : Expr R} {name : String}
    (needed : name ∈ expr.neededNames environment.functions) {last : NameInScope}
    (reached : Reaches environment scopes (scope, name) last)
    (missing : nameSupply environment scopes last = .missing) :
    last.2 ∈ missingNames environment scopes scope expr := by
  have way : forall first, first ∈ searchedPlaces environment scopes expr ->
      Reaches environment scopes first last ->
      WayAmong environment scopes (searchedPlaces environment scopes expr) first last := by
    intro first searched reached
    induction reached using Relation.ReflTransGen.head_induction_on with
    | refl => exact .here searched
    | head leads _ inductionHypothesis =>
        exact .step searched leads
          (inductionHypothesis (searchedPlaces_leadsOn closed searched leads))
  have start : (scope, name) ∈ searchedPlaces environment scopes expr :=
    mem_searchedPlaces.mpr ⟨there, Or.inl needed⟩
  rw [missingNames, Text.mem_sortedNames]
  exact mem_missingAmong (Nat.le_refl _) (List.mem_map.mpr ⟨name, needed, rfl⟩)
    (way _ start reached) missing

end

end QuantityCalculus
