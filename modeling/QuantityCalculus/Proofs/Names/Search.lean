import QuantityCalculus.Number.BinaryScalar
import QuantityCalculus.Proofs.Names.Missing
import QuantityCalculus.Proofs.SortedNames

namespace QuantityCalculus

/-!
# The search for missing names, in any order

A search for missing names takes up the places that wait one by one, and the names that a
binding needs wait from then on.  Nothing says in which order the places are taken up, nor
in which order the needed names come.  A search is therefore a sequence of steps, each of
which takes up any place that waits.

Every search ends, also where bindings lead back to each other: no place is visited twice,
and there are only as many places as there are names in scopes.  Whatever the order, a
search that has ended has visited what can be reached from the names it started with, so
all searches find the same missing names.
-/

variable {R : Type}

/-! ## Where bindings lead -/

section

variable (environment : Environment R) (scopes : Scopes R)

/-- A name that is bound, and neither a constant nor random, leads to the free names of what it
is bound to, in the scope that the binding fixes, or else in the same scope. -/
def BindingLeads (place next : NameInScope) : Prop :=
  environment.constants.has place.2 = false ∧ isRandomName place.2 = false ∧
    ∃ definedIn bound, scopes.lookup? place.1 place.2 = some (definedIn, bound) ∧
      next.1 = bound.scope.getD place.1 ∧
      next.2 ∈ bound.expr.freeNames environment.functions

/-- A name that is neither a constant nor random nor bound in its scope. -/
def IsUnsupplied (place : NameInScope) : Prop :=
  environment.constants.has place.2 = false ∧ isRandomName place.2 = false ∧
    scopes.isBound place.1 place.2 = false

end

section

variable {environment : Environment R} {scopes : Scopes R}

theorem leadsOn_eq_bindingLeads :
    LeadsOn environment scopes = BindingLeads environment scopes := by
  funext place next
  rw [eq_iff_iff, leadsOn_iff, BindingLeads]
  simp only [Expr.freeNames, Text.mem_sortedNames]

theorem isUnsupplied_iff {place : NameInScope} :
    IsUnsupplied environment scopes place <->
      nameSupply environment scopes place = .missing := by
  rw [IsUnsupplied, Scopes.isBound_eq, Option.isSome_eq_false_iff, Option.isNone_iff_eq_none,
    nameSupply_missing_iff]

/-! ## What is found can be reached -/

/-- Every name that the search finds is missing somewhere on a way from a place that waits. -/
theorem of_mem_missingAmong {rounds : Nat} {unvisited pending : List NameInScope} {name : String}
    (found : name ∈ missingAmong environment scopes rounds unvisited pending) :
    ∃ first ∈ pending, ∃ last, Reaches environment scopes first (last, name) ∧
      nameSupply environment scopes (last, name) = .missing := by
  induction rounds generalizing unvisited pending with
  | zero => cases found
  | succ rounds inductionHypothesis =>
      rw [missingAmong] at found
      have waits := List.dropWhile_subset (l := pending) fun other => !unvisited.contains other
      generalize pending.dropWhile (fun other => !unvisited.contains other) = left at found waits
      cases left with
      | nil => cases found
      | cons place rest =>
          have later : forall {first}, first ∈ rest -> first ∈ pending :=
            fun member => waits (List.mem_cons_of_mem _ member)
          dsimp only at found
          cases supply : nameSupply environment scopes place with
          | supplied =>
              rw [supply] at found
              rcases inductionHypothesis found with ⟨first, member, rest⟩
              exact ⟨first, later member, rest⟩
          | missing =>
              rw [supply] at found
              rcases List.mem_cons.mp found with rfl | further
              · exact ⟨place, waits List.mem_cons_self, place.1, .refl, supply⟩
              · rcases inductionHypothesis further with ⟨first, member, rest⟩
                exact ⟨first, later member, rest⟩
          | needs names =>
              rw [supply] at found
              rcases inductionHypothesis found with ⟨first, member, last, reached, missing⟩
              rcases List.mem_append.mp member with added | waited
              · refine ⟨place, waits List.mem_cons_self, last, reached.head ?_, missing⟩
                exact ⟨names, supply, added⟩
              · exact ⟨first, later waited, last, reached, missing⟩

/-- The missing names are those that no scope supplies at the end of a way through bindings. -/
theorem mem_missingNames_iff (closed : scopes.Closed) {scope : ScopeId}
    (there : scope < scopes.length) {expr : Expr R} {name : String} :
    name ∈ missingNames environment scopes scope expr <->
      ∃ first ∈ expr.freeNames environment.functions, ∃ last,
        Relation.ReflTransGen (BindingLeads environment scopes) (scope, first) (last, name) ∧
          IsUnsupplied environment scopes (last, name) := by
  simp only [← leadsOn_eq_bindingLeads, isUnsupplied_iff, Expr.freeNames, Text.mem_sortedNames]
  constructor
  · intro found
    rw [missingNames, Text.mem_sortedNames] at found
    rcases of_mem_missingAmong found with ⟨place, waits, last, reached, missing⟩
    rcases List.mem_map.mp waits with ⟨first, needed, rfl⟩
    exact ⟨first, needed, last, reached, missing⟩
  · rintro ⟨first, needed, last, reached, missing⟩
    exact mem_missingNames closed there needed reached missing

end

/-! ## Searches -/

/-- What a search has visited, what waits, and what was missing so far. -/
structure SearchState where
  seen : List NameInScope
  pending : List NameInScope
  missing : List String

/-- One step of a search takes up a place that waits.  A place that was seen is passed over; the
names that a binding needs come in any order, and perhaps repeatedly. -/
inductive SearchStep (environment : Environment R) (scopes : Scopes R) :
    SearchState -> SearchState -> Prop
  | again {seen before after : List NameInScope} {place : NameInScope} {missing : List String} :
      place ∈ seen ->
      SearchStep environment scopes ⟨seen, before ++ place :: after, missing⟩
        ⟨seen, before ++ after, missing⟩
  | supplied {seen before after : List NameInScope} {place : NameInScope}
      {missing : List String} :
      place ∉ seen -> environment.constants.has place.2 = true ∨ isRandomName place.2 = true ->
      SearchStep environment scopes ⟨seen, before ++ place :: after, missing⟩
        ⟨place :: seen, before ++ after, missing⟩
  | missing {seen before after : List NameInScope} {place : NameInScope}
      {missing : List String} :
      place ∉ seen -> IsUnsupplied environment scopes place ->
      SearchStep environment scopes ⟨seen, before ++ place :: after, missing⟩
        ⟨place :: seen, before ++ after, place.2 :: missing⟩
  | bound {seen before after added : List NameInScope} {place : NameInScope}
      {missing : List String} :
      place ∉ seen -> environment.constants.has place.2 = false ->
      isRandomName place.2 = false -> scopes.isBound place.1 place.2 = true ->
      (forall next, next ∈ added <-> BindingLeads environment scopes place next) ->
      SearchStep environment scopes ⟨seen, before ++ place :: after, missing⟩
        ⟨place :: seen, before ++ after ++ added, missing⟩

/-- A step passes over a place that was seen, or visits one: then the places it leads to wait as
well, and its name is missing if no scope supplies it. -/
theorem SearchStep.visits {environment : Environment R} {scopes : Scopes R}
    {state next : SearchState} (step : SearchStep environment scopes state next) :
    ∃ before place after, state.pending = before ++ place :: after ∧
      ((place ∈ state.seen ∧ next = ⟨state.seen, before ++ after, state.missing⟩) ∨
        ∃ added found, place ∉ state.seen ∧
          (forall other, other ∈ added <-> BindingLeads environment scopes place other) ∧
          (forall name, name ∈ found <-> name = place.2 ∧ IsUnsupplied environment scopes place) ∧
          next = ⟨place :: state.seen, before ++ after ++ added, found ++ state.missing⟩) := by
  cases step with
  | @again seen before after place missing old =>
      exact ⟨before, place, after, rfl, Or.inl ⟨old, rfl⟩⟩
  | @supplied seen before after place missing new given =>
      refine ⟨before, place, after, rfl, Or.inr ⟨[], [], new, fun other => ?_, fun name => ?_, ?_⟩⟩
      · rcases given with constant | random <;> simp [BindingLeads, *]
      · rcases given with constant | random <;> simp [IsUnsupplied, *]
      · rw [List.append_nil, List.nil_append]
  | @missing seen before after place missing new unsupplied =>
      refine ⟨before, place, after, rfl,
        Or.inr ⟨[], [place.2], new, fun other => ?_, fun name => ?_, ?_⟩⟩
      · rcases unsupplied with ⟨noConstant, notRandom, unbound⟩
        rw [Scopes.isBound_eq, Option.isSome_eq_false_iff, Option.isNone_iff_eq_none] at unbound
        simp [BindingLeads, unbound]
      · simp [unsupplied]
      · rw [List.append_nil, List.singleton_append]
  | @bound seen before after added place missing new noConstant notRandom bound leads =>
      refine ⟨before, place, after, rfl, Or.inr ⟨added, [], new, leads, fun name => ?_, rfl⟩⟩
      simp [IsUnsupplied, bound]

namespace SearchState

section

variable {environment : Environment R} {scopes : Scopes R} {start : List NameInScope}
  {state next : SearchState}

/-! ## Every search finds the same -/

/-- A search is on its way: what it came upon can be reached, nothing that a visited place leads
to is forgotten, and the missing names are those of visited places that no scope supplies. -/
structure OnWay (environment : Environment R) (scopes : Scopes R) (start : List NameInScope)
    (state : SearchState) : Prop where
  reached : forall place, place ∈ state.seen ∨ place ∈ state.pending ->
    ∃ first ∈ start, Relation.ReflTransGen (BindingLeads environment scopes) first place
  begun : forall place, place ∈ start -> place ∈ state.seen ∨ place ∈ state.pending
  onward : forall place, place ∈ state.seen -> forall other,
    BindingLeads environment scopes place other -> other ∈ state.seen ∨ other ∈ state.pending
  missing : forall name, name ∈ state.missing <->
    ∃ place ∈ state.seen, place.2 = name ∧ IsUnsupplied environment scopes place

theorem OnWay.beginning (start : List NameInScope) :
    OnWay environment scopes start ⟨[], start, []⟩ where
  reached := fun place known => ⟨place, known.resolve_left nofun, .refl⟩
  begun := fun _ => Or.inr
  onward := nofun
  missing := by simp

theorem OnWay.step (onWay : OnWay environment scopes start state)
    (step : SearchStep environment scopes state next) : OnWay environment scopes start next := by
  rcases step.visits with ⟨before, place, after, waits, old | new⟩
  · rcases old with ⟨seen, rfl⟩
    -- the place that is taken up again stays known as one that was seen
    have kept : forall other, other ∈ state.seen ∨ other ∈ state.pending ->
        other ∈ state.seen ∨ other ∈ before ++ after := by
      intro other known
      rw [waits] at known
      by_cases same : other = place
      · exact Or.inl (same ▸ seen)
      · simpa [same] using known
    have fewer : forall other, other ∈ state.seen ∨ other ∈ before ++ after ->
        other ∈ state.seen ∨ other ∈ state.pending := by
      intro other known
      rw [waits]
      refine known.imp_right fun member => ?_
      simp only [List.mem_append, List.mem_cons] at member ⊢
      exact member.imp_right Or.inr
    exact
      { reached := fun other known => onWay.reached other (fewer other known)
        begun := fun other member => kept other (onWay.begun other member)
        onward := fun other visited further leads =>
          kept further (onWay.onward other visited further leads)
        missing := onWay.missing }
  · rcases new with ⟨added, found, _, leads, isFound, rfl⟩
    have kept : forall other, other ∈ state.seen ∨ other ∈ state.pending ->
        other ∈ place :: state.seen ∨ other ∈ before ++ after ++ added := by
      intro other known
      rw [waits] at known
      simp only [List.mem_append, List.mem_cons] at known ⊢
      tauto
    have placeReached := onWay.reached place (Or.inr (by simp [waits]))
    exact
      { reached := by
          intro other known
          simp only [List.mem_append, List.mem_cons] at known
          rcases known with (rfl | visited) | (waited | waited) | leadsTo
          · exact placeReached
          · exact onWay.reached other (Or.inl visited)
          · exact onWay.reached other (Or.inr (by simp [waits, waited]))
          · exact onWay.reached other (Or.inr (by simp [waits, waited]))
          · rcases placeReached with ⟨first, member, way⟩
            exact ⟨first, member, way.tail ((leads other).mp leadsTo)⟩
        begun := fun other member => kept other (onWay.begun other member)
        onward := by
          intro other visited further leadsTo
          rcases List.mem_cons.mp visited with rfl | before
          · exact Or.inr (List.mem_append_right _ ((leads further).mpr leadsTo))
          · exact kept further (onWay.onward other before further leadsTo)
        missing := by
          intro name
          rw [List.mem_append, isFound, onWay.missing]
          simp only [List.mem_cons, exists_eq_or_imp, @eq_comm _ name] }

/-- What every run of a search keeps. -/
theorem OnWay.run (onWay : OnWay environment scopes start state)
    (run : Relation.ReflTransGen (SearchStep environment scopes) state next) :
    OnWay environment scopes start next := by
  induction run with
  | refl => exact onWay
  | tail _ step inductionHypothesis => exact inductionHypothesis.step step

/-- A search that has ended has visited whatever can be reached. -/
theorem OnWay.visited (onWay : OnWay environment scopes start state) (ended : state.pending = [])
    {first place : NameInScope} (begins : first ∈ start)
    (way : Relation.ReflTransGen (BindingLeads environment scopes) first place) :
    place ∈ state.seen := by
  have nothingWaits : forall other, other ∈ state.seen ∨ other ∈ state.pending ->
      other ∈ state.seen := by
    rintro other (visited | waits)
    · exact visited
    · rw [ended] at waits
      cases waits
  induction way with
  | refl => exact nothingWaits _ (onWay.begun _ begins)
  | tail _ leads inductionHypothesis =>
      exact nothingWaits _ (onWay.onward _ inductionHypothesis _ leads)

/-- A search that has ended has found what no scope supplies at the end of a way. -/
theorem OnWay.mem_missing (onWay : OnWay environment scopes start state)
    (ended : state.pending = []) {name : String} :
    name ∈ state.missing <-> ∃ first ∈ start, ∃ last,
      Relation.ReflTransGen (BindingLeads environment scopes) first (last, name) ∧
        IsUnsupplied environment scopes (last, name) := by
  rw [onWay.missing]
  constructor
  · rintro ⟨⟨last, name⟩, visited, rfl, unsupplied⟩
    rcases onWay.reached _ (Or.inl visited) with ⟨first, begins, way⟩
    exact ⟨first, begins, last, way, unsupplied⟩
  · rintro ⟨first, begins, last, way, unsupplied⟩
    exact ⟨_, onWay.visited ended begins way, rfl, unsupplied⟩

/-! ## Every search ends -/

/-- A search can go on as long as something waits. -/
theorem exists_step (waits : state.pending ≠ []) :
    ∃ next, SearchStep environment scopes state next := by
  rcases state with ⟨seen, pending, missing⟩
  cases pending with
  | nil => exact absurd rfl waits
  | cons place rest =>
      by_cases visited : place ∈ seen
      · exact ⟨_, @SearchStep.again _ _ _ _ [] _ _ _ visited⟩
      cases constant : environment.constants.has place.2 with
      | true => exact ⟨_, @SearchStep.supplied _ _ _ _ [] _ _ _ visited (Or.inl constant)⟩
      | false =>
        cases random : isRandomName place.2 with
        | true => exact ⟨_, @SearchStep.supplied _ _ _ _ [] _ _ _ visited (Or.inr random)⟩
        | false =>
          cases found : scopes.lookup? place.1 place.2 with
          | none =>
              have unbound : scopes.isBound place.1 place.2 = false := by
                rw [Scopes.isBound_eq, found]
                rfl
              exact ⟨_, @SearchStep.missing _ _ _ _ [] _ _ _ visited ⟨constant, random, unbound⟩⟩
          | some entry =>
              rcases entry with ⟨definedIn, binding⟩
              have bound : scopes.isBound place.1 place.2 = true := by
                rw [Scopes.isBound_eq, found]
                rfl
              let needed := (binding.expr.freeNames environment.functions).map
                fun name => (binding.scope.getD place.1, name)
              refine ⟨_, @SearchStep.bound _ _ _ _ [] _ needed _ _ visited constant random bound ?_⟩
              rintro ⟨scope, name⟩
              simp [needed, BindingLeads, constant, random, found, eq_comm, and_comm]

/-- The places of a list that a search has not seen. -/
def unseenIn (state : SearchState) (places : List NameInScope) : List NameInScope :=
  places.filter fun place => !state.seen.contains place

/-- A visit leaves fewer places unseen. -/
theorem unseenIn_lt {places : List NameInScope} {place : NameInScope} (member : place ∈ places)
    (new : place ∉ state.seen) (pending : List NameInScope) (missing : List String) :
    (unseenIn ⟨place :: state.seen, pending, missing⟩ places).length <
      (state.unseenIn places).length := by
  have fewer : unseenIn ⟨place :: state.seen, pending, missing⟩ places =
      (state.unseenIn places).filter (· != place) := by
    simp only [unseenIn, List.filter_filter]
    refine List.filter_congr fun other _ => ?_
    by_cases same : other = place <;> simp [same]
  have unseen : place ∈ state.unseenIn places := List.mem_filter.mpr ⟨member, by simpa using new⟩
  rw [fewer]
  refine Nat.lt_of_le_of_ne (List.length_filter_le _ _) fun same => ?_
  have kept := List.length_filter_eq_length_iff.mp same place unseen
  simp at kept

/-- There is no endless search among finitely many places: a step leaves fewer places unseen, or
as many, and then fewer that wait. -/
theorem acc {places : List NameInScope} (state : SearchState)
    (onward : forall place, place ∈ places -> forall other,
      BindingLeads environment scopes place other -> other ∈ places)
    (waiting : forall place, place ∈ state.pending -> place ∈ places) :
    Acc (fun next state => SearchStep environment scopes state next) state := by
  refine Acc.intro state fun next step => ?_
  rcases step.visits with ⟨before, place, after, waits, ⟨seen, same⟩ | new⟩
  · have fewer : next.pending.length < state.pending.length := by simp [same, waits]
    refine acc next onward fun other member => waiting other ?_
    rw [same] at member
    rw [waits]
    exact ((List.sublist_cons_self place after).append_left before).subset member
  · rcases new with ⟨added, found, new, leads, _, same⟩
    have here : place ∈ places := waiting place (by simp [waits])
    have fewer : (next.unseenIn places).length < (state.unseenIn places).length :=
      same ▸ unseenIn_lt here new _ _
    refine acc next onward fun other member => ?_
    rw [same] at member
    rcases List.mem_append.mp member with waited | leadsTo
    · refine waiting other ?_
      rw [waits]
      exact ((List.sublist_cons_self place after).append_left before).subset waited
    · exact onward place here other ((leads other).mp leadsTo)
termination_by ((state.unseenIn places).length, state.pending.length)
decreasing_by
  · have unseen : (next.unseenIn places).length = (state.unseenIn places).length := by
      rw [same, unseenIn, unseenIn]
    exact unseen ▸ Prod.Lex.right _ fewer
  · exact Prod.Lex.left _ _ fewer

end

end SearchState

/-! ## The missing names -/

/--
The missing names of an expression are sorted and none is there twice.  They are the names
that no scope supplies at the end of a way through bindings from a free name of the
expression.  A search that starts with the free names, in any order, ends; it can go on
until nothing waits, and then it has found these names, whatever it took up first.
-/
theorem missingNames_exact {environment : Environment R} {scopes : Scopes R}
    (closed : scopes.Closed) {scope : ScopeId} (there : scope < scopes.length) (expr : Expr R) :
    (missingNames environment scopes scope expr).Pairwise (· < ·) ∧
      (forall name, name ∈ missingNames environment scopes scope expr <->
        ∃ first ∈ expr.freeNames environment.functions, ∃ last,
          Relation.ReflTransGen (BindingLeads environment scopes) (scope, first) (last, name) ∧
            IsUnsupplied environment scopes (last, name)) ∧
      forall start, (forall place, place ∈ start <->
          place.1 = scope ∧ place.2 ∈ expr.freeNames environment.functions) ->
        Acc (fun next state => SearchStep environment scopes state next) ⟨[], start, []⟩ ∧
          forall state,
            Relation.ReflTransGen (SearchStep environment scopes) ⟨[], start, []⟩ state ->
            (state.pending ≠ [] -> ∃ next, SearchStep environment scopes state next) ∧
              (state.pending = [] -> Text.sortedNames state.missing =
                missingNames environment scopes scope expr) := by
  refine ⟨Text.sortedNames_sorted _, fun _ => mem_missingNames_iff closed there, ?_⟩
  intro start starts
  have accessible := @SearchState.acc R environment scopes (searchedPlaces environment scopes expr)
  refine ⟨accessible _ ?_ ?_, ?_⟩
  · intro place searched other leads
    rw [← leadsOn_eq_bindingLeads] at leads
    exact searchedPlaces_leadsOn closed searched leads
  · rintro ⟨place, name⟩ waits
    rcases (starts _).mp waits with ⟨rfl, needed⟩
    exact mem_searchedPlaces.mpr ⟨there, Or.inl ((Text.mem_sortedNames _ _).mp needed)⟩
  · intro state run
    refine ⟨SearchState.exists_step, fun ended => ?_⟩
    have onWay := (SearchState.OnWay.beginning start).run run
    refine Text.sortedNames_congr fun name => Iff.trans ?_ (Text.mem_sortedNames _ _)
    rw [onWay.mem_missing ended, ← missingNames, mem_missingNames_iff closed there]
    constructor
    · rintro ⟨⟨_, first⟩, begins, rest⟩
      rcases (starts _).mp begins with ⟨rfl, needed⟩
      exact ⟨first, needed, rest⟩
    · rintro ⟨first, needed, rest⟩
      exact ⟨(scope, first), (starts _).mpr ⟨rfl, needed⟩, rest⟩

/-- `a = b` and `b = a*c` in the base, and inside it `c = 1` and `x = a`, which is evaluated in the
base. -/
def mutualScopes : Scopes Float :=
  [⟨some 0, none, [("c", ⟨.num 1, none⟩), ("x", ⟨.var "a", some 0⟩)], [], []⟩,
    ⟨none, none, [("a", ⟨.var "b", none⟩),
      ("b", ⟨.binary .multiply (.var "a") (.var "c"), none⟩)], [], []⟩]

/-- An environment with nothing but the constants that are always there. -/
def plainEnvironment : Environment Float :=
  Environment.initial Registry.empty

/-- The name `c` is missing to `x`, which needs it in the base, also where it is bound. -/
theorem missingNames_exact_mutual :
    mutualScopes.Closed ∧ 1 < mutualScopes.length ∧
      missingNames plainEnvironment mutualScopes 1 (.var "x") = ["c"] ∧
      forall start, (forall place, place ∈ start <-> place.1 = 1 ∧ place.2 ∈ ["x"]) ->
        forall state,
          Relation.ReflTransGen (SearchStep plainEnvironment mutualScopes) ⟨[], start, []⟩ state ->
          state.pending = [] -> Text.sortedNames state.missing = ["c"] := by
  have closed : mutualScopes.Closed := by
    intro scope member entry binding place fixed
    simp only [mutualScopes, List.mem_cons, List.not_mem_nil, or_false] at member
    rcases member with rfl | rfl <;>
      (simp only [List.mem_cons, List.not_mem_nil, or_false] at binding
       rcases binding with rfl | rfl <;> cases fixed)
    exact Nat.zero_lt_two
  have there : 1 < mutualScopes.length := by decide
  have found : missingNames plainEnvironment mutualScopes 1 (.var "x") = ["c"] := by
    decide +kernel
  rcases @missingNames_exact _ plainEnvironment _ closed _ there (.var "x") with
    ⟨_, _, searches⟩
  refine ⟨closed, there, found, fun start starts state run ended => ?_⟩
  rw [← found]
  exact ((searches start starts).2 state run).2 ended

end QuantityCalculus
