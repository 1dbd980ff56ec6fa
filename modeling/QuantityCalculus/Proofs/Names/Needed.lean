import Mathlib.Data.Nat.Find
import QuantityCalculus.Expr.FreeNames

namespace QuantityCalculus

/-!
# What a call needs

The names an expression needs are found by going through the bodies of the functions
it calls, but through no function that is already being visited on the way.  Nothing
is lost by this: a name that an inner call of the same function would add is also
needed by the body of the outer one, and there it is met without the inner call.

The argument compares the search with one that visits without regard to where it is and
is cut off only by its depth.  Among all depths at which that search finds a name in a
body there is a least one, and at a lesser depth no inner call can contribute the name.
-/

variable {R : Type}

/-! ## What is needed grows with what bodies need -/

mutual

/-- A name is needed whatever else the answers for called functions contain. -/
theorem Expr.namesWith_mono {name : String} {fewer more : BodyNames}
    (answers : forall function, name ∈ (fewer function).getD [] ->
      name ∈ (more function).getD []) (expr : Expr R) (needed : name ∈ expr.namesWith fewer) :
    name ∈ expr.namesWith more := by
  match expr with
  | .num _ | .var _ | .mem | .target _ => exact needed
  | .memAt x | .func _ x | .factorial x | .sqrt x | .abs x | .binding _ x | .paren x
  | .marked _ x | .declaration _ x => exact Expr.namesWith_mono answers x needed
  | .root x y | .fraction x y | .binary _ x y | .equation x y =>
      exact (List.mem_append.mp needed).elim
        (fun first => List.mem_append_left _ (Expr.namesWith_mono answers x first))
        (fun second => List.mem_append_right _ (Expr.namesWith_mono answers y second))
  | .call function arguments =>
      rcases List.mem_append.mp needed with inside | body
      · exact List.mem_append_left _ (Arguments.namesWith_mono answers arguments inside)
      · rcases List.mem_filter.mp body with ⟨found, free⟩
        exact List.mem_append_right _ (List.mem_filter.mpr ⟨answers function found, free⟩)

theorem Arguments.namesWith_mono {name : String} {fewer more : BodyNames}
    (answers : forall function, name ∈ (fewer function).getD [] ->
      name ∈ (more function).getD []) (arguments : Arguments R)
    (needed : name ∈ arguments.namesWith fewer) : name ∈ arguments.namesWith more := by
  match arguments with
  | .nil => exact needed
  | .cons _ value rest =>
      exact (List.mem_append.mp needed).elim
        (fun first => List.mem_append_left _ (Expr.namesWith_mono answers value first))
        (fun later => List.mem_append_right _ (Arguments.namesWith_mono answers rest later))

end

/-- The arguments of a call need what one of them needs. -/
theorem Arguments.mem_namesWith {name : String} {bodyNames : BodyNames}
    {arguments : Arguments R} :
    name ∈ arguments.namesWith bodyNames <->
      ∃ entry, entry ∈ arguments.toList ∧ name ∈ entry.2.namesWith bodyNames := by
  cases arguments with
  | nil => simp [namesWith, toList]
  | cons _ value rest =>
      have later : name ∈ rest.namesWith bodyNames <->
          ∃ entry, entry ∈ rest.toList ∧ name ∈ entry.2.namesWith bodyNames :=
        Arguments.mem_namesWith
      simp [namesWith, toList, later]

/-! ## The search without regard to what is being visited -/

/-- What the body of a function needs beyond its defaults, going through `depth` further
functions, wherever they lead. -/
def deepNames (store : FunctionStore R) : Nat -> BodyNames
  | 0, _ => none
  | depth + 1, function =>
      (store.get? function).map fun definition =>
        (definition.body.namesWith (deepNames store depth)).filter
          fun name => !definition.defaults.keys.contains name

theorem mem_deepNames {store : FunctionStore R} {depth : Nat} {function name : String} :
    name ∈ (deepNames store (depth + 1) function).getD [] <->
      ∃ definition, store.get? function = some definition ∧
        name ∈ definition.body.namesWith (deepNames store depth) ∧
        name ∉ definition.defaults.keys := by
  cases found : store.get? function <;> simp [deepNames, found]

theorem deepNames_mono {store : FunctionStore R} {name : String} {lesser greater : Nat}
    (deeper : lesser ≤ greater) (function : String)
    (needed : name ∈ (deepNames store lesser function).getD []) :
    name ∈ (deepNames store greater function).getD [] := by
  induction lesser generalizing greater function with
  | zero => cases needed
  | succ lesser inductionHypothesis =>
      obtain ⟨depth, rfl⟩ : ∃ depth, greater = depth + 1 := ⟨greater - 1, by omega⟩
      rcases mem_deepNames.mp needed with ⟨definition, found, inside, free⟩
      have further := Expr.namesWith_mono
        (inductionHypothesis (Nat.le_of_succ_le_succ deeper)) definition.body inside
      exact mem_deepNames.mpr ⟨definition, found, further, free⟩

theorem mem_bodyNames {store : FunctionStore R} {depth : Nat} {visiting : List String}
    {function name : String} :
    name ∈ (bodyNames store (depth + 1) visiting function).getD [] <->
      function ∉ visiting ∧ ∃ definition, store.get? function = some definition ∧
        name ∈ definition.body.namesWith (bodyNames store depth (function :: visiting)) ∧
        name ∉ definition.defaults.keys := by
  by_cases visited : function ∈ visiting
  · simp [bodyNames, visited]
  · cases found : store.get? function <;> simp [bodyNames, visited, found]

/-- What the guarded search finds, the other one finds as well. -/
theorem deepNames_of_bodyNames {store : FunctionStore R} {name : String} {depth : Nat}
    {visiting : List String} (function : String)
    (needed : name ∈ (bodyNames store depth visiting function).getD []) :
    name ∈ (deepNames store depth function).getD [] := by
  induction depth generalizing visiting function with
  | zero => cases needed
  | succ depth inductionHypothesis =>
      rcases mem_bodyNames.mp needed with ⟨_, definition, found, inside, free⟩
      have further := Expr.namesWith_mono inductionHypothesis definition.body inside
      exact mem_deepNames.mpr ⟨definition, found, further, free⟩

/-! ## Nothing is lost -/

/-- The functions that may still be visited. -/
def unvisitedFunctions (store : FunctionStore R) (visiting : List String) : List String :=
  store.keys.filter fun function => !visiting.contains function

/-- Visiting a stored function leaves fewer functions to be visited. -/
theorem unvisitedFunctions_lt {store : FunctionStore R} {visiting : List String}
    {function : String} (stored : function ∈ store.keys) (fresh : function ∉ visiting) :
    (unvisitedFunctions store (function :: visiting)).length <
      (unvisitedFunctions store visiting).length := by
  have fewer : unvisitedFunctions store (function :: visiting) =
      (unvisitedFunctions store visiting).filter (· != function) := by
    simp only [unvisitedFunctions, List.filter_filter]
    refine List.filter_congr fun other _ => ?_
    by_cases same : other = function <;> simp [same]
  have member : function ∈ unvisitedFunctions store visiting :=
    List.mem_filter.mpr ⟨stored, by simpa using fresh⟩
  rw [fewer]
  refine Nat.lt_of_le_of_ne (List.length_filter_le _ _) fun same => ?_
  have kept := List.length_filter_eq_length_iff.mp same function member
  simp at kept

/--
The guarded search finds every name that the other search finds at some depth, unless
that search finds it at this depth in a body that is being visited.  By induction on the
depth, which is taken as small as possible, so that no lesser depth finds the name in
the body that is visited next.
-/
theorem bodyNames_of_deepNames {store : FunctionStore R} {name : String} {depth : Nat} :
    forall {room : Nat} {visiting : List String} (function : String),
      (forall visited, visited ∈ visiting ->
        name ∉ (deepNames store depth visited).getD []) ->
      (unvisitedFunctions store visiting).length ≤ room ->
      name ∈ (deepNames store depth function).getD [] ->
      name ∈ (bodyNames store room visiting function).getD [] := by
  induction depth using Nat.strong_induction_on with
  | _ depth inductionHypothesis =>
      intro room visiting function guarded enough needed
      have somewhere : ∃ least, name ∈ (deepNames store least function).getD [] :=
        ⟨depth, needed⟩
      classical
      have leastNeeded := Nat.find_spec somewhere
      have leastBelow : Nat.find somewhere ≤ depth := Nat.find_min' somewhere needed
      have notBelow : forall lesser, lesser < Nat.find somewhere ->
          name ∉ (deepNames store lesser function).getD [] :=
        fun lesser below => Nat.find_min somewhere below
      generalize Nat.find somewhere = least at leastNeeded leastBelow notBelow
      cases least with
      | zero => cases leastNeeded
      | succ least =>
          rcases mem_deepNames.mp leastNeeded with ⟨definition, found, inside, free⟩
          have fresh : function ∉ visiting := fun visited => guarded function visited needed
          have fewer := unvisitedFunctions_lt (Table.mem_keys_of_get? found) fresh
          obtain ⟨room, rfl⟩ : ∃ less, room = less + 1 := ⟨room - 1, by omega⟩
          have stillGuarded : forall visited, visited ∈ function :: visiting ->
              name ∉ (deepNames store least visited).getD [] := by
            intro visited member early
            rcases List.mem_cons.mp member with rfl | before
            · exact notBelow least (Nat.lt_succ_self _) early
            · exact guarded visited before (deepNames_mono (by omega) visited early)
          have stillEnough : (unvisitedFunctions store (function :: visiting)).length ≤ room := by
            omega
          have further := Expr.namesWith_mono
            (fun inner => inductionHypothesis least leastBelow inner stillGuarded stillEnough)
            definition.body inside
          exact mem_bodyNames.mpr ⟨fresh, definition, found, further, free⟩

/-- The search that starts with nothing being visited finds what some depth finds. -/
theorem mem_bodyNames_iff_deepNames {store : FunctionStore R} {function name : String} :
    name ∈ (bodyNames store store.length [] function).getD [] <->
      ∃ depth, name ∈ (deepNames store depth function).getD [] := by
  refine ⟨fun needed => ⟨_, deepNames_of_bodyNames function needed⟩, ?_⟩
  rintro ⟨depth, needed⟩
  refine bodyNames_of_deepNames function nofun ?_ needed
  rw [unvisitedFunctions, ← List.length_map Prod.fst]
  exact List.length_filter_le _ store.keys

/-- An expression needs what the search without regard finds at some depth. -/
theorem mem_neededNames_iff_deepNames {store : FunctionStore R} {expr : Expr R}
    {name : String} :
    name ∈ expr.neededNames store <-> ∃ depth, name ∈ expr.namesWith (deepNames store depth) := by
  constructor
  · intro needed
    exact ⟨store.length, Expr.namesWith_mono deepNames_of_bodyNames expr needed⟩
  · rintro ⟨depth, needed⟩
    exact Expr.namesWith_mono
      (fun _ inner => mem_bodyNames_iff_deepNames.mpr ⟨depth, inner⟩) expr needed

/-- A called function contributes what its body needs, less its defaults. -/
theorem mem_bodyNames_iff {store : FunctionStore R} {function name : String} :
    name ∈ (bodyNames store store.length [] function).getD [] <->
      ∃ definition, store.get? function = some definition ∧
        name ∈ definition.body.neededNames store ∧ name ∉ definition.defaults.keys := by
  rw [mem_bodyNames_iff_deepNames]
  constructor
  · rintro ⟨depth, needed⟩
    cases depth with
    | zero => cases needed
    | succ depth =>
        rcases mem_deepNames.mp needed with ⟨definition, found, inside, free⟩
        exact ⟨definition, found, mem_neededNames_iff_deepNames.mpr ⟨depth, inside⟩, free⟩
  · rintro ⟨definition, found, needed, free⟩
    rcases mem_neededNames_iff_deepNames.mp needed with ⟨depth, inside⟩
    exact ⟨depth + 1, mem_deepNames.mpr ⟨definition, found, inside, free⟩⟩

/-- A call needs what its arguments need, and what the body of the function needs less what
the call or the defaults bind. -/
theorem mem_neededNames_call {store : FunctionStore R} {function name : String}
    {arguments : Arguments R} :
    name ∈ (Expr.call function arguments).neededNames store <->
      (∃ entry, entry ∈ arguments.toList ∧ name ∈ entry.2.neededNames store) ∨
        ∃ definition, store.get? function = some definition ∧
          name ∈ definition.body.neededNames store ∧ name ∉ definition.defaults.keys ∧
          name ∉ arguments.toList.map Prod.fst := by
  rw [Expr.neededNames, Expr.namesWith, List.mem_append, Arguments.mem_namesWith,
    List.mem_filter, mem_bodyNames_iff]
  simp only [Expr.neededNames, Bool.not_eq_true', List.contains_eq_mem, decide_eq_false_iff_not]
  constructor
  · rintro (inside | ⟨⟨definition, found, needed, notDefault⟩, notArgument⟩)
    · exact Or.inl inside
    · exact Or.inr ⟨definition, found, needed, notDefault, notArgument⟩
  · rintro (inside | ⟨definition, found, needed, notDefault, notArgument⟩)
    · exact Or.inl inside
    · exact Or.inr ⟨⟨definition, found, needed, notDefault⟩, notArgument⟩

end QuantityCalculus
