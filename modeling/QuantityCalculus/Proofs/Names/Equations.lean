import Mathlib.Order.Bounds.Basic
import QuantityCalculus.Expr.Children
import QuantityCalculus.Proofs.Names.Needed

namespace QuantityCalculus

/-!
# The equations between the names of expressions

What an expression needs can be said without any search: the variables written in it, and
for every call of a stored function written in it the names of the body, less what the call
and the defaults bind.  These are equations between the names of all expressions, and with
functions that call themselves they have many solutions; what an expression needs is the
least one.

The search for the names goes through no function that is already being visited.  It ends
by itself, whatever the functions call, and it finds the least solution.
-/

variable {R : Type}

/-! ## What the parts of an expression need -/

/-- What a part of an expression adds to its names, when `bodies` says what bodies need. -/
def Expr.ownNames (bodies : String -> Set String) : Expr R -> Set String
  | .var name => {name}
  | .call function arguments =>
      bodies function \ {name | name ∈ arguments.toList.map Prod.fst}
  | _ => ∅

/-- What all parts of an expression add to its names. -/
def Expr.writtenNames (bodies : String -> Set String) (expr : Expr R) : Set String :=
  {name | ∃ part ∈ expr.walk, name ∈ part.ownNames bodies}

theorem Expr.writtenNames_mono {fewer more : String -> Set String}
    (grows : forall function, fewer function ⊆ more function) (expr : Expr R) :
    expr.writtenNames fewer ⊆ expr.writtenNames more := by
  rintro name ⟨part, inside, own⟩
  refine ⟨part, inside, ?_⟩
  cases part with
  | call function arguments => exact ⟨grows function own.1, own.2⟩
  | _ => exact own

mutual

/-- The names of an expression are those of its parts. -/
theorem Expr.mem_namesWith {name : String} {bodyNames : BodyNames} (expr : Expr R) :
    name ∈ expr.namesWith bodyNames <->
      name ∈ expr.writtenNames fun function => {name | name ∈ (bodyNames function).getD []} := by
  match expr with
  | .num _ | .mem | .target _ | .var _ =>
      simp [Expr.namesWith, Expr.writtenNames, Expr.walk, Expr.ownNames]
  | .memAt x | .func _ x | .factorial x | .sqrt x | .abs x | .binding _ x | .paren x
  | .marked _ x | .declaration _ x =>
      simpa [Expr.namesWith, Expr.writtenNames, Expr.walk, Expr.ownNames] using
        Expr.mem_namesWith x
  | .root x y | .fraction x y | .binary _ x y | .equation x y =>
      have first : name ∈ x.namesWith bodyNames <-> _ := Expr.mem_namesWith x
      have second : name ∈ y.namesWith bodyNames <-> _ := Expr.mem_namesWith y
      simp_all [Expr.namesWith, Expr.writtenNames, Expr.walk, Expr.ownNames, or_and_right,
        exists_or]
  | .call function arguments =>
      have inside : name ∈ arguments.namesWith bodyNames <-> _ :=
        Arguments.mem_namesWith_walk arguments
      simp_all [Expr.namesWith, Expr.writtenNames, Expr.walk, Expr.ownNames, or_comm]

theorem Arguments.mem_namesWith_walk {name : String} {bodyNames : BodyNames}
    (arguments : Arguments R) :
    name ∈ arguments.namesWith bodyNames <->
      ∃ part ∈ arguments.walk,
        name ∈ part.ownNames fun function => {name | name ∈ (bodyNames function).getD []} := by
  match arguments with
  | .nil => simp [Arguments.namesWith, Arguments.walk]
  | .cons _ value rest =>
      have first : name ∈ value.namesWith bodyNames <-> _ := Expr.mem_namesWith value
      have later : name ∈ rest.namesWith bodyNames <-> _ := Arguments.mem_namesWith_walk rest
      simp_all [Arguments.namesWith, Expr.writtenNames, Arguments.walk, Expr.ownNames,
        or_and_right, exists_or]

end

/-! ## The equations -/

/-- Names for every expression. -/
abbrev Naming (R : Type) := Expr R -> Set String

/-- What the bodies of functions need beyond their defaults, when expressions have some names. -/
def Naming.bodies (naming : Naming R) (store : FunctionStore R) (function : String) : Set String :=
  {name | ∃ definition, store.get? function = some definition ∧
    name ∈ naming definition.body ∧ name ∉ definition.defaults.keys}

/-- Every expression has exactly the names that its variables and its calls ask for. -/
def Naming.Solves (naming : Naming R) (store : FunctionStore R) : Prop :=
  forall expr, naming expr = expr.writtenNames (naming.bodies store)

/-- The names that the search finds. -/
def Naming.found (store : FunctionStore R) : Naming R :=
  fun expr => {name | name ∈ expr.freeNames store}

theorem Naming.mem_found {store : FunctionStore R} {expr : Expr R} {name : String} :
    name ∈ Naming.found store expr <-> name ∈ expr.neededNames store :=
  Text.mem_sortedNames _ _

/-- The names that are found solve the equations. -/
theorem Naming.found_solves (store : FunctionStore R) : (Naming.found store).Solves store := by
  have bodies : (fun function =>
      {name | name ∈ (bodyNames store store.length [] function).getD []}) =
        (Naming.found store).bodies store := by
    ext function name
    simp only [Set.mem_ofPred_eq, mem_bodyNames_iff, Naming.bodies, Naming.mem_found]
  intro expr
  ext name
  rw [Naming.mem_found, Expr.neededNames, Expr.mem_namesWith, bodies]

/-- What a search of any depth finds belongs to every solution, by induction on the depth. -/
theorem Naming.Solves.deepNames_subset {naming : Naming R} {store : FunctionStore R}
    (solves : naming.Solves store) (depth : Nat) (function : String) :
    {name | name ∈ (deepNames store depth function).getD []} ⊆ naming.bodies store function := by
  induction depth generalizing function with
  | zero => exact nofun
  | succ depth inductionHypothesis =>
      intro name needed
      rcases mem_deepNames.mp needed with ⟨definition, stored, inside, free⟩
      refine ⟨definition, stored, ?_, free⟩
      rw [solves definition.body]
      exact definition.body.writtenNames_mono inductionHypothesis
        (definition.body.mem_namesWith.mp inside)

/-- Every solution contains the names that are found. -/
theorem Naming.Solves.found_subset {naming : Naming R} {store : FunctionStore R}
    (solves : naming.Solves store) (expr : Expr R) : Naming.found store expr ⊆ naming expr := by
  intro name found
  rcases mem_neededNames_iff_deepNames.mp (Naming.mem_found.mp found) with ⟨depth, needed⟩
  rw [solves expr]
  exact expr.writtenNames_mono (solves.deepNames_subset depth) (expr.mem_namesWith.mp needed)

/-! ## The search ends by itself -/

/-- A search through bodies that passes over the functions being visited, and is not bounded. -/
def IsGuardedSearch (store : FunctionStore R) (search : List String -> BodyNames) : Prop :=
  forall visiting function, search visiting function =
    if visiting.contains function then none
    else (store.get? function).map fun definition =>
      (definition.body.namesWith (search (function :: visiting))).filter
        fun name => !definition.defaults.keys.contains name

/-- A bound on the depth is never met once it covers the functions that may still be visited. -/
theorem bodyNames_succ {store : FunctionStore R} {room : Nat} {visiting : List String}
    (enough : (unvisitedFunctions store visiting).length ≤ room) :
    bodyNames store (room + 1) visiting = bodyNames store room visiting := by
  induction room generalizing visiting with
  | zero =>
      funext function
      have nothingLeft := List.length_eq_zero_iff.mp (Nat.le_zero.mp enough)
      rw [bodyNames, bodyNames]
      split
      · rfl
      · rename_i fresh
        rw [Option.map_eq_none_iff, Table.get?_eq_none_iff]
        intro stored
        have left : function ∈ unvisitedFunctions store visiting :=
          List.mem_filter.mpr ⟨stored, by simpa using fresh⟩
        rw [nothingLeft] at left
        cases left
  | succ room inductionHypothesis =>
      funext function
      rw [bodyNames, bodyNames]
      split
      · rfl
      · rename_i fresh
        refine Option.map_congr fun definition stored => ?_
        have fewer := unvisitedFunctions_lt (Table.mem_keys_of_get? stored) (by simpa using fresh)
        rw [inductionHypothesis (by omega)]

/-- No more functions can be visited than are stored. -/
theorem unvisitedFunctions_le (store : FunctionStore R) (visiting : List String) :
    (unvisitedFunctions store visiting).length ≤ store.length := by
  rw [← List.length_map Prod.fst]
  exact List.length_filter_le _ store.keys

/-- With room for all stored functions the bounded search is not bounded at all. -/
theorem bodyNames_isGuardedSearch (store : FunctionStore R) :
    IsGuardedSearch store (bodyNames store store.length) := by
  intro visiting function
  conv_lhs => rw [← bodyNames_succ (unvisitedFunctions_le store visiting)]
  rfl

/-- There is one guarded search only: every call that it goes into leaves fewer functions to be
visited. -/
theorem IsGuardedSearch.unique {store : FunctionStore R} {search other : List String -> BodyNames}
    (guarded : IsGuardedSearch store search) (otherGuarded : IsGuardedSearch store other) :
    search = other := by
  funext visiting
  generalize size : (unvisitedFunctions store visiting).length = room
  induction room using Nat.strong_induction_on generalizing visiting with
  | _ room inductionHypothesis =>
      funext function
      rw [guarded, otherGuarded]
      split
      · rfl
      · rename_i fresh
        refine Option.map_congr fun definition stored => ?_
        have fewer := unvisitedFunctions_lt (Table.mem_keys_of_get? stored) (by simpa using fresh)
        rw [inductionHypothesis _ (size ▸ fewer) _ rfl]

/--
The names that an expression needs, whatever the functions of the store call.  The guarded
search ends by itself and finds them; they are the least solution of the equations; and the
guard loses and adds nothing, since a search that goes through all functions again and again
finds the same names at some depth.
-/
theorem freeNames_leastSolution (store : FunctionStore R) :
    (∃ search, IsGuardedSearch store search ∧
        (forall other, IsGuardedSearch store other -> other = search) ∧
        forall expr : Expr R, expr.freeNames store = Text.sortedNames (expr.namesWith (search []))) ∧
      IsLeast {naming | Naming.Solves naming store}
        (fun expr : Expr R => {name | name ∈ expr.freeNames store}) ∧
      forall (expr : Expr R) name, name ∈ expr.freeNames store <->
        ∃ depth, name ∈ expr.namesWith (deepNames store depth) := by
  have guarded := bodyNames_isGuardedSearch store
  refine ⟨⟨_, guarded, fun _ other => other.unique guarded, fun _ => rfl⟩, ⟨?_, ?_⟩, ?_⟩
  · exact Naming.found_solves store
  · exact fun _ solves expr => Naming.Solves.found_subset solves expr
  · intro expr name
    rw [Expr.freeNames, Text.mem_sortedNames, mem_neededNames_iff_deepNames]

end QuantityCalculus
