import QuantityCalculus.Proofs.Evaluation.Unwatched

namespace QuantityCalculus

/-!
# Evaluations over paired scopes

Scopes are known by their places, and the trail of an evaluation names these places.  An
evaluation depends on them only through what they have in common: two evaluations take
the same course when the places of one are paired with the places of the other, one to
one, so that paired places bind the same names to the same expressions.

The second evaluation may stand inside the call of a function that the first one does not
meet.  It then has the same outcome, except that a function that calls itself is reported
with that function before the others.
-/

variable {R : Type}

/-! ## Pairs of scopes -/

/-- What paired scopes bind a name to. -/
structure BoundAlike (pairs : ScopeId -> ScopeId -> Prop) (bound other : BoundExpr R) :
    Prop where
  expr : bound.expr = other.expr
  scope : Option.Rel pairs bound.scope other.scope

/-- What is found under a name from paired scopes. -/
structure FoundAlike (pairs : ScopeId -> ScopeId -> Prop)
    (found other : ScopeId × BoundExpr R) : Prop where
  holder : pairs found.1 other.1
  bound : BoundAlike pairs found.2 other.2

/-- Places of two contexts that are paired one to one and bind names alike. -/
structure PairedScopes (pairs : ScopeId -> ScopeId -> Prop) (scopes others : Scopes R) :
    Prop where
  there : forall place other, pairs place other ->
    place < scopes.length ∧ other < others.length
  onward : forall place other another, pairs place other -> pairs place another ->
    other = another
  back : forall place another other, pairs place other -> pairs another other ->
    place = another
  lookup : forall place other, pairs place other -> forall name,
    Option.Rel (FoundAlike pairs) (scopes.lookup? place name) (others.lookup? other name)
  enabled : forall place other, pairs place other -> forall name,
    name ∈ scopes.enabledIn place <-> name ∈ others.enabledIn other

/-- The pairs with those of the newest scopes. -/
inductive PairsWith (pairs : ScopeId -> ScopeId -> Prop) (newest other : ScopeId) :
    ScopeId -> ScopeId -> Prop
  | newest : PairsWith pairs newest other newest other
  | older {place another} : pairs place another -> PairsWith pairs newest other place another

theorem rel_mono {α β : Type} {first second : α -> β -> Prop} {left : Option α}
    {right : Option β} (related : Option.Rel first left right)
    (implies : forall x y, left = some x -> first x y -> second x y) :
    Option.Rel second left right := by
  cases related with
  | some holds => exact .some (implies _ _ rfl holds)
  | none => exact .none

theorem rel_isSome {α β : Type} {relation : α -> β -> Prop} {left : Option α}
    {right : Option β} (related : Option.Rel relation left right) :
    left.isSome = right.isSome := by
  cases related <;> rfl

theorem BoundAlike.mono {pairs more : ScopeId -> ScopeId -> Prop} {bound other : BoundExpr R}
    (implies : forall place other, pairs place other -> more place other)
    (alike : BoundAlike pairs bound other) : BoundAlike more bound other :=
  ⟨alike.expr, rel_mono alike.scope fun _ _ _ => implies _ _⟩

theorem BoundAlike.evaluatedIn {pairs : ScopeId -> ScopeId -> Prop} {bound other : BoundExpr R}
    {place seat : ScopeId} (alike : BoundAlike pairs bound other) (seats : pairs place seat) :
    pairs (bound.scope.getD place) (other.scope.getD seat) := by
  rcases bound with ⟨expr, fixed⟩
  rcases other with ⟨otherExpr, otherFixed⟩
  cases alike.scope with
  | some paired => exact paired
  | none => exact seats

namespace PairedScopes

variable {pairs : ScopeId -> ScopeId -> Prop} {scopes others : Scopes R} {place other : ScopeId}

theorem isBound (paired : PairedScopes pairs scopes others) (seats : pairs place other)
    (name : String) : scopes.isBound place name = others.isBound other name := by
  rw [Scopes.isBound_eq, Scopes.isBound_eq]
  exact rel_isSome (paired.lookup _ _ seats name)

/-- Calls of one function with the same arguments open scopes that bind names alike. -/
theorem openedScope_alike (paired : PairedScopes pairs scopes others) (seats : pairs place other)
    (definition : FunctionDefinition R) (arguments : List (String × Expr R)) :
    Table.Alike (BoundAlike pairs) (openedScope scopes place definition arguments).bindings
      (openedScope others other definition arguments).bindings := by
  have supplied : suppliedDefaults scopes place definition =
      suppliedDefaults others other definition := by
    simp only [suppliedDefaults, paired.isBound seats]
  have defaults : Table.Alike (BoundAlike pairs) (suppliedDefaults others other definition)
      (suppliedDefaults others other definition) := by
    refine List.forall₂_same.mpr fun entry member => ⟨rfl, rfl, ?_⟩
    rcases List.mem_map.mp member with ⟨default, _, rfl⟩
    exact .none
  have given : Table.Alike (BoundAlike pairs) (givenArguments place arguments)
      (givenArguments other arguments) := by
    unfold givenArguments
    rw [Table.Alike, List.forall₂_map_left_iff, List.forall₂_map_right_iff]
    exact List.forall₂_same.mpr fun entry _ => ⟨rfl, rfl, .some seats⟩
  unfold openedScope
  dsimp only
  rw [supplied]
  exact Table.update_alike defaults given

/-- The scopes of a call are paired as well. -/
theorem opened (paired : PairedScopes pairs scopes others) (seats : pairs place other)
    (definition : FunctionDefinition R) (arguments : List (String × Expr R)) :
    PairedScopes (PairsWith pairs scopes.length others.length)
      (openedScope scopes place definition arguments :: scopes)
      (openedScope others other definition arguments :: others) := by
  constructor
  · intro place other pair
    cases pair with
    | newest => exact ⟨Nat.lt_succ_self _, Nat.lt_succ_self _⟩
    | older pair =>
        rcases paired.there _ _ pair with ⟨here, there⟩
        exact ⟨Nat.lt_succ_of_lt here, Nat.lt_succ_of_lt there⟩
  · intro place other another pair same
    cases pair with
    | newest =>
        cases same with
        | newest => rfl
        | older same => exact absurd (paired.there _ _ same).1 (Nat.lt_irrefl _)
    | older pair =>
        cases same with
        | newest => exact absurd (paired.there _ _ pair).1 (Nat.lt_irrefl _)
        | older same => exact paired.onward _ _ _ pair same
  · intro place another other pair same
    cases pair with
    | newest =>
        cases same with
        | newest => rfl
        | older same => exact absurd (paired.there _ _ same).2 (Nat.lt_irrefl _)
    | older pair =>
        cases same with
        | newest => exact absurd (paired.there _ _ pair).2 (Nat.lt_irrefl _)
        | older same => exact paired.back _ _ _ pair same
  · intro place' other' pair name
    have outside : forall {place other}, pairs place other ->
        Option.Rel (FoundAlike (PairsWith pairs scopes.length others.length))
          (scopes.lookup? place name) (others.lookup? other name) := fun seats =>
      rel_mono (paired.lookup _ _ seats name) fun _ _ _ alike =>
        ⟨.older alike.holder, alike.bound.mono fun _ _ => .older⟩
    cases pair with
    | newest =>
        have bindings := Table.get?_alike (paired.openedScope_alike seats definition arguments) name
        have insideFirst : (openedScope scopes place definition arguments).parent =
          some place := rfl
        have insideSecond : (openedScope others other definition arguments).parent =
          some other := rfl
        rw [Scopes.lookup?_cons_length insideFirst, Scopes.lookup?_cons_length insideSecond]
        generalize Table.get? name (openedScope scopes place definition arguments).bindings =
          bound at bindings
        generalize Table.get? name (openedScope others other definition arguments).bindings =
          otherBound at bindings
        cases bindings with
        | none => exact outside seats
        | some alike => exact .some ⟨.newest, alike.mono fun _ _ => .older⟩
    | older pair =>
        rw [Scopes.lookup?_cons_of_lt (paired.there _ _ pair).1,
          Scopes.lookup?_cons_of_lt (paired.there _ _ pair).2]
        exact outside pair
  · intro place' other' pair name
    cases pair with
    | newest =>
        rw [Scopes.enabledIn_cons_length, Scopes.enabledIn_cons_length]
        exact paired.enabled _ _ seats name
    | older pair =>
        rw [Scopes.enabledIn_cons_of_lt (paired.there _ _ pair).1,
          Scopes.enabledIn_cons_of_lt (paired.there _ _ pair).2]
        exact paired.enabled _ _ pair name

end PairedScopes

/-! ## What is under way on both sides -/

/-- The trails of two evaluations, the second of them inside the call of a function that the first
has not met. -/
inductive PairedTrails (pairs : ScopeId -> ScopeId -> Prop) (outermost : String) :
    List Resolution -> List Resolution -> Prop
  | start : PairedTrails pairs outermost [] [.function outermost]
  | lookup {definedIn otherIn place other name trail otherTrail} :
      pairs definedIn otherIn -> pairs place other ->
      PairedTrails pairs outermost trail otherTrail ->
      PairedTrails pairs outermost (.variable definedIn name place :: trail)
        (.variable otherIn name other :: otherTrail)
  | call {name trail otherTrail} : name ≠ outermost ->
      PairedTrails pairs outermost trail otherTrail ->
      PairedTrails pairs outermost (.function name :: trail) (.function name :: otherTrail)

namespace PairedTrails

variable {pairs more : ScopeId -> ScopeId -> Prop} {outermost : String}
  {trail otherTrail : List Resolution}

theorem mono (implies : forall place other, pairs place other -> more place other)
    (trails : PairedTrails pairs outermost trail otherTrail) :
    PairedTrails more outermost trail otherTrail := by
  induction trails with
  | start => exact .start
  | lookup holders seats _ inductionHypothesis =>
      exact .lookup (implies _ _ holders) (implies _ _ seats) inductionHypothesis
  | call different _ inductionHypothesis => exact .call different inductionHypothesis

/-- The same functions are under way, behind the outermost. -/
theorem callers_eq (trails : PairedTrails pairs outermost trail otherTrail) :
    callers otherTrail = outermost :: callers trail := by
  induction trails with
  | start => rfl
  | lookup _ _ _ inductionHypothesis => exact inductionHypothesis
  | call _ _ inductionHypothesis =>
      simp only [callers, List.filterMap_cons, List.reverse_cons] at inductionHypothesis ⊢
      rw [inductionHypothesis]
      rfl

theorem function_mem_iff (trails : PairedTrails pairs outermost trail otherTrail) {name : String}
    (different : name ≠ outermost) :
    .function name ∈ trail <-> .function name ∈ otherTrail := by
  induction trails with
  | start => simp [different]
  | lookup _ _ _ inductionHypothesis => simp [inductionHypothesis]
  | call _ _ inductionHypothesis => simp [inductionHypothesis]

/-- The same variables are under way, in paired scopes. -/
theorem variable_mem_iff {scopes others : Scopes R} (paired : PairedScopes pairs scopes others)
    (trails : PairedTrails pairs outermost trail otherTrail)
    {definedIn otherIn place other : ScopeId} {name : String} (holders : pairs definedIn otherIn)
    (seats : pairs place other) :
    .variable definedIn name place ∈ trail <-> .variable otherIn name other ∈ otherTrail := by
  induction trails with
  | start => simp
  | lookup otherHolders otherSeats _ inductionHypothesis =>
      rw [List.mem_cons, List.mem_cons, inductionHypothesis]
      refine or_congr ⟨fun same => ?_, fun same => ?_⟩ Iff.rfl
      · injection same with holder key seat
        subst holder key seat
        rw [paired.onward _ _ _ holders otherHolders, paired.onward _ _ _ seats otherSeats]
      · injection same with holder key seat
        subst holder key seat
        rw [paired.back _ _ _ holders otherHolders, paired.back _ _ _ seats otherSeats]
  | call _ _ inductionHypothesis => simp [inductionHypothesis]

end PairedTrails

/-! ## The two evaluations -/

/-- A failure as it is reported inside the call of a function. -/
def Failure.calledFrom (function : String) : Failure -> Failure
  | .cyclicFunction callers name => .cyclicFunction (function :: callers) name
  | failure => failure

/-- The second evaluation stands inside the call of a function. -/
def Comparison.calledFrom (function : String) : Comparison where
  change := Failure.calledFrom function
  firstExcused := fun _ => False
  secondExcused := fun _ => False
  change_other := by
    intro failure other
    cases failure <;> first | rfl | exact absurd rfl (other _ _)

/-- Wherever an evaluation goes, it meets no call of a function and reads no memory. -/
def Evaluation.Keeps (environment : Environment R) (function : String) (start : Evaluation R) :
    Prop :=
  forall now, start.Reaches environment now ->
    now.expr.readsMemory = false ∧ forall arguments, .call function arguments ∉ now.expr.references

/-- A part of an expression that neither reads the memory nor calls a function. -/
def Expr.isQuiet (function : String) : Expr R -> Bool
  | .mem | .memAt _ => false
  | .call called _ => called != function
  | _ => true

/-- No part of an expression reads the memory or calls a function. -/
def Expr.avoids (function : String) (expr : Expr R) : Bool :=
  expr.walk.all (Expr.isQuiet function)

theorem Expr.exists_loud_of_readsMemory (expr : Expr R) (reads : expr.readsMemory = true)
    (function : String) : ∃ part, part ∈ expr.walk ∧ part.isQuiet function = false := by
  match expr with
  | .mem | .memAt _ => exact ⟨_, List.mem_cons_self, rfl⟩
  | .func _ x | .factorial x | .sqrt x | .abs x | .paren x | .marked _ x =>
      rcases exists_loud_of_readsMemory x reads function with ⟨part, inside, loud⟩
      exact ⟨part, List.mem_cons_of_mem _ inside, loud⟩
  | .root x y | .fraction x y | .binary _ x y =>
      rcases Bool.or_eq_true_iff.mp reads with left | right
      · rcases exists_loud_of_readsMemory x left function with ⟨part, inside, loud⟩
        exact ⟨part, List.mem_cons_of_mem _ (List.mem_append_left _ inside), loud⟩
      · rcases exists_loud_of_readsMemory y right function with ⟨part, inside, loud⟩
        exact ⟨part, List.mem_cons_of_mem _ (List.mem_append_right _ inside), loud⟩
  | .num _ | .var _ | .call .. | .binding .. | .equation .. | .declaration .. | .target _ =>
      cases reads

section

variable {function : String} {expr : Expr R}

theorem Expr.readsMemory_of_avoids (avoids : expr.avoids function = true) :
    expr.readsMemory = false := by
  refine Bool.eq_false_iff.mpr fun reads => ?_
  rcases exists_loud_of_readsMemory expr reads function with ⟨part, inside, loud⟩
  exact Bool.false_ne_true (loud.symm.trans (List.all_eq_true.mp avoids part inside))

theorem Expr.not_called_of_avoids (avoids : expr.avoids function = true)
    (arguments : Arguments R) : .call function arguments ∉ expr.references := by
  intro met
  have quiet := List.all_eq_true.mp avoids _ (Expr.walk_of_references expr met Expr.mem_walk_call)
  exact absurd rfl (bne_iff_ne.mp quiet)

theorem Expr.argument_avoids (avoids : expr.avoids function = true) {called : String}
    {arguments : Arguments R} {entry : String × Expr R}
    (met : .call called arguments ∈ expr.references) (member : entry ∈ arguments.toList) :
    entry.2.avoids function = true :=
  List.all_eq_true.mpr fun part inside =>
    List.all_eq_true.mp avoids part (Expr.walk_of_argument met member inside)

end

/-- No expression of some scopes reads the memory or calls a function. -/
def Scopes.avoid (function : String) (scopes : Scopes R) : Bool :=
  scopes.all fun scope => scope.bindings.all fun entry => entry.2.expr.avoids function

/-- No expression of some stored functions reads the memory or calls a function. -/
def FunctionStore.avoids (function : String) (store : FunctionStore R) : Bool :=
  store.all fun entry => entry.2.body.avoids function &&
    entry.2.defaults.all fun supplied => supplied.2.avoids function

/-- What occurs nowhere is met nowhere. -/
theorem Evaluation.keeps_of_avoids {environment : Environment R} {function : String}
    {start : Evaluation R} (written : start.expr.avoids function = true)
    (bound : start.scopes.avoid function = true)
    (stored : FunctionStore.avoids function environment.functions = true) :
    start.Keeps environment function := by
  intro now reached
  suffices both : now.expr.avoids function = true ∧ now.scopes.avoid function = true from
    ⟨Expr.readsMemory_of_avoids both.1, Expr.not_called_of_avoids both.1⟩
  induction reached with
  | refl => exact ⟨written, bound⟩
  | @tail now next _ further inductionHypothesis =>
      rcases inductionHypothesis with ⟨written, bound⟩
      cases further with
      | lookup met _ _ looked =>
          rcases Scopes.lookup?_mem looked with ⟨scope, listed, binding⟩
          exact ⟨List.all_eq_true.mp (List.all_eq_true.mp bound scope listed) _ binding, bound⟩
      | @call name arguments definition met found _ =>
          have entry := List.all_eq_true.mp stored _ (Table.mem_of_get? found)
          rcases Bool.and_eq_true_iff.mp entry with ⟨body, defaults⟩
          refine ⟨body, ?_⟩
          refine List.all_eq_true.mpr fun scope listed => ?_
          rcases List.mem_cons.mp listed with rfl | older
          · refine List.all_eq_true.mpr fun binding member => ?_
            rcases mem_openedScope member with ⟨_, supplied⟩ | ⟨_, given⟩
            · exact List.all_eq_true.mp defaults _ supplied
            · exact Expr.argument_avoids written met given
          · exact List.all_eq_true.mp bound scope older

/-- Evaluations over paired scopes, by induction on the levels.  Every call extends the pairs. -/
theorem paired_alike [Scalar R] {environment : Environment R} {function : String}
    {start : Evaluation R} (keeps : start.Keeps environment function) (levels : Nat)
    {pairs : ScopeId -> ScopeId -> Prop} {scopes others : Scopes R} {place other : ScopeId}
    {trail otherTrail : List Resolution} {expr : Expr R}
    (paired : PairedScopes pairs scopes others) (seats : pairs place other)
    (trails : PairedTrails pairs function trail otherTrail)
    (reached : start.Reaches environment ⟨trail, scopes, place, expr⟩) :
    (Comparison.calledFrom function).Holds
      (evaluateUpTo environment true levels trail scopes place expr)
      (evaluateUpTo environment true levels otherTrail others other expr) := by
  induction levels generalizing pairs scopes others place other trail otherTrail expr with
  | zero => exact .error nofun
  | succ levels inductionHypothesis =>
      rcases keeps _ reached with ⟨noMemory, noCall⟩
      refine evaluateWith_alike_self (paired.enabled _ _ seats) expr
        (fun reads => absurd (noMemory.symm.trans reads) nofun) ?_ ?_
      · intro name met
        refine evaluateVariable_alike fun noConstant notRandom => ?_
        refine rel_mono (paired.lookup _ _ seats name) fun found there looked alike => ?_
        rcases found with ⟨definedIn, bound⟩
        rcases there with ⟨otherIn, otherBound⟩
        have evaluatedIn := alike.bound.evaluatedIn seats
        refine evaluateBound_alike (trails.variable_mem_iff paired alike.holder evaluatedIn) ?_
        dsimp only
        rw [← alike.bound.expr]
        have unknown : environment.constants.has name = false := by rw [Table.has, noConstant]; rfl
        exact inductionHypothesis paired evaluatedIn (.lookup alike.holder evaluatedIn trails)
          (reached.tail (.lookup met unknown notRandom looked))
      · intro name arguments met
        refine evaluateCall_alike fun definition stored => ?_
        have different : name ≠ function := fun same => noCall arguments (same ▸ met)
        refine evaluateBody_alike (trails.function_mem_iff different) ?_ fun fresh => ?_
        · exact congrArg (Failure.cyclicFunction · name) trails.callers_eq.symm
        · exact inductionHypothesis (paired.opened seats definition arguments.toList) .newest
            (.call different (trails.mono fun _ _ => .older))
            (reached.tail (.call met stored fresh))

/-! ## A function made of a scope -/

/-- A scope inside another that binds only what is bound nowhere further out, has the same catalogs
enabled, and fixes no scopes. -/
structure InnerScope (scopes : Scopes R) (here parent : ScopeId) (inner : Scope R) : Prop where
  found : scopes.scope? here = some inner
  inside : inner.parent = some parent
  older : parent < here
  unbound : forall name, name ∈ inner.bindings.keys -> scopes.isBound parent name = false
  enabled : forall name, name ∈ inner.enabled <-> name ∈ scopes.enabledIn parent
  noneFixed : forall scope, scope ∈ scopes -> forall binding, binding ∈ scope.bindings ->
    binding.2.scope = none

/-- The function whose body is evaluated as an expression is in a scope. -/
def functionOf (inner : Scope R) (expr : Expr R) : FunctionDefinition R :=
  ⟨expr, inner.bindings.map fun entry => (entry.1, entry.2.expr)⟩

/-- The scope and that of the call are paired, and each scope around them with itself. -/
inductive CallPairs (here call parent : ScopeId) : ScopeId -> ScopeId -> Prop
  | inner : CallPairs here call parent here call
  | outer {place} : place <= parent -> CallPairs here call parent place place

namespace InnerScope

variable {scopes : Scopes R} {here parent : ScopeId} {inner : Scope R}

/-- The call binds what the scope binds. -/
theorem bindings_alike (scope : InnerScope scopes here parent inner)
    (expr : Expr R) (pairs : ScopeId -> ScopeId -> Prop) :
    Table.Alike (BoundAlike pairs) inner.bindings
      (openedScope scopes parent (functionOf inner expr) []).bindings := by
  have everyDefault : (functionOf inner expr).defaults.filter
      (fun entry => !scopes.isBound parent entry.1) = (functionOf inner expr).defaults := by
    refine List.filter_eq_self.mpr fun entry member => ?_
    rcases List.mem_map.mp member with ⟨binding, bound, rfl⟩
    rw [scope.unbound _ (List.mem_map_of_mem bound)]
    rfl
  have supplied : (openedScope scopes parent (functionOf inner expr) []).bindings =
      inner.bindings.map fun entry => (entry.1, ⟨entry.2.expr, none⟩) := by
    simp only [openedScope, suppliedDefaults, everyDefault, givenArguments, List.map_nil,
      Table.update, List.foldl_nil]
    simp only [functionOf, List.map_map]
    rfl
  rw [supplied, Table.Alike, List.forall₂_map_right_iff]
  refine List.forall₂_same.mpr fun entry member => ⟨rfl, rfl, ?_⟩
  rw [scope.noneFixed _ (Scopes.mem_of_scope? scope.found) _ member]
  exact .none

/-- What is found from a scope further out. -/
theorem lookup_outer (scope : InnerScope scopes here parent inner) {place : ScopeId}
    (outside : place <= parent) (call : ScopeId) (name : String) :
    Option.Rel (FoundAlike (CallPairs here call parent)) (scopes.lookup? place name)
      (scopes.lookup? place name) := by
  refine rel_self _ fun found looked => ?_
  rcases found with ⟨definedIn, bound⟩
  rcases Scopes.lookupIn?_mem looked with ⟨holder, member, _⟩
  rcases Scopes.lookup?_mem looked with ⟨_, listed, binding⟩
  refine ⟨.outer (Nat.le_trans (Scopes.le_of_mem_chain member) outside), rfl, ?_⟩
  rw [scope.noneFixed _ listed _ binding]
  exact .none

/-- The scope and its surroundings are paired with those of the call. -/
theorem paired (scope : InnerScope scopes here parent inner) (expr : Expr R) :
    PairedScopes (CallPairs here scopes.length parent) scopes
      (openedScope scopes parent (functionOf inner expr) [] :: scopes) := by
  have below := Scopes.lt_of_scope? scope.found
  have outside : forall {place}, place <= parent -> place < scopes.length := fun further =>
    Nat.lt_of_le_of_lt further (Nat.lt_trans scope.older below)
  constructor
  · intro place other pair
    cases pair with
    | inner => exact ⟨below, Nat.lt_succ_self _⟩
    | outer further => exact ⟨outside further, Nat.lt_succ_of_lt (outside further)⟩
  · intro place other another pair same
    cases pair with
    | inner =>
        cases same with
        | inner => rfl
        | outer further => exact absurd scope.older (Nat.not_lt_of_le further)
    | outer further =>
        cases same with
        | inner => exact absurd scope.older (Nat.not_lt_of_le further)
        | outer _ => rfl
  · intro place another other pair same
    cases pair with
    | inner =>
        cases same with
        | inner => rfl
        | outer further => exact absurd (outside further) (Nat.lt_irrefl _)
    | outer further =>
        cases same with
        | inner => exact absurd (outside further) (Nat.lt_irrefl _)
        | outer _ => rfl
  · intro place other pair name
    cases pair with
    | outer further =>
        rw [Scopes.lookup?_cons_of_lt (outside further)]
        exact scope.lookup_outer further _ name
    | inner =>
        have bindings := Table.get?_alike
          (scope.bindings_alike expr (CallPairs here scopes.length parent)) name
        have inCall : (openedScope scopes parent (functionOf inner expr) []).parent =
          some parent := rfl
        rw [Scopes.lookup?_cons_length inCall, Scopes.lookup?,
          Scopes.chain_of_scope? scope.found scope.inside scope.older, Scopes.lookupIn?]
        generalize Table.get? name inner.bindings = bound at bindings
        generalize Table.get? name
          (openedScope scopes parent (functionOf inner expr) []).bindings = otherBound at bindings
        cases bindings with
        | none => exact scope.lookup_outer (Nat.le_refl _) _ name
        | some alike => exact .some ⟨.inner, alike⟩
  · intro place other pair name
    cases pair with
    | outer further => rw [Scopes.enabledIn_cons_of_lt (outside further)]
    | inner =>
        rw [Scopes.enabledIn_cons_length, Scopes.enabledIn, scope.found]
        exact scope.enabled name

end InnerScope

/-- The call of a function made of a scope has the outcome that its body has in the scope, as long
as the resolutions suffice inside the call. -/
theorem evaluate_call_functionOf [Scalar R] {environment : Environment R} {function : String}
    {scopes : Scopes R} {here parent : ScopeId} {inner : Scope R} {expr : Expr R}
    (scope : InnerScope scopes here parent inner)
    (stored : environment.functions.get? function = some (functionOf inner expr))
    (keeps : Evaluation.Keeps environment function ⟨[], scopes, here, expr⟩)
    (enough : evaluateWithin environment (resolutionLimit - 1) [] scopes here expr ≠
      .error (.resolutionTooDeep resolutionLimit)) :
    evaluate environment scopes parent (.call function .nil) =
      (evaluate environment scopes here expr).mapError (Failure.calledFrom function) := by
  have entered : evaluate environment scopes parent (.call function .nil) =
      evaluateUpTo environment true resolutionLimit [.function function]
        (openedScope scopes parent (functionOf inner expr) [] :: scopes) scopes.length expr := by
    rw [evaluate, evaluateWithin_eq]
    exact (evaluateCall_eq stored).trans (if_neg List.not_mem_nil)
  have whole : evaluate environment scopes here expr =
      evaluateUpTo environment true resolutionLimit [] scopes here expr := by
    rw [evaluate, evaluateWithin_eq]
    rw [evaluateWithin_eq] at enough
    exact evaluateUpTo_of_le (Nat.le_succ _) enough
  rw [entered, whole]
  exact (paired_alike keeps resolutionLimit (scope.paired expr) .inner .start .refl).eq_mapError
    (fun _ => nofun) fun _ => nofun

end QuantityCalculus
