import QuantityCalculus.Proofs.Arithmetic.NormalForm
import QuantityCalculus.Proofs.Evaluation.Unwatched

namespace QuantityCalculus

/-!
# Results are normalized

An evaluation makes its results in many places, and nearly all of them normalize: sums,
products and powers, factorials, units that are applied, and units that are taken away.  What
does not normalize passes on what it was given: a variable, a call, parentheses, the memory,
and the absolute value.  Only a conversion shows a quantity as it is told to.

So without conversions a result is normalized, as long as the remembered results are.  The
scopes that matter are those that lookups lead to: a binding may be evaluated in a scope of
its own choice, where other bindings are visible than in the scope that sees it.
-/

variable {R : Type}

/-! ## Expressions without conversions -/

/-- The expression converts its inner part to a unit. -/
def Expr.isCast : Expr R -> Bool
  | .marked (.cast _) _ => true
  | _ => false

/-- An expression without conversions. -/
def Expr.castFree (expr : Expr R) : Bool :=
  expr.walk.all fun part => !part.isCast

theorem Expr.not_isCast {expr part : Expr R} (free : expr.castFree = true)
    (inside : part ∈ expr.walk) : part.isCast = false := by
  simpa using List.all_eq_true.mp free part inside

/-- The functions of a store convert nothing, and neither do their defaults. -/
def CastFreeStore (store : FunctionStore R) : Prop :=
  forall name definition, store.get? name = some definition ->
    definition.body.castFree = true ∧
      forall entry, entry ∈ definition.defaults -> entry.2.castFree = true

variable [Scalar R]

/-! ## Outcomes -/

/-- If there is a result, it is in normal form. -/
def YieldsNormal (outcome : Except Failure (Quantity R)) : Prop :=
  forall quantity, outcome = .ok quantity -> quantity.Normal

namespace YieldsNormal

variable {quantity : Quantity R} {outcome : Except Failure (Quantity R)}

theorem ok (normal : quantity.Normal) : YieldsNormal (.ok quantity) := by
  rintro _ ⟨⟩
  exact normal

theorem error {failure : Failure} : YieldsNormal (.error failure : Except Failure (Quantity R)) :=
  nofun

/-- What comes after a computation is in normal form whenever it comes after a result. -/
theorem bind {α : Type} {first : Except Failure α} {rest : α -> Except Failure (Quantity R)}
    (further : forall value, first = .ok value -> YieldsNormal (rest value)) :
    YieldsNormal (first >>= rest) := by
  cases first with
  | ok value => exact further value rfl
  | error failure => exact .error

end YieldsNormal

/-! ## Operations -/

theorem Environment.random_normal (environment : Environment R) (name : String) :
    YieldsNormal (environment.random name) := by
  unfold Environment.random
  split
  · exact .ok (Quantity.normal_ofScalar _)
  · split
    · exact .ok (Quantity.normal_ofScalar _)
    · exact .error

theorem Environment.function_normal (environment : Environment R) (kind : FunctionKind)
    (argument : Quantity R) : YieldsNormal (environment.function kind argument) := by
  unfold Environment.function
  split
  · exact .error
  · exact .ok (Quantity.normal_ofScalar _)

theorem Registry.combine_normal (registry : Registry R) (op : UnitOperator)
    (left right : Quantity R) : YieldsNormal (registry.combine op left right) := by
  unfold Registry.combine
  split
  · exact .ok (Quantity.normal_withValue _ _)
  · split
    · exact .ok (Quantity.normal_withValue _ _)
    · split
      · exact .error
      · exact .ok (Quantity.normal_normalize _)

theorem Environment.binary_normal (environment : Environment R) (op : Operator)
    (left right : Quantity R) : YieldsNormal (environment.binary op left right) := by
  cases op with
  | add | subtract => exact .ok (Quantity.normal_linear _ _ _)
  | multiply | divide => exact Registry.combine_normal _ _ _ _
  | modulus => exact .ok (Quantity.normal_modulus _ _)
  | power => exact .ok (Quantity.normal_power _ _)

/-- A unit bracket that does not convert normalizes. -/
theorem Environment.mark_normal (environment : Environment R) (enabled : List String)
    (mark : UnitMark) (inner : Quantity R) (noCast : forall symbol, mark ≠ .cast symbol) :
    YieldsNormal (environment.mark enabled mark inner) := by
  cases mark with
  | normalize => exact .ok (Quantity.normal_normalize inner)
  | cast symbol => exact absurd rfl (noCast symbol)
  | apply symbol => exact .bind fun _ _ => Registry.combine_normal _ _ _ _

/-- A remembered result is in normal form when all visible ones are. -/
theorem Scopes.memoryAt_normal {scopes : Scopes R} {scope : ScopeId} (index : Int)
    (memory : forall quantity, quantity ∈ scopes.memoryValues scope -> quantity.Normal) :
    YieldsNormal (scopes.memoryAt scope index) := by
  unfold Scopes.memoryAt
  split
  · split
    · rename_i found
      exact .ok (memory _ (List.mem_of_getElem? found))
    · exact .error
  · exact .error

/-! ## One expression -/

variable {environment : Environment R} {deeper : Evaluator R} {trail : List Resolution}
  {scopes : Scopes R} {scope : ScopeId}

/-- An expression without conversions is in normal form when what its names stand for is, by
recursion on the expression. -/
theorem evaluateWith_normal [SignedScalar R] (expr : Expr R)
    (noCast : forall part, part ∈ expr.walk -> part.isCast = false)
    (memory : forall quantity, quantity ∈ scopes.memoryValues scope -> quantity.Normal)
    (names : forall name, .var name ∈ expr.references ->
      YieldsNormal (evaluateVariable environment deeper trail scopes scope name))
    (calls : forall name arguments, .call name arguments ∈ expr.references ->
      YieldsNormal (evaluateCall environment deeper trail scopes scope name arguments.toList)) :
    YieldsNormal (evaluateWith environment deeper trail scopes scope expr) := by
  match expr with
  | .num _ => exact .ok (Quantity.normal_ofScalar _)
  | .var name => exact names name (List.mem_singleton_self _)
  | .call name arguments => exact calls name arguments (List.mem_singleton_self _)
  | .mem => exact Scopes.memoryAt_normal 0 memory
  | .memAt _ => exact .bind fun _ _ => .bind fun index _ => Scopes.memoryAt_normal index memory
  | .func _ _ => exact .bind fun _ _ => Environment.function_normal _ _ _
  | .factorial _ => exact .bind fun _ _ => .ok (normal_factorial _)
  | .sqrt _ => exact .bind fun _ _ => .ok (Quantity.normal_ofScalar _)
  | .root _ _ => exact .bind fun _ _ => .bind fun _ _ => .ok (Quantity.normal_ofScalar _)
  | .abs x =>
      have inner := evaluateWith_normal x
        (fun part inside => noCast part (List.mem_cons_of_mem _ inside)) memory names calls
      exact .bind fun quantity found => .ok (inner quantity found).abs
  | .fraction _ _ => exact .bind fun _ _ => .bind fun _ _ => Registry.combine_normal _ _ _ _
  | .binary _ _ _ => exact .bind fun _ _ => .bind fun _ _ => Environment.binary_normal _ _ _ _
  | .paren x =>
      exact evaluateWith_normal x
        (fun part inside => noCast part (List.mem_cons_of_mem _ inside)) memory names calls
  | .marked mark x =>
      refine .bind fun inner _ => Environment.mark_normal _ _ _ _ fun symbol isCast => ?_
      subst isCast
      cases noCast _ List.mem_cons_self
  | .binding .. | .equation .. | .declaration .. | .target _ => exact .error

/-! ## Scopes in which nothing is converted -/

namespace Scopes

/-- A set of places that lookups do not leave, where nothing that is visible converts and all that
is remembered is in normal form. -/
structure NormalOn (scopes : Scopes R) (places : ScopeId -> Prop) : Prop where
  castFree : forall place, places place -> forall name definedIn bound,
    scopes.lookup? place name = some (definedIn, bound) -> bound.expr.castFree = true
  recorded : forall place, places place -> forall name definedIn bound,
    scopes.lookup? place name = some (definedIn, bound) -> places (bound.scope.getD place)
  memory : forall place, places place ->
    forall quantity, quantity ∈ scopes.memoryValues place -> quantity.Normal

omit [Scalar R] in
/-- There is nothing to find beyond the scopes. -/
theorem chain_beyond {id : ScopeId} (beyond : scopes.length ≤ id) : scopes.chain id = [] := by
  induction scopes with
  | nil => rfl
  | cons _ older inductionHypothesis =>
      rw [chain, if_neg (Nat.ne_of_gt beyond)]
      exact inductionHypothesis (Nat.le_of_succ_le beyond)

variable {definition : FunctionDefinition R} {arguments : List (String × Expr R)}

omit [Scalar R] in
/-- What is found once a call has opened its scope was there before, or the name is looked up in the
new scope: it is a default, an argument, or found around the call. -/
theorem lookup?_opened_cases {place definedIn : ScopeId} {name : String} {bound : BoundExpr R}
    (found : lookup? (openedScope scopes scope definition arguments :: scopes) place name =
      some (definedIn, bound)) :
    (place < scopes.length ∧ scopes.lookup? place name = some (definedIn, bound)) ∨
      (place = scopes.length ∧
        ((bound.scope = none ∧ (name, bound.expr) ∈ definition.defaults) ∨
          (bound.scope = some scope ∧ (name, bound.expr) ∈ arguments) ∨
          scopes.lookup? scope name = some (definedIn, bound))) := by
  rcases Nat.lt_trichotomy place scopes.length with older | same | beyond
  · rw [lookup?_cons_of_lt older] at found
    exact Or.inl ⟨older, found⟩
  · subst same
    refine Or.inr ⟨rfl, ?_⟩
    rcases lookup?_openedScope scopes scope definition arguments name with
      ⟨value, isArgument, here⟩ | ⟨value, isDefault, _, here⟩ | ⟨_, _, here⟩
    · cases here.symm.trans found
      exact Or.inr (Or.inl ⟨rfl, isArgument⟩)
    · cases here.symm.trans found
      exact Or.inl ⟨rfl, isDefault⟩
    · exact Or.inr (Or.inr (here.symm.trans found))
  · rw [lookup?, chain_beyond beyond] at found
    cases found

/-- The new scope of a call may be added: its defaults are evaluated in it, its arguments where the
call stands, and it remembers nothing. -/
theorem NormalOn.opened {places : ScopeId -> Prop} (normal : scopes.NormalOn places)
    (here : places scope)
    (defaults : forall entry, entry ∈ definition.defaults -> entry.2.castFree = true)
    (given : forall entry, entry ∈ arguments -> entry.2.castFree = true) :
    NormalOn (openedScope scopes scope definition arguments :: scopes)
      fun place => places place ∨ place = scopes.length where
  castFree := by
    intro place member name definedIn bound found
    rcases lookup?_opened_cases found with ⟨older, found⟩ |
      ⟨_, ⟨_, isDefault⟩ | ⟨_, isArgument⟩ | found⟩
    · exact normal.castFree place (member.resolve_right (Nat.ne_of_lt older)) _ _ _ found
    · exact defaults _ isDefault
    · exact given _ isArgument
    · exact normal.castFree scope here _ _ _ found
  recorded := by
    intro place member name definedIn bound found
    rcases lookup?_opened_cases found with ⟨older, found⟩ |
      ⟨atCall, ⟨free, _⟩ | ⟨outside, _⟩ | found⟩
    · exact Or.inl
        (normal.recorded place (member.resolve_right (Nat.ne_of_lt older)) _ _ _ found)
    · rw [free]
      exact Or.inr atCall
    · rw [outside]
      exact Or.inl here
    · have around := normal.recorded scope here _ _ _ found
      cases fixed : bound.scope with
      | none => exact Or.inr atCall
      | some further =>
          rw [fixed] at around
          exact Or.inl around
  memory := by
    intro place member quantity remembered
    rcases Nat.lt_trichotomy place scopes.length with older | same | beyond
    · rw [memoryValues, chain_cons_of_lt older] at remembered
      exact normal.memory place (member.resolve_right (Nat.ne_of_lt older)) quantity remembered
    · subst same
      rw [memoryValues, chain_cons_length rfl] at remembered
      exact normal.memory scope here quantity remembered
    · rw [memoryValues, chain_beyond beyond] at remembered
      cases remembered

end Scopes

/-! ## Evaluation -/

/-- A variable is in normal form when what it is bound to is. -/
theorem evaluateVariable_normal {name : String}
    (further : forall definedIn bound, scopes.lookup? scope name = some (definedIn, bound) ->
      YieldsNormal (deeper (.variable definedIn name (bound.scope.getD scope) :: trail) scopes
        (bound.scope.getD scope) bound.expr)) :
    YieldsNormal (evaluateVariable environment deeper trail scopes scope name) := by
  cases notRandom : isRandomName name with
  | true =>
      rw [evaluateVariable, if_pos notRandom]
      exact Environment.random_normal environment name
  | false =>
      cases constant : environment.constants.get? name with
      | some value =>
          rw [evaluateVariable, notRandom, constant]
          exact .ok (Quantity.normal_ofScalar value)
      | none =>
          rw [evaluateVariable_eq constant notRandom]
          split
          · exact .error
          · rename_i found looked
            rw [evaluateBound]
            split
            · exact .error
            · exact further _ _ looked

/-- A call is in normal form when the body of the function is. -/
theorem evaluateCall_normal {name : String} {arguments : List (String × Expr R)}
    (further : forall definition, environment.functions.get? name = some definition ->
      YieldsNormal (deeper (.function name :: trail)
        (openedScope scopes scope definition arguments :: scopes) scopes.length
        definition.body)) :
    YieldsNormal (evaluateCall environment deeper trail scopes scope name arguments) := by
  cases stored : environment.functions.get? name with
  | none =>
      rw [evaluateCall, stored]
      exact .ok (Quantity.normal_ofScalar _)
  | some definition =>
      rw [evaluateCall_eq stored, evaluateBody]
      split
      · exact .error
      · exact further definition stored

/-- Without conversions results are in normal form, by induction on the levels.  What is carried is
a set of places that lookups do not leave; a call adds its new scope to it. -/
theorem evaluateUpTo_normal [SignedScalar R] (functions : CastFreeStore environment.functions)
    (levels : Nat) {trail : List Resolution} {places : ScopeId -> Prop} {expr : Expr R}
    (normal : scopes.NormalOn places) (here : places scope) (free : expr.castFree = true) :
    YieldsNormal (evaluateUpTo environment true levels trail scopes scope expr) := by
  induction levels generalizing trail scopes scope places expr with
  | zero => exact .error
  | succ levels inductionHypothesis =>
      refine evaluateWith_normal expr (fun _ => Expr.not_isCast free) (normal.memory scope here)
        (fun name _ => ?_) fun name arguments met => ?_
      · refine evaluateVariable_normal fun definedIn bound found => ?_
        exact inductionHypothesis normal (normal.recorded scope here _ _ _ found)
          (normal.castFree scope here _ _ _ found)
      · refine evaluateCall_normal fun definition stored => ?_
        rcases functions name definition stored with ⟨body, defaults⟩
        refine inductionHypothesis (normal.opened here defaults fun entry member => ?_)
          (Or.inr rfl) body
        refine List.all_eq_true.mpr fun part inside => ?_
        rw [Expr.not_isCast free (Expr.walk_of_argument met member inside)]
        rfl

/--
Results are normalized.  Let the expression, the stored functions and their defaults be without
conversions, and in every scope that lookups lead to, the bindings that are visible too, and all
remembered results normalized.  Then normalizing a result changes nothing.  Without a unit it is
plain, and with a unit it stands in the bracket of its magnitude, or it is plain and no magnitude
fits.
-/
theorem evaluate_normalized [SignedScalar R] {expr : Expr R} {quantity : Quantity R}
    (functions : CastFreeStore environment.functions)
    (around : forall place, scopes.SeenFrom scope place ->
      (forall name definedIn bound, scopes.lookup? place name = some (definedIn, bound) ->
        bound.expr.castFree = true) ∧
      forall remembered, remembered ∈ scopes.memoryValues place ->
        remembered.normalize = remembered)
    (castFree : expr.castFree = true)
    (value : evaluate environment scopes scope expr = .ok quantity) :
    quantity.normalize = quantity ∧
      (quantity.isDimensionless = true -> quantity.magnitude = .plain) ∧
      (quantity.isDimensionless = false ->
        (quantity.magnitude ≠ .yotta ∧ Magnitude.inBracket quantity.value = true) ∨
          (quantity.magnitude = .plain ∧ Magnitude.NoneFits quantity.value)) := by
  have places : scopes.NormalOn (scopes.SeenFrom scope) :=
    ⟨fun place seen => (around place seen).1, fun _ seen _ _ _ found => seen.lookup found,
      fun place seen => (around place seen).2⟩
  rw [evaluate, evaluateWithin_eq] at value
  have normal : quantity.Normal :=
    evaluateUpTo_normal functions _ places .here castFree quantity value
  refine ⟨normal, normal.shape.1, fun hasUnit => ?_⟩
  refine (normal.shape.2 hasUnit).imp_left fun stands => ?_
  simpa [Quantity.stands] using stands

omit [Scalar R] in
/-- A view of a result is the view of a quantity. -/
theorem ok_of_toOption_map {α : Type} {outcome : Except Failure (Quantity R)}
    {view : Quantity R -> α} {seen : α} (shown : outcome.toOption.map view = some seen) :
    ∃ quantity, outcome = .ok quantity ∧ view quantity = seen := by
  cases outcome with
  | ok quantity => exact ⟨quantity, rfl, Option.some.inj shown⟩
  | error _ => cases shown

/-- The unit of volts. -/
def volts : UnitOfMeasure :=
  ⟨⟨"electric", "V"⟩, 0⟩

/-- A registry with one unit. -/
def voltRegistry : Registry Float :=
  ((Registry.empty.defineUnit "electric" "V" "volt").toOption.map Prod.snd).getD .empty

/-- A program with the function `swing`, which is `|load*times|`, where `times` is `-2` by
default. -/
def circuit : Environment Float :=
  { Environment.initial voltRegistry with
    functions := [("swing", ⟨.abs (.binary .multiply (.var "load") (.var "times")),
      [("times", .num (-2))]⟩)] }

/-- A scope and its parent: the inner one binds `load` to `mem+offset`, to be evaluated in the outer
one, which binds `offset` to `400[V]` and remembers `1.5[kV]`. -/
def circuitScopes : Scopes Float :=
  [⟨some 0, none, [("load", ⟨.binary .add .mem (.var "offset"), some 0⟩)], [], ["electric"]⟩,
    ⟨none, none, [("offset", ⟨.marked (.apply "V") (.num 400), none⟩)], [⟨1.5, volts, .kilo⟩],
      ["electric"]⟩]

/-- The call `$swing` gives `3.8[kV]`. -/
theorem evaluate_normalized_swing :
    ∃ quantity, evaluate circuit circuitScopes 1 (.call "swing" .nil) = .ok quantity ∧
      quantity.unit = volts ∧ quantity.magnitude = .kilo ∧ quantity.normalize = quantity := by
  have functions : CastFreeStore circuit.functions := by
    intro name definition stored
    cases List.mem_singleton.mp (Table.mem_of_get? stored)
    exact ⟨rfl, fun entry member => List.mem_singleton.mp member ▸ rfl⟩
  have bindings : forall held, held ∈ circuitScopes ->
      forall binding, binding ∈ held.bindings -> binding.2.expr.castFree = true := by
    simp [circuitScopes, Expr.castFree, Expr.walk, Expr.isCast]
  have memory : forall held, held ∈ circuitScopes ->
      forall remembered, remembered ∈ held.memory -> remembered.normalize = remembered := by
    have stands : Quantity.stands (⟨1.5, volts, .kilo⟩ : Quantity Float) = true := by
      decide
    simpa [circuitScopes] using Quantity.normalize_standing rfl stands
  have shown : (evaluate circuit circuitScopes 1 (.call "swing" .nil)).toOption.map
      (fun quantity => (quantity.unit, quantity.magnitude)) = some (volts, .kilo) := by
    decide +kernel
  rcases ok_of_toOption_map shown with ⟨quantity, value, unitAndMagnitude⟩
  refine ⟨quantity, value, congrArg Prod.fst unitAndMagnitude, congrArg Prod.snd unitAndMagnitude,
    (evaluate_normalized functions ?_ rfl value).1⟩
  intro place _
  constructor
  · intro name definedIn bound found
    rcases Scopes.lookup?_mem found with ⟨held, member, binding⟩
    exact bindings held member _ binding
  · intro remembered member
    rcases List.mem_flatMap.mp member with ⟨entry, inChain, held⟩
    exact memory entry.2 (Scopes.of_mem_chain inChain).2 remembered held

/-- A scope and its parent: the inner one hides the `y` of the outer one, but its `x` is `y`, to be
evaluated in the outer one. -/
def hiddenConversion : Scopes Float :=
  [⟨some 0, none, [("y", ⟨.num 1, none⟩), ("x", ⟨.var "y", some 0⟩)], [], ["electric"]⟩,
    ⟨none, none, [("y", ⟨.marked (.cast "V") (.num 2000), none⟩)], [], ["electric"]⟩]

/-- It is not enough that the bindings visible where the evaluation starts convert nothing: here
nothing visible does, nothing is remembered or stored, and `x` gives `2000[V]`. -/
theorem hidden_conversion_not_normalized :
    CastFreeStore (Environment.initial voltRegistry).functions ∧
      (forall entry, entry ∈ hiddenConversion.visible 1 -> entry.2.expr.castFree = true) ∧
      hiddenConversion.memoryValues 1 = [] ∧ Expr.castFree (.var "x" : Expr Float) = true ∧
      ∃ quantity,
        evaluate (Environment.initial voltRegistry) hiddenConversion 1 (.var "x") = .ok quantity ∧
          quantity.normalize ≠ quantity := by
  refine ⟨nofun, ?_, rfl, rfl, ?_⟩
  · simp [hiddenConversion, Scopes.visible, Scopes.chain, Table.update, Table.set, Expr.castFree,
      Expr.walk, Expr.isCast]
  · have shown : (evaluate (Environment.initial voltRegistry) hiddenConversion 1
        (.var "x")).toOption.map (fun quantity =>
          (quantity.magnitude, quantity.normalize.magnitude)) = some (.plain, .kilo) := by
      decide
    rcases ok_of_toOption_map shown with ⟨quantity, value, magnitudes⟩
    refine ⟨quantity, value, fun normal => ?_⟩
    rw [normal] at magnitudes
    have same := (congrArg Prod.fst magnitudes).symm.trans (congrArg Prod.snd magnitudes)
    exact absurd same (by decide)

end QuantityCalculus
