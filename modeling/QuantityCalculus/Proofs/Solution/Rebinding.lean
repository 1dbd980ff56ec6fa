import QuantityCalculus.Proofs.Arithmetic.Rationals
import QuantityCalculus.Proofs.Solution.Inversion
import QuantityCalculus.Report

namespace QuantityCalculus

/-!
# Solutions with the substitute bound anew

A solution is used by binding the substitute to the value of the expression and evaluating
the solution in place of the target.  The inversion alone does not make this right: it
relates an expression and its solution in one context, and the new binding makes another.

The operands that stand beside the way to the target are copied into the solution.  Where
they mention the substitute, they change with its binding.  So the solution gives the
target back when the expression does not mention the substitute; and in general exactly
when the expression keeps its value under the new binding.  Nothing refuses a substitute
that the expression mentions: the solution of `y = x + y` for `x` is `y - y`.
-/

/-! ## Arithmetic expressions -/

section

variable {R : Type}

/-- The four operators of arithmetic. -/
def Operator.isArithmetic : Operator -> Bool
  | .add | .subtract | .multiply | .divide => true
  | .modulus | .power => false

/-- Numbers and variables of some kind, under the four operators, fractions and parentheses. -/
def Expr.IsArithmeticIn (allowed : String -> Prop) : Expr R -> Prop
  | .num _ => True
  | .var name => allowed name
  | .paren x => x.IsArithmeticIn allowed
  | .fraction x y => x.IsArithmeticIn allowed ∧ y.IsArithmeticIn allowed
  | .binary op x y =>
      op.isArithmetic = true ∧ x.IsArithmeticIn allowed ∧ y.IsArithmeticIn allowed
  | _ => False

/-- An expression without calls, functions, powers, memory and units. -/
def Expr.IsArithmetic (expr : Expr R) : Prop :=
  expr.IsArithmeticIn fun _ => True

theorem Expr.isArithmeticIn_paren {allowed : String -> Prop} {x : Expr R} :
    (Expr.paren x).IsArithmeticIn allowed <-> x.IsArithmeticIn allowed :=
  Iff.rfl

theorem Expr.IsArithmeticIn.mono {fewer more : String -> Prop}
    (allowed : forall name, fewer name -> more name) {expr : Expr R}
    (arithmetic : expr.IsArithmeticIn fewer) : expr.IsArithmeticIn more := by
  match expr, arithmetic with
  | .num _, _ => trivial
  | .var name, here => exact allowed name here
  | .paren x, inner => exact (isArithmeticIn_paren.mp inner).mono allowed
  | .fraction x y, ⟨first, second⟩ => exact ⟨first.mono allowed, second.mono allowed⟩
  | .binary op x y, ⟨fits, first, second⟩ =>
      exact ⟨fits, first.mono allowed, second.mono allowed⟩

theorem Expr.occurrences_paren (name : String) (x : Expr R) :
    (Expr.paren x).occurrences name = x.occurrences name :=
  Expr.occurrences_cons name _ x.walk rfl rfl

theorem Expr.occurrences_fraction (name : String) (x y : Expr R) :
    (Expr.fraction x y).occurrences name = x.occurrences name + y.occurrences name :=
  (Expr.occurrences_cons name _ (x.walk ++ y.walk) rfl rfl).trans List.countP_append

theorem Expr.occurrences_binary (name : String) (op : Operator) (x y : Expr R) :
    (Expr.binary op x y).occurrences name = x.occurrences name + y.occurrences name :=
  (Expr.occurrences_cons name _ (x.walk ++ y.walk) rfl rfl).trans List.countP_append

/-- The variables of an expression are those that occur in it. -/
theorem Expr.IsArithmeticIn.occurring {allowed : String -> Prop} {expr : Expr R}
    (arithmetic : expr.IsArithmeticIn allowed) :
    expr.IsArithmeticIn fun name => 0 < expr.occurrences name := by
  match expr, arithmetic with
  | .num _, _ => trivial
  | .var name, _ =>
      show 0 < (Expr.var name : Expr R).occurrences name
      simp [Expr.occurrences, Expr.walk, Expr.isVar]
  | .paren x, inner =>
      simp only [Expr.occurrences_paren]
      exact (isArithmeticIn_paren.mp inner).occurring
  | .fraction x y, ⟨first, second⟩ =>
      simp only [Expr.occurrences_fraction]
      exact ⟨first.occurring.mono fun _ occurs => Nat.add_pos_left occurs _,
        second.occurring.mono fun _ => Nat.add_pos_right _⟩
  | .binary op x y, ⟨fits, first, second⟩ =>
      simp only [Expr.occurrences_binary]
      exact ⟨fits, first.occurring.mono fun _ occurs => Nat.add_pos_left occurs _,
        second.occurring.mono fun _ => Nat.add_pos_right _⟩

/-- A variable that occurs is one that is allowed. -/
theorem Expr.IsArithmeticIn.of_occurs {allowed : String -> Prop} {expr : Expr R} {name : String}
    (arithmetic : expr.IsArithmeticIn allowed) (occurs : 0 < expr.occurrences name) :
    allowed name := by
  match expr, arithmetic with
  | .num _, _ => cases occurs
  | .var other, here =>
      by_cases same : other = name
      · exact same ▸ here
      · simp [Expr.occurrences, Expr.walk, Expr.isVar, same] at occurs
  | .paren x, inner =>
      rw [Expr.occurrences_paren] at occurs
      exact (isArithmeticIn_paren.mp inner).of_occurs occurs
  | .fraction x y, ⟨first, second⟩ =>
      rw [Expr.occurrences_fraction] at occurs
      exact (Nat.add_pos_iff_pos_or_pos.mp occurs).elim first.of_occurs second.of_occurs
  | .binary op x y, ⟨_, first, second⟩ =>
      rw [Expr.occurrences_binary] at occurs
      exact (Nat.add_pos_iff_pos_or_pos.mp occurs).elim first.of_occurs second.of_occurs

/-! ## Undoing stays within arithmetic -/

theorem Expr.IsArithmeticIn.child {allowed : String -> Prop} {parent child : Expr R}
    {slot : Slot} (arithmetic : parent.IsArithmeticIn allowed)
    (member : (slot, child) ∈ parent.children) : child.IsArithmeticIn allowed := by
  match parent, arithmetic with
  | .num _, _ => cases member
  | .var _, _ => cases member
  | .paren x, inner =>
      cases List.mem_singleton.mp member
      exact inner
  | .fraction x y, ⟨first, second⟩ =>
      rcases mem_two_children.mp member with ⟨_, rfl⟩ | ⟨_, rfl⟩
      · exact first
      · exact second
  | .binary op x y, ⟨_, first, second⟩ =>
      rcases mem_two_children.mp member with ⟨_, rfl⟩ | ⟨_, rfl⟩
      · exact first
      · exact second

theorem Expr.IsArithmeticIn.lifted {allowed : String -> Prop} {expr : Expr R}
    (arithmetic : expr.IsArithmeticIn allowed) :
    (QuantityCalculus.lifted expr).IsArithmeticIn allowed := by
  unfold QuantityCalculus.lifted
  split <;> exact arithmetic

theorem Expr.IsArithmeticIn.undoFactor {allowed : String -> Prop} {current other : Expr R}
    (arithmetic : current.IsArithmeticIn allowed) (factor : other.IsArithmeticIn allowed) :
    (QuantityCalculus.undoFactor current other).IsArithmeticIn allowed := by
  unfold QuantityCalculus.undoFactor
  split
  · rename_i x y quotient
    have operands : x.IsArithmeticIn allowed ∧ y.IsArithmeticIn allowed := by
      rcases quotient?_eq_some quotient with rfl | rfl
      · exact factor
      · exact factor.2
    exact ⟨rfl, ⟨rfl, arithmetic, operands.1.lifted⟩, operands.2.lifted⟩
  · exact ⟨rfl, arithmetic, factor⟩

variable [Scalar R]

theorem Expr.IsArithmeticIn.undoStep {allowed : String -> Prop} {parent current next : Expr R}
    {slot : Slot} (arithmetic : parent.IsArithmeticIn allowed)
    (here : current.IsArithmeticIn allowed)
    (undone : QuantityCalculus.undoStep (parent, slot) current = .ok next) :
    next.IsArithmeticIn allowed := by
  match parent, arithmetic with
  | .num _, _ => cases undone
  | .var _, _ => cases undone
  | .paren x, _ =>
      cases undone
      exact here
  | .fraction x y, ⟨above, below⟩ =>
      rw [QuantityCalculus.undoStep] at undone
      split at undone
      · cases undone
        exact ⟨rfl, here, below.lifted⟩
      · cases undone
        exact ⟨rfl, above.lifted, here⟩
  | .binary op x y, ⟨fits, left, right⟩ =>
      rw [QuantityCalculus.undoStep] at undone
      split at undone
      · cases op with
        | add | subtract | divide =>
            cases undone
            exact ⟨rfl, here, right⟩
        | multiply =>
            cases undone
            exact here.undoFactor right
        | modulus | power => cases fits
      · cases op with
        | add =>
            cases undone
            exact ⟨rfl, here, left⟩
        | subtract | divide =>
            cases undone
            exact ⟨rfl, left, here⟩
        | multiply =>
            cases undone
            exact here.undoFactor left
        | modulus | power => cases fits

theorem Expr.IsArithmeticIn.undoPath {allowed : String -> Prop} {target : String}
    {path : List (PathStep R)} {expr current solved : Expr R}
    (arithmetic : expr.IsArithmeticIn allowed) (here : current.IsArithmeticIn allowed)
    (found : expr.pathTo? target = some path)
    (undone : QuantityCalculus.undoPath path current = .ok solved) :
    solved.IsArithmeticIn allowed := by
  induction path generalizing expr current with
  | nil =>
      cases undone
      exact here
  | cons step rest inductionHypothesis =>
      rcases Expr.of_pathTo?_cons found with ⟨slot, child, rfl, member, inner⟩
      rcases bind_eq_ok.mp undone with ⟨next, first, later⟩
      exact inductionHypothesis (arithmetic.child member) (arithmetic.undoStep here first) inner
        later

/-- A solution is made of the substitute and the variables of the expression. -/
theorem Expr.IsArithmeticIn.solve {allowed : String -> Prop} {expr solved : Expr R}
    {target substitute : String} (arithmetic : expr.IsArithmeticIn allowed)
    (isAllowed : allowed substitute)
    (solving : QuantityCalculus.solve expr target substitute = .ok solved) :
    solved.IsArithmeticIn allowed := by
  rcases solve_eq_ok.mp solving with ⟨path, found, undone⟩
  have here : (Expr.var substitute : Expr R).IsArithmeticIn allowed := isAllowed
  exact arithmetic.undoPath here found undone

end

/-! ## Variables under an assignment -/

section

variable {K : Type} [Scalar K] {environment : Environment K}

/-- A variable under an assignment is random, a constant, or assigned. -/
theorem evaluate_var_assignment (values : Table K) (name : String) :
    evaluate environment (assignment values) 0 (.var name) =
      if isRandomName name then environment.random name
      else match environment.constants.get? name with
        | some value => .ok (Quantity.ofScalar value)
        | none => match values.get? name with
            | some value => .ok (Quantity.ofScalar value)
            | none => .error (.unknownVariable name) := by
  have bound : Table.get? name (values.map fun entry =>
      (entry.1, (⟨.num entry.2, none⟩ : BoundExpr K))) =
        (values.get? name).map fun value => ⟨.num value, none⟩ := by
    induction values with
    | nil => rfl
    | cons entry rest inductionHypothesis =>
        rw [Table.get?, List.map_cons, Table.get?]
        split
        · rfl
        · exact inductionHypothesis
  have visible : (assignment values).lookup? 0 name =
      (values.get? name).map fun value => (0, ⟨.num value, none⟩) := by
    cases assigned : values.get? name <;>
      simp [Scopes.lookup?, Scopes.chain, assignment, Scopes.lookupIn?, bound, assigned]
  show evaluateVariable environment (evaluateWithin environment 63) [] (assignment values) 0 name =
    _
  unfold evaluateVariable Scopes.lookup
  rw [visible]
  cases values.get? name <;> rfl

omit [Scalar K] in
/-- A random number has no unit. -/
theorem ofScalar_of_random {name : String} {quantity : Quantity K}
    (drawn : environment.random name = .ok quantity) :
    ∃ number, quantity = Quantity.ofScalar number := by
  unfold Environment.random at drawn
  split at drawn
  · exact ⟨_, (Except.ok.inj drawn).symm⟩
  · split at drawn
    · exact ⟨_, (Except.ok.inj drawn).symm⟩
    · cases drawn

/-- What a variable evaluates to under an assignment is a number without a unit. -/
theorem HasValue.isNumber_var {values : Table K} {name : String} {value : K}
    (defined : HasValue environment (assignment values) 0 (.var name) value) :
    IsNumber environment (assignment values) 0 (.var name) value := by
  rcases defined with ⟨quantity, evaluated, rfl⟩
  have isScalar : ∃ number, quantity = Quantity.ofScalar number := by
    rw [evaluate_var_assignment] at evaluated
    split at evaluated
    · exact ofScalar_of_random evaluated
    · split at evaluated
      · exact ⟨_, (Except.ok.inj evaluated).symm⟩
      · split at evaluated
        · exact ⟨_, (Except.ok.inj evaluated).symm⟩
        · cases evaluated
  rcases isScalar with ⟨number, rfl⟩
  rw [Quantity.base_ofScalar]
  exact evaluated

end

/-! ## Expressions under an assignment -/

section

variable {K : Type} [Scalar K] {environment : Environment K} {scopes others : Scopes K}
  {scope place : ScopeId}

/-- A variable is the same number in two contexts. -/
def SameNumber (environment : Environment K) (scopes : Scopes K) (scope : ScopeId)
    (others : Scopes K) (place : ScopeId) (name : String) : Prop :=
  ∃ value, IsNumber environment scopes scope (.var name) value ∧
    IsNumber environment others place (.var name) value

/-- Where its variables are the same numbers in two contexts, so is an arithmetic expression. -/
theorem Expr.IsArithmeticIn.sameNumber {expr : Expr K}
    (arithmetic : expr.IsArithmeticIn (SameNumber environment scopes scope others place)) :
    ∃ value, IsNumber environment scopes scope expr value ∧
      IsNumber environment others place expr value := by
  match expr, arithmetic with
  | .num value, _ => exact ⟨value, isNumber_num value, isNumber_num value⟩
  | .var name, same => exact same
  | .paren x, inner => exact (Expr.isArithmeticIn_paren.mp inner).sameNumber
  | .fraction x y, ⟨first, second⟩ =>
      rcases first.sameNumber with ⟨above, one, other⟩
      rcases second.sameNumber with ⟨below, below_one, below_other⟩
      exact ⟨_, one.fraction below_one, other.fraction below_other⟩
  | .binary op x y, ⟨_, first, second⟩ =>
      rcases first.sameNumber with ⟨left, one, other⟩
      rcases second.sameNumber with ⟨right, right_one, right_other⟩
      exact ⟨_, one.binary op right_one, other.binary op right_other⟩

variable [Field K] [ExactScalar K]

/-- The variables of an arithmetic expression that has a value have values. -/
theorem Expr.IsArithmeticIn.variables {allowed : String -> Prop} {expr : Expr K} {value : K}
    (coherent : environment.registry.Coherent) (arithmetic : expr.IsArithmeticIn allowed)
    (defined : HasValue environment scopes scope expr value) :
    expr.IsArithmeticIn fun name => allowed name ∧
      ∃ number, HasValue environment scopes scope (.var name) number := by
  match expr, arithmetic with
  | .num _, _ => trivial
  | .var name, here => exact ⟨here, value, defined⟩
  | .paren x, inner =>
      refine Expr.isArithmeticIn_paren.mpr ?_
      exact (Expr.isArithmeticIn_paren.mp inner).variables coherent (hasValue_paren.mp defined)
  | .fraction x y, ⟨first, second⟩ =>
      rcases defined.fraction coherent with ⟨_, _, above, below, _⟩
      exact ⟨first.variables coherent above, second.variables coherent below⟩
  | .binary op x y, ⟨fits, first, second⟩ =>
      rcases defined.binary coherent with ⟨_, _, left, right, _⟩
      exact ⟨fits, first.variables coherent left, second.variables coherent right⟩

omit [ExactScalar K] in
/-- Divisions that are safe in one context are safe where all variables are the same. -/
theorem Expr.IsArithmeticIn.dividesSafely {expr : Expr K}
    (arithmetic : expr.IsArithmeticIn (SameNumber environment scopes scope others place))
    (safe : expr.DividesSafely (HasValue environment scopes scope)) :
    expr.DividesSafely (HasValue environment others place) := by
  have nonzero : forall {divisor : Expr K},
      divisor.IsArithmeticIn (SameNumber environment scopes scope others place) ->
      ¬ HasValue environment scopes scope divisor 0 ->
      ¬ HasValue environment others place divisor 0 := by
    intro divisor same nonzero zero
    rcases same.sameNumber with ⟨value, one, other⟩
    cases other.hasValue.unique zero
    exact nonzero one.hasValue
  match expr, arithmetic, safe with
  | .num _, _, _ => trivial
  | .var _, _, _ => trivial
  | .paren x, inner, safe => exact (Expr.isArithmeticIn_paren.mp inner).dividesSafely safe
  | .fraction x y, ⟨first, second⟩, ⟨firstSafe, secondSafe, divisor⟩ =>
      exact ⟨first.dividesSafely firstSafe, second.dividesSafely secondSafe,
        nonzero second divisor⟩
  | .binary op x y, ⟨_, first, second⟩, ⟨firstSafe, secondSafe, divisor⟩ =>
      exact ⟨first.dividesSafely firstSafe, second.dividesSafely secondSafe,
        fun divides => nonzero second (divisor divides)⟩

omit [Field K] [ExactScalar K] in
/-- On a way through arithmetic alone nothing else has to be inverted. -/
theorem Expr.IsArithmeticIn.pairsInvert {allowed : String -> Prop} {target : String}
    {path : List (PathStep K)} {expr : Expr K} (arithmetic : expr.IsArithmeticIn allowed)
    (found : expr.pathTo? target = some path) (meaning : Expr K -> K -> Prop) (mode : AngleMode)
    (current : Expr K) : PairsInvert meaning mode path current := by
  induction path generalizing expr current with
  | nil => trivial
  | cons step rest inductionHypothesis =>
      rcases Expr.of_pathTo?_cons found with ⟨slot, child, rfl, member, inner⟩
      refine ⟨fun _ _ _ _ _ _ => ?_, fun next _ =>
        inductionHypothesis (arithmetic.child member) inner next⟩
      match expr, arithmetic with
      | .paren _, _ => trivial
      | .fraction _ _, _ => trivial
      | .binary op _ _, ⟨fits, _, _⟩ =>
          cases op with
          | power | modulus => cases fits
          | _ => trivial

end

/-! ## The new binding -/

section

variable {K : Type} [Scalar K]

/-- The substitute is bound to the value that it stands for. -/
def rebound (values : Table K) (substitute : String) (value : K) : Scopes K :=
  assignment (values.set substitute value)

/-- An expression has a value, to which the substitute of its solution can be bound anew, and then
the solution has no divisor of value zero. -/
structure Rebinds [Field K] (environment : Environment K) (values : Table K)
    (expr solved : Expr K) (substitute : String) (value : K) : Prop where
  coherent : environment.registry.Coherent
  notRandom : isRandomName substitute = false
  notConstant : environment.constants.get? substitute = none
  defined : HasValue environment (assignment values) 0 expr value
  divides : solved.DividesSafely (HasValue environment (rebound values substitute value) 0)

variable [Field K] [ExactScalar K] {environment : Environment K} {values : Table K}
  {expr solved : Expr K} {target substitute : String} {value original : K}

omit [Field K] [ExactScalar K] in
/-- The new binding leaves all other variables alone. -/
theorem isNumber_var_rebound {name : String} {number : K} (different : name ≠ substitute) :
    IsNumber environment (rebound values substitute value) 0 (.var name) number <->
      IsNumber environment (assignment values) 0 (.var name) number := by
  rw [IsNumber, IsNumber, rebound, evaluate_var_assignment, evaluate_var_assignment,
    Table.get?_set, if_neg different.symm]

omit [ExactScalar K] in
theorem Rebinds.bound (rebinds : Rebinds environment values expr solved substitute value) :
    IsNumber environment (rebound values substitute value) 0 (.var substitute) value :=
  isNumber_var_assignment rebinds.notRandom rebinds.notConstant
    (by rw [Table.get?_set, if_pos rfl])

/-- The variables of the expression have values and keep them, but for the substitute. -/
theorem Rebinds.kept (rebinds : Rebinds environment values expr solved substitute value)
    (arithmetic : expr.IsArithmetic) :
    expr.IsArithmeticIn fun name => 0 < expr.occurrences name ∧
      (∃ number, HasValue environment (assignment values) 0 (.var name) number) ∧
      (name ≠ substitute -> SameNumber environment (assignment values) 0
        (rebound values substitute value) 0 name) := by
  have occurring : expr.IsArithmeticIn fun name => 0 < expr.occurrences name :=
    Expr.IsArithmeticIn.occurring arithmetic
  refine (occurring.variables rebinds.coherent rebinds.defined).mono ?_
  rintro name ⟨occurs, number, hasValue⟩
  exact ⟨occurs, ⟨number, hasValue⟩, fun different =>
    ⟨number, hasValue.isNumber_var, (isNumber_var_rebound different).mpr hasValue.isNumber_var⟩⟩

/-- Under the new binding, the expression and its solution are made of numbers. -/
theorem Rebinds.numbers (rebinds : Rebinds environment values expr solved substitute value)
    (arithmetic : expr.IsArithmetic) :
    expr.IsArithmeticIn (SameNumber environment (rebound values substitute value) 0
      (rebound values substitute value) 0) := by
  refine (rebinds.kept arithmetic).mono ?_
  rintro name ⟨_, _, kept⟩
  by_cases same : name = substitute
  · rw [same]
    exact ⟨value, rebinds.bound, rebinds.bound⟩
  · rcases kept same with ⟨number, _, there⟩
    exact ⟨number, there, there⟩

/-- The solution gives the target back exactly when the expression keeps its value. -/
theorem Rebinds.solved_iff (rebinds : Rebinds environment values expr solved substitute value)
    (solving : solve expr target substitute = .ok solved) (different : substitute ≠ target)
    (arithmetic : expr.IsArithmetic)
    (safe : expr.DividesSafely (HasValue environment (rebound values substitute value) 0))
    (targetValue : HasValue environment (assignment values) 0 (.var target) original) :
    HasValue environment (rebound values substitute value) 0 solved original <->
      HasValue environment (rebound values substitute value) 0 expr value := by
  have targetKept :
      HasValue environment (rebound values substitute value) 0 (.var target) original :=
    ((isNumber_var_rebound different.symm).mpr targetValue.isNumber_var).hasValue
  have numbers := rebinds.numbers arithmetic
  rcases numbers.sameNumber with ⟨exprValue, exprNumber, _⟩
  rcases (numbers.solve ⟨value, rebinds.bound, rebinds.bound⟩ solving).sameNumber with
    ⟨solvedValue, solvedNumber, _⟩
  have solvable : ExactlySolvable environment (rebound values substitute value) 0 expr target
      substitute solved :=
    { expr_defined := ⟨exprValue, exprNumber.hasValue⟩
      solved_defined := ⟨solvedValue, solvedNumber.hasValue⟩
      expr_divides := safe
      solved_divides := rebinds.divides
      pairs_invert := fun _ found => arithmetic.pairsInvert found _ _ _ }
  have inverts := solve_inverts rebinds.coherent solving solvable
  constructor
  · intro solvedHas
    rcases inverts.mpr ⟨original, targetKept, solvedHas⟩ with ⟨common, one, other⟩
    cases one.unique rebinds.bound.hasValue
    exact other
  · intro exprHas
    rcases inverts.mp ⟨value, rebinds.bound.hasValue, exprHas⟩ with ⟨common, one, other⟩
    cases one.unique targetKept
    exact other

/-- The solution gives the target back when the expression does not mention the substitute. -/
theorem Rebinds.solved_of_fresh (rebinds : Rebinds environment values expr solved substitute value)
    (solving : solve expr target substitute = .ok solved) (different : substitute ≠ target)
    (arithmetic : expr.IsArithmetic) (fresh : expr.occurrences substitute = 0)
    (safe : expr.DividesSafely (HasValue environment (assignment values) 0))
    (targetValue : HasValue environment (assignment values) 0 (.var target) original) :
    HasValue environment (rebound values substitute value) 0 solved original := by
  have kept : expr.IsArithmeticIn (SameNumber environment (assignment values) 0
      (rebound values substitute value) 0) := by
    refine (rebinds.kept arithmetic).mono ?_
    rintro name ⟨occurs, _, kept⟩
    refine kept fun same => ?_
    rw [same, fresh] at occurs
    exact Nat.lt_irrefl 0 occurs
  rcases kept.sameNumber with ⟨number, here, there⟩
  cases here.hasValue.unique rebinds.defined
  exact (rebinds.solved_iff solving different arithmetic (kept.dividesSafely safe)
    targetValue).mpr there.hasValue

omit [Field K] [ExactScalar K] in
/-- A request is accepted whatever the substitute is. -/
theorem reportSolve_accepts (places : Nat)
    (verify : Expr K -> String -> String -> Expr K -> Option Bool) {source : String}
    (parsed : Source.parseExpression source = .ok expr) (once : expr.occurrences target = 1)
    (solving : solve expr target substitute = .ok solved) :
    reportSolve places verify source target substitute =
      .ok ⟨target, solved.write .plain places, solved.write .markup places,
        verify expr target substitute solved⟩ := by
  rcases checkSolvable_ok_iff.mpr once with ⟨checked, solvable⟩
  refine (bind_eq_of_ok parsed).trans ?_
  exact (bind_eq_of_ok solvable).trans (bind_eq_of_ok solving)

/--
An accepted request for isolating a variable in an arithmetic expression: where the
expression has a value, the solution, with the substitute bound to that value, gives the
target back if the expression does not mention the substitute, and in general exactly if
the expression still has that value.
-/
theorem solve_gives_target_back {places : Nat}
    {verify : Expr K -> String -> String -> Expr K -> Option Bool} {source : String}
    {report : SolveReport} (different : substitute ≠ target)
    (accepted : reportSolve places verify source target substitute = .ok report) :
    ∃ expr solved : Expr K, Source.parseExpression source = .ok expr ∧
      solve expr target substitute = .ok solved ∧
      report.expression = solved.write .plain places ∧
      (expr.IsArithmetic ->
        forall (environment : Environment K) (values : Table K) (value : K),
          Rebinds environment values expr solved substitute value ->
            ∃ original, HasValue environment (assignment values) 0 (.var target) original ∧
              (expr.occurrences substitute = 0 ->
                expr.DividesSafely (HasValue environment (assignment values) 0) ->
                HasValue environment (rebound values substitute value) 0 solved original) ∧
              (expr.DividesSafely (HasValue environment (rebound values substitute value) 0) ->
                (HasValue environment (rebound values substitute value) 0 solved original <->
                  HasValue environment (rebound values substitute value) 0 expr value))) := by
  rcases bind_eq_ok.mp accepted with ⟨expr, parsed, accepted⟩
  rcases bind_eq_ok.mp accepted with ⟨checked, solvable, accepted⟩
  rcases bind_eq_ok.mp accepted with ⟨solved, solving, accepted⟩
  cases accepted
  have once : expr.occurrences target = 1 := checkSolvable_ok_iff.mp ⟨checked, solvable⟩
  refine ⟨expr, solved, parsed, solving, rfl, ?_⟩
  intro arithmetic environment values value rebinds
  rcases ((rebinds.kept arithmetic).of_occurs (once ▸ Nat.one_pos)).2.1 with
    ⟨original, targetValue⟩
  exact ⟨original, targetValue,
    fun fresh safe => rebinds.solved_of_fresh solving different arithmetic fresh safe targetValue,
    fun safe => rebinds.solved_iff solving different arithmetic safe targetValue⟩

end

/-! ## A quotient, and a sum that mentions its substitute -/

/-- The expression `6/(x-z)`. -/
def quotientOfDifference : Expr ℚ :=
  .binary .divide (.num 6) (.paren (.binary .subtract (.var "x") (.var "z")))

/-- Its solution `6/y+z` for `x`. -/
def quotientOfDifferenceSolved : Expr ℚ :=
  .binary .add (.binary .divide (.num 6) (.var "y")) (.var "z")

/-- Values of `x` and `z` at which the quotient is three. -/
def quotientPoint : Table ℚ := [("x", 3), ("z", 1)]

theorem quotientPoint_x :
    IsNumber (Environment.initial Registry.empty) (assignment quotientPoint) 0 (.var "x") 3 :=
  isNumber_var_assignment rfl rfl rfl

theorem quotientPoint_difference :
    IsNumber (Environment.initial Registry.empty) (assignment quotientPoint) 0
      (.paren (.binary .subtract (.var "x") (.var "z"))) 2 := by
  have z : IsNumber (Environment.initial Registry.empty) (assignment quotientPoint) 0
      (.var "z") 1 := isNumber_var_assignment rfl rfl rfl
  have two : Operator.apply .subtract 3 1 = (2 : ℚ) := by decide +kernel
  exact two ▸ IsNumber.binary .subtract quotientPoint_x z

theorem quotientOfDifference_rebinds :
    Rebinds (Environment.initial Registry.empty) quotientPoint quotientOfDifference
      quotientOfDifferenceSolved "y" 3 where
  coherent := Registry.empty_coherent
  notRandom := rfl
  notConstant := rfl
  defined := by
    have three : Operator.apply .divide 6 2 = (3 : ℚ) := by decide +kernel
    exact three ▸ ((isNumber_num 6).binary .divide quotientPoint_difference).hasValue
  divides := by
    have three : IsNumber (Environment.initial Registry.empty) (rebound quotientPoint "y" 3) 0
        (.var "y") 3 := isNumber_var_assignment rfl rfl rfl
    exact ⟨⟨trivial, trivial, fun _ zero => absurd (three.hasValue.unique zero) (by decide)⟩,
      trivial, nofun⟩

theorem solve_gives_target_back_quotient :
    ∃ report, reportSolve 15 (fun (_ : Expr ℚ) _ _ _ => none) "6/(x-z)" "x" "y" = .ok report ∧
      report.expression = "6/y+z" ∧
      HasValue (Environment.initial Registry.empty) (rebound quotientPoint "y" 3) 0
        quotientOfDifferenceSolved 3 := by
  have parsed : Source.parseExpression "6/(x-z)" = .ok quotientOfDifference :=
    eq_ok_of_toOption (by decide +kernel)
  have solving : solve quotientOfDifference "x" "y" = .ok quotientOfDifferenceSolved := rfl
  have accepted := reportSolve_accepts 15 (fun _ _ _ _ => none) parsed rfl solving
  have written : quotientOfDifferenceSolved.write .plain 15 = "6/y+z" := by decide +kernel
  refine ⟨_, accepted, written, ?_⟩
  rcases solve_gives_target_back (by decide) accepted with
    ⟨expr, solved, parsedAgain, solvingAgain, _, givesBack⟩
  cases parsed.symm.trans parsedAgain
  cases solving.symm.trans solvingAgain
  rcases givesBack ⟨rfl, trivial, rfl, trivial, trivial⟩ _ _ _ quotientOfDifference_rebinds with
    ⟨original, targetValue, givenBack, _⟩
  cases targetValue.unique quotientPoint_x.hasValue
  refine givenBack rfl ⟨trivial, ⟨trivial, trivial, nofun⟩, fun _ zero => ?_⟩
  exact absurd (quotientPoint_difference.hasValue.unique zero) (by decide)

/-- The expression `x+y`, and what comes out when it is solved for `x` through `y`. -/
def sumWithSubstitute : Expr ℚ := .binary .add (.var "x") (.var "y")
def sumWithSubstituteSolved : Expr ℚ := .binary .subtract (.var "y") (.var "y")

/-- Where `x` is one and `y` is two, the sum is three; its solution, for three, is zero. -/
theorem solve_gives_nothing_back :
    (∃ report, reportSolve 15 (fun (_ : Expr ℚ) _ _ _ => none) "x+y" "x" "y" = .ok report ∧
      report.expression = "y-y") ∧
    Source.parseExpression "x+y" = .ok sumWithSubstitute ∧
    solve sumWithSubstitute "x" "y" = .ok sumWithSubstituteSolved ∧
    sumWithSubstitute.IsArithmetic ∧
    Rebinds (Environment.initial Registry.empty) [("x", 1), ("y", 2)] sumWithSubstitute
      sumWithSubstituteSolved "y" 3 ∧
    HasValue (Environment.initial Registry.empty) (assignment [("x", (1 : ℚ)), ("y", 2)]) 0
      (.var "x") 1 ∧
    ¬ HasValue (Environment.initial Registry.empty) (rebound [("x", (1 : ℚ)), ("y", 2)] "y" 3) 0
      sumWithSubstituteSolved 1 := by
  have parsed : Source.parseExpression "x+y" = .ok sumWithSubstitute :=
    eq_ok_of_toOption (by decide +kernel)
  have solving : solve sumWithSubstitute "x" "y" = .ok sumWithSubstituteSolved := rfl
  have written : sumWithSubstituteSolved.write .plain 15 = "y-y" := by decide +kernel
  have x : IsNumber (Environment.initial Registry.empty)
      (assignment [("x", (1 : ℚ)), ("y", 2)]) 0 (.var "x") 1 := isNumber_var_assignment rfl rfl rfl
  have y : IsNumber (Environment.initial Registry.empty)
      (assignment [("x", (1 : ℚ)), ("y", 2)]) 0 (.var "y") 2 := isNumber_var_assignment rfl rfl rfl
  have again : IsNumber (Environment.initial Registry.empty)
      (rebound [("x", (1 : ℚ)), ("y", 2)] "y" 3) 0 (.var "y") 3 :=
    isNumber_var_assignment rfl rfl rfl
  have three : Operator.apply .add 1 2 = (3 : ℚ) := by decide +kernel
  have zero : Operator.apply .subtract 3 3 ≠ (1 : ℚ) := by decide +kernel
  refine ⟨⟨_, reportSolve_accepts 15 _ parsed rfl solving, written⟩, parsed, solving,
    ⟨rfl, trivial, trivial⟩, ?_, x.hasValue, ?_⟩
  · exact
      { coherent := Registry.empty_coherent
        notRandom := rfl
        notConstant := rfl
        defined := three ▸ (x.binary .add y).hasValue
        divides := ⟨trivial, trivial, nofun⟩ }
  · intro one
    exact zero ((again.binary .subtract again).hasValue.unique one)

end QuantityCalculus
