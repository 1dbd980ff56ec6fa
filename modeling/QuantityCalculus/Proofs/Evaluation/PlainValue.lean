import QuantityCalculus.Proofs.Arithmetic.Exact
import QuantityCalculus.Proofs.Units.RelationTables

namespace QuantityCalculus

/-!
# The plain value of an expression

`HasValue` says that an expression has a quantity in a scope and what the plain
value of that quantity is, whatever its unit and magnitude.  In exact
arithmetic the plain value of a compound is the operation on the plain values
of its parts: relations between units decide whether two quantities may be
combined and what unit results, but never the number.  The lemmas below take a
compound that has a value apart; whether it has one still depends on units.
-/

section

variable {K : Type} [Scalar K]

/-- The expression has a quantity in the scope, and this is its plain value. -/
def HasValue (environment : Environment K) (scopes : Scopes K) (scope : ScopeId)
    (expr : Expr K) (value : K) : Prop :=
  ∃ quantity, evaluate environment scopes scope expr = .ok quantity ∧ quantity.base = value

variable {environment : Environment K} {scopes : Scopes K} {scope : ScopeId} {x y : Expr K}

/-- An expression has at most one value. -/
theorem HasValue.unique {first second : K} (one : HasValue environment scopes scope x first)
    (other : HasValue environment scopes scope x second) : first = second := by
  rcases one with ⟨quantity, evaluated, rfl⟩
  rcases other with ⟨again, evaluatedAgain, rfl⟩
  rw [evaluated] at evaluatedAgain
  cases evaluatedAgain
  rfl

theorem hasValue_num (value : K) : HasValue environment scopes scope (.num value) value :=
  ⟨Quantity.ofScalar value, rfl, Quantity.base_ofScalar value⟩

theorem hasValue_paren {value : K} :
    HasValue environment scopes scope (.paren x) value <->
      HasValue environment scopes scope x value :=
  Iff.rfl

theorem HasValue.func {kind : FunctionKind} {value : K}
    (defined : HasValue environment scopes scope (.func kind x) value) :
    ∃ argument, HasValue environment scopes scope x argument ∧
      value = kind.apply environment.angleMode argument := by
  rcases defined with ⟨quantity, evaluated, rfl⟩
  rcases bind_eq_ok.mp evaluated with ⟨argument, inner, outer⟩
  rw [Environment.function] at outer
  split at outer
  · cases outer
  · cases outer
    exact ⟨argument.base, ⟨argument, inner, rfl⟩, Quantity.base_ofScalar _⟩

theorem HasValue.sqrt {value : K} (defined : HasValue environment scopes scope (.sqrt x) value) :
    ∃ radicand, HasValue environment scopes scope x radicand ∧
      value = Scalar.pow radicand (Scalar.div (Scalar.ofInt 1) (Scalar.ofInt 2)) := by
  rcases defined with ⟨quantity, evaluated, rfl⟩
  rcases bind_eq_ok.mp evaluated with ⟨radicand, inner, outer⟩
  cases outer
  exact ⟨radicand.base, ⟨radicand, inner, rfl⟩, Quantity.base_ofScalar _⟩

theorem HasValue.root {value : K} (defined : HasValue environment scopes scope (.root x y) value) :
    ∃ radicand index, HasValue environment scopes scope x radicand ∧
      HasValue environment scopes scope y index ∧
      value = Scalar.pow radicand (Scalar.div (Scalar.ofInt 1) index) := by
  rcases defined with ⟨quantity, evaluated, rfl⟩
  rcases bind_eq_ok.mp evaluated with ⟨radicand, inner, outer⟩
  rcases bind_eq_ok.mp outer with ⟨index, located, outer⟩
  cases outer
  exact ⟨radicand.base, index.base, ⟨radicand, inner, rfl⟩, ⟨index, located, rfl⟩,
    Quantity.base_ofScalar _⟩

end

section

variable {K : Type} [Field K] [Scalar K] [ExactScalar K]

/-- A relation decides about units; the plain value is the operation on plain values. -/
theorem Registry.Coherent.base_combine {registry : Registry K} (coherent : registry.Coherent)
    {op : UnitOperator} {left right result : Quantity K}
    (combined : registry.combine op left right = .ok result) :
    result.base = op.operator.apply left.base right.base := by
  rw [Registry.combine] at combined
  split at combined
  · cases combined
    exact Quantity.base_withValue _ _
  · split at combined
    · cases combined
      exact Quantity.base_withValue _ _
    · split at combined
      · cases combined
      · rename_i relation found
        rcases coherent.relation_fits found with ⟨sameOperation, noNumber⟩
        cases combined
        rw [Quantity.base_normalize, Quantity.base_ofUnit, Registry.apply, sameOperation,
          noNumber (Option.some_ne_none _), Option.getD_none]

variable {environment : Environment K} {scopes : Scopes K} {scope : ScopeId} {x y : Expr K}

theorem HasValue.fraction (coherent : environment.registry.Coherent) {value : K}
    (defined : HasValue environment scopes scope (.fraction x y) value) :
    ∃ numerator denominator, HasValue environment scopes scope x numerator ∧
      HasValue environment scopes scope y denominator ∧
      value = Scalar.div numerator denominator := by
  rcases defined with ⟨quantity, evaluated, rfl⟩
  rcases bind_eq_ok.mp evaluated with ⟨numerator, above, outer⟩
  rcases bind_eq_ok.mp outer with ⟨denominator, below, outer⟩
  exact ⟨numerator.base, denominator.base, ⟨numerator, above, rfl⟩, ⟨denominator, below, rfl⟩,
    coherent.base_combine outer⟩

theorem HasValue.binary (coherent : environment.registry.Coherent) {op : Operator} {value : K}
    (defined : HasValue environment scopes scope (.binary op x y) value) :
    ∃ left right, HasValue environment scopes scope x left ∧
      HasValue environment scopes scope y right ∧ value = op.apply left right := by
  rcases defined with ⟨quantity, evaluated, rfl⟩
  rcases bind_eq_ok.mp evaluated with ⟨left, first, outer⟩
  rcases bind_eq_ok.mp outer with ⟨right, second, outer⟩
  refine ⟨left.base, right.base, ⟨left, first, rfl⟩, ⟨right, second, rfl⟩, ?_⟩
  cases op with
  | add | subtract =>
      cases outer
      exact Quantity.base_linear _ left right
  | multiply | divide => exact coherent.base_combine outer
  | modulus =>
      cases outer
      exact Quantity.base_modulus left right
  | power =>
      cases outer
      exact Quantity.base_power left right

end

/-! ## Numbers without units -/

section

variable {K : Type} [Scalar K]

omit [Scalar K] in
theorem Quantity.isDimensionless_ofScalar (value : K) :
    (Quantity.ofScalar value).isDimensionless = true :=
  beq_self_eq_true ""

@[simp] theorem Quantity.normalize_ofScalar (value : K) :
    (Quantity.ofScalar value).normalize = Quantity.ofScalar value := by
  rw [Quantity.normalize, if_pos (Quantity.isDimensionless_ofScalar value), Quantity.base_ofScalar]
  rfl

/-- The expression evaluates to a number without a unit. -/
def IsNumber (environment : Environment K) (scopes : Scopes K) (scope : ScopeId)
    (expr : Expr K) (value : K) : Prop :=
  evaluate environment scopes scope expr = .ok (Quantity.ofScalar value)

variable {environment : Environment K} {scopes : Scopes K} {scope : ScopeId} {x y : Expr K}

theorem IsNumber.hasValue {value : K} (number : IsNumber environment scopes scope x value) :
    HasValue environment scopes scope x value :=
  ⟨Quantity.ofScalar value, number, Quantity.base_ofScalar value⟩

theorem isNumber_num (value : K) : IsNumber environment scopes scope (.num value) value :=
  rfl

/-- Numbers are combined by every operator, whatever relations the registry holds. -/
theorem IsNumber.binary (op : Operator) {left right : K}
    (first : IsNumber environment scopes scope x left)
    (second : IsNumber environment scopes scope y right) :
    IsNumber environment scopes scope (.binary op x y) (op.apply left right) := by
  refine bind_eq_ok.mpr ⟨_, first, bind_eq_ok.mpr ⟨_, second, ?_⟩⟩
  have result := Quantity.normalize_ofScalar (op.apply left right)
  have combined : forall unitOperator : UnitOperator, unitOperator.operator = op ->
      environment.registry.combine unitOperator (.ofScalar left) (.ofScalar right) =
        .ok (.ofScalar (op.apply left right)) := by
    rintro unitOperator rfl
    rw [Registry.combine, if_pos (Quantity.isDimensionless_ofScalar right),
      Quantity.base_ofScalar, Quantity.base_ofScalar]
    exact congrArg Except.ok result
  cases op with
  | multiply => exact combined .times rfl
  | divide => exact combined .per rfl
  | _ =>
      refine congrArg Except.ok (Eq.trans ?_ result)
      simp only [Quantity.linear, Quantity.modulus, Quantity.power, Quantity.withValue,
        Quantity.base_ofScalar]
      rfl

theorem IsNumber.fraction {numerator denominator : K}
    (first : IsNumber environment scopes scope x numerator)
    (second : IsNumber environment scopes scope y denominator) :
    IsNumber environment scopes scope (.fraction x y) (Scalar.div numerator denominator) :=
  IsNumber.binary .divide first second

theorem IsNumber.root {radicand index : K} (first : IsNumber environment scopes scope x radicand)
    (second : IsNumber environment scopes scope y index) :
    IsNumber environment scopes scope (.root x y)
      (Scalar.pow radicand (Scalar.div (Scalar.ofInt 1) index)) := by
  refine bind_eq_ok.mpr ⟨_, first, bind_eq_ok.mpr ⟨_, second, ?_⟩⟩
  rw [Quantity.base_ofScalar, rootOf, Quantity.base_ofScalar]
  rfl

/-- One scope in which names are bound to numbers. -/
def assignment (values : Table K) : Scopes K :=
  [⟨none, none, values.map fun entry => (entry.1, ⟨.num entry.2, none⟩), [], []⟩]

omit [Scalar K] in
theorem lookup_assignment {values : Table K} {name : String} {value : K}
    (assigned : values.get? name = some value) :
    (assignment values).lookup 0 name = .ok (0, ⟨.num value, none⟩) := by
  have bound : Table.get? name (values.map fun entry =>
      (entry.1, (⟨.num entry.2, none⟩ : BoundExpr K))) = some ⟨.num value, none⟩ := by
    induction values with
    | nil => cases assigned
    | cons entry rest inductionHypothesis =>
        rw [Table.get?] at assigned
        rw [List.map_cons, Table.get?]
        split at assigned
        · cases assigned
          exact if_pos ‹_›
        · rw [if_neg ‹_›]
          exact inductionHypothesis assigned
  have visible : (assignment values).lookup? 0 name = some (0, ⟨.num value, none⟩) := by
    simp [Scopes.lookup?, Scopes.chain, assignment, Scopes.lookupIn?, bound]
  rw [Scopes.lookup, visible]

/-- Under an assignment, a variable that is not the name of a constant has its value. -/
theorem isNumber_var_assignment {values : Table K} {name : String} {value : K}
    (notRandom : isRandomName name = false) (notConstant : environment.constants.get? name = none)
    (assigned : values.get? name = some value) :
    IsNumber environment (assignment values) 0 (.var name) value := by
  show evaluateVariable environment (evaluateWithin environment 63) [] (assignment values) 0 name =
    .ok (Quantity.ofScalar value)
  rw [evaluateVariable, notRandom, if_neg Bool.false_ne_true, notConstant]
  exact bind_eq_ok.mpr ⟨_, lookup_assignment assigned, rfl⟩

end

end QuantityCalculus
