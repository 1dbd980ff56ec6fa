import QuantityCalculus.Evaluation
import QuantityCalculus.Proofs.Arithmetic.Brackets
import QuantityCalculus.Proofs.Units.Scalings
import QuantityCalculus.Units.Batch

namespace QuantityCalculus

/-!
# Casts without a conversion

A cast to a unit that no conversion leads to takes over the number in front of the magnitude and
leaves the magnitude behind.  A number that was given a unit is normalized by then: two thousand
volts are two kilovolts, and the cast makes two amperes of them.  So a number survives a unit and
a cast to another exactly if normalizing leaves it plain: if it lies between one and a thousand,
or beyond the reach of all magnitudes.
-/

/-! ## The number in front of the magnitude -/

namespace Quantity

/-- A unit without a symbol leaves a number as it is. -/
theorem value_normalize_number {R : Type} [Scalar R] {unit : UnitOfMeasure} {x : R}
    (number : unit.isDimensionless = true) : (ofUnit x unit).normalize.value = x := by
  have dimensionless : (ofUnit x unit).isDimensionless = true := number
  rw [normalize_dimensionless dimensionless, base_ofUnit]

variable {K : Type} [Field K] [LinearOrder K] [IsStrictOrderedRing K] [Scalar K] [OrderedScalar K]
  {unit : UnitOfMeasure} {x : K}

theorem magnitude_normalize_ofUnit (hasUnit : unit.isDimensionless = false) :
    (ofUnit x unit).normalize.magnitude = Magnitude.bestFit x := by
  have someUnit : (ofUnit x unit).isDimensionless = false := hasUnit
  have plainListed : Magnitude.plain ∈ Magnitude.all := by decide
  rw [normalize_eq_searched someUnit plainListed, searched, base_ofUnit]

/-- The number in front of the magnitude, times the power of ten, is the value. -/
theorem value_normalize_ofUnit (hasUnit : unit.isDimensionless = false) :
    (ofUnit x unit).normalize.value * (10 : K) ^ (Magnitude.bestFit x).exponent = x := by
  rw [← magnitude_normalize_ofUnit hasUnit, ← base_eq, base_normalize, base_ofUnit]

/-- Normalizing keeps the number itself where it finds no magnitude but the plain one. -/
theorem value_normalize_ofUnit_eq_iff :
    (ofUnit x unit).normalize.value = x <->
      unit.isDimensionless = true ∨ Magnitude.bestFit x = .plain := by
  cases dimensionless : unit.isDimensionless with
  | true =>
      exact ⟨fun _ => Or.inl rfl, fun _ => value_normalize_number dimensionless⟩
  | false =>
      have whole := value_normalize_ofUnit (x := x) dimensionless
      constructor
      · intro kept
        refine Or.inr ?_
        rw [kept] at whole
        by_cases zero : x = 0
        · exact Magnitude.bestFit_eq_plain_iff.mpr (Or.inr (zero ▸ Magnitude.not_withinReach_zero))
        · have one : (10 : K) ^ (Magnitude.bestFit x).exponent = 1 := mul_eq_left₀ zero |>.mp whole
          have noShift := (zpow_eq_one_iff_right₀ (by norm_num) (by norm_num)).mp one
          exact Magnitude.eq_plain_of_exponent (Magnitude.bestFit_mem x) noShift
      · rintro (number | isPlain)
        · cases number
        · rw [isPlain] at whole
          simpa [Magnitude.plain] using whole

end Quantity

/-! ## Giving a unit, and casting to another -/

/-- A cast to a unit that no conversion leads to keeps the number in front of the magnitude. -/
theorem Registry.convert_unrelated {R : Type} [Scalar R] {registry : Registry R}
    {quantity : Quantity R} {symbol : String} {enabled : List String} {magnitude : Magnitude}
    {target : UnitOfMeasure} (resolved : registry.resolve symbol enabled = .ok (magnitude, target))
    (unrelated : quantity.isDimensionless = true ∨ registry.scaling? quantity.unit target = none) :
    registry.convert quantity symbol enabled = .ok ⟨quantity.value, target, magnitude⟩ := by
  rw [convert, bind_eq_of_ok resolved]
  rcases unrelated with number | unrelated
  · simp only [number, Bool.or_true, if_true]
  · simp only [unrelated, ite_self]

section

variable {K : Type} [Field K] [Scalar K] [ExactScalar K]

/-- A number that is given a unit is normalized; a unit without a symbol leaves it a number. -/
theorem mark_apply_ofScalar {environment : Environment K} {enabled : List String} {symbol : String}
    {unit : UnitOfMeasure}
    (resolved : environment.registry.resolve symbol enabled = .ok (.plain, unit)) (x : K) :
    environment.mark enabled (.apply symbol) (Quantity.ofScalar x) =
      .ok (if unit.isDimensionless then Quantity.ofScalar x
        else (Quantity.ofUnit x unit).normalize) := by
  have product : UnitOperator.times.operator.apply (Quantity.ofScalar x).base
      (Quantity.ofUnit (Scalar.ofInt 1) unit).base = x := by
    rw [Quantity.base_ofScalar, Quantity.base_ofUnit]
    change Scalar.mul x (Scalar.ofInt 1) = x
    rw [ExactScalar.mul_eq, ExactScalar.ofInt_eq, Int.cast_one, mul_one]
  rw [Environment.mark, bind_eq_of_ok resolved]
  change environment.registry.combine .times (Quantity.ofScalar x)
    (Quantity.ofUnit (Scalar.ofInt 1) unit) = _
  cases dimensionless : unit.isDimensionless with
  | true =>
      have number : (Quantity.ofUnit (Scalar.ofInt 1 : K) unit).isDimensionless = true :=
        dimensionless
      rw [Registry.combine_number .times _ number, product]
      exact congrArg Except.ok (Quantity.normal_ofScalar x)
  | false =>
      have hasUnit : (Quantity.ofUnit (Scalar.ofInt 1 : K) unit).isDimensionless = false :=
        dimensionless
      rw [Registry.number_combine .times rfl hasUnit, product]
      rfl

/-- A number with a unit, cast to another unit that no conversion leads to: what is left is the
number in front of the magnitude. -/
theorem evaluate_cast_unrelated {environment : Environment K} {scopes : Scopes K} {scope : ScopeId}
    {symbol target : String} {unit other : UnitOfMeasure} {magnitude : Magnitude}
    (resolved : environment.registry.resolve symbol (scopes.enabledIn scope) = .ok (.plain, unit))
    (targetResolved :
      environment.registry.resolve target (scopes.enabledIn scope) = .ok (magnitude, other))
    (unrelated : environment.registry.scaling? unit other = none) (x : K) :
    evaluate environment scopes scope (.marked (.cast target) (.marked (.apply symbol) (.num x))) =
      .ok ⟨(Quantity.ofUnit x unit).normalize.value, other, magnitude⟩ := by
  have marked : evaluate environment scopes scope (.marked (.apply symbol) (.num x)) =
      .ok (if unit.isDimensionless then Quantity.ofScalar x
        else (Quantity.ofUnit x unit).normalize) :=
    mark_apply_ofScalar resolved x
  refine (bind_eq_of_ok marked).trans ?_
  change environment.registry.convert _ target (scopes.enabledIn scope) = _
  cases dimensionless : unit.isDimensionless with
  | true =>
      rw [if_pos rfl, Registry.convert_unrelated targetResolved (Or.inl rfl),
        Quantity.value_normalize_number dimensionless]
      rfl
  | false =>
      rw [if_neg Bool.false_ne_true]
      refine Registry.convert_unrelated targetResolved (Or.inr ?_)
      rw [Quantity.unit_normalize]
      exact unrelated

end

/--
A number that is given one unit and cast to another, where no conversion leads from the one to the
other, always gives a plain quantity of the other unit.  But its value is the number in front of
the magnitude that normalizing found in between.  So the number is kept exactly if that magnitude
is the plain one, and is otherwise off by its power of ten.
-/
theorem cast_keeps_number_iff {K : Type} [Field K] [LinearOrder K] [IsStrictOrderedRing K]
    [Scalar K] [OrderedScalar K] {environment : Environment K} {scopes : Scopes K}
    {scope : ScopeId} {symbol target : String} {unit other : UnitOfMeasure}
    (resolved : environment.registry.resolve symbol (scopes.enabledIn scope) = .ok (.plain, unit))
    (targetResolved :
      environment.registry.resolve target (scopes.enabledIn scope) = .ok (.plain, other))
    (unrelated : environment.registry.scaling? unit other = none) (x : K) :
    ∃ cast, evaluate environment scopes scope
        (.marked (.cast target) (.marked (.apply symbol) (.num x))) = .ok cast ∧
      cast.unit = other ∧ cast.magnitude = .plain ∧
      (unit.isDimensionless = false ->
        cast.base * (10 : K) ^ (Magnitude.bestFit x).exponent = x) ∧
      (cast.base = x <->
        unit.isDimensionless = true ∨ (1 ≤ |x| ∧ |x| < 1000) ∨ ¬ Magnitude.WithinReach x) := by
  refine ⟨_, evaluate_cast_unrelated resolved targetResolved unrelated x, rfl, rfl, ?_, ?_⟩
  · intro hasUnit
    rw [Quantity.base_plain]
    exact Quantity.value_normalize_ofUnit hasUnit
  · rw [Quantity.base_plain, Quantity.value_normalize_ofUnit_eq_iff,
      Magnitude.bestFit_eq_plain_iff]

/-! ## Volts and amperes -/

/-- A calculation with the units that are there from the start, in exact arithmetic. -/
def electricity : Environment ℚ :=
  .initial (((Registry.empty : Registry ℚ).withBuiltIns 15).toOption.getD .empty)

/-- A scope in which these units are enabled. -/
def electricScopes : Scopes ℚ :=
  [⟨none, none, [], [], ["electric"]⟩]

def volt : UnitOfMeasure := ⟨⟨"electric", "V"⟩, 0⟩

def ampere : UnitOfMeasure := ⟨⟨"electric", "A"⟩, 1⟩

/-- Volts and amperes are known, and no conversion leads from one to the other or back. -/
theorem electricity_unrelated :
    electricity.registry.resolve "V" (electricScopes.enabledIn 0) = .ok (.plain, volt) ∧
      electricity.registry.resolve "A" (electricScopes.enabledIn 0) = .ok (.plain, ampere) ∧
      electricity.registry.scaling? volt ampere = none ∧
      electricity.registry.scaling? ampere volt = none := by
  -- One evaluation of the registry for all that is looked up in it.
  have facts :
      (electricity.registry.resolve "V" (electricScopes.enabledIn 0)).toOption =
        some (.plain, volt) ∧
      (electricity.registry.resolve "A" (electricScopes.enabledIn 0)).toOption =
        some (.plain, ampere) ∧
      electricity.registry.scaling? volt ampere = none ∧
      electricity.registry.scaling? ampere volt = none := by
    decide +kernel
  exact ⟨eq_ok_of_toOption facts.1, eq_ok_of_toOption facts.2.1, facts.2.2⟩

/-- `230[V][A?]` is two hundred and thirty amperes. -/
theorem cast_keeps_number_iff_hundreds :
    ∃ cast, evaluate electricity electricScopes 0
        (.marked (.cast "A") (.marked (.apply "V") (.num 230))) = .ok cast ∧
      cast.unit = ampere ∧ cast.base = 230 := by
  rcases electricity_unrelated with ⟨volts, amperes, unrelated, _⟩
  rcases cast_keeps_number_iff volts amperes unrelated 230 with
    ⟨cast, succeeded, unit, _, _, kept⟩
  exact ⟨cast, succeeded, unit, kept.mpr (Or.inr (Or.inl (by norm_num)))⟩

/-- `2000[V][A?]` is two amperes. -/
theorem cast_loses_thousand :
    electricity.registry.resolve "V" (electricScopes.enabledIn 0) = .ok (.plain, volt) ∧
      electricity.registry.resolve "A" (electricScopes.enabledIn 0) = .ok (.plain, ampere) ∧
      electricity.registry.scaling? volt ampere = none ∧
      electricity.registry.scaling? ampere volt = none ∧
      evaluate electricity electricScopes 0
        (.marked (.cast "A") (.marked (.apply "V") (.num 2000))) = .ok ⟨2, ampere, .plain⟩ ∧
      (⟨2, ampere, .plain⟩ : Quantity ℚ).base ≠ 2000 := by
  rcases electricity_unrelated with ⟨volts, amperes, unrelated, back⟩
  have kilovolts : (Quantity.ofUnit (2000 : ℚ) volt).normalize.value = 2 := by
    decide +kernel
  refine ⟨volts, amperes, unrelated, back, ?_, by decide +kernel⟩
  rw [← kilovolts]
  exact evaluate_cast_unrelated volts amperes unrelated 2000

end QuantityCalculus
