import QuantityCalculus.Evaluation
import QuantityCalculus.Proofs.Arithmetic.Negation

namespace QuantityCalculus

/-!
# Quantities in normal form

Normalizing looks for the magnitude that fits a value and is done: what it finds, it finds
again.  So every operation that normalizes its result is in normal form, and so is every
plain number.  Only the absolute value keeps the magnitude of its operand; it is in normal
form when the operand is, because a negated value fits the same magnitude.
-/

variable {R : Type} [Scalar R]

namespace Magnitude

/-- No magnitude brings a value into the bracket. -/
def NoneFits (value : R) : Prop :=
  Scalar.isFinite value = false ∨ Scalar.eq value (Scalar.ofInt 0) = true ∨
    forall magnitude, magnitude ∈ belowYotta ->
      inBracket (rebase value .plain magnitude) = false

/-- The magnitude that fits a value brings it into the bracket, or none does and it is plain. -/
theorem bestFit_cases (value : R) :
    (bestFit value ≠ .yotta ∧ inBracket (rebase value .plain (bestFit value)) = true) ∨
      (bestFit value = .plain ∧ NoneFits value) := by
  unfold bestFit
  split
  · rename_i excluded
    refine Or.inr ⟨rfl, ?_⟩
    rcases Bool.or_eq_true_iff.mp excluded with notFinite | zero
    · exact Or.inl (by simpa using notFinite)
    · exact Or.inr (Or.inl zero)
  · cases found : belowYotta.find? fun magnitude => inBracket (rebase value .plain magnitude) with
    | none =>
        refine Or.inr ⟨rfl, Or.inr (Or.inr fun magnitude member => ?_)⟩
        exact Bool.eq_false_iff.mpr (List.find?_eq_none.mp found magnitude member)
    | some magnitude =>
        refine Or.inl ⟨?_, List.find?_some (p := fun magnitude =>
          inBracket (rebase value .plain magnitude)) found⟩
        have member := List.mem_of_find?_eq_some found
        rintro rfl
        exact absurd member (by decide)

theorem bestFit_mem (value : R) : bestFit value ∈ belowYotta := by
  unfold bestFit
  split
  · decide
  · cases found : belowYotta.find? fun magnitude => inBracket (rebase value plain magnitude) with
    | none => decide
    | some magnitude => exact List.mem_of_find?_eq_some found

theorem bestFit_of_noneFits {value : R} (noneFits : NoneFits value) : bestFit value = .plain := by
  unfold bestFit
  rcases noneFits with notFinite | zero | noneFits
  · rw [notFinite]
    rfl
  · rw [zero, Bool.or_true]
    rfl
  · split
    · rfl
    · rw [List.find?_eq_none.mpr fun magnitude member =>
        Bool.eq_false_iff.mp (noneFits magnitude member)]
      rfl

end Magnitude

namespace Quantity

/-- Normalizing would change nothing. -/
def Normal (quantity : Quantity R) : Prop :=
  quantity.normalize = quantity

/-- The quantity stands in the bracket of a magnitude that can fit. -/
def stands (quantity : Quantity R) : Bool :=
  quantity.magnitude ≠ .yotta && Magnitude.inBracket quantity.value

section

variable {quantity : Quantity R}

theorem normalize_dimensionless (dimensionless : quantity.isDimensionless = true) :
    quantity.normalize = ⟨quantity.base, quantity.unit, .plain⟩ :=
  if_pos dimensionless

theorem normalize_standing (hasUnit : quantity.isDimensionless = false)
    (stands : quantity.stands = true) : quantity.normalize = quantity :=
  (if_neg (Bool.eq_false_iff.mp hasUnit)).trans (if_pos stands)

theorem normalize_misfit (hasUnit : quantity.isDimensionless = false)
    (misfit : quantity.stands = false) :
    quantity.normalize =
      ⟨Magnitude.rebase quantity.base .plain (Magnitude.bestFit quantity.base), quantity.unit,
        Magnitude.bestFit quantity.base⟩ :=
  (if_neg (Bool.eq_false_iff.mp hasUnit)).trans (if_neg (Bool.eq_false_iff.mp misfit))

end

/-- A number without a unit is in normal form when it is plain. -/
theorem normal_plain {value : R} {unit : UnitOfMeasure}
    (dimensionless : (⟨value, unit, .plain⟩ : Quantity R).isDimensionless = true) :
    Normal ⟨value, unit, .plain⟩ := by
  rw [Normal, normalize_dimensionless dimensionless, base_plain]

/-- A plain quantity that no magnitude fits is in normal form. -/
theorem normal_of_bestFit_plain {value : R} {unit : UnitOfMeasure}
    (hasUnit : (⟨value, unit, .plain⟩ : Quantity R).isDimensionless = false)
    (plain : Magnitude.bestFit value = .plain) : Normal ⟨value, unit, .plain⟩ := by
  cases stands : Quantity.stands ⟨value, unit, .plain⟩ with
  | true => exact normalize_standing hasUnit stands
  | false =>
      rw [Normal, normalize_misfit hasUnit stands, base_plain, plain, Magnitude.rebase_same]

/-- Normalizing is done at once. -/
theorem normal_normalize (quantity : Quantity R) : quantity.normalize.Normal := by
  cases dimensionless : quantity.isDimensionless with
  | true =>
      rw [normalize_dimensionless dimensionless]
      exact normal_plain dimensionless
  | false =>
      cases stands : quantity.stands with
      | true =>
          rw [Normal, normalize_standing dimensionless stands,
            normalize_standing dimensionless stands]
      | false =>
          rw [normalize_misfit dimensionless stands]
          rcases Magnitude.bestFit_cases quantity.base with ⟨below, inBracket⟩ | ⟨plain, _⟩
          · refine normalize_standing dimensionless ?_
            rw [Quantity.stands, decide_eq_true below, inBracket]
            rfl
          · rw [plain, Magnitude.rebase_same]
            exact normal_of_bestFit_plain dimensionless plain

/-- A quantity in normal form is plain when it has no unit.  With a unit it stands in the bracket,
or it is plain because no magnitude fits. -/
theorem Normal.shape {quantity : Quantity R} (normal : quantity.Normal) :
    (quantity.isDimensionless = true -> quantity.magnitude = .plain) ∧
      (quantity.isDimensionless = false -> quantity.stands = true ∨
        (quantity.magnitude = .plain ∧ Magnitude.NoneFits quantity.value)) := by
  constructor
  · intro dimensionless
    rw [Normal, normalize_dimensionless dimensionless] at normal
    exact (congrArg Quantity.magnitude normal).symm
  · intro hasUnit
    cases stands : quantity.stands with
    | true => exact Or.inl rfl
    | false =>
        rw [Normal, normalize_misfit hasUnit stands] at normal
        have value := congrArg Quantity.value normal
        have magnitude := congrArg Quantity.magnitude normal
        dsimp only at value magnitude
        rcases Magnitude.bestFit_cases quantity.base with ⟨below, inBracket⟩ | ⟨plain, noneFits⟩
        · rw [value] at inBracket
          rw [magnitude] at below
          rw [Quantity.stands, decide_eq_true below, inBracket] at stands
          cases stands
        · rw [plain] at value magnitude
          rw [Magnitude.rebase_same] at value
          exact Or.inr ⟨magnitude.symm, value ▸ noneFits⟩

/-- The magnitude is the one that a quantity is shown under: plain without a unit, and with a unit
the one in whose bracket the value stands, or plain where no magnitude fits. -/
structure Fitted (quantity : Quantity R) : Prop where
  dimensionless : quantity.isDimensionless = true -> quantity.magnitude = .plain
  hasUnit : quantity.isDimensionless = false ->
    quantity.stands = true ∨
      (quantity.magnitude = .plain ∧ Magnitude.NoneFits quantity.value)

/-- The quantities that normalizing leaves alone. -/
theorem normal_iff_fitted {quantity : Quantity R} : quantity.Normal <-> quantity.Fitted := by
  constructor
  · intro normal
    exact ⟨normal.shape.1, normal.shape.2⟩
  · intro fitted
    rcases quantity with ⟨value, unit, magnitude⟩
    cases dimensionless : Quantity.isDimensionless ⟨value, unit, magnitude⟩ with
    | true =>
        cases fitted.dimensionless dimensionless
        exact normal_plain dimensionless
    | false =>
        rcases fitted.hasUnit dimensionless with stands | ⟨plain, noneFits⟩
        · exact normalize_standing dimensionless stands
        · cases plain
          exact normal_of_bestFit_plain dimensionless (Magnitude.bestFit_of_noneFits noneFits)

/--
Normalizing a second time changes nothing, and the quantities that it leaves alone are those
under the magnitude that fits them.  Nothing is asked of the numbers: products and quotients
may be rounded in any way, and comparisons may fail, as they do with an undefined value.
-/
theorem normalize_idempotent (quantity : Quantity R) :
    quantity.normalize.normalize = quantity.normalize ∧ quantity.normalize.Fitted ∧
      (quantity.normalize = quantity <-> quantity.Fitted) :=
  ⟨normal_normalize quantity, normal_iff_fitted.mp (normal_normalize quantity), normal_iff_fitted⟩

/-! ## Operations -/

theorem normal_ofScalar (value : R) : (ofScalar value).Normal :=
  normal_plain rfl

theorem normal_withValue (quantity : Quantity R) (value : R) : (quantity.withValue value).Normal :=
  normal_normalize _

theorem normal_linear (op : Operator) (left right : Quantity R) : (linear op left right).Normal :=
  normal_normalize _

theorem normal_modulus (left right : Quantity R) : (left.modulus right).Normal :=
  normal_withValue _ _

theorem normal_power (left right : Quantity R) : (left.power right).Normal :=
  normal_withValue _ _

/-- The quantity with the other sign. -/
def negated (quantity : Quantity R) : Quantity R :=
  { quantity with value := Scalar.neg quantity.value }

/-- Normalizing a negated quantity negates the normalized one. -/
theorem normalize_negated [SignedScalar R] (quantity : Quantity R) :
    quantity.negated.normalize = quantity.normalize.negated := by
  have base_negated : quantity.negated.base = Scalar.neg quantity.base :=
    Magnitude.rebase_neg _ _ _
  have stands_negated : quantity.negated.stands = quantity.stands :=
    congrArg (decide (quantity.magnitude ≠ .yotta) && ·) (Magnitude.inBracket_neg quantity.value)
  have sameUnit : quantity.negated.isDimensionless = quantity.isDimensionless := rfl
  cases dimensionless : quantity.isDimensionless with
  | true =>
      rw [normalize_dimensionless dimensionless,
        normalize_dimensionless (sameUnit.trans dimensionless), base_negated]
      rfl
  | false =>
      have hasUnit := sameUnit.trans dimensionless
      cases stands : quantity.stands with
      | true =>
          rw [normalize_standing dimensionless stands,
            normalize_standing hasUnit (stands_negated.trans stands)]
      | false =>
          rw [normalize_misfit dimensionless stands,
            normalize_misfit hasUnit (stands_negated.trans stands), base_negated,
            Magnitude.bestFit_neg, Magnitude.rebase_neg]
          rfl

/-- The absolute value keeps the magnitude, and it keeps the normal form. -/
theorem Normal.abs [SignedScalar R] {quantity : Quantity R} (normal : quantity.Normal) :
    Normal { quantity with value := Scalar.abs quantity.value } := by
  rcases SignedScalar.abs_cases quantity.value with same | other
  · rw [same]
    exact normal
  · rw [other]
    exact (normalize_negated quantity).trans (congrArg negated normal)

end Quantity

theorem normal_factorial (argument : Quantity R) : (factorial argument).Normal := by
  unfold factorial
  split <;> exact Quantity.normal_withValue _ _

end QuantityCalculus
