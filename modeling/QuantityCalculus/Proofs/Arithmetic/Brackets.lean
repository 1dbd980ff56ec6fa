import Mathlib.Algebra.Order.Field.Power
import QuantityCalculus.Proofs.Arithmetic.NormalForm
import QuantityCalculus.Proofs.Arithmetic.Rationals

namespace QuantityCalculus

/-!
# The brackets of the magnitudes

A magnitude fits the values from its power of ten up to a thousand times that power.  These
brackets lie side by side: each begins where the one before it ends.  So between the least and
the greatest magnitude every value stands in one bracket and in no other, and the search for a
magnitude that fits, which stops at the first, could stop at any.

This needs numbers that are not rounded.  Then a quantity is shown in one way only, whatever
magnitude it comes with: a quantity that stands in its bracket already is what the search
would have made of it.  The magnitude has to be one of the table, since a power of ten between
two of them has a bracket of its own.
-/

/-- Exact numbers in an order, all of them finite, with the sizes and comparisons of the order. -/
class OrderedScalar (K : Type) [Field K] [LinearOrder K] [Scalar K] : Prop
    extends ExactScalar K where
  abs_eq : forall a : K, Scalar.abs a = |a|
  le_eq : forall a b : K, Scalar.le a b = decide (a ≤ b)
  lt_eq : forall a b : K, Scalar.lt a b = decide (a < b)
  eq_eq : forall a b : K, Scalar.eq a b = decide (a = b)
  isFinite_eq : forall a : K, Scalar.isFinite a = true

instance rationalScalar_ordered : OrderedScalar ℚ where
  abs_eq _ := rfl
  le_eq _ _ := rfl
  lt_eq _ _ := rfl
  eq_eq _ _ := rfl
  isFinite_eq _ := rfl

namespace Magnitude

theorem mem_belowYotta {magnitude : Magnitude} :
    magnitude ∈ belowYotta <-> magnitude ∈ all ∧ magnitude ≠ .yotta := by
  constructor
  · intro member
    exact ⟨List.mem_append_left _ member, by rintro rfl; exact absurd member (by decide)⟩
  · rintro ⟨listed, notYotta⟩
    exact (List.mem_append.mp listed).resolve_right fun last =>
      notYotta (List.mem_singleton.mp last)

theorem eq_plain_of_exponent {magnitude : Magnitude} (member : magnitude ∈ belowYotta)
    (noShift : magnitude.exponent = 0) : magnitude = .plain := by
  have only : forall one, one ∈ belowYotta -> one.exponent = 0 -> one = .plain := by decide
  exact only magnitude member noShift

/-- The magnitudes of a list lie side by side between two exponents, a factor of a thousand each. -/
def Tiles : List Magnitude -> Int -> Int -> Prop
  | [], low, high => low = high
  | magnitude :: rest, low, high => magnitude.exponent = low ∧ Tiles rest (low + 3) high

theorem belowYotta_tiles : Tiles belowYotta (-24) 24 :=
  ⟨rfl, rfl, rfl, rfl, rfl, rfl, rfl, rfl, rfl, rfl, rfl, rfl, rfl, rfl, rfl, rfl, rfl⟩

theorem Tiles.low_le_high {magnitudes : List Magnitude} {low high : Int}
    (tiles : Tiles magnitudes low high) : low ≤ high := by
  induction magnitudes generalizing low with
  | nil => exact Int.le_of_eq tiles
  | cons magnitude rest inductionHypothesis =>
      have further := inductionHypothesis tiles.2
      omega

theorem Tiles.exponent_bounds {magnitudes : List Magnitude} {low high : Int}
    (tiles : Tiles magnitudes low high) {magnitude : Magnitude} (member : magnitude ∈ magnitudes) :
    low ≤ magnitude.exponent ∧ magnitude.exponent + 3 ≤ high := by
  induction magnitudes generalizing low with
  | nil => cases member
  | cons first rest inductionHypothesis =>
      have start := tiles.1
      rcases List.mem_cons.mp member with rfl | later
      · have further := tiles.2.low_le_high
        omega
      · have further := inductionHypothesis tiles.2 later
        omega

variable {K : Type} [Field K] [LinearOrder K] [IsStrictOrderedRing K]

/-- A plain value that a magnitude brings into the range from one to a thousand. -/
structure Brackets (magnitude : Magnitude) (value : K) : Prop where
  atLeast : (10 : K) ^ magnitude.exponent ≤ |value|
  below : |value| < (10 : K) ^ (magnitude.exponent + 3)

omit [IsStrictOrderedRing K] in
theorem brackets_iff {magnitude : Magnitude} {value : K} :
    magnitude.Brackets value <->
      (10 : K) ^ magnitude.exponent ≤ |value| ∧ |value| < (10 : K) ^ (magnitude.exponent + 3) :=
  ⟨fun brackets => ⟨brackets.atLeast, brackets.below⟩, fun bounds => ⟨bounds.1, bounds.2⟩⟩

omit [IsStrictOrderedRing K] in
theorem brackets_plain_iff {value : K} :
    plain.Brackets value <-> 1 ≤ |value| ∧ |value| < 1000 := by
  norm_num [brackets_iff, plain]

theorem tenTo_pos (exponent : Int) : (0 : K) < 10 ^ exponent :=
  zpow_pos Nat.ofNat_pos exponent

omit [IsStrictOrderedRing K] in
/-- Without a gap: a value between the ends of a list stands in a bracket of it. -/
theorem Tiles.exists_brackets {magnitudes : List Magnitude} {low high : Int}
    (tiles : Tiles magnitudes low high) {value : K} (atLeast : (10 : K) ^ low ≤ |value|)
    (below : |value| < (10 : K) ^ high) :
    ∃ magnitude, magnitude ∈ magnitudes ∧ magnitude.Brackets value := by
  induction magnitudes generalizing low with
  | nil =>
      cases tiles
      exact absurd below (not_lt_of_ge atLeast)
  | cons first rest inductionHypothesis =>
      rcases tiles with ⟨rfl, tiles⟩
      by_cases here : |value| < (10 : K) ^ (first.exponent + 3)
      · exact ⟨first, List.mem_cons_self, atLeast, here⟩
      · rcases inductionHypothesis tiles (le_of_not_gt here) with ⟨magnitude, later, brackets⟩
        exact ⟨magnitude, List.mem_cons_of_mem _ later, brackets⟩

/-- Without an overlap: a value stands in no bracket of a list but one. -/
theorem Tiles.brackets_unique {magnitudes : List Magnitude} {low high : Int}
    (tiles : Tiles magnitudes low high) {value : K} {one other : Magnitude}
    (oneMember : one ∈ magnitudes) (otherMember : other ∈ magnitudes)
    (inOne : one.Brackets value) (inOther : other.Brackets value) : one = other := by
  induction magnitudes generalizing low with
  | nil => cases oneMember
  | cons first rest inductionHypothesis =>
      rcases tiles with ⟨rfl, tiles⟩
      have notLater : forall later, later ∈ rest -> later.Brackets value ->
          ¬ first.Brackets value := by
        intro later member inLater inFirst
        have apart : (10 : K) ^ (first.exponent + 3) ≤ 10 ^ later.exponent :=
          zpow_le_zpow_right₀ Nat.one_le_ofNat (tiles.exponent_bounds member).1
        exact absurd inFirst.below (not_lt_of_ge (apart.trans inLater.atLeast))
      rcases List.mem_cons.mp oneMember with rfl | oneLater <;>
        rcases List.mem_cons.mp otherMember with rfl | otherLater
      · rfl
      · exact absurd inOne (notLater other otherLater inOther)
      · exact absurd inOther (notLater one oneLater inOne)
      · exact inductionHypothesis tiles oneLater otherLater

/-- A value between the least magnitude and the greatest. -/
structure WithinReach (value : K) : Prop where
  atLeast : (10 : K) ^ (-24 : Int) ≤ |value|
  below : |value| < (10 : K) ^ (24 : Int)

/-- Zero lies below the least magnitude. -/
theorem not_withinReach_zero : ¬ WithinReach (0 : K) := by
  rintro ⟨atLeast, _⟩
  rw [abs_zero] at atLeast
  exact absurd atLeast (not_le_of_gt (tenTo_pos _))

theorem Brackets.withinReach {magnitude : Magnitude} {value : K}
    (member : magnitude ∈ belowYotta) (brackets : magnitude.Brackets value) :
    WithinReach value := by
  rcases belowYotta_tiles.exponent_bounds member with ⟨low, high⟩
  exact ⟨(zpow_le_zpow_right₀ Nat.one_le_ofNat low).trans brackets.atLeast,
    brackets.below.trans_le (zpow_le_zpow_right₀ Nat.one_le_ofNat high)⟩

/-! ## The search for a magnitude -/

variable [Scalar K] [OrderedScalar K]

omit [IsStrictOrderedRing K] in
theorem inBracket_iff {value : K} : inBracket value = true <-> 1 ≤ |value| ∧ |value| < 1000 := by
  simp [inBracket, OrderedScalar.abs_eq, OrderedScalar.le_eq, OrderedScalar.lt_eq,
    ExactScalar.ofInt_eq]

/-- Rescaled to a magnitude, a value is in the range exactly when it stands in the bracket of the
magnitude. -/
theorem inBracket_rebase_iff {magnitude : Magnitude} {value : K} :
    inBracket (rebase value .plain magnitude) = true <-> magnitude.Brackets value := by
  have positive : (0 : K) < 10 ^ magnitude.exponent := tenTo_pos _
  have scaled : |rebase value .plain magnitude| = |value| / (10 : K) ^ magnitude.exponent := by
    have counted : rebase value .plain magnitude = value / (10 : K) ^ magnitude.exponent := by
      rw [rebase_eq, show plain.exponent - magnitude.exponent = -magnitude.exponent from
        Int.zero_sub _, zpow_neg, div_eq_mul_inv]
    rw [counted, abs_div, abs_of_pos positive]
  have thousand : (10 : K) ^ (magnitude.exponent + 3) = 1000 * 10 ^ magnitude.exponent := by
    rw [zpow_add₀ (by norm_num), mul_comm]
    norm_num
  rw [inBracket_iff, scaled, one_le_div positive, div_lt_iff₀ positive, brackets_iff, thousand]

/-- The magnitude that fits a value is the one in whose bracket it stands. -/
theorem bestFit_of_brackets {magnitude : Magnitude} {value : K}
    (member : magnitude ∈ belowYotta) (brackets : magnitude.Brackets value) :
    bestFit value = magnitude := by
  rcases bestFit_cases value with ⟨_, fits⟩ | ⟨_, noneFits⟩
  · exact belowYotta_tiles.brackets_unique (bestFit_mem value) member
      (inBracket_rebase_iff.mp fits) brackets
  · rcases noneFits with notFinite | zero | noneFits
    · cases (OrderedScalar.isFinite_eq value).symm.trans notFinite
    · have isZero : value = 0 := by
        simpa [OrderedScalar.eq_eq, ExactScalar.ofInt_eq] using zero
      exact absurd (isZero ▸ brackets.withinReach member) not_withinReach_zero
    · cases (inBracket_rebase_iff.mpr brackets).symm.trans (noneFits magnitude member)

/-- A value that stands in no bracket stays plain. -/
theorem bestFit_of_beyond {value : K} (beyond : ¬ WithinReach value) : bestFit value = .plain := by
  rcases bestFit_cases value with ⟨_, fits⟩ | ⟨plain, _⟩
  · exact absurd ((inBracket_rebase_iff.mp fits).withinReach (bestFit_mem value)) beyond
  · exact plain

theorem brackets_bestFit {value : K} (within : WithinReach value) :
    (bestFit value).Brackets value := by
  rcases belowYotta_tiles.exists_brackets within.atLeast within.below with ⟨magnitude, member, brackets⟩
  rw [bestFit_of_brackets member brackets]
  exact brackets

/-- The values that stay plain: those up to a thousand, and those that are beyond reach. -/
theorem bestFit_eq_plain_iff {value : K} :
    bestFit value = .plain <-> (1 ≤ |value| ∧ |value| < 1000) ∨ ¬ WithinReach value := by
  constructor
  · intro isPlain
    by_cases within : WithinReach value
    · exact Or.inl (brackets_plain_iff.mp (isPlain ▸ brackets_bestFit within))
    · exact Or.inr within
  · rintro (inRange | beyond)
    · exact bestFit_of_brackets (by decide) (brackets_plain_iff.mpr inRange)
    · exact bestFit_of_beyond beyond

end Magnitude

/-! ## One way to show a quantity -/

namespace Quantity

variable {K : Type} [Field K] [LinearOrder K] [IsStrictOrderedRing K] [Scalar K] [OrderedScalar K]

/-- What the search for a magnitude makes of a quantity. -/
def searched (quantity : Quantity K) : Quantity K :=
  ⟨Magnitude.rebase quantity.base .plain (Magnitude.bestFit quantity.base), quantity.unit,
    Magnitude.bestFit quantity.base⟩

/-- A quantity that stands in the bracket of its magnitude stands under the magnitude that the
search would find. -/
theorem bestFit_base_of_stands {quantity : Quantity K} (listed : quantity.magnitude ∈ Magnitude.all)
    (stands : quantity.stands = true) :
    Magnitude.bestFit quantity.base = quantity.magnitude := by
  simp only [Quantity.stands, Bool.and_eq_true, decide_eq_true_eq] at stands
  refine Magnitude.bestFit_of_brackets (Magnitude.mem_belowYotta.mpr ⟨listed, stands.1⟩) ?_
  rw [← Magnitude.inBracket_rebase_iff, rebase_base]
  exact stands.2

/-- The search is left out where it would change nothing. -/
theorem normalize_eq_searched {quantity : Quantity K} (hasUnit : quantity.isDimensionless = false)
    (listed : quantity.magnitude ∈ Magnitude.all) : quantity.normalize = quantity.searched := by
  cases stands : quantity.stands with
  | false => exact normalize_misfit hasUnit stands
  | true =>
      rw [normalize_standing hasUnit stands, searched, bestFit_base_of_stands listed stands,
        rebase_base]

/-- A normalized quantity depends on the plain value and on the unit, not on the magnitude that it
came with. -/
theorem normalize_eq_of_base_eq {left right : Quantity K}
    (leftListed : left.magnitude ∈ Magnitude.all) (rightListed : right.magnitude ∈ Magnitude.all)
    (sameUnit : left.unit.same right.unit = true) (sameBase : left.base = right.base) :
    left.normalize = { right.normalize with unit := left.unit } := by
  have sameKind : right.isDimensionless = left.isDimensionless :=
    congrArg (fun label => label.symbol == "") (eq_of_beq sameUnit).symm
  cases dimensionless : left.isDimensionless with
  | true =>
      rw [normalize_dimensionless dimensionless,
        normalize_dimensionless (sameKind.trans dimensionless), sameBase]
  | false =>
      rw [normalize_eq_searched dimensionless leftListed,
        normalize_eq_searched (sameKind.trans dimensionless) rightListed, searched, searched,
        sameBase]

/--
The magnitude that a value is shown under is a canonical choice.  A value between the least
magnitude and the greatest stands in one bracket only, and that is the one the search finds; every
other value stays plain.  Normalizing keeps the unit and the plain value, it does what the search
does also where it leaves the search out.  So two quantities of one unit and one plain value are
the same when normalized, whatever the magnitudes they come with; they are identical when their
units are the same definition, and compare as equal when only the labels agree.
-/
theorem normalize_canonical (value : K) (quantity other : Quantity K)
    (listed : quantity.magnitude ∈ Magnitude.all) (otherListed : other.magnitude ∈ Magnitude.all) :
    (Magnitude.WithinReach value ->
      Magnitude.bestFit value ∈ Magnitude.all ∧ Magnitude.bestFit value ≠ .yotta ∧
        forall magnitude, magnitude ∈ Magnitude.all -> magnitude ≠ .yotta ->
          (magnitude.Brackets value <-> magnitude = Magnitude.bestFit value)) ∧
    (¬ Magnitude.WithinReach value -> Magnitude.bestFit value = .plain) ∧
    quantity.normalize.unit = quantity.unit ∧ quantity.normalize.base = quantity.base ∧
    (quantity.isDimensionless = false -> quantity.normalize = quantity.searched) ∧
    (quantity.unit = other.unit -> quantity.base = other.base ->
      quantity.normalize = other.normalize) ∧
    (quantity.unit.same other.unit = true -> quantity.base = other.base ->
      quantity.normalize.same other.normalize = true) := by
  refine ⟨fun within => ?inReach, Magnitude.bestFit_of_beyond, unit_normalize quantity,
    base_normalize quantity, fun hasUnit => normalize_eq_searched hasUnit listed,
    fun sameUnit sameBase => ?identical, fun sameUnit sameBase => ?equal⟩
  case inReach =>
    have found := Magnitude.mem_belowYotta.mp (Magnitude.bestFit_mem value)
    refine ⟨found.1, found.2, fun magnitude member notYotta => ⟨fun brackets => ?_, ?_⟩⟩
    · exact (Magnitude.bestFit_of_brackets (Magnitude.mem_belowYotta.mpr ⟨member, notYotta⟩)
        brackets).symm
    · rintro rfl
      exact Magnitude.brackets_bestFit within
  case identical =>
    have sameLabel : quantity.unit.same other.unit = true := by
      rw [sameUnit]
      exact beq_self_eq_true _
    rw [normalize_eq_of_base_eq listed otherListed sameLabel sameBase, sameUnit]
    exact congrArg (Quantity.mk _ · _) (unit_normalize other).symm
  case equal =>
    rw [normalize_eq_of_base_eq listed otherListed sameUnit sameBase]
    simp [same, OrderedScalar.eq_eq, sameUnit]

/-- One and a half kilovolts, counted in kilovolts and in millivolts. -/
theorem normalize_canonical_kilovolts :
    Magnitude.WithinReach (1500 : ℚ) ∧ Magnitude.bestFit (1500 : ℚ) = .kilo ∧
      (⟨1500000, ⟨⟨"electric", "V"⟩, 0⟩, .milli⟩ : Quantity ℚ).normalize =
        ⟨3 / 2, ⟨⟨"electric", "V"⟩, 0⟩, .kilo⟩ := by
  rcases normalize_canonical (1500 : ℚ)
    ⟨1500000, ⟨⟨"electric", "V"⟩, 0⟩, .milli⟩ ⟨3 / 2, ⟨⟨"electric", "V"⟩, 0⟩, .kilo⟩
    (by decide) (by decide) with ⟨inReach, _, _, _, _, identical, _⟩
  have within : Magnitude.WithinReach (1500 : ℚ) := by
    constructor <;> norm_num
  have kilo : Magnitude.Brackets .kilo (1500 : ℚ) := by
    norm_num [Magnitude.brackets_iff, Magnitude.kilo]
  have sameBase : (⟨1500000, ⟨⟨"electric", "V"⟩, 0⟩, .milli⟩ : Quantity ℚ).base =
      (⟨3 / 2, ⟨⟨"electric", "V"⟩, 0⟩, .kilo⟩ : Quantity ℚ).base := by
    norm_num [base_eq, Magnitude.milli, Magnitude.kilo]
  have standing : (⟨3 / 2, ⟨⟨"electric", "V"⟩, 0⟩, .kilo⟩ : Quantity ℚ).stands = true := by
    decide +kernel
  rcases inReach within with ⟨_, _, only⟩
  exact ⟨within, ((only .kilo (by decide) (by decide)).mp kilo).symm,
    (identical rfl sameBase).trans (normalize_standing (by decide) standing)⟩

end Quantity
end QuantityCalculus
