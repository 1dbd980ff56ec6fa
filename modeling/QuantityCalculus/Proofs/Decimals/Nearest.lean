import QuantityCalculus.Proofs.Arithmetic.Negation

namespace QuantityCalculus
namespace Number

/-!
# The binary number nearest to a quotient

A quotient is rounded in two steps: its size determines the step between the binary numbers
around it, and counted in that step it goes to the nearest whole number, of two equally near
ones to the even one.  Both depend on the quotient alone and not on how it is written.

Turned around, a binary number has an interval of quotients that are rounded to it.  It reaches
half a step to either side, except below a power of two, where the steps are half as long; its
ends belong to it when the mantissa is even.
-/

/-! ## Rounding to whole numbers -/

/-- The whole number is nearest to the quotient, or it is the even one of two equally near. -/
def IsNearest (quotient : ℚ) (whole : Nat) : Prop :=
  |quotient - whole| < 1 / 2 ∨ (|quotient - whole| = 1 / 2 ∧ whole % 2 = 0)

theorem IsNearest.close {quotient : ℚ} {whole : Nat} (nearest : IsNearest quotient whole) :
    |quotient - whole| ≤ 1 / 2 :=
  nearest.elim le_of_lt fun equal => le_of_eq equal.1

theorem IsNearest.unique {quotient : ℚ} {whole other : Nat} (first : IsNearest quotient whole)
    (second : IsNearest quotient other) : whole = other := by
  have apart : |(whole : ℚ) - other| ≤ |quotient - whole| + |quotient - other| := by
    rw [abs_sub_comm quotient whole]
    exact abs_sub_le _ _ _
  have within : |(whole : ℤ) - other| ≤ 1 := by
    have bound : |(whole : ℚ) - other| ≤ 1 := by linarith [first.close, second.close]
    exact_mod_cast bound
  have bounds := abs_le.mp within
  by_cases strict : |(whole : ℚ) - other| < 1
  · have less : |(whole : ℤ) - other| < 1 := by exact_mod_cast strict
    have := abs_lt.mp less
    omega
  · -- Exactly one apart, both are equally near, and then both are even.
    rcases first with near | ⟨_, even⟩
    · exact absurd (by linarith [second.close]) strict
    · rcases second with near | ⟨_, otherEven⟩
      · exact absurd (by linarith) strict
      · omega

/-- The share of a remainder is below one half where twice the remainder is below the divisor. -/
theorem share_lt_half_iff {rest denominator : Nat} (positive : 0 < denominator) :
    (rest : ℚ) / denominator < 1 / 2 <-> 2 * rest < denominator := by
  rw [div_lt_iff₀ (by exact_mod_cast positive)]
  constructor <;> intro less
  · have : (2 : ℚ) * rest < denominator := by linarith
    exact_mod_cast this
  · have : (2 : ℚ) * rest < denominator := by exact_mod_cast less
    linarith

theorem half_lt_share_iff {rest denominator : Nat} (positive : 0 < denominator) :
    1 / 2 < (rest : ℚ) / denominator <-> denominator < 2 * rest := by
  rw [lt_div_iff₀ (by exact_mod_cast positive)]
  constructor <;> intro less
  · have : (denominator : ℚ) < 2 * rest := by linarith
    exact_mod_cast this
  · have : (denominator : ℚ) < 2 * rest := by exact_mod_cast less
    linarith

/-- How far a number between two whole ones is from either. -/
theorem distance_of_share (lower : Nat) {share : ℚ} (least : 0 ≤ share) (most : share ≤ 1) :
    |((lower : ℚ) + share) - lower| = share ∧
      |((lower : ℚ) + share) - (lower + 1 : Nat)| = 1 - share := by
  constructor
  · rw [add_sub_cancel_left, abs_of_nonneg least]
  · push_cast
    rw [abs_of_nonpos (by linarith)]
    ring

theorem roundQuotient_isNearest (numerator : Nat) {denominator : Nat} (positive : 0 < denominator) :
    IsNearest ((numerator : ℚ) / denominator) (roundQuotient numerator denominator) := by
  have size : (0 : ℚ) < denominator := by exact_mod_cast positive
  have parts : (numerator : ℚ) / denominator =
      (numerator / denominator : Nat) + (numerator % denominator : Nat) / denominator := by
    field_simp
    exact_mod_cast (Nat.div_add_mod numerator denominator).symm
  have restSmall := Nat.mod_lt numerator positive
  unfold roundQuotient
  rw [parts]
  generalize numerator / denominator = lower
  generalize numerator % denominator = rest at *
  have rest_lt_one : (rest : ℚ) / denominator < 1 := by
    rw [div_lt_one size]
    exact_mod_cast restSmall
  have below := @share_lt_half_iff rest _ positive
  have above := @half_lt_share_iff rest _ positive
  rcases distance_of_share lower (by positivity) rest_lt_one.le with ⟨distance, otherDistance⟩
  dsimp only
  split
  · rename_i small
    exact Or.inl (by rw [distance]; exact below.mpr small)
  · rename_i notSmall
    split
    · rename_i large
      exact Or.inl (by rw [otherDistance]; linarith [above.mpr large])
    · rename_i notLarge
      have half : (rest : ℚ) / denominator = 1 / 2 :=
        le_antisymm (not_lt.mp (mt above.mp notLarge)) (not_lt.mp (mt below.mp notSmall))
      split
      · rename_i even
        exact Or.inr ⟨by rw [distance, half], even⟩
      · rename_i odd
        exact Or.inr ⟨by rw [otherDistance, half]; norm_num, by omega⟩

/-! ## The leading bit of a quotient -/

theorem zpow_two_pos (exponent : Int) : (0 : ℚ) < 2 ^ exponent :=
  zpow_pos (by norm_num) exponent

section

variable {numerator denominator : Nat}

/-- The two sides of a quotient counted in a power of two. -/
def shiftedBy (numerator denominator : Nat) (exponent : Int) : Nat × Nat :=
  match exponent with
  | .ofNat up => (numerator, denominator * Nat.pow 2 up)
  | .negSucc down => (numerator * Nat.pow 2 (down + 1), denominator)

/-- Shifting either side of a quotient decides whether it is below a power of two. -/
theorem shiftedBy_lt_iff (positive : 0 < denominator) (exponent : Int) :
    (shiftedBy numerator denominator exponent).1 < (shiftedBy numerator denominator exponent).2 <->
      (numerator : ℚ) / denominator < 2 ^ exponent := by
  have size : (0 : ℚ) < denominator := by exact_mod_cast positive
  cases exponent with
  | ofNat up =>
      rw [shiftedBy, Int.ofNat_eq_natCast, zpow_natCast, div_lt_iff₀ size, mul_comm]
      norm_cast
  | negSucc down =>
      rw [shiftedBy, zpow_negSucc, div_lt_iff₀ size, inv_mul_eq_div, lt_div_iff₀ (by positivity)]
      norm_cast

theorem log2_cast_bounds {number : Nat} (some : 0 < number) :
    (2 : ℚ) ^ (number.log2 : ℤ) ≤ number ∧ (number : ℚ) < 2 ^ ((number.log2 : ℤ) + 1) := by
  constructor
  · exact_mod_cast Nat.log2_self_le some.ne'
  · exact_mod_cast Nat.lt_log2_self

/-- The leading bits of its two sides tell the size of a quotient up to one place. -/
theorem quotient_bounds (some : 0 < numerator) (positive : 0 < denominator) :
    (2 : ℚ) ^ ((numerator.log2 : ℤ) - denominator.log2 - 1) < (numerator : ℚ) / denominator ∧
      (numerator : ℚ) / denominator < 2 ^ ((numerator.log2 : ℤ) - denominator.log2 + 1) := by
  have size : (0 : ℚ) < denominator := by exact_mod_cast positive
  rcases log2_cast_bounds some with ⟨numeratorLow, numeratorHigh⟩
  rcases log2_cast_bounds positive with ⟨denominatorLow, denominatorHigh⟩
  constructor
  · rw [lt_div_iff₀ size]
    calc (2 : ℚ) ^ ((numerator.log2 : ℤ) - denominator.log2 - 1) * denominator
        < 2 ^ ((numerator.log2 : ℤ) - denominator.log2 - 1) * 2 ^ ((denominator.log2 : ℤ) + 1) :=
          mul_lt_mul_of_pos_left denominatorHigh (zpow_two_pos _)
      _ = 2 ^ (numerator.log2 : ℤ) := by
          rw [← zpow_add₀ two_ne_zero]
          congr 1
          ring
      _ ≤ numerator := numeratorLow
  · rw [div_lt_iff₀ size]
    calc (numerator : ℚ) < 2 ^ ((numerator.log2 : ℤ) + 1) := numeratorHigh
      _ = 2 ^ ((numerator.log2 : ℤ) - denominator.log2 + 1) * 2 ^ (denominator.log2 : ℤ) := by
          rw [← zpow_add₀ two_ne_zero]
          congr 1
          ring
      _ ≤ 2 ^ ((numerator.log2 : ℤ) - denominator.log2 + 1) * denominator :=
          mul_le_mul_of_nonneg_left denominatorLow (zpow_two_pos _).le

/-- The leading bit of a quotient is where its binary logarithm says. -/
theorem leadingExponent_bounds (some : 0 < numerator) (positive : 0 < denominator) :
    (2 : ℚ) ^ leadingExponent numerator denominator ≤ (numerator : ℚ) / denominator ∧
      (numerator : ℚ) / denominator < 2 ^ (leadingExponent numerator denominator + 1) := by
  rcases quotient_bounds some positive with ⟨above, below⟩
  have decides : leadingExponent numerator denominator =
      if (numerator : ℚ) / denominator < 2 ^ ((numerator.log2 : ℤ) - denominator.log2) then
        (numerator.log2 : ℤ) - denominator.log2 - 1
      else (numerator.log2 : ℤ) - denominator.log2 :=
    if_congr (shiftedBy_lt_iff positive _) rfl rfl
  rw [decides]
  split
  · rename_i less
    rw [sub_add_cancel]
    exact ⟨above.le, less⟩
  · rename_i notLess
    exact ⟨not_lt.mp notLess, below⟩

theorem leadingExponent_eq_iff (some : 0 < numerator) (positive : 0 < denominator)
    {exponent : Int} : leadingExponent numerator denominator = exponent <->
      (2 : ℚ) ^ exponent ≤ (numerator : ℚ) / denominator ∧
        (numerator : ℚ) / denominator < 2 ^ (exponent + 1) := by
  have bounds := leadingExponent_bounds some positive
  constructor
  · rintro rfl
    exact bounds
  · rintro ⟨low, high⟩
    have first := (zpow_lt_zpow_iff_right₀ one_lt_two).mp (bounds.1.trans_lt high)
    have second := (zpow_lt_zpow_iff_right₀ one_lt_two).mp (low.trans_lt bounds.2)
    omega

/-! ## The bits of the nearest number -/

/-- The bits of a mantissa and an exponent without a sign. -/
def partBits (mantissa : Nat) (exponent : Int) : Nat :=
  (exponent + 1074).toNat * Nat.pow 2 52 + mantissa

theorem shiftedBy_eq (exponent : Int) :
    ((shiftedBy numerator denominator exponent).1 : ℚ) /
        (shiftedBy numerator denominator exponent).2 =
      (numerator : ℚ) / denominator / 2 ^ exponent := by
  cases exponent with
  | ofNat up =>
      rw [shiftedBy, Int.ofNat_eq_natCast, zpow_natCast, div_div]
      norm_cast
  | negSucc down =>
      rw [shiftedBy, zpow_negSucc, div_inv_eq_mul, div_mul_eq_mul_div]
      norm_cast

theorem shiftedBy_pos (positive : 0 < denominator) (exponent : Int) :
    0 < (shiftedBy numerator denominator exponent).2 := by
  cases exponent with
  | ofNat up => exact Nat.mul_pos positive (Nat.two_pow_pos up)
  | negSucc down => exact positive

/-- The step between the binary numbers around a quotient. -/
def stepAround (numerator denominator : Nat) : Int :=
  max (leadingExponent numerator denominator - 52) (-1074)

theorem exists_nearestBits (some : 0 < numerator) (positive : 0 < denominator) :
    ∃ mantissa, IsNearest ((numerator : ℚ) / denominator / 2 ^ stepAround numerator denominator)
        mantissa ∧
      nearestBits numerator denominator =
        min (partBits mantissa (stepAround numerator denominator)) infinityBits := by
  have steps : nearestBits numerator denominator =
      min (partBits (roundQuotient
          (shiftedBy numerator denominator (stepAround numerator denominator)).1
          (shiftedBy numerator denominator (stepAround numerator denominator)).2)
        (stepAround numerator denominator)) infinityBits := by
    rw [nearestBits, if_neg some.ne', partBits, stepAround]
    generalize max (leadingExponent numerator denominator - 52) (-1074) = step
    cases step <;> rfl
  refine ⟨_, ?_, steps⟩
  rw [← shiftedBy_eq]
  exact roundQuotient_isNearest _ (shiftedBy_pos positive _)

theorem nearestBits_le (some : 0 < numerator) (positive : 0 < denominator) :
    nearestBits numerator denominator ≤ infinityBits := by
  rcases exists_nearestBits some positive with ⟨_, _, bits⟩
  exact bits ▸ min_le_right _ _

/-- Equal quotients are rounded alike. -/
theorem nearestBits_congr {other divisor : Nat} (some : 0 < numerator)
    (positive : 0 < denominator) (otherSome : 0 < other) (otherPositive : 0 < divisor)
    (same : (numerator : ℚ) / denominator = (other : ℚ) / divisor) :
    nearestBits numerator denominator = nearestBits other divisor := by
  have leading : leadingExponent numerator denominator = leadingExponent other divisor := by
    rw [leadingExponent_eq_iff some positive, same]
    exact leadingExponent_bounds otherSome otherPositive
  rcases exists_nearestBits some positive with ⟨mantissa, nearest, bits⟩
  rcases exists_nearestBits otherSome otherPositive with ⟨second, otherNearest, otherBits⟩
  rw [stepAround, leading, same] at nearest
  rw [stepAround] at otherNearest
  rw [bits, otherBits, stepAround, stepAround, leading, nearest.unique otherNearest]

end

/-! ## The quotients that are rounded to a number -/

/-- A mantissa and an exponent that a finite number can have. -/
structure IsFormat (mantissa : Nat) (exponent : Int) : Prop where
  least : -1074 ≤ exponent
  greatest : exponent ≤ 971
  small : mantissa < Nat.pow 2 53
  leading : exponent = -1074 ∨ Nat.pow 2 52 ≤ mantissa

/-- How far below a number the quotients reach that are rounded to it, in quarters of a step. -/
def quartersBelow (mantissa : Nat) (exponent : Int) : Nat :=
  if mantissa = Nat.pow 2 52 ∧ -1074 < exponent then 1 else 2

/-- The quotient is rounded to the mantissa times the power of two. -/
def RoundsTo (quotient : ℚ) (mantissa : Nat) (exponent : Int) : Prop :=
  let counted := quotient / 2 ^ exponent
  if mantissa % 2 = 0 then
    (mantissa : ℚ) - quartersBelow mantissa exponent / 4 ≤ counted ∧ counted ≤ mantissa + 1 / 2
  else
    (mantissa : ℚ) - quartersBelow mantissa exponent / 4 < counted ∧ counted < mantissa + 1 / 2

section

variable {mantissa : Nat} {exponent : Int} {quotient : ℚ}

theorem quartersBelow_le (mantissa : Nat) (exponent : Int) :
    (quartersBelow mantissa exponent : ℚ) ≤ 2 := by
  unfold quartersBelow
  split <;> norm_num

theorem RoundsTo.above (rounds : RoundsTo quotient mantissa exponent) :
    (mantissa : ℚ) - quartersBelow mantissa exponent / 4 ≤ quotient / 2 ^ exponent := by
  unfold RoundsTo at rounds
  dsimp only at rounds
  split at rounds
  · exact rounds.1
  · exact rounds.1.le

theorem RoundsTo.below (rounds : RoundsTo quotient mantissa exponent) :
    quotient / 2 ^ exponent ≤ mantissa + 1 / 2 := by
  unfold RoundsTo at rounds
  dsimp only at rounds
  split at rounds
  · exact rounds.2
  · exact rounds.2.le

/-- Less than a quarter or half a step off, a quotient is rounded to the number. -/
theorem roundsTo_of_close
    (close : |quotient / 2 ^ exponent - mantissa| < quartersBelow mantissa exponent / 4) :
    RoundsTo quotient mantissa exponent := by
  have half := quartersBelow_le mantissa exponent
  have bounds := abs_lt.mp close
  unfold RoundsTo
  dsimp only
  split <;> constructor <;> linarith

/-- Counted in the step of its number, such a quotient is nearest to the mantissa. -/
theorem RoundsTo.isNearest (rounds : RoundsTo quotient mantissa exponent) :
    IsNearest (quotient / 2 ^ exponent) mantissa := by
  have half := quartersBelow_le mantissa exponent
  have low := rounds.above
  have high := rounds.below
  by_cases even : mantissa % 2 = 0
  · have close : |quotient / 2 ^ exponent - mantissa| ≤ 1 / 2 := by
      rw [abs_le]
      constructor <;> linarith
    exact (lt_or_eq_of_le close).imp id fun equal => ⟨equal, even⟩
  · unfold RoundsTo at rounds
    dsimp only at rounds
    rw [if_neg even] at rounds
    refine Or.inl (abs_lt.mpr ?_)
    constructor <;> linarith [rounds.1, rounds.2]

theorem partBits_lt (format : IsFormat mantissa exponent) :
    partBits mantissa exponent < infinityBits := by
  have small := format.small
  have greatest := format.greatest
  simp only [partBits, infinityBits, Nat.pow_eq] at *
  omega

theorem lt_two_pow_iff {step : Int} {places : Nat} :
    quotient / 2 ^ step < 2 ^ places <-> quotient < 2 ^ (step + places) := by
  rw [div_lt_iff₀ (zpow_two_pos _), zpow_add₀ two_ne_zero, zpow_natCast, mul_comm]

theorem two_pow_le_iff {step : Int} {places : Nat} :
    2 ^ places ≤ quotient / 2 ^ step <-> 2 ^ (step + places) ≤ quotient := by
  rw [le_div_iff₀ (zpow_two_pos _), zpow_add₀ two_ne_zero, zpow_natCast, mul_comm]

variable {numerator denominator : Nat}

/-- A quotient that is rounded to a number has its leading bit no higher than a full mantissa. -/
theorem RoundsTo.leadingExponent_le (rounds : RoundsTo ((numerator : ℚ) / denominator) mantissa
    exponent) (format : IsFormat mantissa exponent) (some : 0 < numerator)
    (positive : 0 < denominator) : leadingExponent numerator denominator ≤ exponent + 52 := by
  have size : (mantissa : ℚ) ≤ 2 ^ 53 - 1 := by
    have small : mantissa + 1 ≤ Nat.pow 2 53 := format.small
    have : (mantissa : ℚ) + 1 ≤ 2 ^ 53 := by exact_mod_cast small
    linarith
  have less : (numerator : ℚ) / denominator < 2 ^ (exponent + (53 : Nat)) :=
    lt_two_pow_iff.mp (by linarith [rounds.below])
  have := (zpow_lt_zpow_iff_right₀ one_lt_two).mp
    ((leadingExponent_bounds some positive).1.trans_lt less)
  push_cast at this
  omega

/-- A quotient with fewer places than a full mantissa is rounded to one only at a power of two. -/
theorem RoundsTo.mantissa_of_below (rounds : RoundsTo quotient mantissa exponent)
    (normal : Nat.pow 2 52 ≤ mantissa) (outside : quotient / 2 ^ exponent < 2 ^ 52) :
    mantissa = Nat.pow 2 52 := by
  have half := quartersBelow_le mantissa exponent
  have less : (mantissa : ℚ) < 2 ^ 52 + 1 := by linarith [rounds.above]
  have whole : mantissa < Nat.pow 2 52 + 1 := by exact_mod_cast less
  exact le_antisymm (by omega) normal

/-- The step around a quotient that is rounded to a number is the step of that number.  Only below
a power of two it is half as long. -/
theorem RoundsTo.stepAround_cases (rounds : RoundsTo ((numerator : ℚ) / denominator) mantissa
    exponent) (format : IsFormat mantissa exponent) (some : 0 < numerator)
    (positive : 0 < denominator) :
    stepAround numerator denominator = exponent ∨
      (stepAround numerator denominator = exponent - 1 ∧ mantissa = Nat.pow 2 52 ∧
        -1074 < exponent ∧ (numerator : ℚ) / denominator / 2 ^ exponent < 2 ^ 52) := by
  have bounds := leadingExponent_bounds some positive
  have half := quartersBelow_le mantissa exponent
  have low := rounds.above
  have least := format.least
  have upper := rounds.leadingExponent_le format some positive
  unfold stepAround
  rcases format.leading with subnormal | normal
  · exact Or.inl (by omega)
  · have leading : (2 : ℚ) ^ 52 ≤ mantissa := by exact_mod_cast normal
    by_cases inside : (2 : ℚ) ^ 52 ≤ (numerator : ℚ) / denominator / 2 ^ exponent
    · have lower := (zpow_lt_zpow_iff_right₀ one_lt_two).mp
        ((two_pow_le_iff.mp inside).trans_lt bounds.2)
      push_cast at lower
      exact Or.inl (by omega)
    · have outside := not_le.mp inside
      have power := rounds.mantissa_of_below normal outside
      by_cases bottom : exponent = -1074
      · exact Or.inl (by omega)
      · refine Or.inr ⟨?_, power, by omega, outside⟩
        have lower : (2 : ℚ) ^ 51 ≤ (numerator : ℚ) / denominator / 2 ^ exponent := by
          have : (2 : ℚ) ^ 51 ≤ 2 ^ 52 - 1 / 2 := by norm_num
          linarith
        have atLeast := (zpow_lt_zpow_iff_right₀ one_lt_two).mp
          ((two_pow_le_iff.mp lower).trans_lt bounds.2)
        have below := (zpow_lt_zpow_iff_right₀ one_lt_two).mp
          (bounds.1.trans_lt (lt_two_pow_iff.mp outside))
        push_cast at atLeast below
        omega

/-- A quotient that is rounded to a number has its bits. -/
theorem RoundsTo.nearestBits (rounds : RoundsTo ((numerator : ℚ) / denominator) mantissa exponent)
    (format : IsFormat mantissa exponent) (some : 0 < numerator) (positive : 0 < denominator) :
    nearestBits numerator denominator = partBits mantissa exponent := by
  rcases exists_nearestBits some positive with ⟨rounded, nearest, bits⟩
  have finite := (partBits_lt format).le
  rcases rounds.stepAround_cases format some positive with same | ⟨halved, power, above, outside⟩
  · rw [same] at nearest bits
    rw [bits, nearest.unique rounds.isNearest, min_eq_left finite]
  · have low := rounds.above
    rw [quartersBelow, if_pos ⟨power, above⟩, power] at low
    push_cast at low
    -- Counted in half the step, the quotient is just below the next power of two.
    have doubled : (numerator : ℚ) / denominator / 2 ^ (exponent - 1) =
        2 * ((numerator : ℚ) / denominator / 2 ^ exponent) := by
      rw [zpow_sub_one₀ two_ne_zero]
      field_simp
    have carry : IsNearest ((numerator : ℚ) / denominator / 2 ^ (exponent - 1)) (Nat.pow 2 53) := by
      have close : |(numerator : ℚ) / denominator / 2 ^ (exponent - 1) - (Nat.pow 2 53 : Nat)| ≤
          1 / 2 := by
        rw [doubled, abs_le]
        push_cast [Nat.pow_eq] at low ⊢
        constructor <;> linarith
      exact (lt_or_eq_of_le close).imp id fun equal => ⟨equal, by decide⟩
    have carried : partBits (Nat.pow 2 53) (exponent - 1) = partBits mantissa exponent := by
      simp only [partBits, power, Nat.pow_eq]
      omega
    rw [halved] at nearest bits
    rw [bits, nearest.unique carry, carried, min_eq_left finite]

/-- Counted in the step around it, a quotient has at most fifty-three binary places, and fewer than
that only where the steps are the smallest. -/
theorem IsNearest.mantissa_bounds {rounded : Nat}
    (nearest : IsNearest ((numerator : ℚ) / denominator / 2 ^ stepAround numerator denominator)
      rounded)
    (some : 0 < numerator) (positive : 0 < denominator) :
    rounded ≤ Nat.pow 2 53 ∧
      (stepAround numerator denominator = -1074 ∨ Nat.pow 2 52 ≤ rounded) := by
  have bounds := leadingExponent_bounds some positive
  have close := abs_le.mp nearest.close
  have atMost : (2 : ℚ) ^ (leadingExponent numerator denominator + 1) ≤
      2 ^ (stepAround numerator denominator + (53 : Nat)) :=
    zpow_le_zpow_right₀ one_le_two (by unfold stepAround; push_cast; omega)
  have below := lt_two_pow_iff.mpr (bounds.2.trans_le atMost)
  refine ⟨?_, ?_⟩
  · have less : (rounded : ℚ) < 2 ^ 53 + 1 := by linarith
    have whole : rounded < Nat.pow 2 53 + 1 := by exact_mod_cast less
    omega
  · by_cases bottom : stepAround numerator denominator = -1074
    · exact Or.inl bottom
    · have step : stepAround numerator denominator + (52 : Nat) =
          leadingExponent numerator denominator := by
        unfold stepAround at *
        push_cast
        omega
      have atLeast := two_pow_le_iff.mpr (step ▸ bounds.1)
      have greater : (2 : ℚ) ^ 52 < rounded + 1 := by linarith
      have whole : Nat.pow 2 52 < rounded + 1 := by exact_mod_cast greater
      exact Or.inr (by omega)

/-- Only quotients that are nearest to a number, counted in its step, have its bits. -/
theorem isNearest_of_nearestBits (format : IsFormat mantissa exponent) (some : 0 < numerator)
    (positive : 0 < denominator)
    (same : Number.nearestBits numerator denominator = partBits mantissa exponent) :
    IsNearest ((numerator : ℚ) / denominator / 2 ^ exponent) mantissa := by
  rcases exists_nearestBits some positive with ⟨rounded, nearest, bits⟩
  have bounds := nearest.mantissa_bounds some positive
  have least : -1074 ≤ stepAround numerator denominator := le_max_right _ _
  have finite := partBits_lt format
  generalize stepAround numerator denominator = step at *
  rcases format with ⟨formatLeast, _, small, leading⟩
  -- The bits agree, so the parts do, but for a mantissa that carries.
  have cases : step = exponent ∧ rounded = mantissa ∨
      step = exponent - 1 ∧ rounded = Nat.pow 2 53 ∧ mantissa = Nat.pow 2 52 := by
    simp only [partBits, Nat.pow_eq] at *
    omega
  rcases cases with ⟨rfl, rfl⟩ | ⟨rfl, rfl, rfl⟩
  · exact nearest
  · have close := abs_le.mp nearest.close
    rw [zpow_sub_one₀ two_ne_zero, ← div_div, div_inv_eq_mul] at close
    refine Or.inl (abs_lt.mpr ?_)
    push_cast [Nat.pow_eq] at close ⊢
    constructor <;> linarith

end

end Number
end QuantityCalculus
