import QuantityCalculus.Proofs.Decimals.Spelled

namespace QuantityCalculus
namespace Number

/-!
# The shortest digits read back

The search for the shortest digits of a number tests the neighbours of the number on a decimal
grid for membership in its interval, and keeps the first that it finds.  What is kept is therefore
rounded to the number.  That something is found is a matter of size: with seventeen digits the
grid is finer than the binary numbers around, so the nearer neighbour cannot lie outside.
-/

/-! ## The interval of a number -/

/-- The interval encloses the quotients that are rounded to the mantissa times the power of two. -/
structure RoundingInterval.Encloses (interval : RoundingInterval) (mantissa : Nat)
    (exponent : Int) : Prop where
  positive : 0 < interval.denominator
  value : (interval.value : ℚ) / interval.denominator = mantissa * 2 ^ exponent
  lower : (interval.lower : ℚ) / interval.denominator =
    (mantissa - quartersBelow mantissa exponent / 4) * 2 ^ exponent
  upper : (interval.upper : ℚ) / interval.denominator = (mantissa + 1 / 2) * 2 ^ exponent
  closed : interval.closed = true <-> mantissa % 2 = 0

section

variable {mantissa : Nat} {exponent : Int}

theorem scaledRatio_denominator (value other : Nat) (shift : Int) :
    (scaledRatio value shift).2 = (scaledRatio other shift).2 := by
  cases shift <;> rfl

/-- Quarters of a step over the common denominator. -/
theorem scaledRatio_quarters (quarters : Nat) (exponent : Int) :
    ((scaledRatio quarters (exponent - 2)).1 : ℚ) / (scaledRatio 1 (exponent - 2)).2 =
      quarters / 4 * 2 ^ exponent := by
  rw [scaledRatio_denominator 1 quarters, scaledRatio_eq, zpow_sub₀ two_ne_zero]
  norm_num
  ring

theorem roundingInterval_encloses (some : 0 < mantissa) :
    (roundingInterval mantissa exponent).Encloses mantissa exponent where
  positive := scaledRatio_pos _ _
  value := by
    refine (scaledRatio_quarters _ _).trans ?_
    push_cast
    ring
  lower := by
    have below : (if mantissa = Nat.pow 2 52 && decide (-1074 < exponent) then 1 else 2) =
        quartersBelow mantissa exponent := by
      unfold quartersBelow
      simp only [Bool.and_eq_true, decide_eq_true_eq]
    have enough : quartersBelow mantissa exponent ≤ 4 * mantissa := by
      unfold quartersBelow
      split <;> omega
    refine (scaledRatio_quarters _ _).trans ?_
    rw [below, Nat.cast_sub enough]
    push_cast
    ring
  upper := by
    refine (scaledRatio_quarters _ _).trans ?_
    push_cast
    ring
  closed := beq_iff_eq

variable {interval : RoundingInterval}

/-- Comparing cross products compares quotients. -/
theorem cross_le_iff {a b c d : Nat} (first : 0 < b) (second : 0 < d) :
    a * d ≤ c * b <-> (a : ℚ) / b ≤ (c : ℚ) / d := by
  rw [div_le_div_iff₀ (by exact_mod_cast first) (by exact_mod_cast second)]
  norm_cast

theorem cross_lt_iff {a b c d : Nat} (first : 0 < b) (second : 0 < d) :
    a * d < c * b <-> (a : ℚ) / b < (c : ℚ) / d := by
  rw [div_lt_div_iff₀ (by exact_mod_cast first) (by exact_mod_cast second)]
  norm_cast

/-- The test for membership decides which quotients are rounded to the number. -/
theorem RoundingInterval.Encloses.admits_iff (encloses : interval.Encloses mantissa exponent)
    {candidate unit scale : Nat} (positive : 0 < scale) :
    interval.admits candidate unit scale = true <->
      RoundsTo ((candidate * unit : Nat) / scale) mantissa exponent := by
  have size := zpow_two_pos exponent
  have first := encloses.positive
  unfold RoundingInterval.admits RoundsTo
  dsimp only
  by_cases even : mantissa % 2 = 0
  · rw [if_pos (encloses.closed.mpr even), if_pos even, Bool.and_eq_true, Nat.ble_eq, Nat.ble_eq,
      cross_le_iff first positive, cross_le_iff positive first, encloses.lower, encloses.upper,
      le_div_iff₀ size, div_le_iff₀ size]
  · rw [if_neg (mt encloses.closed.mp even), if_neg even, Bool.and_eq_true, Nat.blt_eq,
      Nat.blt_eq, cross_lt_iff first positive, cross_lt_iff positive first, encloses.lower,
      encloses.upper, lt_div_iff₀ size, div_lt_iff₀ size]

/-! ## Neighbours on a decimal grid -/

/-- A whole number next to a quotient. -/
def IsNeighbour (quotient : ℚ) (whole : Nat) : Prop :=
  (whole : ℚ) - 1 ≤ quotient ∧ quotient < whole + 1

theorem IsNearest.isNeighbour {quotient : ℚ} {whole : Nat} (nearest : IsNearest quotient whole) :
    IsNeighbour quotient whole := by
  have close := abs_le.mp nearest.close
  constructor <;> linarith

/-- Rounding down and going on by at most one gives a neighbour. -/
theorem isNeighbour_of_div {numerator denominator whole : Nat} (positive : 0 < denominator)
    (next : whole = numerator / denominator ∨ whole = numerator / denominator + 1) :
    IsNeighbour ((numerator : ℚ) / denominator) whole := by
  have size : (0 : ℚ) < denominator := by exact_mod_cast positive
  have low : ((numerator / denominator : Nat) : ℚ) ≤ (numerator : ℚ) / denominator :=
    Nat.cast_div_le
  have high : (numerator : ℚ) / denominator < (numerator / denominator : Nat) + 1 := by
    rw [div_lt_iff₀ size]
    have less := Nat.lt_mul_div_succ numerator positive
    rw [mul_comm denominator] at less
    exact_mod_cast less
  rcases next with rfl | rfl
  · constructor <;> linarith
  · constructor <;> push_cast <;> linarith

/-- The neighbours of a number on a grid are tested, the nearer one first. -/
theorem RoundingInterval.onGrid?_cases (interval : RoundingInterval)
    (positive : 0 < interval.denominator) (point : Int) (count : Nat) :
    ∃ unit scale : Nat, 0 < unit ∧ 0 < scale ∧ (unit : ℚ) / scale = 10 ^ (point - count) ∧
      ∃ farther, IsNeighbour ((interval.value * scale : Nat) / (interval.denominator * unit : Nat))
          farther ∧ interval.onGrid? point count =
        let nearer := roundQuotient (interval.value * scale) (interval.denominator * unit)
        if interval.admits nearer unit scale then some nearer
        else if interval.admits farther unit scale then some farther
        else none := by
  unfold RoundingInterval.onGrid?
  cases point - count with
  | ofNat up =>
      have some : 0 < Nat.pow 10 up := Nat.pow_pos (by decide)
      refine ⟨Nat.pow 10 up, 1, some, Nat.one_pos, ?_, _,
        isNeighbour_of_div (Nat.mul_pos positive some) ?_, rfl⟩
      · rw [Int.ofNat_eq_natCast, zpow_natCast]
        push_cast [Nat.pow_eq]
        ring
      · split
        · exact Or.inr rfl
        · exact Or.inl rfl
  | negSucc down =>
      refine ⟨1, Nat.pow 10 (down + 1), Nat.one_pos, Nat.pow_pos (by decide), ?_, _,
        isNeighbour_of_div (Nat.mul_pos positive Nat.one_pos) ?_, rfl⟩
      · rw [zpow_negSucc]
        push_cast [Nat.pow_eq]
        ring
      · split
        · exact Or.inr rfl
        · exact Or.inl rfl

namespace RoundingInterval.Encloses

variable (encloses : interval.Encloses mantissa exponent)
include encloses

/-- The number counted in a unit of the grid. -/
theorem counted {point : Int} {count unit scale : Nat}
    (grid : (unit : ℚ) / scale = 10 ^ (point - count)) :
    ((interval.value * scale : Nat) : ℚ) / (interval.denominator * unit : Nat) =
      mantissa * 2 ^ exponent / 10 ^ (point - count) := by
  rw [← encloses.value, ← grid, div_div_div_eq]
  push_cast
  rfl

/-- What is found on a grid is a neighbour of the number and rounded to it. -/
theorem rounds_of_onGrid? {point : Int} {count candidate : Nat}
    (found : interval.onGrid? point count = some candidate) :
    RoundsTo (candidate * 10 ^ (point - count)) mantissa exponent ∧
      IsNeighbour (mantissa * 2 ^ exponent / 10 ^ (point - count)) candidate := by
  rcases interval.onGrid?_cases encloses.positive point count with
    ⟨unit, scale, some, positive, grid, farther, next, searched⟩
  have nearest := roundQuotient_isNearest (interval.value * scale)
    (Nat.mul_pos encloses.positive some)
  rw [encloses.counted grid] at next nearest
  have admitted : interval.admits candidate unit scale = true ∧
      IsNeighbour (mantissa * 2 ^ exponent / 10 ^ (point - count)) candidate := by
    rw [searched] at found
    dsimp only at found
    split at found
    · rename_i near
      exact Option.some.inj found ▸ ⟨near, nearest.isNeighbour⟩
    · split at found
      · rename_i far
        exact Option.some.inj found ▸ ⟨far, next⟩
      · cases found
  have rounds := (encloses.admits_iff positive).mp admitted.1
  rw [Nat.cast_mul, mul_div_assoc, grid] at rounds
  exact ⟨rounds, admitted.2⟩

/-- On a grid that is finer than the interval, something is found. -/
theorem onGrid?_isSome {point : Int} {count : Nat}
    (fine : 2 * (10 : ℚ) ^ (point - count) < quartersBelow mantissa exponent * 2 ^ exponent) :
    (interval.onGrid? point count).isSome = true := by
  rcases interval.onGrid?_cases encloses.positive point count with
    ⟨unit, scale, some, positive, grid, farther, _, searched⟩
  have size := zpow_two_pos exponent
  have step : (0 : ℚ) < 10 ^ (point - count) := zpow_pos (by norm_num) _
  have near := (roundQuotient_isNearest (interval.value * scale)
    (Nat.mul_pos encloses.positive some)).close
  rw [encloses.counted grid] at near
  have admitted : interval.admits (roundQuotient (interval.value * scale)
      (interval.denominator * unit)) unit scale = true := by
    refine (encloses.admits_iff positive).mpr (roundsTo_of_close ?_)
    rw [Nat.cast_mul, mul_div_assoc, grid]
    generalize roundQuotient (interval.value * scale) (interval.denominator * unit) = nearer at *
    generalize (10 : ℚ) ^ (point - count) = grain at *
    have scaled : (nearer : ℚ) * grain / 2 ^ exponent - mantissa =
        -(grain / 2 ^ exponent * (mantissa * 2 ^ exponent / grain - nearer)) := by
      field_simp
      ring
    rw [scaled, abs_neg, abs_mul, abs_of_pos (div_pos step size)]
    calc grain / 2 ^ exponent * |mantissa * 2 ^ exponent / grain - nearer|
        ≤ grain / 2 ^ exponent * (1 / 2) :=
          mul_le_mul_of_nonneg_left near (div_pos step size).le
      _ < quartersBelow mantissa exponent / 4 := by
          rw [div_mul_eq_mul_div, div_lt_iff₀ size]
          linarith
  rw [searched]
  dsimp only
  rw [if_pos admitted]
  rfl

end RoundingInterval.Encloses

/-! ## Seventeen digits -/

/-- The number of decimal digits of a whole number says between which powers of ten it lies. -/
theorem toDigits_length_bounds {number : Nat} (some : 0 < number) :
    10 ^ ((Nat.toDigits 10 number).length - 1) ≤ number ∧
      number < 10 ^ (Nat.toDigits 10 number).length := by
  constructor
  · by_cases single : (Nat.toDigits 10 number).length - 1 = 0
    · rw [single]
      exact some
    · refine not_lt.mp fun less => ?_
      have := (Nat.length_toDigits_le_iff (by decide) (Nat.pos_of_ne_zero single)).mpr less
      omega
  · exact (Nat.length_toDigits_le_iff (by decide) Nat.length_toDigits_pos).mp le_rfl

/-- The number of digits of a shifted quotient says between which powers of ten it lies. -/
theorem shifted_bounds {numerator denominator shift : Nat} (positive : 0 < denominator)
    (large : (10 : ℚ) ^ (-(shift : Int)) ≤ numerator / denominator) {point : Int}
    (counted : ((Nat.toDigits 10 (numerator * Nat.pow 10 shift / denominator)).length : Int) =
      point + shift) :
    (10 : ℚ) ^ (point - 1) ≤ numerator / denominator ∧
      (numerator : ℚ) / denominator < 10 ^ point := by
  have size : (0 : ℚ) < denominator := by exact_mod_cast positive
  have scale : (0 : ℚ) < 10 ^ shift := pow_pos (by norm_num) shift
  have some : denominator ≤ numerator * Nat.pow 10 shift := by
    rw [zpow_neg, zpow_natCast, inv_le_iff_one_le_mul₀ scale, div_mul_eq_mul_div,
      one_le_div size] at large
    exact_mod_cast large
  have bounds := toDigits_length_bounds (Nat.div_pos some positive)
  have atMost := Nat.div_mul_le_self (numerator * Nat.pow 10 shift) denominator
  have less := Nat.lt_mul_div_succ (numerator * Nat.pow 10 shift) positive
  have length : 0 < (Nat.toDigits 10 (numerator * Nat.pow 10 shift / denominator)).length :=
    Nat.length_toDigits_pos
  generalize (Nat.toDigits 10 (numerator * Nat.pow 10 shift / denominator)).length = places at *
  rw [Nat.pow_eq] at atMost less
  have before : point - 1 = ((places - 1 : Nat) : Int) - shift := by omega
  have after : point = (places : Int) - shift := by omega
  rw [before, after, zpow_sub₀ (by norm_num), zpow_sub₀ (by norm_num), zpow_natCast,
    zpow_natCast, zpow_natCast, div_le_div_iff₀ scale size, div_lt_div_iff₀ size scale]
  constructor
  · exact_mod_cast (Nat.mul_le_mul_right denominator bounds.1).trans atMost
  · have next := less.trans_le (Nat.mul_le_mul_left denominator (Nat.succ_le_of_lt bounds.2))
    rw [mul_comm denominator] at next
    exact_mod_cast next

/-- The number of digits before the point says between which powers of ten a quotient lies. -/
theorem decimalPoint_bounds {numerator denominator : Nat} (positive : 0 < denominator)
    (large : (10 : ℚ) ^ (-399 : Int) ≤ numerator / denominator) :
    (10 : ℚ) ^ (decimalPoint numerator denominator - 1) ≤ numerator / denominator ∧
      (numerator : ℚ) / denominator < 10 ^ decimalPoint numerator denominator := by
  -- The shift gets a name, so that its power of ten is never written out.
  obtain ⟨shift, same⟩ : ∃ shift : Nat, shift = 400 := ⟨400, rfl⟩
  have point : decimalPoint numerator denominator =
      ((Nat.toDigits 10 (numerator * Nat.pow 10 shift / denominator)).length : Int) - shift := by
    unfold decimalPoint
    rw [← same]
    omega
  have more : (10 : ℚ) ^ (-(shift : Int)) ≤ numerator / denominator :=
    (zpow_le_zpow_right₀ (by norm_num) (by omega)).trans large
  exact shifted_bounds positive more (by omega)

/-- A number is never so close to the next that seventeen digits do not tell them apart. -/
theorem fine_grid (format : IsFormat mantissa exponent) {point : Int}
    (leading : (10 : ℚ) ^ (point - 1) ≤ mantissa * 2 ^ exponent) :
    2 * (10 : ℚ) ^ (point - (17 : Nat)) < quartersBelow mantissa exponent * 2 ^ exponent := by
  have size := zpow_two_pos exponent
  have shifted : (10 : ℚ) ^ (point - 1) = 10 ^ (point - (17 : Nat)) * 10 ^ 16 := by
    rw [← zpow_natCast, ← zpow_add₀ (by norm_num)]
    congr 1
    push_cast
    ring
  rw [shifted] at leading
  generalize (10 : ℚ) ^ (point - ((17 : Nat) : Int)) = grain at *
  unfold quartersBelow
  split
  · rename_i power
    rw [power.1] at leading
    push_cast [Nat.pow_eq] at leading ⊢
    linarith
  · have small : (mantissa : ℚ) < 2 ^ 53 := by exact_mod_cast format.small
    have less : (mantissa : ℚ) * 2 ^ exponent < 2 ^ 53 * 2 ^ exponent :=
      mul_lt_mul_of_pos_right small size
    push_cast
    linarith

/-! ## The shortest digits -/

/-- Some grid has an admitted neighbour, and the first one is kept. -/
theorem RoundingInterval.exists_first (interval : RoundingInterval) {point : Int}
    (last : (interval.onGrid? point 17).isSome = true) :
    ∃ count candidate, 0 < count ∧ count ≤ 17 ∧
      interval.onGrid? point count = some candidate ∧
      ((List.range 17).findSome? fun fewer =>
        (interval.onGrid? point (fewer + 1)).map fun candidate =>
          (fewer + 1, candidate)).getD (1, 0) = (count, candidate) := by
  rcases Option.isSome_iff_exists.mp last with ⟨found, onLast⟩
  have isSome : ((List.range 17).findSome? fun fewer =>
      (interval.onGrid? point (fewer + 1)).map fun candidate =>
        (fewer + 1, candidate)).isSome = true := by
    refine List.findSome?_isSome_iff.mpr ⟨16, by decide, ?_⟩
    rw [Option.isSome_map]
    exact last
  rcases Option.isSome_iff_exists.mp isSome with ⟨first, same⟩
  rcases List.exists_of_findSome?_eq_some same with ⟨fewer, member, here⟩
  rcases Option.map_eq_some_iff.mp here with ⟨candidate, onGrid, rfl⟩
  refine ⟨fewer + 1, candidate, Nat.succ_pos _, ?_, onGrid, by rw [same]; rfl⟩
  have := List.mem_range.mp member
  omega

/-- The neighbours on a grid of some places have as many digits; only the one above may be the
next power of ten. -/
theorem candidate_digits {point : Int} {count candidate : Nat} (some : 0 < count)
    (bounds : (10 : ℚ) ^ (point - 1) ≤ mantissa * 2 ^ exponent ∧
      (mantissa : ℚ) * 2 ^ exponent < 10 ^ point)
    (next : IsNeighbour (mantissa * 2 ^ exponent / 10 ^ (point - count)) candidate) :
    (Nat.toDigits 10 candidate).length = count ∨
      (Nat.toDigits 10 candidate).length = count + 1 ∧ candidate = 10 ^ count := by
  have grain : (0 : ℚ) < 10 ^ (point - count) := zpow_pos (by norm_num) _
  have low : (10 : ℚ) ^ (count - 1) ≤ mantissa * 2 ^ exponent / 10 ^ (point - count) := by
    rw [le_div_iff₀ grain, ← zpow_natCast, ← zpow_add₀ (by norm_num)]
    refine le_trans (le_of_eq ?_) bounds.1
    congr 1
    omega
  have high : mantissa * 2 ^ exponent / 10 ^ (point - count) < (10 : ℚ) ^ count := by
    rw [div_lt_iff₀ grain, ← zpow_natCast, ← zpow_add₀ (by norm_num)]
    refine bounds.2.trans_le (le_of_eq ?_)
    congr 1
    omega
  have atLeast : 10 ^ (count - 1) ≤ candidate := by
    have less : (10 : ℚ) ^ (count - 1) < candidate + 1 := low.trans_lt next.2
    have whole : 10 ^ (count - 1) < candidate + 1 := by exact_mod_cast less
    omega
  have atMost : candidate ≤ 10 ^ count := by
    have less : (candidate : ℚ) < 10 ^ count + 1 := by linarith [next.1]
    have whole : candidate < 10 ^ count + 1 := by exact_mod_cast less
    omega
  have positive : 0 < candidate := (Nat.pow_pos (by decide)).trans_le atLeast
  have written := toDigits_length_bounds positive
  generalize (Nat.toDigits 10 candidate).length = length at *
  have enough := (Nat.pow_lt_pow_iff_right (by decide)).mp (atLeast.trans_lt written.2)
  rcases Nat.lt_or_eq_of_le atMost with less | power
  · have most := (Nat.pow_lt_pow_iff_right (by decide)).mp (written.1.trans_lt less)
    exact Or.inl (by omega)
  · have most := (Nat.pow_le_pow_iff_right (by decide)).mp (power ▸ written.1)
    have more := (Nat.pow_lt_pow_iff_right (by decide)).mp (power ▸ written.2)
    exact Or.inr ⟨by omega, power⟩

theorem exists_dropTrailing (c : Char) (text : List Char) :
    ∃ count, text = dropTrailing c text ++ List.replicate count c := by
  have each : forall other, other ∈ text.reverse.takeWhile (· == c) -> (other == c) = true :=
    List.all_eq_true.mp List.all_takeWhile
  have same : text.reverse.takeWhile (· == c) =
      List.replicate (text.reverse.takeWhile (· == c)).length c :=
    List.eq_replicate_iff.mpr ⟨rfl, fun other member => eq_of_beq (each other member)⟩
  have whole := congrArg List.reverse
    (@List.takeWhile_append_dropWhile Char (· == c) text.reverse)
  rw [List.reverse_reverse, List.reverse_append, same, List.reverse_replicate] at whole
  exact ⟨_, whole.symm⟩

/-- The shortest digits of a number are rounded to it.  They are as long before the point as the
number itself, unless they are the next power of ten. -/
structure IsShortest (decimal : Decimal) (mantissa : Nat) (exponent : Int) : Prop where
  rounds : RoundsTo decimal.value mantissa exponent
  written : decimal.digits ≠ []
  digits : IsDigits decimal.digits
  short : decimal.digits.length ≤ 100
  size : ∃ point, (10 : ℚ) ^ (point - 1) ≤ mantissa * 2 ^ exponent ∧
    (mantissa : ℚ) * 2 ^ exponent < 10 ^ point ∧
      (decimal.point = point ∨ decimal.point = point + 1 ∧ decimal.value = 10 ^ point)

/-- Every number but zero is far above the place where the search for its size begins. -/
theorem tenTo_le_scaled (format : IsFormat mantissa exponent) (some : 0 < mantissa) :
    (10 : ℚ) ^ (-399 : Int) ≤ mantissa * 2 ^ exponent := by
  have least : (1 : ℚ) ≤ mantissa := by exact_mod_cast some
  calc (10 : ℚ) ^ (-399 : Int) ≤ 2 ^ (-1075 : Int) := beyond_range.2.le
    _ ≤ 2 ^ exponent := zpow_le_zpow_right₀ one_le_two (by have := format.least; omega)
    _ ≤ mantissa * 2 ^ exponent := le_mul_of_one_le_left (zpow_two_pos exponent).le least

/-- Zeros that are dropped behind the digits are made up for by the point. -/
theorem value_of_padded {kept : List Char} {zeros candidate : Nat} (point : Int) (count : Nat)
    (worth : digitsValue (kept ++ List.replicate zeros '0') = candidate) :
    Decimal.value ⟨kept, point + ((kept.length + zeros : Nat) - count : Int)⟩ =
      candidate * 10 ^ (point - count) := by
  rw [digitsValue_padded] at worth
  rw [Decimal.value, ← worth]
  dsimp only
  push_cast
  rw [mul_assoc, ← zpow_natCast, ← zpow_add₀ (by norm_num)]
  congr 2
  ring

/-- The search finds the shortest digits. -/
theorem isShortest_shortestDecimal (format : IsFormat mantissa exponent) (some : 0 < mantissa) :
    IsShortest (shortestDecimal mantissa exponent) mantissa exponent := by
  have encloses := @roundingInterval_encloses mantissa exponent some
  have bounds := decimalPoint_bounds encloses.positive
    (encloses.value.symm ▸ tenTo_le_scaled format some)
  unfold shortestDecimal
  dsimp only
  generalize decimalPoint (roundingInterval mantissa exponent).value
    (roundingInterval mantissa exponent).denominator = point at *
  rw [encloses.value] at bounds
  rcases RoundingInterval.exists_first _ (encloses.onGrid?_isSome (fine_grid format bounds.1)) with
    ⟨count, candidate, positive, few, onGrid, first⟩
  rw [first]
  dsimp only
  rcases encloses.rounds_of_onGrid? onGrid with ⟨rounds, next⟩
  have length := candidate_digits positive bounds next
  have worth := digitsValue_toDigits candidate
  have digits := IsDigits.toDigits candidate
  rcases exists_dropTrailing '0' (Nat.toDigits 10 candidate) with ⟨zeros, split⟩
  generalize Nat.toDigits 10 candidate = shown at *
  rw [show dropTrailingZeros shown = dropTrailing '0' shown from rfl]
  generalize dropTrailing '0' shown = kept at *
  subst split
  have value := value_of_padded point count worth
  rw [List.length_append, List.length_replicate] at length ⊢
  refine ⟨by rw [value]; exact rounds, ?_, digits.of_append.1, by dsimp only; omega,
    point, bounds.1, bounds.2, ?_⟩
  · rintro rfl
    have none : candidate = 0 := worth.symm.trans (digitsValue_zeros zeros)
    have range := (rounds.isNearest.range format some).1
    rw [none, Nat.cast_zero, zero_mul] at range
    exact absurd range (not_le.mpr (zpow_two_pos _))
  · rw [value]
    refine length.imp (fun same => ?_) fun above => ⟨?_, ?_⟩
    · dsimp only
      omega
    · dsimp only
      omega
    · rw [above.2, Nat.cast_pow, ← zpow_natCast]
      push_cast
      rw [← zpow_add₀ (by norm_num)]
      congr 1
      ring

end

end Number
end QuantityCalculus
