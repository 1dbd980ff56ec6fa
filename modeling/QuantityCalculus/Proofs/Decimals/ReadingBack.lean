import QuantityCalculus.Proofs.Decimals.Shortest

namespace QuantityCalculus
namespace Number

/-!
# Numbers read back from their texts

The shortest text of a number is read as that number, whatever the number is: the digits are
rounded to it, the layout does not change what they stand for, and the sign is turned back.  The
values that are not finite have names of their own.

Whole numbers that are written without a point read back for another reason.  Such a number is
equal to the nearest number of its whole part, and that is what its digits are read as.
-/

section

variable {value : Float} {negative : Bool} {mantissa : Nat} {exponent : Int}
variable {magnitude : List Char}

/-- A text is read as a number if its magnitude is read as that of the number. -/
theorem read?_of_parts (found : parts value = .finite negative mantissa exponent)
    (isMagnitude : IsMagnitude magnitude) {size : Float}
    (reads : readUnsigned? magnitude = some size)
    (same : parts size = .finite false mantissa exponent) :
    read? (withSign negative magnitude) = some value := by
  rw [read?_withSign _ isMagnitude, reads]
  cases negative
  · exact congrArg some (eq_of_parts same found)
  · exact congrArg some (eq_of_parts (parts_neg same) found)

/-- Conversely, only then. -/
theorem parts_of_read? (found : parts value = .finite negative mantissa exponent)
    (isMagnitude : IsMagnitude magnitude) {size : Float}
    (reads : readUnsigned? magnitude = some size)
    (same : read? (withSign negative magnitude) = some value) :
    parts size = .finite false mantissa exponent := by
  rw [read?_withSign _ isMagnitude, reads] at same
  cases negative
  · rw [Option.some.inj same]
    exact found
  · have opposite : size.neg = value := Option.some.inj same
    have finite : isFinite size = true := by
      rw [← isFinite_neg, opposite, isFinite, found]
    rcases parts_of_isFinite finite with ⟨sign, _, _, parted⟩
    have negated := parts_neg parted
    rw [opposite, found] at negated
    cases sign <;> cases negated
    exact parted

/-! ## Shortest texts -/

theorem parts_zero : parts (signedZero false) = .finite false 0 (-1074) := by
  decide

/-- Zero has the smallest exponent. -/
theorem exponent_of_zero (found : parts value = .finite negative 0 exponent) :
    exponent = -1074 :=
  (isFormat_of_parts found).leading.resolve_right (by decide)

/-- The shortest text of a number is read as the number. -/
theorem read?_shortestText (value : Float) : read? (shortestText value) = some value := by
  cases finite : isFinite value with
  | false => rcases not_finite_cases finite with rfl | rfl | rfl <;> decide
  | true =>
      rcases parts_of_isFinite finite with ⟨negative, mantissa, exponent, found⟩
      rw [shortestText, found]
      dsimp only
      split
      · rename_i zero
        subst zero
        cases exponent_of_zero found
        exact read?_of_parts found (isMagnitude_of_decimal rfl)
          (show _ = some (signedZero false) by decide) parts_zero
      · rename_i notZero
        have some := Nat.pos_of_ne_zero notZero
        have format := isFormat_of_parts found
        have shortest := isShortest_shortestDecimal format some
        rcases (standsFor_layout shortest.written shortest.digits shortest.short).reads format some
          shortest.rounds with ⟨size, reads, same⟩
        exact read?_of_parts found (isMagnitude_layout shortest.digits.decimal _) reads same

/-! ## Whole numbers -/

/-- The digits of a whole number are read as the decimal without places. -/
theorem readUnsigned?_toDigits (whole : Nat) :
    (readUnsigned? (Nat.toDigits 10 whole) : Option Float) = some (nearestDecimal whole 0) := by
  have digits := IsDigits.toDigits whole
  have none : IsDigits [] := rfl
  have spelling := isSpelling_pointed Nat.toDigits_ne_nil digits none .none
  have value := readSpelling_pointed digits none []
  have plain : pointed (Nat.toDigits 10 whole) [] ++ marked [] = Nat.toDigits 10 whole := by
    rw [pointed, marked, List.append_assoc]
    exact List.append_nil _
  rw [plain] at spelling value
  rw [List.append_nil, digitsValue_toDigits] at value
  rw [readUnsigned?_numerals spelling.numerals, List.isEmpty_eq_false_iff.mpr spelling.written,
    spelling.whole, beq_self_eq_true, value]
  rfl

theorem log2_le_of_le {digits places : Nat} (within : (digits : ℚ) ≤ 2 ^ (places : Int)) :
    digits.log2 ≤ places := by
  by_cases zero : digits = 0
  · rw [zero]
    exact Nat.zero_le _
  · have whole : digits ≤ 2 ^ places := by exact_mod_cast within
    exact Nat.le_of_lt_succ ((Nat.log2_lt zero).mpr
      (whole.trans_lt (Nat.pow_lt_pow_right one_lt_two places.lt_succ_self)))

theorem wholePart_zero (found : parts value = .finite negative 0 exponent) :
    wholePart value = 0 := by
  have none : (scaledRatio 0 exponent).1 = 0 := by
    cases exponent with
    | ofNat up => exact Nat.zero_mul _
    | negSucc down => rfl
  rw [wholePart, found]
  dsimp only
  rw [none, Nat.zero_div]
  cases negative <;> rfl

/-- A number that is equal to its whole part is the decimal of its whole part. -/
theorem parts_of_whole (found : parts value = .finite negative mantissa exponent)
    (whole : Scalar.eq value (Scalar.ofInt (wholePart value)) = true) :
    parts (nearestDecimal (wholePart value).natAbs 0) = .finite false mantissa exponent ∧
      (wholePart value).natAbs.log2 ≤ 1024 := by
  rcases Nat.eq_zero_or_pos mantissa with rfl | some
  · rw [wholePart_zero found]
    cases exponent_of_zero found
    exact ⟨parts_zero, Nat.zero_le _⟩
  have format := isFormat_of_parts found
  have same : value = ofMagnitudeBits (decide (wholePart value < 0))
      (nearestBits (wholePart value).natAbs 1) := eq_of_scalar_eq found some whole
  generalize (wholePart value).natAbs = size at *
  have written : 0 < size := by
    refine Nat.pos_of_ne_zero ?_
    rintro rfl
    have none := magnitudeBits_of_parts (same ▸ found) (Nat.zero_le _)
    simp only [partBits] at none
    omega
  have bits := magnitudeBits_of_parts (same ▸ found) (nearestBits_le written Nat.one_pos)
  have range := (isNearest_of_nearestBits format written Nat.one_pos bits).range format some
  have plain : (size : ℚ) / (1 : Nat) = size * 10 ^ (0 : Int) := by norm_num
  have short : size.log2 ≤ 1024 := log2_le_of_le (by
    have most := range.2
    rwa [Nat.cast_one, div_one] at most)
  rw [plain] at range
  rcases nearestDecimal_of_range (by omega) range with ⟨_, _, above, below, equal, nearest⟩
  refine ⟨?_, short⟩
  rw [nearest, nearestBits_congr above below written Nat.one_pos (equal.trans plain.symm), bits]
  exact parts_ofMagnitudeBits_partBits false format

/-- The digits of a number that is equal to its whole part are read as the number, unless it is
negative zero. -/
theorem read?_integerText (finite : isFinite value = true) (signed : value ≠ signedZero true)
    (whole : Scalar.eq value (Scalar.ofInt (wholePart value)) = true) :
    read? (integerText (wholePart value)) = some value := by
  rcases parts_of_isFinite finite with ⟨negative, mantissa, exponent, found⟩
  rw [integerText, wholePart_negative found signed whole]
  exact read?_of_parts found (isMagnitude_of_decimal (decimal_toDigits _))
    (readUnsigned?_toDigits _) (parts_of_whole found whole).1

/-- A whole number is finite and equal to its whole part. -/
theorem toInt?_eq_some {number : Int} (whole : Scalar.toInt? value = some number) :
    isFinite value = true ∧ Scalar.eq value (Scalar.ofInt (wholePart value)) = true ∧
      number = wholePart value := by
  unfold Scalar.toInt? at whole
  split at whole
  · rename_i equal
    rcases Bool.and_eq_true_iff.mp equal with ⟨finite, same⟩
    exact ⟨finite, same, (Option.some.inj whole).symm⟩
  · cases whole

/-- What is written as a whole number is equal to its whole part. -/
theorem eq_of_wholeText? {text : List Char} (whole : wholeText? value = some text) :
    isFinite value = true ∧ Scalar.eq value (Scalar.ofInt (wholePart value)) = true ∧
      text = integerText (wholePart value) := by
  rcases Option.bind_eq_some_iff.mp whole with ⟨number, found, shown⟩
  rcases toInt?_eq_some found with ⟨finite, same, rfl⟩
  split at shown
  · exact ⟨finite, same, (Option.some.inj shown).symm⟩
  · cases shown

/-- A number that is not written as a whole one is not zero. -/
theorem mantissa_pos_of_not_whole (found : parts value = .finite negative mantissa exponent)
    (signed : value ≠ signedZero true) (notWhole : wholeText? value = none) : 0 < mantissa := by
  refine Nat.pos_of_ne_zero ?_
  rintro rfl
  cases exponent_of_zero found
  cases negative
  · have zero : wholeText? (signedZero false) ≠ none := by decide +kernel
    exact zero (eq_of_parts found parts_zero ▸ notWhole)
  · exact signed (negative_zero_of_parts found)

/-- A whole number that is written without a point is read as the number, unless it is negative
zero. -/
theorem read?_wholeText {text : List Char} (signed : value ≠ signedZero true)
    (whole : wholeText? value = some text) : read? text = some value := by
  rcases eq_of_wholeText? whole with ⟨finite, same, rfl⟩
  exact read?_integerText finite signed same

end

end Number
end QuantityCalculus
