import QuantityCalculus.Proofs.Decimals.Nearest
import QuantityCalculus.Proofs.Evaluation.ExactLiterals

namespace QuantityCalculus

/-!
# Finite numbers, their parts and their values

The sign, the mantissa and the exponent of a finite number determine its bits, and every
mantissa and exponent of the format are those of a number.  So two numbers are the same if their
parts are, and a decimal is read as a number as soon as its exact value is rounded to the
mantissa and the exponent of that number.
-/

namespace Number

open Float.Model UnpackedFloat

/-! ## Parts and bits -/

/-- The bits of a magnitude and its sign. -/
def signedBits (negative : Bool) (magnitude : Nat) : Nat :=
  magnitude + if negative then Nat.pow 2 63 else 0

/-- The bits of a number that is not undefined or infinite are kept. -/
theorem toBits_ofBits {bits : UInt64}
    (finite : bits.toNat / Nat.pow 2 52 % Nat.pow 2 11 ≠ 2047) :
    (Float.ofBits bits).toBits = bits := by
  have exponentBits := unpackExponent_toNat bits.toBitVec
  rw [← UInt64.toBitVec_inj]
  conv_rhs => rw [← spelledBits_unpacked bits.toBitVec]
  rw [← pack_unpack_spelledBits, spelledBits_unpacked]
  · rfl
  · intro ones
    rw [ones] at exponentBits
    exact absurd exponentBits.symm finite

variable {value : Float} {negative : Bool} {mantissa : Nat} {exponent : Int}

theorem isFormat_of_parts (found : parts value = .finite negative mantissa exponent) :
    IsFormat mantissa exponent := by
  have small := Nat.mod_lt value.toBits.toNat (Nat.two_pow_pos 52)
  have bounded := Nat.mod_lt (value.toBits.toNat / Nat.pow 2 52) (Nat.two_pow_pos 11)
  simp only [parts] at found
  split at found
  · split at found <;> cases found
  · split at found
    · cases found
      exact ⟨by omega, by omega, by simp only [Nat.pow_eq] at *; omega, Or.inl rfl⟩
    · cases found
      constructor <;> simp only [Nat.pow_eq] at * <;> omega

theorem toBits_of_parts (found : parts value = .finite negative mantissa exponent) :
    value.toBits.toNat = signedBits negative (partBits mantissa exponent) := by
  have bound := value.toBits.toNat_lt
  simp only [parts] at found
  split at found
  · split at found <;> cases found
  · split at found
    · cases found
      simp only [signedBits, partBits, Nat.ble_eq, Nat.pow_eq] at *
      split <;> omega
    · cases found
      simp only [signedBits, partBits, Nat.ble_eq, Nat.pow_eq] at *
      split <;> omega

/-- The bits of a finite magnitude keep their fields behind a sign. -/
theorem signedBits_fields {magnitude : Nat} (finite : magnitude < infinityBits) :
    Nat.ble (Nat.pow 2 63) (signedBits negative magnitude) = negative ∧
      signedBits negative magnitude / Nat.pow 2 52 % Nat.pow 2 11 = magnitude / Nat.pow 2 52 ∧
      signedBits negative magnitude % Nat.pow 2 52 = magnitude % Nat.pow 2 52 := by
  rw [Bool.eq_iff_iff, Nat.ble_eq]
  cases negative <;> simp only [signedBits, infinityBits, Nat.pow_eq, reduceIte,
    Bool.false_eq_true, iff_true, iff_false] at * <;> omega

/-- A finite magnitude keeps its bits behind a sign. -/
theorem toBits_ofMagnitudeBits (negative : Bool) {magnitude : Nat}
    (finite : magnitude < infinityBits) :
    (ofMagnitudeBits negative magnitude).toBits.toNat = signedBits negative magnitude := by
  have bits : (UInt64.ofNat (signedBits negative magnitude)).toNat =
      signedBits negative magnitude := by
    rw [UInt64.toNat_ofNat']
    refine Nat.mod_eq_of_lt ?_
    simp only [signedBits, infinityBits, Nat.pow_eq] at *
    split <;> omega
  refine (congrArg UInt64.toNat (toBits_ofBits ?_)).trans bits
  rw [show magnitude + _ = signedBits negative magnitude from rfl, bits,
    (signedBits_fields finite).2.1]
  simp only [infinityBits, Nat.pow_eq] at *
  omega

/-- A number with the bits of a mantissa, an exponent and a sign has these parts. -/
theorem parts_of_toBits (format : IsFormat mantissa exponent)
    (bits : value.toBits.toNat = signedBits negative (partBits mantissa exponent)) :
    parts value = .finite negative mantissa exponent := by
  rcases @signedBits_fields negative _ (partBits_lt format) with ⟨sign, biased, fraction⟩
  rcases format with ⟨least, _, small, leading⟩
  unfold parts
  rw [bits]
  simp only [sign, biased, fraction]
  by_cases normal : Nat.pow 2 52 ≤ mantissa
  · have field : partBits mantissa exponent / Nat.pow 2 52 = (exponent + 1074).toNat + 1 := by
      simp only [partBits, Nat.pow_eq] at *
      omega
    have rest : partBits mantissa exponent % Nat.pow 2 52 + Nat.pow 2 52 = mantissa := by
      simp only [partBits, Nat.pow_eq] at *
      omega
    rw [field, rest, if_neg (by omega), if_neg (by omega)]
    congr 1
    omega
  · have bottom : exponent = -1074 := leading.resolve_right normal
    have field : partBits mantissa exponent / Nat.pow 2 52 = 0 := by
      simp only [partBits, Nat.pow_eq] at *
      omega
    have rest : partBits mantissa exponent % Nat.pow 2 52 = mantissa := by
      simp only [partBits, Nat.pow_eq] at *
      omega
    rw [field, rest, if_neg (by omega), if_pos rfl, bottom]

/-- Every mantissa and exponent of the format are the parts of a number. -/
theorem parts_ofMagnitudeBits_partBits (negative : Bool) (format : IsFormat mantissa exponent) :
    parts (ofMagnitudeBits negative (partBits mantissa exponent)) =
      .finite negative mantissa exponent :=
  parts_of_toBits format (toBits_ofMagnitudeBits negative (partBits_lt format))

/-- The bits of a finite magnitude are those of its parts. -/
theorem magnitudeBits_of_parts {sign : Bool} {bits : Nat}
    (found : parts (ofMagnitudeBits sign bits) = .finite negative mantissa exponent)
    (bound : bits ≤ infinityBits) : bits = partBits mantissa exponent := by
  rcases Nat.lt_or_eq_of_le bound with finite | rfl
  · have same := (toBits_ofMagnitudeBits sign finite).symm.trans (toBits_of_parts found)
    have otherFinite := partBits_lt (isFormat_of_parts found)
    cases sign <;> cases negative <;>
      simp only [signedBits, infinityBits, Nat.pow_eq, reduceIte, Bool.false_eq_true] at * <;>
      omega
  · have infinite : forall sign, isFinite (ofMagnitudeBits sign infinityBits) = false := by
      decide
    have none := infinite sign
    rw [isFinite, found] at none
    cases none

/-- Numbers with the same parts are the same. -/
theorem eq_of_parts {other : Float} (found : parts value = .finite negative mantissa exponent)
    (otherFound : parts other = .finite negative mantissa exponent) : value = other := by
  refine eq_of_toBits (congrArg UInt64.toBitVec (UInt64.toNat_inj.mp ?_))
  rw [toBits_of_parts found, toBits_of_parts otherFound]

/-- Packing a number again gives its bits. -/
theorem pack_unpack (value : Float) :
    UnpackedFloat.pack .binary64 value.toModel.unpack = value.toBits.toBitVec := by
  rcases bits_cases value with ⟨rfl, _⟩ | ⟨sign, field, fraction, proper, bits, _⟩
  · decide
  · change UnpackedFloat.pack .binary64 (UnpackedFloat.unpack .binary64 value.toBits.toBitVec) = _
    rw [bits]
    exact pack_unpack_spelledBits proper

/-- Equal finite numbers with a mantissa have the same parts. -/
theorem finite_beq {sign : UnpackedFloat.Sign} {positive : 0 < mantissa} {other : UnpackedFloat}
    (same : (UnpackedFloat.finite sign mantissa exponent positive).beq other = true) :
    other = .finite sign mantissa exponent positive := by
  cases other with
  | notANumber => cases sign <;> cases same
  | infinity otherSign => cases sign <;> cases otherSign <;> cases same
  | zero otherSign => cases sign <;> cases same
  | finite otherSign otherMantissa scale otherPositive =>
      have ordered : otherSign = sign ∧
          (compare exponent scale).then (compare mantissa otherMantissa) = .eq := by
        cases sign <;> cases otherSign
        · exact ⟨rfl, Ordering.swap_eq_eq.mp (Option.some.inj (eq_of_beq same))⟩
        · cases same
        · cases same
        · exact ⟨rfl, Option.some.inj (eq_of_beq same)⟩
      rcases ordered with ⟨rfl, ordered⟩
      rcases Ordering.then_eq_eq.mp ordered with ⟨scales, mantissas⟩
      cases compare_eq_iff_eq.mp scales
      cases compare_eq_iff_eq.mp mantissas
      rfl

/-- A finite number with a mantissa is equal to no other number. -/
theorem eq_of_scalar_eq {other : Float}
    (found : parts value = .finite negative mantissa exponent) (some : 0 < mantissa)
    (same : Scalar.eq value other = true) : value = other := by
  have compares : value.toModel.unpack.beq other.toModel.unpack = true := same
  refine eq_of_toBits ?_
  rw [← pack_unpack, ← pack_unpack]
  rcases unpack_of_finite found with ⟨none, _⟩ | ⟨_, positive, unpacked⟩
  · exact absurd none some.ne'
  · rw [unpacked] at compares ⊢
    rw [finite_beq compares]

/-- A negated number has the same magnitude and the other sign. -/
theorem parts_neg (found : parts value = .finite negative mantissa exponent) :
    parts value.neg = .finite (!negative) mantissa exponent := by
  have format := isFormat_of_parts found
  have finite := partBits_lt format
  have bits := toBits_of_parts found
  refine parts_of_toBits format ?_
  rcases bits_cases value with ⟨rfl, _⟩ | ⟨sign, field, fraction, _, spelled, negated⟩
  · have infinite : isFinite undefined = false := by decide
    rw [isFinite, found] at infinite
    cases infinite
  · have same := congrArg BitVec.toNat spelled
    have opposite := congrArg BitVec.toNat negated
    rw [spelledBits_toNat, UInt64.toNat_toBitVec] at same opposite
    have low := field.isLt
    have lower := fraction.isLt
    have flipped : (-sign).toBitVec.toNat + sign.toBitVec.toNat = 1 := by cases sign <;> rfl
    cases negative <;>
      simp only [signedBits, infinityBits, Nat.pow_eq, reduceIte, Bool.false_eq_true, Bool.not_true,
        Bool.not_false] at * <;> omega

/-- A number without its sign has the same magnitude. -/
theorem parts_magnitude (found : parts value = .finite negative mantissa exponent) :
    parts (magnitude value) = .finite false mantissa exponent := by
  have format := isFormat_of_parts found
  have finite := partBits_lt format
  have bits : value.toBits.toNat % Nat.pow 2 63 = partBits mantissa exponent := by
    rw [toBits_of_parts found]
    simp only [signedBits, infinityBits, Nat.pow_eq] at *
    split <;> omega
  rw [← parts_ofMagnitudeBits_partBits false format, magnitude, bits, ofMagnitudeBits,
    if_neg Bool.false_ne_true, Nat.add_zero]

/-! ## Exact values -/

/-- A mantissa times a power of two as a quotient. -/
theorem scaledRatio_eq (mantissa : Nat) (exponent : Int) :
    ((scaledRatio mantissa exponent).1 : ℚ) / (scaledRatio mantissa exponent).2 =
      mantissa * 2 ^ exponent := by
  cases exponent with
  | ofNat up =>
      rw [scaledRatio, Int.ofNat_eq_natCast, zpow_natCast]
      push_cast [Nat.pow_eq]
      ring
  | negSucc down =>
      rw [scaledRatio, zpow_negSucc, div_eq_mul_inv]
      norm_cast

theorem scaledRatio_pos (mantissa : Nat) (exponent : Int) :
    0 < (scaledRatio mantissa exponent).2 := by
  cases exponent with
  | ofNat up => exact Nat.one_pos
  | negSucc down => exact Nat.two_pow_pos _

end Number

/-- Lowest terms keep the value. -/
theorem Ratio.of_value (numerator : Int) {denominator : Nat} (positive : 0 < denominator) :
    ((Ratio.of numerator denominator).numerator : ℚ) /
        (Ratio.of numerator denominator).denominator = numerator / denominator := by
  have common : (Nat.gcd numerator.natAbs denominator : ℚ) ≠ 0 := by
    exact_mod_cast (Nat.gcd_pos_of_pos_right _ positive).ne'
  have divides : (Nat.gcd numerator.natAbs denominator : Int) ∣ numerator :=
    Int.natCast_dvd.mpr (Nat.gcd_dvd_left _ _)
  simp only [Ratio.of]
  rw [Int.tdiv_eq_ediv_of_dvd divides, Int.cast_div divides (by exact_mod_cast common),
    Nat.cast_div (Nat.gcd_dvd_right _ _) common, Int.cast_natCast,
    div_div_div_cancel_right₀ common]

theorem exactValue_of_parts {value : Float} {negative : Bool} {mantissa : Nat} {exponent : Int}
    (found : Number.parts value = .finite negative mantissa exponent) :
    exactValue ℚ value = (if negative then -1 else 1) * (mantissa * 2 ^ exponent) := by
  have positive := Number.scaledRatio_pos mantissa exponent
  have ratio : Scalar.ratio value = Ratio.of
      (if negative then -((Number.scaledRatio mantissa exponent).1 : Int)
        else (Number.scaledRatio mantissa exponent).1)
      (Number.scaledRatio mantissa exponent).2 := by
    change Number.exactRatio value = _
    rw [Number.exactRatio, found]
  rw [exactValue, ratio, Ratio.of_value _ positive, ← Number.scaledRatio_eq]
  cases negative
  · simp
  · simp [neg_div]

/-- The values that are not finite count as zero. -/
theorem exactValue_of_not_finite {value : Float} (notFinite : Number.isFinite value = false) :
    exactValue ℚ value = 0 := by
  have ratio : Scalar.ratio value = Ratio.zero := by
    change Number.exactRatio value = _
    rw [Number.exactRatio]
    rw [Number.isFinite] at notFinite
    split
    · rename_i found
      rw [found] at notFinite
      cases notFinite
    · rfl
  rw [exactValue, ratio]
  exact (congrArg (· / _) Int.cast_zero).trans (zero_div _)

/-- The magnitude of a finite number is its mantissa times the power of two. -/
theorem abs_exactValue {value : Float} {negative : Bool} {mantissa : Nat} {exponent : Int}
    (found : Number.parts value = .finite negative mantissa exponent) :
    |exactValue ℚ value| = mantissa * 2 ^ exponent := by
  have size : (0 : ℚ) ≤ mantissa * 2 ^ exponent := by positivity
  rw [exactValue_of_parts found]
  cases negative
  · rw [if_neg Bool.false_ne_true, one_mul, abs_of_nonneg size]
  · rw [if_pos rfl, neg_one_mul, abs_neg, abs_of_nonneg size]

namespace Number

/-! ## Decimals -/

/-- Outside the range that the size of its digits settles, a decimal is the nearest number. -/
theorem nearestDecimal_cases {digits : Nat} (some : 0 < digits) (places : Int) :
    400 < ((digits.log2 * 30103 / 100000 : Nat) : Int) + places ∧
        nearestDecimal digits places = infinite false ∨
      ((digits.log2 * 30103 / 100000 : Nat) : Int) + places < -400 ∧
        nearestDecimal digits places = signedZero false ∨
      ∃ numerator denominator : Nat, 0 < numerator ∧ 0 < denominator ∧
        (numerator : ℚ) / denominator = digits * 10 ^ places ∧
        nearestDecimal digits places =
          ofMagnitudeBits false (nearestBits numerator denominator) := by
  unfold nearestDecimal
  dsimp only
  rw [if_neg some.ne']
  split
  · rename_i large
    exact Or.inl ⟨large, rfl⟩
  · split
    · rename_i tiny
      exact Or.inr (Or.inl ⟨tiny, rfl⟩)
    · refine Or.inr (Or.inr ?_)
      cases places with
      | ofNat up =>
          refine ⟨digits * Nat.pow 10 up, 1, Nat.mul_pos some (Nat.pow_pos (by decide)),
            Nat.one_pos, ?_, rfl⟩
          rw [Int.ofNat_eq_natCast, zpow_natCast]
          push_cast [Nat.pow_eq]
          ring
      | negSucc down =>
          refine ⟨digits, Nat.pow 10 (down + 1), some, Nat.pow_pos (by decide), ?_, rfl⟩
          rw [zpow_negSucc, div_eq_mul_inv]
          push_cast [Nat.pow_eq]
          rfl

/-- The estimate of a decimal logarithm from a binary one is off by less than two places. -/
theorem two_pow_bounds {places : Nat} (short : places < 1400) :
    10 ^ (places * 30103 / 100000) ≤ 2 ^ (places + 1) ∧
      2 ^ (places + 1) ≤ 10 ^ (places * 30103 / 100000 + 2) := by
  revert places
  decide +kernel

/-- The decimals that are settled by their size are beyond the numbers. -/
theorem beyond_range : (2 : ℚ) * 2 ^ (1024 : Int) < 10 ^ (401 : Int) ∧
    (10 : ℚ) ^ (-399 : Int) < 2 ^ (-1075 : Int) := by
  have large : 2 * 2 ^ 1024 < 10 ^ 401 := by decide +kernel
  have tiny : 2 ^ 1075 < 10 ^ 399 := by decide +kernel
  constructor
  · exact_mod_cast large
  · rw [zpow_neg, zpow_neg]
    exact inv_strictAnti₀ (zpow_two_pos 1075) (by exact_mod_cast tiny)

/-- A decimal in the range of the numbers is read as the number nearest to it. -/
theorem nearestDecimal_of_range {digits : Nat} {places : Int} (short : digits.log2 < 1400)
    (range : 2 ^ (-1075 : Int) ≤ (digits : ℚ) * 10 ^ places ∧
      (digits : ℚ) * 10 ^ places ≤ 2 ^ (1024 : Int)) :
    ∃ numerator denominator : Nat, 0 < numerator ∧ 0 < denominator ∧
      (numerator : ℚ) / denominator = digits * 10 ^ places ∧
      nearestDecimal digits places =
        ofMagnitudeBits false (nearestBits numerator denominator) := by
  have written : 0 < digits := by
    refine Nat.pos_of_ne_zero ?_
    rintro rfl
    rw [Nat.cast_zero, zero_mul] at range
    exact absurd range.1 (not_le.mpr (zpow_two_pos _))
  have estimate := two_pow_bounds short
  have scale : (0 : ℚ) < 10 ^ places := zpow_pos (by norm_num) _
  rcases nearestDecimal_cases written places with ⟨large, _⟩ | ⟨tiny, _⟩ | quotient
  · generalize digits.log2 * 30103 / 100000 = size at *
    have twice : 10 ^ size ≤ 2 * digits := by
      have := Nat.log2_self_le written.ne'
      rw [pow_succ] at estimate
      omega
    have least : (10 : ℚ) ^ ((size : Int) + places) ≤ 2 * (digits * 10 ^ places) := by
      rw [zpow_add₀ (by norm_num), zpow_natCast, ← mul_assoc]
      exact mul_le_mul_of_nonneg_right (by exact_mod_cast twice) scale.le
    have atLeast : (10 : ℚ) ^ (401 : Int) ≤ 10 ^ ((size : Int) + places) :=
      zpow_le_zpow_right₀ (by norm_num) large
    have most : 2 * (digits * (10 : ℚ) ^ places) ≤ 2 * 2 ^ (1024 : Int) :=
      mul_le_mul_of_nonneg_left range.2 two_pos.le
    exact absurd (atLeast.trans (least.trans most)) (not_le.mpr beyond_range.1)
  · generalize digits.log2 * 30103 / 100000 = size at *
    have less : (digits : ℚ) ≤ 10 ^ (size + 2) := by
      exact_mod_cast (Nat.lt_log2_self.le).trans estimate.2
    have most : (digits : ℚ) * 10 ^ places ≤ 10 ^ ((size : Int) + 2 + places) := by
      rw [zpow_add₀ (by norm_num)]
      exact mul_le_mul_of_nonneg_right (by exact_mod_cast less) scale.le
    have atMost : (10 : ℚ) ^ ((size : Int) + 2 + places) ≤ 10 ^ (-399 : Int) :=
      zpow_le_zpow_right₀ (by norm_num) (by omega)
    exact absurd (range.1.trans (most.trans atMost)) (not_le.mpr beyond_range.2)
  · exact quotient

section

variable {quotient : ℚ} {digits : Nat} {places : Int} {mantissa : Nat} {exponent : Int}

/-- What is within half a step of a number with a mantissa is no smaller than half the smallest
number, and no larger than the numbers are. -/
theorem IsNearest.range (nearest : IsNearest (quotient / 2 ^ exponent) mantissa)
    (format : IsFormat mantissa exponent) (some : 0 < mantissa) :
    2 ^ (-1075 : Int) ≤ quotient ∧ quotient ≤ 2 ^ (1024 : Int) := by
  have close := abs_le.mp nearest.close
  have least : (1 : ℚ) ≤ mantissa := by exact_mod_cast some
  have greatest : (mantissa : ℚ) + 1 ≤ 2 ^ (53 : Int) := by exact_mod_cast format.small
  have size := zpow_two_pos exponent
  constructor
  · calc (2 : ℚ) ^ (-1075 : Int) = 2 ^ (-1074 : Int) * (1 / 2) := by
          rw [show (-1075 : Int) = -1074 - 1 by rfl, zpow_sub_one₀ two_ne_zero, one_div]
      _ ≤ 2 ^ exponent * (1 / 2) :=
          mul_le_mul_of_nonneg_right (zpow_le_zpow_right₀ one_le_two format.least) (by norm_num)
      _ ≤ 2 ^ exponent * (quotient / 2 ^ exponent) :=
          mul_le_mul_of_nonneg_left (by linarith) size.le
      _ = quotient := mul_div_cancel₀ _ size.ne'
  · calc quotient = 2 ^ exponent * (quotient / 2 ^ exponent) := (mul_div_cancel₀ _ size.ne').symm
      _ ≤ 2 ^ exponent * 2 ^ (53 : Int) := mul_le_mul_of_nonneg_left (by linarith) size.le
      _ ≤ 2 ^ (971 : Int) * 2 ^ (53 : Int) :=
          mul_le_mul_of_nonneg_right (zpow_le_zpow_right₀ one_le_two format.greatest)
            (zpow_two_pos 53).le
      _ = 2 ^ (1024 : Int) := by rw [← zpow_add₀ two_ne_zero]; rfl

/-- A decimal is read as a number if it is rounded to the parts of that number. -/
theorem parts_nearestDecimal (format : IsFormat mantissa exponent) (some : 0 < mantissa)
    (short : digits.log2 < 1400) (rounds : RoundsTo (digits * 10 ^ places) mantissa exponent) :
    parts (nearestDecimal digits places) = .finite false mantissa exponent := by
  rcases nearestDecimal_of_range short (rounds.isNearest.range format some) with
    ⟨numerator, denominator, above, below, same, nearest⟩
  rw [← same] at rounds
  rw [nearest, rounds.nearestBits format above below]
  exact parts_ofMagnitudeBits_partBits false format

/-- A decimal that is read as a number is, counted in the step of that number, nearest to its
mantissa. -/
theorem isNearest_of_nearestDecimal
    (found : parts (nearestDecimal digits places) = .finite false mantissa exponent)
    (some : 0 < mantissa) : IsNearest ((digits : ℚ) * 10 ^ places / 2 ^ exponent) mantissa := by
  have zero : parts (signedZero false) = .finite false 0 (-1074) := by decide
  have notZero : nearestDecimal digits places ≠ signedZero false := by
    intro same
    rw [same, zero] at found
    cases found
    exact absurd some (lt_irrefl 0)
  have written : 0 < digits := by
    refine Nat.pos_of_ne_zero ?_
    rintro rfl
    exact notZero rfl
  rcases nearestDecimal_cases written places with
    ⟨_, same⟩ | ⟨_, same⟩ | ⟨numerator, denominator, above, below, same, nearest⟩
  · have infinite : isFinite (infinite false) = false := by decide
    rw [← same, isFinite, found] at infinite
    cases infinite
  · exact absurd same notZero
  · rw [← same]
    rw [nearest] at found
    exact isNearest_of_nearestBits (isFormat_of_parts found) above below
      (magnitudeBits_of_parts found (nearestBits_le above below))

/-- Equal decimals are read alike. -/
theorem parts_nearestDecimal_congr {other : Nat} {otherPlaces : Int}
    (found : parts (nearestDecimal digits places) = .finite false mantissa exponent)
    (some : 0 < mantissa) (short : digits.log2 < 1400) (otherShort : other.log2 < 1400)
    (same : (digits : ℚ) * 10 ^ places = other * 10 ^ otherPlaces) :
    nearestDecimal other otherPlaces = nearestDecimal digits places := by
  have range := (isNearest_of_nearestDecimal found some).range (isFormat_of_parts found) some
  rcases nearestDecimal_of_range short range with ⟨_, _, above, below, equal, nearest⟩
  rcases nearestDecimal_of_range otherShort (same ▸ range) with
    ⟨_, _, otherAbove, otherBelow, otherEqual, otherNearest⟩
  rw [nearest, otherNearest,
    nearestBits_congr above below otherAbove otherBelow (equal.trans (same.trans otherEqual.symm))]

end

end Number
end QuantityCalculus
