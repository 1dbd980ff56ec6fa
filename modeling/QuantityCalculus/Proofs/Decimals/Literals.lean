import QuantityCalculus.Proofs.Decimals.ReadingBack

namespace QuantityCalculus
namespace Number

/-!
# Literals with a limited number of places

A literal is written as the nearest decimal with a given number of places, without the zeros at
its end.  Up to fifteen places this keeps every number that is the value of such a decimal: where
the binary numbers are farther apart than the decimals, the nearest decimal is read as the number
again, and where they are closer together, no other decimal can be meant.

All other numbers are changed, except the tiny ones of which no place would be left; these are
written with all their digits.
-/

/-! ## Trailing characters -/

theorem dropTrailing_append_self (c : Char) (text : List Char) :
    dropTrailing c (text ++ [c]) = dropTrailing c text := by
  simp [dropTrailing]

theorem dropTrailing_append_other {c last : Char} (other : last ≠ c) (text : List Char) :
    dropTrailing c (text ++ [last]) = text ++ [last] := by
  simp [dropTrailing, beq_eq_false_iff_ne.mpr other]

/-- Nothing is dropped in front of another character. -/
theorem dropTrailing_behind {c other : Char} (different : other ≠ c) (text more : List Char) :
    dropTrailing c (text ++ other :: more) = text ++ other :: dropTrailing c more := by
  induction more using List.reverseRecOn with
  | nil => exact dropTrailing_append_other different text
  | append_singleton more last inductionHypothesis =>
      rw [← List.cons_append, ← List.append_assoc]
      by_cases same : last = c
      · subst same
        rw [dropTrailing_append_self, dropTrailing_append_self, inductionHypothesis]
      · rw [dropTrailing_append_other same, dropTrailing_append_other same, List.append_assoc]
        rfl

/-- Digits do not end with a point. -/
theorem IsDigits.dropTrailing {text : List Char} (digits : IsDigits text) :
    Number.dropTrailing '.' text = text := by
  induction text using List.reverseRecOn with
  | nil => rfl
  | append_singleton text last _ =>
      have single := List.all_eq_true.mp digits.of_append.2 last List.mem_cons_self
      exact dropTrailing_append_other (digitValue?_of_isDigit single).2.2 text

/-! ## Digits without the zeros at their end -/

/-- The digits of a whole number of units in the last place, with one before the point at least. -/
def unitDigits (places units : Nat) : List Char :=
  List.replicate (places + 1 - (Nat.toDigits 10 units).length) '0' ++ Nat.toDigits 10 units

/-- The digits before the point. -/
def wholeDigits (places units : Nat) : List Char :=
  (unitDigits places units).take ((unitDigits places units).length - places)

/-- The digits behind the point, without zeros at the end. -/
def placeDigits (places units : Nat) : List Char :=
  dropTrailing '0' ((unitDigits places units).drop ((unitDigits places units).length - places))

section

variable {places : Nat} (units : Nat)

theorem unitDigits_length (places units : Nat) :
    (unitDigits places units).length = max (places + 1) (Nat.toDigits 10 units).length := by
  rw [unitDigits, List.length_append, List.length_replicate]
  omega

theorem isDigits_unitDigits (places units : Nat) : IsDigits (unitDigits places units) :=
  (IsDigits.zeros _).append (IsDigits.toDigits _)

/-- The zeros at the end are all that is missing. -/
theorem exists_zeros (places units : Nat) : ∃ zeros,
    wholeDigits places units ++ placeDigits places units ++ List.replicate zeros '0' =
      unitDigits places units ∧ (placeDigits places units).length + zeros = places := by
  rcases exists_dropTrailing '0' ((unitDigits places units).drop
    ((unitDigits places units).length - places)) with ⟨zeros, split⟩
  refine ⟨zeros, ?_, ?_⟩
  · rw [wholeDigits, placeDigits, List.append_assoc, ← split, List.take_append_drop]
  · have length := congrArg List.length split
    have most := unitDigits_length places units
    rw [List.length_drop, List.length_append, List.length_replicate] at length
    rw [placeDigits]
    omega

theorem wholeDigits_ne_nil (places units : Nat) : wholeDigits places units ≠ [] := by
  intro empty
  have none := congrArg List.length empty
  have most := unitDigits_length places units
  rw [wholeDigits, List.length_take, List.length_nil] at none
  omega

/-- The text of a number of units, without zeros and a point at its end. -/
theorem dropTrailing_placedText (some : 0 < places) :
    dropTrailing '.' (dropTrailing '0' (placedText places units)) =
      pointed (wholeDigits places units) (placeDigits places units) := by
  have placed : placedText places units = wholeDigits places units ++ '.' ::
      (unitDigits places units).drop ((unitDigits places units).length - places) :=
    if_neg some.ne'
  rcases exists_zeros places units with ⟨zeros, split, _⟩
  have digits : IsDigits (wholeDigits places units ++ placeDigits places units) :=
    (split ▸ isDigits_unitDigits places units).of_append.1
  rw [placed, dropTrailing_behind (by decide), pointed]
  change dropTrailing '.' (wholeDigits places units ++ '.' :: placeDigits places units) = _
  rcases List.eq_nil_or_concat' (placeDigits places units) with empty | ⟨more, last, same⟩
  · rw [empty, dropTrailing_append_self, digits.of_append.1.dropTrailing]
    exact (List.append_nil _).symm
  · have single : last.isDigit = true := by
      refine List.all_eq_true.mp digits.of_append.2 last ?_
      rw [same]
      exact List.mem_append_right _ List.mem_cons_self
    have some : ¬ (placeDigits places units).isEmpty = true := by simp [same]
    rw [if_neg some, same, ← List.cons_append, ← List.append_assoc]
    exact dropTrailing_append_other (digitValue?_of_isDigit single).2.2 _

theorem digitsValue_unitDigits (places units : Nat) :
    digitsValue (unitDigits places units) = units := by
  rw [unitDigits, digitsValue_leading, digitsValue_toDigits]

/-- Nothing is left of a number of units but a zero only if there are none. -/
theorem pointed_eq_zero_iff (places units : Nat) :
    pointed (wholeDigits places units) (placeDigits places units) = ['0'] <-> units = 0 := by
  constructor
  · intro zero
    rcases exists_zeros places units with ⟨zeros, split, _⟩
    rcases List.append_eq_singleton_iff.mp zero with ⟨empty, _⟩ | ⟨first, rest⟩
    · exact absurd empty (wholeDigits_ne_nil places units)
    · have none : placeDigits places units = [] := by
        split at rest
        · rename_i empty
          exact List.isEmpty_iff.mp empty
        · cases rest
      rw [← digitsValue_unitDigits places units, ← split, first, none, digitsValue_padded]
      exact Nat.zero_mul _
  · rintro rfl
    have zeros : unitDigits places 0 = List.replicate (places + 1) '0' := by
      rw [List.replicate_succ']
      rfl
    rw [wholeDigits, placeDigits, zeros, List.length_replicate, Nat.add_sub_cancel_left,
      List.take_replicate, List.drop_replicate]
    simp [dropTrailing, pointed]

/-- Without the zeros at its end, the text of a number of units stands for the same quotient. -/
theorem standsFor_units (short : (unitDigits places units).length ≤ 350) :
    StandsFor (pointed (wholeDigits places units) (placeDigits places units))
      (units * 10 ^ (-(places : Int))) := by
  rcases exists_zeros places units with ⟨zeros, split, length⟩
  have digits : IsDigits (wholeDigits places units ++ placeDigits places units) :=
    (split ▸ isDigits_unitDigits places units).of_append.1
  have fewer : (wholeDigits places units ++ placeDigits places units).length ≤ 350 := by
    have whole := congrArg List.length split
    rw [List.length_append] at whole
    omega
  have standsFor := standsFor_plain (wholeDigits_ne_nil places units) digits.of_append.1
    digits.of_append.2 fewer
  have scaled : (-((placeDigits places units).length : Int)) = (zeros : Int) + -(places : Int) := by
    omega
  rw [scaled, zpow_add₀ (by norm_num), zpow_natCast, ← mul_assoc] at standsFor
  have value : (digitsValue (wholeDigits places units ++ placeDigits places units) : ℚ) *
      10 ^ zeros = units := by
    have whole := digitsValue_unitDigits places units
    rw [← split, digitsValue_padded] at whole
    exact_mod_cast whole
  rwa [value] at standsFor

end

/-! ## The nearest decimal -/

/-- The whole number of units in the last place that is nearest to a number. -/
def nearestUnits (places mantissa : Nat) (exponent : Int) : Nat :=
  roundQuotient ((scaledRatio mantissa exponent).1 * Nat.pow 10 places)
    (scaledRatio mantissa exponent).2

section

variable {places mantissa : Nat} {exponent : Int}

theorem nearestUnits_isNearest (places mantissa : Nat) (exponent : Int) :
    IsNearest (mantissa * 2 ^ exponent * 10 ^ places) (nearestUnits places mantissa exponent) := by
  have nearest := roundQuotient_isNearest ((scaledRatio mantissa exponent).1 * Nat.pow 10 places)
    (scaledRatio_pos mantissa exponent)
  rw [Nat.cast_mul, mul_div_right_comm, scaledRatio_eq, Nat.pow_eq, Nat.cast_pow] at nearest
  exact nearest

/-- No unit is left of a number only if it is at most half a unit. -/
theorem nearestUnits_eq_zero_iff :
    nearestUnits places mantissa exponent = 0 <->
      2 * (mantissa * 2 ^ exponent * 10 ^ places : ℚ) ≤ 1 := by
  have nearest := nearestUnits_isNearest places mantissa exponent
  have least : (0 : ℚ) ≤ mantissa * 2 ^ exponent * 10 ^ places := by positivity
  constructor
  · intro none
    rw [none] at nearest
    have close := (abs_le.mp nearest.close).2
    rw [Nat.cast_zero, sub_zero] at close
    linarith
  · intro small
    refine nearest.unique ?_
    have close : |(mantissa * 2 ^ exponent * 10 ^ places : ℚ) - (0 : Nat)| ≤ 1 / 2 := by
      rw [Nat.cast_zero, sub_zero, abs_of_nonneg least]
      linarith
    exact (lt_or_eq_of_le close).imp id fun equal => ⟨equal, rfl⟩

/-- The units of a number stay within bounds. -/
theorem nearestUnits_le (format : IsFormat mantissa exponent) (few : places ≤ 15) :
    nearestUnits places mantissa exponent ≤ 2 ^ 1080 := by
  have close := (abs_le.mp (nearestUnits_isNearest places mantissa exponent).close).1
  have size : (mantissa : ℚ) * 2 ^ exponent ≤ 2 ^ (1024 : Int) :=
    calc (mantissa : ℚ) * 2 ^ exponent ≤ 2 ^ (53 : Int) * 2 ^ (971 : Int) :=
          mul_le_mul (by exact_mod_cast format.small.le)
            (zpow_le_zpow_right₀ one_le_two format.greatest) (zpow_two_pos _).le (by positivity)
      _ = 2 ^ (1024 : Int) := by rw [← zpow_add₀ two_ne_zero]; rfl
  have scale : (10 : ℚ) ^ places ≤ 10 ^ 15 := pow_le_pow_right₀ (by norm_num) few
  have most : (mantissa : ℚ) * 2 ^ exponent * 10 ^ places ≤ 2 ^ (1024 : Int) * 10 ^ 15 :=
    mul_le_mul size scale (by positivity) (by positivity)
  have less : (nearestUnits places mantissa exponent : ℚ) ≤ 2 ^ (1024 : Int) * 10 ^ 15 + 1 := by
    linarith
  have whole : nearestUnits places mantissa exponent ≤ 2 ^ 1024 * 10 ^ 15 + 1 := by
    exact_mod_cast less
  have bound : 2 ^ 1024 * 10 ^ 15 + 1 ≤ 2 ^ 1080 := by decide +kernel
  exact whole.trans bound

theorem nearestUnits_short (format : IsFormat mantissa exponent) (few : places ≤ 15) :
    (nearestUnits places mantissa exponent).log2 < 1400 ∧
      (unitDigits places (nearestUnits places mantissa exponent)).length ≤ 350 := by
  have bounded := nearestUnits_le format few
  constructor
  · have short := @log2_le_of_le _ 1080 (by exact_mod_cast bounded)
    omega
  · have bound : 2 ^ 1080 < 10 ^ 350 := by decide +kernel
    have shown := (Nat.length_toDigits_le_iff (by decide) (by decide)).mpr (bounded.trans_lt bound)
    rw [unitDigits_length]
    omega

/-- A decimal that is a number is the nearest one. -/
theorem nearestUnits_of_exact {units : Nat}
    (exact : (mantissa : ℚ) * 2 ^ exponent = units * 10 ^ (-(places : Int))) :
    nearestUnits places mantissa exponent = units := by
  refine (nearestUnits_isNearest places mantissa exponent).unique (Or.inl ?_)
  rw [exact, zpow_neg, zpow_natCast, mul_assoc, inv_mul_cancel₀ (by positivity), mul_one, sub_self,
    abs_zero]
  norm_num

/-- A power of two whose neighbours are not closer than the decimals is a decimal itself. -/
theorem exact_of_power (few : places ≤ 15)
    (coarse : (10 : ℚ) ^ (-(places : Int)) ≤ 2 ^ exponent) :
    ∃ units : Nat, ((Nat.pow 2 52 : Nat) : ℚ) * 2 ^ exponent =
      units * 10 ^ (-(places : Int)) := by
  have large : -50 < exponent := by
    refine not_le.mp fun small => ?_
    have first : (10 : ℚ) ^ (-15 : Int) ≤ 10 ^ (-(places : Int)) :=
      zpow_le_zpow_right₀ (by norm_num) (by omega)
    have second : (2 : ℚ) ^ exponent ≤ 2 ^ (-50 : Int) := zpow_le_zpow_right₀ one_le_two small
    have apart : (2 : ℚ) ^ (-50 : Int) < 10 ^ (-15 : Int) := by norm_num
    linarith
  obtain ⟨power, same⟩ : ∃ power : Nat, (52 : Int) + exponent = power :=
    ⟨(52 + exponent).toNat, by omega⟩
  refine ⟨2 ^ power * 10 ^ places, ?_⟩
  have whole : ((Nat.pow 2 52 : Nat) : ℚ) * 2 ^ exponent = 2 ^ power := by
    rw [← zpow_natCast, ← same, zpow_add₀ two_ne_zero]
    norm_num
  rw [whole, zpow_neg, zpow_natCast]
  push_cast
  rw [mul_assoc, mul_inv_cancel₀ (by positivity), mul_one]

/-- Above half a step below it, a number is meant by what is nearest to it. -/
theorem IsNearest.roundsTo {quotient : ℚ} (nearest : IsNearest (quotient / 2 ^ exponent) mantissa)
    (regular : quartersBelow mantissa exponent = 2) : RoundsTo quotient mantissa exponent := by
  rcases nearest with close | ⟨half, even⟩
  · refine roundsTo_of_close (close.trans_eq ?_)
    rw [regular]
    norm_num
  · have bounds := abs_le.mp half.le
    unfold RoundsTo
    dsimp only
    rw [if_pos even, regular]
    push_cast
    constructor <;> linarith

/-- Away from the nearest whole number, all others are half a unit off at least. -/
theorem half_le_distance (quotient : ℚ) {count nearest : Nat} (other : ¬ count = nearest)
    (close : |quotient - nearest| ≤ 1 / 2) : 1 / 2 ≤ |quotient - count| := by
  have apart : (1 : ℚ) ≤ |(nearest : ℚ) - count| := by
    have whole : (1 : ℤ) ≤ |(nearest : ℤ) - count| := Int.one_le_abs (by omega)
    exact_mod_cast whole
  have between := abs_sub_le (nearest : ℚ) quotient count
  rw [abs_sub_comm _ quotient] at between
  linarith

/-- The distance of a decimal from a number, in steps and in units. -/
theorem distance_eq (places mantissa : Nat) (exponent : Int) (count : Nat) :
    |(count : ℚ) * 10 ^ (-(places : Int)) / 2 ^ exponent - mantissa| =
      10 ^ (-(places : Int)) / 2 ^ exponent *
        |(mantissa * 2 ^ exponent * 10 ^ places : ℚ) - count| := by
  have positive : (0 : ℚ) < 10 ^ (-(places : Int)) / 2 ^ exponent :=
    div_pos (zpow_pos (by norm_num) _) (zpow_two_pos exponent)
  have scaled : (count : ℚ) * 10 ^ (-(places : Int)) / 2 ^ exponent - mantissa =
      10 ^ (-(places : Int)) / 2 ^ exponent *
        (count - mantissa * 2 ^ exponent * 10 ^ places) := by
    have size := (zpow_two_pos exponent).ne'
    rw [zpow_neg, zpow_natCast]
    field_simp
  rw [scaled, abs_mul, abs_of_pos positive, abs_sub_comm]

/-- If any decimal with these places is read as a number, then the nearest one is. -/
theorem parts_nearestUnits {units : Nat} (some : 0 < mantissa) (few : places ≤ 15)
    (found : parts (nearestDecimal units (-(places : Int))) = .finite false mantissa exponent) :
    parts (nearestDecimal (nearestUnits places mantissa exponent) (-(places : Int))) =
      .finite false mantissa exponent := by
  have format := isFormat_of_parts found
  by_cases same : units = nearestUnits places mantissa exponent
  · rw [← same]
    exact found
  have meant := isNearest_of_nearestDecimal found some
  have close := (nearestUnits_isNearest places mantissa exponent).close
  refine parts_nearestDecimal format some (nearestUnits_short format few).1 ?_
  have size := zpow_two_pos exponent
  have positive : (0 : ℚ) < 10 ^ (-(places : Int)) / 2 ^ exponent :=
    div_pos (zpow_pos (by norm_num) _) size
  have apart := half_le_distance (mantissa * 2 ^ exponent * 10 ^ places : ℚ) same close
  have closer : |(nearestUnits places mantissa exponent : ℚ) * 10 ^ (-(places : Int)) /
      2 ^ exponent - mantissa| ≤
        |(units : ℚ) * 10 ^ (-(places : Int)) / 2 ^ exponent - mantissa| := by
    rw [distance_eq, distance_eq]
    exact mul_le_mul_of_nonneg_left (close.trans apart) positive.le
  by_cases power : mantissa = Nat.pow 2 52 ∧ -1074 < exponent
  · have coarse : (10 : ℚ) ^ (-(places : Int)) ≤ 2 ^ exponent := by
      have most := meant.close
      rw [distance_eq] at most
      have least := mul_le_mul_of_nonneg_left apart positive.le
      exact (div_le_one size).mp (by linarith)
    rcases exact_of_power few coarse with ⟨whole, exact⟩
    rw [← power.1] at exact
    refine roundsTo_of_close ?_
    rw [nearestUnits_of_exact exact, ← exact, mul_div_cancel_right₀ _ size.ne', sub_self, abs_zero,
      quartersBelow, if_pos power]
    norm_num
  · refine IsNearest.roundsTo ?_ (if_neg power)
    rcases meant with less | ⟨half, even⟩
    · exact Or.inl (closer.trans_lt less)
    · exact (lt_or_eq_of_le (closer.trans half.le)).imp id fun equal => ⟨equal, even⟩

end

/-! ## Literals -/

section

variable {places : Nat} {value : Float} {negative : Bool} {mantissa : Nat} {exponent : Int}

/-- The text of some units, as a magnitude. -/
theorem isMagnitude_units (places units : Nat) :
    IsMagnitude (pointed (wholeDigits places units) (placeDigits places units)) := by
  rcases exists_zeros places units with ⟨zeros, split, _⟩
  have digits : IsDigits (wholeDigits places units ++ placeDigits places units) :=
    (split ▸ isDigits_unitDigits places units).of_append.1
  refine isMagnitude_of_decimal ?_
  rw [pointed, List.all_append, digits.of_append.1.decimal, Bool.true_and]
  split
  · rfl
  · rw [List.all_cons, digits.of_append.2.decimal]
    rfl

/-- A magnitude is a zero by itself and behind a sign. -/
theorem withSign_eq_zero_iff {magnitude : List Char} (isMagnitude : IsMagnitude magnitude)
    (negative : Bool) :
    (decide (withSign negative magnitude = ['0']) ||
      decide (withSign negative magnitude = ['-', '0'])) = true <-> magnitude = ['0'] := by
  rw [Bool.or_eq_true, decide_eq_true_iff, decide_eq_true_iff]
  cases negative
  · refine ⟨fun either => either.resolve_right ?_, Or.inl⟩
    rintro signed
    have first := isMagnitude.unsigned '-' (by rw [show magnitude = ['-', '0'] from signed]; rfl)
    cases first
  · constructor
    · rintro (unsigned | signed)
      · cases unsigned
      · exact (List.cons.inj signed).2
    · rintro rfl
      exact Or.inr rfl

/-- A literal that is no whole number is written as its nearest decimal, unless nothing would be
left of it. -/
theorem literalText_eq (some : 0 < places) (few : places ≤ 15)
    (found : parts value = .finite negative mantissa exponent)
    (notWhole : wholeText? value = none) :
    literalText places value =
      if nearestUnits places mantissa exponent = 0 then shortestText value
      else withSign negative (pointed (wholeDigits places (nearestUnits places mantissa exponent))
        (placeDigits places (nearestUnits places mantissa exponent))) := by
  have finite : Scalar.isFinite value = true := by
    change isFinite value = true
    rw [isFinite, found]
  have fixed : Scalar.fixed (min places mostPlaces) value =
      withSign negative (placedText places (nearestUnits places mantissa exponent)) := by
    rw [min_eq_left (few.trans (by decide))]
    change fixedText places value = _
    rw [fixedText, found]
    rfl
  unfold literalText
  rw [finite, notWhole]
  dsimp only
  rw [fixed, dropTrailing_withSign (by decide), dropTrailing_withSign (by decide),
    dropTrailing_placedText _ some, if_neg (by decide)]
  exact if_congr ((withSign_eq_zero_iff (isMagnitude_units _ _) negative).trans
    (pointed_eq_zero_iff _ _)) rfl rfl

/-- A whole number is the value of a decimal with any number of places. -/
theorem exists_units_of_whole (few : places ≤ 15)
    (found : parts value = .finite negative mantissa exponent)
    (whole : Scalar.eq value (Scalar.ofInt (wholePart value)) = true) :
    ∃ units : Nat, magnitude value = nearestDecimal units (-(places : Int)) := by
  have size := parts_magnitude found
  rcases Nat.eq_zero_or_pos mantissa with rfl | some
  · cases exponent_of_zero found
    exact ⟨0, eq_of_parts size parts_zero⟩
  · rcases parts_of_whole found whole with ⟨read, short⟩
    generalize (wholePart value).natAbs = units at *
    refine ⟨units * 10 ^ places, (eq_of_parts size read).trans ?_⟩
    refine (parts_nearestDecimal_congr read some (by omega) ?_ ?_).symm
    · by_cases zero : units * 10 ^ places = 0
      · rw [zero]
        decide
      · refine (Nat.log2_lt zero).mpr ?_
        calc units * 10 ^ places < 2 ^ (units.log2 + 1) * 10 ^ places :=
              Nat.mul_lt_mul_of_pos_right Nat.lt_log2_self (Nat.pow_pos (by decide))
          _ ≤ 2 ^ (units.log2 + 1) * (2 ^ 4) ^ places :=
              Nat.mul_le_mul_left _ (Nat.pow_le_pow_left (by decide) _)
          _ = 2 ^ (units.log2 + 1 + 4 * places) := by
              rw [← pow_mul, ← pow_add]
          _ ≤ 2 ^ 1400 := Nat.pow_le_pow_right two_pos (by omega)
    · rw [zpow_zero, zpow_neg, zpow_natCast]
      push_cast
      rw [mul_assoc, mul_inv_cancel₀ (by positivity)]

/-- A decimal with these places is the magnitude of a number exactly if the nearest one is. -/
theorem exists_units_iff (some : 0 < mantissa) (few : places ≤ 15)
    (found : parts value = .finite negative mantissa exponent) :
    (∃ units : Nat, magnitude value = nearestDecimal units (-(places : Int))) <->
      parts (nearestDecimal (nearestUnits places mantissa exponent) (-(places : Int))) =
        .finite false mantissa exponent := by
  have size := parts_magnitude found
  constructor
  · rintro ⟨units, same⟩
    exact parts_nearestUnits some few (same ▸ size)
  · intro read
    exact ⟨_, eq_of_parts size read⟩

/-- The text of the nearest decimal is read as the number exactly if that decimal is rounded to
it. -/
theorem read?_units_iff (some : 0 < mantissa) (few : places ≤ 15)
    (found : parts value = .finite negative mantissa exponent) :
    read? (withSign negative (pointed
        (wholeDigits places (nearestUnits places mantissa exponent))
        (placeDigits places (nearestUnits places mantissa exponent)))) = Option.some value <->
      parts (nearestDecimal (nearestUnits places mantissa exponent) (-(places : Int))) =
        .finite false mantissa exponent := by
  rcases nearestUnits_short (isFormat_of_parts found) few with ⟨short, fits⟩
  rcases standsFor_units _ fits with ⟨digits, shift, fewer, same, reads⟩
  have isMagnitude := isMagnitude_units places (nearestUnits places mantissa exponent)
  constructor
  · intro back
    have read := parts_of_read? found isMagnitude reads back
    rw [parts_nearestDecimal_congr read some fewer short same]
    exact read
  · intro read
    refine read?_of_parts found isMagnitude reads ?_
    rw [parts_nearestDecimal_congr read some short fewer same.symm]
    exact read

/-- A literal is read as the number that was written exactly if the number is the value of a
decimal with these places, or too small for any of them. -/
theorem literal_reads_back_iff (some : 0 < places) (few : places ≤ 15)
    (finite : isFinite value = true) (signed : value ≠ signedZero true) :
    read? (literalText places value) = Option.some value <->
      (∃ units : Nat, Scalar.abs value = Scalar.ofDecimal units (-(places : Int))) ∨
        2 * (|exactValue ℚ value| * 10 ^ places) ≤ 1 := by
  rcases parts_of_isFinite finite with ⟨negative, mantissa, exponent, found⟩
  have isNumber : Scalar.isFinite value = true := finite
  cases whole : wholeText? value with
  | some text =>
      have written : literalText places value = text := by
        rw [literalText, isNumber, whole]
        rfl
      rw [written]
      exact iff_of_true (read?_wholeText signed whole)
        (Or.inl (exists_units_of_whole few found (eq_of_wholeText? whole).2.1))
  | none =>
      have mantissaPositive := mantissa_pos_of_not_whole found signed whole
      rw [literalText_eq some few found whole, abs_exactValue found, ← nearestUnits_eq_zero_iff]
      split
      · rename_i none
        exact iff_of_true (read?_shortestText value) (Or.inr none)
      · rename_i notNone
        rw [or_iff_left notNone]
        exact (read?_units_iff mantissaPositive few found).trans
          (exists_units_iff mantissaPositive few found).symm

/-- A tenth is the value of a decimal with one place, so it is kept. -/
theorem literal_reads_back_tenth :
    0 < 15 ∧ 15 ≤ 15 ∧ isFinite (readSpelling ['0', '.', '1']) = true ∧
      readSpelling ['0', '.', '1'] ≠ signedZero true ∧
      read? (literalText 15 (readSpelling ['0', '.', '1'] : Float)) =
        some (readSpelling ['0', '.', '1'] : Float) := by
  have finite : isFinite (readSpelling ['0', '.', '1']) = true := by decide
  have signed : readSpelling ['0', '.', '1'] ≠ signedZero true := by decide
  have decimal : ∃ units : Nat, Scalar.abs (readSpelling ['0', '.', '1'] : Float) =
      Scalar.ofDecimal units (-(15 : Nat)) := ⟨10 ^ 14, by decide⟩
  exact ⟨by decide, by decide, finite, signed,
    (literal_reads_back_iff (by decide) (by decide) finite signed).mpr (Or.inl decimal)⟩

/-- A third is written with one place less than it is read with, and is another number then. -/
theorem literal_of_third_changed :
    spellingLength "0.3333333333333333".toList = "0.3333333333333333".toList.length ∧
      isFinite (readSpelling "0.3333333333333333".toList) = true ∧
      literalText 15 (readSpelling "0.3333333333333333".toList : Float) =
        "0.333333333333333".toList ∧
      read? (literalText 15 (readSpelling "0.3333333333333333".toList : Float)) ≠
        some (readSpelling "0.3333333333333333".toList : Float) := by
  decide

end

end Number
end QuantityCalculus
