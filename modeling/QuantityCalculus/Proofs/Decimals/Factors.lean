import QuantityCalculus.Proofs.Decimals.ReadingBack
import QuantityCalculus.Proofs.Storage.UnitFiles

namespace QuantityCalculus

/-!
# Factors of declarations read back

The factor of a declaration is written like a number, and it is read from a text of letters,
digits and points.  A number of ordinary size is written with these characters and is read as
itself.  A number below a ten-thousandth is written with an exponent, whose sign is none of them,
so that the declaration is refused when it is read again.
-/

open Number Source

section

variable {value : Float} {negative : Bool} {mantissa : Nat} {exponent : Int}

/-! ## Numbers that symbols are read as -/

/-- A number without the bit of the sign. -/
def IsUnsigned (value : Float) : Prop :=
  value.toBits.toNat < Nat.pow 2 63

instance (value : Float) : Decidable (IsUnsigned value) :=
  inferInstanceAs (Decidable (_ < _))

theorem isUnsigned_special :
    IsUnsigned undefined ∧ IsUnsigned (infinite false) ∧ ¬ IsUnsigned (infinite true) ∧
      ¬ IsUnsigned (signedZero true) := by
  decide

/-- Without the bit of the sign a number is neither negative nor the negative infinity. -/
theorem IsUnsigned.not_negative (unsigned : IsUnsigned value) :
    parts value ≠ .finite true mantissa exponent ∧ value ≠ infinite true := by
  have sign : Nat.ble (Nat.pow 2 63) value.toBits.toNat = false :=
    Bool.eq_false_iff.mpr (mt Nat.ble_eq.mp (not_le.mpr unsigned))
  constructor
  · intro found
    unfold parts at found
    simp only [sign] at found
    split at found
    · split at found <;> cases found
    · split at found <;> cases found
  · rintro rfl
    exact isUnsigned_special.2.2.1 unsigned

theorem isUnsigned_ofMagnitudeBits {bits : Nat} (bound : bits ≤ infinityBits) :
    IsUnsigned (ofMagnitudeBits false bits) := by
  rcases Nat.lt_or_eq_of_le bound with finite | rfl
  · rw [IsUnsigned, toBits_ofMagnitudeBits false finite, signedBits]
    exact finite.trans (by decide)
  · exact isUnsigned_special.2.1

/-- What is read without a sign has none. -/
theorem isUnsigned_of_readUnsigned? {text : List Char} (reads : readUnsigned? text = some value) :
    IsUnsigned value := by
  unfold readUnsigned? at reads
  split at reads
  · cases reads
    exact isUnsigned_ofMagnitudeBits le_rfl
  split at reads
  · cases reads
    exact isUnsigned_special.1
  rcases Option.bind_eq_some_iff.mp reads with ⟨spelling, _, spelled⟩
  split at spelled
  · cases spelled
    -- All cases of a decimal end in the bits of a magnitude.
    change IsUnsigned (nearestDecimal _ _)
    unfold nearestDecimal
    dsimp only
    split
    · exact isUnsigned_ofMagnitudeBits (Nat.zero_le _)
    split
    · exact isUnsigned_ofMagnitudeBits le_rfl
    split
    · exact isUnsigned_ofMagnitudeBits (Nat.zero_le _)
    rename_i some _ _
    split
    · exact isUnsigned_ofMagnitudeBits
        (nearestBits_le (Nat.mul_pos (Nat.pos_of_ne_zero some) (Nat.pow_pos (by decide))) one_pos)
    · exact isUnsigned_ofMagnitudeBits
        (nearestBits_le (Nat.pos_of_ne_zero some) (Nat.pow_pos (by decide)))
  · cases spelled

/-- A point and the mark of an exponent can be part of a symbol, the signs of a number cannot. -/
theorem symbolSigns :
    isSymbolCharacter '.' = true ∧ isSymbolCharacter 'e' = true ∧
      isSymbolCharacter '-' = false ∧ isSymbolCharacter '+' = false := by
  decide +kernel

/-- A symbol has no sign and no blanks to be left out. -/
theorem IsSymbol.read? {text : List Char} (isSymbol : IsSymbol text) :
    (Number.read? text : Option Float) = readUnsigned? text := by
  have symbols := List.all_eq_true.mp isSymbol.characters
  have trims : Text.trim text = text := trim_eq_self
    (fun c first => isBlank_of_isSymbolCharacter (symbols c (List.mem_of_head? first)))
    (fun c last => isBlank_of_isSymbolCharacter (symbols c (List.mem_of_getLast? last)))
  unfold Number.read?
  rw [trims]
  split
  · exact absurd (symbols '-' List.mem_cons_self) (Bool.eq_false_iff.mp symbolSigns.2.2.1)
  · exact absurd (symbols '+' List.mem_cons_self) (Bool.eq_false_iff.mp symbolSigns.2.2.2)
  · rfl

/-! ## Numbers with a fraction -/

/-- A number is rounded to itself. -/
theorem roundsTo_self (mantissa : Nat) (exponent : Int) :
    RoundsTo (mantissa * 2 ^ exponent) mantissa exponent := by
  refine roundsTo_of_close ?_
  rw [mul_div_cancel_right₀ _ (zpow_two_pos exponent).ne', sub_self, abs_zero]
  unfold quartersBelow
  split <;> norm_num

/-- A finite number with a mantissa is equal to itself. -/
theorem scalar_eq_self (found : parts value = .finite negative mantissa exponent)
    (some : 0 < mantissa) : Scalar.eq value value = true := by
  change value.toModel.unpack.beq value.toModel.unpack = true
  rcases unpack_of_finite found with ⟨none, _⟩ | ⟨_, positive, unpacked⟩
  · exact absurd none some.ne'
  · rw [unpacked]
    have ordered : (compare exponent exponent).then (compare mantissa mantissa) = .eq := by
      rw [compare_eq_iff_eq.mpr rfl, compare_eq_iff_eq.mpr rfl]
      rfl
    cases negative
    · exact beq_iff_eq.mpr (congrArg Option.some ordered)
    · exact beq_iff_eq.mpr (congrArg Option.some (Ordering.swap_eq_eq.mpr ordered))

/-- A number without a sign and without places behind its binary point is its whole part. -/
theorem eq_ofInt_wholePart (found : parts value = .finite false mantissa exponent)
    (some : 0 < mantissa) (whole : 0 ≤ exponent) : value = Scalar.ofInt (wholePart value) := by
  rcases Int.eq_ofNat_of_zero_le whole with ⟨up, rfl⟩
  have format := isFormat_of_parts found
  have part : wholePart value = (mantissa * 2 ^ up : Nat) := by
    rw [wholePart, found]
    change ((mantissa * Nat.pow 2 up / 1 : Nat) : Int) = _
    rw [Nat.div_one]
    rfl
  have exact : ((mantissa * 2 ^ up : Nat) : ℚ) / (1 : Nat) = mantissa * 2 ^ (up : Int) := by
    push_cast
    rw [div_one, zpow_natCast]
  have bits : nearestBits (mantissa * 2 ^ up) 1 = partBits mantissa up := by
    refine RoundsTo.nearestBits ?_ format (Nat.mul_pos some (Nat.two_pow_pos up)) Nat.one_pos
    rw [exact]
    exact roundsTo_self _ _
  have unsigned : decide (((mantissa * 2 ^ up : Nat) : Int) < 0) = false :=
    decide_eq_false (not_lt.mpr (Int.natCast_nonneg _))
  refine eq_of_parts found ?_
  change parts (nearest (decide (wholePart value < 0)) (wholePart value).natAbs 1) = _
  rw [part, unsigned, Int.natAbs_natCast, nearest, bits]
  exact parts_ofMagnitudeBits_partBits false format

/-- A number without a sign that is not whole has places behind its binary point. -/
theorem exponent_neg_of_fraction (found : parts value = .finite false mantissa exponent)
    (fraction : Scalar.toInt? value = none) : exponent < 0 := by
  refine not_le.mp fun whole => ?_
  have some : 0 < mantissa := by
    refine Nat.pos_of_ne_zero ?_
    rintro rfl
    have least := exponent_of_zero found
    omega
  have finite : isFinite value = true := by rw [isFinite, found]
  have equal : Scalar.eq value (Scalar.ofInt (wholePart value)) = true := by
    rw [← eq_ofInt_wholePart found some whole]
    exact scalar_eq_self found some
  unfold Scalar.toInt? at fraction
  split at fraction
  · cases fraction
  · rename_i notWhole
    exact notWhole (Bool.and_eq_true_iff.mpr ⟨finite, equal⟩)

/-! ## Where the point of a number with a fraction is -/

variable {decimal : Decimal}

/-- A number between zero and a ten-thousandth. -/
def IsTiny (value : Float) : Prop :=
  0 < exactValue ℚ value ∧ exactValue ℚ value < 1 / 10000

/-- Sixteen digits before the point are enough for a number with a fraction. -/
theorem point_le_of_fraction (shortest : IsShortest decimal mantissa exponent)
    (format : IsFormat mantissa exponent) (fraction : exponent < 0) : decimal.point ≤ 16 := by
  have size := zpow_two_pos exponent
  have half : (2 : ℚ) ^ exponent ≤ 2 ^ (-1 : Int) :=
    zpow_le_zpow_right₀ one_le_two (by omega)
  have greatest : (mantissa : ℚ) + 1 / 2 ≤ 2 ^ 53 := by
    have small : (mantissa : ℚ) + 1 ≤ 2 ^ 53 := by exact_mod_cast format.small
    linarith
  have below : ((mantissa : ℚ) + 1 / 2) * 2 ^ exponent < 10 ^ (16 : Int) := by
    calc ((mantissa : ℚ) + 1 / 2) * 2 ^ exponent ≤ 2 ^ 53 * 2 ^ (-1 : Int) :=
          mul_le_mul greatest half size.le (by norm_num)
      _ < 10 ^ (16 : Int) := by norm_num
  have least : (mantissa : ℚ) * 2 ^ exponent ≤ (mantissa + 1 / 2) * 2 ^ exponent :=
    mul_le_mul_of_nonneg_right (by linarith) size.le
  have power : forall {point : Int}, (10 : ℚ) ^ point < 10 ^ (16 : Int) -> point < 16 :=
    (zpow_lt_zpow_iff_right₀ (by norm_num)).mp
  rcases shortest.size with ⟨point, low, _, same | ⟨next, rounded⟩⟩
  · have := power ((low.trans least).trans_lt below)
    omega
  · have close := shortest.rounds.below
    rw [rounded, div_le_iff₀ size] at close
    have := power (close.trans_lt below)
    omega

theorem point_ge_of_large (shortest : IsShortest decimal mantissa exponent)
    (large : (1 : ℚ) / 10000 ≤ mantissa * 2 ^ exponent) : -3 ≤ decimal.point := by
  rcases shortest.size with ⟨point, _, high, reached⟩
  have power : (10 : ℚ) ^ (-4 : Int) < 10 ^ point :=
    lt_of_le_of_lt (le_trans (by norm_num) large) high
  have := (zpow_lt_zpow_iff_right₀ (by norm_num)).mp power
  omega

/-- The number that a ten-thousandth is read as is a little more than that. -/
theorem tenThousandth_lt (rounds : RoundsTo (10 ^ (-4 : Int)) mantissa exponent)
    (format : IsFormat mantissa exponent) (some : 0 < mantissa) :
    (1 : ℚ) / 10000 < mantissa * 2 ^ exponent := by
  have read : parts (nearestDecimal 1 (-4)) = .finite false 7378697629483821 (-66) := by
    decide
  have same : parts (nearestDecimal 1 (-4)) = .finite false mantissa exponent :=
    parts_nearestDecimal format some (by decide) (by rwa [Nat.cast_one, one_mul])
  rw [read] at same
  cases same
  norm_num

theorem point_le_of_tiny (shortest : IsShortest decimal mantissa exponent)
    (format : IsFormat mantissa exponent) (some : 0 < mantissa)
    (tiny : (mantissa : ℚ) * 2 ^ exponent < 1 / 10000) : decimal.point ≤ -4 := by
  rcases shortest.size with ⟨point, low, _, reached⟩
  have power : (10 : ℚ) ^ (point - 1) < 10 ^ (-4 : Int) :=
    low.trans_lt (tiny.trans_le (by norm_num))
  have least := (zpow_lt_zpow_iff_right₀ (by norm_num)).mp power
  rcases reached with same | ⟨next, rounded⟩
  · omega
  · refine not_lt.mp fun above => ?_
    have edge : point = -4 := by omega
    have rounds := shortest.rounds
    rw [rounded, edge] at rounds
    exact absurd (tenThousandth_lt rounds format some) tiny.not_gt

/-! ## Texts of factors -/

theorem isSymbolCharacter_of_isDigit {c : Char} (digit : c.isDigit = true) :
    isSymbolCharacter c = true := by
  have range : 48 ≤ c.toNat ∧ c.toNat ≤ 57 := Char.isDigit_iff_toNat.mp digit
  have word : Text.isWordCharacter c = true :=
    (Text.CharacterSet.covers_iff _ c).mpr ⟨(48, 57), List.mem_cons_self, range⟩
  rw [isSymbolCharacter, word]
  rfl

theorem Number.IsDigits.symbols {text : List Char} (digits : IsDigits text) :
    text.all isSymbolCharacter = true :=
  List.all_eq_true.mpr fun c member =>
    isSymbolCharacter_of_isDigit (List.all_eq_true.mp digits c member)

theorem symbols_pointed {before after : List Char} (digits : IsDigits before)
    (places : IsDigits after) : (pointed before after).all isSymbolCharacter = true := by
  rw [pointed, List.all_append, digits.symbols, Bool.true_and]
  split
  · rfl
  · rw [List.all_cons, places.symbols, symbolSigns.1]
    rfl

/-- Digits are written without an exponent if the point is not far from them. -/
theorem layout_eq (decimal : Decimal) :
    numberLayout.text decimal =
      if -3 ≤ decimal.point ∧ decimal.point ≤ 16 then positionalText decimal
      else scientificText numberLayout.exponentWidth decimal := by
  have near : (decide (numberLayout.leastPositional ≤ decimal.point - 1) &&
      decide (decimal.point - 1 ≤ numberLayout.greatestPositional)) = true <->
        -3 ≤ decimal.point ∧ decimal.point ≤ 16 := by
    rw [Bool.and_eq_true, decide_eq_true_eq, decide_eq_true_eq]
    change -4 ≤ _ ∧ _ ≤ 15 <-> _
    omega
  exact if_congr near rfl rfl

/-- The shortest text of a positive number. -/
theorem shortestText_of_parts (found : parts value = .finite false mantissa exponent)
    (some : 0 < mantissa) :
    shortestText value = numberLayout.text (shortestDecimal mantissa exponent) := by
  rw [shortestText, found]
  dsimp only
  rw [if_neg some.ne', withSign, if_neg Bool.false_ne_true]

/-- A number with a fraction that is not tiny is written with digits and a point. -/
theorem symbols_shortestText (found : parts value = .finite false mantissa exponent)
    (some : 0 < mantissa) (fraction : Scalar.toInt? value = none) (ordinary : ¬ IsTiny value) :
    (shortestText value).all isSymbolCharacter = true := by
  have format := isFormat_of_parts found
  have shortest := isShortest_shortestDecimal format some
  have exact : exactValue ℚ value = mantissa * 2 ^ exponent := by
    rw [exactValue_of_parts found, if_neg Bool.false_ne_true, one_mul]
  have positive : (0 : ℚ) < mantissa * 2 ^ exponent :=
    mul_pos (by exact_mod_cast some) (zpow_two_pos exponent)
  have large : (1 : ℚ) / 10000 ≤ mantissa * 2 ^ exponent :=
    not_lt.mp fun tiny => ordinary ⟨exact ▸ positive, exact ▸ tiny⟩
  have above := point_ge_of_large shortest large
  have below := point_le_of_fraction shortest format (exponent_neg_of_fraction found fraction)
  rcases exists_positionalText shortest.written shortest.digits with
    ⟨before, after, digits, places, shown⟩
  rw [shortestText_of_parts found some, layout_eq, if_pos ⟨above, below⟩, shown]
  exact symbols_pointed digits places

/-- An exponent below zero is written with its sign. -/
theorem exists_exponentText_of_neg (width : Nat) (below : exponent < 0) :
    ∃ digits, IsDigits digits ∧ exponentText width exponent = '-' :: digits := by
  have digits := IsDigits.toDigits exponent.natAbs
  refine ⟨_, (IsDigits.zeros (width - (Nat.toDigits 10 exponent.natAbs).length)).append digits, ?_⟩
  rw [exponentText, if_pos below]
  rfl

/-- A tiny number is finite and positive. -/
theorem IsTiny.exists_parts (tiny : IsTiny value) :
    ∃ mantissa exponent, parts value = .finite false mantissa exponent ∧ 0 < mantissa ∧
      (mantissa : ℚ) * 2 ^ exponent < 1 / 10000 := by
  rcases tiny with ⟨positive, small⟩
  cases finite : isFinite value with
  | false =>
      rw [exactValue_of_not_finite finite] at positive
      exact absurd positive (lt_irrefl 0)
  | true =>
      rcases parts_of_isFinite finite with ⟨negative, mantissa, exponent, found⟩
      have size : (0 : ℚ) ≤ mantissa * 2 ^ exponent := by positivity
      rw [exactValue_of_parts found] at positive small
      cases negative
      · rw [if_neg Bool.false_ne_true, one_mul] at positive small
        refine ⟨mantissa, exponent, found, Nat.pos_of_ne_zero ?_, small⟩
        rintro rfl
        exact absurd positive (by simp)
      · rw [if_pos rfl, neg_one_mul] at positive
        linarith

/-- A tiny number is not whole. -/
theorem IsTiny.toInt? (tiny : IsTiny value) : Scalar.toInt? value = none := by
  rcases tiny.exists_parts with ⟨mantissa, exponent, found, some, small⟩
  refine Option.eq_none_iff_forall_ne_some.mpr fun number whole => ?_
  rcases toInt?_eq_some whole with ⟨_, equal, _⟩
  have positive := scaledRatio_pos mantissa exponent
  have none : (scaledRatio mantissa exponent).1 / (scaledRatio mantissa exponent).2 = 0 := by
    refine Nat.div_eq_of_lt ?_
    have below :
        ((scaledRatio mantissa exponent).1 : ℚ) / (scaledRatio mantissa exponent).2 < 1 := by
      rw [scaledRatio_eq]
      linarith
    rw [div_lt_one (by exact_mod_cast positive)] at below
    exact_mod_cast below
  have part : wholePart value = 0 := by
    rw [wholePart, found]
    dsimp only
    rw [none]
    rfl
  have zero := (parts_of_whole found equal).1
  rw [part] at zero
  cases parts_zero.symm.trans zero
  exact absurd some (lt_irrefl 0)

/-- A tiny factor is written with an exponent, and the sign of the exponent is no part of a
symbol. -/
theorem IsTiny.exists_factorText (tiny : IsTiny value) :
    ∃ front behind, IsSymbol front ∧ IsDigits behind ∧
      factorText value = front ++ '-' :: behind := by
  have shownShortest : factorText value = shortestText value := by
    rw [factorText, tiny.toInt?]
    rfl
  rcases tiny.exists_parts with ⟨mantissa, exponent, found, some, small⟩
  have format := isFormat_of_parts found
  have shortest := isShortest_shortestDecimal format some
  have point := point_le_of_tiny shortest format some small
  have text := shortestText_of_parts found some
  generalize shortestDecimal mantissa exponent = decimal at shortest point text
  rcases exists_exponentText_of_neg numberLayout.exponentWidth (show decimal.point - 1 < 0 by omega)
    with ⟨behind, isDigits, exponentShown⟩
  cases shown : decimal.digits with
  | nil => exact absurd shown shortest.written
  | cons first rest =>
      have digits := shortest.digits
      rw [shown, ← List.singleton_append] at digits
      refine ⟨pointed [first] rest ++ ['e'], behind, ⟨by simp, ?_⟩, isDigits, ?_⟩
      · rw [List.all_append, symbols_pointed digits.of_append.1 digits.of_append.2, List.all_cons,
          symbolSigns.2.1]
        rfl
      · rw [shownShortest, text, layout_eq, if_neg (by omega), scientificText_cons _ shown,
          exponentShown, List.append_assoc]
        rfl

theorem readableFactor_of_whole (found : parts value = .finite false mantissa exponent)
    (signed : value ≠ signedZero true) {number : Int}
    (whole : Scalar.toInt? value = some number) : ReadableFactor value := by
  rcases toInt?_eq_some whole with ⟨finite, equal, rfl⟩
  have text : factorText value = integerText (wholePart value) := by
    rw [factorText, whole]
  refine ⟨?_, text ▸ read?_integerText finite signed equal⟩
  rw [text, integerText, wholePart_negative found signed equal]
  exact (IsDigits.toDigits _).symbols

theorem readableFactor_of_fraction (found : parts value = .finite false mantissa exponent)
    (signed : value ≠ signedZero true) (fraction : Scalar.toInt? value = none)
    (ordinary : ¬ IsTiny value) : ReadableFactor value := by
  have text : factorText value = shortestText value := by
    rw [factorText, fraction]
    rfl
  have notWhole : wholeText? value = none := by
    rw [wholeText?, fraction]
    rfl
  have some := mantissa_pos_of_not_whole found signed notWhole
  refine ⟨?_, text ▸ read?_shortestText value⟩
  rw [text]
  exact symbols_shortestText found some fraction ordinary

/-- A number that was read from a symbol and is not tiny is a factor that can be read again. -/
theorem readableFactor_of_read {text : List Char} (isSymbol : IsSymbol text)
    (reads : Number.read? text = some value) (ordinary : ¬ IsTiny value) :
    ReadableFactor value := by
  rw [isSymbol.read?] at reads
  have unsigned := isUnsigned_of_readUnsigned? reads
  cases finite : isFinite value with
  | false =>
      rcases not_finite_cases finite with rfl | rfl | rfl
      · exact ⟨by decide, by decide⟩
      · exact ⟨by decide, by decide⟩
      · exact absurd rfl (@IsUnsigned.not_negative _ 0 0 unsigned).2
  | true =>
      rcases parts_of_isFinite finite with ⟨negative, mantissa, exponent, found⟩
      have signed : value ≠ signedZero true := by
        rintro rfl
        exact isUnsigned_special.2.2.2 unsigned
      cases negative with
      | true => exact absurd found unsigned.not_negative.1
      | false =>
          cases whole : Scalar.toInt? value with
          | some number => exact readableFactor_of_whole found signed whole
          | none => exact readableFactor_of_fraction found signed whole ordinary

end

/-! ## Declarations -/

namespace RelationDeclaration

/-- The factor of the declaration, if it has one, is tiny. -/
def HasTinyFactor (declaration : RelationDeclaration Float) : Prop :=
  ∃ factor, declaration.operand.factor? = some factor ∧ IsTiny factor

variable {declaration : RelationDeclaration Float} {places : Nat} {line : String}

/-- A sign in the place of the second symbol spoils the line. -/
theorem relationParts?_eq_none {subject front : List Char} (op : UnitOperator)
    (isSubject : IsSymbol subject) (isFront : IsSymbol front) (behind : List Char) :
    relationParts? (subject ++ (op.symbol.toList ++ (front ++ '-' :: behind))) = none := by
  rw [relationParts?_behind isSubject, isFront.symbolAt? (ends_of_sign '-' behind (by decide))]
  rfl

/-- A declaration with a tiny factor is refused. -/
theorem parse_text_of_tiny (subject : IsSymbol declaration.subject.toList)
    (result : IsSymbol declaration.result.toList) (tiny : declaration.HasTinyFactor) :
    parse (R := Float) places declaration.text =
      .error (.invalidDescriptor declaration.text) := by
  rcases declaration with ⟨first, op, _ | factor, last⟩
  · rcases tiny with ⟨_, none, _⟩
    cases none
  rcases tiny with ⟨_, same, tiny⟩
  cases same
  rcases tiny.exists_factorText with ⟨front, behind, isFront, digits, shown⟩
  have operandText : (RelationOperand.factor factor).text.toList = front ++ '-' :: behind := by
    rw [RelationOperand.text, String.toList_ofList, shown]
  have unblank : forall c, c ∈ (RelationOperand.factor factor).text.toList ->
      Text.isBlank c = false := by
    intro c member
    rw [operandText] at member
    rcases List.mem_append.mp member with here | member
    · exact isBlank_of_isSymbolCharacter (List.all_eq_true.mp isFront.characters c here)
    rcases List.mem_cons.mp member with rfl | here
    · decide
    · exact isBlank_of_isSymbolCharacter (List.all_eq_true.mp digits.symbols c here)
  have trims := (isWord_text subject unblank result).isPhrase.trimmed
  have noParts : relationParts? (text ⟨first, op, .factor factor, last⟩).toList = none := by
    rw [toList_text, operandText, List.append_assoc, List.cons_append]
    exact relationParts?_eq_none op subject isFront _
  have refused : relationSides (R := Float) (text ⟨first, op, .factor factor, last⟩) =
      .error (.invalidDescriptor (text ⟨first, op, .factor factor, last⟩)) := by
    rw [relationSides, noParts, trims]
  rw [parse, refused]
  rfl

/-- A declaration that was read from a line is read from its own text again, with the same factor,
unless the factor is tiny.  A tiny factor is written with the sign of an exponent, and the
declaration is refused. -/
theorem parse_text (parsed : parse places line = .ok declaration) :
    (¬ declaration.HasTinyFactor -> parse places declaration.text = .ok declaration) ∧
      (declaration.HasTinyFactor -> parse (R := Float) places declaration.text =
        .error (.invalidDescriptor declaration.text)) := by
  rcases parts_of_parse parsed with ⟨subject, operand, result⟩
  refine ⟨fun ordinary => ?_, parse_text_of_tiny subject.isSymbol result.isSymbol⟩
  have readable := readable_of_parse parsed fun value same => by
    rw [same] at operand
    cases operand with
    | factor isSymbol reads =>
        exact readableFactor_of_read isSymbol reads fun tiny =>
          ordinary ⟨value, congrArg RelationOperand.factor? same, tiny⟩
  rw [parse, relationSides_text readable]
  exact ofSides_sides places declaration

/-- An inch has 2.54 centimeters. -/
def inch : RelationDeclaration Float :=
  ⟨"in", .times, .factor (Scalar.ofDecimal 254 (-2)), "cm"⟩

/-- A factor of a hundred-thousandth. -/
def sliver : RelationDeclaration Float :=
  ⟨"A", .times, .factor (Scalar.ofDecimal 1 (-5)), "C"⟩

/-- The factor of an inch is read again, a hundred-thousandth is not. -/
theorem parse_text_inch :
    parse 15 "in*2.54=cm" = .ok inch ∧ parse 15 inch.text = .ok inch ∧
      parse 15 "A*0.00001=C" = .ok sliver ∧
      parse (R := Float) 15 sliver.text = .error (.invalidDescriptor sliver.text) := by
  have inchParsed : parse 15 "in*2.54=cm" = .ok inch := by decide +kernel
  have sliverParsed : parse 15 "A*0.00001=C" = .ok sliver := by decide +kernel
  have inchFactor : parts (Scalar.ofDecimal 254 (-2)) =
      .finite false 5719571526760530 (-51) := by decide
  have sliverFactor : parts (Scalar.ofDecimal 1 (-5)) =
      .finite false 5902958103587057 (-69) := by decide
  refine ⟨inchParsed, (parse_text inchParsed).1 ?_, sliverParsed, (parse_text sliverParsed).2 ?_⟩
  · rintro ⟨factor, same, tiny⟩
    cases same
    rw [IsTiny, exactValue_of_parts inchFactor] at tiny
    norm_num at tiny
  · refine ⟨_, rfl, ?_⟩
    rw [IsTiny, exactValue_of_parts sliverFactor]
    norm_num

/-- A hundred-thousandth is written with an exponent, and the declaration is refused. -/
theorem tiny_factor_refused :
    parse 15 "A*0.00001=C" = .ok sliver ∧ sliver.text = "A*1e-05=C" ∧
      parse (R := Float) 15 sliver.text = .error (.invalidDescriptor "A*1e-05=C") := by
  decide +kernel

end RelationDeclaration

end QuantityCalculus
