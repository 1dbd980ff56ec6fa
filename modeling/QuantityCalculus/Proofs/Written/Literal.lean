import QuantityCalculus.Number.Shown
import QuantityCalculus.Proofs.Arithmetic.Binary
import QuantityCalculus.Proofs.Written.Spelling

namespace QuantityCalculus

open Source

/-!
# Literals that read back

A literal is written as a magnitude, behind a sign if the number is negative.  The
magnitude consists of digits, a point and an exponent, so a lexer takes it for one
number, and a reader of whole texts reads exactly this number.  If the latter gives
back the literal, then so does the former.

The claim for negative zero would be wrong: it is written without its sign.
-/

/-- What the text of a literal stands for is the literal itself. -/
structure ReadsBack (places : Nat) (value : Float) : Prop where
  finite : Number.isFinite value = true
  signed : value ≠ Number.signedZero true
  same : Number.read? (Number.literalText places value) = some value

/-! ## Magnitudes -/

/-- A text of digits, points and exponents that does not start with a sign. -/
structure IsMagnitude (text : List Char) : Prop where
  numerals : text.all isNumeral = true
  unsigned : forall c, c ∈ text.head? -> Number.isSign c = false

/-- A digit or a point. -/
def isDecimal (c : Char) : Bool :=
  isNumeral c && !Number.isSign c

theorem isMagnitude_of_decimal {text : List Char} (decimal : text.all isDecimal = true) :
    IsMagnitude text where
  numerals := List.all_eq_true.mpr fun c member =>
    (Bool.and_eq_true_iff.mp (List.all_eq_true.mp decimal c member)).1
  unsigned := by
    intro c first
    have this := List.all_eq_true.mp decimal c (List.mem_of_head? first)
    simpa using (Bool.and_eq_true_iff.mp this).2

theorem exists_ascii_of_isDigit {c : Char} (digit : c.isDigit = true) :
    ∃ code : Fin 128, Char.ofNat code = c :=
  Text.exists_ascii <| Text.ascii_of_isNameCharacter <| by
    simp [Text.isNameCharacter, Char.isAlphanum, digit]

theorem isDecimal_of_isDigit {c : Char} (digit : c.isDigit = true) : isDecimal c = true := by
  rcases exists_ascii_of_isDigit digit with ⟨code, rfl⟩
  revert code
  decide +kernel

theorem decimal_toDigits (number : Nat) : (Nat.toDigits 10 number).all isDecimal = true :=
  List.all_eq_true.mpr fun _ member =>
    isDecimal_of_isDigit (Nat.isDigit_of_mem_toDigits (by decide) (by decide) member)

theorem decimal_append {text more : List Char} (first : text.all isDecimal = true)
    (second : more.all isDecimal = true) : (text ++ more).all isDecimal = true := by
  rw [List.all_append, first, second]
  rfl

theorem decimal_of_subset {text more : List Char} (decimal : more.all isDecimal = true)
    (subset : text ⊆ more) : text.all isDecimal = true :=
  List.all_eq_true.mpr fun c member => List.all_eq_true.mp decimal c (subset member)

theorem decimal_zeros (count : Nat) : (List.replicate count '0').all isDecimal = true := by
  rw [List.all_replicate]
  split <;> rfl

/-! ## Trailing characters -/

theorem dropTrailing_subset (c : Char) (text : List Char) : Number.dropTrailing c text ⊆ text := by
  intro d member
  rw [Number.dropTrailing, List.mem_reverse] at member
  exact List.mem_reverse.mp ((List.dropWhile_suffix _).subset member)

/-- The sign in front is no trailing character. -/
theorem dropTrailing_withSign {c : Char} (noSign : c ≠ '-') (negative : Bool) (text : List Char) :
    Number.dropTrailing c (Number.withSign negative text) =
      Number.withSign negative (Number.dropTrailing c text) := by
  cases negative
  · rfl
  · have kept : (['-'] : List Char).dropWhile (· == c) = ['-'] := by
      simp [List.dropWhile, beq_eq_false_iff_ne.mpr noSign.symm]
    simp only [Number.withSign, Number.dropTrailing, if_true, List.reverse_cons,
      List.dropWhile_append]
    split
    · rename_i empty
      rw [kept, List.isEmpty_iff.mp empty]
      rfl
    · simp

/-! ## The texts of numbers -/

theorem decimal_placedText (places units : Nat) :
    (Number.placedText places units).all isDecimal = true := by
  have padded : (List.replicate (places + 1 - (Nat.toDigits 10 units).length) '0' ++
      Nat.toDigits 10 units).all isDecimal = true :=
    decimal_append (decimal_zeros _) (decimal_toDigits units)
  unfold Number.placedText
  dsimp only
  split
  · exact padded
  · refine decimal_append (decimal_of_subset padded (List.take_subset _ _)) ?_
    rw [List.all_cons, decimal_of_subset padded (List.drop_subset _ _)]
    rfl

theorem decimal_positionalText {decimal : Number.Decimal}
    (digits : decimal.digits.all isDecimal = true) :
    (Number.positionalText decimal).all isDecimal = true := by
  unfold Number.positionalText
  split
  · have front : ('0' :: '.' :: List.replicate decimal.point.natAbs '0').all isDecimal = true := by
      rw [List.all_cons, List.all_cons, decimal_zeros]
      rfl
    exact decimal_append front digits
  · have padded := decimal_append digits
      (decimal_zeros (decimal.point.toNat - decimal.digits.length))
    dsimp only
    refine decimal_append (decimal_of_subset padded (List.take_subset _ _)) ?_
    rw [List.all_cons]
    split
    · rfl
    · rw [decimal_of_subset padded (List.drop_subset _ _)]
      rfl

theorem numerals_of_decimal {text : List Char} (decimal : text.all isDecimal = true) :
    text.all isNumeral = true :=
  (isMagnitude_of_decimal decimal).numerals

theorem numerals_exponentText (width : Nat) (exponent : Int) :
    (Number.exponentText width exponent).all isNumeral = true := by
  have digits := numerals_of_decimal (decimal_append
    (decimal_zeros (width - (Nat.toDigits 10 exponent.natAbs).length))
    (decimal_toDigits exponent.natAbs))
  unfold Number.exponentText
  dsimp only
  rw [List.cons_append, List.all_cons, digits, Bool.and_true]
  split <;> rfl

theorem isMagnitude_scientificText (width : Nat) {decimal : Number.Decimal}
    (digits : decimal.digits.all isDecimal = true) :
    IsMagnitude (Number.scientificText width decimal) := by
  -- Whatever the mantissa, it has a first digit, which keeps the sign of the exponent off.
  have mantissa : ∃ c rest, Number.scientificText width decimal =
      c :: rest ++ 'e' :: Number.exponentText width (decimal.point - 1) ∧
        (c :: rest).all isDecimal = true := by
    unfold Number.scientificText
    cases written : decimal.digits with
    | nil => exact ⟨'0', [], rfl, rfl⟩
    | cons digit more =>
        rw [written] at digits
        cases more with
        | nil => exact ⟨digit, [], rfl, digits⟩
        | cons next more =>
            refine ⟨digit, '.' :: next :: more, rfl, ?_⟩
            rw [List.all_cons] at digits ⊢
            rw [List.all_cons, show isDecimal '.' = true from rfl, Bool.true_and]
            exact digits
  rcases mantissa with ⟨c, rest, same, decimal⟩
  rw [same]
  constructor
  · rw [List.all_append, numerals_of_decimal decimal, List.all_cons, numerals_exponentText]
    rfl
  · intro d first
    exact (isMagnitude_of_decimal decimal).unsigned d first

theorem decimal_shortestDecimal (mantissa : Nat) (exponent : Int) :
    (Number.shortestDecimal mantissa exponent).digits.all isDecimal = true :=
  decimal_of_subset (decimal_toDigits _) (dropTrailing_subset '0' _)

/-- Digits are laid out as a magnitude. -/
theorem isMagnitude_layout {decimal : Number.Decimal}
    (digits : decimal.digits.all isDecimal = true) (layout : Number.DecimalLayout) :
    IsMagnitude (layout.text decimal) := by
  unfold Number.DecimalLayout.text
  dsimp only
  split
  · exact isMagnitude_of_decimal (decimal_positionalText digits)
  · exact isMagnitude_scientificText _ digits

/-- The shortest text of a finite number is a magnitude behind its sign. -/
theorem shortestText_shape {value : Float} {negative : Bool} {mantissa : Nat} {exponent : Int}
    (finite : Number.parts value = .finite negative mantissa exponent) :
    ∃ magnitude, Number.shortestText value = Number.withSign negative magnitude ∧
      IsMagnitude magnitude := by
  unfold Number.shortestText
  rw [finite]
  refine ⟨_, rfl, ?_⟩
  split
  · exact isMagnitude_of_decimal rfl
  · exact isMagnitude_layout (decimal_shortestDecimal _ _) _

/-- A finite number that is not negative zero is negative exactly when it has a sign. -/
theorem isNegativeLiteral_of_finite {value : Float} {negative : Bool} {mantissa : Nat}
    {exponent : Int} (finite : Number.parts value = .finite negative mantissa exponent)
    (signed : value ≠ Number.signedZero true) : isNegativeLiteral value = negative := by
  have least := Number.zero_le_iff finite
  unfold isNegativeLiteral
  cases negative
  · rw [least.mpr (Or.inl rfl)]
    rfl
  · rw [Bool.not_eq_true']
    refine Bool.eq_false_iff.mpr ?_
    intro nonnegative
    rcases least.mp nonnegative with impossible | none
    · cases impossible
    · subst none
      exact signed (Number.negative_zero_of_parts finite)

/-- A whole number is negative exactly when it has a sign. -/
theorem wholePart_negative {value : Float} {negative : Bool} {mantissa : Nat} {exponent : Int}
    (finite : Number.parts value = .finite negative mantissa exponent)
    (signed : value ≠ Number.signedZero true)
    (whole : Scalar.eq value (Scalar.ofInt (Number.wholePart value)) = true) :
    decide (Number.wholePart value < 0) = negative := by
  have part : ∃ magnitude : Nat, Number.wholePart value =
      if negative then -(magnitude : Int) else magnitude := by
    unfold Number.wholePart
    rw [finite]
    exact ⟨_, rfl⟩
  rcases part with ⟨magnitude, part⟩
  cases negative
  · rw [part]
    simp
  · rw [part] at whole ⊢
    cases magnitude with
    | zero =>
        have none := Number.mantissa_of_eq_zero finite whole
        subst none
        exact absurd (Number.negative_zero_of_parts finite) signed
    | succ magnitude =>
        rw [if_pos rfl, decide_eq_true_iff]
        omega

/-- The text of a whole number is a magnitude behind its sign. -/
theorem wholeText?_shape {value : Float} {negative : Bool} {mantissa : Nat} {exponent : Int}
    (finite : Number.parts value = .finite negative mantissa exponent)
    (signed : value ≠ Number.signedZero true) {text : List Char}
    (whole : Number.wholeText? value = some text) :
    ∃ magnitude, text = Number.withSign negative magnitude ∧ IsMagnitude magnitude := by
  have isFinite : Scalar.isFinite value = true := by
    change Number.isFinite value = true
    rw [Number.isFinite, finite]
  unfold Number.wholeText? Scalar.toInt? at whole
  rw [isFinite, Bool.true_and] at whole
  split at whole
  · rename_i equal
    simp only [Option.bind_some] at whole
    split at whole
    · cases whole
      refine ⟨Nat.toDigits 10 (Scalar.truncate value).natAbs, ?_,
        isMagnitude_of_decimal (decimal_toDigits _)⟩
      rw [← wholePart_negative finite signed equal]
      rfl
    · cases whole
  · cases whole

/-- The text of a finite number with fixed places is a magnitude behind its sign. -/
theorem fixed_shape (places : Nat) {value : Float} {negative : Bool} {mantissa : Nat}
    {exponent : Int} (finite : Number.parts value = .finite negative mantissa exponent) :
    ∃ units, Scalar.fixed places value =
      Number.withSign negative (Number.placedText places units) := by
  change ∃ units, Number.fixedText places value = _
  unfold Number.fixedText
  rw [finite]
  exact ⟨_, rfl⟩

/-- A finite literal other than negative zero is written as a magnitude, behind a sign exactly
when it is negative. -/
theorem literalText_shape (places : Nat) {value : Float} (finite : Number.isFinite value = true)
    (signed : value ≠ Number.signedZero true) :
    ∃ magnitude, Number.literalText places value =
        Number.withSign (isNegativeLiteral value) magnitude ∧ IsMagnitude magnitude := by
  rcases Number.parts_of_isFinite finite with ⟨negative, mantissa, exponent, found⟩
  rw [isNegativeLiteral_of_finite found signed]
  have isFinite : Scalar.isFinite value = true := finite
  unfold Number.literalText
  rw [isFinite]
  simp only [Bool.not_true, Bool.false_eq_true, if_false]
  split
  · rename_i text whole
    exact wholeText?_shape found signed whole
  · split
    · exact shortestText_shape found
    · rcases fixed_shape (min places Number.mostPlaces) found with ⟨units, fixed⟩
      rw [fixed, dropTrailing_withSign (by decide), dropTrailing_withSign (by decide)]
      refine ⟨_, rfl, isMagnitude_of_decimal ?_⟩
      refine decimal_of_subset (decimal_placedText (min places Number.mostPlaces) units) ?_
      exact List.Subset.trans (dropTrailing_subset _ _) (dropTrailing_subset _ _)

/-! ## Reading the text of a literal -/

theorem joinDigitGroups?_eq_self {text : List Char} (none : '_' ∉ text) (digitBefore : Bool) :
    Number.joinDigitGroups? digitBefore text = some text := by
  induction text generalizing digitBefore with
  | nil => rfl
  | cons c text inductionHypothesis =>
      rw [List.mem_cons, not_or] at none
      rw [Number.joinDigitGroups?]
      · rw [inductionHypothesis none.2]
        rfl
      · intro same
        exact none.1 same.symm

/-- A text of digits, points and exponents is read if it is a spelling. -/
theorem readUnsigned?_numerals {text : List Char} (numerals : text.all isNumeral = true) :
    (Number.readUnsigned? text : Option Float) =
      if !text.isEmpty && Number.spellingLength text == text.length then
        some (Number.readSpelling text)
      else none := by
  have numeral : forall c, c ∈ text -> isNumeral c = true := List.all_eq_true.mp numerals
  have same : Number.asciiLower text = text := by
    have each : (numeralSigns.all fun c => decide (c.toLower = c)) = true := by decide
    refine (List.map_congr_left fun c member => ?_).trans (List.map_id _)
    exact of_decide_eq_true
      (List.all_eq_true.mp each c (List.contains_iff_mem.mp (numeral c member)))
  have noName : forall letter rest, isNumeral letter = false -> text ≠ letter :: rest := by
    rintro letter rest noNumeral rfl
    rw [numeral letter List.mem_cons_self] at noNumeral
    cases noNumeral
  have finite : Number.infinityNames.contains text = false := by
    refine Bool.eq_false_iff.mpr ?_
    intro named
    rcases List.mem_cons.mp (List.contains_iff_mem.mp named) with short | long
    · exact noName _ _ rfl short
    · exact noName _ _ rfl (List.mem_singleton.mp long)
  have defined : ¬ text = Number.undefinedName := noName _ _ rfl
  have noUnderscore : '_' ∉ text := by
    intro member
    cases numeral '_' member
  unfold Number.readUnsigned?
  rw [same, finite, joinDigitGroups?_eq_self noUnderscore]
  simp only [Bool.false_eq_true, if_false, if_neg defined, Option.bind_some]

/-- A magnitude that is read is a spelling of its number. -/
theorem IsMagnitude.readUnsigned {magnitude : List Char} (isMagnitude : IsMagnitude magnitude)
    {value : Float} (reads : Number.readUnsigned? magnitude = some value) :
    IsSpelling magnitude ∧ Number.readSpelling magnitude = value := by
  rw [readUnsigned?_numerals isMagnitude.numerals] at reads
  split at reads
  · rename_i complete
    rcases Bool.and_eq_true_iff.mp complete with ⟨written, whole⟩
    refine ⟨⟨?_, eq_of_beq whole, isMagnitude.numerals⟩, Option.some.inj reads⟩
    rintro rfl
    cases written
  · cases reads

/-- A magnitude is read by itself, and a sign in front of it turns it round. -/
theorem read?_withSign (negative : Bool) {magnitude : List Char}
    (isMagnitude : IsMagnitude magnitude) :
    (Number.read? (Number.withSign negative magnitude) : Option Float) =
      if negative then (Number.readUnsigned? magnitude).map Scalar.neg
      else Number.readUnsigned? magnitude := by
  have visible : forall c, isNumeral c = true -> Text.isBlank c = false := fun c numeral =>
    (isPlain_iff.mp (isPlain_of_isNumeral numeral)).2.1
  have numerals : forall c, c ∈ Number.withSign negative magnitude -> isNumeral c = true := by
    intro c member
    cases negative
    · exact List.all_eq_true.mp isMagnitude.numerals c member
    · rcases List.mem_cons.mp member with rfl | inside
      · rfl
      · exact List.all_eq_true.mp isMagnitude.numerals c inside
  rw [Number.read?, trim_eq_self (fun c first => visible c (numerals c (List.mem_of_head? first)))
    (fun c last => visible c (numerals c (List.mem_of_getLast? last)))]
  cases negative
  · simp only [Number.withSign, Bool.false_eq_true, if_false]
    split
    · cases isMagnitude.unsigned '-' rfl
    · cases isMagnitude.unsigned '+' rfl
    · rfl
  · rfl

/-- What reads back as a whole text reads back as a part of a longer one. -/
theorem ReadsBack.literalReads {places : Nat} {value : Float} (readsBack : ReadsBack places value) :
    LiteralReads places value := by
  rcases literalText_shape places readsBack.finite readsBack.signed with
    ⟨magnitude, written, isMagnitude⟩
  have reads := readsBack.same
  rw [written, read?_withSign _ isMagnitude] at reads
  cases negative : isNegativeLiteral value
  · rw [negative] at reads written
    rcases isMagnitude.readUnsigned reads with ⟨isSpelling, same⟩
    exact .unsigned magnitude written isSpelling same negative
  · rw [negative] at reads written
    rcases Option.map_eq_some_iff.mp reads with ⟨opposite, unsigned, same⟩
    rcases isMagnitude.readUnsigned unsigned with ⟨isSpelling, read⟩
    exact .signed magnitude written isSpelling (by rw [read, same]) negative

/-- A literal as a lexer reads it is not negative. -/
theorem isNegativeLiteral_readSpelling {places : Nat} (spelling : List Char)
    (readsBack : ReadsBack places (Number.readSpelling spelling)) :
    isNegativeLiteral (Number.readSpelling spelling : Float) = false := by
  rcases Number.parts_of_isFinite readsBack.finite with ⟨negative, mantissa, exponent, found⟩
  rw [isNegativeLiteral_of_finite found readsBack.signed]
  cases negative
  · rfl
  · exact absurd found (Number.nearestDecimal_unsigned _ _)

end QuantityCalculus
