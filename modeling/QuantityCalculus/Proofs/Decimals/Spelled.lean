import QuantityCalculus.Proofs.Decimals.Parts
import QuantityCalculus.Proofs.Written.Literal

namespace QuantityCalculus
namespace Number

open Source

/-!
# The numbers that written digits stand for

Digits, a point and an exponent are read as one decimal: the digits without their point, times a
power of ten.  How a text is laid out does not matter then; all layouts of the same digits stand
for the same quotient, and a quotient that is rounded to a number is read as that number.
-/

/-! ## Digits -/

/-- Digits of ASCII only. -/
def IsDigits (text : List Char) : Prop :=
  text.all Char.isDigit = true

/-- A digit of ASCII has its usual value and is neither a point nor the mark of an exponent. -/
theorem digitValue?_of_isDigit {c : Char} (digit : c.isDigit = true) :
    Text.digitValue? c = some (c.toNat - '0'.toNat) ∧ isExponentMark c = false ∧ c ≠ '.' := by
  rcases exists_ascii_of_isDigit digit with ⟨code, rfl⟩
  revert code
  decide +kernel

namespace IsDigits

variable {text more : List Char}

theorem append (first : IsDigits text) (second : IsDigits more) : IsDigits (text ++ more) := by
  rw [IsDigits, List.all_append, first, second]
  rfl

theorem of_append (digits : IsDigits (text ++ more)) : IsDigits text ∧ IsDigits more :=
  Bool.and_eq_true_iff.mp (List.all_append.symm.trans digits)

theorem zeros (count : Nat) : IsDigits (List.replicate count '0') := by
  rw [IsDigits, List.all_replicate]
  split <;> rfl

theorem toDigits (number : Nat) : IsDigits (Nat.toDigits 10 number) :=
  List.all_eq_true.mpr fun _ member =>
    Nat.isDigit_of_mem_toDigits (by decide) (by decide) member

theorem isDigit (digits : IsDigits text) {c : Char} (member : c ∈ text) :
    Text.isDigit c = true := by
  rw [Text.isDigit, (digitValue?_of_isDigit (List.all_eq_true.mp digits c member)).1]
  rfl

theorem unmarked (digits : IsDigits text) {c : Char} (member : c ∈ text) :
    isExponentMark c = false :=
  (digitValue?_of_isDigit (List.all_eq_true.mp digits c member)).2.1

theorem decimal (digits : IsDigits text) : text.all isDecimal = true :=
  List.all_eq_true.mpr fun c member => isDecimal_of_isDigit (List.all_eq_true.mp digits c member)

theorem leadingDigits (digits : IsDigits text) : Number.leadingDigits text = text :=
  List.takeWhile_eq_self_iff.mpr fun _ member => digits.isDigit member

end IsDigits

theorem digitsValue_append (text more : List Char) :
    digitsValue (text ++ more) = digitsValue text * 10 ^ more.length + digitsValue more := by
  have run : forall start, more.foldl
      (fun value c => value * 10 + (Text.digitValue? c).getD 0) start =
        start * 10 ^ more.length + digitsValue more := by
    induction more with
    | nil => intro start; simp [digitsValue]
    | cons c more inductionHypothesis =>
        intro start
        rw [digitsValue, List.foldl_cons, List.foldl_cons, inductionHypothesis,
          inductionHypothesis, List.length_cons, pow_succ]
        ring
  rw [digitsValue, List.foldl_append]
  exact run _

theorem digitsValue_zeros (count : Nat) : digitsValue (List.replicate count '0') = 0 := by
  induction count with
  | zero => rfl
  | succ count inductionHypothesis =>
      rw [List.replicate_succ', digitsValue_append, inductionHypothesis]
      rfl

theorem digitsValue_toDigits (number : Nat) : digitsValue (Nat.toDigits 10 number) = number := by
  have same : digitsValue (Nat.toDigits 10 number) =
      Nat.ofDigitChars 10 (Nat.toDigits 10 number) 0 := by
    refine List.foldl_ext _ _ 0 fun value c member => ?_
    rw [(digitValue?_of_isDigit (List.all_eq_true.mp (IsDigits.toDigits number) c member)).1,
      Option.getD_some, Nat.mul_comm]
  rw [same, Nat.ofDigitChars_toDigits (by decide) (by decide)]

/-- Whatever the characters are worth, there are no more digits than characters. -/
theorem digitsValue_lt (text : List Char) : digitsValue text < 10 ^ text.length := by
  induction text using List.reverseRecOn with
  | nil => decide
  | append_singleton text c inductionHypothesis =>
      have last : digitsValue [c] < 10 := by
        rw [digitsValue, List.foldl_cons, List.foldl_nil, Nat.zero_mul, Nat.zero_add]
        cases worth : Text.digitValue? c with
        | none => decide
        | some value => exact Text.digitValue?_lt worth
      rw [digitsValue_append, List.length_append, List.length_singleton, pow_one, pow_succ]
      omega

/-! ## Digits with a point and an exponent -/

/-- Digits with a point, which is left out when there are no digits behind it. -/
def pointed (before after : List Char) : List Char :=
  before ++ if after.isEmpty then [] else '.' :: after

/-- The exponent behind its mark; there is no mark without an exponent. -/
def marked (exponent : List Char) : List Char :=
  if exponent.isEmpty then [] else 'e' :: exponent

/-- No exponent, or a sign and digits. -/
inductive IsExponent : List Char -> Prop
  | none : IsExponent []
  | signed {sign : Char} {digits : List Char} : isSign sign = true -> digits ≠ [] ->
      IsDigits digits -> IsExponent (sign :: digits)

section

variable {before after exponent : List Char}

theorem pointed_unmarked (digits : IsDigits before) (places : IsDigits after) :
    forall c, c ∈ pointed before after -> (!isExponentMark c) = true := by
  intro c member
  rw [pointed, List.mem_append] at member
  rw [Bool.not_eq_true']
  rcases member with inside | behind
  · exact digits.unmarked inside
  · split at behind
    · cases behind
    · rcases List.mem_cons.mp behind with rfl | inside
      · rfl
      · exact places.unmarked inside

theorem leadingDigits_pointed (digits : IsDigits before) (rest : List Char)
    (ends : rest.head?.all (fun c => !Text.isDigit c) = true) :
    leadingDigits (pointed before after ++ rest) = before := by
  rw [pointed, List.append_assoc, leadingDigits_append, digits.leadingDigits]
  split
  · exact ends
  · rfl

theorem marked_ends (exponent : List Char) :
    (marked exponent).head?.all (fun c => !Text.isDigit c) = true ∧
      (marked exponent).head?.all (fun c => !!isExponentMark c) = true := by
  unfold marked
  split <;> exact ⟨rfl, rfl⟩

/-- The value of digits with a point and an exponent. -/
theorem readSpelling_pointed (digits : IsDigits before) (places : IsDigits after)
    (exponent : List Char) :
    (readSpelling (pointed before after ++ marked exponent) : Float) =
      nearestDecimal (digitsValue (before ++ after)) (signedValue exponent - after.length) := by
  have mantissa := (takeWhile_run (List.all_eq_true.mpr (pointed_unmarked digits places))
    (marked_ends exponent).2).1
  have leading := @leadingDigits_pointed before after digits [] rfl
  rw [List.append_nil] at leading
  have behind : ((pointed before after).drop before.length).drop 1 = after := by
    rw [pointed, List.drop_left]
    split
    · rename_i empty
      rw [List.isEmpty_iff.mp empty]
      rfl
    · rfl
  have shift : (marked exponent).drop 1 = exponent := by
    unfold marked
    split
    · rename_i empty
      rw [List.isEmpty_iff.mp empty]
      rfl
    · rfl
  unfold readSpelling
  dsimp only
  rw [mantissa, leading, behind, List.drop_left, shift]
  rfl

theorem mantissaLength_pointed (written : before ≠ []) (digits : IsDigits before)
    (places : IsDigits after) (exponent : List Char) :
    mantissaLength (pointed before after ++ marked exponent) = (pointed before after).length := by
  have some : before.isEmpty = false := List.isEmpty_eq_false_iff.mpr written
  unfold mantissaLength
  dsimp only
  rw [leadingDigits_pointed digits _ (marked_ends exponent).1]
  rw [pointed, List.append_assoc, List.drop_left]
  by_cases whole : after.isEmpty
  · rw [if_pos whole, List.nil_append, List.append_nil]
    cases exponent <;> rfl
  · rw [if_neg whole, List.cons_append]
    simp only [leadingDigits_append (marked_ends exponent).1, places.leadingDigits, some,
      Bool.false_and, Bool.false_eq_true, if_false, List.length_append, List.length_cons]
    omega

theorem exponentLength_marked (isExponent : IsExponent exponent) :
    exponentLength (marked exponent) = (marked exponent).length := by
  cases isExponent with
  | none => rfl
  | @signed sign shown isSigned written digits =>
      have one : ([sign].countP isSign) = 1 := by simp [isSigned]
      have some : shown.isEmpty = false := List.isEmpty_eq_false_iff.mpr written
      change exponentLength ('e' :: sign :: shown) = ('e' :: sign :: shown).length
      rw [exponentLength_cons, one, List.drop_one, List.tail_cons, digits.leadingDigits,
        exponentSize, some, List.length_cons, List.length_cons]
      change 1 + 1 + shown.length = _
      omega

/-- Digits with a point and an exponent are a spelling. -/
theorem isSpelling_pointed (written : before ≠ []) (digits : IsDigits before)
    (places : IsDigits after) (isExponent : IsExponent exponent) :
    IsSpelling (pointed before after ++ marked exponent) := by
  have some : pointed before after ≠ [] := fun empty =>
    written (List.append_eq_nil_iff.mp empty).1
  refine ⟨fun empty => some (List.append_eq_nil_iff.mp empty).1, ?_, ?_⟩
  · unfold spellingLength
    rw [mantissaLength_pointed written digits places]
    cases length : (pointed before after).length with
    | zero => exact absurd (List.length_eq_zero_iff.mp length) some
    | succ count =>
        dsimp only
        rw [← length, List.drop_left, exponentLength_marked isExponent, List.length_append]
  · have front : (pointed before after).all isNumeral = true := by
      rw [pointed, List.all_append, numerals_of_decimal digits.decimal, Bool.true_and]
      split
      · rfl
      · rw [List.all_cons, numerals_of_decimal places.decimal]
        rfl
    rw [List.all_append, front, Bool.true_and]
    cases isExponent with
    | none => rfl
    | @signed sign shown isSigned _ digits =>
        have either : sign = '+' ∨ sign = '-' := by simpa [isSign] using isSigned
        change ('e' :: sign :: shown).all isNumeral = true
        rw [List.all_cons, List.all_cons, numerals_of_decimal digits.decimal]
        rcases either with rfl | rfl <;> rfl

end

/-! ## Texts that stand for a quotient -/

/-- The text is read as a decimal with this value. -/
def StandsFor (text : List Char) (quotient : ℚ) : Prop :=
  ∃ (digits : Nat) (places : Int), digits.log2 < 1400 ∧ (digits : ℚ) * 10 ^ places = quotient ∧
    (readUnsigned? text : Option Float) = some (nearestDecimal digits places)

theorem log2_lt_of_length {text : List Char} (short : text.length ≤ 350) :
    (digitsValue text).log2 < 1400 := by
  by_cases zero : digitsValue text = 0
  · rw [zero]
    decide
  · refine (Nat.log2_lt zero).mpr ((digitsValue_lt text).trans_le ?_)
    calc 10 ^ text.length ≤ (2 ^ 4) ^ text.length := Nat.pow_le_pow_left (by decide) _
      _ = 2 ^ (4 * text.length) := (pow_mul 2 4 _).symm
      _ ≤ 2 ^ 1400 := Nat.pow_le_pow_right two_pos (by omega)

/-- What stands for a quotient that is rounded to a number is read as that number. -/
theorem StandsFor.reads {text : List Char} {quotient : ℚ} (standsFor : StandsFor text quotient)
    {mantissa : Nat} {exponent : Int} (format : IsFormat mantissa exponent) (some : 0 < mantissa)
    (rounds : RoundsTo quotient mantissa exponent) :
    ∃ value : Float, readUnsigned? text = Option.some value ∧
      parts value = .finite false mantissa exponent := by
  rcases standsFor with ⟨digits, places, short, rfl, read⟩
  exact ⟨_, read, parts_nearestDecimal format some short rounds⟩

section

variable {before after exponent : List Char}

theorem standsFor_pointed (written : before ≠ []) (digits : IsDigits before)
    (places : IsDigits after) (isExponent : IsExponent exponent)
    (short : (before ++ after).length ≤ 350) :
    StandsFor (pointed before after ++ marked exponent)
      (digitsValue (before ++ after) * 10 ^ (signedValue exponent - after.length)) := by
  have spelling := isSpelling_pointed written digits places isExponent
  refine ⟨_, _, log2_lt_of_length short, rfl, ?_⟩
  rw [readUnsigned?_numerals spelling.numerals, List.isEmpty_eq_false_iff.mpr spelling.written,
    spelling.whole, beq_self_eq_true, ← readSpelling_pointed digits places]
  rfl

/-- Without an exponent, the digits behind the point are counted in their last place. -/
theorem standsFor_plain (written : before ≠ []) (digits : IsDigits before)
    (places : IsDigits after) (short : (before ++ after).length ≤ 350) :
    StandsFor (pointed before after)
      (digitsValue (before ++ after) * 10 ^ (-(after.length : Int))) := by
  have standsFor := standsFor_pointed written digits places .none short
  rwa [show marked [] = [] from rfl, List.append_nil, show signedValue [] = 0 from rfl,
    zero_sub] at standsFor

end

/-! ## Layouts of digits -/

/-- The value of digits behind a point that is moved. -/
def Decimal.value (decimal : Decimal) : ℚ :=
  digitsValue decimal.digits * 10 ^ (decimal.point - decimal.digits.length)

/-- Zeros behind the digits move them to the left. -/
theorem digitsValue_padded (text : List Char) (count : Nat) :
    digitsValue (text ++ List.replicate count '0') = digitsValue text * 10 ^ count := by
  rw [digitsValue_append, digitsValue_zeros, List.length_replicate, Nat.add_zero]

/-- Zeros in front of the digits change nothing. -/
theorem digitsValue_leading (count : Nat) (text : List Char) :
    digitsValue (List.replicate count '0' ++ text) = digitsValue text := by
  rw [digitsValue_append, digitsValue_zeros, Nat.zero_mul, Nat.zero_add]

section

variable {decimal : Decimal}

theorem positionalText_fraction (written : decimal.digits ≠ []) (fraction : decimal.point ≤ 0) :
    positionalText decimal =
      pointed ['0'] (List.replicate decimal.point.natAbs '0' ++ decimal.digits) := by
  have behind : (List.replicate decimal.point.natAbs '0' ++ decimal.digits).isEmpty = false :=
    List.isEmpty_eq_false_iff.mpr fun empty => written (List.append_eq_nil_iff.mp empty).2
  rw [positionalText, if_pos fraction, pointed, behind, if_neg Bool.false_ne_true]
  rfl

theorem positionalText_whole (some : 0 < decimal.point)
    (whole : decimal.digits.length ≤ decimal.point.toNat) :
    positionalText decimal = pointed (decimal.digits ++
      List.replicate (decimal.point.toNat - decimal.digits.length) '0') ['0'] := by
  have fits : (decimal.digits ++
      List.replicate (decimal.point.toNat - decimal.digits.length) '0').length ≤
        decimal.point.toNat := by
    rw [List.length_append, List.length_replicate]
    omega
  rw [positionalText, if_neg (not_le.mpr some)]
  dsimp only
  rw [List.drop_eq_nil_of_le fits, List.take_of_length_le fits]
  rfl

theorem positionalText_mixed (some : 0 < decimal.point)
    (mixed : decimal.point.toNat < decimal.digits.length) :
    positionalText decimal =
      pointed (decimal.digits.take decimal.point.toNat)
        (decimal.digits.drop decimal.point.toNat) := by
  have behind : (decimal.digits.drop decimal.point.toNat).isEmpty = false :=
    List.isEmpty_eq_false_iff.mpr fun empty => by
      have := List.drop_eq_nil_iff.mp empty
      omega
  rw [positionalText, if_neg (not_le.mpr some)]
  dsimp only
  rw [Nat.sub_eq_zero_of_le mixed.le, List.replicate_zero, List.append_nil, behind, pointed,
    behind]
  rfl

/-- Without an exponent there are digits on both sides of the point. -/
theorem exists_positionalText (written : decimal.digits ≠ []) (digits : IsDigits decimal.digits) :
    ∃ before after, IsDigits before ∧ IsDigits after ∧
      positionalText decimal = pointed before after := by
  have zero : IsDigits ['0'] := rfl
  by_cases fraction : decimal.point ≤ 0
  · exact ⟨_, _, zero, (IsDigits.zeros _).append digits, positionalText_fraction written fraction⟩
  · have some : 0 < decimal.point := not_le.mp fraction
    by_cases whole : decimal.digits.length ≤ decimal.point.toNat
    · exact ⟨_, _, digits.append (IsDigits.zeros _), zero, positionalText_whole some whole⟩
    · have parts : IsDigits (decimal.digits.take decimal.point.toNat) ∧
          IsDigits (decimal.digits.drop decimal.point.toNat) :=
        IsDigits.of_append (by rwa [List.take_append_drop])
      exact ⟨_, _, parts.1, parts.2, positionalText_mixed some (not_le.mp whole)⟩

theorem standsFor_fraction (written : decimal.digits ≠ []) (digits : IsDigits decimal.digits)
    (short : decimal.digits.length ≤ 100) (near : decimal.point.natAbs ≤ 100)
    (fraction : decimal.point ≤ 0) : StandsFor (positionalText decimal) decimal.value := by
  have standsFor := @standsFor_plain ['0']
    (List.replicate decimal.point.natAbs '0' ++ decimal.digits) (List.cons_ne_nil _ _) rfl
    ((IsDigits.zeros _).append digits) (by simp; omega)
  have places : -((List.replicate decimal.point.natAbs '0' ++ decimal.digits).length : Int) =
      decimal.point - decimal.digits.length := by
    rw [List.length_append, List.length_replicate]
    omega
  rw [places, ← List.replicate_one, digitsValue_leading, digitsValue_leading] at standsFor
  rw [positionalText_fraction written fraction]
  exact standsFor

theorem standsFor_whole (written : decimal.digits ≠ []) (digits : IsDigits decimal.digits)
    (near : decimal.point.natAbs ≤ 100) (some : 0 < decimal.point)
    (whole : decimal.digits.length ≤ decimal.point.toNat) :
    StandsFor (positionalText decimal) decimal.value := by
  have standsFor := @standsFor_plain (decimal.digits ++
      List.replicate (decimal.point.toNat - decimal.digits.length) '0') ['0']
    (fun empty => written (List.append_eq_nil_iff.mp empty).1)
    (digits.append (IsDigits.zeros _)) rfl (by simp; omega)
  have places : decimal.point - decimal.digits.length =
      ((decimal.point.toNat - decimal.digits.length : Nat) : Int) := by omega
  have value : decimal.value = (digitsValue (decimal.digits ++
      List.replicate (decimal.point.toNat - decimal.digits.length) '0' ++ ['0']) : ℚ) *
        10 ^ (-(List.length ['0'] : Int)) := by
    rw [← List.replicate_one, digitsValue_padded, digitsValue_padded, Decimal.value, places,
      zpow_natCast, List.length_replicate]
    push_cast
    rw [mul_assoc, mul_assoc]
    norm_num
  rw [positionalText_whole some whole, value]
  exact standsFor

theorem standsFor_mixed (written : decimal.digits ≠ []) (digits : IsDigits decimal.digits)
    (short : decimal.digits.length ≤ 100) (some : 0 < decimal.point)
    (mixed : decimal.point.toNat < decimal.digits.length) :
    StandsFor (positionalText decimal) decimal.value := by
  have parts : IsDigits (decimal.digits.take decimal.point.toNat) ∧
      IsDigits (decimal.digits.drop decimal.point.toNat) :=
    IsDigits.of_append (by rwa [List.take_append_drop])
  have before : decimal.digits.take decimal.point.toNat ≠ [] := by
    intro empty
    rcases List.take_eq_nil_iff.mp empty with none | none
    · omega
    · exact written none
  have standsFor := standsFor_plain before parts.1 parts.2
    (by rw [List.take_append_drop]; omega)
  have places : -((decimal.digits.drop decimal.point.toNat).length : Int) =
      decimal.point - decimal.digits.length := by
    rw [List.length_drop]
    omega
  rw [List.take_append_drop, places] at standsFor
  rw [positionalText_mixed some mixed]
  exact standsFor

/-- Wherever the point is written, the text stands for the value of the digits. -/
theorem standsFor_positional (written : decimal.digits ≠ []) (digits : IsDigits decimal.digits)
    (short : decimal.digits.length ≤ 100) (near : decimal.point.natAbs ≤ 100) :
    StandsFor (positionalText decimal) decimal.value := by
  by_cases fraction : decimal.point ≤ 0
  · exact standsFor_fraction written digits short near fraction
  · have some : 0 < decimal.point := not_le.mp fraction
    by_cases whole : decimal.digits.length ≤ decimal.point.toNat
    · exact standsFor_whole written digits near some whole
    · exact standsFor_mixed written digits short some (not_le.mp whole)

theorem signedValue_exponentText (width : Nat) (exponent : Int) :
    signedValue (exponentText width exponent) = exponent := by
  unfold exponentText
  dsimp only
  rw [List.cons_append]
  split
  · rename_i negative
    change -(digitsValue _ : Int) = exponent
    rw [digitsValue_leading, digitsValue_toDigits]
    omega
  · rename_i notNegative
    change (digitsValue _ : Int) = exponent
    rw [digitsValue_leading, digitsValue_toDigits]
    omega

theorem isExponent_exponentText (width : Nat) (exponent : Int) :
    IsExponent (exponentText width exponent) := by
  unfold exponentText
  dsimp only
  rw [List.cons_append]
  refine .signed ?_ ?_ ((IsDigits.zeros _).append (IsDigits.toDigits _))
  · split <;> rfl
  · exact fun empty => Nat.toDigits_ne_nil (List.append_eq_nil_iff.mp empty).2

/-- Digits with an exponent have one digit before the point. -/
theorem scientificText_cons (width : Nat) {first : Char} {rest : List Char}
    (shown : decimal.digits = first :: rest) :
    scientificText width decimal =
      pointed [first] rest ++ marked (exponentText width (decimal.point - 1)) := by
  rw [scientificText, shown]
  cases rest <;> rfl

theorem standsFor_scientific (width : Nat) (written : decimal.digits ≠ [])
    (digits : IsDigits decimal.digits) (short : decimal.digits.length ≤ 100) :
    StandsFor (scientificText width decimal) decimal.value := by
  cases shown : decimal.digits with
  | nil => exact absurd shown written
  | cons first rest =>
      rw [shown] at digits short
      have split : IsDigits [first] ∧ IsDigits rest := IsDigits.of_append digits
      have standsFor := standsFor_pointed (List.cons_ne_nil first []) split.1 split.2
        (isExponent_exponentText width (decimal.point - 1)) (short.trans (by decide))
      have places : decimal.point - 1 - rest.length =
          decimal.point - (first :: rest).length := by
        rw [List.length_cons]
        omega
      rw [signedValue_exponentText, places] at standsFor
      rw [scientificText_cons width shown, Decimal.value, shown]
      exact standsFor

theorem standsFor_layout (written : decimal.digits ≠ []) (digits : IsDigits decimal.digits)
    (short : decimal.digits.length ≤ 100) :
    StandsFor (numberLayout.text decimal) decimal.value := by
  unfold DecimalLayout.text
  dsimp only
  split
  · rename_i positional
    rcases Bool.and_eq_true_iff.mp positional with ⟨least, greatest⟩
    have above : -4 ≤ decimal.point - 1 := of_decide_eq_true least
    have below : decimal.point - 1 ≤ 15 := of_decide_eq_true greatest
    exact standsFor_positional written digits short (by omega)
  · exact standsFor_scientific _ written digits short

end

end Number
end QuantityCalculus
