import QuantityCalculus.Magnitude
import QuantityCalculus.Proofs.Arithmetic.Binary

namespace QuantityCalculus

/-!
# Numbers and their negatives

A negated number counts the same in every magnitude, up to its sign.  The class lists what
this takes of the numbers; it holds of binary numbers, infinities, zeros and the undefined
number included, because rounding looks at the size alone and a sign is one bit.
-/

/-- Numbers whose size does not depend on their sign. -/
class SignedScalar (R : Type) [Scalar R] : Prop where
  abs_cases : forall value : R, Scalar.abs value = value ∨ Scalar.abs value = Scalar.neg value
  abs_neg : forall value : R, Scalar.abs (Scalar.neg value) = Scalar.abs value
  isFinite_neg : forall value : R, Scalar.isFinite (Scalar.neg value) = Scalar.isFinite value
  eq_zero_neg : forall value : R,
    Scalar.eq (Scalar.neg value) (Scalar.ofInt 0) = Scalar.eq value (Scalar.ofInt 0)
  mul_neg_left : forall value factor : R,
    Scalar.mul (Scalar.neg value) factor = Scalar.neg (Scalar.mul value factor)
  div_neg_left : forall value divisor : R,
    Scalar.div (Scalar.neg value) divisor = Scalar.neg (Scalar.div value divisor)

section

variable {R : Type} [Scalar R] [SignedScalar R]

theorem Magnitude.rebase_neg (value : R) (source target : Magnitude) :
    Magnitude.rebase (Scalar.neg value) source target =
      Scalar.neg (Magnitude.rebase value source target) := by
  unfold Magnitude.rebase
  dsimp only
  split
  · rfl
  · split
    · exact SignedScalar.mul_neg_left _ _
    · exact SignedScalar.div_neg_left _ _

theorem Magnitude.inBracket_neg (value : R) :
    Magnitude.inBracket (Scalar.neg value) = Magnitude.inBracket value := by
  rw [Magnitude.inBracket, Magnitude.inBracket, SignedScalar.abs_neg]

/-- A negated value fits the same magnitude. -/
theorem Magnitude.bestFit_neg (value : R) :
    Magnitude.bestFit (Scalar.neg value) = Magnitude.bestFit value := by
  unfold Magnitude.bestFit
  simp only [SignedScalar.isFinite_neg, SignedScalar.eq_zero_neg, Magnitude.rebase_neg,
    Magnitude.inBracket_neg]

end

namespace Number

open Float.Model UnpackedFloat

/-! ## Signs of unpacked numbers -/

theorem Sign.neg_mul (left right : Sign) : -left * right = -(left * right) := by
  cases left <;> cases right <;> rfl

theorem Sign.neg_div (left right : Sign) : -left / right = -(left / right) := by
  cases left <;> cases right <;> rfl

/-- Rounding passes the sign on. -/
theorem roundWithAccuracy_neg (sign : Sign) (mantissa : Nat) (exponent : Int)
    (accuracy : Accuracy) :
    roundWithAccuracy .binary64 (-sign) mantissa exponent accuracy =
      (roundWithAccuracy .binary64 sign mantissa exponent accuracy).neg := by
  unfold roundWithAccuracy
  dsimp only
  split <;> rfl

theorem mul_neg (left right : UnpackedFloat) :
    UnpackedFloat.mul .binary64 left.neg right = (UnpackedFloat.mul .binary64 left right).neg := by
  cases left <;> cases right <;>
    simp only [UnpackedFloat.mul, UnpackedFloat.neg, Sign.neg_mul, roundWithAccuracy_neg]

theorem div_neg (left right : UnpackedFloat) :
    UnpackedFloat.div .binary64 left.neg right = (UnpackedFloat.div .binary64 left right).neg := by
  cases left <;> cases right <;>
    simp only [UnpackedFloat.div, UnpackedFloat.neg, Sign.neg_div, roundWithAccuracy_neg]

/-! ## Signs of packed numbers -/

variable {sign : Sign} {exponent : BitVec 11} {mantissa : BitVec 52}

/-- The bits of a number from its sign, its exponent and its mantissa. -/
abbrev spelledBits (sign : Sign) (exponent : BitVec 11) (mantissa : BitVec 52) : BitVec 64 :=
  packComponents .binary64 sign exponent mantissa

theorem spelledBits_toNat (sign : Sign) (exponent : BitVec 11) (mantissa : BitVec 52) :
    (spelledBits sign exponent mantissa).toNat =
      sign.toBitVec.toNat * 2 ^ 63 + exponent.toNat * 2 ^ 52 + mantissa.toNat := by
  have upper : (sign.toBitVec ++ exponent).toNat =
      sign.toBitVec.toNat * 2 ^ 11 + exponent.toNat := by
    rw [BitVec.toNat_append, ← Nat.shiftLeft_add_eq_or_of_lt exponent.isLt, Nat.shiftLeft_eq]
  have whole : (spelledBits sign exponent mantissa).toNat =
      (sign.toBitVec ++ exponent).toNat * 2 ^ 52 + mantissa.toNat := by
    unfold spelledBits packComponents
    rw [BitVec.toNat_append, ← Nat.shiftLeft_add_eq_or_of_lt mantissa.isLt, Nat.shiftLeft_eq]
  rw [whole, upper]
  omega

theorem sign_toBitVec_toNat (sign : Sign) : sign.toBitVec.toNat < 2 :=
  sign.toBitVec.isLt

theorem unpackSign_spelledBits :
    Sign.ofBitVec (@unpackSign .binary64 (spelledBits sign exponent mantissa)) = sign := by
  have bits := spelledBits_toNat sign exponent mantissa
  have value := unpackSign_toNat (spelledBits sign exponent mantissa)
  have low := exponent.isLt
  have lower := mantissa.isLt
  have same : @unpackSign .binary64 (spelledBits sign exponent mantissa) = sign.toBitVec := by
    rw [← BitVec.toNat_inj, value, bits]
    omega
  rw [same]
  cases sign <;> rfl

/-- The bits of a number are those of its sign, its exponent and its mantissa. -/
theorem spelledBits_unpacked (bits : BitVec 64) :
    spelledBits (Sign.ofBitVec (@unpackSign .binary64 bits)) (@unpackExponent .binary64 bits)
      (@unpackMantissa .binary64 bits) = bits := by
  have bound := bits.isLt
  have sign : (Sign.ofBitVec (@unpackSign .binary64 bits)).toBitVec.toNat =
      bits.toNat / 2 ^ 63 := by
    rw [← unpackSign_toNat]
    generalize @unpackSign .binary64 bits = bit
    revert bit
    decide
  rw [← BitVec.toNat_inj, spelledBits_toNat, sign, unpackExponent_toNat, unpackMantissa_toNat]
  simp only [Nat.pow_eq]
  omega

theorem unpack_spelledBits_neg :
    UnpackedFloat.unpack .binary64 (spelledBits (-sign) exponent mantissa) =
      (UnpackedFloat.unpack .binary64 (spelledBits sign exponent mantissa)).neg := by
  unfold UnpackedFloat.unpack
  simp only [unpackExponent_packComponents, unpackMantissa_packComponents, unpackSign_spelledBits]
  split
  · split <;> rfl
  · split
    · split <;> rfl
    · rfl

/-- A mantissa below the leading bit is packed under the least exponent. -/
theorem pack_subnormal {positive : 0 < mantissa.toNat} :
    UnpackedFloat.pack .binary64 (.finite sign mantissa.toNat (-1074) positive) =
      spelledBits sign 0 mantissa := by
  have short : ¬ mantissa.toNat.log2 + 1 = Format.binary64.mantissaBits := by
    have below : mantissa.toNat.log2 < 52 :=
      (Nat.log2_lt (Nat.ne_of_gt positive)).mpr mantissa.isLt
    have places : Format.binary64.mantissaBits = 53 := by decide
    omega
  unfold UnpackedFloat.pack
  dsimp only
  rw [if_neg (by decide), if_neg short, BitVec.ofNat_toNat, BitVec.setWidth_eq]
  rfl

/-- A mantissa with its leading bit is packed under its own exponent. -/
theorem pack_normal (notOnes : exponent ≠ -1#11) {positive : 0 < (1#1 ++ mantissa).toNat} :
    UnpackedFloat.pack .binary64
        (.finite sign (1#1 ++ mantissa).toNat ((exponent.toNat : Int) - 1075) positive) =
      spelledBits sign exponent mantissa := by
  have leading := leadingBit_toNat mantissa
  have small := mantissa.isLt
  have bound := exponent.isLt
  have notTop : exponent.toNat ≠ 2047 := fun top => notOnes (BitVec.toNat_inj.mp top)
  have full : (1#1 ++ mantissa).toNat.log2 + 1 = Format.binary64.mantissaBits := by
    have atLeast : 52 ≤ (1#1 ++ mantissa).toNat.log2 :=
      (Nat.le_log2 (Nat.ne_of_gt positive)).mpr (by rw [leading]; exact Nat.le_add_left _ _)
    have below : (1#1 ++ mantissa).toNat.log2 < 53 :=
      (Nat.log2_lt (Nat.ne_of_gt positive)).mpr (by rw [leading]; simp only [Nat.pow_eq]; omega)
    have places : Format.binary64.mantissaBits = 53 := by decide
    omega
  have biased : ((exponent.toNat : Int) - 1075 + (Format.binary64.exponentBias : Nat) +
      (Format.binary64.mantissaBitsWithoutImplicit : Nat)).toNat = exponent.toNat := by
    have bias : Format.binary64.exponentBias = 1023 := by decide
    rw [bias]
    dsimp only
    omega
  have within : ¬ 2 ^ 11 ≤ exponent.toNat + 1 := by omega
  unfold UnpackedFloat.pack
  dsimp only at biased ⊢
  rw [biased, if_neg within, if_pos full, BitVec.ofNat_toNat, BitVec.setWidth_eq]
  congr 1
  rw [← BitVec.toNat_inj, BitVec.toNat_ofNat, leading]
  simp only [Nat.pow_eq]
  omega

/-- Packing what was unpacked restores the bits, of all numbers but the undefined ones. -/
theorem pack_unpack_spelledBits (proper : exponent = -1#11 -> mantissa = 0#52) :
    UnpackedFloat.pack .binary64
        (UnpackedFloat.unpack .binary64 (spelledBits sign exponent mantissa)) =
      spelledBits sign exponent mantissa := by
  have bias : Format.binary64.exponentBias = 1023 := by decide
  unfold UnpackedFloat.unpack
  simp only [unpackExponent_packComponents, unpackMantissa_packComponents, unpackSign_spelledBits]
  split
  · rename_i ones
    rw [if_pos (proper ones), ones, proper ones]
    rfl
  · rename_i notOnes
    split
    · rename_i zeros
      split
      · rename_i none
        rw [zeros, none]
        rfl
      · subst zeros
        exact pack_subnormal
    · exact pack_normal notOnes

/-- What is packed is the undefined number, or it has a sign that negation flips. -/
theorem pack_cases (number : UnpackedFloat) :
    number = .notANumber ∨ ∃ sign exponent mantissa, (exponent = -1#11 -> mantissa = 0#52) ∧
      UnpackedFloat.pack .binary64 number = spelledBits sign exponent mantissa ∧
      UnpackedFloat.pack .binary64 number.neg = spelledBits (-sign) exponent mantissa := by
  cases number with
  | notANumber => exact Or.inl rfl
  | infinity sign => exact Or.inr ⟨sign, -1#11, 0#52, fun _ => rfl, rfl, rfl⟩
  | zero sign => exact Or.inr ⟨sign, 0#11, 0#52, fun _ => rfl, rfl, rfl⟩
  | finite sign size scale positive =>
      refine Or.inr ?_
      unfold UnpackedFloat.pack UnpackedFloat.neg
      dsimp only
      split
      · exact ⟨sign, -1#11, 0#52, fun _ => rfl, rfl, rfl⟩
      · rename_i within
        split
        · refine ⟨sign, _, _, fun ones => absurd (congrArg BitVec.toNat ones) ?_, rfl, rfl⟩
          rw [BitVec.toNat_ofNat, Nat.mod_eq_of_lt (by omega)]
          intro top
          simp at top
          omega
        · exact ⟨sign, 0#11, _, fun ones => absurd ones (by decide), rfl, rfl⟩

/-- A number that is packed, unpacked and negated is packed as its negative. -/
theorem pack_neg_repacked (number : UnpackedFloat) :
    UnpackedFloat.pack .binary64
        (UnpackedFloat.unpack .binary64 (UnpackedFloat.pack .binary64 number)).neg =
      UnpackedFloat.pack .binary64 number.neg := by
  rcases pack_cases number with rfl | ⟨sign, exponent, mantissa, proper, packed, negated⟩
  · rfl
  · rw [packed, negated, ← unpack_spelledBits_neg, pack_unpack_spelledBits proper]

/-! ## Numbers -/

theorem eq_of_toBits {number other : Float}
    (same : number.toBits.toBitVec = other.toBits.toBitVec) : number = other := by
  rcases number with ⟨⟨bits, valid⟩⟩
  rcases other with ⟨⟨otherBits, otherValid⟩⟩
  cases UInt64.toBitVec_inj.mp same
  rfl

/-- A number is the undefined one, or it has a sign, an exponent and a mantissa, and its negative
has the other sign. -/
theorem bits_cases (number : Float) :
    (number = undefined ∧ number.neg = number) ∨
      ∃ sign exponent mantissa, (exponent = -1#11 -> mantissa = 0#52) ∧
        number.toBits.toBitVec = spelledBits sign exponent mantissa ∧
        number.neg.toBits.toBitVec = spelledBits (-sign) exponent mantissa := by
  have spelled := spelledBits_unpacked number.toBits.toBitVec
  by_cases proper : @unpackExponent .binary64 number.toBits.toBitVec = -1#11 ->
      @unpackMantissa .binary64 number.toBits.toBitVec = 0#52
  · refine Or.inr ⟨_, _, _, proper, spelled.symm, ?_⟩
    have unpacks : number.neg.toBits.toBitVec = UnpackedFloat.pack .binary64
        (UnpackedFloat.unpack .binary64 number.toBits.toBitVec).neg := rfl
    rw [unpacks, ← pack_unpack_spelledBits proper, unpack_spelledBits_neg, spelled]
  · have ones : @unpackExponent .binary64 number.toBits.toBitVec = -1#11 :=
      Classical.byContradiction fun others => proper fun ones => absurd ones others
    have some : @unpackMantissa .binary64 number.toBits.toBitVec ≠ 0#52 :=
      fun none => proper fun _ => none
    have undefinedBits : undefined.toBits.toBitVec = packedNaN .binary64 := by decide
    have same : number = undefined :=
      eq_of_toBits ((number.toModel.valid.eq_packedNaN ones some).trans undefinedBits.symm)
    subst same
    exact Or.inl ⟨rfl, eq_of_toBits (by decide)⟩

/-- A number without its sign has the bits for the positive sign. -/
theorem magnitude_eq {number : Float} {sign : Sign} {exponent : BitVec 11} {mantissa : BitVec 52}
    (bits : number.toBits.toBitVec = spelledBits sign exponent mantissa) :
    magnitude number = Float.ofBits ⟨spelledBits .positive exponent mantissa⟩ := by
  have value := spelledBits_toNat sign exponent mantissa
  have unsigned := spelledBits_toNat .positive exponent mantissa
  have low := exponent.isLt
  have lower := mantissa.isLt
  have signBit := sign_toBitVec_toNat sign
  have same : UInt64.ofNat (number.toBits.toNat % Nat.pow 2 63) =
      ⟨spelledBits .positive exponent mantissa⟩ := by
    rw [← UInt64.toNat_inj, UInt64.toNat_ofNat', ← UInt64.toNat_toBitVec, bits, value]
    refine Eq.trans ?_ unsigned.symm
    simp only [Sign.toBitVec, Nat.pow_eq, BitVec.toNat_zero]
    omega
  rw [magnitude, same]

theorem magnitude_neg (number : Float) : magnitude number.neg = magnitude number := by
  rcases bits_cases number with ⟨_, same⟩ | ⟨sign, exponent, mantissa, _, bits, negated⟩
  · rw [same]
  · rw [magnitude_eq bits, magnitude_eq negated]

theorem magnitude_cases (number : Float) :
    magnitude number = number ∨ magnitude number = number.neg := by
  rcases bits_cases number with ⟨rfl, _⟩ | ⟨sign, exponent, mantissa, proper, bits, negated⟩
  · exact Or.inl (eq_of_toBits (by decide))
  · have packed : (Float.ofBits ⟨spelledBits .positive exponent mantissa⟩).toBits.toBitVec =
        spelledBits .positive exponent mantissa := pack_unpack_spelledBits proper
    rw [magnitude_eq bits]
    cases sign with
    | positive => exact Or.inl (eq_of_toBits (packed.trans bits.symm))
    | negative => exact Or.inr (eq_of_toBits (packed.trans negated.symm))

/-- A number is finite unless all bits of its exponent are set. -/
theorem isFinite_of_bits {number : Float} {sign : Sign} {exponent : BitVec 11}
    {mantissa : BitVec 52} (bits : number.toBits.toBitVec = spelledBits sign exponent mantissa) :
    isFinite number = decide (exponent.toNat ≠ 2047) := by
  have value := spelledBits_toNat sign exponent mantissa
  have low := exponent.isLt
  have lower := mantissa.isLt
  have signBit := sign_toBitVec_toNat sign
  have biased : number.toBits.toNat / Nat.pow 2 52 % Nat.pow 2 11 = exponent.toNat := by
    rw [← UInt64.toNat_toBitVec, bits, value]
    simp only [Nat.pow_eq]
    omega
  unfold isFinite parts
  dsimp only
  rw [biased]
  by_cases top : exponent.toNat = 2047
  · rw [if_pos top, decide_eq_false (not_not.mpr top)]
    split <;> rename_i found
    · split at found <;> cases found
    · rfl
  · rw [if_neg top, decide_eq_true top]
    split <;> rename_i found
    · rfl
    · split at found <;> exact absurd rfl (found _ _ _)

theorem isFinite_neg (number : Float) : isFinite number.neg = isFinite number := by
  rcases bits_cases number with ⟨_, same⟩ | ⟨sign, exponent, mantissa, _, bits, negated⟩
  · rw [same]
  · rw [isFinite_of_bits bits, isFinite_of_bits negated]

/-- A number that is not finite is infinite or undefined. -/
theorem not_finite_cases {value : Float} (notFinite : isFinite value = false) :
    value = undefined ∨ value = infinite false ∨ value = infinite true := by
  refine (bits_cases value).imp And.left ?_
  rintro ⟨sign, exponent, mantissa, proper, bits, _⟩
  rw [isFinite_of_bits bits, decide_eq_false_iff_not, not_not] at notFinite
  have ones : exponent = -1#11 := BitVec.toNat_inj.mp notFinite
  rw [ones, proper ones] at bits
  cases sign with
  | positive => exact Or.inl (eq_of_toBits (bits.trans (by decide)))
  | negative => exact Or.inr (eq_of_toBits (bits.trans (by decide)))

/-- A negated number is unpacked as the negative. -/
theorem unpack_neg (number : Float) :
    number.neg.toModel.unpack = number.toModel.unpack.neg := by
  rcases bits_cases number with ⟨rfl, same⟩ | ⟨sign, exponent, mantissa, _, bits, negated⟩
  · rw [same]
    rfl
  · have unpacks : forall other : Float, other.toModel.unpack =
        UnpackedFloat.unpack .binary64 other.toBits.toBitVec := fun _ => rfl
    rw [unpacks, unpacks, bits, negated, unpack_spelledBits_neg]

theorem beq_zero_neg (number : Float) :
    Float.beq number.neg (Scalar.ofInt 0) = Float.beq number (Scalar.ofInt 0) := by
  have compares : forall other : Float, Float.beq other (Scalar.ofInt 0) =
      UnpackedFloat.beq other.toModel.unpack (Scalar.ofInt 0 : Float).toModel.unpack :=
    fun _ => rfl
  rw [compares, compares, unpack_neg, unpack_zero]
  cases number.toModel.unpack with
  | notANumber => rfl
  | infinity sign | zero sign | finite sign => cases sign <;> rfl

/-- The product of a negated number is the negated product. -/
theorem float_mul_neg (number factor : Float) :
    Float.mul number.neg factor = (Float.mul number factor).neg := by
  have product : (Float.mul number.neg factor).toBits.toBitVec = UnpackedFloat.pack .binary64
      (UnpackedFloat.mul .binary64 number.neg.toModel.unpack factor.toModel.unpack) := rfl
  refine eq_of_toBits ?_
  rw [product, unpack_neg, mul_neg]
  exact (pack_neg_repacked _).symm

/-- The quotient of a negated number is the negated quotient. -/
theorem float_div_neg (number divisor : Float) :
    Float.div number.neg divisor = (Float.div number divisor).neg := by
  have quotient : (Float.div number.neg divisor).toBits.toBitVec = UnpackedFloat.pack .binary64
      (UnpackedFloat.div .binary64 number.neg.toModel.unpack divisor.toModel.unpack) := rfl
  refine eq_of_toBits ?_
  rw [quotient, unpack_neg, div_neg]
  exact (pack_neg_repacked _).symm

/-- The size of a binary number does not depend on its sign. -/
instance : SignedScalar Float where
  abs_cases := magnitude_cases
  abs_neg := magnitude_neg
  isFinite_neg := isFinite_neg
  eq_zero_neg := beq_zero_neg
  mul_neg_left := float_mul_neg
  div_neg_left := float_div_neg

end Number
end QuantityCalculus
