import Mathlib
import QuantityCalculus.Number.BinaryScalar

namespace QuantityCalculus
namespace Number

open Float.Model UnpackedFloat

/-!
# The signs of binary numbers

Comparisons of binary numbers unpack their bits, and so does `parts`, each in its
own way.  What a comparison with zero says about the parts of a number is proved
here, and with it that a number read from decimal digits is never negative.
-/

/-! ## The bits of a number -/

/-- The sign that belongs to the highest bit. -/
def signOf (negative : Bool) : Sign :=
  if negative then .negative else .positive

theorem unpackSign_toNat (bits : BitVec 64) :
    (@unpackSign Format.binary64 bits).toNat = bits.toNat / 2 ^ 63 := by
  have bound := bits.isLt
  simp [unpackSign, BitVec.extractLsb_toNat, Nat.shiftRight_eq_div_pow]
  omega

theorem unpackExponent_toNat (bits : BitVec 64) :
    (@unpackExponent Format.binary64 bits).toNat =
      bits.toNat / Nat.pow 2 52 % Nat.pow 2 11 := by
  simp [unpackExponent, Nat.shiftRight_eq_div_pow]

theorem unpackMantissa_toNat (bits : BitVec 64) :
    (@unpackMantissa Format.binary64 bits).toNat = bits.toNat % Nat.pow 2 52 := by
  simp [unpackMantissa]

theorem unpackSign_eq (bits : BitVec 64) :
    Sign.ofBitVec (@unpackSign Format.binary64 bits) =
      signOf (Nat.ble (Nat.pow 2 63) bits.toNat) := by
  have value := unpackSign_toNat bits
  unfold Sign.ofBitVec signOf
  by_cases large : Nat.pow 2 63 ≤ bits.toNat
  · have one : ¬ @unpackSign Format.binary64 bits = 0#1 := by
      intro zero
      have positive : 0 < bits.toNat / 2 ^ 63 := Nat.div_pos large (by decide)
      rw [← value, zero] at positive
      exact absurd positive (by decide)
    rw [Nat.ble_eq.mpr large, if_neg one, if_pos rfl]
  · have zero : @unpackSign Format.binary64 bits = 0#1 := by
      rw [← BitVec.toNat_inj, value]
      exact Nat.div_eq_of_lt (Nat.lt_of_not_le large)
    rw [Bool.eq_false_iff.mpr (mt Nat.ble_eq.mp large), if_pos zero]
    rfl

/-- The leading bit that a normal mantissa leaves out. -/
theorem leadingBit_toNat (mantissa : BitVec 52) :
    (1#1 ++ mantissa).toNat = mantissa.toNat + Nat.pow 2 52 := by
  have small := mantissa.isLt
  rw [BitVec.toNat_append]
  change 2 ^ 52 ||| mantissa.toNat = _
  rw [Nat.or_comm, Nat.or_two_pow_eq_add_of_lt small]

theorem exists_finite {sign : Sign} {mantissa other : Nat} {exponent scale : Int}
    (positive : 0 < mantissa) (same : mantissa = other) (scales : exponent = scale) :
    ∃ still, UnpackedFloat.finite sign mantissa exponent positive =
      .finite sign other scale still := by
  subst same
  subst scales
  exact ⟨positive, rfl⟩

/-- A finite number has a sign, a mantissa and an exponent. -/
theorem parts_of_isFinite {number : Float} (finite : isFinite number = true) :
    ∃ negative mantissa exponent, parts number = .finite negative mantissa exponent := by
  unfold isFinite at finite
  split at finite
  · rename_i found
    exact ⟨_, _, _, found⟩
  · cases finite

/-- The parts of a finite number are what a comparison unpacks. -/
theorem unpack_of_finite {number : Float} {negative : Bool} {mantissa : Nat} {exponent : Int}
    (finite : parts number = .finite negative mantissa exponent) :
    (mantissa = 0 ∧ number.toModel.unpack = .zero (signOf negative)) ∨
      (mantissa ≠ 0 ∧ ∃ positive,
        number.toModel.unpack = .finite (signOf negative) mantissa exponent positive) := by
  have exponentBits := unpackExponent_toNat number.toBits.toBitVec
  have mantissaBits := unpackMantissa_toNat number.toBits.toBitVec
  have sign := unpackSign_eq number.toBits.toBitVec
  have unpacks : number.toModel.unpack =
      UnpackedFloat.unpack Format.binary64 number.toBits.toBitVec := rfl
  have bias : Format.binary64.exponentBias = 1023 := by decide
  rw [unpacks, UnpackedFloat.unpack]
  simp only [sign, bias]
  unfold parts at finite
  simp only at finite
  simp only [UInt64.toNat_toBitVec] at exponentBits mantissaBits ⊢
  split at finite
  · split at finite <;> cases finite
  · rename_i notTop
    have notOnes : ¬ @unpackExponent Format.binary64 number.toBits.toBitVec = -1#_ := by
      intro ones
      rw [ones] at exponentBits
      exact notTop exponentBits.symm
    rw [if_neg notOnes]
    split at finite
    · rename_i bottom
      have zeros : @unpackExponent Format.binary64 number.toBits.toBitVec = 0#_ := by
        rw [← BitVec.toNat_inj, exponentBits, bottom]
        rfl
      rw [if_pos zeros]
      cases finite
      split
      · rename_i none
        rw [none] at mantissaBits
        exact Or.inl ⟨mantissaBits.symm, rfl⟩
      · rename_i some
        refine Or.inr ⟨?_, ?_⟩
        · intro none
          rw [none] at mantissaBits
          exact some (BitVec.toNat_inj.mp mantissaBits)
        · refine exists_finite _ mantissaBits ?_
          rw [zeros]
          decide
    · rename_i notBottom
      have notZeros : ¬ @unpackExponent Format.binary64 number.toBits.toBitVec = 0#_ := by
        intro zeros
        rw [zeros] at exponentBits
        exact notBottom exponentBits.symm
      rw [if_neg notZeros]
      cases finite
      refine Or.inr ⟨?_, ?_⟩
      · exact Nat.ne_of_gt (Nat.add_pos_right _ (by decide))
      · refine exists_finite _ ((leadingBit_toNat _).trans (congrArg (· + _) mantissaBits)) ?_
        rw [exponentBits]
        omega

/-! ## Comparisons with zero -/

theorem unpack_zero : (Scalar.ofInt 0 : Float).toModel.unpack = .zero .positive := by
  have finite : parts (Scalar.ofInt 0) = .finite false 0 (-1074) := by decide
  rcases unpack_of_finite finite with ⟨_, same⟩ | ⟨some, _⟩
  · exact same
  · exact absurd rfl some

/-- A finite number is at least zero unless it has a sign and a mantissa. -/
theorem zero_le_iff {number : Float} {negative : Bool} {mantissa : Nat} {exponent : Int}
    (finite : parts number = .finite negative mantissa exponent) :
    Scalar.le (Scalar.ofInt 0) number = true <-> negative = false ∨ mantissa = 0 := by
  have compares : Scalar.le (Scalar.ofInt 0) number =
      UnpackedFloat.le (.zero .positive) number.toModel.unpack := by
    rw [← unpack_zero]
    exact Bool.decide_eq_true.trans Bool.decide_eq_true
  rw [compares]
  rcases unpack_of_finite finite with ⟨none, same⟩ | ⟨some, positive, same⟩
  · rw [same]
    exact ⟨fun _ => Or.inr none, fun _ => by cases negative <;> rfl⟩
  · rw [same]
    cases negative
    · exact ⟨fun _ => Or.inl rfl, fun _ => rfl⟩
    · refine ⟨nofun, ?_⟩
      rintro (impossible | none)
      · cases impossible
      · exact absurd none some

/-- A finite number that is equal to zero has no mantissa. -/
theorem mantissa_of_eq_zero {number : Float} {negative : Bool} {mantissa : Nat} {exponent : Int}
    (finite : parts number = .finite negative mantissa exponent)
    (zero : Scalar.eq number (Scalar.ofInt 0) = true) : mantissa = 0 := by
  have compares : Scalar.eq number (Scalar.ofInt 0) =
      UnpackedFloat.beq number.toModel.unpack (.zero .positive) := by
    rw [← unpack_zero]
    rfl
  rw [compares] at zero
  rcases unpack_of_finite finite with ⟨none, _⟩ | ⟨_, positive, same⟩
  · exact none
  · rw [same] at zero
    cases negative <;> cases zero

/-- A number with a sign and without a mantissa is negative zero. -/
theorem negative_zero_of_parts {number : Float} {exponent : Int}
    (finite : parts number = .finite true 0 exponent) : number = signedZero true := by
  have bits : number.toBits.toNat = Nat.pow 2 63 := by
    have bound := number.toBits.toNat_lt
    unfold parts at finite
    simp only at finite
    split at finite
    · split at finite <;> cases finite
    · split at finite
      · rename_i bottom
        injection finite with sign fraction _
        have large := Nat.ble_eq.mp sign
        simp only [Nat.pow_eq] at *
        omega
      · injection finite with _ fraction _
        exact absurd fraction (Nat.ne_of_gt (Nat.add_pos_right _ (by decide)))
  have zeroBits : (signedZero true).toBits = UInt64.ofNat (Nat.pow 2 63) := by decide
  have same : number.toBits = (signedZero true).toBits := by
    rw [zeroBits, ← UInt64.toNat_inj, bits]
    rfl
  cases number with
  | ofModel model =>
      cases zero : signedZero true with
      | ofModel other =>
          rw [zero] at same
          cases model
          cases other
          cases same
          rfl

/-! ## Numbers read from digits -/

/-- An unpacked number without a sign. -/
def IsUnsigned : UnpackedFloat -> Prop
  | .infinity sign | .zero sign | .finite sign .. => sign = .positive
  | .notANumber => True

/-- Without a sign, the highest bit is clear. -/
theorem packComponents_unsigned (exponent : BitVec 11) (mantissa : BitVec 52) :
    (packComponents Format.binary64 .positive exponent mantissa).toNat < Nat.pow 2 63 := by
  have low : mantissa.toNat < 2 ^ 63 := Nat.lt_trans mantissa.isLt (by decide)
  have high : exponent.toNat <<< 52 < 2 ^ 63 := by
    rw [Nat.shiftLeft_eq]
    exact Nat.mul_lt_mul_of_pos_right exponent.isLt (by decide)
  have unsigned : (Sign.positive.toBitVec ++ exponent).toNat = exponent.toNat := by
    rw [BitVec.toNat_append]
    exact (congrArg (· ||| exponent.toNat) (Nat.zero_shiftLeft _)).trans (Nat.zero_or _)
  unfold packComponents
  rw [BitVec.toNat_append, unsigned]
  exact Nat.or_lt_two_pow high low

theorem pack_unsigned {number : UnpackedFloat} (unsigned : IsUnsigned number) :
    (UnpackedFloat.pack Format.binary64 number).toNat < Nat.pow 2 63 := by
  cases number with
  | notANumber => exact packComponents_unsigned _ _
  | infinity sign => cases unsigned; exact packComponents_unsigned _ _
  | zero sign => cases unsigned; exact packComponents_unsigned _ _
  | finite sign mantissa exponent positive =>
      cases unsigned
      unfold UnpackedFloat.pack
      dsimp only
      split
      · exact packComponents_unsigned _ _
      · split <;> exact packComponents_unsigned _ _

theorem unpack_unsigned {bits : BitVec 64} (clear : bits.toNat < Nat.pow 2 63) :
    IsUnsigned (UnpackedFloat.unpack Format.binary64 bits) := by
  have sign : Sign.ofBitVec (@unpackSign Format.binary64 bits) = .positive := by
    rw [unpackSign_eq, Bool.eq_false_iff.mpr (mt Nat.ble_eq.mp (Nat.not_le_of_lt clear))]
    rfl
  unfold UnpackedFloat.unpack
  dsimp only
  rw [sign]
  split
  · split <;> trivial
  · split
    · split <;> rfl
    · rfl

/-- A number made of bits without a sign has no sign. -/
theorem parts_ofMagnitudeBits {bits : Nat} (clear : bits < Nat.pow 2 63) {mantissa : Nat}
    {exponent : Int} : parts (ofMagnitudeBits false bits) ≠ .finite true mantissa exponent := by
  have small : (UInt64.ofNat (bits + 0)).toBitVec.toNat < Nat.pow 2 63 := by
    rw [UInt64.toNat_toBitVec, UInt64.toNat_ofNat']
    exact Nat.lt_of_le_of_lt (Nat.mod_le _ _) clear
  have packed : (ofMagnitudeBits false bits).toBits.toNat < Nat.pow 2 63 :=
    pack_unsigned (unpack_unsigned small)
  intro finite
  unfold parts at finite
  simp only [Bool.eq_false_iff.mpr (mt Nat.ble_eq.mp (Nat.not_le_of_lt packed))] at finite
  split at finite
  · split at finite <;> cases finite
  · split at finite <;> cases finite

theorem nearestBits_lt (numerator denominator : Nat) :
    nearestBits numerator denominator < Nat.pow 2 63 := by
  have bound : nearestBits numerator denominator ≤ infinityBits := by
    unfold nearestBits
    split
    · exact Nat.zero_le _
    · exact Nat.min_le_right _ _
  exact Nat.lt_of_le_of_lt bound (by decide)

/-- A number read from decimal digits has no sign. -/
theorem nearestDecimal_unsigned (digits : Nat) (places : Int) {mantissa : Nat} {exponent : Int} :
    parts (nearestDecimal digits places) ≠ .finite true mantissa exponent := by
  unfold nearestDecimal
  dsimp only
  split
  · exact parts_ofMagnitudeBits (by decide)
  · split
    · exact parts_ofMagnitudeBits (by decide)
    · split
      · exact parts_ofMagnitudeBits (by decide)
      · split <;> exact parts_ofMagnitudeBits (nearestBits_lt _ _)

end Number
end QuantityCalculus
