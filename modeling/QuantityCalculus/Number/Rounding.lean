namespace QuantityCalculus
namespace Number

/-!
Rounding of quotients of natural numbers.

Decimal output and binary results both come down to one question: which whole
number is nearest to a quotient.  A quotient halfway between two whole numbers
goes to the even one.
-/

/-- The whole number nearest to a quotient, the even one of two equally near. -/
def roundQuotient (numerator denominator : Nat) : Nat :=
  let lower := numerator / denominator
  let rest := numerator % denominator
  if 2 * rest < denominator then lower
  else if denominator < 2 * rest then lower + 1
  else if lower % 2 = 0 then lower
  else lower + 1

/-- The rounded quotient is within half a unit of the quotient. -/
theorem roundQuotient_near (numerator denominator : Nat) (positive : 0 < denominator) :
    2 * numerator ≤ (2 * roundQuotient numerator denominator + 1) * denominator ∧
      2 * roundQuotient numerator denominator * denominator ≤ 2 * numerator + denominator := by
  have split := Nat.div_add_mod numerator denominator
  have small := Nat.mod_lt numerator positive
  have commuted : denominator * (numerator / denominator) =
      numerator / denominator * denominator := Nat.mul_comm _ _
  simp only [roundQuotient]
  generalize numerator / denominator = lower at *
  generalize numerator % denominator = rest at *
  split
  · constructor <;> simp only [Nat.add_mul, Nat.mul_assoc, Nat.one_mul] <;> omega
  · split
    · constructor <;> simp only [Nat.add_mul, Nat.mul_add, Nat.mul_assoc, Nat.one_mul] <;> omega
    · split
      · constructor <;> simp only [Nat.add_mul, Nat.mul_assoc, Nat.one_mul] <;> omega
      · constructor <;> simp only [Nat.add_mul, Nat.mul_add, Nat.mul_assoc, Nat.one_mul] <;> omega

/--
`shiftLeft value shift` as a pair of numerator and denominator: the value times
a power of two whose exponent may be negative.
-/
def scaledRatio (value : Nat) (shift : Int) : Nat × Nat :=
  match shift with
  | .ofNat up => (value * Nat.pow 2 up, 1)
  | .negSucc down => (value, Nat.pow 2 (down + 1))

end Number
end QuantityCalculus
