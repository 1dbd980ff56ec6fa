namespace QuantityCalculus
namespace Text

/-!
Decimal digits of every script.

A number may be written with the digits of any script that has a decimal
system.  The standard assigns such digits in blocks of ten, zero first, so a
table of the zeros determines both which characters are digits and what each
of them is worth.
-/

/-- The code points of the digit zero, one for each block of ten digits. -/
def digitZeros : List Nat :=
  [48, 1632, 1776, 1984, 2406, 2534, 2662, 2790, 2918, 3046, 3174, 3302, 3430, 3558, 3664, 3792,
   3872, 4160, 4240, 6112, 6160, 6470, 6608, 6784, 6800, 6992, 7088, 7232, 7248, 42528, 43216,
   43264, 43472, 43504, 43600, 44016, 65296, 66720, 68912, 69734, 69872, 69942, 70096, 70384,
   70736, 70864, 71248, 71360, 71472, 71904, 72016, 72784, 73040, 73120, 92768, 92864, 93008,
   120782, 120792, 120802, 120812, 120822, 123200, 123632, 125264, 130032]

/-- The value of a decimal digit, `none` for every other character. -/
def digitValue? (c : Char) : Option Nat :=
  (digitZeros.find? fun start => Nat.ble start c.toNat && Nat.blt c.toNat (start + 10)).map
    fun start => c.toNat - start

/-- Decimal digits of any script. -/
def isDigit (c : Char) : Bool :=
  (digitValue? c).isSome

/-- A digit is worth less than ten. -/
theorem digitValue?_lt {c : Char} {value : Nat} (found : digitValue? c = some value) :
    value < 10 := by
  rcases Option.map_eq_some_iff.mp found with ⟨start, located, rfl⟩
  have bounds := List.find?_some located
  simp only [Bool.and_eq_true, Nat.ble_eq, Nat.blt_eq] at bounds
  omega

/-- The ten digits of ASCII have their usual values. -/
theorem digitValue?_ascii :
    ['0', '1', '2', '3', '4', '5', '6', '7', '8', '9'].map digitValue? =
      (List.range 10).map some := by
  decide

end Text
end QuantityCalculus
