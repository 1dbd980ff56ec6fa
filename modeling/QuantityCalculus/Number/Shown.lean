import QuantityCalculus.Number.Scalar
import QuantityCalculus.Number.Written

namespace QuantityCalculus
namespace Number

/-!
How the calculator shows its numbers.

Whole numbers below ten to the sixteenth show no fraction part.  Other values
are results and show all their digits, or literals and show a limited number
of places without trailing zeros.
-/

variable {R : Type} [Scalar R]

/-- Whole numbers from here on are shown like fractions. -/
def wholeLimit : R := Scalar.tenTo 16

/-- The text of a whole number that is shown without a fraction part. -/
def wholeText? (value : R) : Option (List Char) :=
  (Scalar.toInt? value).bind fun whole =>
    if Scalar.lt (Scalar.abs value) wholeLimit then some (integerText whole) else none

/-- A result: a whole number, or all digits. -/
def valueText (value : R) : List Char :=
  (wholeText? value).getD (Scalar.shortest value)

/-- The text without its trailing occurrences of a character. -/
def dropTrailing (c : Char) (text : List Char) : List Char :=
  (text.reverse.dropWhile (· == c)).reverse

/-- No finite number has more places than this after the point. -/
def mostPlaces : Nat := 1074

/--
A literal: a whole number, or at most `places` places without trailing zeros.
A value too small to show in these places is written with all its digits.
-/
def literalText (places : Nat) (value : R) : List Char :=
  if !Scalar.isFinite value then Scalar.shortest value
  else
    match wholeText? value with
    | some text => text
    | none =>
        let text := dropTrailing '.' (dropTrailing '0' (Scalar.fixed (min places mostPlaces) value))
        if text = ['0'] || text = ['-', '0'] then Scalar.shortest value else text

end Number
end QuantityCalculus
