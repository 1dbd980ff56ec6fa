import QuantityCalculus.Number.Shortest

namespace QuantityCalculus
namespace Number

/-!
Numbers as text.

`shortestText` writes the fewest digits that read back; `fixedText` writes a
given number of places after the point.  How the digits are laid out is a
record of decisions, so that the layout this library writes is one value.
-/

/-- The decisions that turn digits into text. -/
structure DecimalLayout where
  /-- The least decimal exponent that is written without an exponent. -/
  leastPositional : Int
  /-- The greatest decimal exponent that is written without an exponent. -/
  greatestPositional : Int
  /-- The least number of digits of a written exponent. -/
  exponentWidth : Nat
  infinity : List Char
  undefined : List Char

/--
Numbers are written positionally from a ten-thousandth to below ten to the
sixteenth, with a fraction part even when it is zero; beyond that with an
exponent of at least two digits.
-/
def numberLayout : DecimalLayout where
  leastPositional := -4
  greatestPositional := 15
  exponentWidth := 2
  infinity := ['i', 'n', 'f']
  undefined := ['n', 'a', 'n']

/-- Digits around a point, padded with zeros on either side. -/
def positionalText (decimal : Decimal) : List Char :=
  if decimal.point ≤ 0 then
    '0' :: '.' :: List.replicate decimal.point.natAbs '0' ++ decimal.digits
  else
    let before := decimal.point.toNat
    let padded := decimal.digits ++ List.replicate (before - decimal.digits.length) '0'
    let fraction := padded.drop before
    padded.take before ++ '.' :: (if fraction.isEmpty then ['0'] else fraction)

/-- The exponent after its mark, with its sign and at least the given number of digits. -/
def exponentText (width : Nat) (exponent : Int) : List Char :=
  let digits := Nat.toDigits 10 exponent.natAbs
  (if exponent < 0 then '-' else '+') :: List.replicate (width - digits.length) '0' ++ digits

/-- Digits with an exponent: one before the point, the others after it. -/
def scientificText (width : Nat) (decimal : Decimal) : List Char :=
  let mantissa :=
    match decimal.digits with
    | [] => ['0']
    | [digit] => [digit]
    | digit :: rest => digit :: '.' :: rest
  mantissa ++ 'e' :: exponentText width (decimal.point - 1)

/-- Digits laid out by their size. -/
def DecimalLayout.text (layout : DecimalLayout) (decimal : Decimal) : List Char :=
  let exponent := decimal.point - 1
  if layout.leastPositional ≤ exponent && exponent ≤ layout.greatestPositional then
    positionalText decimal
  else scientificText layout.exponentWidth decimal

/-- A minus sign in front of a negative number. -/
def withSign (negative : Bool) (text : List Char) : List Char :=
  if negative then '-' :: text else text

/-- The shortest text that reads back as the number. -/
def shortestText (number : Float) : List Char :=
  match parts number with
  | .undefined => numberLayout.undefined
  | .infinite negative => withSign negative numberLayout.infinity
  | .finite negative mantissa exponent =>
      withSign negative
        (if mantissa = 0 then ['0', '.', '0']
         else numberLayout.text (shortestDecimal mantissa exponent))

/-- A whole number of units in the last of `places` places, as text. -/
def placedText (places units : Nat) : List Char :=
  let digits := Nat.toDigits 10 units
  let padded := List.replicate (places + 1 - digits.length) '0' ++ digits
  let before := padded.length - places
  if places = 0 then padded else padded.take before ++ '.' :: padded.drop before

/-- The text with a given number of places, rounded to the nearest, ties to even. -/
def fixedText (places : Nat) (number : Float) : List Char :=
  match parts number with
  | .undefined => numberLayout.undefined
  | .infinite negative => withSign negative numberLayout.infinity
  | .finite negative mantissa exponent =>
      let (numerator, denominator) := scaledRatio mantissa exponent
      withSign negative
        (placedText places (roundQuotient (numerator * Nat.pow 10 places) denominator))

/-- A whole number as text. -/
def integerText (number : Int) : List Char :=
  withSign (number < 0) (Nat.toDigits 10 number.natAbs)

end Number
end QuantityCalculus
