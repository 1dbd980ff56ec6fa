import QuantityCalculus.Number.Binary64

namespace QuantityCalculus
namespace Number

/-!
The fewest decimal digits that read back as the same number.

Around a number lies the interval of all quotients that round to it.  For one
digit, two digits, and so on, the two neighbours of the number on that decimal
grid are tested for membership; the first grid with a member wins, and of two
members the nearer one is taken.  Seventeen digits always suffice.
-/

/-- Decimal digits with the position of the point: `0.d₁d₂… × 10 ^ point`. -/
structure Decimal where
  digits : List Char
  point : Int
deriving Repr, DecidableEq

/-- A positive number and the interval that rounds to it, over one denominator. -/
structure RoundingInterval where
  value : Nat
  lower : Nat
  upper : Nat
  denominator : Nat
  /-- The ends belong to the interval when the mantissa is even. -/
  closed : Bool
deriving Repr

/-- The interval around a mantissa times a power of two. -/
def roundingInterval (mantissa : Nat) (exponent : Int) : RoundingInterval :=
  let below := if mantissa = Nat.pow 2 52 && decide (-1074 < exponent) then 1 else 2
  let scale (quarters : Nat) : Nat × Nat := scaledRatio quarters (exponent - 2)
  { value := (scale (4 * mantissa)).1
    lower := (scale (4 * mantissa - below)).1
    upper := (scale (4 * mantissa + 2)).1
    denominator := (scale 1).2
    closed := mantissa % 2 == 0 }

/-- A decimal multiple of a power of ten, `candidate × unit / scale`, reads back. -/
def RoundingInterval.admits (interval : RoundingInterval) (candidate unit scale : Nat) : Bool :=
  let tested := candidate * unit * interval.denominator
  if interval.closed then
    Nat.ble (interval.lower * scale) tested && Nat.ble tested (interval.upper * scale)
  else
    Nat.blt (interval.lower * scale) tested && Nat.blt tested (interval.upper * scale)

/--
The number of digits before the point: the least `point` for which the value
is below `10 ^ point`.  A shift of 400 places keeps the quotient whole.
-/
def decimalPoint (numerator denominator : Nat) : Int :=
  ((Nat.toDigits 10 (numerator * Nat.pow 10 400 / denominator)).length : Int) - 400

/-- The nearer admitted neighbour on the grid of `count` digits, if there is one. -/
def RoundingInterval.onGrid? (interval : RoundingInterval) (point : Int) (count : Nat) :
    Option Nat :=
  let (unit, scale) : Nat × Nat :=
    match point - count with
    | .ofNat up => (Nat.pow 10 up, 1)
    | .negSucc down => (1, Nat.pow 10 (down + 1))
  let numerator := interval.value * scale
  let denominator := interval.denominator * unit
  let lower := numerator / denominator
  let nearer := roundQuotient numerator denominator
  let farther := if nearer = lower then lower + 1 else lower
  if interval.admits nearer unit scale then some nearer
  else if interval.admits farther unit scale then some farther
  else none

/-- The trailing zeros of a digit sequence carry no information. -/
def dropTrailingZeros (digits : List Char) : List Char :=
  (digits.reverse.dropWhile (· == '0')).reverse

/-- The shortest digits of a positive mantissa times a power of two. -/
def shortestDecimal (mantissa : Nat) (exponent : Int) : Decimal :=
  let interval := roundingInterval mantissa exponent
  let point := decimalPoint interval.value interval.denominator
  let found := ((List.range 17).findSome? fun fewer =>
    (interval.onGrid? point (fewer + 1)).map fun candidate => (fewer + 1, candidate)).getD (1, 0)
  let digits := Nat.toDigits 10 found.2
  -- A neighbour above may have one digit more than the grid has places.
  { digits := dropTrailingZeros digits
    point := point + ((digits.length : Int) - found.1) }

end Number
end QuantityCalculus
