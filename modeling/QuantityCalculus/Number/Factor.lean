namespace QuantityCalculus
namespace Number

/-!
Exact roots of whole numbers, and their small prime factors.
-/

/-- The root of a whole number, if it is whole itself; `low` and `high` enclose it. -/
def searchRoot (number degree : Nat) : Nat -> Nat -> Nat -> Option Nat
  | 0, _, _ => none
  | steps + 1, low, high =>
      if high < low then none
      else
        let middle := (low + high) / 2
        let power := Nat.pow middle degree
        if power = number then some middle
        else if power < number then searchRoot number degree steps (middle + 1) high
        else if middle = 0 then none
        else searchRoot number degree steps low (middle - 1)

/-- The root of a whole number, if it is whole itself. -/
def exactRoot? (number degree : Nat) : Option Nat :=
  if number ≤ 1 then some number
  else if number.log2 < degree then none
  else
    let bits := number.log2 / degree + 1
    searchRoot number degree (bits + 2) 1 (Nat.pow 2 bits)

/-- The primes whose powers are taken out of roots. -/
def smallPrimes : List Nat := [2, 3, 5, 7, 11, 13, 17, 19, 23, 29, 31, 37, 41, 43, 47]

/-- How often a number divides another, and the rest; `steps` bounds the count. -/
def multiplicity (prime : Nat) : Nat -> Nat -> Nat × Nat
  | 0, number => (0, number)
  | steps + 1, number =>
      if number % prime = 0 then
        let (count, rest) := multiplicity prime steps (number / prime)
        (count + 1, rest)
      else (0, number)

/-- The powers of small primes in a number, and the rest. -/
def smallFactors : List Nat -> Nat -> List (Nat × Nat) × Nat
  | [], number => ([], number)
  | prime :: primes, number =>
      let (count, rest) := multiplicity prime (number.log2 + 1) number
      let (found, rest) := smallFactors primes rest
      (if count = 0 then found else (prime, count) :: found, rest)

end Number
end QuantityCalculus
