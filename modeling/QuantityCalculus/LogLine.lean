import QuantityCalculus.Number.Binary64
import QuantityCalculus.Number.Written

namespace QuantityCalculus

/-!
Lines of the log.

A line starts with the time, counted from the beginning of 1970 and shown as a
date in the calendar of today with seconds and, unless they are zero, millionths
of a second.  The level, the logger, the message and the code of a failure
follow.
-/

namespace LogLine

/-- A day of the calendar. -/
structure Date where
  year : Int
  month : Nat
  day : Nat
deriving DecidableEq, Repr

/--
The date of a day counted from the beginning of 1970.  Years are counted from
March, so that the leap day ends a year, and in eras of 400 years, which all
have the same number of days.
-/
def dateOf (days : Int) : Date :=
  let shifted := days + 719468
  let era := shifted / 146097
  let dayOfEra := (shifted % 146097).toNat
  let yearOfEra :=
    (dayOfEra - dayOfEra / 1460 + dayOfEra / 36524 - dayOfEra / 146096) / 365
  let dayOfYear := dayOfEra - (365 * yearOfEra + yearOfEra / 4 - yearOfEra / 100)
  let monthFromMarch := (5 * dayOfYear + 2) / 153
  let day := dayOfYear - (153 * monthFromMarch + 2) / 5 + 1
  let month := if monthFromMarch < 10 then monthFromMarch + 3 else monthFromMarch - 9
  ⟨yearOfEra + era * 400 + (if month ≤ 2 then 1 else 0), month, day⟩

/-- A number with at least the given count of digits. -/
def padded (width n : Nat) : List Char :=
  let digits := Nat.toDigits 10 n
  List.replicate (width - digits.length) '0' ++ digits

/-- A time as whole seconds and millionths of a second, rounded to the nearest, ties to even. -/
def secondsAndMillionths (time : Float) : Int × Nat :=
  let whole := Number.wholePart time
  let rest := time - Number.nearest (whole < 0) whole.natAbs 1
  let millionths : Int :=
    match Number.parts (rest * 1000000) with
    | .finite negative mantissa exponent =>
        let (numerator, denominator) := Number.scaledRatio mantissa exponent
        let rounded : Int := Number.roundQuotient numerator denominator
        if negative then -rounded else rounded
    | _ => 0
  (whole + millionths / 1000000, (millionths % 1000000).toNat)

/-- A time as date and time of day. -/
def timeText (time : Float) : List Char :=
  let (seconds, millionths) := secondsAndMillionths time
  let date := dateOf (seconds / 86400)
  let second := (seconds % 86400).toNat
  padded 4 date.year.toNat ++ '-' :: padded 2 date.month ++ '-' :: padded 2 date.day ++
    'T' :: padded 2 (second / 3600) ++ ':' :: padded 2 (second / 60 % 60) ++
    ':' :: padded 2 (second % 60) ++
    if millionths = 0 then [] else '.' :: padded 6 millionths

/-- A line of the log; an empty code is no code. -/
def text (time : Float) (level logger message code : String) : String :=
  String.ofList (timeText time) ++ " [" ++ level ++ "] unitcalc." ++ logger ++ ": " ++ message
    ++ if code = "" then "" else " [code=" ++ code ++ "]"

end LogLine
end QuantityCalculus
