import QuantityCalculus.Number.Scalar

namespace QuantityCalculus

/-!
Magnitudes: the powers of a thousand that a unit may be scaled by.

A value with a unit is shown under the magnitude that brings it into the range
from one to a thousand.  Only steps of a thousand exist; hundredths, tenths,
tens and hundreds are left out on purpose.  Rescaling multiplies or divides by
one exact power of ten, whichever way the exponent goes, because dividing by an
exact power loses less than multiplying by its rounded inverse.
-/

/-- A named power of ten. -/
structure Magnitude where
  id : String
  exponent : Int
deriving DecidableEq, Repr

namespace Magnitude

def yocto : Magnitude := ⟨"y", -24⟩
def zepto : Magnitude := ⟨"z", -21⟩
def atto : Magnitude := ⟨"a", -18⟩
def femto : Magnitude := ⟨"f", -15⟩
def pico : Magnitude := ⟨"p", -12⟩
def nano : Magnitude := ⟨"n", -9⟩
def micro : Magnitude := ⟨"µ", -6⟩
def milli : Magnitude := ⟨"m", -3⟩
/-- The magnitude of a plain value. -/
def plain : Magnitude := ⟨"", 0⟩
def kilo : Magnitude := ⟨"k", 3⟩
def mega : Magnitude := ⟨"M", 6⟩
def giga : Magnitude := ⟨"G", 9⟩
def tera : Magnitude := ⟨"T", 12⟩
def peta : Magnitude := ⟨"P", 15⟩
def exa : Magnitude := ⟨"E", 18⟩
def zetta : Magnitude := ⟨"Z", 21⟩
def yotta : Magnitude := ⟨"Y", 24⟩

/-- All magnitudes below the greatest, in ascending order. -/
def belowYotta : List Magnitude :=
  [yocto, zepto, atto, femto, pico, nano, micro, milli, plain,
   kilo, mega, giga, tera, peta, exa, zetta]

/-- All magnitudes, in ascending order. -/
def all : List Magnitude := belowYotta ++ [yotta]

/-- Other spellings of an id: the Greek letter and the Latin letter for a millionth. -/
def aliases : List (String × Magnitude) := [("μ", micro), ("u", micro)]

/-- The magnitude with an id or another spelling of it. -/
def byId? (id : String) : Option Magnitude :=
  (all.find? fun magnitude => magnitude.id == id).or
    ((aliases.find? fun entry => entry.1 == id).map Prod.snd)

variable {R : Type} [Scalar R]

/-- The power of ten itself. -/
def factor (magnitude : Magnitude) : R :=
  Scalar.tenTo magnitude.exponent

/-- A value counted in one magnitude, counted in another. -/
def rebase (value : R) (source target : Magnitude) : R :=
  let shift := source.exponent - target.exponent
  if shift = 0 then value
  else if 0 < shift then Scalar.mul value (Scalar.tenTo shift)
  else Scalar.div value (Scalar.tenTo (-shift))

@[simp] theorem rebase_same (value : R) (magnitude : Magnitude) :
    rebase value magnitude magnitude = value := by
  rw [rebase, if_pos (Int.sub_self _)]

/-- The range that a value is shown in: from one to below a thousand, with either sign. -/
def inBracket (value : R) : Bool :=
  Scalar.le (Scalar.ofInt 1) (Scalar.abs value) &&
    Scalar.lt (Scalar.abs value) (Scalar.ofInt 1000)

/--
The magnitude under which a plain value is shown: the first that brings it into
the bracket.  Zero, values that are not finite, and values beyond all brackets
stay plain.  The greatest magnitude never fits, as nothing bounds its bracket.
-/
def bestFit (value : R) : Magnitude :=
  if !Scalar.isFinite value || Scalar.eq value (Scalar.ofInt 0) then plain
  else (belowYotta.find? fun magnitude => inBracket (rebase value plain magnitude)).getD plain

/-- The text after a leading part, if it starts with that part. -/
def restAfter? : List Char -> List Char -> Option (List Char)
  | [], text => some text
  | _ :: _, [] => none
  | c :: part, d :: text => if c = d then restAfter? part text else none

/-- Every spelling of a scaling magnitude: the ids in ascending order, then the other spellings. -/
def spellings : List (String × Magnitude) :=
  (all.filter fun magnitude => magnitude.id != "").map (fun magnitude => (magnitude.id, magnitude))
    ++ aliases

/-- All readings of a symbol as a magnitude in front of a remainder. -/
def splitSymbol (symbol : String) : List (Magnitude × String) :=
  spellings.filterMap fun (id, magnitude) =>
    (restAfter? id.toList symbol.toList).map fun rest => (magnitude, String.ofList rest)

end Magnitude
end QuantityCalculus
