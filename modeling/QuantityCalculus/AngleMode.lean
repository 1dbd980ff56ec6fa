import QuantityCalculus.Failure
import QuantityCalculus.Number.Scalar
import QuantityCalculus.Text.Blank
import QuantityCalculus.Text.LowerCase

namespace QuantityCalculus

/-!
Angle modes.

An angle is multiplied by the factor of the mode before a circular function
sees it, and the value of an inverse function is divided by it.
-/

/-- How angles are counted. -/
inductive AngleMode where
  | deg | rad | grad
deriving DecidableEq, Repr

namespace AngleMode

/-- The word for a mode. -/
def name : AngleMode -> String
  | .deg => "deg"
  | .rad => "rad"
  | .grad => "grad"

/-- The mode of a word in any letter case. -/
def parse (text : String) : Except Failure AngleMode :=
  let word := Text.lowerCase (Text.trimmed text)
  match [deg, rad, grad].find? fun mode => mode.name == word with
  | some mode => .ok mode
  | none => .error (.unknownAngleMode text)

variable {R : Type} [Scalar R]

/-- The factor of a mode. -/
def factor : AngleMode -> R
  | .deg => Scalar.ofInt 1
  | .rad => Scalar.div Scalar.pi (Scalar.ofInt 180)
  | .grad => Scalar.ofDecimal 1111111111 (-9)

/-- An angle as circular functions take it. -/
def into (mode : AngleMode) (angle : R) : R :=
  Scalar.mul angle mode.factor

/-- An angle as inverse functions give it. -/
def outOf (mode : AngleMode) (angle : R) : R :=
  Scalar.div angle mode.factor

end AngleMode
end QuantityCalculus
