import QuantityCalculus.Number.Scalar
import QuantityCalculus.Table

namespace QuantityCalculus

/-!
JSON values, for settings that are kept in a file.

Whole numbers and numbers with a fraction part or an exponent are different
values, as they are written differently.  The fields of an object keep their
order.
-/

/-- A JSON value. -/
inductive JsonValue (R : Type) where
  | null
  | truth (value : Bool)
  | whole (value : Int)
  | real (value : R)
  | string (value : String)
  | list (items : List (JsonValue R))
  | object (fields : List (String × JsonValue R))
deriving Repr, Inhabited

namespace JsonValue

variable {R : Type}

/-- The fields of an object. -/
def fields? : JsonValue R -> Option (Table (JsonValue R))
  | .object fields => some fields
  | _ => none

/-- Values that count as one. -/
def isOne [Scalar R] : JsonValue R -> Bool
  | .truth value => value
  | .whole value => value == 1
  | .real value => Scalar.eq value (Scalar.ofInt 1)
  | _ => false

/-- Values that count as true: all but the empty ones, null and the zeros. -/
def isTrue [Scalar R] : JsonValue R -> Bool
  | .null => false
  | .truth value => value
  | .whole value => value != 0
  | .real value => !Scalar.eq value (Scalar.ofInt 0)
  | .string value => value != ""
  | .list items => !items.isEmpty
  | .object fields => !fields.isEmpty

/-- A value made of other values. -/
def isContainer : JsonValue R -> Bool
  | .list _ | .object _ => true
  | _ => false

end JsonValue
end QuantityCalculus
