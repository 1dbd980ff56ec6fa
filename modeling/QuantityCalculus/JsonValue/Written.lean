import QuantityCalculus.JsonValue.Basic
import QuantityCalculus.Number.Written
import QuantityCalculus.Text.Quoted

namespace QuantityCalculus
namespace JsonValue

/-!
JSON values as text.

A value is written on one line, or with every item and field on a line of its
own, two blanks further in than the container.  Characters beyond ASCII stand
for themselves.
-/

/-- One character inside a quoted text. -/
def escaped (c : Char) : List Char :=
  if c = '"' || c = '\\' then ['\\', c]
  else if c = '\n' then ['\\', 'n']
  else if c = '\r' then ['\\', 'r']
  else if c = '\t' then ['\\', 't']
  else if c.toNat = 8 then ['\\', 'b']
  else if c.toNat = 12 then ['\\', 'f']
  else if c.toNat < 32 then '\\' :: 'u' :: Text.hexDigits 4 c.toNat
  else [c]

/-- A text in quotes. -/
def quotedText (text : List Char) : List Char :=
  '"' :: text.flatMap escaped ++ ['"']

/-- A number with a fraction part or an exponent, or one that is not finite. -/
def realText {R : Type} [Scalar R] (value : R) : List Char :=
  if Scalar.isFinite value then Scalar.shortest value
  else if Scalar.isUndefined value then "NaN".toList
  else if Scalar.lt value (Scalar.ofInt 0) then "-Infinity".toList
  else "Infinity".toList

/-- How the parts of a container are set apart. -/
inductive Layout where
  /-- Everything on one line. -/
  | oneLine
  /-- Every part on its own line, in a container of the given depth. -/
  | lines (depth : Nat)
deriving DecidableEq, Repr

namespace Layout

/-- The layout inside a container. -/
def inner : Layout -> Layout
  | .oneLine => .oneLine
  | .lines depth => .lines (depth + 1)

/-- What stands before a part that opens a line, and before the end of the container. -/
def lineStart : Layout -> List Char
  | .oneLine => []
  | .lines depth => '\n' :: List.replicate (2 * depth) ' '

/-- What stands between two parts, for the layout inside the container. -/
def separator : Layout -> List Char
  | .oneLine => [',', ' ']
  | .lines depth => ',' :: Layout.lineStart (.lines depth)

end Layout

/-- The parts of a container between its brackets; an empty container has nothing inside. -/
def enclosedParts (layout : Layout) (left : Char) (parts : List (List Char)) (right : Char) :
    List Char :=
  match parts with
  | [] => [left, right]
  | first :: rest =>
      left :: layout.inner.lineStart ++ first ++
        rest.flatMap (fun part => layout.inner.separator ++ part) ++ layout.lineStart ++ [right]

variable {R : Type} [Scalar R]

mutual

/-- A value in a layout. -/
def chars (layout : Layout) : JsonValue R -> List Char
  | .null => "null".toList
  | .truth true => "true".toList
  | .truth false => "false".toList
  | .whole value => Number.integerText value
  | .real value => realText value
  | .string value => quotedText value.toList
  | .list items => enclosedParts layout '[' (itemTexts layout.inner items) ']'
  | .object fields => enclosedParts layout '\x7b' (fieldTexts layout.inner fields) '\x7d'

/-- The items of a list in a layout. -/
def itemTexts (layout : Layout) : List (JsonValue R) -> List (List Char)
  | [] => []
  | item :: rest => chars layout item :: itemTexts layout rest

/-- The fields of an object in a layout. -/
def fieldTexts (layout : Layout) : List (String × JsonValue R) -> List (List Char)
  | [] => []
  | (name, value) :: rest =>
      (quotedText name.toList ++ ':' :: ' ' :: chars layout value) :: fieldTexts layout rest

end

/-- A value on one line. -/
def lineText (value : JsonValue R) : String :=
  String.ofList (value.chars .oneLine)

/-- A value over several lines. -/
def pageText (value : JsonValue R) : String :=
  String.ofList (value.chars (.lines 0))

end JsonValue
end QuantityCalculus
