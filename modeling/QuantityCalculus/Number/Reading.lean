import QuantityCalculus.Number.Scalar
import QuantityCalculus.Text.Blank
import QuantityCalculus.Text.DecimalDigit

namespace QuantityCalculus
namespace Number

/-!
Numbers read from text.

A decimal spelling is a run of digits with at most one point, with a digit on
at least one side of it, and an optional exponent.  `spellingLength` finds the
longest spelling at the start of a text, as a lexer needs it, and
`readSpelling` gives its value.  `read?` accepts what stands for a number on
its own: blanks around it, a sign, single underscores between digits, and the
names of the infinite and the undefined value in any letter case.
-/

variable {R : Type} [Scalar R]

/-- The value of a run of digits, most significant first; other characters count as zero. -/
def digitsValue (digits : List Char) : Nat :=
  digits.foldl (fun value c => value * 10 + (Text.digitValue? c).getD 0) 0

/-- The leading digits of a text. -/
def leadingDigits (text : List Char) : List Char :=
  text.takeWhile Text.isDigit

/-- The mark in front of an exponent. -/
def isExponentMark (c : Char) : Bool := c == 'e' || c == 'E'

/-- A sign of a number. -/
def isSign (c : Char) : Bool := c == '+' || c == '-'

/-- The length of the exponent at the start of a text, zero if there is none. -/
def exponentLength : List Char -> Nat
  | [] => 0
  | mark :: rest =>
      let signLength := (rest.take 1).countP isSign
      let digits := leadingDigits (rest.drop signLength)
      if isExponentMark mark && !digits.isEmpty then 1 + signLength + digits.length else 0

/-- The length of the digits and the point at the start of a text, zero if there is no digit. -/
def mantissaLength (text : List Char) : Nat :=
  let before := leadingDigits text
  match text.drop before.length with
  | '.' :: rest =>
      let after := leadingDigits rest
      if before.isEmpty && after.isEmpty then 0 else before.length + 1 + after.length
  | _ => before.length

/-- The length of the longest decimal spelling at the start of a text, zero if there is none. -/
def spellingLength (text : List Char) : Nat :=
  match mantissaLength text with
  | 0 => 0
  | length + 1 => length + 1 + exponentLength (text.drop (length + 1))

/-- A whole number with an optional sign. -/
def signedValue : List Char -> Int
  | [] => 0
  | c :: digits =>
      if c = '-' then -(digitsValue digits : Int)
      else if c = '+' then digitsValue digits
      else digitsValue (c :: digits)

/-- The value of a decimal spelling. -/
def readSpelling (text : List Char) : R :=
  let mantissa := text.takeWhile fun c => !isExponentMark c
  let exponent := (text.drop mantissa.length).drop 1
  let before := leadingDigits mantissa
  let after := (mantissa.drop before.length).drop 1
  Scalar.ofDecimal (digitsValue (before ++ after)) (signedValue exponent - after.length)

/-- Lower case of ASCII, which is enough for the names of numbers. -/
def asciiLower (text : List Char) : List Char :=
  text.map Char.toLower

/--
The text without the underscores that stand singly between two digits; any
other underscore spoils the number.  `digitBefore` tells whether the previous
character was a digit.
-/
def joinDigitGroups? (digitBefore : Bool) : List Char -> Option (List Char)
  | [] => some []
  | '_' :: rest =>
      match rest with
      | next :: _ =>
          if digitBefore && Text.isDigit next then joinDigitGroups? false rest else none
      | [] => none
  | c :: rest => (joinDigitGroups? (Text.isDigit c) rest).map (c :: ·)

/-- The names of the infinite value. -/
def infinityNames : List (List Char) := [['i', 'n', 'f'], ['i', 'n', 'f', 'i', 'n', 'i', 't', 'y']]

/-- The name of the undefined value. -/
def undefinedName : List Char := ['n', 'a', 'n']

/-- A number without sign and blanks. -/
def readUnsigned? (text : List Char) : Option R :=
  if infinityNames.contains (asciiLower text) then some Scalar.infinity
  else if asciiLower text = undefinedName then some Scalar.undefined
  else
    (joinDigitGroups? false text).bind fun spelling =>
      if !spelling.isEmpty && spellingLength spelling == spelling.length then
        some (readSpelling spelling)
      else none

/-- The number that a whole text stands for, if it stands for one. -/
def read? (text : List Char) : Option R :=
  match Text.trim text with
  | '-' :: rest => (readUnsigned? rest).map Scalar.neg
  | '+' :: rest => readUnsigned? rest
  | rest => readUnsigned? rest

/-- The whole number that a text of digits stands for, if it stands for one. -/
def readDigits? (text : List Char) : Option Nat :=
  (joinDigitGroups? false text).bind fun digits =>
    if !digits.isEmpty && digits.all Text.isDigit then some (digitsValue digits) else none

/-- Whole numbers with more digits than this are not read. -/
def digitLimit : Nat := 4300

/-- The whole number that a whole text stands for, if it stands for one of bearable length. -/
def readInteger? (text : List Char) : Option Int :=
  if digitLimit < (text.filter Text.isDigit).length then none
  else
    match Text.trim text with
    | '-' :: rest => (readDigits? rest).map fun value => -(value : Int)
    | '+' :: rest => (readDigits? rest).map fun value => (value : Int)
    | rest => (readDigits? rest).map fun value => (value : Int)

end Number
end QuantityCalculus
