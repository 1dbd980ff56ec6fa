import QuantityCalculus.JsonValue.Basic
import QuantityCalculus.Number.Reading

namespace QuantityCalculus
namespace JsonValue

/-!
JSON values read from text.

Besides the values of the format itself, the words for the values that are not
finite are read.  A field that occurs again in an object keeps its place and
takes the later value.  Escapes may name a character beyond the first plane by
two halves; a half without its partner stands for no character and is read as
the replacement character.

A text is read from its start on, and reading stops at the first fault that is
met: at what has no meaning there, or at a whole number that is written with
too many digits.
-/

/-- Why a text stands for no value. -/
inductive ReadingFault where
  | malformed
  /-- A whole number has more digits than are read. -/
  | numberTooLong
deriving DecidableEq, Repr

/-- What is read, if anything is; otherwise the text is malformed. -/
def orMalformed {α : Type} : Option α -> Except ReadingFault α
  | some value => .ok value
  | none => .error .malformed

/-- The blanks between the parts of a value. -/
def isSpacing (c : Char) : Bool :=
  c == ' ' || c == '\t' || c == '\n' || c == '\r'

/-- A text without the blanks at its start. -/
def skipSpacing (text : List Char) : List Char :=
  text.dropWhile isSpacing

/-! ## Texts -/

/-- The value of a hexadecimal digit. -/
def hexValue? (c : Char) : Option Nat :=
  if '0' ≤ c && c ≤ '9' then some (c.toNat - '0'.toNat)
  else if 'a' ≤ c && c ≤ 'f' then some (c.toNat - 'a'.toNat + 10)
  else if 'A' ≤ c && c ≤ 'F' then some (c.toNat - 'A'.toNat + 10)
  else none

/-- The value of four hexadecimal digits. -/
def hexUnit? (a b c d : Char) : Option Nat := do
  .some ((((← hexValue? a) * 16 + (← hexValue? b)) * 16 + (← hexValue? c)) * 16 + (← hexValue? d))

/-- The character of a single escape after the backslash. -/
def escape? : Char -> Option Char
  | '"' => some '"'
  | '\\' => some '\\'
  | '/' => some '/'
  | 'b' => some (Char.ofNat 8)
  | 'f' => some (Char.ofNat 12)
  | 'n' => some '\n'
  | 'r' => some '\r'
  | 't' => some '\t'
  | _ => none

/-- First and second halves of characters beyond the first plane. -/
def isFirstHalf (unit : Nat) : Bool := Nat.ble 0xD800 unit && Nat.ble unit 0xDBFF
def isSecondHalf (unit : Nat) : Bool := Nat.ble 0xDC00 unit && Nat.ble unit 0xDFFF

/-- The character of a unit on its own; a half of a character stands for none. -/
def unitCharacter (unit : Nat) : Char :=
  if isFirstHalf unit || isSecondHalf unit then Char.ofNat 0xFFFD else Char.ofNat unit

/-- The characters of some units, where two halves in their order make one character. -/
def joinUnits : List Nat -> List Char
  | [] => []
  | [unit] => [unitCharacter unit]
  | first :: second :: rest =>
      if isFirstHalf first && isSecondHalf second then
        Char.ofNat (0x10000 + (first - 0xD800) * 0x400 + (second - 0xDC00)) :: joinUnits rest
      else unitCharacter first :: joinUnits (second :: rest)

/-- The units of a text up to its closing quote, and what follows the quote. -/
def readUnits? : List Char -> Option (List Nat × List Char)
  | [] => none
  | '"' :: rest => some ([], rest)
  | '\\' :: 'u' :: a :: b :: c :: d :: rest => do
      let unit ← hexUnit? a b c d
      let (units, rest) ← readUnits? rest
      some (unit :: units, rest)
  | '\\' :: c :: rest => do
      let c ← escape? c
      let (units, rest) ← readUnits? rest
      some (c.toNat :: units, rest)
  | c :: rest => do
      if c.toNat < 32 then none
      else
        let (units, rest) ← readUnits? rest
        some (c.toNat :: units, rest)

/-- A text up to its closing quote, and what follows the quote. -/
def readText? (source : List Char) : Option (String × List Char) := do
  let (units, rest) ← readUnits? source
  some (String.ofList (joinUnits units), rest)

/-! ## Numbers and words -/

/-- A digit of a number. -/
def isNumberDigit (c : Char) : Bool := '0' ≤ c && c ≤ '9'

/-- The whole part of a number: a zero, or digits that do not start with one. -/
def wholeDigits : List Char -> List Char
  | [] => []
  | c :: rest =>
      if c = '0' then [c]
      else if isNumberDigit c then c :: rest.takeWhile isNumberDigit
      else []

/-- The fraction part at the start of a text, with its point, empty if there is none. -/
def fractionPart : List Char -> List Char
  | '.' :: rest =>
      let digits := rest.takeWhile isNumberDigit
      if digits.isEmpty then [] else '.' :: digits
  | _ => []

/-- The exponent at the start of a text, with its mark, empty if there is none. -/
def exponentPart : List Char -> List Char
  | [] => []
  | mark :: rest =>
      let sign := (rest.take 1).filter Number.isSign
      let digits := (rest.drop sign.length).takeWhile isNumberDigit
      if Number.isExponentMark mark && !digits.isEmpty then mark :: sign ++ digits else []

/-- The most digits that a whole number is read with. -/
def digitLimit : Nat := 4300

variable {R : Type} [Scalar R]

/-- A number at the start of a text, and what follows it. -/
def readNumber (text : List Char) : Except ReadingFault (JsonValue R × List Char) :=
  let sign := (text.take 1).filter (· == '-')
  let digits := wholeDigits (text.drop sign.length)
  let afterDigits := text.drop (sign.length + digits.length)
  let fraction := fractionPart afterDigits
  let afterFraction := afterDigits.drop fraction.length
  let exponent := exponentPart afterFraction
  let rest := afterFraction.drop exponent.length
  if digits.isEmpty then .error .malformed
  else if fraction.isEmpty && exponent.isEmpty then
    if digitLimit < digits.length then .error .numberTooLong
    else .ok (.whole (Number.signedValue (sign ++ digits)), rest)
  else
    orMalformed <| (Number.read? (sign ++ digits ++ fraction ++ exponent)).map fun value =>
      (.real value, rest)

/-- The words that stand for a value. -/
def valueWords : List (List Char × JsonValue R) :=
  [("null".toList, .null), ("true".toList, .truth true), ("false".toList, .truth false),
   ("NaN".toList, .real Scalar.undefined), ("Infinity".toList, .real Scalar.infinity),
   ("-Infinity".toList, .real (Scalar.neg Scalar.infinity))]

/-- A word or a number at the start of a text, and what follows it. -/
def readSimple (text : List Char) : Except ReadingFault (JsonValue R × List Char) :=
  match (valueWords (R := R)).find? fun entry => entry.1.isPrefixOf text with
  | some (word, value) => .ok (value, text.drop word.length)
  | none => readNumber text

/-! ## Values -/

mutual

/-- A value at the start of a text, and what follows it, with a bound on the parts inside. -/
def readValue : Nat -> List Char -> Except ReadingFault (JsonValue R × List Char)
  | 0, _ => .error .malformed
  | _ + 1, '"' :: rest =>
      (orMalformed (readText? rest)).map fun (read, rest) => (.string read, rest)
  | bound + 1, '[' :: rest =>
      match skipSpacing rest with
      | ']' :: rest => .ok (.list [], rest)
      | rest => (readItems bound rest).map fun (items, rest) => (.list items, rest)
  | bound + 1, '\x7b' :: rest =>
      match skipSpacing rest with
      | '\x7d' :: rest => .ok (.object [], rest)
      | rest =>
          (readFields bound rest).map fun (fields, rest) =>
            (.object (Table.update [] fields), rest)
  | _ + 1, text => readSimple text

/-- The items of a list from the first on, and what follows the list. -/
def readItems : Nat -> List Char -> Except ReadingFault (List (JsonValue R) × List Char)
  | 0, _ => .error .malformed
  | bound + 1, text =>
      (readValue bound text).bind fun (item, rest) =>
        match skipSpacing rest with
        | ']' :: rest => .ok ([item], rest)
        | ',' :: rest =>
            (readItems bound (skipSpacing rest)).map fun (items, rest) => (item :: items, rest)
        | _ => .error .malformed

/-- The fields of an object from the first on, and what follows the object. -/
def readFields : Nat -> List Char -> Except ReadingFault (List (String × JsonValue R) × List Char)
  | bound + 1, '"' :: text =>
      (orMalformed (readText? text)).bind fun (name, rest) =>
        match skipSpacing rest with
        | ':' :: rest =>
            (readValue bound (skipSpacing rest)).bind fun (value, rest) =>
              match skipSpacing rest with
              | '\x7d' :: rest => .ok ([(name, value)], rest)
              | ',' :: rest =>
                  (readFields bound (skipSpacing rest)).map fun (fields, rest) =>
                    ((name, value) :: fields, rest)
              | _ => .error .malformed
        | _ => .error .malformed
  | _, _ => .error .malformed

end

/--
The value that a whole text stands for, if it stands for one.  Each part of a
container takes up at least one character, and opens at most two further steps.
-/
def read (text : List Char) : Except ReadingFault (JsonValue R) :=
  (readValue (2 * text.length + 1) (skipSpacing text)).bind fun (value, rest) =>
    if (skipSpacing rest).isEmpty then .ok value else .error .malformed

end JsonValue
end QuantityCalculus
