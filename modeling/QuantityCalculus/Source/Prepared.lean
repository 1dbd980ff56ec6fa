import QuantityCalculus.Failure
import QuantityCalculus.Source.Brackets
import QuantityCalculus.Text.Blank

namespace QuantityCalculus
namespace Source

/-!
Prepared source text.

Before a text is cut into tokens it loses its surrounding blanks and a prompt
that was copied with it, and the signs that people type or paste are replaced
by the plain ones: typographic operators, superscript exponents and the root
sign.  All replacements are textual.  Positions in later failures count the
characters of the prepared text.
-/

/-- The greatest number of characters of a source text. -/
def lengthLimit : Nat := 10000

/-- The plain operator for a typographic one. -/
def plainOperator (c : Char) : Char :=
  if c = '×' || c = '·' || c = '⋅' then '*'
  else if c = '÷' then '/'
  else if c = '−' || c = '–' then '-'
  else c

/-- The plain character for a superscript one. -/
def superscript? : Char -> Option Char
  | '⁰' => some '0'
  | '¹' => some '1'
  | '²' => some '2'
  | '³' => some '3'
  | '⁴' => some '4'
  | '⁵' => some '5'
  | '⁶' => some '6'
  | '⁷' => some '7'
  | '⁸' => some '8'
  | '⁹' => some '9'
  | '⁻' => some '-'
  | _ => none

/--
The text with every run of superscripts written as a power.  The sign of the
power stands in front of the first superscript of a run, so it is left out
when the character before was a superscript too.
-/
def lowerSuperscripts (inRun : Bool) : List Char -> List Char
  | [] => []
  | c :: rest =>
      match superscript? c with
      | some plain =>
          if inRun then plain :: lowerSuperscripts true rest
          else '^' :: plain :: lowerSuperscripts true rest
      | none => c :: lowerSuperscripts false rest

/-- The root sign. -/
def rootSign : Char := '√'

/--
The text with every root sign in front of an opening parenthesis written as a
word.  The first argument counts the characters that were already replaced.
-/
def nameRootCalls : Nat -> List Char -> List Char
  | _, [] => []
  | replaced + 1, _ :: rest => nameRootCalls replaced rest
  | 0, c :: rest =>
      let blanks := rest.takeWhile Text.isBlank
      if c = rootSign && (rest.drop blanks.length).head? == some '(' then
        "sqrt(".toList ++ nameRootCalls (blanks.length + 1) rest
      else c :: nameRootCalls 0 rest

/-- Characters of the simple operand of a root sign. -/
def isRootOperand (c : Char) : Bool :=
  c.isAlphanum || c == '_' || c == '.'

/--
The text with every root sign in front of a name or number written as a call.
The first argument counts the characters that were already replaced.
-/
def nameRootOperands : Nat -> List Char -> List Char
  | _, [] => []
  | replaced + 1, _ :: rest => nameRootOperands replaced rest
  | 0, c :: rest =>
      let blanks := rest.takeWhile Text.isBlank
      let operand := (rest.drop blanks.length).takeWhile isRootOperand
      if c = rootSign && !operand.isEmpty then
        "sqrt(".toList ++ operand ++ ')' :: nameRootOperands (blanks.length + operand.length) rest
      else c :: nameRootOperands 0 rest

/-- A prompt that was copied together with its line. -/
def prompt : List Char := ['>', '>', '>']

/-- The text without surrounding blanks and without a leading prompt. -/
def bare (text : List Char) : List Char :=
  let text := Text.trim text
  if text.take 3 = prompt then Text.trim (text.drop 3) else text

/-- The text with plain operators, powers and roots. -/
def plainSigns (text : List Char) : List Char :=
  nameRootOperands 0 (nameRootCalls 0 (lowerSuperscripts false (text.map plainOperator)))

/-- The prepared form of a source text. -/
def prepare (source : List Char) : Except Failure (List Char) :=
  let text := bare source
  if text.isEmpty then .error .emptyInput
  else if lengthLimit < text.length then .error (.tooLong lengthLimit)
  else
    let prepared := plainSigns text
    match bracketFault? prepared with
    | some position => .error (.unbalanced position)
    | none => .ok prepared

end Source
end QuantityCalculus
