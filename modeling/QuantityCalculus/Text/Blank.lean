import QuantityCalculus.Text.CharacterSet

namespace QuantityCalculus
namespace Text

/-!
Blanks, words and lines.

Every reader of this library first cuts its text: source lines are trimmed,
commands are cut into words, unit files and function files into lines.  The
cuts are stated on lists of characters, where they are ordinary recursions;
the versions on strings only wrap them.
-/

/-- White space of every script. -/
def blankCharacters : CharacterSet :=
  [(9, 13), (28, 32), (133, 133), (160, 160), (5760, 5760), (8192, 8202), (8232, 8233),
   (8239, 8239), (8287, 8287), (12288, 12288)]

/-- White space, line breaks included. -/
def isBlank (c : Char) : Bool :=
  blankCharacters.covers c

/-- Characters that end a line by themselves. -/
def lineBreaks : CharacterSet :=
  [(10, 13), (28, 30), (133, 133), (8232, 8233)]

/-- A character that ends a line. -/
def isLineBreak (c : Char) : Bool :=
  lineBreaks.covers c

/-- The text without its leading blanks. -/
def trimStart (text : List Char) : List Char :=
  text.dropWhile isBlank

/-- The text without its trailing blanks. -/
def trimEnd (text : List Char) : List Char :=
  (text.reverse.dropWhile isBlank).reverse

/-- The text without the blanks around it. -/
def trim (text : List Char) : List Char :=
  trimEnd (trimStart text)

/-- The words of a text, given the letters of an unfinished word, last one first. -/
def wordsAfter (unfinished : List Char) : List Char -> List (List Char)
  | [] => if unfinished.isEmpty then [] else [unfinished.reverse]
  | c :: rest =>
      if isBlank c then
        if unfinished.isEmpty then wordsAfter [] rest
        else unfinished.reverse :: wordsAfter [] rest
      else wordsAfter (c :: unfinished) rest

/-- The maximal runs of characters that are not blank. -/
def words (text : List Char) : List (List Char) :=
  wordsAfter [] text

/-- The lines of a text, given the characters of an unfinished line, last one first. -/
def linesAfter (unfinished : List Char) : List Char -> List (List Char)
  | [] => if unfinished.isEmpty then [] else [unfinished.reverse]
  | '\r' :: '\n' :: rest => unfinished.reverse :: linesAfter [] rest
  | c :: rest =>
      if isLineBreak c then unfinished.reverse :: linesAfter [] rest
      else linesAfter (c :: unfinished) rest

/--
The lines of a text without their ends.  A carriage return with a line feed is
one line end, and an end after the last line opens no further line.
-/
def lines (text : List Char) : List (List Char) :=
  linesAfter [] text

/-- The pieces around a separator, given an unfinished piece, last character first. -/
def piecesAfter (separator : Char) (unfinished : List Char) : List Char -> List (List Char)
  | [] => [unfinished.reverse]
  | c :: rest =>
      if c = separator then unfinished.reverse :: piecesAfter separator [] rest
      else piecesAfter separator (c :: unfinished) rest

/-- The pieces of a text around every occurrence of a separator, empty ones included. -/
def pieces (separator : Char) (text : List Char) : List (List Char) :=
  piecesAfter separator [] text

/-- A text in which every carriage return, with or without a line feed, is a line feed. -/
def plainLineEnds : List Char -> List Char
  | [] => []
  | '\r' :: '\n' :: rest => '\n' :: plainLineEnds rest
  | '\r' :: rest => '\n' :: plainLineEnds rest
  | c :: rest => c :: plainLineEnds rest

/-- Trimming of a string. -/
def trimmed (text : String) : String :=
  String.ofList (trim text.toList)

/-- The words of a string. -/
def wordsOf (text : String) : List String :=
  (words text.toList).map String.ofList

/-- The lines of a string. -/
def linesOf (text : String) : List String :=
  (lines text.toList).map String.ofList

/-- The pieces of a string around a separator. -/
def piecesOf (separator : Char) (text : String) : List String :=
  (pieces separator text.toList).map String.ofList

/-- The space of ASCII is a blank, and so is every line break. -/
theorem isBlank_of_isLineBreak {c : Char} (breaks : isLineBreak c = true) : isBlank c = true := by
  simp only [isLineBreak, isBlank, CharacterSet.covers, lineBreaks, blankCharacters, List.any_cons,
    List.any_nil, Bool.or_false, Bool.or_eq_true, Bool.and_eq_true, Nat.ble_eq] at *
  omega

end Text
end QuantityCalculus
