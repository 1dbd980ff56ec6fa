import QuantityCalculus.Session.Command

namespace QuantityCalculus

/-!
Lines of a session.

A line whose first word is a command carries it out, unless what follows shows
that the word is meant as a name in an expression.  Any other line is a
statement.  A failure is shown as a line, and the session goes on.
-/

/-- Signs that make an expression of what stands before them. -/
def continuingSigns : List Char :=
  ['=', '+', '-', '*', '/', '%', '^', '!', ':', '[', '(']

/-- The start of an option of a command. -/
def optionStart : List Char := ['-', '-']

/-- What follows a word makes an expression of it. -/
def continuesExpression (rest : List Char) : Bool :=
  match Text.trimStart rest with
  | [] => false
  | c :: text => !optionStart.isPrefixOf (c :: text) && continuingSigns.contains c

/-- The first word of a line, and what follows the space after it. -/
def firstWord (line : List Char) : List Char × List Char :=
  let word := line.takeWhile (· != ' ')
  (word, line.drop (word.length + 1))

/-- A line as the session takes it: a command with its words, or a statement. -/
inductive Line where
  | command (command : Command) (words : List String)
  | statement (source : String)
deriving DecidableEq, Repr

/-- What a line without blanks around it stands for. -/
def Line.ofText (line : List Char) : Line :=
  let (word, rest) := firstWord line
  match Command.ofWord? (Text.lowerCase (String.ofList word)) with
  | some found =>
      if continuesExpression rest then .statement (String.ofList line)
      else .command found ((Text.words rest).map String.ofList)
  | none => .statement (String.ofList line)

variable {R : Type} [Scalar R]

/-- Carries out a line. -/
def Line.run : Line -> Action R (List String)
  | .command found words => found.run words
  | .statement source => do Action.enterStatement (← Source.parse source)

/-- How a failure is shown. -/
def failureLine (failure : Failure) : String :=
  "Error: " ++ failure.message

/-- A shown line tells of a failure. -/
def isFailureLine (line : String) : Bool :=
  "Error:".toList.isPrefixOf line.toList

/-- The lines that an input line shows, and the session afterwards. -/
def Session.execute (session : Session R) (input : String) : List String × Session R :=
  match Text.trim input.toList with
  | [] => ([], session)
  | line =>
      match (Line.ofText line).run session with
      | (.ok lines, session) => (lines, session)
      | (.error failure, session) => ([failureLine failure], session)

end QuantityCalculus
