import QuantityCalculus.CommandLine.Options
import QuantityCalculus.JsonValue.Written
import QuantityCalculus.Session.Line
import QuantityCalculus.Session.Start

namespace QuantityCalculus
namespace CommandLine

/-!
What the program shows for its arguments and its input.

With lines among the arguments these are carried out, one after the other, and
the status tells whether one of them failed.  Without them the lines of the
input are carried out, each after a prompt, until the session or the input
ends.
-/

variable {R : Type} [Scalar R]

/-- A line of output. -/
def outputLine (line : String) : String := line ++ "\n"

/-- The lines that a session shows, in a format. -/
def Format.show (format : Format) (lines : List String) : String :=
  match format with
  | .human => String.join (lines.map outputLine)
  | .json =>
      let payload : JsonValue R := .object
        [("ok", .truth (!lines.any isFailureLine)), ("output", .list (lines.map .string))]
      outputLine payload.lineText

/-- The mark of a prompt, which may be left in front of a line among the arguments. -/
def promptMark : List Char := ['>', '>', '>']

/-- A line among the arguments without blanks and without the mark of a prompt. -/
def lineOfArgument (argument : String) : List Char :=
  let line := Text.trim argument.toList
  if promptMark.isPrefixOf line then Text.trim (line.drop promptMark.length) else line

/-- What is shown for a line that is empty. -/
def emptyLineMessage : String :=
  "Error: Empty input. Please enter a valid expression or command."

/-- What carrying out a line among the arguments shows, its status, and the session afterwards. -/
def runArgument (format : Format) (session : Session R) (argument : String) :
    String × Nat × Session R :=
  match lineOfArgument argument with
  | [] => (outputLine emptyLineMessage, 1, session)
  | line =>
      let (lines, session) := session.execute (String.ofList line)
      (format.show (R := R) lines, if lines.any isFailureLine then 1 else 0, session)

/-- What carrying out all lines among the arguments shows; the greatest status counts. -/
def runArguments (format : Format) : List String -> Session R -> String × Nat × Session R
  | [], session => ("", 0, session)
  | argument :: rest, session =>
      let (output, status, session) := runArgument format session argument
      let (more, worst, session) := runArguments format rest session
      (output ++ more, max status worst, session)

/-! ## The dialogue -/

/-- What greets the user. -/
def greeting : String :=
  outputLine "Unitcalc - type 'help' for commands, 'exit' to quit."

/-- What asks for a line. -/
def prompt (session : Session R) : String :=
  if session.isEditing then "... " else ">>> "

/-- What is shown when the input ends before the session does. -/
def farewell : String := "\nGoodbye.\n"

/-- What an input line shows, and the session afterwards. -/
def answer (format : Format) (session : Session R) (input : String) : String × Session R :=
  if (Text.trim input.toList).isEmpty then ("", session)
  else
    let (lines, session) := session.execute input
    (format.show (R := R) lines, session)

/-- What a dialogue over some input lines shows, and the session afterwards. -/
def converse (format : Format) : List String -> Session R -> String × Session R
  | input, session =>
      if !session.running then ("", session)
      else
        match input with
        | [] => (prompt session ++ farewell, session.keepingSettings)
        | line :: rest =>
            let (shown, next) := answer format session line
            let (more, last) := converse format rest next
            (prompt session ++ shown ++ more, last)

/-! ## The program -/

/-- The version of the program. -/
def version : String := "1.0.0"

/-- How many places literals are written with unless asked otherwise. -/
def defaultPlaces : Nat := 15

/-- The options of the session that a request asks for; only a positive count of places counts. -/
def Request.sessionOptions (request : Request) : SessionOptions where
  angleMode := request.angleMode
  places :=
    match request.places with
    | some (.ofNat (places + 1)) => places + 1
    | _ => defaultPlaces
  verifies := request.verifies

/-- How the program ends. -/
structure Ending where
  output : String
  status : Nat
  files : Option FileTree

/-- Whether a request asks for a dialogue: it has no line to carry out and asks for nothing else. -/
def Request.isDialogue (request : Request) : Bool :=
  request.lines.isEmpty
    && !(request.showsVersion || request.showsUsage || request.checksItself)

/-- The session that a request asks for; what is kept counts only if the request keeps things. -/
def Request.session (R : Type) [Scalar R] (request : Request) (files : Option FileTree) :
    Except LoadFault (Session R) :=
  Session.start request.sessionOptions (if request.keeps then files else none)

/-- Why the program breaks off. -/
inductive Breakdown where
  | load (fault : LoadFault)
  /-- A line among the arguments is missing. -/
  | missingLine
deriving DecidableEq, Repr

/-- The lines among the arguments, if none of them is missing. -/
def completeLines? : List (Option String) -> Option (List String)
  | [] => some []
  | line :: rest => do
      let line ← line
      let rest ← completeLines? rest
      return line :: rest

/-- What the program does for a request, with some input and with what is kept. -/
def Request.serve (R : Type) [Scalar R] (request : Request) (input : List String)
    (files : Option FileTree) : Except Breakdown Ending := do
  if request.showsVersion then .ok ⟨outputLine version, 0, files⟩
  else if request.showsUsage || request.checksItself then .ok ⟨"", 0, files⟩
  else
    let session ← (request.session R files).mapError Breakdown.load
    match completeLines? request.lines with
    | none => .error .missingLine
    | some [] =>
        let (shown, last) := converse request.format input session
        .ok ⟨greeting ++ shown, 0, last.files.or files⟩
    | some lines =>
        let (shown, status, last) := runArguments request.format lines session
        .ok ⟨shown, status, last.files.or files⟩

end CommandLine
end QuantityCalculus
