import QuantityCalculus.CommandLine.Conversation
import QuantityCalculus.Number.BinaryScalar

/-!
The program: the options of its arguments, and the lines of its input.

What a session keeps lives as long as the program runs.
-/

open QuantityCalculus
open QuantityCalculus.CommandLine

/-- Asks for lines and shows what they lead to, until the session or the input ends. -/
partial def talk (format : Format) (session : Session Float) : IO Unit := do
  if session.running then
    let output ← IO.getStdout
    output.putStr (prompt session)
    output.flush
    let line ← (← IO.getStdin).getLine
    if line.isEmpty then output.putStr farewell
    else
      let (shown, next) := answer format session line
      output.putStr shown
      talk format next

/-- Opens a session and talks, greeting first. -/
def openDialogue (request : Request) : IO UInt32 := do
  match request.session Float (some []) with
  | .error _ => return 1
  | .ok session => do
      IO.print greeting
      talk request.format session
      return 0

/-- Carries out a request that takes no input. -/
def carryOut (request : Request) : IO UInt32 := do
  match request.serve Float [] (some []) with
  | .error _ => return 1
  | .ok ending => do
      IO.print ending.output
      return ending.status.toUInt32

/-- Carries out what the arguments ask for. -/
def main (arguments : List String) : IO UInt32 := do
  match Request.ofArguments arguments with
  | .error _ => return 2
  | .ok request => if request.isDialogue then openDialogue request else carryOut request
