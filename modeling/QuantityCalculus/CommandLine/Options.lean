import QuantityCalculus.AngleMode
import QuantityCalculus.Number.Reading

namespace QuantityCalculus
namespace CommandLine

/-!
The options of the command line.

An option is written with its long name, of which any unambiguous start will
do, or with one letter.  Its value is the next argument, or is attached: after
an equals sign, or directly after a letter.  Letters of options without a value
may be run together, and an equals sign after the first of them is passed over.
An argument that starts like an option is never taken as the next argument that
is a value, unless it is a negative number or holds a space.  Two dashes that
are attached as a value stand for no value.  There are no arguments besides
options and their values.
-/

/-- The options. -/
inductive OptionName where
  | help | eval | format | angleMode | dataDirectory | keepNothing | places | verifyNothing
  | version | logLevel | logFile | selfCheck
deriving DecidableEq, Repr

namespace OptionName

/-- How the options are written. -/
def spellings : List (String × OptionName) :=
  [("-h", help), ("--help", help), ("-e", eval), ("--eval", eval), ("--format", format),
   ("--angle-mode", angleMode), ("--data-dir", dataDirectory), ("--no-persist", keepNothing),
   ("-p", places), ("--precision", places), ("--no-verify", verifyNothing), ("-v", version),
   ("--version", version), ("--log-level", logLevel), ("--log-file", logFile),
   ("--health-check", selfCheck)]

/-- Options with a value. -/
def takesValue : OptionName -> Bool
  | help | keepNothing | verifyNothing | version | selfCheck => false
  | eval | format | angleMode | dataDirectory | places | logLevel | logFile => true

/-- The option of a spelling. -/
def ofSpelling? (spelling : List Char) : Option OptionName :=
  (spellings.find? fun entry => entry.1.toList == spelling).map Prod.snd

/-- The options whose long name starts with a text. -/
def startingWith (start : List Char) : List OptionName :=
  (spellings.filter fun entry => start.isPrefixOf entry.1.toList).map Prod.snd

end OptionName

/-- Why arguments are refused. -/
inductive Misuse where
  | ambiguous (argument : String)
  | unrecognized (argument : String)
  | missingValue (name : OptionName)
  | needlessValue (name : OptionName) (value : String)
  | unusableValue (name : OptionName) (value : String)
deriving DecidableEq, Repr

/-- How results are shown. -/
inductive Format where
  | human | json
deriving DecidableEq, Repr

/-- What the arguments ask for. -/
structure Request where
  /-- Show a summary of the options. -/
  showsUsage : Bool
  showsVersion : Bool
  checksItself : Bool
  /--
  The lines to carry out, where a line may be missing; without any, lines are
  read from the input.
  -/
  lines : List (Option String)
  format : Format
  angleMode : Option AngleMode
  keeps : Bool
  places : Option Int
  verifies : Bool
deriving DecidableEq, Repr

/-- The request of no arguments. -/
def Request.initial : Request where
  showsUsage := false
  showsVersion := false
  checksItself := false
  lines := []
  format := .human
  angleMode := none
  keeps := true
  places := none
  verifies := true

/-- The levels of the log. -/
def logLevels : List String := ["DEBUG", "INFO", "WARNING", "ERROR"]

/-- The format of a word. -/
def Format.ofWord? : String -> Option Format
  | "human" => some .human
  | "json" => some .json
  | _ => none

/-- The angle mode of its exact name. -/
def angleModeOf? (word : String) : Option AngleMode :=
  [AngleMode.deg, .rad, .grad].find? fun mode => mode.name == word

/-- A request with an option without a value. -/
def Request.withOption (request : Request) : OptionName -> Request
  | .help => { request with showsUsage := true }
  | .version => { request with showsVersion := true }
  | .keepNothing => { request with keeps := false }
  | .verifyNothing => { request with verifies := false }
  | .selfCheck => { request with checksItself := true }
  | _ => request

/-- A request with an option and its value, if the option can have that value. -/
def Request.withText? (request : Request) (value : String) : OptionName -> Option Request
  | .eval => some { request with lines := request.lines ++ [some value] }
  | .format => (Format.ofWord? value).map fun format => { request with format }
  | .angleMode => (angleModeOf? value).map fun mode => { request with angleMode := some mode }
  | .places =>
      (Number.readInteger? value.toList).map fun places => { request with places := some places }
  | .logLevel => if logLevels.contains value then some request else none
  | _ => some request

/-- A request with an option whose value is missing, which takes back an earlier value. -/
def Request.withoutText (request : Request) : OptionName -> Request
  | .eval => { request with lines := request.lines ++ [none] }
  | .format => { request with format := .human }
  | .angleMode => { request with angleMode := none }
  | .places => { request with places := none }
  | _ => request

/-- What stands for no value when it is attached to an option. -/
def noValue : String := "--"

/-- A request with an option and its value. -/
def Request.withValue (request : Request) (name : OptionName) (value : String) :
    Except Misuse Request :=
  if value = noValue then .ok (request.withoutText name)
  else
    match request.withText? value name with
    | some request => .ok request
    | none => .error (.unusableValue name value)

/-! ## Arguments -/

/-- What an argument looks like. -/
inductive Argument where
  /-- An option by its long name, and what is attached to it. -/
  | long (name : OptionName) (attached : Option String)
  /-- An option by its letter, and what is attached to it. -/
  | letter (name : OptionName) (attached : List Char)
  /-- An option by its letter with an equals sign and nothing after it. -/
  | letterEquals (name : OptionName)
  | value
  /-- It starts like an option, but there is none. -/
  | unknown
deriving DecidableEq, Repr

/-- A text without a line break at its end. -/
def withoutLineBreak (text : List Char) : List Char :=
  if text.getLast? = some '\n' then text.dropLast else text

/--
A negative number: a minus sign and digits, perhaps with a point before the last
of them.  A line break may follow.
-/
def isNegativeNumber (argument : List Char) : Bool :=
  match withoutLineBreak argument with
  | '-' :: text =>
      let before := Number.leadingDigits text
      match text.drop before.length with
      | [] => !before.isEmpty
      | '.' :: after => !after.isEmpty && after.all Text.isDigit
      | _ => false
  | _ => false

/-- An argument that starts like an option, but is the spelling of none. -/
def classifyUnspelled (argument : List Char) : Argument :=
  if isNegativeNumber argument || argument.contains ' ' then .value else .unknown

/-- The text before the first equals sign, and after it, if there is one. -/
def splitAtEquals? (text : List Char) : Option (List Char × String) :=
  let before := text.takeWhile (· != '=')
  match text.drop before.length with
  | [] => none
  | _ :: after => some (before, String.ofList after)

/-- An argument with two dashes in front, by the options that it may start. -/
def classifyLong (argument : List Char) : Except Misuse Argument :=
  let (start, value) : List Char × Option String :=
    match splitAtEquals? argument with
    | some (before, after) => (before, some after)
    | none => (argument, none)
  match OptionName.startingWith start with
  | [] => .ok (classifyUnspelled argument)
  | [name] => .ok (.long name value)
  | _ => .error (.ambiguous (String.ofList argument))

/-- An argument with one dash in front, by the letter after it. -/
def classifyLetter (argument : List Char) (second : Char) (rest : List Char) : Argument :=
  match OptionName.ofSpelling? ['-', second] with
  | none => classifyUnspelled argument
  | some name =>
      match rest with
      | ['='] => .letterEquals name
      | '=' :: attached => .letter name attached
      | attached => .letter name attached

/-- What an argument looks like. -/
def classify (argument : List Char) : Except Misuse Argument :=
  match argument with
  | '-' :: '-' :: rest =>
      match OptionName.ofSpelling? ('-' :: '-' :: rest) with
      | some name => .ok (.long name none)
      | none =>
          match (splitAtEquals? argument).bind fun (before, after) =>
              (OptionName.ofSpelling? before).map fun name => (name, after) with
          | some (name, value) => .ok (.long name (some value))
          | none => classifyLong argument
  | '-' :: second :: rest => .ok (classifyLetter argument second rest)
  | _ => .ok .value

/-- What the end of a run of letters leaves to be done. -/
inductive LettersEnd where
  | done
  | needsValue (name : OptionName)

/-- A request with the options of a run of letters. -/
def Request.withLetters (request : Request) (name : OptionName) :
    List Char -> Except Misuse (Request × LettersEnd)
  | [] =>
      if name.takesValue then .ok (request, .needsValue name)
      else .ok (request.withOption name, .done)
  | letter :: rest =>
      if name.takesValue then do
        .ok (← request.withValue name (String.ofList (letter :: rest)), .done)
      else
        match OptionName.ofSpelling? ['-', letter] with
        | some next => (request.withOption name).withLetters next rest
        | none => .error (.needlessValue name (String.ofList (letter :: rest)))

/-- A request with the next argument as the value of an option, and the arguments after it. -/
def Request.withNext (request : Request) (name : OptionName) :
    List String -> Except Misuse (Request × List String)
  | [] => .error (.missingValue name)
  | next :: rest => do
      match ← classify next.toList with
      | .value => .ok (← request.withValue name next, rest)
      | _ => .error (.missingValue name)

/-- A request with an option that nothing is attached to, and the arguments after it. -/
def Request.withBare (request : Request) (name : OptionName) (rest : List String) :
    Except Misuse (Request × List String) :=
  if name.takesValue then request.withNext name rest
  else .ok (request.withOption name, rest)

/-- A request with one argument, and the arguments after it and its value. -/
def Request.withArgument (request : Request) (argument : String) (rest : List String) :
    Except Misuse (Request × List String) := do
  match ← classify argument.toList with
  | .long name none => request.withBare name rest
  | .long name (some value) =>
      if name.takesValue then .ok (← request.withValue name value, rest)
      else .error (.needlessValue name value)
  | .letterEquals name =>
      if name.takesValue then .ok (← request.withValue name "", rest)
      else .error (.needlessValue name "")
  | .letter name letters =>
      match ← request.withLetters name letters with
      | (request, .done) => .ok (request, rest)
      | (request, .needsValue name) => request.withNext name rest
  | .value | .unknown => .error (.unrecognized argument)

/-- A request with some arguments, each of which takes at most one more. -/
def Request.withArguments : Nat -> Request -> List String -> Except Misuse Request
  | _, request, [] => .ok request
  | 0, request, _ => .ok request
  | bound + 1, request, argument :: rest => do
      let (request, rest) ← request.withArgument argument rest
      withArguments bound request rest

/-- What some arguments ask for. -/
def Request.ofArguments (arguments : List String) : Except Misuse Request :=
  Request.withArguments arguments.length Request.initial arguments

end CommandLine
end QuantityCalculus
