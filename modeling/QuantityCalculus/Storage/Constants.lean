import QuantityCalculus.FileTree
import QuantityCalculus.Function.Written
import QuantityCalculus.Storage.LoadFault

namespace QuantityCalculus
namespace FileTree

/-!
The constants that are kept between sessions.

Each constant is one line `name = value`.  Lines that are malformed, blank or
comments are passed over; a name that occurs again takes the later value.  The
constants that are always there are never kept.
-/

variable {R : Type} [Scalar R]

/-- Where constants are kept. -/
def constantsPath : String := "constants.vars"

/-- The constant that a line defines, if it defines one. -/
def readConstant? (line : List Char) : Option (String × R) := do
  if (Text.trimStart line).head? = some '#' then none
  else
    let (name, value) ← assignment? line
    some (name, ← Number.read? value)

/-- The constants that a text defines. -/
def readConstants (content : String) : Table R :=
  (Text.lines content.toList).foldl (fun constants line =>
    match readConstant? line with
    | some (name, value) => constants.set name value
    | none => constants) []

/-- The line of a constant. -/
def constantLine (entry : String × R) : String :=
  entry.1 ++ " = " ++ String.ofList (Scalar.shortest entry.2) ++ "\n"

/-- The text that keeps some constants, in the order of their names. -/
def constantsText (constants : Table R) : String :=
  String.join ((Text.sortedBy Prod.fst
    (constants.filter fun entry => !builtInConstants.contains entry.1)).map constantLine)

/-- The constants that a tree keeps. -/
def loadConstants (tree : FileTree) : Except LoadFault (Table R) :=
  match tree.entry? constantsPath with
  | none => .ok []
  | some (.text content) => .ok (readConstants content)
  | some .directory => .error (.notAText constantsPath)

/-- Keeps some constants. -/
def saveConstants (tree : FileTree) (constants : Table R) : FileTree × Bool :=
  tree.write constantsPath (constantsText constants)

end FileTree
end QuantityCalculus
