import QuantityCalculus.FileTree
import QuantityCalculus.Function.Written
import QuantityCalculus.Storage.LoadFault

namespace QuantityCalculus
namespace FileTree

/-!
The functions that are kept between sessions, each in a text of its own.

Loading all functions passes over those whose text is refused, for its name,
its wording or its form.
-/

variable {R : Type} [Scalar R]

/-- How the name of the text of a function ends. -/
def functionEnding : String := ".math"

/-- Where a function is kept. -/
def functionPath (name : String) : String := name ++ functionEnding

/-- Keeps a function under a name. -/
def saveFunction (tree : FileTree) (places : Nat) (name : String)
    (definition : FunctionDefinition R) : FileTree × Bool :=
  tree.write (functionPath name) (definition.text places)

/-- The store with the function that is kept under a name. -/
def loadFunction (tree : FileTree) (store : FunctionStore R) (name : String) :
    Except LoadFault (FunctionStore R) :=
  match tree.entry? (functionPath name) with
  | none => .error (.failure (.unknownFunction name))
  | some .directory => .error (.notAText (functionPath name))
  | some (.text content) => LoadFault.lift (store.defineText name content)

/-- The names of the functions that are kept, in order. -/
def functionNames (tree : FileTree) : List String :=
  Text.sortedBy id ((tree.namesEnding "" functionEnding).map (stem functionEnding))

/-- A failure for which a function is passed over. -/
def isPassedOver (failure : Failure) : Bool :=
  [FailureKind.malformed, .parse, .validation].contains failure.kind

/-- The store with the functions of a list of names, and how many there are. -/
def loadFunctions (tree : FileTree) :
    List String -> FunctionStore R -> Except LoadFault (FunctionStore R × Nat)
  | [], store => .ok (store, 0)
  | name :: rest, store =>
      match tree.loadFunction store name with
      | .ok store => do
          let (store, count) ← tree.loadFunctions rest store
          .ok (store, count + 1)
      | .error (.failure failure) =>
          if isPassedOver failure then tree.loadFunctions rest store
          else .error (.failure failure)
      | .error fault => .error fault

/-- The store with all functions that a tree keeps, and how many there are. -/
def loadAllFunctions (tree : FileTree) (store : FunctionStore R) :
    Except LoadFault (FunctionStore R × Nat) :=
  tree.loadFunctions tree.functionNames store

/-- Forgets the function that is kept under a name. -/
def deleteFunction (tree : FileTree) (name : String) : FileTree × Bool :=
  tree.removeText (functionPath name)

/-- Keeps a function under another name. -/
def renameFunction (tree : FileTree) (old new : String) : FileTree × Bool :=
  tree.rename (functionPath old) (functionPath new)

end FileTree
end QuantityCalculus
