import QuantityCalculus.FileTree
import QuantityCalculus.Storage.LoadFault
import QuantityCalculus.Units.Batch

namespace QuantityCalculus
namespace FileTree

/-!
The catalogs that are kept between sessions, each in a directory of its own.

A directory holds one unit file for each unit, named for the symbol of the
unit: the display name on the first line and the declarations that start with
the unit on the lines after it.  A catalog is loaded as a whole or not at all,
and takes the place of one of the same name.
-/

variable {R : Type} [Scalar R]

/-- How the name of the directory of a catalog ends. -/
def catalogEnding : String := ".units"

/-- How the name of a unit file ends. -/
def unitEnding : String := ".unit"

/-- Where a catalog is kept. -/
def catalogPath (name : String) : String := name ++ catalogEnding

/-- The catalog that a directory keeps. -/
def catalogNameOf (directory : String) : String :=
  let name := nameOf directory
  if hasEnding catalogEnding name then
    String.ofList (name.toList.take (name.length - catalogEnding.length))
  else name

/-- The text of a unit file. -/
def unitText (registry : Registry R) (catalog : Catalog R) (symbol : String)
    (unit : UnitOfMeasure) : String :=
  String.join ((registry.nameOf unit ::
    (catalog.declarationsOf symbol).map RelationDeclaration.text).map (· ++ "\n"))

/-- Writes unit files up to the first that is refused. -/
def writeUnits (registry : Registry R) (catalog : Catalog R) (directory : String) :
    Table UnitOfMeasure -> FileTree -> FileTree × Bool
  | [], tree => (tree, true)
  | (symbol, unit) :: rest, tree =>
      match tree.write (childPath directory (symbol ++ unitEnding))
          (unitText registry catalog symbol unit) with
      | (tree, true) => writeUnits registry catalog directory rest tree
      | (tree, false) => (tree, false)

/-- Keeps a catalog of a registry under its name. -/
def saveCatalog (tree : FileTree) (registry : Registry R) (name : String) (catalog : Catalog R) :
    FileTree × Bool :=
  match tree.makeDirectory (catalogPath name) with
  | (tree, true) => writeUnits registry catalog (catalogPath name) catalog.units tree
  | (tree, false) => (tree, false)

/-- The batch with the unit files of some names in a directory. -/
def collectUnits (tree : FileTree) (places : Nat) (directory : String) :
    List String -> UnitBatch R -> Except LoadFault (UnitBatch R)
  | [], batch => .ok batch
  | name :: rest, batch =>
      match tree.text? (childPath directory name) with
      | none => .error (.notAText (childPath directory name))
      | some content => do
          let batch ← LoadFault.lift (batch.addFile places content (stem unitEnding name))
          tree.collectUnits places directory rest batch

/-- The registry with the catalog that a directory keeps. -/
def loadCatalog (tree : FileTree) (places : Nat) (registry : Registry R) (directory : String) :
    Except LoadFault (Registry R) := do
  let batch ← tree.collectUnits places directory (tree.namesEnding directory unitEnding)
    (UnitBatch.start (catalogNameOf directory) true)
  LoadFault.lift (batch.install registry)

/-- The directories that keep catalogs, in order. -/
def catalogDirectories (tree : FileTree) : List String :=
  (tree.namesEnding "" catalogEnding).filter tree.isDirectory

/-- The registry with the catalogs of some directories, and their names; the others are left out. -/
def loadCatalogs (tree : FileTree) (places : Nat) :
    List String -> Registry R -> Registry R × List String
  | [], registry => (registry, [])
  | directory :: rest, registry =>
      match tree.loadCatalog places registry directory with
      | .ok registry =>
          let (registry, names) := tree.loadCatalogs places rest registry
          (registry, catalogNameOf directory :: names)
      | .error _ => tree.loadCatalogs places rest registry

/-- The registry with all catalogs that a tree keeps, and their names. -/
def loadAllCatalogs (tree : FileTree) (places : Nat) (registry : Registry R) :
    Registry R × List String :=
  tree.loadCatalogs places tree.catalogDirectories registry

end FileTree
end QuantityCalculus
