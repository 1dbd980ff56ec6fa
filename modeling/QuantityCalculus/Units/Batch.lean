import QuantityCalculus.Units.Registry

namespace QuantityCalculus

/-!
Batches: a whole catalog collected before anything of it takes effect.

The unit files of a catalog may refer to each other in any order, so units and
declarations are only collected at first.  Finishing the batch looks up every
unit a declaration names, among the units of the batch and, if asked for, among
those of the registry, and enters all relations or none.
-/

/-- A catalog being collected. -/
structure UnitBatch (R : Type) where
  catalog : String
  /-- Units that the batch does not define may come from the registry. -/
  sharesUnits : Bool
  /-- Symbols with their display names; the empty text for none. -/
  units : Table String
  declarations : List (RelationDeclaration R)
  finished : Bool

namespace UnitBatch

variable {R : Type}

/-- A batch without units. -/
def start (catalog : String) (sharesUnits : Bool) : UnitBatch R :=
  ⟨catalog, sharesUnits, [], [], false⟩

/-- A finished batch takes nothing more. -/
def requireOpen (batch : UnitBatch R) : Except Failure PUnit :=
  if batch.finished then .error (.batchFinished batch.catalog) else .ok ⟨⟩

/-- The batch with a unit; without a name it keeps an earlier one. -/
def declareUnit (batch : UnitBatch R) (symbol name : String) : Except Failure (UnitBatch R) := do
  batch.requireOpen
  if symbol = "" then .error .emptyUnitSymbol
  else
    let shown := if name = "" then (batch.units.get? symbol).getD "" else name
    .ok { batch with units := batch.units.set symbol shown }

/-- The batch with a declaration. -/
def addDeclaration (batch : UnitBatch R) (declaration : RelationDeclaration R) :
    Except Failure (UnitBatch R) := do
  batch.requireOpen
  .ok { batch with declarations := batch.declarations ++ [declaration] }

/-- The batch with the declaration of a line. -/
def addLine [Scalar R] (batch : UnitBatch R) (places : Nat) (line : String) :
    Except Failure (UnitBatch R) := do
  batch.addDeclaration (← RelationDeclaration.parse places line)

/-- The batch with the unit of a file and its declarations. -/
def addFile [Scalar R] (batch : UnitBatch R) (places : Nat) (text symbol : String) :
    Except Failure (UnitBatch R) := do
  batch.requireOpen
  let file ← UnitFile.parse places text
  let batch ← batch.declareUnit symbol file.name
  .ok { batch with declarations := batch.declarations ++ file.declarations }

/-- New units for all symbols of a batch, in order, and the registry that records them. -/
def createUnits (catalog : String) : Table String -> Registry R -> Table UnitOfMeasure × Registry R
  | [], registry => ([], registry)
  | (symbol, name) :: rest, registry =>
      let (unit, registry) := registry.createUnit catalog symbol name
      let (units, registry) := createUnits catalog rest registry
      ((symbol, unit) :: units, registry)

/-- The unit of a symbol as the declarations of a batch see it. -/
def unitFor (batch : UnitBatch R) (units : Table UnitOfMeasure) (registry : Registry R)
    (symbol : String) : Except Failure UnitOfMeasure :=
  let shared := if batch.sharesUnits then registry.findAny? symbol else none
  match (units.get? symbol).or shared with
  | some unit => .ok unit
  | none => .error (.missingBatchUnit symbol batch.catalog)

/--
The catalog of a batch, and the registry with its units and relations.  The
registry does not hold the catalog yet.
-/
def finish (batch : UnitBatch R) (registry : Registry R) :
    Except Failure (Catalog R × Registry R) := do
  batch.requireOpen
  let (units, recorded) := createUnits batch.catalog batch.units registry
  let resolved ← batch.declarations.mapM
    (Registry.resolveDeclaration (batch.unitFor units registry))
  let related ← Registry.enterAll resolved recorded
  .ok (⟨units, batch.declarations⟩, related)

/-- The registry with the catalog of a batch, in the place of one of the same name. -/
def install (batch : UnitBatch R) (registry : Registry R) : Except Failure (Registry R) := do
  let (catalog, registry) ← batch.finish registry
  .ok { registry with catalogs := registry.catalogs.set batch.catalog catalog }

/-- The batch after it was finished. -/
def close (batch : UnitBatch R) : UnitBatch R :=
  { batch with finished := true }

/-- The batch with a list of unit files, each with the symbol of its unit. -/
def addFiles [Scalar R] (places : Nat) :
    List (String × String) -> UnitBatch R -> Except Failure (UnitBatch R)
  | [], batch => .ok batch
  | (symbol, text) :: rest, batch => do addFiles places rest (← batch.addFile places text symbol)

end UnitBatch

/-- The unit files of the catalog that is there from the start. -/
def electricFiles : List (String × String) :=
  [("V", "Volt\nV*A=W\n"),
   ("A", "Ampere\n"),
   ("W", "Watt\n"),
   ("Wh", "Watt hour\nWh/h=W\n"),
   ("h", "Hour\nh*3600=s\n"),
   ("s", "Second\n"),
   ("Ω", "Ohm\nΩ*A=V\n")]

/-- The catalogs that are there from the start, with their unit files. -/
def builtInCatalogs : List (String × List (String × String)) :=
  [("electric", electricFiles)]

/-- The registry with the given catalogs, each from its unit files. -/
def Registry.installAll {R : Type} [Scalar R] (places : Nat) :
    List (String × List (String × String)) -> Registry R -> Except Failure (Registry R)
  | [], registry => .ok registry
  | (name, files) :: rest, registry => do
      let batch ← UnitBatch.addFiles places files (UnitBatch.start name true)
      installAll places rest (← batch.install registry)

/-- The registry with the catalogs that are there from the start. -/
def Registry.withBuiltIns {R : Type} [Scalar R] (places : Nat) (registry : Registry R) :
    Except Failure (Registry R) :=
  registry.installAll places builtInCatalogs

end QuantityCalculus
