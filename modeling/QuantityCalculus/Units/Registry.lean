import QuantityCalculus.Quantity
import QuantityCalculus.Table
import QuantityCalculus.Text.Ordering
import QuantityCalculus.Units.Declaration

namespace QuantityCalculus

/-!
The registry: all catalogs of units, and the relations between units.

A declared relation is entered together with its closure, so that it can be
used from each of the units it joins:

    a * b = c   enters   a * b = c,  b * a = c,  c / a = b,  c / b = a
    a / b = c   enters   a / b = c,  a / c = b,  c * b = a,  b * c = a
    a * k = c   enters   a * k = c,  c / k = a,  and likewise for a / k = c

Each unit holds the relations that start with it.  A relation names its other
operand by label and its result by definition, so a unit of a replaced catalog
stays what it was for those who still refer to it, and a newer unit of the same
label is met under the same name.
-/

/-- What a relation is looked up by: the other operand, none for a number, and the operation. -/
structure RelationKey where
  other : Option UnitLabel
  op : UnitOperator
deriving DecidableEq, Repr

/-- What a relation says: the operation on the values, the number it uses, and the result. -/
structure Relation (R : Type) where
  op : UnitOperator
  result : UnitOfMeasure
  factor : Option R
deriving DecidableEq, Repr

/-- A unit as it was defined, with the relations that start with it. -/
structure UnitRecord (R : Type) where
  unit : UnitOfMeasure
  name : String
  relations : List (RelationKey × Relation R)
deriving DecidableEq, Repr

/-- The units of a catalog by symbol, and its declarations in order. -/
structure Catalog (R : Type) where
  units : Table UnitOfMeasure
  declarations : List (RelationDeclaration R)
deriving DecidableEq, Repr

/-- Every unit that was ever defined, and the catalogs in force. -/
structure Registry (R : Type) where
  records : List (UnitRecord R)
  catalogs : Table (Catalog R)
deriving DecidableEq, Repr

/-! ## Relation tables -/

section Relations

variable {R : Type}

/-- The relation under a key. -/
def relationAt? (key : RelationKey) : List (RelationKey × Relation R) -> Option (Relation R)
  | [] => none
  | (other, relation) :: rest => if other = key then some relation else relationAt? key rest

/-- The relations with one more; an earlier one under the same key gives way. -/
def enterRelation (key : RelationKey) (relation : Relation R) :
    List (RelationKey × Relation R) -> List (RelationKey × Relation R)
  | [] => [(key, relation)]
  | (other, old) :: rest =>
      if other = key then (key, relation) :: rest
      else (other, old) :: enterRelation key relation rest

theorem relationAt?_enterRelation (key other : RelationKey) (relation : Relation R)
    (relations : List (RelationKey × Relation R)) :
    relationAt? other (enterRelation key relation relations) =
      if key = other then some relation else relationAt? other relations := by
  induction relations with
  | nil => simp [enterRelation, relationAt?]
  | cons entry rest ih =>
      rcases entry with ⟨found, old⟩
      by_cases same : found = key
      · subst same
        by_cases met : found = other <;> simp [enterRelation, relationAt?, met]
      · by_cases met : found = other
        · subst met
          simp [enterRelation, relationAt?, same, Ne.symm same]
        · simp [enterRelation, relationAt?, same, met, ih]

end Relations

namespace Registry

variable {R : Type}

/-- The registry without catalogs. -/
def empty : Registry R := ⟨[], []⟩

/-- The record of a unit. -/
def record? (registry : Registry R) (unit : UnitOfMeasure) : Option (UnitRecord R) :=
  registry.records.find? fun record => record.unit == unit

/-- The display name of a unit. -/
def nameOf (registry : Registry R) (unit : UnitOfMeasure) : String :=
  ((registry.record? unit).map UnitRecord.name).getD unit.label.symbol

/-- The relations that start with a unit. -/
def relationsOf (registry : Registry R) (unit : UnitOfMeasure) :
    List (RelationKey × Relation R) :=
  ((registry.record? unit).map UnitRecord.relations).getD []

/-- The relation that starts with a unit, under a key. -/
def relation? (registry : Registry R) (unit : UnitOfMeasure) (key : RelationKey) :
    Option (Relation R) :=
  relationAt? key (registry.relationsOf unit)

/-- The registry with the record of one unit changed. -/
def updateRecord (registry : Registry R) (unit : UnitOfMeasure)
    (change : UnitRecord R -> UnitRecord R) : Registry R :=
  { registry with
    records := registry.records.map fun record =>
      if record.unit = unit then change record else record }

/-- The registry with a relation that starts with a unit; a plain number starts none. -/
def enter (unit : UnitOfMeasure) (key : RelationKey) (relation : Relation R)
    (registry : Registry R) : Except Failure (Registry R) :=
  if unit.isDimensionless then .error .relationOnDimensionless
  else .ok <| registry.updateRecord unit fun record =>
    { record with relations := enterRelation key relation record.relations }

/-- The registry with a relation between two units. -/
def enterPair (left : UnitOfMeasure) (op : UnitOperator) (right result : UnitOfMeasure)
    (registry : Registry R) : Except Failure (Registry R) :=
  registry.enter left ⟨some right.label, op⟩ ⟨op, result, none⟩

/-- The registry with `left * right = result` and its closure. -/
def addProduct (left right result : UnitOfMeasure) (registry : Registry R) :
    Except Failure (Registry R) := do
  let registry ← registry.enterPair left .times right result
  let registry ← registry.enterPair right .times left result
  let registry ← registry.enterPair result .per left right
  registry.enterPair result .per right left

/-- The registry with `left / right = result` and its closure. -/
def addQuotient (left right result : UnitOfMeasure) (registry : Registry R) :
    Except Failure (Registry R) := do
  let registry ← registry.enterPair left .per right result
  let registry ← registry.enterPair left .per result right
  let registry ← registry.enterPair result .times right left
  registry.enterPair right .times result left

/-- The registry with `unit op factor = result` and its inverse. -/
def addScaling (unit : UnitOfMeasure) (op : UnitOperator) (factor : R) (result : UnitOfMeasure)
    (registry : Registry R) : Except Failure (Registry R) := do
  let registry ← registry.enter unit ⟨none, op⟩ ⟨op, result, some factor⟩
  registry.enter result ⟨none, op.inverse⟩ ⟨op.inverse, unit, some factor⟩

/-! ## Catalogs and units -/

/-- The catalog of a name. -/
def catalog (registry : Registry R) (name : String) : Except Failure (Catalog R) :=
  match registry.catalogs.get? name with
  | some catalog => .ok catalog
  | none => .error (.unknownCatalog name)

/-- The registry without the catalog of a name. -/
def removeCatalog (registry : Registry R) (name : String) : Except Failure (Registry R) := do
  let _ ← registry.catalog name
  .ok { registry with catalogs := registry.catalogs.remove name }

/-- A new unit of a catalog, and the registry that records it. -/
def createUnit (registry : Registry R) (catalog symbol : String) (name : String) :
    UnitOfMeasure × Registry R :=
  let unit : UnitOfMeasure := ⟨⟨catalog, symbol⟩, registry.records.length⟩
  let shown := if name = "" then symbol else name
  (unit, { registry with records := registry.records ++ [⟨unit, shown, []⟩] })

/--
Defines a unit in a catalog, which is created if it is not there.  A unit that
is defined again keeps its relations and takes the new display name, if one is
given; no name is given by the empty text.
-/
def defineUnit (registry : Registry R) (catalog symbol : String) (name : String) :
    Except Failure (UnitOfMeasure × Registry R) :=
  if symbol = "" then .error .emptyUnitSymbol
  else
    let found := (registry.catalogs.get? catalog).getD ⟨[], []⟩
    match found.units.get? symbol with
    | some unit =>
        .ok (unit, if name = "" then registry
          else registry.updateRecord unit fun record => { record with name })
    | none =>
        let (unit, registry) := registry.createUnit catalog symbol name
        let found := { found with units := found.units.set symbol unit }
        .ok (unit, { registry with catalogs := registry.catalogs.set catalog found })

/-- The first unit of a symbol in the catalogs of a list. -/
def unitIn? (symbol : String) : List (Catalog R) -> Option UnitOfMeasure
  | [] => none
  | catalog :: rest => (catalog.units.get? symbol).or (unitIn? symbol rest)

/-- The first unit of a symbol in any catalog. -/
def findAny? (registry : Registry R) (symbol : String) : Option UnitOfMeasure :=
  unitIn? symbol (registry.catalogs.map Prod.snd)

/-- The catalogs that are enabled. -/
def enabledCatalogs (registry : Registry R) (enabled : List String) : List (Catalog R) :=
  (registry.catalogs.filter fun entry => enabled.contains entry.1).map Prod.snd

/-! ## Declarations -/

/-- A declaration whose units are known. -/
structure ResolvedDeclaration (R : Type) where
  declaration : RelationDeclaration R
  subject : UnitOfMeasure
  operand : Option UnitOfMeasure
  result : UnitOfMeasure

/-- The units that a declaration names. -/
def resolveDeclaration (unitOf : String -> Except Failure UnitOfMeasure)
    (declaration : RelationDeclaration R) : Except Failure (ResolvedDeclaration R) := do
  let subject ← unitOf declaration.subject
  let result ← unitOf declaration.result
  match declaration.operand with
  | .unit symbol => do
      let operand ← unitOf symbol
      .ok ⟨declaration, subject, some operand, result⟩
  | .factor _ => .ok ⟨declaration, subject, none, result⟩

/-- The registry with one resolved declaration and its closure. -/
def enterDeclaration (resolved : ResolvedDeclaration R) (registry : Registry R) :
    Except Failure (Registry R) :=
  match resolved.declaration.operand, resolved.operand with
  | .factor factor, _ =>
      registry.addScaling resolved.subject resolved.declaration.op factor resolved.result
  | .unit _, some operand =>
      match resolved.declaration.op with
      | .times => registry.addProduct resolved.subject operand resolved.result
      | .per => registry.addQuotient resolved.subject operand resolved.result
  | .unit _, none => .ok registry

/-- The registry with all resolved declarations, in order. -/
def enterAll : List (ResolvedDeclaration R) -> Registry R -> Except Failure (Registry R)
  | [], registry => .ok registry
  | resolved :: rest, registry => do enterAll rest (← registry.enterDeclaration resolved)

/-- The unit of a symbol as a catalog sees it: its own first, then any other. -/
def unitFor (registry : Registry R) (catalog : Catalog R) (symbol : String) :
    Except Failure UnitOfMeasure :=
  match (catalog.units.get? symbol).or (registry.findAny? symbol) with
  | some unit => .ok unit
  | none => .error (.missingUnit symbol)

/-- Enters a declaration made in a catalog; nothing changes when a unit is missing. -/
def defineRelation [Scalar R] (registry : Registry R) (places : Nat) (name line : String) :
    Except Failure (Registry R) := do
  let catalog ← registry.catalog name
  let declaration ← RelationDeclaration.parse places line
  let resolved ← resolveDeclaration (registry.unitFor catalog) declaration
  let registry ← registry.enterDeclaration resolved
  let catalog := { catalog with declarations := catalog.declarations ++ [declaration] }
  .ok { registry with catalogs := registry.catalogs.set name catalog }

/-! ## Arithmetic -/

/-- The first reading of a symbol as a magnitude in front of a unit or of nothing. -/
def readScaled? (catalogs : List (Catalog R)) :
    List (Magnitude × String) -> Option (Magnitude × UnitOfMeasure)
  | [] => none
  | (magnitude, rest) :: others =>
      if rest = "" then some (magnitude, .dimensionless)
      else
        match unitIn? rest catalogs with
        | some unit => some (magnitude, unit)
        | none => readScaled? catalogs others

/--
The magnitude and unit that a symbol stands for.  A unit of that very symbol
wins over a magnitude in front of a shorter one, and a magnitude alone scales a
plain number.
-/
def resolve (registry : Registry R) (symbol : String) (enabled : List String) :
    Except Failure (Magnitude × UnitOfMeasure) :=
  let catalogs := registry.enabledCatalogs enabled
  match unitIn? symbol catalogs with
  | some unit => .ok (.plain, unit)
  | none =>
      match readScaled? catalogs (Magnitude.splitSymbol symbol) with
      | some reading => .ok reading
      | none => .error (.unknownUnit symbol)

variable [Scalar R]

/-- A relation applied to plain values; a number in the relation takes the place of the second. -/
def apply (relation : Relation R) (left right : R) : R :=
  relation.op.operator.apply left (relation.factor.getD right)

/--
The product or quotient of two quantities, normalized.  A plain number scales
the other operand; two units need a declared relation.
-/
def combine (registry : Registry R) (op : UnitOperator) (left right : Quantity R) :
    Except Failure (Quantity R) :=
  if right.isDimensionless then
    .ok (left.withValue (op.operator.apply left.base right.base))
  else if left.isDimensionless then
    .ok (right.withValue (op.operator.apply left.base right.base))
  else
    match registry.relation? left.unit ⟨some right.unit.label, op⟩ with
    | none =>
        .error (.noUnitRelation left.unit.label.symbol op.symbol right.unit.label.symbol)
    | some relation =>
        .ok (Quantity.ofUnit (apply relation left.base right.base) relation.result).normalize

/-- A number to the right scales. -/
theorem combine_number {registry : Registry R} (op : UnitOperator) (left : Quantity R)
    {right : Quantity R} (number : right.isDimensionless = true) :
    registry.combine op left right =
      .ok (left.withValue (op.operator.apply left.base right.base)) :=
  if_pos number

/-- A number to the left of a quantity with a unit scales as well. -/
theorem number_combine {registry : Registry R} (op : UnitOperator) {left right : Quantity R}
    (number : left.isDimensionless = true) (hasUnit : right.isDimensionless = false) :
    registry.combine op left right =
      .ok (right.withValue (op.operator.apply left.base right.base)) := by
  rw [combine, hasUnit, if_neg Bool.false_ne_true, if_pos number]

/-- Two quantities combined by an operator; only products and quotients can be. -/
def combineBy (registry : Registry R) (op : Operator) (left right : Quantity R) :
    Except Failure (Quantity R) :=
  match UnitOperator.ofOperator? op with
  | some op => registry.combine op left right
  | none => .error (.operatorOnUnits op.symbol)

/-- The scaling that leads from one unit to another, a multiplication before a division. -/
def scaling? (registry : Registry R) (source target : UnitOfMeasure) : Option (Relation R) :=
  [UnitOperator.times, .per].findSome? fun op =>
    (registry.relation? source ⟨none, op⟩).bind fun relation =>
      if relation.result.same target then some relation else none

/--
A quantity expressed under a symbol, not normalized.  A declared scaling
between the two units converts the value; otherwise the number stays as it is.
-/
def convert (registry : Registry R) (quantity : Quantity R) (symbol : String)
    (enabled : List String) : Except Failure (Quantity R) := do
  let (magnitude, unit) ← registry.resolve symbol enabled
  let scaling :=
    if unit.same quantity.unit || quantity.isDimensionless then none
    else registry.scaling? quantity.unit unit
  match scaling with
  | some relation =>
      let base := apply relation quantity.base (Scalar.ofInt 0)
      .ok ⟨Magnitude.rebase base .plain magnitude, unit, magnitude⟩
  | none => .ok ⟨quantity.value, unit, magnitude⟩

/-- The relations that start with a unit, in the order of the labels and signs. -/
def sortedRelations (registry : Registry R) (unit : UnitOfMeasure) :
    List (RelationKey × Relation R) :=
  let part (choose : UnitLabel -> String) (entry : RelationKey × Relation R) : String :=
    (entry.1.other.map choose).getD ""
  Text.sortedBy (part UnitLabel.catalog) <| Text.sortedBy (part UnitLabel.symbol) <|
    Text.sortedBy (fun entry => entry.1.op.symbol) (registry.relationsOf unit)

end Registry

namespace Catalog

variable {R : Type}

/-- The declarations of a catalog that start with a symbol, in order. -/
def declarationsOf (catalog : Catalog R) (symbol : String) : List (RelationDeclaration R) :=
  catalog.declarations.filter fun declaration => declaration.subject == symbol

/-- A catalog on one line, by its name and its symbols. -/
def describe (name : String) (catalog : Catalog R) : String :=
  "UnitCatalog(" ++ Text.quoted name ++ ", units="
    ++ Text.quotedNames (Text.sortedNames catalog.units.keys) ++ ")"

end Catalog
end QuantityCalculus
