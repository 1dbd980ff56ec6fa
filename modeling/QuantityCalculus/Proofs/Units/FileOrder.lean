import Mathlib.Data.List.Nodup
import Mathlib.Data.Set.Function
import QuantityCalculus.Proofs.Units.Dimensions

namespace QuantityCalculus

/-!
# Unit files in any order

A batch looks nothing up before it is finished, so its unit files may refer to each other
however they are ordered.  Each file adds one unit and its declarations to the batch,
whatever was collected before.  Files in another order therefore make a batch with the same
units and the same declarations in another order.

The order of the units shows in the editions that they are given.  What two orders make is
compared by a renumbering, which leads from each new unit to the new unit of the same symbol
and leaves the units that were there before as they are.  The order of the declarations
shows only where two of them write different relations under one key of a unit.
-/

variable {R : Type}

/-! ## Computations over lists -/

/-- What succeeds for the members of a list in one order succeeds for them in any order. -/
theorem exists_mapM_perm {α β : Type} {f : α -> Except Failure β} {items others : List α}
    {results : List β} (reordered : items.Perm others) (succeeded : items.mapM f = .ok results) :
    ∃ otherResults, others.mapM f = .ok otherResults ∧ results.Perm otherResults := by
  have both := List.perm_comp_forall₂ reordered.symm (mapM_eq_ok_iff.mp succeeded)
  rcases both with ⟨otherResults, succeeded, perm⟩
  exact ⟨otherResults, mapM_eq_ok_iff.mpr succeeded, perm.symm⟩

/-- A computation whose results are changed for each member has its whole result changed. -/
theorem mapM_map {α β γ : Type} {f : α -> Except Failure β} {g : α -> Except Failure γ}
    {change : β -> γ} (same : forall item, g item = (f item).map change) (items : List α) :
    items.mapM g = (items.mapM f).map (List.map change) := by
  induction items with
  | nil => rfl
  | cons first rest inductionHypothesis =>
      rw [List.mapM_cons, List.mapM_cons, inductionHypothesis, same]
      cases f first with
      | error failure => rfl
      | ok head => cases rest.mapM f <;> rfl

namespace Registry

/-- Writes that agree wherever they meet may be made in any order. -/
theorem lastWrite_perm {unit : UnitOfMeasure} {key : RelationKey}
    {writes others : List (RelationWrite R)} (reordered : writes.Perm others)
    (agree : forall write, write ∈ writes -> forall other, other ∈ writes -> write.At unit key ->
      other.At unit key -> write.relation = other.relation) :
    lastWrite unit key writes = lastWrite unit key others := by
  cases found : lastWrite unit key writes with
  | none =>
      refine (lastWrite_eq_none fun write member place => ?_).symm
      rcases exists_lastWrite (reordered.mem_iff.mpr member) place with ⟨relation, there⟩
      cases found.symm.trans there
  | some relation =>
      rcases of_lastWrite found with ⟨write, member, place, rfl⟩
      rcases exists_lastWrite (reordered.mem_iff.mp member) place with ⟨other, there⟩
      rcases of_lastWrite there with ⟨again, inside, samePlace, rfl⟩
      rw [there, agree write member again (reordered.mem_iff.mpr inside) place samePlace]

/-- Symbols that stand for other units make declarations that name these. -/
theorem resolveDeclaration_map {unitOf otherUnitOf : String -> Except Failure UnitOfMeasure}
    {change : UnitOfMeasure -> UnitOfMeasure}
    (same : forall symbol, otherUnitOf symbol = (unitOf symbol).map change)
    (declaration : RelationDeclaration R) :
    resolveDeclaration otherUnitOf declaration =
      (resolveDeclaration unitOf declaration).map (ResolvedDeclaration.map change) := by
  rcases declaration with ⟨subject, op, operand, result⟩
  rw [resolveDeclaration, resolveDeclaration, same, same]
  cases unitOf subject with
  | error failure => rfl
  | ok subjectUnit =>
      cases unitOf result with
      | error failure => rfl
      | ok resultUnit =>
          cases operand with
          | factor value => rfl
          | unit symbol =>
              change (otherUnitOf symbol >>= _) = (unitOf symbol >>= _).map _
              rw [same]
              cases unitOf symbol <;> rfl

end Registry

/-! ## What unit files add to a batch -/

namespace UnitBatch

open Registry

section

variable [Scalar R]

/-- A unit file that is read, with the symbol of its unit. -/
def readFile (places : Nat) (file : String × String) : Except Failure (String × UnitFile R) := do
  let content ← UnitFile.parse places file.2
  if file.1 = "" then .error .emptyUnitSymbol else .ok (file.1, content)

/-- The batch with the units and the declarations of files that were read. -/
def holding (batch : UnitBatch R) (files : List (String × UnitFile R)) : UnitBatch R :=
  { batch with
    units := batch.units ++ files.map fun file => (file.1, file.2.name)
    declarations := batch.declarations ++ files.flatMap fun file => file.2.declarations }

theorem symbol_of_readFile {places : Nat} {file : String × String} {read : String × UnitFile R}
    (isRead : readFile places file = .ok read) : read.1 = file.1 ∧ read.1 ≠ "" := by
  rcases bind_eq_ok.mp isRead with ⟨content, _, isRead⟩
  split at isRead
  · cases isRead
  · rename_i someSymbol
    cases isRead
    exact ⟨rfl, someSymbol⟩

/-- A unit file adds what it says, whatever was collected before. -/
theorem addFile_eq {batch : UnitBatch R} (isOpen : batch.finished = false) {places : Nat}
    {file : String × String} (new : file.1 ∉ batch.units.keys) :
    batch.addFile places file.2 file.1 =
      (readFile places file).map fun read => batch.holding [read] := by
  rcases file with ⟨symbol, text⟩
  have isOpen : batch.requireOpen = .ok ⟨⟩ := by
    rw [requireOpen, isOpen]
    rfl
  have unnamed : batch.units.get? symbol = none := (Table.get?_eq_none_iff _ _).mpr new
  refine (bind_eq_of_ok isOpen).trans ?_
  rw [readFile]
  cases (UnitFile.parse places text : Except Failure (UnitFile R)) with
  | error failure => rfl
  | ok content =>
      have declared : batch.declareUnit symbol content.name =
          if symbol = "" then .error .emptyUnitSymbol
          else .ok { batch with units := batch.units.set symbol content.name } := by
        refine (bind_eq_of_ok isOpen).trans ?_
        have shown : (if content.name = "" then (batch.units.get? symbol).getD ""
            else content.name) = content.name := by
          rw [unnamed]
          split
          · rename_i noName
            exact noName.symm
          · rfl
        rw [shown]
      change (batch.declareUnit symbol content.name >>= _) = Except.map _ (ite _ _ _)
      rw [declared]
      split
      · rfl
      · rw [Table.set_of_not_mem new, Except.map, holding, List.flatMap_singleton]
        rfl

omit [Scalar R] in
theorem holding_holding (batch : UnitBatch R) (first : String × UnitFile R)
    (rest : List (String × UnitFile R)) :
    (batch.holding [first]).holding rest = batch.holding (first :: rest) := by
  simp only [holding, List.map_cons, List.map_nil, List.flatMap_cons, List.flatMap_nil,
    List.append_nil, List.append_assoc, List.cons_append, List.nil_append]

/-- Unit files of different units are collected by reading each of them. -/
theorem addFiles_eq {batch : UnitBatch R} (isOpen : batch.finished = false) {places : Nat}
    {files : List (String × String)} (distinct : (files.map Prod.fst).Nodup)
    (new : forall file, file ∈ files -> file.1 ∉ batch.units.keys) :
    addFiles places files batch = (files.mapM (readFile places)).map batch.holding := by
  induction files generalizing batch with
  | nil => exact congrArg Except.ok (by simp [holding])
  | cons file rest inductionHypothesis =>
      rcases List.nodup_cons.mp distinct with ⟨different, others⟩
      change (batch.addFile places file.2 file.1 >>= addFiles places rest) = _
      rw [addFile_eq isOpen (new file List.mem_cons_self), List.mapM_cons]
      cases isRead : (readFile places file : Except Failure (String × UnitFile R)) with
      | error failure => rfl
      | ok read =>
          change addFiles places rest (batch.holding [read]) = _
          rw [inductionHypothesis (by exact isOpen) others fun other member there => ?_]
          · cases (rest.mapM (readFile places) : Except Failure (List (String × UnitFile R))) with
            | error failure => rfl
            | ok reads => exact congrArg Except.ok (holding_holding batch read reads)
          · rw [holding, Table.keys, List.map_append] at there
            rcases List.mem_append.mp there with before | here
            · exact new other (List.mem_cons_of_mem _ member) before
            · have same : other.1 = file.1 :=
                (List.mem_singleton.mp here).trans (symbol_of_readFile isRead).1
              exact different (same ▸ List.mem_map_of_mem member)

end

/-! ## New numbers for new units -/

/-- The unit that one table has under the symbol of a unit of another table; units that are in
neither table stay what they are. -/
def renumber (first second : Table UnitOfMeasure) (unit : UnitOfMeasure) : UnitOfMeasure :=
  if first.get? unit.label.symbol = some unit then
    (second.get? unit.label.symbol).getD unit
  else unit

/-- The units of a batch in two orders. -/
structure Reordered (registry : Registry R) (units others : Table String) : Prop where
  sound : registry.Sound
  symbols : forall entry, entry ∈ units -> entry.1 ≠ ""
  distinct : units.keys.Nodup
  perm : units.Perm others

namespace Reordered

variable {registry : Registry R} {units others : Table String}

theorem symm (reordered : Reordered registry units others) : Reordered registry others units where
  sound := reordered.sound
  symbols := fun entry member => reordered.symbols entry (reordered.perm.mem_iff.mpr member)
  distinct := (reordered.perm.map Prod.fst).nodup_iff.mp reordered.distinct
  perm := reordered.perm.symm

theorem get?_eq (reordered : Reordered registry units others) (symbol : String) :
    units.get? symbol = others.get? symbol :=
  Table.get?_perm reordered.distinct reordered.perm symbol

/-- A new unit of one order and that of the same symbol in the other order. -/
theorem exists_get? (reordered : Reordered registry units others) {catalog symbol : String}
    {unit : UnitOfMeasure}
    (found : (createUnits catalog units registry).1.get? symbol = some unit) :
    ∃ other, (createUnits catalog others registry).1.get? symbol = some other ∧
      unit.label = ⟨catalog, symbol⟩ ∧ other.label = ⟨catalog, symbol⟩ ∧
      renumber (createUnits catalog units registry).1 (createUnits catalog others registry).1 unit =
        other := by
  cases there : (createUnits catalog others registry).1.get? symbol with
  | none =>
      rw [get?_createUnits_eq_none, ← reordered.get?_eq,
        ← @get?_createUnits_eq_none _ registry catalog] at there
      cases there.symm.trans found
  | some other =>
      have label := (get?_createUnits reordered.sound reordered.symbols found).1
      have otherLabel :=
        (get?_createUnits reordered.sound reordered.symm.symbols there).1
      refine ⟨other, rfl, label, otherLabel, ?_⟩
      rw [renumber, label, if_pos found, there]
      rfl

/-- Each new unit is renumbered to the new unit of its symbol. -/
theorem get?_renumber (reordered : Reordered registry units others) (catalog symbol : String) :
    (createUnits catalog others registry).1.get? symbol =
      ((createUnits catalog units registry).1.get? symbol).map
        (renumber (createUnits catalog units registry).1
          (createUnits catalog others registry).1) := by
  cases found : (createUnits catalog units registry).1.get? symbol with
  | none =>
      rw [get?_createUnits_eq_none, reordered.get?_eq] at found
      rw [(get?_createUnits_eq_none catalog symbol others).mpr found]
      rfl
  | some unit =>
      rcases reordered.exists_get? found with ⟨other, there, _, _, same⟩
      rw [there, Option.map_some, same]

theorem label_renumber (reordered : Reordered registry units others) (catalog : String)
    (unit : UnitOfMeasure) :
    (renumber (createUnits catalog units registry).1 (createUnits catalog others registry).1
      unit).label = unit.label := by
  by_cases found : (createUnits catalog units registry).1.get? unit.label.symbol = some unit
  · rcases reordered.exists_get? found with ⟨other, _, label, otherLabel, same⟩
    rw [same, otherLabel, label]
  · rw [renumber, if_neg found]

/-- Units that were there before keep their numbers. -/
theorem renumber_known (reordered : Reordered registry units others) (catalog : String)
    {unit : UnitOfMeasure} (known : unit ∈ registry.units) :
    renumber (createUnits catalog units registry).1 (createUnits catalog others registry).1
      unit = unit :=
  if_neg fun found => (get?_createUnits reordered.sound reordered.symbols found).2.1 known

/-- A unit that is there once a batch is created was there before or is held under its symbol. -/
theorem known_or_created (reordered : Reordered registry units others) {catalog : String}
    {unit : UnitOfMeasure} (member : unit ∈ (createUnits catalog units registry).2.units) :
    unit ∈ registry.units ∨
      ∃ symbol, (createUnits catalog units registry).1.get? symbol = some unit := by
  refine (mem_units_createUnits member).imp_right fun ⟨symbol, created⟩ => ⟨symbol, ?_⟩
  refine Table.get?_of_mem ?_ created
  rw [keys_createUnits]
  exact reordered.distinct

theorem mem_renumber (reordered : Reordered registry units others) {catalog : String}
    {unit : UnitOfMeasure} (member : unit ∈ (createUnits catalog units registry).2.units) :
    renumber (createUnits catalog units registry).1 (createUnits catalog others registry).1 unit ∈
      (createUnits catalog others registry).2.units := by
  rcases reordered.known_or_created member with known | ⟨symbol, found⟩
  · rw [reordered.renumber_known catalog known]
    exact (changes_createUnits catalog reordered.symm.symbols).1.units_subset known
  · rcases reordered.exists_get? found with ⟨other, there, _, _, same⟩
    rw [same]
    exact (get?_createUnits reordered.sound reordered.symm.symbols there).2.2.1

theorem renumber_renumber (reordered : Reordered registry units others) {catalog : String}
    {unit : UnitOfMeasure} (member : unit ∈ (createUnits catalog units registry).2.units) :
    renumber (createUnits catalog others registry).1 (createUnits catalog units registry).1
      (renumber (createUnits catalog units registry).1 (createUnits catalog others registry).1
        unit) = unit := by
  rcases reordered.known_or_created member with known | ⟨symbol, found⟩
  · rw [reordered.renumber_known catalog known, reordered.symm.renumber_known catalog known]
  · rcases reordered.exists_get? found with ⟨other, there, _, _, same⟩
    rcases reordered.symm.exists_get? there with ⟨again, here, _, _, back⟩
    rw [same, back]
    exact Option.some.inj (here.symm.trans found)

/-- Renumbering leads from the units of one order to those of the other, one to one. -/
theorem bijOn_renumber (reordered : Reordered registry units others) (catalog : String) :
    Set.BijOn
      (renumber (createUnits catalog units registry).1 (createUnits catalog others registry).1)
      {unit | unit ∈ (createUnits catalog units registry).2.units}
      {unit | unit ∈ (createUnits catalog others registry).2.units} :=
  Set.InvOn.bijOn ⟨fun _ => reordered.renumber_renumber, fun _ => reordered.symm.renumber_renumber⟩
    (fun _ => reordered.mem_renumber) fun _ => reordered.symm.mem_renumber

/-- Display names do not depend on the order. -/
theorem nameOf_renumber (reordered : Reordered registry units others) {catalog : String}
    {unit : UnitOfMeasure} (member : unit ∈ (createUnits catalog units registry).2.units) :
    (createUnits catalog others registry).2.nameOf
        (renumber (createUnits catalog units registry).1 (createUnits catalog others registry).1
          unit) =
      (createUnits catalog units registry).2.nameOf unit := by
  rcases reordered.known_or_created member with known | ⟨symbol, found⟩
  · rw [reordered.renumber_known catalog known, nameOf, nameOf, record?_createUnits known,
      record?_createUnits known]
  · rcases reordered.exists_get? found with ⟨other, there, _, _, same⟩
    rcases get?_createUnits reordered.sound reordered.symbols found with
      ⟨_, _, _, name, listed, shown⟩
    rcases get?_createUnits reordered.sound reordered.symm.symbols there with
      ⟨_, _, _, otherName, otherListed, otherShown⟩
    rw [reordered.get?_eq] at listed
    cases listed.symm.trans otherListed
    rw [same, shown, otherShown]

end Reordered

end UnitBatch

/-! ## Registries that differ in their numbers -/

namespace Registry

/-- Two registries are the same but for a change of the numbers of their units. -/
structure Renumbered (change : UnitOfMeasure -> UnitOfMeasure) (first second : Registry R) :
    Prop where
  units : Set.BijOn change {unit | unit ∈ first.units} {unit | unit ∈ second.units}
  labels : forall unit, (change unit).label = unit.label
  names : forall unit, unit ∈ first.units -> second.nameOf (change unit) = first.nameOf unit
  relations : forall unit, unit ∈ first.units -> forall key,
    second.relation? (change unit) key = (first.relation? unit key).map (Relation.map change)
  catalogs : second.catalogs = first.catalogs

/-- The relations of a registry lead to units that it knows. -/
theorem Journal.result_known {registry : Registry R} {log : List (ResolvedDeclaration R)}
    (journal : registry.Journal log) {unit : UnitOfMeasure} {key : RelationKey}
    {relation : Relation R} (found : registry.relation? unit key = some relation) :
    relation.result ∈ registry.units := by
  rw [journal.tells] at found
  rcases of_lastWrite found with ⟨write, member, _, rfl⟩
  rcases List.mem_flatMap.mp member with ⟨resolved, inLog, written⟩
  exact knowsNamed_iff.mp (journal.named resolved inLog) _ (names_result_of_writes written)

end Registry

/-! ## Batches in another order -/

namespace UnitBatch

open Registry

/-- Finishing a batch never writes two different relations under one key of a unit. -/
def Agrees (batch : UnitBatch R) (registry : Registry R) : Prop :=
  forall resolved, batch.declarations.mapM (resolveDeclaration
      (batch.unitFor (createUnits batch.catalog batch.units registry).1 registry)) =
        .ok resolved ->
    forall write, write ∈ resolved.flatMap ResolvedDeclaration.writes ->
      forall other, other ∈ resolved.flatMap ResolvedDeclaration.writes ->
        write.unit = other.unit -> write.key = other.key -> write.relation = other.relation

/-- Two batches for the same catalog with the same units and declarations, in any order. -/
structure Rearranged (batch other : UnitBatch R) : Prop where
  catalog : other.catalog = batch.catalog
  sharesUnits : other.sharesUnits = batch.sharesUnits
  finished : other.finished = batch.finished
  units : batch.units.Perm other.units
  declarations : batch.declarations.Perm other.declarations

/-- Two catalogs, and the registries with their units, are the same but for the numbers of the
units that one registry did not have. -/
structure SameOutcome (registry : Registry R) (change : UnitOfMeasure -> UnitOfMeasure)
    (first second : Catalog R × Registry R) : Prop where
  kept : forall unit, unit ∈ registry.units -> change unit = unit
  renumbered : Renumbered change first.2 second.2
  units : forall symbol, second.1.units.get? symbol = (first.1.units.get? symbol).map change
  known : first.2.Knows first.1
  declarations : first.1.declarations.Perm second.1.declarations

section

variable {registry : Registry R} {batch other : UnitBatch R}

theorem unitFor_renumber (reordered : Reordered registry batch.units other.units)
    (same : Rearranged batch other) (symbol : String) :
    other.unitFor (createUnits batch.catalog other.units registry).1 registry symbol =
      (batch.unitFor (createUnits batch.catalog batch.units registry).1 registry symbol).map
        (renumber (createUnits batch.catalog batch.units registry).1
          (createUnits batch.catalog other.units registry).1) := by
  rw [unitFor, unitFor, reordered.get?_renumber, same.catalog, same.sharesUnits]
  cases (createUnits batch.catalog batch.units registry).1.get? symbol with
  | some unit => rfl
  | none =>
      cases batch.sharesUnits with
      | false => rfl
      | true =>
          cases found : registry.findAny? symbol with
          | none => rfl
          | some unit =>
              have known := reordered.sound.held.findAny? found
              exact congrArg Except.ok (reordered.renumber_known batch.catalog known).symm

/-- Old relations lead to old units, so that renumbering leaves them as they are. -/
theorem Reordered.relation?_renumber {units others : Table String}
    (reordered : Reordered registry units others) {log : List (ResolvedDeclaration R)}
    (journal : registry.Journal log) {catalog : String} {unit : UnitOfMeasure}
    (member : unit ∈ (createUnits catalog units registry).2.units) (key : RelationKey) :
    registry.relation?
        (renumber (createUnits catalog units registry).1 (createUnits catalog others registry).1
          unit) key =
      (registry.relation? unit key).map (Relation.map
        (renumber (createUnits catalog units registry).1
          (createUnits catalog others registry).1)) := by
  rcases reordered.known_or_created member with known | ⟨symbol, created⟩
  · rw [reordered.renumber_known catalog known]
    cases found : registry.relation? unit key with
    | none => rfl
    | some relation =>
        rw [Option.map_some, Relation.map,
          reordered.renumber_known catalog (journal.result_known found)]
  · rcases reordered.exists_get? created with ⟨new, there, _, _, same⟩
    rw [same, relation?_of_not_mem (get?_createUnits reordered.sound reordered.symbols created).2.1,
      relation?_of_not_mem (get?_createUnits reordered.sound reordered.symm.symbols there).2.1]
    rfl

/-- Declarations in another order, with the units renumbered, make the same tables. -/
theorem Reordered.renumbered {units others : Table String}
    (reordered : Reordered registry units others) {log : List (ResolvedDeclaration R)}
    (journal : registry.Journal log) {catalog : String}
    {resolved otherResolved : List (ResolvedDeclaration R)}
    (known : forall one, one ∈ resolved -> (createUnits catalog units registry).2.KnowsNamed one)
    (otherKnown : forall one, one ∈ otherResolved ->
      (createUnits catalog others registry).2.KnowsNamed one)
    (perm : (resolved.map (ResolvedDeclaration.map
      (renumber (createUnits catalog units registry).1
        (createUnits catalog others registry).1))).Perm otherResolved)
    (agree : forall write, write ∈ resolved.flatMap ResolvedDeclaration.writes ->
      forall other, other ∈ resolved.flatMap ResolvedDeclaration.writes ->
        write.unit = other.unit -> write.key = other.key -> write.relation = other.relation) :
    Renumbered
      (renumber (createUnits catalog units registry).1 (createUnits catalog others registry).1)
      ((createUnits catalog units registry).2.writeAll
        (resolved.flatMap ResolvedDeclaration.writes))
      ((createUnits catalog others registry).2.writeAll
        (otherResolved.flatMap ResolvedDeclaration.writes)) := by
  have recorded : forall {names : Table String} {declarations : List (ResolvedDeclaration R)},
      (forall one, one ∈ declarations ->
        (createUnits catalog names registry).2.KnowsNamed one) ->
      forall write, write ∈ declarations.flatMap ResolvedDeclaration.writes ->
        write.unit ∈ (createUnits catalog names registry).2.units := by
    intro names declarations known write member
    rcases List.mem_flatMap.mp member with ⟨one, inside, written⟩
    exact (known one inside).writes write written
  have injective := (reordered.bijOn_renumber catalog).injOn
  -- what is written in the other order is what is written here, renumbered
  have writes : ((resolved.flatMap ResolvedDeclaration.writes).map (RelationWrite.map
      (renumber (createUnits catalog units registry).1
        (createUnits catalog others registry).1))).Perm
      (otherResolved.flatMap ResolvedDeclaration.writes) := by
    refine List.Perm.trans (List.Perm.of_eq ?_) (perm.flatMap_right _)
    rw [List.map_flatMap, List.flatMap_map]
    exact List.flatMap_congr fun one _ => (writes_map (reordered.label_renumber catalog) one).symm
  refine
    { units := by
        rw [units_writeAll, units_writeAll]
        exact reordered.bijOn_renumber catalog
      labels := reordered.label_renumber catalog
      names := fun unit member => by
        rw [units_writeAll] at member
        rw [nameOf_writeAll, nameOf_writeAll, reordered.nameOf_renumber member]
      relations := fun unit member key => ?_
      catalogs := by
        rw [catalogs_writeAll, catalogs_writeAll, catalogs_createUnits, catalogs_createUnits] }
  rw [units_writeAll] at member
  have only : forall write, write ∈ resolved.flatMap ResolvedDeclaration.writes ->
      renumber (createUnits catalog units registry).1 (createUnits catalog others registry).1
          write.unit =
        renumber (createUnits catalog units registry).1 (createUnits catalog others registry).1
          unit -> write.unit = unit :=
    fun write inside same => injective (recorded known write inside) member same
  rw [relation?_writeAll (recorded otherKnown), relation?_writeAll (recorded known),
    Option.map_or, ← lastWrite_map only, lastWrite_perm writes, relation?_createUnits,
    relation?_createUnits, reordered.relation?_renumber journal member]
  intro write inside other there place samePlace
  rcases List.mem_map.mp inside with ⟨source, member', rfl⟩
  rcases List.mem_map.mp there with ⟨otherSource, otherMember, rfl⟩
  have sameUnit := (only source member' place.1).trans (only otherSource otherMember samePlace.1).symm
  exact congrArg (Relation.map _) (agree source member' otherSource otherMember sameUnit
    (place.2.trans samePlace.2.symm))

/-- The declarations of a batch in another order name the same units, renumbered. -/
theorem resolved_rearranged (reordered : Reordered registry batch.units other.units)
    (same : Rearranged batch other) {resolved : List (ResolvedDeclaration R)}
    (named : batch.declarations.mapM (resolveDeclaration
      (batch.unitFor (createUnits batch.catalog batch.units registry).1 registry)) =
        .ok resolved) :
    ∃ otherResolved, other.declarations.mapM (resolveDeclaration
        (other.unitFor (createUnits other.catalog other.units registry).1 registry)) =
          .ok otherResolved ∧
      (resolved.map (ResolvedDeclaration.map
        (renumber (createUnits batch.catalog batch.units registry).1
          (createUnits batch.catalog other.units registry).1))).Perm otherResolved := by
  rw [same.catalog]
  refine exists_mapM_perm same.declarations ?_
  rw [mapM_map (resolveDeclaration_map (unitFor_renumber reordered same)), named]
  rfl

theorem finish_eq_error {failure : Failure} (isOpen : batch.finished = false)
    (unnamed : batch.declarations.mapM (resolveDeclaration
      (batch.unitFor (createUnits batch.catalog batch.units registry).1 registry)) =
        .error failure) : batch.finish registry = .error failure := by
  have isOpen : batch.requireOpen = .ok ⟨⟩ := by
    rw [requireOpen, isOpen]
    rfl
  refine (bind_eq_of_ok isOpen).trans ?_
  dsimp only
  rw [unnamed]
  rfl

theorem Rearranged.symm (same : Rearranged batch other) : Rearranged other batch where
  catalog := same.catalog.symm
  sharesUnits := same.sharesUnits.symm
  finished := same.finished.symm
  units := same.units.symm
  declarations := same.declarations.symm

end

section

variable [Scalar R] {places : Nat} {registry : Registry R} {finished : List (String × Catalog R)}
  {batch other : UnitBatch R}

/-- The declarations of a batch write to units that have symbols. -/
theorem someUnits (sound : registry.Sound) (collected : batch.Collected places)
    {resolved : List (ResolvedDeclaration R)}
    (known : forall one, one ∈ resolved ->
      (createUnits batch.catalog batch.units registry).2.KnowsNamed one) :
    forall write, write ∈ resolved.flatMap ResolvedDeclaration.writes ->
      write.unit.isDimensionless = false := by
  intro write member
  rcases List.mem_flatMap.mp member with ⟨one, inside, written⟩
  have created := (@changes_createUnits _ registry batch.catalog _ collected.symbols).1
  exact (sound.changesTo created).symbols _ ((known one inside).writes write written)

/-- Finishing two batches that are the same but for their order. -/
theorem finish_rearranged (reachable : Reachable places registry finished)
    (collected : batch.Collected places) (otherCollected : other.Collected places)
    (isOpen : batch.finished = false) (same : Rearranged batch other)
    (distinct : batch.units.keys.Nodup) (agrees : batch.Agrees registry) :
    (∃ failure otherFailure, batch.finish registry = .error failure ∧
        other.finish registry = .error otherFailure) ∨
      ∃ change first second, batch.finish registry = .ok first ∧
        other.finish registry = .ok second ∧ SameOutcome registry change first second := by
  have reordered : Reordered registry batch.units other.units :=
    ⟨reachable.sound, collected.symbols, distinct, same.units⟩
  have otherOpen : other.finished = false := same.finished.trans isOpen
  cases named : batch.declarations.mapM (resolveDeclaration
      (batch.unitFor (createUnits batch.catalog batch.units registry).1 registry)) with
  | error failure =>
      cases otherNamed : other.declarations.mapM (resolveDeclaration
          (other.unitFor (createUnits other.catalog other.units registry).1 registry)) with
      | error otherFailure =>
          exact Or.inl ⟨failure, otherFailure, finish_eq_error isOpen named,
            finish_eq_error otherOpen otherNamed⟩
      | ok otherResolved =>
          rcases resolved_rearranged reordered.symm same.symm otherNamed with ⟨_, succeeded, _⟩
          cases named.symm.trans succeeded
  | ok resolved =>
      rcases resolved_rearranged reordered same named with ⟨otherResolved, otherNamed, perm⟩
      rcases reachable.logged with ⟨log, logged⟩
      have known := knowsNamed_of_mapM reachable.sound.held collected named
      have otherKnown := knowsNamed_of_mapM reachable.sound.held otherCollected otherNamed
      refine Or.inr ⟨renumber (createUnits batch.catalog batch.units registry).1
          (createUnits batch.catalog other.units registry).1, _, _,
        finish_eq isOpen named (someUnits reachable.sound collected known),
        finish_eq otherOpen otherNamed (someUnits reachable.sound otherCollected otherKnown), ?_⟩
      rw [same.catalog] at otherKnown ⊢
      exact
        { kept := fun unit member => reordered.renumber_known batch.catalog member
          renumbered := reordered.renumbered logged.journal known otherKnown perm
            (agrees resolved named)
          units := reordered.get?_renumber batch.catalog
          known := fun entry member => by
            rw [units_writeAll]
            exact (changes_createUnits batch.catalog collected.symbols).2 entry member
          declarations := same.declarations }

end

end UnitBatch

/-! ## Unit files in another order -/

namespace Registry

open UnitBatch

variable [Scalar R] {places : Nat} {registry : Registry R} {finished : List (String × Catalog R)}

/-- The catalog of some unit files, and the registry with its units and relations. -/
def finishFiles (registry : Registry R) (places : Nat) (name : String) (sharesUnits : Bool)
    (files : List (String × String)) : Except Failure (Catalog R × Registry R) := do
  (← addFiles places files (.start name sharesUnits)).finish registry

theorem symbols_of_mapM {files : List (String × String)} {reads : List (String × UnitFile R)}
    (isRead : files.mapM (readFile places) = .ok reads) :
    reads.map Prod.fst = files.map Prod.fst :=
  map_of_mapM isRead fun here => (symbol_of_readFile here).1

/--
The order of unit files plays no part: for every registry that can be made and files of
different units that never write two different relations under one key of a unit, two orders
of the files are both collected or both refused, and finishing what was collected fails for
both or makes the same for both but for the numbers of the new units.
-/
theorem finish_anyOrder (reachable : Reachable places registry finished) (name : String)
    (sharesUnits : Bool) {files others : List (String × String)} (reordered : files.Perm others)
    (distinct : (files.map Prod.fst).Nodup)
    (agrees : forall batch, addFiles places files (.start name sharesUnits) = .ok batch ->
      batch.Agrees registry) :
    ((addFiles places files (.start name sharesUnits) : Except Failure (UnitBatch R)).isOk =
        (addFiles places others (.start name sharesUnits) : Except Failure (UnitBatch R)).isOk) ∧
      ((∃ failure otherFailure,
          registry.finishFiles places name sharesUnits files = .error failure ∧
          registry.finishFiles places name sharesUnits others = .error otherFailure) ∨
        ∃ change first second,
          registry.finishFiles places name sharesUnits files = .ok first ∧
          registry.finishFiles places name sharesUnits others = .ok second ∧
          SameOutcome registry change first second) := by
  have collects : forall {listed : List (String × String)}, (listed.map Prod.fst).Nodup ->
      (addFiles places listed (.start name sharesUnits) : Except Failure (UnitBatch R)) =
        (listed.mapM (readFile places)).map (UnitBatch.start name sharesUnits).holding :=
    fun distinct => addFiles_eq rfl distinct fun _ _ => List.not_mem_nil
  have here := @collects files distinct
  have there := @collects others ((reordered.map Prod.fst).nodup_iff.mp distinct)
  cases isRead : (files.mapM (readFile places) : Except Failure (List (String × UnitFile R))) with
  | error failure =>
      rw [isRead] at here
      cases otherRead : (others.mapM (readFile places) :
          Except Failure (List (String × UnitFile R))) with
      | ok reads =>
          rcases exists_mapM_perm reordered.symm otherRead with ⟨_, succeeded, _⟩
          cases isRead.symm.trans succeeded
      | error otherFailure =>
          rw [otherRead] at there
          rw [finishFiles, finishFiles, here, there]
          exact ⟨rfl, Or.inl ⟨failure, otherFailure, rfl, rfl⟩⟩
  | ok reads =>
      rcases exists_mapM_perm reordered isRead with ⟨otherReads, otherRead, perm⟩
      rw [isRead] at here
      rw [otherRead] at there
      have collected := (Collected.start name sharesUnits).addFiles here
      have otherCollected := (Collected.start name sharesUnits).addFiles there
      have same : Rearranged ((UnitBatch.start name sharesUnits).holding reads)
          ((UnitBatch.start name sharesUnits).holding otherReads) :=
        ⟨rfl, rfl, rfl, perm.map _, perm.flatMap_right _⟩
      have symbols : ((UnitBatch.start name sharesUnits).holding reads).units.keys =
          files.map Prod.fst := by
        rw [← symbols_of_mapM isRead]
        exact List.map_map
      have outcome := finish_rearranged reachable collected otherCollected rfl same
        (symbols ▸ distinct) (agrees _ here)
      rw [finishFiles, finishFiles, here, there]
      exact ⟨rfl, outcome⟩

/-- Unit files that refer to each other and to units of the catalog that is there from the
start. -/
def motionFiles : List (String × String) :=
  [("N", "Newton\nN*v=W\n"), ("v", "Speed\nv*s=m\n"), ("m", "Metre\n")]

/-- The batch that collects them. -/
def motionBatch : UnitBatch Float :=
  (addFiles 15 motionFiles (.start "motion" true)).toOption.getD (.start "motion" true)

theorem finish_anyOrder_motion :
    ∃ change first second,
      builtInRegistry.finishFiles 15 "motion" true motionFiles = .ok first ∧
      builtInRegistry.finishFiles 15 "motion" true motionFiles.reverse = .ok second ∧
      SameOutcome builtInRegistry change first second := by
  have reachable : Reachable 15 builtInRegistry [] := .withBuiltIns .empty withBuiltIns_succeeds
  have collected : addFiles 15 motionFiles (.start "motion" true) = .ok motionBatch :=
    eq_ok_of_isSome _ (by decide +kernel)
  have apart : (((motionBatch.declarations.mapM (resolveDeclaration (motionBatch.unitFor
      (createUnits motionBatch.catalog motionBatch.units builtInRegistry).1
      builtInRegistry))).toOption.getD []).flatMap ResolvedDeclaration.writes |>.map fun write =>
        (write.unit, write.key)).Nodup := by decide +kernel
  have agrees : motionBatch.Agrees builtInRegistry := by
    intro resolved named write member other inside sameUnit sameKey
    rw [named] at apart
    exact congrArg RelationWrite.relation
      (List.inj_on_of_nodup_map apart member inside (Prod.ext sameUnit sameKey))
  have succeeds : (builtInRegistry.finishFiles 15 "motion" true motionFiles).isOk := by
    decide +kernel
  rcases (finish_anyOrder reachable "motion" true motionFiles.reverse_perm.symm (by decide)
    fun batch found => Except.ok.inj (collected.symm.trans found) ▸ agrees).2 with
    ⟨failure, _, failed, _⟩ | outcome
  · rw [failed] at succeeds
    cases succeeds
  · exact outcome

end Registry
end QuantityCalculus
