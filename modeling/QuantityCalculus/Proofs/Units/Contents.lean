import QuantityCalculus.Proofs.Tables
import QuantityCalculus.Proofs.Units.Journal

namespace QuantityCalculus

/-!
# What a registry holds, and what its operations change

A registry is seen through a few views: the unit that a catalog holds under a symbol, the
display name of a unit, the declarations of a catalog, and the relations that its journal
tells.  Each operation is described once by what it changes in these views, so that an
invariant of a registry needs no look at the records and catalogs behind them.
-/

namespace Registry

variable {R : Type} {registry changed : Registry R}

/-- The declarations of a catalog, none for a catalog that is not there. -/
def declarationsIn (registry : Registry R) (name : String) : List (RelationDeclaration R) :=
  ((registry.catalogs.get? name).map Catalog.declarations).getD []

/-- The label and the display name of the unit that a symbol stands for in a catalog. -/
def shown? (registry : Registry R) (name symbol : String) : Option (UnitLabel × String) :=
  (registry.heldUnit? name symbol).map fun unit => (unit.label, registry.nameOf unit)

/-- A unit is found by its symbol alone if no other catalog has that symbol. -/
theorem findAny?_of_only (distinct : registry.catalogs.keys.Nodup) {name symbol : String}
    {unit : UnitOfMeasure} (held : registry.heldUnit? name symbol = some unit)
    (only : forall other, other ≠ name -> registry.heldUnit? other symbol = none) :
    registry.findAny? symbol = some unit := by
  have among : forall catalogs : List (String × Catalog R), catalogs ⊆ registry.catalogs ->
      (∃ entry, entry ∈ catalogs ∧ entry.1 = name) ->
      unitIn? symbol (catalogs.map Prod.snd) = some unit := by
    intro catalogs
    induction catalogs with
    | nil => exact fun _ there => nomatch there
    | cons entry rest inductionHypothesis =>
        intro inForce there
        have here := Table.get?_of_mem distinct (inForce List.mem_cons_self)
        have looked : registry.heldUnit? entry.1 symbol = entry.2.units.get? symbol := by
          rw [heldUnit?, here]
          rfl
        rw [List.map_cons, unitIn?, ← looked]
        by_cases same : entry.1 = name
        · rw [same, held]
          rfl
        · rw [only entry.1 same, Option.none_or]
          rcases there with ⟨other, member, sameName⟩
          refine inductionHypothesis (fun _ later => inForce (List.mem_cons_of_mem _ later))
            ⟨other, (List.mem_cons.mp member).resolve_left fun equal => same ?_, sameName⟩
          exact equal ▸ sameName
  rcases Option.bind_eq_some_iff.mp held with ⟨catalog, inForce, _⟩
  exact among registry.catalogs (List.Subset.refl _) ⟨_, Table.mem_of_get? inForce, rfl⟩

/-- A unit that is found by its symbol alone is held by some catalog. -/
theorem held_of_findAny? (distinct : registry.catalogs.keys.Nodup) {symbol : String}
    {unit : UnitOfMeasure} (found : registry.findAny? symbol = some unit) :
    ∃ name, registry.heldUnit? name symbol = some unit := by
  have among : forall catalogs : List (String × Catalog R), catalogs ⊆ registry.catalogs ->
      unitIn? symbol (catalogs.map Prod.snd) = some unit ->
      ∃ name, registry.heldUnit? name symbol = some unit := by
    intro catalogs
    induction catalogs with
    | nil => exact fun _ found => nomatch found
    | cons entry rest inductionHypothesis =>
        intro inForce found
        rcases Option.or_eq_some_iff.mp found with here | ⟨_, later⟩
        · refine ⟨entry.1, ?_⟩
          rw [heldUnit?, Table.get?_of_mem distinct (inForce List.mem_cons_self)]
          exact here
        · exact inductionHypothesis (fun _ member => inForce (List.mem_cons_of_mem _ member)) later
  exact among registry.catalogs (List.Subset.refl _) found

theorem held_of_get? {name symbol : String} {catalog : Catalog R} {unit : UnitOfMeasure}
    (inForce : registry.catalogs.get? name = some catalog)
    (held : catalog.units.get? symbol = some unit) :
    registry.heldUnit? name symbol = some unit := by
  rw [heldUnit?, inForce]
  exact held

theorem Sound.known_of_heldUnit? (sound : registry.Sound) {name symbol : String}
    {unit : UnitOfMeasure} (held : registry.heldUnit? name symbol = some unit) :
    unit ∈ registry.units :=
  sound.known_of_holds (holds_of_heldUnit? held)

/-- A unit that is held stands in a catalog that is in force. -/
theorem mem_keys_of_heldUnit? {name symbol : String} {unit : UnitOfMeasure}
    (held : registry.heldUnit? name symbol = some unit) : name ∈ registry.catalogs.keys := by
  rcases Option.bind_eq_some_iff.mp held with ⟨_, inForce, _⟩
  exact Table.mem_keys_of_get? inForce

/-! ## Units that are created -/

/-- The record of a unit is still found when other units are created. -/
theorem record?_createUnit {unit : UnitOfMeasure} (known : unit ∈ registry.units)
    (catalog symbol name : String) :
    (registry.createUnit catalog symbol name).2.record? unit = registry.record? unit := by
  rcases Option.isSome_iff_exists.mp (isSome_record? known) with ⟨record, found⟩
  change (registry.records ++ _).find? _ = _
  rw [List.find?_append, ← record?, found]
  rfl

theorem Sound.createUnit_new (sound : registry.Sound) (catalog symbol name : String) :
    (registry.createUnit catalog symbol name).1 ∉ registry.units := by
  intro known
  have below := sound.editions _ known
  rw [edition_createUnit] at below
  exact Nat.lt_irrefl _ below

/-- A new unit is shown by its name, or by its symbol if it has none. -/
theorem Sound.nameOf_createUnit (sound : registry.Sound) (catalog symbol name : String) :
    (registry.createUnit catalog symbol name).2.nameOf
      (registry.createUnit catalog symbol name).1 = if name = "" then symbol else name := by
  have nowhere := record?_of_not_mem (sound.createUnit_new catalog symbol name)
  have found : (registry.createUnit catalog symbol name).2.record?
      (registry.createUnit catalog symbol name).1 =
        some ⟨(registry.createUnit catalog symbol name).1, if name = "" then symbol else name,
          []⟩ := by
    change (registry.records ++ [_]).find? _ = _
    rw [List.find?_append, ← record?, nowhere]
    simp [createUnit]
  rw [nameOf, found]
  rfl

/-- Declarations leave the display names as they are. -/
theorem nameOf_writeAll (writes : List (RelationWrite R)) (unit : UnitOfMeasure) :
    (registry.writeAll writes).nameOf unit = registry.nameOf unit := by
  induction writes generalizing registry with
  | nil => rfl
  | cons first rest inductionHypothesis =>
      refine inductionHypothesis.trans ?_
      rw [nameOf, write, record?_updateRecord (by exact fun _ => rfl), nameOf]
      cases registry.record? unit with
      | none => rfl
      | some record =>
          rw [Option.map_some, Option.map_some, Option.map_some]
          split <;> rfl

theorem nameOf_rename {unit : UnitOfMeasure} (known : unit ∈ registry.units) (name : String)
    (other : UnitOfMeasure) :
    (registry.updateRecord unit fun record => { record with name := name }).nameOf other =
      if other = unit then name else registry.nameOf other := by
  rw [nameOf, record?_updateRecord (by exact fun _ => rfl), nameOf]
  by_cases same : other = unit
  · subst same
    rcases Option.isSome_iff_exists.mp (isSome_record? known) with ⟨record, found⟩
    simp [found, unit_of_record? found]
  · rw [if_neg same]
    cases found : registry.record? other with
    | none => rfl
    | some record =>
        have different : record.unit ≠ unit := fun here =>
          same ((unit_of_record? found).symm.trans here)
        simp [different]

/-! ## Definitions of units -/

/-- What the definition of a unit changes. -/
structure DefinesUnit (registry : Registry R) (catalog symbol name : String) (unit : UnitOfMeasure)
    (changed : Registry R) : Prop where
  held : forall other otherSymbol, changed.heldUnit? other otherSymbol =
    if other = catalog ∧ otherSymbol = symbol then some unit
    else registry.heldUnit? other otherSymbol
  label : registry.heldUnit? catalog symbol = some unit ∨
    (registry.heldUnit? catalog symbol = none ∧ unit.label = ⟨catalog, symbol⟩)
  keys : registry.catalogs.keys.Nodup -> changed.catalogs.keys.Nodup
  others : forall other, other ≠ catalog ->
    changed.catalogs.get? other = registry.catalogs.get? other
  declarations : forall other, changed.declarationsIn other = registry.declarationsIn other
  distinct : (forall {other found}, registry.catalogs.get? other = some found ->
      found.units.keys.Nodup) ->
    forall {other found}, changed.catalogs.get? other = some found -> found.units.keys.Nodup
  units : forall {other}, other ∈ changed.units -> other ∈ registry.units ∨ other = unit
  names : forall other, other ∈ registry.units -> other ≠ unit ->
    changed.nameOf other = registry.nameOf other
  name : changed.nameOf unit =
    if name = "" then
      if registry.heldUnit? catalog symbol = some unit then registry.nameOf unit else symbol
    else name
  journal : forall {log}, registry.Journal log -> changed.Journal log

/-- A unit that is defined again keeps what it has, and takes the new name if there is one. -/
theorem definesUnit_again (sound : registry.Sound) {catalog symbol : String} {unit : UnitOfMeasure}
    (held : registry.heldUnit? catalog symbol = some unit) (name : String) :
    registry.DefinesUnit catalog symbol name unit
      (if name = "" then registry
        else registry.updateRecord unit fun record => { record with name := name }) := by
  have known : unit ∈ registry.units := sound.known_of_heldUnit? held
  have sameHeld : forall other otherSymbol, registry.heldUnit? other otherSymbol =
      if other = catalog ∧ otherSymbol = symbol then some unit
      else registry.heldUnit? other otherSymbol := by
    intro other otherSymbol
    split
    · rename_i same
      exact same.1 ▸ same.2 ▸ held
    · rfl
  split
  · rename_i noName
    subst noName
    exact
      { held := sameHeld
        label := Or.inl held
        keys := id
        others := fun _ _ => rfl
        declarations := fun _ => rfl
        distinct := fun distinct => distinct
        units := Or.inl
        names := fun _ _ _ => rfl
        name := by rw [if_pos rfl, if_pos held]
        journal := fun journal => journal }
  · rename_i someName
    exact
      { held := sameHeld
        label := Or.inl held
        keys := id
        others := fun _ _ => rfl
        declarations := fun _ => rfl
        distinct := fun distinct => distinct
        units := fun member => Or.inl (units_rename unit name ▸ member)
        names := fun other _ different => by rw [nameOf_rename known, if_neg different]
        name := by rw [nameOf_rename known, if_pos rfl, if_neg someName]
        journal := fun journal => journal.rename unit name }

/-- A unit that is not held yet is created. -/
theorem definesUnit_new (sound : registry.Sound) {catalog symbol : String}
    (notHeld : registry.heldUnit? catalog symbol = none) (name : String) {found : Catalog R}
    (inForce : (registry.catalogs.get? catalog).getD ⟨[], []⟩ = found) :
    registry.DefinesUnit catalog symbol name (registry.createUnit catalog symbol name).1
      { (registry.createUnit catalog symbol name).2 with
        catalogs := registry.catalogs.set catalog
          { found with
            units := found.units.set symbol (registry.createUnit catalog symbol name).1 } } where
  held := by
    intro other otherSymbol
    rw [heldUnit?, Table.get?_set]
    by_cases same : catalog = other
    · subst same
      rw [if_pos rfl, Option.bind_some, Table.get?_set]
      by_cases sameSymbol : symbol = otherSymbol
      · rw [if_pos sameSymbol, if_pos ⟨rfl, sameSymbol.symm⟩]
      · rw [if_neg sameSymbol, if_neg fun both => sameSymbol both.2.symm, heldUnit?, ← inForce]
        cases registry.catalogs.get? catalog <;> rfl
    · rw [if_neg same, if_neg fun both => same both.1.symm]
      rfl
  label := Or.inr ⟨notHeld, rfl⟩
  keys := fun distinct => Table.nodup_keys_set distinct _ _
  others := fun other different => by rw [Table.get?_set, if_neg different.symm]
  declarations := by
    intro other
    rw [declarationsIn, Table.get?_set]
    by_cases same : catalog = other
    · subst same
      rw [if_pos rfl, declarationsIn, ← inForce]
      cases registry.catalogs.get? catalog <;> rfl
    · rw [if_neg same]
      rfl
  distinct := by
    intro distinct other there inForceNow
    rw [Table.get?_set] at inForceNow
    split at inForceNow
    · cases inForceNow
      refine Table.nodup_keys_set ?_ symbol _
      cases old : registry.catalogs.get? catalog with
      | none =>
          rw [old] at inForce
          exact inForce ▸ List.nodup_nil
      | some before =>
          rw [old] at inForce
          exact inForce ▸ distinct old
    · exact distinct inForceNow
  units := by
    intro other member
    change other ∈ (registry.createUnit catalog symbol name).2.units at member
    rw [units_createUnit] at member
    exact (List.mem_append.mp member).imp_right List.mem_singleton.mp
  names := by
    intro other known _
    change (registry.createUnit catalog symbol name).2.nameOf other = _
    rw [nameOf, record?_createUnit known, nameOf]
  name := by
    change (registry.createUnit catalog symbol name).2.nameOf _ = _
    rw [sound.nameOf_createUnit, notHeld]
    simp only [reduceCtorEq, if_false]
  journal := fun journal => (journal.create catalog symbol name).recatalog _

theorem definesUnit (sound : registry.Sound) {catalog symbol name : String} {unit : UnitOfMeasure}
    (defined : registry.defineUnit catalog symbol name = .ok (unit, changed)) :
    registry.DefinesUnit catalog symbol name unit changed := by
  have looked : ((registry.catalogs.get? catalog).getD ⟨[], []⟩).units.get? symbol =
      registry.heldUnit? catalog symbol := by
    rw [heldUnit?]
    cases registry.catalogs.get? catalog <;> rfl
  rw [defineUnit] at defined
  split at defined
  · cases defined
  · dsimp only at defined
    rw [looked] at defined
    split at defined
    · rename_i held
      cases defined
      exact definesUnit_again sound held name
    · rename_i notHeld
      cases defined
      exact definesUnit_new sound notHeld name rfl

/-! ## Declarations of relations -/

/-- What the declaration of a relation changes. -/
structure DeclaresRelation (registry : Registry R) (catalog : String)
    (resolved : ResolvedDeclaration R) (changed : Registry R) : Prop where
  held : forall other symbol, changed.heldUnit? other symbol = registry.heldUnit? other symbol
  inForce : forall other, other ∈ changed.catalogs.keys <-> other ∈ registry.catalogs.keys
  keys : registry.catalogs.keys.Nodup -> changed.catalogs.keys.Nodup
  others : forall other, other ≠ catalog ->
    changed.catalogs.get? other = registry.catalogs.get? other
  declarations : forall other, changed.declarationsIn other =
    if other = catalog then registry.declarationsIn other ++ [resolved.declaration]
    else registry.declarationsIn other
  distinct : (forall {other found}, registry.catalogs.get? other = some found ->
      found.units.keys.Nodup) ->
    forall {other found}, changed.catalogs.get? other = some found -> found.units.keys.Nodup
  units : changed.units = registry.units
  names : forall unit, changed.nameOf unit = registry.nameOf unit
  journal : forall {log}, registry.Journal log -> changed.Journal (log ++ [resolved])

theorem catalog_eq_ok {name : String} {catalog : Catalog R} :
    registry.catalog name = .ok catalog <-> registry.catalogs.get? name = some catalog := by
  rw [Registry.catalog]
  cases registry.catalogs.get? name with
  | none => exact ⟨nofun, nofun⟩
  | some found =>
      exact ⟨fun same => congrArg some (Except.ok.inj same),
        fun same => congrArg Except.ok (Option.some.inj same)⟩

theorem declaration_of_resolve {unitOf : String -> Except Failure UnitOfMeasure}
    {declaration : RelationDeclaration R} {resolved : ResolvedDeclaration R}
    (named : resolveDeclaration unitOf declaration = .ok resolved) :
    resolved.declaration = declaration :=
  (resolveDeclaration_eq_ok.mp named).1

/-- The symbols of a declaration are those of the units that it names. -/
structure ResolvedDeclaration.Spelled (resolved : ResolvedDeclaration R) : Prop where
  subject : resolved.subject.label.symbol = resolved.declaration.subject
  operand : match resolved.declaration.operand with
    | .unit symbol => ∃ unit, resolved.operand = some unit ∧ unit.label.symbol = symbol
    | .factor _ => resolved.operand = none
  result : resolved.result.label.symbol = resolved.declaration.result

theorem spelled_of_resolve {unitOf : String -> Except Failure UnitOfMeasure}
    {declaration : RelationDeclaration R} {resolved : ResolvedDeclaration R}
    (symbols : forall symbol unit, unitOf symbol = .ok unit -> unit.label.symbol = symbol)
    (named : resolveDeclaration unitOf declaration = .ok resolved) : resolved.Spelled := by
  rcases resolveDeclaration_eq_ok.mp named with ⟨rfl, subjectFound, resultFound, operandFound⟩
  refine ⟨symbols _ _ subjectFound, ?_, symbols _ _ resultFound⟩
  cases written : resolved.declaration.operand with
  | factor factor =>
      rw [written] at operandFound
      exact operandFound
  | unit symbol =>
      rw [written] at operandFound
      rcases operandFound with ⟨operand, same, found⟩
      exact ⟨operand, same, symbols _ _ found⟩

/-- A declaration whose symbols stand for other units names these. -/
theorem resolve_map {unitOf : String -> Except Failure UnitOfMeasure}
    {resolved : ResolvedDeclaration R} (spelled : resolved.Spelled)
    {change : UnitOfMeasure -> UnitOfMeasure}
    (looked : forall unit, resolved.Names unit -> unitOf unit.label.symbol = .ok (change unit)) :
    resolveDeclaration unitOf resolved.declaration = .ok (resolved.map change) := by
  rcases resolved with ⟨⟨subjectSymbol, op, written, resultSymbol⟩, subject, operand, result⟩
  rcases spelled with ⟨subjectSame, operandSame, resultSame⟩
  dsimp only at subjectSame operandSame resultSame
  have subjectFound := looked subject (Or.inl rfl)
  have resultFound := looked result (Or.inr (Or.inr rfl))
  rw [subjectSame] at subjectFound
  rw [resultSame] at resultFound
  refine resolveDeclaration_eq_ok.mpr ⟨rfl, subjectFound, resultFound, ?_⟩
  cases written with
  | factor value =>
      cases operandSame
      rfl
  | unit symbol =>
      rcases operandSame with ⟨unit, rfl, rfl⟩
      exact ⟨change unit, rfl, looked unit (Or.inr (Or.inl rfl))⟩

theorem declaresRelation [Scalar R] (sound : registry.Sound) {places : Nat} {name line : String}
    (defined : registry.defineRelation places name line = .ok changed) :
    ∃ catalog declaration resolved, registry.catalogs.get? name = some catalog ∧
      RelationDeclaration.parse places line = .ok declaration ∧
      resolveDeclaration (registry.unitFor catalog) declaration = .ok resolved ∧
      registry.DeclaresRelation name resolved changed := by
  rcases of_defineRelation defined with
    ⟨catalog, declaration, resolved, found, parsed, named, _, rfl⟩
  have known := knowsNamed_of_resolve
    (fun _ _ => sound.held.unitFor (sound.held.catalog found)) named
  have inForce := catalog_eq_ok.mp found
  refine ⟨catalog, declaration, resolved, inForce, parsed, named, ?_⟩
  have declared : resolved.declaration = declaration := declaration_of_resolve named
  exact
    { held := by
        intro other symbol
        rw [heldUnit?, Table.get?_set, catalogs_writeAll]
        by_cases same : name = other
        · subst same
          rw [if_pos rfl, heldUnit?, inForce]
          rfl
        · rw [if_neg same]
          rfl
      inForce := by
        intro other
        rw [Table.mem_keys_set, catalogs_writeAll]
        exact or_iff_right_of_imp fun same => same ▸ Table.mem_keys_of_get? inForce
      keys := fun distinct => Table.nodup_keys_set
        ((catalogs_writeAll resolved.writes).symm ▸ distinct) _ _
      others := fun other different => by
        rw [Table.get?_set, if_neg different.symm, catalogs_writeAll]
      declarations := by
        intro other
        rw [declarationsIn, Table.get?_set, catalogs_writeAll]
        by_cases same : name = other
        · subst same
          rw [if_pos rfl, if_pos rfl, declarationsIn, inForce, declared]
          rfl
        · rw [if_neg same, if_neg (Ne.symm same)]
          rfl
      distinct := by
        intro distinct other there inForceNow
        rw [Table.get?_set, catalogs_writeAll] at inForceNow
        split at inForceNow
        · cases inForceNow
          have kept := distinct inForce
          exact kept
        · exact distinct inForceNow
      units := units_writeAll resolved.writes
      names := nameOf_writeAll resolved.writes
      journal := by
        intro log journal
        have declares := journal.declareAll fun one (member : one ∈ [resolved]) =>
          List.mem_singleton.mp member ▸ known
        rw [List.flatMap_singleton] at declares
        exact declares.recatalog _ }

end Registry

/-! ## Batches -/

namespace UnitBatch

open Registry

variable {R : Type} {registry : Registry R}

theorem record?_createUnits {unit : UnitOfMeasure} (known : unit ∈ registry.units)
    (catalog : String) (units : Table String) :
    (createUnits catalog units registry).2.record? unit = registry.record? unit := by
  induction units generalizing registry with
  | nil => rfl
  | cons first rest inductionHypothesis =>
      have created : unit ∈ (registry.createUnit catalog first.1 first.2).2.units := by
        rw [units_createUnit]
        exact List.mem_append_left _ known
      exact (inductionHypothesis created).trans (record?_createUnit known _ _ _)

theorem catalogs_createUnits (catalog : String) (units : Table String) :
    (createUnits catalog units registry).2.catalogs = registry.catalogs := by
  induction units generalizing registry with
  | nil => rfl
  | cons first rest inductionHypothesis =>
      exact @inductionHypothesis (registry.createUnit catalog first.1 first.2).2

theorem relation?_createUnits (catalog : String) (units : Table String) (unit : UnitOfMeasure)
    (key : RelationKey) :
    (createUnits catalog units registry).2.relation? unit key = registry.relation? unit key := by
  induction units generalizing registry with
  | nil => rfl
  | cons first rest inductionHypothesis =>
      exact inductionHypothesis.trans (relation?_createUnit catalog first.1 first.2 unit key)

theorem get?_createUnits_eq_none (catalog symbol : String) (units : Table String) :
    (createUnits catalog units registry).1.get? symbol = none <-> units.get? symbol = none := by
  induction units generalizing registry with
  | nil => exact ⟨fun _ => rfl, fun _ => rfl⟩
  | cons first rest inductionHypothesis =>
      rcases first with ⟨head, name⟩
      rw [createUnits, Table.get?, Table.get?]
      split
      · simp
      · exact inductionHypothesis

/-- The new units have the symbols of the batch. -/
theorem keys_createUnits (catalog : String) (units : Table String) :
    (createUnits catalog units registry).1.keys = units.keys := by
  induction units generalizing registry with
  | nil => rfl
  | cons first rest inductionHypothesis =>
      exact congrArg (first.1 :: ·) inductionHypothesis

/-- A unit that is there once a batch is created was there before or is one of the batch. -/
theorem mem_units_createUnits {catalog : String} {units : Table String} {unit : UnitOfMeasure}
    (member : unit ∈ (createUnits catalog units registry).2.units) :
    unit ∈ registry.units ∨
      ∃ symbol, (symbol, unit) ∈ (createUnits catalog units registry).1 := by
  induction units generalizing registry with
  | nil => exact Or.inl member
  | cons first rest inductionHypothesis =>
      rcases inductionHypothesis member with before | ⟨symbol, later⟩
      · change unit ∈ (registry.createUnit catalog first.1 first.2).2.units at before
        rw [units_createUnit] at before
        refine (List.mem_append.mp before).imp_right fun new => ⟨first.1, ?_⟩
        exact List.mem_singleton.mp new ▸ List.mem_cons_self
      · exact Or.inr ⟨symbol, List.mem_cons_of_mem _ later⟩

/-- The units of a batch are new, have the labels of the catalog, and are shown by their names. -/
theorem get?_createUnits (sound : registry.Sound) {catalog symbol : String} {units : Table String}
    (symbols : forall entry, entry ∈ units -> entry.1 ≠ "") {unit : UnitOfMeasure}
    (found : (createUnits catalog units registry).1.get? symbol = some unit) :
    unit.label = ⟨catalog, symbol⟩ ∧ unit ∉ registry.units ∧
      unit ∈ (createUnits catalog units registry).2.units ∧
      ∃ name, units.get? symbol = some name ∧
        (createUnits catalog units registry).2.nameOf unit =
          if name = "" then symbol else name := by
  induction units generalizing registry with
  | nil => cases found
  | cons first rest inductionHypothesis =>
      rcases first with ⟨head, name⟩
      have someSymbol := symbols _ List.mem_cons_self
      have others := fun entry member => symbols entry (List.mem_cons_of_mem (head, name) member)
      have created : Changes registry (registry.createUnit catalog head name).2 :=
        .create catalog head name someSymbol
      rw [createUnits, Table.get?] at found
      split at found
      · rename_i same
        subst same
        cases found
        have known : (registry.createUnit catalog head name).1 ∈
            (registry.createUnit catalog head name).2.units := by
          rw [units_createUnit]
          exact List.mem_append_right _ (List.mem_singleton_self _)
        refine ⟨rfl, sound.createUnit_new catalog head name, ?_, name, if_pos rfl, ?_⟩
        · exact (changes_createUnits catalog others).1.units_subset known
        · rw [createUnits]
          dsimp only
          rw [nameOf, record?_createUnits known, ← nameOf, sound.nameOf_createUnit]
      · rename_i different
        rcases @inductionHypothesis _ (sound.changes created) others found with
          ⟨label, new, known, shown, named, name⟩
        refine ⟨label, fun old => new (created.units_subset old), known, shown, ?_, name⟩
        rw [Table.get?, if_neg different, named]

/-- A batch whose declarations name known units is finished. -/
theorem finish_eq {batch : UnitBatch R} (isOpen : batch.finished = false)
    {resolved : List (ResolvedDeclaration R)}
    (named : batch.declarations.mapM (resolveDeclaration
      (batch.unitFor (createUnits batch.catalog batch.units registry).1 registry)) = .ok resolved)
    (someUnits : forall write, write ∈ resolved.flatMap ResolvedDeclaration.writes ->
      write.unit.isDimensionless = false) :
    batch.finish registry =
      .ok (⟨(createUnits batch.catalog batch.units registry).1, batch.declarations⟩,
        (createUnits batch.catalog batch.units registry).2.writeAll
          (resolved.flatMap ResolvedDeclaration.writes)) := by
  have isOpen : batch.requireOpen = .ok ⟨⟩ := by
    rw [requireOpen, isOpen]
    rfl
  refine (bind_eq_of_ok isOpen).trans ((bind_eq_of_ok named).trans ?_)
  exact bind_eq_of_ok (performs_enterAll resolved someUnits _)

/-- A batch whose declarations name known units is installed. -/
theorem install_eq {batch : UnitBatch R} (isOpen : batch.finished = false)
    {resolved : List (ResolvedDeclaration R)}
    (named : batch.declarations.mapM (resolveDeclaration
      (batch.unitFor (createUnits batch.catalog batch.units registry).1 registry)) = .ok resolved)
    (someUnits : forall write, write ∈ resolved.flatMap ResolvedDeclaration.writes ->
      write.unit.isDimensionless = false) :
    batch.install registry =
      .ok { (createUnits batch.catalog batch.units registry).2.writeAll
          (resolved.flatMap ResolvedDeclaration.writes) with
        catalogs := registry.catalogs.set batch.catalog
          ⟨(createUnits batch.catalog batch.units registry).1, batch.declarations⟩ } := by
  refine (bind_eq_of_ok (finish_eq isOpen named someUnits)).trans ?_
  dsimp only
  rw [catalogs_writeAll, catalogs_createUnits]

/-- What installing a batch changes, whose declarations name the units that are given. -/
structure Installs (batch : UnitBatch R) (registry : Registry R)
    (resolved : List (ResolvedDeclaration R)) (changed : Registry R) : Prop where
  held : forall name symbol, changed.heldUnit? name symbol =
    if name = batch.catalog then
      (createUnits batch.catalog batch.units registry).1.get? symbol
    else registry.heldUnit? name symbol
  keys : forall name, name ∈ changed.catalogs.keys <->
    name = batch.catalog ∨ name ∈ registry.catalogs.keys
  distinct : registry.catalogs.keys.Nodup -> changed.catalogs.keys.Nodup
  others : forall name, name ≠ batch.catalog ->
    changed.catalogs.get? name = registry.catalogs.get? name
  catalog : changed.catalogs.get? batch.catalog =
    some ⟨(createUnits batch.catalog batch.units registry).1, batch.declarations⟩
  units : changed.units = (createUnits batch.catalog batch.units registry).2.units
  names : forall unit, changed.nameOf unit =
    (createUnits batch.catalog batch.units registry).2.nameOf unit
  relations : forall unit key, changed.relation? unit key =
    (lastWrite unit key (resolved.flatMap ResolvedDeclaration.writes)).or
      (registry.relation? unit key)
  journal : forall {log}, registry.Journal log -> changed.Journal (log ++ resolved)

theorem installs {batch : UnitBatch R} (isOpen : batch.finished = false)
    {resolved : List (ResolvedDeclaration R)}
    (named : batch.declarations.mapM (resolveDeclaration
      (batch.unitFor (createUnits batch.catalog batch.units registry).1 registry)) = .ok resolved)
    (known : forall one, one ∈ resolved ->
      (createUnits batch.catalog batch.units registry).2.KnowsNamed one)
    (sound : (createUnits batch.catalog batch.units registry).2.Sound) :
    ∃ changed, batch.install registry = .ok changed ∧
      batch.Installs registry resolved changed := by
  have recorded : forall write, write ∈ resolved.flatMap ResolvedDeclaration.writes ->
      write.unit ∈ (createUnits batch.catalog batch.units registry).2.units := by
    intro write member
    rcases List.mem_flatMap.mp member with ⟨one, inside, written⟩
    exact (known one inside).writes write written
  have installed := install_eq isOpen named fun write member =>
    sound.symbols _ (recorded write member)
  refine ⟨_, installed, ?_⟩
  exact
    { held := by
        intro name symbol
        rw [heldUnit?, Table.get?_set]
        by_cases same : batch.catalog = name
        · rw [if_pos same, if_pos same.symm]
          rfl
        · rw [if_neg same, if_neg (Ne.symm same)]
          rfl
      keys := fun name => Table.mem_keys_set
      distinct := fun distinct => Table.nodup_keys_set distinct _ _
      others := fun name different => by rw [Table.get?_set, if_neg (Ne.symm different)]
      catalog := by rw [Table.get?_set, if_pos rfl]
      units := units_writeAll _
      names := nameOf_writeAll _
      relations := by
        intro unit key
        refine (relation?_writeAll recorded).trans ?_
        rw [relation?_createUnits]
      journal := fun journal =>
        ((journal.createUnits batch.catalog batch.units).declareAll known).recatalog _ }

end UnitBatch
end QuantityCalculus
