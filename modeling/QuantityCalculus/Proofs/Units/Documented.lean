import QuantityCalculus.Proofs.Units.Contents

namespace QuantityCalculus

/-!
# Registries with the notes of their declarations

A note is a declaration with the catalog that it was made in and the units that it named
then.  A registry is documented by the notes of all its declarations when no unit was ever
replaced in it: the notes tell its tables and, catalog by catalog, its declarations.

Units that are defined need no note, a declaration is noted with the units that it names
now, and a catalog that is installed brings the notes of its batch.
-/

variable {R : Type}

namespace Registry

/-- The notes of all declarations tell what a registry holds, and no unit was ever replaced. -/
structure Documented (registry : Registry R) (notes : List (Note R)) : Prop where
  sound : registry.Sound
  distinct : registry.catalogs.keys.Nodup
  journal : registry.Journal (notes.map Note.resolved)
  label : forall {name symbol unit}, registry.heldUnit? name symbol = some unit ->
    unit.label = ⟨name, symbol⟩
  held : forall {unit}, unit ∈ registry.units ->
    registry.heldUnit? unit.label.catalog unit.label.symbol = some unit
  declarations : forall name, registry.declarationsIn name =
    (notes.filter fun note => note.catalog == name).map fun note => note.resolved.declaration
  spelled : forall note, note ∈ notes -> note.resolved.Spelled
  inForce : forall note, note ∈ notes -> note.catalog ∈ registry.catalogs.keys

theorem empty_documented : Documented (empty : Registry R) [] where
  sound := empty_sound
  distinct := List.nodup_nil
  journal := empty_journal
  label := nofun
  held := nofun
  declarations := fun _ => rfl
  spelled := nofun
  inForce := nofun

section

variable {registry changed : Registry R} {notes : List (Note R)}

theorem Documented.names_known (documented : registry.Documented notes) {note : Note R}
    (member : note ∈ notes) {unit : UnitOfMeasure} (named : note.resolved.Names unit) :
    unit ∈ registry.units :=
  knowsNamed_iff.mp (documented.journal.named _ (List.mem_map_of_mem member)) unit named

/-- Units are found under their own symbols. -/
theorem Documented.symbol_of_findAny? (documented : registry.Documented notes) {symbol : String}
    {unit : UnitOfMeasure} (found : registry.findAny? symbol = some unit) :
    unit.label.symbol = symbol := by
  rcases held_of_findAny? documented.distinct found with ⟨name, held⟩
  rw [documented.label held]

theorem Documented.symbol_of_unitFor (documented : registry.Documented notes) {name : String}
    {catalog : Catalog R} (inForce : registry.catalogs.get? name = some catalog) {symbol : String}
    {unit : UnitOfMeasure} (found : registry.unitFor catalog symbol = .ok unit) :
    unit.label.symbol = symbol := by
  unfold Registry.unitFor at found
  split at found
  · rename_i here
    cases found
    rcases Option.or_eq_some_iff.mp here with own | ⟨_, other⟩
    · rw [documented.label (held_of_get? inForce own)]
    · exact documented.symbol_of_findAny? other
  · cases found

/-! ## Definitions -/

/-- A unit that is defined needs no note. -/
theorem Documented.defineUnit (documented : registry.Documented notes)
    {catalog symbol name : String} {unit : UnitOfMeasure}
    (defined : registry.defineUnit catalog symbol name = .ok (unit, changed)) :
    changed.Documented notes := by
  have defines := definesUnit documented.sound defined
  have isHeld : changed.heldUnit? catalog symbol = some unit :=
    (defines.held catalog symbol).trans (if_pos ⟨rfl, rfl⟩)
  have label : unit.label = ⟨catalog, symbol⟩ :=
    defines.label.elim documented.label And.right
  exact
    { sound := documented.sound.changesTo (changes_defineUnit documented.sound.held defined)
      distinct := defines.keys documented.distinct
      journal := defines.journal documented.journal
      label := by
        intro other otherSymbol there held
        rw [defines.held] at held
        split at held
        · rename_i same
          cases held
          rw [same.1, same.2, label]
        · exact documented.label held
      held := by
        intro other member
        rw [defines.held]
        rcases defines.units member with before | rfl
        · have held := documented.held before
          split
          · rename_i same
            rw [same.1, same.2] at held
            -- what the place held before is the unit that was defined again
            rcases defines.label with again | ⟨new, _⟩
            · rw [← again, held]
            · rw [new] at held
              cases held
          · exact held
        · rw [label, if_pos ⟨rfl, rfl⟩]
      declarations := fun other =>
        (defines.declarations other).trans (documented.declarations other)
      spelled := documented.spelled
      inForce := by
        intro note member
        by_cases same : note.catalog = catalog
        · rw [same]
          exact mem_keys_of_heldUnit? isHeld
        · rcases Table.exists_of_mem_keys (documented.inForce note member) with ⟨found, there⟩
          exact Table.mem_keys_of_get? ((defines.others _ same).trans there) }

/-! ## Declarations -/

/-- The note of a declaration that is made in a catalog. -/
def noteOf [Scalar R] (registry : Registry R) (places : Nat) (name line : String) :
    Except Failure (Note R) := do
  let catalog ← registry.catalog name
  let declaration ← RelationDeclaration.parse places line
  let resolved ← resolveDeclaration (registry.unitFor catalog) declaration
  .ok ⟨name, resolved⟩

/-- A declaration goes on with its note. -/
theorem Documented.defineRelation [Scalar R] (documented : registry.Documented notes)
    {places : Nat} {name line : String}
    (defined : registry.defineRelation places name line = .ok changed) :
    ∃ note, registry.noteOf places name line = .ok note ∧
      RelationDeclaration.parse places line = .ok note.resolved.declaration ∧
      note.catalog = name ∧ registry.DeclaresRelation name note.resolved changed ∧
      changed.Documented (notes ++ [note]) := by
  rcases declaresRelation documented.sound defined with
    ⟨catalog, declaration, resolved, inForce, parsed, named, declares⟩
  have noted : registry.noteOf places name line = .ok ⟨name, resolved⟩ := by
    refine (bind_eq_of_ok (catalog_eq_ok.mpr inForce)).trans ?_
    exact (bind_eq_of_ok parsed).trans (bind_eq_of_ok named)
  refine ⟨⟨name, resolved⟩, noted, ?_, rfl, declares, ?_⟩
  · rw [declaration_of_resolve named]
    exact parsed
  exact
    { sound := documented.sound.changesTo (changes_defineRelation documented.sound.held defined)
      distinct := declares.keys documented.distinct
      journal := by
        rw [List.map_append]
        exact declares.journal documented.journal
      label := fun held => documented.label ((declares.held _ _).symm.trans held)
      held := fun member =>
        (declares.held _ _).trans (documented.held (declares.units ▸ member))
      declarations := by
        intro other
        rw [declares.declarations, documented.declarations, List.filter_append, List.map_append]
        by_cases same : other = name
        · subst same
          simp
        · simp [same, Ne.symm same]
      spelled := by
        intro note member
        rcases List.mem_append.mp member with before | new
        · exact documented.spelled note before
        · rw [List.mem_singleton.mp new]
          exact spelled_of_resolve (fun _ _ => documented.symbol_of_unitFor inForce) named
      inForce := by
        intro note member
        rcases List.mem_append.mp member with before | new
        · exact (declares.inForce _).mpr (documented.inForce note before)
        · rw [List.mem_singleton.mp new]
          exact (declares.inForce _).mpr (Table.mem_keys_of_get? inForce) }

end

end Registry

/-! ## Catalogs -/

namespace UnitBatch

open Registry

section

variable {registry changed : Registry R} {notes : List (Note R)} {batch : UnitBatch R}

theorem declarations_of_mapM {unitOf : String -> Except Failure UnitOfMeasure}
    {declarations : List (RelationDeclaration R)} {resolved : List (ResolvedDeclaration R)}
    (named : declarations.mapM (resolveDeclaration unitOf) = .ok resolved) :
    resolved.map ResolvedDeclaration.declaration = declarations := by
  have same : resolved.map ResolvedDeclaration.declaration = declarations.map id :=
    map_of_mapM named declaration_of_resolve
  rwa [List.map_id] at same

/-- A new catalog goes on with the notes of its batch. -/
theorem documented_install [Scalar R] {places : Nat} (documented : registry.Documented notes)
    (collected : batch.Collected places) (distinct : batch.units.keys.Nodup)
    (new : batch.catalog ∉ registry.catalogs.keys) (isOpen : batch.finished = false)
    (installed : batch.install registry = .ok changed) :
    ∃ resolved, batch.declarations.mapM (resolveDeclaration
        (batch.unitFor (createUnits batch.catalog batch.units registry).1 registry)) =
          .ok resolved ∧ batch.Installs registry resolved changed ∧
      changed.Documented (notes ++ resolved.map (Note.mk batch.catalog)) := by
  rcases bind_eq_ok.mp installed with ⟨_, finished, _⟩
  rcases of_finish finished with ⟨resolved, named, _⟩
  have created := (@changes_createUnits _ registry batch.catalog _ collected.symbols).1
  rcases installs isOpen named (knowsNamed_of_mapM documented.sound.held collected named)
    (documented.sound.changesTo created) with ⟨same, installedSame, installs⟩
  cases installed.symm.trans installedSame
  have labelled : forall {symbol unit},
      (createUnits batch.catalog batch.units registry).1.get? symbol = some unit ->
      unit.label = ⟨batch.catalog, symbol⟩ := fun found =>
    (get?_createUnits documented.sound collected.symbols found).1
  have elsewhere : forall name, name ∈ registry.catalogs.keys -> name ≠ batch.catalog :=
    fun name member same => new (same ▸ member)
  refine ⟨resolved, named, installs, ?_⟩
  exact
    { sound := documented.sound.changesTo
        (changes_install documented.sound.held collected installed)
      distinct := installs.distinct documented.distinct
      journal := by
        rw [List.map_append, List.map_map, show Note.resolved ∘ Note.mk batch.catalog = id from rfl,
          List.map_id]
        exact installs.journal documented.journal
      label := by
        intro name symbol unit held
        rw [installs.held] at held
        split at held
        · rename_i same
          rw [same, labelled held]
        · exact documented.label held
      held := by
        intro unit member
        rw [installs.units] at member
        rcases mem_units_createUnits member with before | ⟨symbol, inBatch⟩
        · have held := documented.held before
          rw [installs.held, if_neg (elsewhere _ (mem_keys_of_heldUnit? held)), held]
        · have found : (createUnits batch.catalog batch.units registry).1.get? symbol =
              some unit := by
            refine Table.get?_of_mem ?_ inBatch
            rw [keys_createUnits]
            exact distinct
          rw [labelled found, installs.held, if_pos rfl, found]
      declarations := by
        intro name
        rw [List.filter_append, List.map_append, ← documented.declarations, declarationsIn]
        by_cases same : name = batch.catalog
        · subst same
          have none := (Table.get?_eq_none_iff _ _).mpr new
          rw [installs.catalog, declarationsIn, none, ← declarations_of_mapM named]
          simp [List.filter_map, Function.comp_def]
        · rw [installs.others name same]
          simp [List.filter_map, Function.comp_def, Ne.symm same, declarationsIn]
      spelled := by
        intro note member
        rcases List.mem_append.mp member with before | there
        · exact documented.spelled note before
        · rcases List.mem_map.mp there with ⟨one, inside, rfl⟩
          rcases of_mem_mapM named inside with ⟨declaration, _, found⟩
          refine spelled_of_resolve (fun symbol unit looked => ?_) found
          rcases unitFor_eq_ok looked with own | shared
          · rw [labelled own]
          · exact documented.symbol_of_findAny? shared
      inForce := by
        intro note member
        rcases List.mem_append.mp member with before | there
        · exact (installs.keys _).mpr (Or.inr (documented.inForce note before))
        · rcases List.mem_map.mp there with ⟨one, _, rfl⟩
          exact (installs.keys _).mpr (Or.inl rfl) }

end

end UnitBatch
end QuantityCalculus
