import QuantityCalculus.Proofs.Storage.Trees
import QuantityCalculus.Proofs.Storage.UnitFiles
import QuantityCalculus.Storage.Catalogs

namespace QuantityCalculus

/-!
# What a file tree keeps of a registry

A tree keeps some catalogs of a registry when it holds a directory for each of them, in
each directory one unit file for each unit, with its present name and declarations, and
nothing else.  Saving a catalog after a change that concerns that catalog alone leads from
a tree that keeps the catalogs of the old registry to one that keeps those of the new one.

Catalogs and units whose names are plain and short can all be kept: their paths are
different, lie in the tree, and meet no temporary path.
-/

/-! ## Names that can be kept -/

/-- A name of word characters. -/
def Text.isPlainName (name : String) : Bool :=
  name != "" && name.toList.all Text.isWordCharacter

namespace FileTree

/-- A name that a catalog can be kept under. -/
@[mk_iff]
structure IsCatalogName (name : String) : Prop where
  plain : Text.isPlainName name = true
  fits : isPartAllowed (catalogPath name) = true

/-- A symbol that a unit can be kept under, also while its file is written. -/
@[mk_iff]
structure IsUnitSymbol (symbol : String) : Prop where
  plain : Text.isPlainName symbol = true
  fits : isPartAllowed (temporaryPath (symbol ++ unitEnding)) = true

instance (name : String) : Decidable (IsCatalogName name) :=
  decidable_of_iff' _ (isCatalogName_iff name)

instance (symbol : String) : Decidable (IsUnitSymbol symbol) :=
  decidable_of_iff' _ (isUnitSymbol_iff symbol)

/-- Where a unit is kept. -/
def unitPath (name symbol : String) : String :=
  childPath (catalogPath name) (symbol ++ unitEnding)

/-- Where a unit is kept while its file is written. -/
def scratchPath (name symbol : String) : String :=
  childPath (catalogPath name) (temporaryPath (symbol ++ unitEnding))

/-- A plain name with an ending is one part of a path. -/
theorem isPart_of_plain {name ending : String} (plain : Text.isPlainName name = true)
    (noSlash : '/' ∉ ending.toList) : IsPart (name ++ ending) := by
  rw [Text.isPlainName, Bool.and_eq_true, bne_iff_ne] at plain
  rcases plain with ⟨written, words⟩
  have word : forall c, c ∈ name.toList -> Text.isWordCharacter c = true :=
    List.all_eq_true.mp words
  cases letters : name.toList with
  | nil => exact absurd (String.toList_eq_nil_iff.mp letters) written
  | cons first rest =>
      have text : (name ++ ending).toList = first :: (rest ++ ending.toList) := by
        rw [String.toList_append, letters, List.cons_append]
      refine ⟨fun none => ?_, fun point => ?_, fun slash => ?_⟩
      · rw [none] at text
        cases text
      · rw [point] at text
        have pointed : first = '.' := (List.cons.inj text).1.symm
        have isWord := word first (letters ▸ List.mem_cons_self)
        rw [pointed] at isWord
        exact absurd isWord (by decide +kernel)
      · rw [String.toList_append] at slash
        rcases List.mem_append.mp slash with inName | inEnding
        · exact absurd (word '/' inName) (by decide +kernel)
        · exact noSlash inEnding

section

variable {name symbol : String}

theorem IsCatalogName.isPart (isName : IsCatalogName name) : IsPart (catalogPath name) :=
  isPart_of_plain isName.plain (by decide)

theorem IsUnitSymbol.isPart (isSymbol : IsUnitSymbol symbol) : IsPart (symbol ++ unitEnding) :=
  isPart_of_plain isSymbol.plain (by decide)

theorem IsUnitSymbol.isPart_temporary (isSymbol : IsUnitSymbol symbol) :
    IsPart (temporaryPath (symbol ++ unitEnding)) := by
  rw [temporaryPath, String.append_assoc]
  exact isPart_of_plain isSymbol.plain (by decide)

theorem catalogPath_inj {other : String} (same : catalogPath name = catalogPath other) :
    name = other :=
  (String.append_left_inj catalogEnding).mp same

theorem unitPath_inj {name' symbol' : String} (isName : IsCatalogName name)
    (isSymbol : IsUnitSymbol symbol) (isName' : IsCatalogName name')
    (isSymbol' : IsUnitSymbol symbol') (same : unitPath name symbol = unitPath name' symbol') :
    name = name' ∧ symbol = symbol' := by
  rcases childPath_inj isName.isPart isSymbol.isPart isName'.isPart isSymbol'.isPart same with
    ⟨names, symbols⟩
  exact ⟨catalogPath_inj names, (String.append_left_inj unitEnding).mp symbols⟩

theorem unitPath_ne_catalogPath {other : String} (isName : IsCatalogName name)
    (isSymbol : IsUnitSymbol symbol) (isOther : IsCatalogName other) :
    unitPath name symbol ≠ catalogPath other :=
  childPath_ne_part isName.isPart isSymbol.isPart isOther.isPart

theorem scratchPath_ne_catalogPath {other : String} (isName : IsCatalogName name)
    (isSymbol : IsUnitSymbol symbol) (isOther : IsCatalogName other) :
    scratchPath name symbol ≠ catalogPath other :=
  childPath_ne_part isName.isPart isSymbol.isPart_temporary isOther.isPart

/-- A unit file ends as no temporary text does. -/
theorem scratchPath_ne_unitPath {name' symbol' : String} (isName : IsCatalogName name)
    (isSymbol : IsUnitSymbol symbol) (isName' : IsCatalogName name')
    (isSymbol' : IsUnitSymbol symbol') : scratchPath name symbol ≠ unitPath name' symbol' := by
  intro same
  have parts := (childPath_inj isName.isPart isSymbol.isPart_temporary isName'.isPart
    isSymbol'.isPart same).2
  have ends := congrArg (fun text : String => text.toList.getLast?) parts
  have scratch : (temporaryPath (symbol ++ unitEnding)).toList.getLast? = some 'p' := by
    rw [temporaryPath, String.toList_append, List.getLast?_append_of_ne_nil _ (by decide)]
    rfl
  have kept : (symbol' ++ unitEnding).toList.getLast? = some 't' := by
    rw [String.toList_append, List.getLast?_append_of_ne_nil _ (by decide)]
    rfl
  rw [scratch, kept] at ends
  exact absurd ends (by decide)

end

end FileTree

/-! ## Trees that keep a registry -/

variable {R : Type}

/-- All catalogs and units of a registry can be kept. -/
structure Registry.Storable (registry : Registry R) : Prop where
  name : forall {name catalog}, registry.catalogs.get? name = some catalog ->
    FileTree.IsCatalogName name
  symbol : forall {name catalog symbol unit}, registry.catalogs.get? name = some catalog ->
    catalog.units.get? symbol = some unit -> FileTree.IsUnitSymbol symbol
  distinct : forall {name catalog}, registry.catalogs.get? name = some catalog ->
    catalog.units.keys.Nodup

theorem Registry.Storable.symbol_of_key {registry : Registry R} (storable : registry.Storable)
    {name : String} {catalog : Catalog R} (found : registry.catalogs.get? name = some catalog)
    {symbol : String} (member : symbol ∈ catalog.units.keys) : FileTree.IsUnitSymbol symbol := by
  rcases Table.exists_of_mem_keys member with ⟨unit, held⟩
  exact storable.symbol found held

namespace FileTree

variable [Scalar R]

/-- A tree holds the unit files of some catalogs of a registry, and nothing else. -/
structure Keeps (tree : FileTree) (registry : Registry R) (saved : List String) : Prop where
  known : forall {name}, name ∈ saved -> ∃ catalog, registry.catalogs.get? name = some catalog
  directory : forall {name}, name ∈ saved -> tree.get? (catalogPath name) = some .directory
  unit : forall {name catalog symbol unit}, name ∈ saved ->
    registry.catalogs.get? name = some catalog -> catalog.units.get? symbol = some unit ->
    tree.get? (unitPath name symbol) = some (.text (unitText registry catalog symbol unit))
  only : forall {path entry}, tree.get? path = some entry ->
    (∃ name, name ∈ saved ∧ path = catalogPath name) ∨
      ∃ name catalog symbol unit, name ∈ saved ∧ registry.catalogs.get? name = some catalog ∧
        catalog.units.get? symbol = some unit ∧ path = unitPath name symbol

theorem keeps_empty (registry : Registry R) : Keeps [] registry [] :=
  ⟨nofun, nofun, nofun, nofun⟩

/-- The unit files of a catalog by path. -/
def unitFiles (registry : Registry R) (name : String) (catalog : Catalog R)
    (units : Table UnitOfMeasure) : Table FileEntry :=
  units.map fun entry =>
    (unitPath name entry.1, .text (unitText registry catalog entry.1 entry.2))

theorem get?_unitFiles {registry : Registry R} {name : String} {catalog : Catalog R}
    {units : Table UnitOfMeasure} (isName : IsCatalogName name)
    (symbols : forall symbol, symbol ∈ units.keys -> IsUnitSymbol symbol) {symbol : String}
    (isSymbol : IsUnitSymbol symbol) :
    (unitFiles registry name catalog units).get? (unitPath name symbol) =
      (units.get? symbol).map fun unit => .text (unitText registry catalog symbol unit) := by
  induction units with
  | nil => rfl
  | cons entry rest inductionHypothesis =>
      rcases entry with ⟨first, unit⟩
      have firstSymbol := symbols first List.mem_cons_self
      have further := inductionHypothesis fun other member =>
        symbols other (List.mem_cons_of_mem _ member)
      rw [unitFiles, List.map_cons, Table.get?, Table.get?]
      by_cases same : first = symbol
      · subst same
        rw [if_pos rfl, if_pos rfl]
        rfl
      · rw [if_neg same, if_neg fun path =>
          same (unitPath_inj isName firstSymbol isName isSymbol path).2]
        exact further

theorem of_get?_unitFiles {registry : Registry R} {name : String} {catalog : Catalog R}
    {units : Table UnitOfMeasure} {path : String} {entry : FileEntry}
    (found : (unitFiles registry name catalog units).get? path = some entry) :
    ∃ symbol, symbol ∈ units.keys ∧ path = unitPath name symbol := by
  rcases List.mem_map.mp (Table.mem_keys_of_get? found) with ⟨file, member, rfl⟩
  rcases List.mem_map.mp member with ⟨unit, inside, rfl⟩
  exact ⟨unit.1, List.mem_map.mpr ⟨unit, inside, rfl⟩, rfl⟩

section

variable {tree : FileTree} {registry : Registry R} {name : String} {catalog : Catalog R}

/-- All unit files of a catalog are written, and nothing else changes. -/
theorem get?_writeUnits (registry : Registry R) (catalog : Catalog R)
    {units : Table UnitOfMeasure} (distinct : units.keys.Nodup) (isName : IsCatalogName name)
    (symbols : forall symbol, symbol ∈ units.keys -> IsUnitSymbol symbol)
    (place : tree.get? (catalogPath name) = some .directory)
    (free : forall symbol, symbol ∈ units.keys -> tree.get? (scratchPath name symbol) = none)
    (noDirectory : forall symbol, symbol ∈ units.keys ->
      tree.get? (unitPath name symbol) ≠ some .directory) :
    ∃ written, writeUnits registry catalog (catalogPath name) units tree = (written, true) ∧
      forall path, written.get? path =
        ((unitFiles registry name catalog units).get? path).or (tree.get? path) := by
  induction units generalizing tree with
  | nil => exact ⟨tree, rfl, fun _ => rfl⟩
  | cons entry rest inductionHypothesis =>
      rcases entry with ⟨symbol, unit⟩
      rcases List.nodup_cons.mp distinct with ⟨new, restDistinct⟩
      have isSymbol := symbols symbol List.mem_cons_self
      rcases get?_write (unitText registry catalog symbol unit) isName.isPart isSymbol.isPart
        isSymbol.isPart_temporary isName.fits isSymbol.fits place (free symbol List.mem_cons_self)
        (noDirectory symbol List.mem_cons_self) with ⟨middle, write, changed⟩
      have others : forall path, path ≠ unitPath name symbol ->
          middle.get? path = tree.get? path := by
        intro path different
        exact (changed path).trans (if_neg different.symm)
      have restSymbols := fun other member => symbols other (List.mem_cons_of_mem symbol member)
      rcases @inductionHypothesis middle restDistinct restSymbols
        ((others _ (unitPath_ne_catalogPath isName isSymbol isName).symm).trans place)
        (fun other member => (others _ (scratchPath_ne_unitPath isName (restSymbols other member)
          isName isSymbol)).trans (free other (List.mem_cons_of_mem _ member)))
        (fun other member => by
          have different : other ≠ symbol := fun same => new (same ▸ member)
          rw [others _ fun same => different
            (unitPath_inj isName (restSymbols other member) isName isSymbol same).2]
          exact noDirectory other (List.mem_cons_of_mem _ member)) with ⟨written, run, lookups⟩
      refine ⟨written, ?_, fun path => ?_⟩
      · unfold writeUnits
        rw [write]
        exact run
      · have files : unitFiles registry name catalog ((symbol, unit) :: rest) =
            (unitPath name symbol, .text (unitText registry catalog symbol unit)) ::
              unitFiles registry name catalog rest := rfl
        rw [lookups path, changed path, files, Table.get?, ← unitPath]
        by_cases same : unitPath name symbol = path
        · subst same
          have nowhere : (unitFiles registry name catalog rest).get? (unitPath name symbol) =
              none := by
            rw [get?_unitFiles isName restSymbols isSymbol,
              (Table.get?_eq_none_iff rest symbol).mpr new]
            rfl
          rw [nowhere, if_pos rfl, if_pos rfl]
          rfl
        · rw [if_neg same, if_neg same]

theorem Keeps.directory_only {saved : List String} (keeps : tree.Keeps registry saved)
    (storable : registry.Storable) (isName : IsCatalogName name) {entry : FileEntry}
    (found : tree.get? (catalogPath name) = some entry) : entry = .directory := by
  rcases keeps.only found with ⟨other, member, path⟩ |
    ⟨other, _, symbol, unit, _, there, held, path⟩
  · rw [catalogPath_inj path, keeps.directory member] at found
    exact (Option.some.inj found).symm
  · exact absurd path.symm
      (unitPath_ne_catalogPath (storable.name there) (storable.symbol there held) isName)

theorem Keeps.text_only {saved : List String} (keeps : tree.Keeps registry saved)
    (storable : registry.Storable) (isName : IsCatalogName name) {symbol : String}
    (isSymbol : IsUnitSymbol symbol) : tree.get? (unitPath name symbol) ≠ some .directory := by
  intro found
  rcases keeps.only found with ⟨other, member, path⟩ |
    ⟨other, _, symbol', unit, member, there, held, path⟩
  · rcases keeps.known member with ⟨_, there⟩
    exact unitPath_ne_catalogPath isName isSymbol (storable.name there) path
  · rw [path, keeps.unit member there held] at found
    cases found

theorem Keeps.scratch_free {saved : List String} (keeps : tree.Keeps registry saved)
    (storable : registry.Storable) (isName : IsCatalogName name) {symbol : String}
    (isSymbol : IsUnitSymbol symbol) : tree.get? (scratchPath name symbol) = none := by
  refine Option.eq_none_iff_forall_ne_some.mpr fun entry found => ?_
  rcases keeps.only found with ⟨other, member, path⟩ |
    ⟨other, _, symbol', unit, _, there, held, path⟩
  · rcases keeps.known member with ⟨_, there⟩
    exact scratchPath_ne_catalogPath isName isSymbol (storable.name there) path
  · exact scratchPath_ne_unitPath isName isSymbol (storable.name there)
      (storable.symbol there held) path

/-- What a tree holds once a catalog is saved. -/
theorem Keeps.get?_saveCatalog {saved : List String} (keeps : tree.Keeps registry saved)
    (before : registry.Storable) {changed : Registry R} (after : changed.Storable)
    (found : changed.catalogs.get? name = some catalog) :
    forall path, (tree.saveCatalog changed name catalog).1.get? path =
      ((unitFiles changed name catalog catalog.units).get? path).or
        (if catalogPath name = path then some .directory else tree.get? path) := by
  have isName := after.name found
  have isSymbol : forall symbol, symbol ∈ catalog.units.keys -> IsUnitSymbol symbol :=
    fun _ => after.symbol_of_key found
  rcases get?_makeDirectory isName.isPart isName.fits fun content here =>
    nomatch keeps.directory_only before isName here with ⟨made, make, lookup⟩
  have elsewhere : forall symbol, symbol ∈ catalog.units.keys ->
      made.get? (scratchPath name symbol) = none ∧
        made.get? (unitPath name symbol) ≠ some .directory := by
    intro symbol member
    have isSymbol := isSymbol symbol member
    rw [lookup, lookup, if_neg (scratchPath_ne_catalogPath isName isSymbol isName).symm,
      if_neg (unitPath_ne_catalogPath isName isSymbol isName).symm]
    exact ⟨keeps.scratch_free before isName isSymbol, keeps.text_only before isName isSymbol⟩
  rcases get?_writeUnits changed catalog (after.distinct found) isName
    isSymbol ((lookup _).trans (if_pos rfl)) (fun symbol member => (elsewhere symbol member).1)
    (fun symbol member => (elsewhere symbol member).2) with ⟨written, write, lookups⟩
  intro path
  rw [saveCatalog, make, ← lookup path, ← lookups path]
  simp only [write]

/-- Saving a catalog after a change of it keeps the changed registry. -/
theorem Keeps.save {changed : Registry R} {saved : List String}
    (keeps : tree.Keeps registry saved) (before : registry.Storable) (after : changed.Storable)
    (found : changed.catalogs.get? name = some catalog)
    (others : forall other, other ≠ name ->
      changed.catalogs.get? other = registry.catalogs.get? other)
    (texts : forall other otherCatalog symbol unit, other ≠ name ->
      registry.catalogs.get? other = some otherCatalog ->
      otherCatalog.units.get? symbol = some unit ->
      unitText changed otherCatalog symbol unit = unitText registry otherCatalog symbol unit)
    (grows : forall old symbol unit, registry.catalogs.get? name = some old ->
      old.units.get? symbol = some unit -> ∃ new, catalog.units.get? symbol = some new) :
    (tree.saveCatalog changed name catalog).1.Keeps changed (name :: saved) := by
  have isName := after.name found
  have isSymbol : forall symbol, symbol ∈ catalog.units.keys -> IsUnitSymbol symbol :=
    fun _ => after.symbol_of_key found
  have lookups := keeps.get?_saveCatalog before after found
  have known : forall {other}, other ∈ name :: saved ->
      ∃ catalog, changed.catalogs.get? other = some catalog := by
    intro other member
    by_cases same : other = name
    · exact ⟨catalog, same ▸ found⟩
    · rw [others other same]
      exact keeps.known ((List.mem_cons.mp member).resolve_left same)
  have noFile : forall {path}, (forall symbol, symbol ∈ catalog.units.keys ->
      path ≠ unitPath name symbol) ->
      (unitFiles changed name catalog catalog.units).get? path = none := by
    intro path different
    refine Option.eq_none_iff_forall_ne_some.mpr fun entry there => ?_
    rcases of_get?_unitFiles there with ⟨symbol, member, same⟩
    exact different symbol member same
  refine ⟨known, fun {other} member => ?_,
    fun {other otherCatalog symbol unit} member there held => ?_, fun {path entry} there => ?_⟩
  · rcases known member with ⟨_, there⟩
    rw [lookups, noFile fun symbol inside =>
      (unitPath_ne_catalogPath isName (isSymbol symbol inside) (after.name there)).symm,
      Option.none_or]
    split
    · rfl
    · rename_i different
      refine keeps.directory ((List.mem_cons.mp member).resolve_left fun same => ?_)
      exact different (same ▸ rfl)
  · have otherSymbol := after.symbol there held
    by_cases same : other = name
    · subst same
      cases found.symm.trans there
      rw [lookups, get?_unitFiles isName isSymbol otherSymbol, held]
      rfl
    · rw [lookups, noFile fun symbol' inside path => same
        (unitPath_inj (after.name there) otherSymbol isName (isSymbol symbol' inside) path).1,
        Option.none_or, if_neg (unitPath_ne_catalogPath (after.name there) otherSymbol isName).symm]
      rw [others other same] at there
      rw [texts other otherCatalog symbol unit same there held]
      exact keeps.unit ((List.mem_cons.mp member).resolve_left same) there held
  · rw [lookups] at there
    rcases Option.or_eq_some_iff.mp there with file | ⟨_, there⟩
    · rcases of_get?_unitFiles file with ⟨symbol, inside, path⟩
      rcases Table.exists_of_mem_keys inside with ⟨unit, held⟩
      exact Or.inr ⟨name, catalog, symbol, unit, List.mem_cons_self, found, held, path⟩
    · split at there
      · rename_i same
        exact Or.inl ⟨name, List.mem_cons_self, same.symm⟩
      · rcases keeps.only there with ⟨other, member, path⟩ |
          ⟨other, old, symbol, unit, member, inForce, held, path⟩
        · exact Or.inl ⟨other, List.mem_cons_of_mem _ member, path⟩
        · refine Or.inr ?_
          by_cases same : other = name
          · subst same
            rcases grows old symbol unit inForce held with ⟨new, heldNow⟩
            exact ⟨other, catalog, symbol, new, List.mem_cons_self, found, heldNow, path⟩
          · exact ⟨other, old, symbol, unit, List.mem_cons_of_mem _ member,
              (others other same).trans inForce, held, path⟩

end

end FileTree
end QuantityCalculus
