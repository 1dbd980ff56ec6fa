import Mathlib.Data.List.Nodup
import Mathlib.Data.Set.List
import QuantityCalculus.Proofs.Storage.Saving
import QuantityCalculus.Proofs.Units.Contents

namespace QuantityCalculus

/-!
# Catalogs loaded from what was kept

A kept tree is listed in the order of its names: the directories of the catalogs, and in
each directory the unit files.  Loading a catalog collects its files into a batch and
installs it, so that all its units are new and its declarations are made once more, file
by file.
-/

namespace FileTree

/-! ## What a kept tree lists -/

theorem hasEnding_append (name ending : String) : hasEnding ending (name ++ ending) = true := by
  rw [hasEnding, String.toList_append]
  exact List.isSuffixOf_iff_suffix.mpr (List.suffix_append _ _)

theorem exists_append_of_hasEnding {ending path : String} (ends : hasEnding ending path = true) :
    ∃ name, path = name ++ ending := by
  rcases List.isSuffixOf_iff_suffix.mp ends with ⟨name, same⟩
  refine ⟨String.ofList name, String.toList_injective ?_⟩
  rw [String.toList_append, String.toList_ofList, same]

/-- What stands before an ending is cut off by its length. -/
theorem take_append (name ending : String) :
    String.ofList ((name ++ ending).toList.take ((name ++ ending).length - ending.length)) =
      name := by
  rw [String.length_append, Nat.add_sub_cancel, String.toList_append, ← String.length_toList,
    List.take_left, String.ofList_toList]

theorem catalogNameOf_catalogPath {name : String} (part : IsPart (catalogPath name)) :
    catalogNameOf (catalogPath name) = name := by
  rw [catalogNameOf, nameOf_part part, catalogPath]
  simp only [hasEnding_append, if_true, take_append]

theorem stem_unitEnding {symbol : String} (isSymbol : IsUnitSymbol symbol) :
    stem unitEnding (symbol ++ unitEnding) = symbol := by
  have longer : symbol ++ unitEnding ≠ unitEnding := by
    intro same
    have plain := isSymbol.plain
    rw [String.append_eq_right_iff.mp same] at plain
    cases plain
  rw [stem, if_neg longer, if_pos (hasEnding_append symbol unitEnding), take_append]

/-- Names that are all of one form are that form of other names. -/
theorem exists_map_eq {form : String -> String} (injective : Function.Injective form)
    {names : List String} {Listed : String -> Prop}
    (listed : forall name, name ∈ names <-> ∃ source, Listed source ∧ name = form source) :
    ∃ sources : List String, names = sources.map form ∧
      forall source, source ∈ sources <-> Listed source := by
  have formed : names ∈ Set.range (List.map form) := by
    rw [Set.range_list_map]
    exact fun name member => ((listed name).mp member).imp fun _ both => both.2.symm
  rcases formed with ⟨sources, rfl⟩
  refine ⟨sources, rfl, fun source => ?_⟩
  rw [← List.mem_map_of_injective injective, listed]
  constructor
  · rintro ⟨other, inside, same⟩
    exact injective same ▸ inside
  · exact fun inside => ⟨source, inside, rfl⟩

variable {R : Type} [Scalar R] {tree : FileTree} {registry : Registry R} {saved : List String}

theorem Keeps.mem_namesIn_root (keeps : tree.Keeps registry saved) (storable : registry.Storable)
    {name : String} :
    name ∈ tree.namesIn "" <-> ∃ catalog, catalog ∈ saved ∧ name = catalogPath catalog := by
  have root : plainPath "" = "" := by decide
  rw [mem_namesIn]
  constructor
  · rintro ⟨path, entry, found, listed⟩
    rcases keeps.only found with ⟨catalog, member, rfl⟩ |
      ⟨catalog, _, symbol, unit, member, there, held, rfl⟩
    · rcases keeps.known member with ⟨_, there⟩
      rw [nameIn?_part (storable.name there).isPart] at listed
      exact ⟨catalog, member, (Option.some.inj listed).symm⟩
    · have isName := (storable.name there).isPart
      rw [unitPath, nameIn?_child isName (storable.symbol there held).isPart, root,
        if_neg isName.written] at listed
      cases listed
  · rintro ⟨catalog, member, rfl⟩
    rcases keeps.known member with ⟨_, there⟩
    exact ⟨catalogPath catalog, .directory, keeps.directory member,
      nameIn?_part (storable.name there).isPart⟩

theorem Keeps.mem_namesIn_catalog (keeps : tree.Keeps registry saved) (storable : registry.Storable)
    {place : String} {catalog : Catalog R} (member : place ∈ saved)
    (there : registry.catalogs.get? place = some catalog) {name : String} :
    name ∈ tree.namesIn (catalogPath place) <->
      ∃ symbol, symbol ∈ catalog.units.keys ∧ name = symbol ++ unitEnding := by
  have isPlace := (storable.name there).isPart
  rw [mem_namesIn]
  constructor
  · rintro ⟨path, entry, found, listed⟩
    rcases keeps.only found with ⟨other, inside, rfl⟩ |
      ⟨other, found, symbol, unit, inside, otherThere, held, rfl⟩
    · rcases keeps.known inside with ⟨_, otherThere⟩
      have isOther := (storable.name otherThere).isPart
      rw [nameIn?, directoryOf_part isOther, plainPath_part isPlace] at listed
      simp [isPlace.written.symm] at listed
    · have isOther := storable.name otherThere
      rw [unitPath, nameIn?_child isOther.isPart (storable.symbol otherThere held).isPart,
        plainPath_part isPlace] at listed
      split at listed
      · rename_i same
        cases catalogPath_inj same
        cases there.symm.trans otherThere
        cases listed
        exact ⟨symbol, Table.mem_keys_of_get? held, rfl⟩
      · cases listed
  · rintro ⟨symbol, inside, rfl⟩
    rcases Table.exists_of_mem_keys inside with ⟨unit, held⟩
    refine ⟨unitPath place symbol, _, keeps.unit member there held, ?_⟩
    rw [unitPath, nameIn?_child isPlace (storable.symbol there held).isPart,
      plainPath_part isPlace, if_pos rfl]

/-- The directories of a kept tree are those of the saved catalogs, each once and in order. -/
theorem Keeps.catalogDirectories (keeps : tree.Keeps registry saved)
    (storable : registry.Storable) :
    ∃ names : List String, tree.catalogDirectories = names.map catalogPath ∧
      (names.map catalogPath).Pairwise (· < ·) ∧ forall name, name ∈ names <-> name ∈ saved := by
  have listed : forall directory, directory ∈ tree.catalogDirectories <->
      ∃ name, name ∈ saved ∧ directory = catalogPath name := by
    intro directory
    rw [FileTree.catalogDirectories, List.mem_filter, namesEnding, List.mem_filter,
      keeps.mem_namesIn_root storable]
    constructor
    · exact fun both => both.1.1
    · rintro ⟨name, member, rfl⟩
      rcases keeps.known member with ⟨_, there⟩
      refine ⟨⟨⟨name, member, rfl⟩, hasEnding_append name catalogEnding⟩, ?_⟩
      rw [isDirectory, entry?_part (storable.name there).isPart, keeps.directory member]
      rfl
  have sorted : tree.catalogDirectories.Pairwise (· < ·) :=
    ((Text.sortedNames_sorted _).filter _).filter _
  rcases exists_map_eq (fun _ _ => catalogPath_inj) listed with ⟨names, same, saved⟩
  exact ⟨names, same, same ▸ sorted, saved⟩

/-- The unit files of a kept catalog are those of its units, in order. -/
theorem Keeps.unitFileNames (keeps : tree.Keeps registry saved) (storable : registry.Storable)
    {place : String} {catalog : Catalog R} (member : place ∈ saved)
    (there : registry.catalogs.get? place = some catalog) :
    ∃ symbols : List String,
      tree.namesEnding (catalogPath place) unitEnding = symbols.map (· ++ unitEnding) ∧
      (symbols.map (· ++ unitEnding)).Pairwise (· < ·) ∧
      forall symbol, symbol ∈ symbols <-> symbol ∈ catalog.units.keys := by
  have listed : forall name, name ∈ tree.namesEnding (catalogPath place) unitEnding <->
      ∃ symbol, symbol ∈ catalog.units.keys ∧ name = symbol ++ unitEnding := by
    intro name
    rw [namesEnding, List.mem_filter, keeps.mem_namesIn_catalog storable member there]
    constructor
    · exact And.left
    · rintro ⟨symbol, inside, rfl⟩
      exact ⟨⟨symbol, inside, rfl⟩, hasEnding_append symbol unitEnding⟩
  have sorted : (tree.namesEnding (catalogPath place) unitEnding).Pairwise (· < ·) :=
    (Text.sortedNames_sorted _).filter _
  rcases exists_map_eq (fun _ _ => (String.append_left_inj unitEnding).mp) listed with
    ⟨symbols, same, among⟩
  exact ⟨symbols, same, same ▸ sorted, among⟩

end FileTree

/-! ## Files collected -/

section

variable {R : Type} [Scalar R]

/-- The unit files of a registry are read as they were written. -/
structure Registry.Legible (registry : Registry R) : Prop where
  name : forall {place catalog symbol unit}, registry.catalogs.get? place = some catalog ->
    catalog.units.get? symbol = some unit -> IsContentLine (registry.nameOf unit)
  declaration : forall {place catalog declaration}, registry.catalogs.get? place = some catalog ->
    declaration ∈ catalog.declarations -> declaration.Readable

/-- The display name of a symbol in a catalog. -/
def Registry.nameIn (registry : Registry R) (catalog : Catalog R) (symbol : String) : String :=
  ((catalog.units.get? symbol).map registry.nameOf).getD ""

theorem FileTree.IsUnitSymbol.written {symbol : String} (isSymbol : FileTree.IsUnitSymbol symbol) :
    symbol ≠ "" := by
  rintro rfl
  exact absurd isSymbol.plain (by decide)

/-- A unit file that was written is collected with its unit and its declarations. -/
theorem UnitBatch.addFile_unitText {batch : UnitBatch R} (isOpen : batch.finished = false)
    (places : Nat) {registry : Registry R} {catalog : Catalog R} {symbol : String}
    {unit : UnitOfMeasure} (someSymbol : symbol ≠ "") (new : symbol ∉ batch.units.keys)
    (name : IsContentLine (registry.nameOf unit))
    (declarations : forall declaration, declaration ∈ catalog.declarations ->
      declaration.Readable) :
    batch.addFile places (FileTree.unitText registry catalog symbol unit) symbol =
      .ok { batch with
        units := batch.units ++ [(symbol, registry.nameOf unit)]
        declarations := batch.declarations ++ catalog.declarationsOf symbol } := by
  have requires : batch.requireOpen = .ok ⟨⟩ := by
    rw [requireOpen, isOpen]
    rfl
  have parsed : UnitFile.parse places (FileTree.unitText registry catalog symbol unit) =
      .ok ⟨registry.nameOf unit, catalog.declarationsOf symbol⟩ :=
    parse_unitFile places name fun declaration member =>
      declarations declaration (List.mem_filter.mp member).1
  have declared : batch.declareUnit symbol (registry.nameOf unit) =
      .ok { batch with units := batch.units ++ [(symbol, registry.nameOf unit)] } := by
    refine (bind_eq_of_ok requires).trans ?_
    dsimp only
    rw [if_neg someSymbol, if_neg name.written, Table.set_of_not_mem new]
  refine (bind_eq_of_ok requires).trans ((bind_eq_of_ok parsed).trans ?_)
  exact bind_eq_of_ok declared

namespace FileTree

variable {tree : FileTree} {registry : Registry R} {saved : List String}

theorem collected_collectUnits {places : Nat} {directory : String} {names : List String}
    {batch changed : UnitBatch R} (collected : batch.Collected places)
    (collects : tree.collectUnits places directory names batch = .ok changed) :
    changed.Collected places := by
  induction names generalizing batch with
  | nil =>
      cases collects
      exact collected
  | cons name rest inductionHypothesis =>
      rw [FileTree.collectUnits] at collects
      split at collects
      · cases collects
      · rcases bind_eq_ok.mp collects with ⟨middle, lifted, further⟩
        exact inductionHypothesis (collected.addFile (LoadFault.lift_eq_ok.mp lifted)) further

/-- The unit files of a kept catalog are collected with their units and declarations. -/
theorem Keeps.collectUnits (keeps : tree.Keeps registry saved) (storable : registry.Storable)
    (legible : registry.Legible) (places : Nat) {place : String} {catalog : Catalog R}
    (member : place ∈ saved) (there : registry.catalogs.get? place = some catalog)
    {symbols : List String} (distinct : symbols.Nodup)
    (inside : forall symbol, symbol ∈ symbols -> symbol ∈ catalog.units.keys)
    {batch : UnitBatch R} (isOpen : batch.finished = false)
    (new : forall symbol, symbol ∈ symbols -> symbol ∉ batch.units.keys) :
    tree.collectUnits places (catalogPath place) (symbols.map (· ++ unitEnding)) batch =
      .ok { batch with
        units := batch.units ++ symbols.map fun symbol => (symbol, registry.nameIn catalog symbol)
        declarations := batch.declarations ++ symbols.flatMap catalog.declarationsOf } := by
  induction symbols generalizing batch with
  | nil => simp [FileTree.collectUnits]
  | cons symbol rest inductionHypothesis =>
      rcases List.nodup_cons.mp distinct with ⟨notLater, restDistinct⟩
      rcases Table.exists_of_mem_keys (inside symbol List.mem_cons_self) with ⟨unit, held⟩
      have isSymbol := storable.symbol there held
      have content : tree.text? (childPath (catalogPath place) (symbol ++ unitEnding)) =
          some (unitText registry catalog symbol unit) := by
        have entry := keeps.unit member there held
        rw [unitPath] at entry
        rw [text?, entry?_child (storable.name there).isPart isSymbol.isPart, entry]
      have added := UnitBatch.addFile_unitText isOpen places isSymbol.written
        (new symbol List.mem_cons_self) (legible.name there held)
        fun declaration known => legible.declaration there known
      have named : registry.nameIn catalog symbol = registry.nameOf unit := by
        rw [Registry.nameIn, held]
        rfl
      rw [List.map_cons, FileTree.collectUnits, content]
      dsimp only
      rw [stem_unitEnding isSymbol, added]
      refine (inductionHypothesis restDistinct
        (fun other later => inside other (List.mem_cons_of_mem _ later)) (by exact isOpen)
        fun other later => ?_).trans ?_
      · rw [Table.keys, List.map_append]
        intro here
        rcases List.mem_append.mp here with before | same
        · exact new other (List.mem_cons_of_mem _ later) before
        · cases List.mem_singleton.mp same
          exact notLater later
      · simp [named, List.append_assoc]

end FileTree

end

end QuantityCalculus
