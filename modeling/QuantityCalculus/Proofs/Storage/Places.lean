import QuantityCalculus.Proofs.Session.Actions
import QuantityCalculus.Proofs.Storage.Loading
import QuantityCalculus.Proofs.Storage.TopLevel
import QuantityCalculus.Storage.Constants
import QuantityCalculus.Storage.Functions
import QuantityCalculus.Storage.Settings

namespace QuantityCalculus

/-!
# Where things are kept

Settings, constants and functions are texts at the top of the tree, each in a place of its
own, and a catalog is a directory there.  The places are told apart by how their names end.
What is written for a catalog, for the constants or for the time being lies elsewhere than
the settings and the functions, and stays elsewhere as long as no name has a slash.
-/

variable {R : Type}

/-! ## Names -/

namespace Text

theorem isNameCharacter_of_isName {text : List Char} (named : isName text = true) {c : Char}
    (member : c ∈ text) : isNameCharacter c = true := by
  cases text with
  | nil => cases named
  | cons first rest =>
      rw [isName, Bool.and_eq_true, List.all_eq_true] at named
      rcases List.mem_cons.mp member with rfl | later
      · exact isNameCharacter_of_isNameStart named.1
      · exact named.2 c later

/-- A complete name has no other signs but the line feed that may have ended its line. -/
theorem not_mem_of_isNameLine {text : List Char} (named : isNameLine text = true) {c : Char}
    (noEnd : c ≠ '\n') (other : isNameCharacter c = false) : c ∉ text := by
  intro member
  have refused : isNameCharacter c ≠ true := by
    rw [other]
    exact Bool.false_ne_true
  rw [isNameLine, Bool.or_eq_true, Bool.and_eq_true, beq_iff_eq] at named
  rcases named with whole | ⟨ended, whole⟩
  · exact refused (isNameCharacter_of_isName whole member)
  · have parts := List.dropLast_append_getLast? '\n' ended
    rw [← parts] at member
    rcases List.mem_append.mp member with before | last
    · exact refused (isNameCharacter_of_isName whole before)
    · exact noEnd (List.mem_singleton.mp last)

end Text

/-! ## The catalogs there are -/

namespace Registry

variable {registry changed : Registry R}

theorem mem_keys_defineUnit {name symbol shown : String} {unit : UnitOfMeasure}
    (defined : registry.defineUnit name symbol shown = .ok (unit, changed)) {other : String} :
    other ∈ changed.catalogs.keys <-> other = name ∨ other ∈ registry.catalogs.keys := by
  rw [defineUnit] at defined
  split at defined
  · cases defined
  · dsimp only at defined
    split at defined
    · rename_i known there
      have inForce : name ∈ registry.catalogs.keys := by
        cases held : registry.catalogs.get? name with
        | none =>
            rw [held] at there
            cases there
        | some found => exact Table.mem_keys_of_get? held
      have same : changed.catalogs = registry.catalogs := by
        cases defined
        split <;> rfl
      rw [same]
      exact ⟨Or.inr, fun either => either.elim (fun same => same ▸ inForce) id⟩
    · cases defined
      exact Table.mem_keys_set

variable [Scalar R]

theorem mem_keys_defineRelation {places : Nat} {name source : String}
    (defined : registry.defineRelation places name source = .ok changed) {other : String} :
    other ∈ changed.catalogs.keys <-> other ∈ registry.catalogs.keys := by
  rcases of_defineRelation defined with ⟨catalog, declaration, resolved, found, _, _, _, rfl⟩
  rw [Table.mem_keys_set, catalogs_writeAll]
  have inForce : name ∈ registry.catalogs.keys :=
    Table.mem_keys_of_get? (catalog_eq_ok.mp found)
  exact ⟨fun either => either.elim (fun same => same ▸ inForce) id, Or.inr⟩

end Registry

namespace UnitBatch

variable {batch changed : UnitBatch R} {registry made : Registry R}

/-- A batch puts one catalog in its place and leaves all others as they are. -/
theorem exists_catalogs_install (installed : batch.install registry = .ok made) :
    ∃ catalog, made.catalogs = registry.catalogs.set batch.catalog catalog := by
  rcases bind_eq_ok.mp installed with ⟨⟨catalog, middle⟩, finished, installed⟩
  cases installed
  rcases of_finish finished with ⟨resolved, _, rfl, rfl⟩
  rw [Registry.catalogs_writeAll, catalogs_createUnits]
  exact ⟨_, rfl⟩

theorem catalog_addFile [Scalar R] {places : Nat} {text symbol : String}
    (added : batch.addFile places text symbol = .ok changed) : changed.catalog = batch.catalog := by
  rcases of_addFile added with ⟨_, _, _, rfl⟩
  rfl

end UnitBatch

namespace FileTree

section

variable [Scalar R] {tree : FileTree} {places : Nat} {registry changed : Registry R}

theorem catalog_collectUnits {directory : String} {names : List String}
    {batch collected : UnitBatch R}
    (collects : tree.collectUnits places directory names batch = .ok collected) :
    collected.catalog = batch.catalog := by
  induction names generalizing batch with
  | nil =>
      cases collects
      rfl
  | cons name rest inductionHypothesis =>
      rw [collectUnits] at collects
      split at collects
      · cases collects
      · rcases bind_eq_ok.mp collects with ⟨middle, lifted, further⟩
        exact (inductionHypothesis further).trans
          (UnitBatch.catalog_addFile (LoadFault.lift_eq_ok.mp lifted))

/-- What is collected for a catalog is for it to the end. -/
theorem catalog_collected {directory name : String} {names : List String} {batch : UnitBatch R}
    (collects : tree.collectUnits places directory names (.start name true) = .ok batch) :
    batch.catalog = name :=
  catalog_collectUnits collects

/-- A directory gives the catalog that it is named for, and leaves all others as they are. -/
theorem exists_catalogs_loadCatalog {directory : String}
    (loaded : tree.loadCatalog places registry directory = .ok changed) :
    ∃ catalog, changed.catalogs = registry.catalogs.set (catalogNameOf directory) catalog := by
  rcases bind_eq_ok.mp loaded with ⟨batch, collects, installed⟩
  rw [← catalog_collected collects]
  exact UnitBatch.exists_catalogs_install (LoadFault.lift_eq_ok.mp installed)

theorem mem_keys_loadCatalog {directory : String}
    (loaded : tree.loadCatalog places registry directory = .ok changed) {other : String} :
    other ∈ changed.catalogs.keys <->
      other = catalogNameOf directory ∨ other ∈ registry.catalogs.keys := by
  rcases exists_catalogs_loadCatalog loaded with ⟨catalog, same⟩
  rw [same, Table.mem_keys_set]

/-- A catalog after loading was there before, or has a directory. -/
theorem of_mem_keys_loadCatalogs {directories : List String} {other : String}
    (member : other ∈ (tree.loadCatalogs places directories registry).1.catalogs.keys) :
    other ∈ registry.catalogs.keys ∨
      ∃ directory, directory ∈ directories ∧ other = catalogNameOf directory := by
  induction directories generalizing registry with
  | nil => exact Or.inl member
  | cons directory rest inductionHypothesis =>
      rw [loadCatalogs] at member
      split at member
      · rename_i middle loaded
        rcases inductionHypothesis member with before | ⟨later, inside, same⟩
        · rcases (mem_keys_loadCatalog loaded).mp before with same | earlier
          · exact Or.inr ⟨directory, List.mem_cons_self, same⟩
          · exact Or.inl earlier
        · exact Or.inr ⟨later, List.mem_cons_of_mem _ inside, same⟩
      · rcases inductionHypothesis member with before | ⟨later, inside, same⟩
        · exact Or.inl before
        · exact Or.inr ⟨later, List.mem_cons_of_mem _ inside, same⟩

end

/-! ## Places in the tree -/

/-- A place that belongs neither to the settings nor to a function. -/
structure IsElsewhere (path : String) : Prop where
  plain : IsPlainPath path
  settings : path ≠ settingsPath
  functions : forall name, IsPart (functionPath name) -> path ≠ functionPath name

theorem getLast?_append (name : String) {ending : String} (written : ending.toList ≠ []) :
    (name ++ ending).toList.getLast? = ending.toList.getLast? := by
  rw [String.toList_append, List.getLast?_append_of_ne_nil _ written]

/-- Places are told apart by their last letters. -/
theorem isElsewhere_of_last {path : String} (plain : IsPlainPath path)
    (settings : path.toList.getLast? ≠ some 'n') (functions : path.toList.getLast? ≠ some 'h') :
    IsElsewhere path where
  plain := plain
  settings := fun same => settings (same ▸ rfl)
  functions := fun name _ same => functions
    (same ▸ getLast?_append name (by decide : functionEnding.toList ≠ []))

theorem IsPart.temporary {path : String} (part : IsPart path) : IsPart (temporaryPath path) :=
  isPart_append part.whole (by decide) (by decide)

theorem IsPart.isElsewhere_temporary {path : String} (part : IsPart path) :
    IsElsewhere (temporaryPath path) := by
  have last : (temporaryPath path).toList.getLast? = some 'p' :=
    getLast?_append path (by decide : (".tmp" : String).toList ≠ [])
  refine isElsewhere_of_last part.temporary.isPlainPath ?_ ?_
  · rw [last]
    decide
  · rw [last]
    decide

theorem isPart_settingsPath : IsPart settingsPath :=
  ⟨by decide, by decide, by decide⟩

theorem IsInner.isElsewhere {path : String} (inner : IsInner path) : IsElsewhere path where
  plain := inner.1
  settings := fun same => isPart_settingsPath.not_isInner (same ▸ inner)
  functions := fun _ part same => part.not_isInner (same ▸ inner)

theorem IsCatalogPlace.isElsewhere {name path : String} (whole : '/' ∉ name.toList)
    (place : IsCatalogPlace name path) : IsElsewhere path := by
  rcases place with rfl | inner
  · have part : IsPart (catalogPath name) := isPart_append whole (by decide) (by decide)
    have last : (catalogPath name).toList.getLast? = some 's' :=
      getLast?_append name (by decide : catalogEnding.toList ≠ [])
    refine isElsewhere_of_last part.isPlainPath ?_ ?_
    · rw [last]
      decide
    · rw [last]
      decide
  · exact inner.isElsewhere

theorem isPart_constantsPath : IsPart constantsPath :=
  ⟨by decide, by decide, by decide⟩

theorem isElsewhere_constantsPath : IsElsewhere constantsPath :=
  isElsewhere_of_last isPart_constantsPath.isPlainPath (by decide) (by decide)

/-- The name of a function is the name of a text, and not of the one without a name. -/
theorem of_validFunctionName {name : String} (valid : validFunctionName.{0} name = .ok ⟨⟩) :
    IsPart (functionPath name) ∧ functionPath name ≠ functionEnding := by
  have named : Text.isNameLine name.toList = true := by
    unfold validFunctionName at valid
    split at valid
    · cases valid
    · rename_i refused
      simpa using refused
  refine ⟨isPart_append (Text.not_mem_of_isNameLine named (by decide) rfl) (by decide) (by decide),
    fun same => ?_⟩
  rw [String.append_eq_right_iff.mp same] at named
  cases named

/-- A text written at the top touches its place and its temporary place. -/
theorem touches_write_part (tree : FileTree) {path : String} (part : IsPart path)
    (content : String) :
    Touches (fun other => other = temporaryPath path ∨ other = path) (fun _ => False) tree
      (tree.write path content).1 := by
  have written := touches_write tree path content
  rw [plainPath_part part, plainPath_part part.temporary] at written
  exact written

/-- A text written at the top touches nothing else that is kept there. -/
theorem touches_write_top (tree : FileTree) {path : String} (part : IsPart path)
    (content : String) :
    Touches (fun other => IsElsewhere other ∨ other = path) (fun _ => False) tree
      (tree.write path content).1 := by
  refine (touches_write_part tree part content).mono (fun other place => ?_) fun _ => id
  rcases place with rfl | same
  · exact Or.inl part.isElsewhere_temporary
  · exact Or.inr same

theorem touches_saveConstants [Scalar R] (tree : FileTree) (constants : Table R) :
    Touches IsElsewhere (fun _ => False) tree (tree.saveConstants constants).1 := by
  refine (touches_write_top tree isPart_constantsPath _).mono (fun path place => ?_) fun _ => id
  rcases place with elsewhere | rfl
  · exact elsewhere
  · exact isElsewhere_constantsPath

theorem touches_removeText_top (tree : FileTree) {path : String} (part : IsPart path) :
    Touches (· = path) (fun _ => False) tree (tree.removeText path).1 := by
  have removed := touches_removeText tree path
  rw [plainPath_part part] at removed
  exact removed

theorem touches_rename_top {tree : FileTree} {source target : String} (part : IsPart source)
    (other : IsPart target) (noDirectory : tree.get? source ≠ some .directory) :
    Touches (fun path => path = source ∨ path = target) (fun _ => False) tree
      (tree.rename source target).1 := by
  have renamed : Touches _ _ tree (tree.rename source target).1 :=
    touches_rename (entry?_part part ▸ noDirectory)
  rw [plainPath_part part, plainPath_part other] at renamed
  exact renamed

end FileTree

/-! ## Functions as they are stored -/

namespace FunctionStore

variable {store functions : FunctionStore R} {name : String}

theorem define_eq_ok {definition : FunctionDefinition R} :
    store.define name definition = .ok functions <->
      validFunctionName.{0} name = .ok ⟨⟩ ∧ functions = store.set name definition := by
  constructor
  · intro defined
    rcases bind_eq_ok.mp defined with ⟨_, named, defined⟩
    cases defined
    exact ⟨named, rfl⟩
  · rintro ⟨named, rfl⟩
    exact bind_eq_of_ok named

theorem fetch_eq_ok {definition : FunctionDefinition R} :
    store.fetch name = .ok definition <-> store.get? name = some definition := by
  rw [fetch]
  cases store.get? name with
  | none => exact ⟨nofun, nofun⟩
  | some found => simp

theorem of_rename {old new : String} (renamed : store.rename old new = .ok functions) :
    validFunctionName.{0} new = .ok ⟨⟩ ∧ store.get? new = none ∧
      ∃ definition, store.get? old = some definition ∧
        functions = (store.remove old).set new definition := by
  rcases bind_eq_ok.mp renamed with ⟨_, named, renamed⟩
  split at renamed
  · cases renamed
  · rename_i free
    rcases bind_eq_ok.mp renamed with ⟨definition, found, renamed⟩
    cases renamed
    exact ⟨named, by simpa [Table.has] using free, definition, fetch_eq_ok.mp found, rfl⟩

theorem of_discard (discarded : store.discard name = .ok functions) :
    (∃ definition, store.get? name = some definition) ∧ functions = store.remove name := by
  rcases bind_eq_ok.mp discarded with ⟨definition, found, discarded⟩
  cases discarded
  exact ⟨⟨definition, fetch_eq_ok.mp found⟩, rfl⟩

end FunctionStore

/-- A function that is read again is the one that the tree has under its name. -/
theorem FileTree.of_loadFunction [Scalar R] {tree : FileTree} {store functions : FunctionStore R}
    {name : String} (loaded : tree.loadFunction store name = .ok functions) :
    ∃ content definition, tree.entry? (functionPath name) = some (.text content) ∧
      validFunctionName.{0} name = .ok ⟨⟩ ∧
      FunctionDefinition.parse name content = .ok definition ∧
      functions = store.set name definition := by
  rw [loadFunction] at loaded
  split at loaded
  · cases loaded
  · cases loaded
  · rename_i content kept
    rcases bind_eq_ok.mp (LoadFault.lift_eq_ok.mp loaded) with ⟨_, named, defined⟩
    rcases bind_eq_ok.mp defined with ⟨definition, parsed, defined⟩
    cases defined
    exact ⟨content, definition, kept, named, parsed, rfl⟩

end QuantityCalculus
