import Mathlib.Data.List.Forall2
import QuantityCalculus.Proofs.Storage.CatalogLoading

namespace QuantityCalculus

/-!
# Catalogs that can be used

Whether a directory keeps a catalog that can be used is told from its texts: each of its unit
files has to be read, and each unit that a declaration in them mentions has to have a file
among them or to be in the registry already.  These are the catalogs that are loaded, with the
units and the declarations of all their files, and the others are refused.
-/

variable {R : Type}

/-! ## Units that declarations mention -/

/-- A symbol stands in a declaration. -/
def RelationDeclaration.Mentions (declaration : RelationDeclaration R) (symbol : String) : Prop :=
  symbol = declaration.subject ∨ symbol = declaration.result ∨
    declaration.operand = .unit symbol

namespace Registry

/-- A declaration is resolved if a unit is found for each symbol in it. -/
theorem exists_resolveDeclaration {unitOf : String -> Except Failure UnitOfMeasure}
    {declaration : RelationDeclaration R} :
    (∃ resolved, resolveDeclaration unitOf declaration = .ok resolved) <->
      forall symbol, declaration.Mentions symbol -> ∃ unit, unitOf symbol = .ok unit := by
  constructor
  · rintro ⟨resolved, found⟩ symbol mentioned
    rcases resolveDeclaration_eq_ok.mp found with ⟨_, here, there, other⟩
    rcases mentioned with rfl | rfl | operand
    · exact ⟨_, here⟩
    · exact ⟨_, there⟩
    · rw [operand] at other
      rcases other with ⟨unit, _, other⟩
      exact ⟨unit, other⟩
  · intro found
    rcases found _ (Or.inl rfl) with ⟨subject, here⟩
    rcases found _ (Or.inr (Or.inl rfl)) with ⟨result, there⟩
    rw [resolveDeclaration, here, there]
    cases operand : declaration.operand with
    | factor value => exact ⟨_, rfl⟩
    | unit symbol =>
        rcases found symbol (Or.inr (Or.inr operand)) with ⟨unit, other⟩
        exact ⟨_, bind_eq_of_ok other⟩

end Registry

namespace UnitBatch

open Registry

theorem exists_unitFor {batch : UnitBatch R} {units : Table UnitOfMeasure} {registry : Registry R}
    {symbol : String} : (∃ unit, batch.unitFor units registry symbol = .ok unit) <->
      symbol ∈ units.keys ∨
        (batch.sharesUnits = true ∧ (registry.findAny? symbol).isSome = true) := by
  have own : symbol ∈ units.keys <-> (units.get? symbol).isSome = true := by
    rw [← not_iff_not, ← Table.get?_eq_none_iff, Bool.not_eq_true, Option.isSome_eq_false_iff,
      Option.isNone_iff_eq_none]
  rw [own, unitFor]
  cases units.get? symbol with
  | some unit => exact ⟨fun _ => Or.inl rfl, fun _ => ⟨unit, rfl⟩⟩
  | none =>
      cases batch.sharesUnits with
      | false => simp
      | true => cases registry.findAny? symbol <;> simp

/-- Each unit that a declaration of a batch mentions is one of its own, or one that it shares. -/
def FindsUnits (batch : UnitBatch R) (registry : Registry R) : Prop :=
  forall declaration, declaration ∈ batch.declarations ->
    forall symbol, declaration.Mentions symbol -> symbol ∈ batch.units.keys ∨
      (batch.sharesUnits = true ∧ (registry.findAny? symbol).isSome = true)

section

variable [Scalar R] {batch : UnitBatch R} {registry : Registry R} {places : Nat}

/-- A batch is installed as it was collected if its units are found, and else it is refused. -/
theorem install_cases (sound : registry.Sound) (collected : batch.Collected places)
    (isOpen : batch.finished = false) :
    (batch.FindsUnits registry ∧ ∃ changed, batch.install registry = .ok changed ∧
        changed.catalogs.get? batch.catalog =
          some ⟨(createUnits batch.catalog batch.units registry).1, batch.declarations⟩) ∨
      (¬ batch.FindsUnits registry ∧ ∃ failure, batch.install registry = .error failure) := by
  have finds : (∃ resolved, batch.declarations.mapM (resolveDeclaration (batch.unitFor
      (createUnits batch.catalog batch.units registry).1 registry)) = .ok resolved) <->
        batch.FindsUnits registry := by
    simp only [exists_mapM, exists_resolveDeclaration, exists_unitFor, keys_createUnits,
      FindsUnits]
  rw [← finds]
  cases named : batch.declarations.mapM (resolveDeclaration (batch.unitFor
      (createUnits batch.catalog batch.units registry).1 registry)) with
  | ok resolved =>
      have created := (@changes_createUnits _ registry batch.catalog _ collected.symbols).1
      rcases installs isOpen named (knowsNamed_of_mapM sound.held collected named)
        (sound.changesTo created) with ⟨changed, installed, changes⟩
      exact Or.inl ⟨⟨resolved, rfl⟩, changed, installed, changes.catalog⟩
  | error failure =>
      have isOpen : batch.requireOpen = .ok ⟨⟩ := by
        rw [requireOpen, isOpen]
        rfl
      have refused : batch.install registry = .error failure := by
        refine bind_eq_error.mpr (Or.inl ?_)
        refine (bind_eq_of_ok isOpen).trans ?_
        dsimp only
        rw [named]
        rfl
      refine Or.inr ⟨?_, failure, refused⟩
      rintro ⟨_, impossible⟩
      cases impossible

end

/-! ## Unit files that are collected -/

/-- A batch with some unit files more. -/
structure Gathers (batch : UnitBatch R) (files : List (String × UnitFile R))
    (gathered : UnitBatch R) : Prop where
  finished : gathered.finished = batch.finished
  sharesUnits : gathered.sharesUnits = batch.sharesUnits
  symbols : forall symbol, symbol ∈ gathered.units.keys <->
    symbol ∈ batch.units.keys ∨ symbol ∈ files.map Prod.fst
  declarations : gathered.declarations =
    batch.declarations ++ files.flatMap fun file => file.2.declarations

theorem gathers_nil (batch : UnitBatch R) : batch.Gathers [] batch :=
  ⟨rfl, rfl, by simp, by simp⟩

theorem Gathers.cons {batch middle gathered : UnitBatch R} {file : String × UnitFile R}
    {files : List (String × UnitFile R)} (first : batch.Gathers [file] middle)
    (others : middle.Gathers files gathered) : batch.Gathers (file :: files) gathered where
  finished := others.finished.trans first.finished
  sharesUnits := others.sharesUnits.trans first.sharesUnits
  symbols := by
    intro symbol
    rw [others.symbols, first.symbols, List.map_singleton, List.mem_singleton, List.map_cons,
      List.mem_cons, or_assoc]
  declarations := by
    rw [others.declarations, first.declarations, List.flatMap_singleton, List.flatMap_cons,
      List.append_assoc]

/-- A unit file that is read is collected. -/
theorem exists_addFile [Scalar R] {batch : UnitBatch R} (isOpen : batch.finished = false)
    {places : Nat} {text symbol : String} {file : UnitFile R}
    (isRead : UnitFile.parse places text = .ok file) (someSymbol : symbol ≠ "") :
    ∃ gathered, batch.addFile places text symbol = .ok gathered ∧
      batch.Gathers [(symbol, file)] gathered := by
  have isOpen : batch.requireOpen = .ok ⟨⟩ := by
    rw [requireOpen, isOpen]
    rfl
  have declared : ∃ shown, batch.declareUnit symbol file.name =
      .ok { batch with units := batch.units.set symbol shown } := by
    rw [declareUnit, isOpen, if_neg someSymbol]
    exact ⟨_, rfl⟩
  rcases declared with ⟨shown, declared⟩
  refine ⟨_, (bind_eq_of_ok isOpen).trans
    ((bind_eq_of_ok isRead).trans (bind_eq_of_ok declared)), rfl, rfl, fun other => ?_, ?_⟩
  · rw [Table.mem_keys_set, List.map_singleton, List.mem_singleton, or_comm]
  · rw [List.flatMap_singleton]

end UnitBatch

namespace FileTree

open UnitBatch

section

variable [Scalar R]

/-- A text in a directory is read as the file of a unit. -/
structure KeepsUnit (tree : FileTree) (places : Nat) (directory name : String)
    (file : String × UnitFile R) : Prop where
  symbol : file.1 = stem unitEnding name
  isRead : ∃ text, tree.text? (childPath directory name) = some text ∧
    UnitFile.parse places text = .ok file.2

/-- The catalog of a directory can be used: all its unit files are read, and the units in their
declarations have files among them or are known. -/
structure IsUsable (tree : FileTree) (places : Nat) (registry : Registry R) (directory : String)
    (files : List (String × UnitFile R)) : Prop where
  areRead : List.Forall₂ (tree.KeepsUnit places directory)
    (tree.namesEnding directory unitEnding) files
  found : forall file, file ∈ files -> forall declaration, declaration ∈ file.2.declarations ->
    forall symbol, declaration.Mentions symbol -> symbol ∈ files.map Prod.fst ∨
      (registry.findAny? symbol).isSome = true

variable {tree : FileTree} {places : Nat} {registry : Registry R} {directory : String}

theorem rightUnique_keepsUnit :
    Relator.RightUnique (tree.KeepsUnit (R := R) places directory) := by
  rintro name ⟨symbol, content⟩ ⟨otherSymbol, otherContent⟩ ⟨here, text, found, isRead⟩
    ⟨there, otherText, otherFound, otherRead⟩
  cases found.symm.trans otherFound
  exact Prod.ext (here.trans there.symm) (Except.ok.inj (isRead.symm.trans otherRead))

theorem stem_ne_empty {ending name : String} (written : ending ≠ "")
    (ends : hasEnding ending name = true) : stem ending name ≠ "" := by
  rcases exists_append_of_hasEnding ends with ⟨front, rfl⟩
  rw [stem]
  by_cases whole : front ++ ending = ending
  · rw [if_pos whole, whole]
    exact written
  · rw [if_neg whole, if_pos ends, take_append]
    rintro rfl
    exact whole String.empty_append

/-- Unit files are collected if all of them are read, and else the catalog is refused. -/
theorem collectUnits_cases (tree : FileTree) (places : Nat) (directory : String)
    {names : List String} (areFiles : forall name, name ∈ names -> hasEnding unitEnding name = true)
    {batch : UnitBatch R} (isOpen : batch.finished = false) :
    (∃ files gathered, List.Forall₂ (tree.KeepsUnit places directory) names files ∧
        tree.collectUnits places directory names batch = .ok gathered ∧
        batch.Gathers files gathered) ∨
      ((forall files, ¬ List.Forall₂ (tree.KeepsUnit (R := R) places directory) names files) ∧
        ∃ fault, tree.collectUnits places directory names batch = .error fault) := by
  induction names generalizing batch with
  | nil => exact Or.inl ⟨[], batch, .nil, rfl, batch.gathers_nil⟩
  | cons name rest inductionHypothesis =>
      have someSymbol := stem_ne_empty (by decide) (areFiles name List.mem_cons_self)
      rw [collectUnits]
      cases found : tree.text? (childPath directory name) with
      | none =>
          refine Or.inr ⟨?_, _, rfl⟩
          rintro _ (_ | ⟨⟨_, _, there, _⟩, _⟩)
          cases found.symm.trans there
      | some text =>
          dsimp only
          cases isRead : (UnitFile.parse places text : Except Failure (UnitFile R)) with
          | error failure =>
              have refused : batch.addFile places text (stem unitEnding name) = .error failure := by
                rw [addFile, requireOpen, isOpen, isRead]
                rfl
              refine Or.inr ⟨?_, .failure failure, ?_⟩
              · rintro _ (_ | ⟨⟨_, _, there, otherRead⟩, _⟩)
                cases found.symm.trans there
                cases isRead.symm.trans otherRead
              · rw [refused]
                rfl
          | ok file =>
              rcases exists_addFile isOpen isRead someSymbol with ⟨middle, added, gathers⟩
              have keeps : tree.KeepsUnit places directory name (stem unitEnding name, file) :=
                ⟨rfl, text, found, isRead⟩
              have lifted := LoadFault.lift_eq_ok.mpr added
              rcases inductionHypothesis
                (fun other member => areFiles other (List.mem_cons_of_mem _ member))
                (gathers.finished.trans isOpen) with
                ⟨files, gathered, areRead, collects, others⟩ | ⟨notRead, fault, refused⟩
              · exact Or.inl ⟨_, gathered, .cons keeps areRead,
                  (bind_eq_of_ok lifted).trans collects, gathers.cons others⟩
              · refine Or.inr ⟨?_, fault, (bind_eq_of_ok lifted).trans refused⟩
                rintro _ (_ | ⟨_, others⟩)
                exact notRead _ others

end

end FileTree

/-! ## Catalogs that are loaded -/

/-- A catalog has the units and the declarations of some unit files, and no others. -/
structure Catalog.IsMadeOf (catalog : Catalog R) (files : List (String × UnitFile R)) :
    Prop where
  units : forall symbol, symbol ∈ catalog.units.keys <-> symbol ∈ files.map Prod.fst
  declarations : catalog.declarations = files.flatMap fun file => file.2.declarations

namespace FileTree

open UnitBatch

section

variable [Scalar R] {tree : FileTree} {places : Nat} {registry changed : Registry R}
  {directory : String}

/-- A catalog is loaded if it can be used, and else it is refused. -/
theorem loadCatalog_cases (tree : FileTree) (places : Nat) (directory : String)
    (sound : registry.Sound) :
    (∃ files changed catalog, tree.IsUsable places registry directory files ∧
        tree.loadCatalog places registry directory = .ok changed ∧
        changed.catalogs.get? (catalogNameOf directory) = some catalog ∧
        catalog.IsMadeOf files) ∨
      ((forall files, ¬ tree.IsUsable places registry directory files) ∧
        ∃ fault, tree.loadCatalog places registry directory = .error fault) := by
  have isOpen : (UnitBatch.start (catalogNameOf directory) true : UnitBatch R).finished = false :=
    rfl
  rcases tree.collectUnits_cases places directory
    (fun name member => (List.mem_filter.mp member).2) isOpen with
    ⟨files, batch, areRead, collects, gathers⟩ | ⟨notRead, fault, refused⟩
  · have collected : batch.Collected places := collected_collectUnits (.start _ true) collects
    have named : batch.catalog = catalogNameOf directory := catalog_collected collects
    have own : forall symbol, symbol ∈ batch.units.keys <-> symbol ∈ files.map Prod.fst :=
      fun symbol => (gathers.symbols symbol).trans (or_iff_right List.not_mem_nil)
    have usable : forall others, tree.IsUsable places registry directory others <->
        others = files ∧ batch.FindsUnits registry := by
      intro others
      have finds : batch.FindsUnits registry <-> forall file, file ∈ files ->
          forall declaration, declaration ∈ file.2.declarations -> forall symbol,
            declaration.Mentions symbol -> symbol ∈ files.map Prod.fst ∨
              (registry.findAny? symbol).isSome = true := by
        simp only [FindsUnits, own, gathers.sharesUnits, gathers.declarations, UnitBatch.start,
          List.nil_append, List.mem_flatMap, true_and, forall_exists_index, and_imp]
        exact ⟨fun all file inside declaration member => all declaration file inside member,
          fun all declaration file inside member => all file inside declaration member⟩
      constructor
      · intro isUsable
        cases List.right_unique_forall₂' rightUnique_keepsUnit isUsable.areRead areRead
        exact ⟨rfl, finds.mpr isUsable.found⟩
      · rintro ⟨rfl, found⟩
        exact ⟨areRead, finds.mp found⟩
    have loads : tree.loadCatalog places registry directory =
        LoadFault.lift (batch.install registry) := bind_eq_of_ok collects
    rw [loads]
    rcases install_cases sound collected gathers.finished with
      ⟨finds, changed, installed, catalog⟩ | ⟨notFound, failure, refused⟩
    · refine Or.inl ⟨files, changed, _, (usable files).mpr ⟨rfl, finds⟩,
        LoadFault.lift_eq_ok.mpr installed, named ▸ catalog, ?_, gathers.declarations⟩
      rw [keys_createUnits]
      exact own
    · exact Or.inr ⟨fun others isUsable => notFound ((usable others).mp isUsable).2,
        .failure failure, congrArg LoadFault.lift refused⟩
  · exact Or.inr ⟨fun files isUsable => notRead files isUsable.areRead, fault,
      bind_eq_error.mpr (Or.inl refused)⟩

theorem sound_loadCatalog (sound : registry.Sound)
    (loaded : tree.loadCatalog places registry directory = .ok changed) : changed.Sound := by
  rcases bind_eq_ok.mp loaded with ⟨batch, collects, installed⟩
  have collected : batch.Collected places := collected_collectUnits (.start _ true) collects
  exact sound.changesTo (changes_install sound.held collected (LoadFault.lift_eq_ok.mp installed))

theorem sound_loadCatalogs {directories : List String} (sound : registry.Sound) :
    (tree.loadCatalogs places directories registry).1.Sound := by
  induction directories generalizing registry with
  | nil => exact sound
  | cons directory rest inductionHypothesis =>
      rw [loadCatalogs]
      split
      · rename_i middle loaded
        exact inductionHypothesis (sound_loadCatalog sound loaded)
      · exact inductionHypothesis sound

/-- Of the catalogs that have a directory, those are kept that can be used in the registry that
their directory is met with. -/
theorem keptCatalog?_usable
    (plain : forall path entry, tree.get? path = some entry -> IsPlainPath path)
    {builtIn : Registry R} (sound : builtIn.Sound) {name : String}
    (listed : catalogPath name ∈ tree.catalogDirectories) :
    (∃ files catalog, tree.IsUsable places (tree.registryBefore places builtIn name)
          (catalogPath name) files ∧
        tree.keptCatalog? places builtIn name = some catalog ∧ catalog.IsMadeOf files) ∨
      ((forall files, ¬ tree.IsUsable places (tree.registryBefore places builtIn name)
          (catalogPath name) files) ∧
        tree.keptCatalog? places builtIn name = none) := by
  have named : catalogNameOf (catalogPath name) = name :=
    (String.append_left_inj catalogEnding).mp (catalogPath_catalogNameOf plain listed)
  rw [keptCatalog?, if_pos listed]
  rcases tree.loadCatalog_cases places (catalogPath name) (sound_loadCatalogs sound) with
    ⟨files, changed, catalog, isUsable, loaded, found, madeOf⟩ | ⟨notUsable, fault, refused⟩
  · rw [named] at found
    refine Or.inl ⟨files, catalog, isUsable, ?_, madeOf⟩
    rw [registryBefore, loaded]
    exact found
  · refine Or.inr ⟨notUsable, ?_⟩
    rw [registryBefore, refused]
    rfl

end

end FileTree
end QuantityCalculus
