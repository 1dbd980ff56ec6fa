import QuantityCalculus.Proofs.Runs
import QuantityCalculus.Proofs.Storage.Places

namespace QuantityCalculus

/-!
# Catalogs loaded one after another

Whatever its unit files say, a catalog is refused for a malformed declaration only, unless a
directory stands in the place of a unit file.  A catalog that is refused is left out, and
loading goes on with the next one.

A catalog that is loaded takes the place of the one of its name and leaves all others as they
are.  So each catalog is settled by the registry that its directory is met with, which has the
catalogs of the directories before it.
-/

variable {R : Type}

/-! ## What a catalog is refused for -/

/-- The failure is about the form of a declaration. -/
def IsMalformed (failure : Failure) : Prop := failure.kind = .malformed

section

variable [Scalar R]

theorem failsOnly_relationSides (line : String) :
    FailsOnly IsMalformed (relationSides (R := R) line) := by
  unfold relationSides
  split
  · exact .fault rfl
  · split
    · exact .fault rfl
    · exact .ok _

theorem RelationDeclaration.failsOnly_ofSides (places : Nat) (lhs rhs : Expr R) :
    FailsOnly IsMalformed (RelationDeclaration.ofSides places lhs rhs) := by
  unfold RelationDeclaration.ofSides
  split
  iterate 4 exact .ok _
  exact .fault rfl

theorem UnitFile.failsOnly_parse (places : Nat) (text : String) :
    FailsOnly IsMalformed (UnitFile.parse (R := R) places text) := by
  unfold UnitFile.parse
  split
  · exact .fault rfl
  · exact (FailsOnly.mapM failsOnly_relationSides _).bind fun sides =>
      (FailsOnly.mapM (fun _ => RelationDeclaration.failsOnly_ofSides places _ _) _).bind
        fun _ => .ok _

end

namespace Registry

theorem failsOnly_resolveDeclaration {unitOf : String -> Except Failure UnitOfMeasure}
    (each : forall symbol, FailsOnly IsMalformed (unitOf symbol))
    (declaration : RelationDeclaration R) :
    FailsOnly IsMalformed (resolveDeclaration unitOf declaration) := by
  refine (each _).bind fun subject => (each _).bind fun result => ?_
  split
  · exact (each _).bind fun _ => .ok _
  · exact .ok _

theorem failsOnly_enter (unit : UnitOfMeasure) (key : RelationKey) (relation : Relation R)
    (registry : Registry R) : FailsOnly IsMalformed (registry.enter unit key relation) := by
  unfold enter
  split
  · exact .fault rfl
  · exact .ok _

theorem failsOnly_enterEach (writes : List (RelationWrite R)) (registry : Registry R) :
    FailsOnly IsMalformed (enterEach writes registry) := by
  induction writes generalizing registry with
  | nil => exact .ok registry
  | cons first rest inductionHypothesis =>
      exact (failsOnly_enter _ _ _ registry).bind inductionHypothesis

theorem failsOnly_enterAll (resolved : List (ResolvedDeclaration R)) (registry : Registry R) :
    FailsOnly IsMalformed (enterAll resolved registry) := by
  rw [enterAll_eq]
  exact failsOnly_enterEach _ registry

end Registry

namespace UnitBatch

theorem failsOnly_requireOpen (batch : UnitBatch R) :
    FailsOnly IsMalformed batch.requireOpen := by
  unfold requireOpen
  split
  · exact .fault rfl
  · exact .ok _

theorem failsOnly_addFile [Scalar R] (batch : UnitBatch R) (places : Nat) (text symbol : String) :
    FailsOnly IsMalformed (batch.addFile places text symbol) := by
  refine batch.failsOnly_requireOpen.bind fun _ =>
    (UnitFile.failsOnly_parse places text).bind fun file => ?_
  refine FailsOnly.bind ?_ fun _ => .ok _
  refine batch.failsOnly_requireOpen.bind fun _ => ?_
  split
  · exact .fault rfl
  · exact .ok _

theorem failsOnly_unitFor (batch : UnitBatch R) (units : Table UnitOfMeasure)
    (registry : Registry R) (symbol : String) :
    FailsOnly IsMalformed (batch.unitFor units registry symbol) := by
  unfold unitFor
  dsimp only
  split
  · exact .ok _
  · exact .fault rfl

theorem failsOnly_install (batch : UnitBatch R) (registry : Registry R) :
    FailsOnly IsMalformed (batch.install registry) := by
  refine FailsOnly.bind ?_ fun _ => .ok _
  refine batch.failsOnly_requireOpen.bind fun _ => ?_
  exact (FailsOnly.mapM (Registry.failsOnly_resolveDeclaration
    fun symbol => batch.failsOnly_unitFor _ registry symbol) _).bind fun resolved =>
      (Registry.failsOnly_enterAll resolved _).bind fun _ => .ok _

end UnitBatch

/-- What a catalog is left out for when all catalogs are loaded. -/
inductive LoadFault.LeavesOut : LoadFault -> Prop
  | malformed {failure : Failure} (isMalformed : IsMalformed failure) : LeavesOut (.failure failure)
  | notAText (path : String) : LeavesOut (.notAText path)

theorem LoadFault.LeavesOut.of_lift {α : Type} {result : Except Failure α} {fault : LoadFault}
    (fails : FailsOnly IsMalformed result) (failed : LoadFault.lift result = .error fault) :
    fault.LeavesOut := by
  cases result with
  | ok value => cases failed
  | error failure =>
      cases failed
      exact .malformed (fails failure rfl)

namespace FileTree

section

variable [Scalar R] {tree : FileTree} {places : Nat} {registry : Registry R} {fault : LoadFault}
  {directory : String}

theorem leavesOut_of_collectUnits {names : List String} {batch : UnitBatch R}
    (refused : tree.collectUnits places directory names batch = .error fault) :
    fault.LeavesOut := by
  induction names generalizing batch with
  | nil => cases refused
  | cons name rest inductionHypothesis =>
      rw [collectUnits] at refused
      split at refused
      · cases refused
        exact .notAText _
      · rcases bind_eq_error.mp refused with here | ⟨middle, _, later⟩
        · exact .of_lift (batch.failsOnly_addFile places _ _) here
        · exact inductionHypothesis later

/-- A catalog is refused only for what it is left out for. -/
theorem leavesOut_of_loadCatalog
    (refused : tree.loadCatalog places registry directory = .error fault) : fault.LeavesOut := by
  rcases bind_eq_error.mp refused with here | ⟨batch, _, later⟩
  · exact leavesOut_of_collectUnits here
  · exact .of_lift (batch.failsOnly_install registry) later

/-! ## One directory after another -/

theorem loadCatalogs_append (earlier later : List String) (registry : Registry R) :
    (tree.loadCatalogs places (earlier ++ later) registry).1 =
      (tree.loadCatalogs places later (tree.loadCatalogs places earlier registry).1).1 := by
  induction earlier generalizing registry with
  | nil => rfl
  | cons directory rest inductionHypothesis =>
      rw [List.cons_append, loadCatalogs, loadCatalogs]
      split
      · exact inductionHypothesis _
      · exact inductionHypothesis registry

/-- The catalogs of other names stay as they are. -/
theorem get?_loadCatalogs_other {directories : List String} {name : String}
    (others : forall directory, directory ∈ directories -> catalogNameOf directory ≠ name) :
    (tree.loadCatalogs places directories registry).1.catalogs.get? name =
      registry.catalogs.get? name := by
  induction directories generalizing registry with
  | nil => rfl
  | cons directory rest inductionHypothesis =>
      have further := fun changed : Registry R => @inductionHypothesis changed
        fun other member => others other (List.mem_cons_of_mem _ member)
      rw [loadCatalogs]
      split
      · rename_i changed loaded
        rcases exists_catalogs_loadCatalog loaded with ⟨catalog, same⟩
        refine (further changed).trans ?_
        rw [same, Table.get?_set, if_neg (others directory List.mem_cons_self)]
      · exact further registry

/-- The registry that the directory of a catalog is met with. -/
def registryBefore (tree : FileTree) (places : Nat) (builtIn : Registry R) (name : String) :
    Registry R :=
  (tree.loadCatalogs places
    (tree.catalogDirectories.takeWhile (· != catalogPath name)) builtIn).1

/-- The catalog that a tree keeps under a name, if it is not refused. -/
def keptCatalog? (tree : FileTree) (places : Nat) (builtIn : Registry R) (name : String) :
    Option (Catalog R) :=
  if catalogPath name ∈ tree.catalogDirectories then
    (tree.loadCatalog places (tree.registryBefore places builtIn name)
      (catalogPath name)).toOption.bind fun registry => registry.catalogs.get? name
  else none

/-- What a directory is named for tells it from the others. -/
theorem catalogPath_catalogNameOf
    (plain : forall path entry, tree.get? path = some entry -> IsPlainPath path)
    (listed : directory ∈ tree.catalogDirectories) :
    catalogPath (catalogNameOf directory) = directory := by
  rcases List.mem_filter.mp (List.mem_filter.mp listed).1 with ⟨top, ends⟩
  rcases exists_append_of_hasEnding ends with ⟨name, rfl⟩
  exact congrArg catalogPath (catalogNameOf_catalogPath ((mem_namesIn_top plain).mp top).1)

/-- A directory gives its catalog, or it is refused for what it is left out for. -/
theorem keptCatalog?_cases
    (plain : forall path entry, tree.get? path = some entry -> IsPlainPath path)
    (builtIn : Registry R) {name : String}
    (listed : catalogPath name ∈ tree.catalogDirectories) :
    (∃ changed catalog, tree.loadCatalog places (tree.registryBefore places builtIn name)
        (catalogPath name) = .ok changed ∧ changed.catalogs.get? name = some catalog ∧
        tree.keptCatalog? places builtIn name = some catalog) ∨
      ∃ fault, tree.loadCatalog places (tree.registryBefore places builtIn name)
        (catalogPath name) = .error fault ∧ fault.LeavesOut ∧
        tree.keptCatalog? places builtIn name = none := by
  rw [keptCatalog?, if_pos listed]
  cases loaded : tree.loadCatalog places (tree.registryBefore places builtIn name)
      (catalogPath name) with
  | error fault => exact Or.inr ⟨fault, rfl, leavesOut_of_loadCatalog loaded, rfl⟩
  | ok changed =>
      have named : catalogNameOf (catalogPath name) = name :=
        (String.append_left_inj catalogEnding).mp (catalogPath_catalogNameOf plain listed)
      rcases exists_catalogs_loadCatalog loaded with ⟨catalog, same⟩
      have found : changed.catalogs.get? name = some catalog := by
        rw [same, named, Table.get?_set, if_pos rfl]
      exact Or.inl ⟨changed, catalog, rfl, found, found⟩

theorem nodup_catalogDirectories (tree : FileTree) : tree.catalogDirectories.Nodup := by
  have sorted : tree.catalogDirectories.Pairwise (· < ·) :=
    ((Text.sortedNames_sorted _).filter _).filter _
  exact sorted.imp ne_of_lt

/-- Once all catalogs are loaded, each name has the catalog that is kept under it, or else the one
that was there before. -/
theorem get?_loadAllCatalogs
    (plain : forall path entry, tree.get? path = some entry -> IsPlainPath path)
    (builtIn : Registry R) (name : String) :
    (tree.loadAllCatalogs places builtIn).1.catalogs.get? name =
      (tree.keptCatalog? places builtIn name).or (builtIn.catalogs.get? name) := by
  have others : forall {directories : List String}, directories ⊆ tree.catalogDirectories ->
      catalogPath name ∉ directories -> forall registry : Registry R,
        (tree.loadCatalogs places directories registry).1.catalogs.get? name =
          registry.catalogs.get? name := by
    intro directories among absent registry
    refine get?_loadCatalogs_other fun directory member named => absent ?_
    rw [← named, catalogPath_catalogNameOf plain (among member)]
    exact member
  rw [loadAllCatalogs]
  by_cases listed : catalogPath name ∈ tree.catalogDirectories
  · rcases List.append_of_mem listed with ⟨earlier, later, split⟩
    have distinct := split ▸ tree.nodup_catalogDirectories
    have notEarlier : catalogPath name ∉ earlier := fun member =>
      (List.nodup_append.mp distinct).2.2 _ member _ List.mem_cons_self rfl
    have notLater : catalogPath name ∉ later :=
      (List.nodup_cons.mp (List.nodup_append.mp distinct).2.1).1
    have before : tree.registryBefore places builtIn name =
        (tree.loadCatalogs places earlier builtIn).1 := by
      rw [registryBefore, split, List.takeWhile_append_of_pos, List.takeWhile_cons_of_neg]
      · rw [List.append_nil]
      · simp
      · exact fun directory member => bne_iff_ne.mpr fun same => notEarlier (same ▸ member)
    have fromEarlier := others (split ▸ List.subset_append_left _ _) notEarlier builtIn
    have laterListed : later ⊆ tree.catalogDirectories := by
      rw [split]
      exact fun directory member =>
        List.mem_append_right _ (List.mem_cons_of_mem _ member)
    have fromLater := others laterListed notLater
    rw [split, loadCatalogs_append, loadCatalogs, ← before]
    rcases keptCatalog?_cases plain builtIn listed with
      ⟨changed, catalog, loaded, found, kept⟩ | ⟨fault, refused, _, nothing⟩
    · rw [loaded, kept]
      exact (fromLater changed).trans found
    · rw [refused, nothing]
      dsimp only
      rw [before]
      exact (fromLater _).trans fromEarlier
  · rw [keptCatalog?, if_neg listed, Option.none_or]
    exact others (List.Subset.refl _) listed builtIn

end

end FileTree
end QuantityCalculus
