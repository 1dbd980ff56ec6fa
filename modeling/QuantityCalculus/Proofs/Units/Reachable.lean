import Mathlib.Logic.Relation
import QuantityCalculus.Proofs.Runs
import QuantityCalculus.Proofs.Units.Writing

namespace QuantityCalculus

/-!
# The registries that can be made

A registry starts empty and is changed by the operations that are offered for it: units
and relations are defined, catalogs are installed, replaced and removed.  A catalog that
was collected in a batch is finished first and put in force later, so that anything may
happen in between.

`Registry.Reachable` speaks about these operations, `Registry.Changes` about the four
elementary changes that they consist of.  A property that the elementary changes keep
therefore holds of every registry that can be made.
-/

variable {R : Type}

/-! ## Elementary changes -/

namespace Registry

/-- The registry has a record of every unit of a catalog. -/
def Knows (registry : Registry R) (catalog : Catalog R) : Prop :=
  forall entry, entry ∈ catalog.units -> entry.2 ∈ registry.units

/-- The registry has a record of every unit of its own catalogs. -/
def KnowsHeld (registry : Registry R) : Prop :=
  forall entry, entry ∈ registry.catalogs -> registry.Knows entry.2

/-- The registry has a record of every unit that a declaration names. -/
structure KnowsNamed (registry : Registry R) (resolved : ResolvedDeclaration R) : Prop where
  subject : resolved.subject ∈ registry.units
  operand : forall unit, resolved.operand = some unit -> unit ∈ registry.units
  result : resolved.result ∈ registry.units

/-- The elementary changes of a registry. -/
inductive Changes : Registry R -> Registry R -> Prop
  | create {registry : Registry R} (catalog symbol name : String) : symbol ≠ "" ->
      Changes registry (registry.createUnit catalog symbol name).2
  | rename {registry : Registry R} (unit : UnitOfMeasure) (name : String) :
      Changes registry (registry.updateRecord unit fun record => { record with name := name })
  | declare {registry : Registry R} {resolved : ResolvedDeclaration R} :
      registry.KnowsNamed resolved -> Changes registry (registry.writeAll resolved.writes)
  | recatalog {registry : Registry R} (catalogs : Table (Catalog R)) :
      (forall entry, entry ∈ catalogs -> registry.Knows entry.2) ->
      Changes registry { registry with catalogs := catalogs }

/-- Any number of elementary changes. -/
abbrev ChangesTo : Registry R -> Registry R -> Prop :=
  Relation.ReflTransGen Changes

section

variable {registry changed : Registry R}

@[simp] theorem units_createUnit (catalog symbol name : String) :
    (registry.createUnit catalog symbol name).2.units =
      registry.units ++ [(registry.createUnit catalog symbol name).1] :=
  List.map_append

theorem edition_createUnit (catalog symbol name : String) :
    (registry.createUnit catalog symbol name).1.edition = registry.units.length :=
  (List.length_map _).symm

theorem units_rename (unit : UnitOfMeasure) (name : String) :
    (registry.updateRecord unit fun record => { record with name := name }).units =
      registry.units :=
  units_updateRecord fun _ => rfl

/-- A unit that was defined stays known. -/
theorem Changes.units_subset (change : Changes registry changed) :
    registry.units ⊆ changed.units := by
  intro unit known
  cases change with
  | create catalog symbol name _ =>
      rw [units_createUnit]
      exact List.mem_append_left _ known
  | rename other name =>
      rw [units_rename]
      exact known
  | declare _ =>
      rw [units_writeAll]
      exact known
  | recatalog catalogs _ => exact known

theorem ChangesTo.units_subset (changes : ChangesTo registry changed) :
    registry.units ⊆ changed.units := by
  induction changes with
  | refl => exact List.Subset.refl _
  | tail _ change inductionHypothesis =>
      exact List.Subset.trans inductionHypothesis change.units_subset

theorem Knows.mono {catalog : Catalog R} (knows : registry.Knows catalog)
    (changes : ChangesTo registry changed) : changed.Knows catalog :=
  fun entry member => changes.units_subset (knows entry member)

theorem KnowsNamed.mono {resolved : ResolvedDeclaration R} (knows : registry.KnowsNamed resolved)
    (changes : ChangesTo registry changed) : changed.KnowsNamed resolved where
  subject := changes.units_subset knows.subject
  operand := fun unit named => changes.units_subset (knows.operand unit named)
  result := changes.units_subset knows.result

theorem knowsNamed_iff {resolved : ResolvedDeclaration R} :
    registry.KnowsNamed resolved <-> forall unit, resolved.Names unit -> unit ∈ registry.units := by
  constructor
  · rintro known unit (rfl | operand | rfl)
    · exact known.subject
    · exact known.operand unit operand
    · exact known.result
  · intro known
    exact ⟨known _ (Or.inl rfl), fun unit operand => known unit (Or.inr (Or.inl operand)),
      known _ (Or.inr (Or.inr rfl))⟩

theorem KnowsNamed.writes {resolved : ResolvedDeclaration R}
    (knows : registry.KnowsNamed resolved) :
    forall write, write ∈ resolved.writes -> write.unit ∈ registry.units :=
  fun _ member => knowsNamed_iff.mp knows _ (names_of_writes member)

theorem KnowsHeld.changes (held : registry.KnowsHeld) (change : Changes registry changed) :
    changed.KnowsHeld := by
  intro entry member
  have known : registry.Knows entry.2 -> changed.Knows entry.2 :=
    fun knows => knows.mono (.single change)
  cases change with
  | create _ _ _ _ => exact known (held entry member)
  | rename _ _ => exact known (held entry member)
  | declare _ =>
      rw [catalogs_writeAll] at member
      exact known (held entry member)
  | recatalog catalogs knows => exact knows entry member

theorem KnowsHeld.changesTo (held : registry.KnowsHeld) (changes : ChangesTo registry changed) :
    changed.KnowsHeld := by
  induction changes with
  | refl => exact held
  | tail _ change inductionHypothesis => exact inductionHypothesis.changes change

end

/-! ## What holds after elementary changes -/

/-- Units are numbered in the order of their definition, have symbols, and are known. -/
structure Sound (registry : Registry R) : Prop where
  editions : forall unit, unit ∈ registry.units -> unit.edition < registry.units.length
  symbols : forall unit, unit ∈ registry.units -> unit.isDimensionless = false
  held : registry.KnowsHeld

theorem empty_sound : (empty : Registry R).Sound where
  editions := nofun
  symbols := nofun
  held := nofun

section

variable {registry changed : Registry R}

theorem Sound.changes (sound : registry.Sound) (change : Changes registry changed) :
    changed.Sound := by
  refine ⟨?_, ?_, sound.held.changes change⟩
  · cases change with
    | create catalog symbol name _ =>
        intro unit member
        rw [units_createUnit, List.length_append, List.length_singleton]
        rw [units_createUnit] at member
        rcases List.mem_append.mp member with old | last
        · exact Nat.lt_succ_of_lt (sound.editions unit old)
        · cases List.mem_singleton.mp last
          exact Nat.lt_succ_of_le (Nat.le_of_eq (edition_createUnit catalog symbol name))
    | rename _ _ =>
        rw [units_rename]
        exact sound.editions
    | declare _ =>
        rw [units_writeAll]
        exact sound.editions
    | recatalog _ _ => exact sound.editions
  · cases change with
    | create catalog symbol name someSymbol =>
        intro unit member
        rw [units_createUnit] at member
        rcases List.mem_append.mp member with old | last
        · exact sound.symbols unit old
        · cases List.mem_singleton.mp last
          simpa [createUnit, UnitOfMeasure.isDimensionless] using someSymbol
    | rename _ _ =>
        rw [units_rename]
        exact sound.symbols
    | declare _ =>
        rw [units_writeAll]
        exact sound.symbols
    | recatalog _ _ => exact sound.symbols

theorem Sound.changesTo (sound : registry.Sound) (changes : ChangesTo registry changed) :
    changed.Sound := by
  induction changes with
  | refl => exact sound
  | tail _ change inductionHypothesis => exact inductionHypothesis.changes change

end

/-! ## Units that are looked up are known -/

section

variable {registry changed : Registry R}

theorem unitIn?_known {symbol : String} {catalogs : List (Catalog R)} {unit : UnitOfMeasure}
    (knows : forall catalog, catalog ∈ catalogs -> registry.Knows catalog)
    (found : unitIn? symbol catalogs = some unit) : unit ∈ registry.units := by
  induction catalogs with
  | nil => cases found
  | cons catalog rest inductionHypothesis =>
      rcases Option.or_eq_some_iff.mp found with here | ⟨_, later⟩
      · exact knows catalog List.mem_cons_self _ (Table.mem_of_get? here)
      · exact inductionHypothesis (fun other member => knows other (List.mem_cons_of_mem _ member))
          later

theorem KnowsHeld.findAny? (held : registry.KnowsHeld) {symbol : String} {unit : UnitOfMeasure}
    (found : registry.findAny? symbol = some unit) : unit ∈ registry.units := by
  refine unitIn?_known (fun catalog member => ?_) found
  rcases List.mem_map.mp member with ⟨entry, inForce, rfl⟩
  exact held entry inForce

theorem KnowsHeld.catalog (held : registry.KnowsHeld) {name : String} {catalog : Catalog R}
    (found : registry.catalog name = .ok catalog) : registry.Knows catalog := by
  unfold Registry.catalog at found
  split at found
  · rename_i here
    cases found
    exact held _ (Table.mem_of_get? here)
  · cases found

theorem KnowsHeld.unitFor (held : registry.KnowsHeld) {catalog : Catalog R}
    (knows : registry.Knows catalog) {symbol : String} {unit : UnitOfMeasure}
    (found : registry.unitFor catalog symbol = .ok unit) : unit ∈ registry.units := by
  unfold Registry.unitFor at found
  split at found
  · rename_i here
    cases found
    rcases Option.or_eq_some_iff.mp here with own | ⟨_, other⟩
    · exact knows _ (Table.mem_of_get? own)
    · exact held.findAny? other
  · cases found

/-- A declaration names only units that its symbols stand for. -/
theorem knowsNamed_of_resolve {unitOf : String -> Except Failure UnitOfMeasure}
    {declaration : RelationDeclaration R} {resolved : ResolvedDeclaration R}
    (known : forall symbol unit, unitOf symbol = .ok unit -> unit ∈ registry.units)
    (found : resolveDeclaration unitOf declaration = .ok resolved) :
    registry.KnowsNamed resolved := by
  rcases resolveDeclaration_eq_ok.mp found with ⟨_, subjectFound, resultFound, operandFound⟩
  refine ⟨known _ _ subjectFound, fun unit named => ?_, known _ _ resultFound⟩
  rw [named] at operandFound
  split at operandFound
  · rcases operandFound with ⟨_, same, operandFound⟩
    cases same
    exact known _ _ operandFound
  · cases operandFound

/-! ## Operations consist of elementary changes -/

/-- A catalog in the place of another of the same name. -/
theorem changes_setCatalog (held : registry.KnowsHeld) {catalog : Catalog R}
    (knows : registry.Knows catalog) (name : String) :
    ChangesTo registry { registry with catalogs := registry.catalogs.set name catalog } := by
  refine .single (.recatalog _ fun entry member => ?_)
  rcases Table.mem_set member with old | rfl
  · exact held entry old
  · exact knows

theorem changes_removeCatalog (held : registry.KnowsHeld) {name : String}
    (removed : registry.removeCatalog name = .ok changed) : ChangesTo registry changed := by
  rcases bind_eq_ok.mp removed with ⟨catalog, _, removed⟩
  cases removed
  exact .single (.recatalog _ fun entry member => held entry (List.mem_filter.mp member).1)

theorem changes_defineUnit (held : registry.KnowsHeld) {catalog symbol name : String}
    {unit : UnitOfMeasure}
    (defined : registry.defineUnit catalog symbol name = .ok (unit, changed)) :
    ChangesTo registry changed := by
  unfold Registry.defineUnit at defined
  split at defined
  · cases defined
  · rename_i someSymbol
    dsimp only at defined
    split at defined
    · cases defined
      split
      · exact .refl
      · exact .single (.rename unit name)
    · cases defined
      have created : ChangesTo registry (registry.createUnit catalog symbol name).2 :=
        .single (.create catalog symbol name someSymbol)
      refine created.trans
        (@changes_setCatalog _ (registry.createUnit catalog symbol name).2
          (held.changesTo created) _ (fun entry member => ?_) catalog)
      rcases Table.mem_set member with old | rfl
      · cases found : registry.catalogs.get? catalog with
        | none =>
            rw [found] at old
            cases old
        | some before =>
            rw [found] at old
            exact created.units_subset (held _ (Table.mem_of_get? found) entry old)
      · rw [units_createUnit]
        exact List.mem_append_right _ (List.mem_singleton_self _)

theorem changes_declareAll {resolved : List (ResolvedDeclaration R)}
    (known : forall one, one ∈ resolved -> registry.KnowsNamed one) :
    ChangesTo registry (registry.writeAll (resolved.flatMap ResolvedDeclaration.writes)) := by
  induction resolved generalizing registry with
  | nil => exact .refl
  | cons first rest inductionHypothesis =>
      have begun : ChangesTo registry (registry.writeAll first.writes) :=
        .single (.declare (known first List.mem_cons_self))
      rw [List.flatMap_cons, writeAll_append]
      refine begun.trans (inductionHypothesis fun other member => ?_)
      exact (known other (List.mem_cons_of_mem _ member)).mono begun

theorem changes_defineRelation [Scalar R] (held : registry.KnowsHeld) {places : Nat}
    {name line : String} (defined : registry.defineRelation places name line = .ok changed) :
    ChangesTo registry changed := by
  rcases of_defineRelation defined with ⟨catalog, declaration, resolved, found, _, named, _, rfl⟩
  have knows := held.catalog found
  have begun : ChangesTo registry (registry.writeAll resolved.writes) :=
    .single (.declare (knowsNamed_of_resolve (fun _ _ => held.unitFor knows) named))
  have knowsThen : (registry.writeAll resolved.writes).Knows
      { catalog with declarations := catalog.declarations ++ [declaration] } :=
    knows.mono begun
  exact begun.trans (changes_setCatalog (held.changesTo begun) knowsThen name)

end

end Registry

/-! ## Batches -/

namespace UnitBatch

/-- Batches as they are collected: units, single declarations and unit files in any order. -/
inductive Collected [Scalar R] (places : Nat) : UnitBatch R -> Prop
  | start (catalog : String) (sharesUnits : Bool) : Collected places (.start catalog sharesUnits)
  | declareUnit {batch changed : UnitBatch R} {symbol name : String} : Collected places batch ->
      batch.declareUnit symbol name = .ok changed -> Collected places changed
  | addDeclaration {batch changed : UnitBatch R} {declaration : RelationDeclaration R} :
      Collected places batch -> batch.addDeclaration declaration = .ok changed ->
      Collected places changed
  | addFile {batch changed : UnitBatch R} {text symbol : String} : Collected places batch ->
      batch.addFile places text symbol = .ok changed -> Collected places changed

section

variable {batch changed : UnitBatch R}

/-- A unit that is declared has a symbol, and is shown by its name or an earlier one. -/
theorem of_declareUnit {symbol name : String}
    (declared : batch.declareUnit symbol name = .ok changed) :
    symbol ≠ "" ∧
      { batch with
        units := batch.units.set symbol
          (if name = "" then (batch.units.get? symbol).getD "" else name) } = changed := by
  rcases bind_eq_ok.mp declared with ⟨_, _, declared⟩
  by_cases noSymbol : symbol = ""
  · rw [if_pos noSymbol] at declared
    cases declared
  · rw [if_neg noSymbol] at declared
    exact ⟨noSymbol, Except.ok.inj declared⟩

/-- A file that is added declares its unit, and then all that it says. -/
theorem of_addFile [Scalar R] {places : Nat} {text symbol : String}
    (added : batch.addFile places text symbol = .ok changed) :
    ∃ file, UnitFile.parse places text = .ok file ∧ symbol ≠ "" ∧
      { batch with
        units := batch.units.set symbol
          (if file.name = "" then (batch.units.get? symbol).getD "" else file.name)
        declarations := batch.declarations ++ file.declarations } = changed := by
  rcases bind_eq_ok.mp added with ⟨_, _, added⟩
  rcases bind_eq_ok.mp added with ⟨file, parsed, added⟩
  rcases bind_eq_ok.mp added with ⟨_, declared, added⟩
  rcases of_declareUnit declared with ⟨someSymbol, rfl⟩
  exact ⟨file, parsed, someSymbol, Except.ok.inj added⟩

theorem symbols_set (symbols : forall entry, entry ∈ batch.units -> entry.1 ≠ "")
    {symbol shown : String} (someSymbol : symbol ≠ "") :
    forall entry, entry ∈ batch.units.set symbol shown -> entry.1 ≠ "" := by
  intro entry member
  rcases Table.mem_set member with old | rfl
  · exact symbols entry old
  · exact someSymbol

/-- All units of a batch have symbols. -/
theorem Collected.symbols [Scalar R] {places : Nat} (collected : batch.Collected places) :
    forall entry, entry ∈ batch.units -> entry.1 ≠ "" := by
  induction collected with
  | start => exact nofun
  | declareUnit _ declared inductionHypothesis =>
      rcases of_declareUnit declared with ⟨someSymbol, rfl⟩
      exact symbols_set inductionHypothesis someSymbol
  | addDeclaration _ added inductionHypothesis =>
      rcases bind_eq_ok.mp added with ⟨_, _, added⟩
      cases added
      exact inductionHypothesis
  | addFile _ added inductionHypothesis =>
      rcases of_addFile added with ⟨_, _, someSymbol, rfl⟩
      exact symbols_set inductionHypothesis someSymbol

theorem Collected.addFiles [Scalar R] {places : Nat} {files : List (String × String)}
    (collected : batch.Collected places) (added : addFiles places files batch = .ok changed) :
    changed.Collected places := by
  induction files generalizing batch with
  | nil =>
      cases added
      exact collected
  | cons file rest inductionHypothesis =>
      rcases bind_eq_ok.mp added with ⟨middle, one, added⟩
      exact inductionHypothesis (collected.addFile one) added

end

section

open Registry

variable {registry changed : Registry R} {batch : UnitBatch R}

/-- New units for all symbols of a batch are known at the end. -/
theorem changes_createUnits (catalog : String) {units : Table String}
    (symbols : forall entry, entry ∈ units -> entry.1 ≠ "") :
    ChangesTo registry (createUnits catalog units registry).2 ∧
      forall entry, entry ∈ (createUnits catalog units registry).1 ->
        entry.2 ∈ (createUnits catalog units registry).2.units := by
  induction units generalizing registry with
  | nil => exact ⟨.refl, nofun⟩
  | cons first rest inductionHypothesis =>
      rcases first with ⟨symbol, name⟩
      have created : ChangesTo registry (registry.createUnit catalog symbol name).2 :=
        .single (.create catalog symbol name (symbols _ List.mem_cons_self))
      rcases @inductionHypothesis (registry.createUnit catalog symbol name).2
        (fun entry member => symbols entry (List.mem_cons_of_mem _ member)) with
        ⟨further, known⟩
      refine ⟨created.trans further, fun entry member => ?_⟩
      rcases List.mem_cons.mp member with rfl | later
      · refine further.units_subset ?_
        rw [units_createUnit]
        exact List.mem_append_right _ (List.mem_singleton_self _)
      · exact known entry later

/-- A batch sees its own units, and those of the registry. -/
theorem unitFor_eq_ok {units : Table UnitOfMeasure} {symbol : String} {unit : UnitOfMeasure}
    (found : batch.unitFor units registry symbol = .ok unit) :
    units.get? symbol = some unit ∨ registry.findAny? symbol = some unit := by
  rcases batch with ⟨name, sharesUnits, symbols, declarations, finished⟩
  unfold UnitBatch.unitFor at found
  cases own : units.get? symbol with
  | some here =>
      rw [own] at found
      cases found
      exact Or.inl rfl
  | none =>
      rw [own] at found
      cases sharesUnits with
      | false => cases found
      | true =>
          cases shared : registry.findAny? symbol with
          | none =>
              rw [shared] at found
              cases found
          | some there =>
              rw [shared] at found
              cases found
              exact Or.inr rfl

/-- The declarations of a batch name units that are known once its units are created. -/
theorem knowsNamed_of_mapM [Scalar R] {places : Nat} (held : registry.KnowsHeld)
    (collected : batch.Collected places) {resolved : List (ResolvedDeclaration R)}
    (named : batch.declarations.mapM (resolveDeclaration
      (batch.unitFor (createUnits batch.catalog batch.units registry).1 registry)) = .ok resolved) :
    forall one, one ∈ resolved ->
      (createUnits batch.catalog batch.units registry).2.KnowsNamed one := by
  rcases @changes_createUnits _ registry batch.catalog _ collected.symbols with
    ⟨created, known⟩
  intro one member
  rcases of_mem_mapM named member with ⟨declaration, _, found⟩
  refine knowsNamed_of_resolve (fun symbol unit looked => ?_) found
  rcases unitFor_eq_ok looked with own | shared
  · exact known _ (Table.mem_of_get? own)
  · exact created.units_subset (held.findAny? shared)

theorem changes_finish [Scalar R] {places : Nat} (held : registry.KnowsHeld)
    (collected : batch.Collected places) {catalog : Catalog R}
    (finished : batch.finish registry = .ok (catalog, changed)) :
    ChangesTo registry changed ∧ changed.Knows catalog := by
  rcases of_finish finished with ⟨resolved, named, rfl, rfl⟩
  rcases @changes_createUnits _ registry batch.catalog _ collected.symbols with
    ⟨created, known⟩
  have entering := changes_declareAll (knowsNamed_of_mapM held collected named)
  exact ⟨created.trans entering,
    fun entry member => entering.units_subset (known entry member)⟩

theorem changes_install [Scalar R] {places : Nat} (held : registry.KnowsHeld)
    (collected : batch.Collected places) (installed : batch.install registry = .ok changed) :
    ChangesTo registry changed := by
  rcases bind_eq_ok.mp installed with ⟨⟨catalog, middle⟩, finished, installed⟩
  cases installed
  rcases changes_finish held collected finished with ⟨changes, knows⟩
  exact changes.trans (changes_setCatalog (held.changesTo changes) knows batch.catalog)

end

end UnitBatch

/-! ## Operations -/

namespace Registry

section

variable [Scalar R] {places : Nat}

theorem changes_installAll {registry changed : Registry R}
    {catalogs : List (String × List (String × String))} (held : registry.KnowsHeld)
    (installed : registry.installAll places catalogs = .ok changed) :
    ChangesTo registry changed := by
  induction catalogs generalizing registry with
  | nil =>
      cases installed
      exact .refl
  | cons first rest inductionHypothesis =>
      rcases bind_eq_ok.mp installed with ⟨batch, added, installed⟩
      rcases bind_eq_ok.mp installed with ⟨middle, one, installed⟩
      have collected := (UnitBatch.Collected.start first.1 true).addFiles added
      have begun := UnitBatch.changes_install held collected one
      exact begun.trans (inductionHypothesis (held.changesTo begun) installed)

/-- The registries that the operations make from the empty one, each with the catalogs that were
finished but are not in force yet. -/
inductive Reachable (places : Nat) : Registry R -> List (String × Catalog R) -> Prop
  | empty : Reachable places .empty []
  | withBuiltIns {registry changed : Registry R} {finished : List (String × Catalog R)} :
      Reachable places registry finished -> registry.withBuiltIns places = .ok changed ->
      Reachable places changed finished
  | defineUnit {registry changed : Registry R} {finished : List (String × Catalog R)}
      {catalog symbol name : String} {unit : UnitOfMeasure} :
      Reachable places registry finished ->
      registry.defineUnit catalog symbol name = .ok (unit, changed) ->
      Reachable places changed finished
  | defineRelation {registry changed : Registry R} {finished : List (String × Catalog R)}
      {catalog line : String} : Reachable places registry finished ->
      registry.defineRelation places catalog line = .ok changed ->
      Reachable places changed finished
  | finish {registry changed : Registry R} {finished : List (String × Catalog R)}
      {batch : UnitBatch R} {catalog : Catalog R} : Reachable places registry finished ->
      batch.Collected places -> batch.finish registry = .ok (catalog, changed) ->
      Reachable places changed ((batch.catalog, catalog) :: finished)
  | addCatalog {registry : Registry R} {before after : List (String × Catalog R)} {name : String}
      {catalog : Catalog R} : Reachable places registry (before ++ (name, catalog) :: after) ->
      Reachable places { registry with catalogs := registry.catalogs.set name catalog }
        (before ++ after)
  | removeCatalog {registry changed : Registry R} {finished : List (String × Catalog R)}
      {name : String} : Reachable places registry finished ->
      registry.removeCatalog name = .ok changed -> Reachable places changed finished

/-- What the operations make, elementary changes make, and the units of finished catalogs stay
known until the catalogs are put in force. -/
theorem Reachable.changes {registry : Registry R} {finished : List (String × Catalog R)}
    (reachable : Reachable places registry finished) :
    ChangesTo .empty registry ∧ forall entry, entry ∈ finished -> registry.Knows entry.2 := by
  have onward : forall {first next : Registry R} {catalogs : List (String × Catalog R)},
      (ChangesTo .empty first ∧ forall entry, entry ∈ catalogs -> first.Knows entry.2) ->
      (first.KnowsHeld -> ChangesTo first next) ->
      ChangesTo .empty next ∧ forall entry, entry ∈ catalogs -> next.Knows entry.2 := by
    rintro first next catalogs ⟨before, knows⟩ change
    have further := change (empty_sound.held.changesTo before)
    exact ⟨before.trans further, fun entry member => (knows entry member).mono further⟩
  induction reachable with
  | empty => exact ⟨.refl, nofun⟩
  | withBuiltIns _ installed inductionHypothesis =>
      exact onward inductionHypothesis fun held => changes_installAll held installed
  | defineUnit _ defined inductionHypothesis =>
      exact onward inductionHypothesis fun held => changes_defineUnit held defined
  | defineRelation _ defined inductionHypothesis =>
      exact onward inductionHypothesis fun held => changes_defineRelation held defined
  | removeCatalog _ removed inductionHypothesis =>
      exact onward inductionHypothesis fun held => changes_removeCatalog held removed
  | finish _ collected finishing inductionHypothesis =>
      have held := empty_sound.held.changesTo inductionHypothesis.1
      rcases UnitBatch.changes_finish held collected finishing with ⟨changes, knows⟩
      rcases onward inductionHypothesis fun _ => changes with ⟨all, before⟩
      refine ⟨all, fun entry member => ?_⟩
      rcases List.mem_cons.mp member with rfl | earlier
      · exact knows
      · exact before entry earlier
  | @addCatalog _ _ _ name _ _ inductionHypothesis =>
      rcases inductionHypothesis with ⟨earlier, knows⟩
      have added := changes_setCatalog (empty_sound.held.changesTo earlier)
        (knows _ (List.mem_append_right _ List.mem_cons_self)) name
      refine ⟨earlier.trans added, fun entry member => ?_⟩
      refine (knows entry ?_).mono added
      rcases List.mem_append.mp member with first | last
      · exact List.mem_append_left _ first
      · exact List.mem_append_right _ (List.mem_cons_of_mem _ last)

theorem Reachable.sound {registry : Registry R} {finished : List (String × Catalog R)}
    (reachable : Reachable places registry finished) : registry.Sound :=
  empty_sound.changesTo reachable.changes.1

end

end Registry

end QuantityCalculus
