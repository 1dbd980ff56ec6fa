import QuantityCalculus.Proofs.Runs
import QuantityCalculus.Proofs.Units.Contents

namespace QuantityCalculus

/-!
# Declaring and loading units in place

A registry that is given back whole, or not at all, cannot be left half changed.  One that is
changed in place can: whatever was written before a failure stays written.  Here the
operations on units are carried out in place, each change taking effect at once, in the
order in which the changes are made.

They still do all or nothing.  The texts are read, and the units that they name are looked up,
before anything is written, and writing to a unit fails for the unit of plain numbers only,
which no symbol stands for.  So in place the operations have the results that they have as
a whole, and a failure leaves every catalog and every unit as it was.
-/

/-- A registry, and a batch that is being collected for it. -/
structure Workbench (R : Type) where
  registry : Registry R
  batch : UnitBatch R

/-- Something done in place. -/
abbrev InPlace (R : Type) := Stateful (Workbench R)

namespace InPlace

open Registry

variable {R : Type}

/-! ## The operations -/

/-- Writes one relation. -/
def enter (write : RelationWrite R) : InPlace R PUnit := do
  if write.unit.isDimensionless then throw .relationOnDimensionless
  modify fun bench => { bench with registry := bench.registry.write write }

/-- Writes some relations, one after the other. -/
def enterAll : List (RelationWrite R) -> InPlace R PUnit
  | [] => pure ⟨⟩
  | write :: rest => do
      enter write
      enterAll rest

/-- Creates units for all symbols of the batch. -/
def createUnits : InPlace R (Table UnitOfMeasure) :=
  modifyGet fun bench =>
    let (units, registry) :=
      UnitBatch.createUnits bench.batch.catalog bench.batch.units bench.registry
    (units, { bench with registry })

/-- Puts a catalog in force. -/
def setCatalog (name : String) (catalog : Catalog R) : InPlace R PUnit :=
  modify fun bench => { bench with
    registry := { bench.registry with catalogs := bench.registry.catalogs.set name catalog } }

/-- Takes a new batch. -/
def startBatch (name : String) (sharesUnits : Bool) : InPlace R PUnit :=
  modify fun bench => { bench with batch := .start name sharesUnits }

/-- Adds a unit to the batch. -/
def declareUnit (symbol name : String) : InPlace R PUnit := do
  (← get).batch.requireOpen
  if symbol = "" then throw .emptyUnitSymbol
  modify fun bench =>
    let shown := if name = "" then (bench.batch.units.get? symbol).getD "" else name
    { bench with batch := { bench.batch with units := bench.batch.units.set symbol shown } }

/-- Adds declarations to the batch. -/
def addDeclarations (declarations : List (RelationDeclaration R)) : InPlace R PUnit :=
  modify fun bench => { bench with
    batch := { bench.batch with declarations := bench.batch.declarations ++ declarations } }

/-- Finishes the batch. -/
def finish : InPlace R (Catalog R) := do
  let bench ← get
  bench.batch.requireOpen
  let units ← createUnits
  let named : Except Failure (List (ResolvedDeclaration R)) :=
    bench.batch.declarations.mapM (resolveDeclaration (bench.batch.unitFor units bench.registry))
  let resolved ← named
  enterAll (resolved.flatMap ResolvedDeclaration.writes)
  modify fun bench => { bench with batch := bench.batch.close }
  return ⟨units, bench.batch.declarations⟩

variable [Scalar R]

/-- Enters a declaration made in a catalog. -/
def defineRelation (places : Nat) (name line : String) : InPlace R PUnit := do
  let bench ← get
  let catalog ← bench.registry.catalog name
  let declaration ← RelationDeclaration.parse places line
  let resolved ← resolveDeclaration (bench.registry.unitFor catalog) declaration
  enterAll resolved.writes
  setCatalog name { catalog with declarations := catalog.declarations ++ [declaration] }

/-- Adds a unit file to the batch. -/
def addFile (places : Nat) (text symbol : String) : InPlace R PUnit := do
  (← get).batch.requireOpen
  let file ← UnitFile.parse places text
  declareUnit symbol file.name
  addDeclarations file.declarations

/-- Adds some unit files to the batch, each with the symbol of its unit. -/
def addFiles (places : Nat) : List (String × String) -> InPlace R PUnit
  | [] => pure ⟨⟩
  | (symbol, text) :: rest => do
      addFile places text symbol
      addFiles places rest

/-- Loads a catalog from unit files, through a new batch. -/
def loadCatalog (places : Nat) (name : String) (sharesUnits : Bool)
    (files : List (String × String)) : InPlace R PUnit := do
  startBatch name sharesUnits
  addFiles places files
  let catalog ← finish
  setCatalog (← get).batch.catalog catalog

/-! ## What is kept -/

section

variable {R : Type} {registry : Registry R}

/-- Two registries hold the same: the same catalogs, and all that was known of any unit. -/
structure SameContent (before after : Registry R) : Prop where
  catalogs : after.catalogs = before.catalogs
  names : forall unit, unit ∈ before.units -> after.nameOf unit = before.nameOf unit
  relations : forall unit, unit ∈ before.units -> after.relationsOf unit = before.relationsOf unit

theorem SameContent.refl (registry : Registry R) : SameContent registry registry :=
  ⟨rfl, fun _ _ => rfl, fun _ _ => rfl⟩

/-- Units that no catalog holds yet take nothing away. -/
theorem sameContent_createUnits (catalog : String) (units : Table String) :
    SameContent registry (UnitBatch.createUnits catalog units registry).2 where
  catalogs := UnitBatch.catalogs_createUnits catalog units
  names := by
    intro unit known
    rw [nameOf, UnitBatch.record?_createUnits known, nameOf]
  relations := by
    intro unit known
    rw [relationsOf, UnitBatch.record?_createUnits known, relationsOf]

/-- A failure keeps the batch, and the registry up to units that no catalog holds. -/
def KeepsBoth (before after : Workbench R) : Prop :=
  after.batch = before.batch ∧ SameContent before.registry after.registry

/-- What is done in place has the result that it has as a whole, and when it fails, what was there
is kept. -/
def ActsAs {α : Type} (kept : Workbench R -> Workbench R -> Prop) (action : InPlace R α)
    (whole : Except Failure (α × Workbench R)) (bench : Workbench R) : Prop :=
  match whole with
  | .ok (value, changed) => action bench = (.ok value, changed)
  | .error failure => ∃ after, action bench = (.error failure, after) ∧ kept bench after

end

/-! ## Running the operations -/

section

variable {R : Type} {bench : Workbench R}

theorem run_enter {write : RelationWrite R} (someUnit : write.unit.isDimensionless = false) :
    enter write bench = (.ok ⟨⟩, { bench with registry := bench.registry.write write }) := by
  rw [enter, someUnit]
  rfl

theorem run_enterAll {writes : List (RelationWrite R)}
    (someUnits : forall write, write ∈ writes -> write.unit.isDimensionless = false) :
    enterAll writes bench =
      (.ok ⟨⟩, { bench with registry := bench.registry.writeAll writes }) := by
  induction writes generalizing bench with
  | nil => rfl
  | cons first rest inductionHypothesis =>
      rw [enterAll, run_bind_of_ok (run_enter (someUnits first List.mem_cons_self))]
      exact inductionHypothesis fun write member => someUnits write (List.mem_cons_of_mem _ member)

section

variable {α β : Type} {kept : Workbench R -> Workbench R -> Prop}

/-- What follows a look at the bench starts with the bench looked at. -/
theorem ActsAs.get_bind {rest : Workbench R -> InPlace R β}
    {whole : Except Failure (β × Workbench R)} (further : ActsAs kept (rest bench) whole bench) :
    ActsAs kept (get >>= rest) whole bench :=
  further

/-- A step that changes nothing may fail, and goes on with what it found otherwise. -/
theorem ActsAs.lift_bind (same : kept bench bench) {result : Except Failure α}
    {rest : α -> InPlace R β} {whole : α -> Except Failure (β × Workbench R)}
    (further : forall value, result = .ok value -> ActsAs kept (rest value) (whole value) bench) :
    ActsAs kept (liftM result >>= rest) (result >>= whole) bench := by
  cases result with
  | error failure => exact ⟨bench, rfl, same⟩
  | ok value => exact further value rfl

/-- A step that succeeds as a part of the whole. -/
theorem ActsAs.step {action : InPlace R α} {value : α} {middle : Workbench R}
    (run : action bench = (.ok value, middle)) {rest : α -> InPlace R β}
    {whole : Except Failure (β × Workbench R)}
    (further : ActsAs (fun _ => kept bench) (rest value) whole middle) :
    ActsAs kept (action >>= rest) whole bench := by
  unfold ActsAs
  rw [run_bind_of_ok run]
  exact further

/-- Two operations act one after the other as they act as a whole. -/
theorem ActsAs.bind {first : InPlace R α} {rest : α -> InPlace R β}
    {whole : Except Failure (α × Workbench R)}
    {further : α × Workbench R -> Except Failure (β × Workbench R)}
    (one : ActsAs kept first whole bench)
    (two : forall value middle, whole = .ok (value, middle) ->
      ActsAs (fun _ => kept bench) (rest value) (further (value, middle)) middle) :
    ActsAs kept (first >>= rest) (whole >>= further) bench := by
  cases whole with
  | error failure =>
      rcases one with ⟨after, run, same⟩
      refine ⟨after, ?_, same⟩
      rw [run_bind, run]
  | ok outcome => exact ActsAs.step one (two outcome.1 outcome.2 rfl)

theorem ActsAs.mono {weaker : Workbench R -> Workbench R -> Prop}
    (weaken : forall after, kept bench after -> weaker bench after) {action : InPlace R α}
    {whole : Except Failure (α × Workbench R)} (acts : ActsAs kept action whole bench) :
    ActsAs weaker action whole bench := by
  cases whole with
  | error failure =>
      rcases acts with ⟨after, run, same⟩
      exact ⟨after, run, weaken after same⟩
  | ok outcome => exact acts

/-- The last steps cannot fail. -/
theorem ActsAs.of_run {action : InPlace R α} {value : α} {changed : Workbench R}
    {whole : Except Failure (α × Workbench R)} (succeeded : whole = .ok (value, changed))
    (run : action bench = (.ok value, changed)) : ActsAs kept action whole bench := by
  rw [succeeded]
  exact run

end

variable [Scalar R]

omit [Scalar R] in
theorem run_startBatch (name : String) (sharesUnits : Bool) :
    startBatch name sharesUnits bench =
      (.ok ⟨⟩, { bench with batch := .start name sharesUnits }) :=
  rfl

omit [Scalar R] in
theorem run_createUnits :
    createUnits bench =
      (.ok (UnitBatch.createUnits bench.batch.catalog bench.batch.units bench.registry).1,
        { bench with
          registry :=
            (UnitBatch.createUnits bench.batch.catalog bench.batch.units bench.registry).2 }) :=
  rfl

/-- A declaration is checked before anything is written. -/
theorem actsAs_defineRelation (sound : bench.registry.Sound) (places : Nat) (name line : String) :
    ActsAs Eq (defineRelation places name line)
      (do
        let changed ← bench.registry.defineRelation places name line
        .ok (⟨⟩, { bench with registry := changed })) bench := by
  rw [Registry.defineRelation]
  simp only [bind_assoc]
  refine ActsAs.get_bind (ActsAs.lift_bind rfl fun catalog found => ?_)
  refine ActsAs.lift_bind rfl fun declaration _ => ?_
  refine ActsAs.lift_bind rfl fun resolved named => ?_
  have known := knowsNamed_of_resolve
    (fun _ _ => sound.held.unitFor (sound.held.catalog found)) named
  have someUnits := fun write member => sound.symbols _ (known.writes write member)
  refine ActsAs.of_run (bind_eq_of_ok (performs_enterDeclaration resolved someUnits _)) ?_
  exact run_bind_of_ok (run_enterAll someUnits) _

/-- A unit file is read before anything of it is added. -/
theorem actsAs_addFile (places : Nat) (text symbol : String) :
    ActsAs Eq (addFile places text symbol)
      (do
        let changed ← bench.batch.addFile places text symbol
        .ok (⟨⟩, { bench with batch := changed })) bench := by
  rw [UnitBatch.addFile]
  simp only [bind_assoc]
  refine ActsAs.get_bind (ActsAs.lift_bind rfl fun _ isOpen => ?_)
  refine ActsAs.lift_bind rfl fun file _ => ?_
  rw [UnitBatch.declareUnit, isOpen]
  by_cases someSymbol : symbol = ""
  · rw [if_pos someSymbol]
    refine ⟨bench, ?_, rfl⟩
    rw [run_bind, declareUnit, run_get_bind, isOpen, if_pos someSymbol]
    rfl
  · rw [if_neg someSymbol]
    refine ActsAs.of_run rfl ?_
    rw [run_bind, declareUnit, run_get_bind, isOpen, if_neg someSymbol]
    rfl

/-- Unit files are added up to the first that fails, and the registry takes no part. -/
theorem actsAs_addFiles (places : Nat) (files : List (String × String)) :
    ActsAs (fun before after => after.registry = before.registry) (addFiles places files)
      (do
        let changed ← UnitBatch.addFiles places files bench.batch
        .ok (⟨⟩, { bench with batch := changed })) bench := by
  induction files generalizing bench with
  | nil => exact ActsAs.of_run rfl rfl
  | cons file rest inductionHypothesis =>
      have one : ActsAs (fun before after => after.registry = before.registry) _ _ bench :=
        (actsAs_addFile places file.2 file.1).mono fun after same => congrArg _ same.symm
      -- the remaining files go to the batch that the first one leaves
      let further (outcome : PUnit × Workbench R) : Except Failure (PUnit × Workbench R) := do
        let changed ← UnitBatch.addFiles places rest outcome.2.batch
        .ok (⟨⟩, { outcome.2 with batch := changed })
      have whole : (UnitBatch.addFiles places (file :: rest) bench.batch >>= fun changed =>
            .ok (⟨⟩, { bench with batch := changed })) =
          (bench.batch.addFile places file.2 file.1 >>= fun changed =>
            .ok (⟨⟩, { bench with batch := changed })) >>= further := by
        rw [UnitBatch.addFiles, bind_assoc, bind_assoc]
        rfl
      rw [whole, addFiles]
      refine one.bind fun _ middle added => ?_
      rcases bind_eq_ok.mp added with ⟨changed, _, same⟩
      cases same
      exact inductionHypothesis

/-- A batch is finished with all its relations or with none. -/
theorem actsAs_finish {places : Nat} (sound : bench.registry.Sound)
    (usable : bench.batch.finished = true ∨ bench.batch.Collected places) :
    ActsAs KeepsBoth finish
      (do
        let (catalog, changed) ← bench.batch.finish bench.registry
        .ok (catalog, ⟨changed, bench.batch.close⟩)) bench := by
  rw [UnitBatch.finish]
  simp only [bind_assoc]
  refine ActsAs.get_bind (ActsAs.lift_bind ⟨rfl, .refl _⟩ fun _ isOpen => ?_)
  have collected : bench.batch.Collected places := by
    refine usable.resolve_left fun closed => ?_
    rw [UnitBatch.requireOpen, if_pos closed] at isOpen
    cases isOpen
  refine ActsAs.step run_createUnits ?_
  refine ActsAs.lift_bind ⟨rfl, sameContent_createUnits _ _⟩ fun resolved named => ?_
  have someUnits : forall write, write ∈ resolved.flatMap ResolvedDeclaration.writes ->
      write.unit.isDimensionless = false := by
    intro write member
    rcases List.mem_flatMap.mp member with ⟨one, inside, written⟩
    have knows := UnitBatch.knowsNamed_of_mapM sound.held collected named one inside
    have created : ChangesTo bench.registry
        (UnitBatch.createUnits bench.batch.catalog bench.batch.units bench.registry).2 :=
      (UnitBatch.changes_createUnits bench.batch.catalog collected.symbols).1
    exact (sound.changesTo created).symbols _ (knows.writes write written)
  refine ActsAs.of_run (bind_eq_of_ok (performs_enterAll resolved someUnits _)) ?_
  exact run_bind_of_ok (run_enterAll someUnits) _

/-- A catalog is loaded as a whole or not at all. -/
theorem actsAs_loadCatalog (sound : bench.registry.Sound) (places : Nat) (name : String)
    (sharesUnits : Bool) (files : List (String × String)) :
    ActsAs (fun before after => SameContent before.registry after.registry)
      (loadCatalog places name sharesUnits files)
      (do
        let batch ← UnitBatch.addFiles places files (.start name sharesUnits)
        let changed ← batch.install bench.registry
        .ok (⟨⟩, ⟨changed, batch.close⟩)) bench := by
  -- what the files leave is finished, and what is finished is put in force
  let installing (outcome : Catalog R × Workbench R) : Except Failure (Unit × Workbench R) :=
    .ok ((), { outcome.2 with
      registry := { outcome.2.registry with
        catalogs := outcome.2.registry.catalogs.set outcome.2.batch.catalog outcome.1 } })
  let finishing (outcome : Unit × Workbench R) : Except Failure (Unit × Workbench R) :=
    (outcome.2.batch.finish outcome.2.registry >>= fun finished =>
      .ok (finished.1, ⟨finished.2, outcome.2.batch.close⟩)) >>= installing
  have whole : (UnitBatch.addFiles places files (.start name sharesUnits) >>= fun batch =>
        batch.install bench.registry >>= fun changed => .ok ((), ⟨changed, batch.close⟩)) =
      (UnitBatch.addFiles places files (.start name sharesUnits) >>= fun batch =>
        .ok ((), { bench with batch })) >>= finishing := by
    simp only [UnitBatch.install, bind_assoc, finishing]
    rfl
  rw [whole]
  refine ActsAs.step (run_startBatch name sharesUnits) ?_
  have collecting : ActsAs (fun _ after => after.registry = bench.registry)
      (addFiles places files) _ { bench with batch := .start name sharesUnits } :=
    actsAs_addFiles places files
  have kept : forall after : Workbench R, after.registry = bench.registry ->
      SameContent bench.registry after.registry := by
    intro after same
    rw [same]
    exact .refl _
  refine (collecting.mono kept).bind fun _ middle added => ?_
  rcases bind_eq_ok.mp added with ⟨batch, collected, same⟩
  cases same
  have finishes : ActsAs _ finish _ { bench with batch := batch } :=
    actsAs_finish sound
      (Or.inr ((UnitBatch.Collected.start name sharesUnits).addFiles collected))
  refine (finishes.mono fun after kept => kept.2).bind fun catalog last finished => ?_
  exact ActsAs.of_run rfl rfl

end

/-! ## All or nothing -/

/-- Declaring relations and loading catalogs, carried out in place on any registry that can be
made: the results are those of the operations as a whole, and a failure keeps what was there. -/
theorem declaring_allOrNothing {places : Nat} {registry : Registry R}
    {finished : List (String × Catalog R)} (reachable : Reachable places registry finished) :
    (forall batch name line,
      ActsAs Eq (defineRelation places name line)
        (registry.defineRelation places name line >>= fun changed => .ok ((), ⟨changed, batch⟩))
        ⟨registry, batch⟩) ∧
    (forall batch text symbol,
      ActsAs Eq (addFile places text symbol)
        (batch.addFile places text symbol >>= fun changed => .ok ((), ⟨registry, changed⟩))
        ⟨registry, batch⟩) ∧
    (forall batch, batch.finished = true ∨ batch.Collected places ->
      ActsAs KeepsBoth finish
        (batch.finish registry >>= fun whole => .ok (whole.1, ⟨whole.2, batch.close⟩))
        ⟨registry, batch⟩) ∧
    (forall batch name sharesUnits files,
      ActsAs (fun before after => SameContent before.registry after.registry)
        (loadCatalog places name sharesUnits files)
        (UnitBatch.addFiles places files (.start name sharesUnits) >>= fun collected =>
          collected.install registry >>= fun changed => .ok ((), ⟨changed, collected.close⟩))
        ⟨registry, batch⟩) := by
  have sound := reachable.sound
  refine ⟨fun batch name line => ?_, fun batch text symbol => ?_, fun batch usable => ?_,
    fun batch name sharesUnits files => ?_⟩
  · exact @actsAs_defineRelation R ⟨registry, batch⟩ _ sound places name line
  · exact @actsAs_addFile R ⟨registry, batch⟩ _ places text symbol
  · exact @actsAs_finish R ⟨registry, batch⟩ _ places sound usable
  · exact @actsAs_loadCatalog R ⟨registry, batch⟩ _ sound places name sharesUnits files

/-- The catalog that is there from the start, and a relation that names a unit nobody defined. -/
theorem declaring_allOrNothing_electric :
    ∃ registry : Registry Float, registry = builtInRegistry ∧ Reachable 15 registry [] ∧
      ∃ failure, defineRelation 15 "electric" "V*A=N" ⟨registry, .start "t" true⟩ =
        (.error failure, ⟨registry, .start "t" true⟩) := by
  obtain ⟨registry, builtIn⟩ : ∃ registry, registry = builtInRegistry := ⟨_, rfl⟩
  have reachable : Reachable 15 registry [] :=
    builtIn ▸ .withBuiltIns .empty withBuiltIns_succeeds
  have fails : (builtInRegistry.defineRelation 15 "electric" "V*A=N").toOption.isNone := by
    decide +kernel
  have acts := (declaring_allOrNothing reachable).1 (.start "t" true) "electric" "V*A=N"
  rw [← builtIn] at fails
  cases outcome : registry.defineRelation 15 "electric" "V*A=N" with
  | ok changed =>
      rw [outcome] at fails
      cases fails
  | error failure =>
      rw [outcome] at acts
      rcases acts with ⟨after, failed, rfl⟩
      exact ⟨registry, builtIn, reachable, failure, failed⟩

end InPlace
end QuantityCalculus
