import QuantityCalculus.Proofs.Storage.Loading
import QuantityCalculus.Proofs.Units.Documented

namespace QuantityCalculus

/-!
# A registry restored catalog by catalog

`Restored` says how far a registry that is being loaded agrees with the one that was kept:
in the catalogs that are settled it holds the same units under the same names, and its
tables tell what the declarations of these catalogs wrote.  Loading settles one more
catalog when each unit that its declarations name is its own, or is the only one of its
symbol and belongs to a catalog that is settled already.

Once all catalogs are settled the two registries differ in the order in which their
declarations were made, file by file.  The order plays no part where, of two declarations
that write different relations under one key, the later one takes effect later again.
-/

variable {R : Type}

/-! ## Agreement -/

namespace Registry

/-- A registry agrees with another one on the catalogs that are settled. -/
structure Restored (old : Registry R) (notes : List (Note R)) (settled : List String)
    (registry : Registry R) (log : List (Note R)) : Prop where
  sound : registry.Sound
  distinct : registry.catalogs.keys.Nodup
  known : forall name, name ∈ registry.catalogs.keys -> name ∈ old.catalogs.keys
  within : forall {name symbol unit}, registry.heldUnit? name symbol = some unit ->
    ∃ kept, old.heldUnit? name symbol = some kept
  inForce : forall name, name ∈ settled -> name ∈ registry.catalogs.keys
  shown : forall name, name ∈ settled -> forall symbol,
    registry.shown? name symbol = old.shown? name symbol
  tells : forall {name symbol unit}, name ∈ settled -> registry.heldUnit? name symbol = some unit ->
    forall key, registry.relation? unit key = lastWrite unit key (Note.writes log)
  named : forall note, note ∈ log -> forall unit, note.resolved.Names unit ->
    unit.label.catalog ∈ settled ∧
      registry.heldUnit? unit.label.catalog unit.label.symbol = some unit
  kept : forall file, Note.keptIn file (log.map Note.bare) =
    if file.1 ∈ settled then Note.keptIn file (notes.map Note.bare) else []

/-- Two registries hold the same units in the same catalogs, under the same names and with the
same relations; the units of relations are compared by their labels. -/
structure SameUnits (old new : Registry R) : Prop where
  catalogs : forall name, name ∈ old.catalogs.keys <-> name ∈ new.catalogs.keys
  units : forall name symbol, old.shown? name symbol = new.shown? name symbol
  relations : forall {name symbol unit restored}, old.heldUnit? name symbol = some unit ->
    new.heldUnit? name symbol = some restored -> forall key,
      (old.relation? unit key).map Relation.bare = (new.relation? restored key).map Relation.bare

section

variable {old registry : Registry R} {notes log : List (Note R)} {settled : List String}

theorem shown?_eq_some {name symbol shown : String} {label : UnitLabel}
    (found : registry.shown? name symbol = some (label, shown)) :
    ∃ unit, registry.heldUnit? name symbol = some unit ∧ unit.label = label ∧
      registry.nameOf unit = shown := by
  rcases Option.map_eq_some_iff.mp found with ⟨unit, held, same⟩
  cases same
  exact ⟨unit, held, rfl, rfl⟩

theorem shown?_of_held {name symbol : String} {unit : UnitOfMeasure}
    (held : registry.heldUnit? name symbol = some unit) :
    registry.shown? name symbol = some (unit.label, registry.nameOf unit) := by
  rw [shown?, held]
  rfl

theorem Restored.settled_of_mem (restored : Restored old notes settled registry log)
    {note : Note R} (member : note ∈ log.map Note.bare) : note.catalog ∈ settled := by
  by_contra outside
  have kept := restored.kept note.file
  rw [if_neg (by exact outside)] at kept
  exact List.filter_eq_nil_iff.mp kept note member (beq_self_eq_true _)

/-- The tables of a settled catalog are what the bare notes tell. -/
theorem relation?_bare {unit : UnitOfMeasure}
    (tells : forall key, registry.relation? unit key = lastWrite unit key (Note.writes log))
    (only : forall note, note ∈ log -> forall other, note.resolved.Names other ->
      other.label = unit.label -> other = unit) (key : RelationKey) :
    (registry.relation? unit key).map Relation.bare =
      lastWrite unit.bare key (Note.writes (log.map Note.bare)) := by
  rw [tells, Note.writes_map_bare, lastWrite_bare fun write member same => ?_]
  rcases List.mem_flatMap.mp member with ⟨note, inside, written⟩
  exact only note inside _ (names_of_writes written) same

/-- A registry whose catalogs are all settled holds the same units. -/
theorem Restored.sameUnits (restored : Restored old notes settled registry log)
    (documented : old.Documented notes) {Before : String × String -> String × String -> Prop}
    (agree : (notes.map Note.bare).Pairwise fun note other => note.Conflicts other ->
      note.file = other.file ∨ Before note.file other.file)
    (ordered : (log.map Note.bare).Pairwise fun note other => ¬ Before other.file note.file)
    (all : forall name, name ∈ old.catalogs.keys -> name ∈ settled) : old.SameUnits registry := by
  have shown : forall name symbol, old.shown? name symbol = registry.shown? name symbol := by
    intro name symbol
    by_cases inSettled : name ∈ settled
    · exact (restored.shown name inSettled symbol).symm
    · have notOld : old.heldUnit? name symbol = none := by
        rw [heldUnit?, (Table.get?_eq_none_iff _ _).mpr fun member => inSettled (all name member)]
        rfl
      cases held : registry.heldUnit? name symbol with
      | none =>
          rw [shown?, shown?, notOld, held]
          rfl
      | some unit =>
          rcases restored.within held with ⟨kept, found⟩
          rw [notOld] at found
          cases found
  refine ⟨fun name => ⟨fun member => restored.inForce name (all name member), restored.known name⟩,
    shown, fun {name symbol unit other} held heldNow key => ?_⟩
  have labels : other.label = unit.label := by
    have both := shown name symbol
    rw [shown?_of_held held, shown?_of_held heldNow] at both
    exact (congrArg Prod.fst (Option.some.inj both)).symm
  have label := documented.label held
  have inSettled : name ∈ settled := by
    refine all name ?_
    rcases Option.bind_eq_some_iff.mp held with ⟨catalog, there, _⟩
    exact Table.mem_keys_of_get? there
  have oldTells : forall key, old.relation? unit key = lastWrite unit key (Note.writes notes) := by
    intro key
    rw [documented.journal.tells, Note.writes_resolved]
  rw [relation?_bare oldTells, relation?_bare (restored.tells inSettled heldNow)]
  · have bare : other.bare = unit.bare := by rw [UnitOfMeasure.bare, labels, UnitOfMeasure.bare]
    rw [bare]
    refine Note.lastWrite_regroup agree ordered fun file => ?_
    rw [restored.kept]
    split
    · rfl
    · rename_i notSettled
      refine List.filter_eq_nil_iff.mpr fun note member same => notSettled ?_
      rcases List.mem_map.mp member with ⟨source, inside, rfl⟩
      rw [← beq_iff_eq.mp same]
      exact all _ (documented.inForce source inside)
  · intro note member named names same
    have heldThere := (restored.named note member named names).2
    rw [same, labels, label, heldNow] at heldThere
    exact (Option.some.inj heldThere).symm
  · intro note member named names same
    have heldThere := documented.held (documented.names_known member names)
    rw [same, label, held] at heldThere
    exact (Option.some.inj heldThere).symm

end

end Registry

/-! ## One catalog more -/

/-- A declaration that stays what it is when its catalog is loaded: it starts with a unit of its
own catalog, and each unit that it names is one of its own catalog or is the only one of its
symbol, in a catalog that is settled before. -/
structure Note.Stays (old : Registry R) (settled : List String) (note : Note R) : Prop where
  own : note.resolved.subject.label.catalog = note.catalog
  named : forall unit, note.resolved.Names unit -> unit.label.catalog = note.catalog ∨
    (unit.label.catalog ∈ settled ∧ forall other, other ≠ unit.label.catalog ->
      old.heldUnit? other unit.label.symbol = none)

namespace UnitBatch

open Registry

/-- The batch holds what the unit files of a catalog keep. -/
structure Collects [Scalar R] (batch : UnitBatch R) (places : Nat) (old : Registry R)
    (notes : List (Note R)) (files : List (String × String)) : Prop where
  collected : batch.Collected places
  isOpen : batch.finished = false
  shares : batch.sharesUnits = true
  names : forall symbol, batch.units.get? symbol =
    (old.heldUnit? batch.catalog symbol).map old.nameOf
  named : forall {symbol unit}, old.heldUnit? batch.catalog symbol = some unit ->
    old.nameOf unit ≠ ""
  declarations : batch.declarations = (Note.gather files notes).map fun note =>
    note.resolved.declaration
  ordered : files.Pairwise fun file other =>
    file.2 ++ FileTree.unitEnding < other.2 ++ FileTree.unitEnding
  files : forall file, file ∈ files <->
    file.1 = batch.catalog ∧ ∃ unit, old.heldUnit? batch.catalog file.2 = some unit

theorem Collects.distinct [Scalar R] {batch : UnitBatch R} {places : Nat} {old : Registry R}
    {notes : List (Note R)} {files : List (String × String)}
    (collects : batch.Collects places old notes files) : files.Nodup := by
  refine collects.ordered.imp fun {file other} less same => ?_
  rw [same] at less
  exact lt_irrefl _ less

/-- The notes of the files of a batch, in the order of the files. -/
theorem Collects.gather_ordered [Scalar R] {batch : UnitBatch R} {places : Nat} {old : Registry R}
    {notes : List (Note R)} {files : List (String × String)}
    (collects : batch.Collects places old notes files) :
    (Note.gather files notes).Pairwise fun note other =>
      ¬ other.file.2 ++ FileTree.unitEnding < note.file.2 ++ FileTree.unitEnding := by
  have inFile : forall {file note}, note ∈ Note.keptIn file notes -> note.file = file :=
    fun member => beq_iff_eq.mp (List.mem_filter.mp member).2
  rw [Note.gather, List.pairwise_flatMap]
  constructor
  · intro file _
    refine List.pairwise_of_forall_mem_list fun note member other inside => ?_
    rw [inFile member, inFile inside]
    exact lt_irrefl _
  · refine collects.ordered.imp fun less note member other inside => ?_
    rw [inFile member, inFile inside]
    exact lt_asymm less

theorem Collects.of_gather [Scalar R] {batch : UnitBatch R} {places : Nat} {old : Registry R}
    {notes : List (Note R)} {files : List (String × String)} {settled : List String}
    (collects : batch.Collects places old notes files)
    (stays : forall note, note ∈ notes -> note.catalog = batch.catalog -> note.Stays old settled)
    {note : Note R} (member : note ∈ Note.gather files notes) :
    note ∈ notes ∧ note.catalog = batch.catalog ∧ note.Stays old settled := by
  rcases Note.mem_gather.mp member with ⟨inFiles, inside⟩
  have here := ((collects.files note.file).mp inFiles).1
  exact ⟨inside, here, stays note inside here⟩

/-- The unit that stands in the place of another one of the same symbol when a batch is
finished. -/
def seen (batch : UnitBatch R) (registry : Registry R) (unit : UnitOfMeasure) : UnitOfMeasure :=
  (((createUnits batch.catalog batch.units registry).1.get? unit.label.symbol).or
    (registry.findAny? unit.label.symbol)).getD unit

section

variable [Scalar R] {places : Nat} {old registry : Registry R} {notes log : List (Note R)}
  {settled : List String} {batch : UnitBatch R} {files : List (String × String)}

/-- A unit that a declaration names is found again under its label. -/
theorem seen_spec (restored : Restored old notes settled registry log)
    (documented : old.Documented notes) (collects : batch.Collects places old notes files)
    {note : Note R} (member : note ∈ notes) (here : note.catalog = batch.catalog)
    (stays : note.Stays old settled) {unit : UnitOfMeasure} (named : note.resolved.Names unit) :
    batch.unitFor (createUnits batch.catalog batch.units registry).1 registry unit.label.symbol =
        .ok (batch.seen registry unit) ∧
      (batch.seen registry unit).label = unit.label ∧
      ((unit.label.catalog = batch.catalog ∧
          (createUnits batch.catalog batch.units registry).1.get? unit.label.symbol =
            some (batch.seen registry unit)) ∨
        (unit.label.catalog ∈ settled ∧
          registry.heldUnit? unit.label.catalog unit.label.symbol =
            some (batch.seen registry unit))) := by
  have held := documented.held (documented.names_known member named)
  by_cases own : unit.label.catalog = batch.catalog
  · rw [own] at held
    cases created : (createUnits batch.catalog batch.units registry).1.get? unit.label.symbol with
    | none =>
        have nowhere := (get?_createUnits_eq_none _ _ _).mp created
        rw [collects.names, held] at nowhere
        cases nowhere
    | some new =>
        have isSeen : batch.seen registry unit = new := by
          rw [seen, created]
          rfl
        rw [unitFor, created, isSeen]
        refine ⟨rfl, ?_, Or.inl ⟨own, rfl⟩⟩
        rw [(get?_createUnits restored.sound collects.collected.symbols created).1, ← own]
  · rcases stays.named unit named with inCatalog | ⟨inSettled, only⟩
    · exact absurd (inCatalog.trans here) own
    · have notCreated : (createUnits batch.catalog batch.units registry).1.get? unit.label.symbol =
          none := by
        rw [get?_createUnits_eq_none, collects.names, only _ (Ne.symm own)]
        rfl
      have shown := restored.shown _ inSettled unit.label.symbol
      rw [shown?_of_held held] at shown
      rcases shown?_eq_some shown with ⟨there, found, label, _⟩
      have isFound : registry.findAny? unit.label.symbol = some there := by
        refine findAny?_of_only restored.distinct found fun other different => ?_
        refine Option.eq_none_iff_forall_ne_some.mpr fun kept heldThere => ?_
        rcases restored.within heldThere with ⟨_, heldOld⟩
        rw [only other different] at heldOld
        cases heldOld
      have isSeen : batch.seen registry unit = there := by
        rw [seen, notCreated, isFound]
        rfl
      rw [unitFor, notCreated, isFound, isSeen, collects.shares]
      exact ⟨rfl, label, Or.inr ⟨inSettled, found⟩⟩

/-- What a batch sees is known once its units are created. -/
theorem seen_known (restored : Restored old notes settled registry log)
    (documented : old.Documented notes) (collects : batch.Collects places old notes files)
    {note : Note R} (member : note ∈ notes) (here : note.catalog = batch.catalog)
    (stays : note.Stays old settled) {unit : UnitOfMeasure} (named : note.resolved.Names unit) :
    batch.seen registry unit ∈ (createUnits batch.catalog batch.units registry).2.units := by
  rcases seen_spec restored documented collects member here stays named with
    ⟨_, _, ⟨_, created⟩ | ⟨_, found⟩⟩
  · exact (get?_createUnits restored.sound collects.collected.symbols created).2.2.1
  · exact (changes_createUnits batch.catalog collects.collected.symbols).1.units_subset
      (restored.sound.known_of_heldUnit? found)

end

end UnitBatch

namespace Registry

open UnitBatch

section

variable [Scalar R] {places : Nat} {old registry changed : Registry R} {notes log : List (Note R)}
  {settled : List String} {batch : UnitBatch R} {files : List (String × String)}

/-- The declarations of a batch are kept in its files. -/
theorem Restored.kept_install (restored : Restored old notes settled registry log)
    (documented : old.Documented notes) (collects : batch.Collects places old notes files)
    (unsettled : batch.catalog ∉ settled)
    (stays : forall note, note ∈ notes -> note.catalog = batch.catalog -> note.Stays old settled)
    (file : String × String) :
    Note.keptIn file (log.map Note.bare ++ (Note.gather files notes).map Note.bare) =
      if file.1 ∈ batch.catalog :: settled then Note.keptIn file (notes.map Note.bare) else [] := by
  have bareKept : forall notes : List (Note R), Note.keptIn file (notes.map Note.bare) =
      (Note.keptIn file notes).map Note.bare := Note.keptIn_map file UnitOfMeasure.bare
  rw [Note.keptIn_append, restored.kept, bareKept, bareKept, Note.keptIn_gather collects.distinct]
  by_cases here : file.1 = batch.catalog
  · rw [here, if_neg unsettled, if_pos List.mem_cons_self, List.nil_append]
    split
    · rfl
    · rename_i notKept
      refine (congrArg (List.map Note.bare) ?_).symm
      refine List.filter_eq_nil_iff.mpr fun note member same => notKept ?_
      have sameFile := beq_iff_eq.mp same
      have catalog : note.catalog = batch.catalog := (congrArg Prod.fst sameFile).trans here
      -- the declaration starts with a unit of its own catalog, whose file is kept
      have own := (stays note member catalog).own.trans catalog
      have symbol := (documented.spelled note member).subject.trans (congrArg Prod.snd sameFile)
      have held := documented.held (documented.names_known member (Or.inl rfl))
      rw [own, symbol] at held
      exact (collects.files file).mpr ⟨here, _, held⟩
  · have notKept : file ∉ files := fun member => here ((collects.files file).mp member).1
    have notFirst : file.1 ∈ batch.catalog :: settled <-> file.1 ∈ settled :=
      List.mem_cons.trans (or_iff_right here)
    rw [if_neg notKept, List.map_nil, List.append_nil]
    simp only [notFirst]

/-- The declarations of a batch are those that were kept, up to the editions of their units. -/
theorem Restored.bare_gather (restored : Restored old notes settled registry log)
    (documented : old.Documented notes) (collects : batch.Collects places old notes files)
    (stays : forall note, note ∈ notes -> note.catalog = batch.catalog -> note.Stays old settled) :
    ((Note.gather files notes).map (Note.map (batch.seen registry))).map Note.bare =
      (Note.gather files notes).map Note.bare := by
  rw [List.map_map]
  refine List.map_congr_left fun note inGather => ?_
  rcases collects.of_gather stays inGather with ⟨inside, here, stay⟩
  have same := bare_map fun unit named =>
    (seen_spec restored documented collects inside here stay named).2.1
  exact congrArg (Note.mk note.catalog) same

/-- What a batch of kept files installs. -/
theorem Restored.installs (restored : Restored old notes settled registry log)
    (documented : old.Documented notes) (collects : batch.Collects places old notes files)
    (stays : forall note, note ∈ notes -> note.catalog = batch.catalog -> note.Stays old settled) :
    ∃ changed, batch.install registry = .ok changed ∧
      batch.Installs registry
        ((Note.gather files notes).map fun note => note.resolved.map (batch.seen registry))
        changed := by
  have resolves : batch.declarations.mapM (resolveDeclaration
      (batch.unitFor (createUnits batch.catalog batch.units registry).1 registry)) =
        .ok ((Note.gather files notes).map fun note =>
          note.resolved.map (batch.seen registry)) := by
    rw [collects.declarations, List.mapM_map]
    refine mapM_eq_ok fun note member => ?_
    rcases collects.of_gather stays member with ⟨inside, here, stay⟩
    exact resolve_map (documented.spelled note inside) fun unit named =>
      (seen_spec restored documented collects inside here stay named).1
  have known : forall one, one ∈ ((Note.gather files notes).map fun note =>
      note.resolved.map (batch.seen registry)) ->
      (createUnits batch.catalog batch.units registry).2.KnowsNamed one := by
    intro one member
    rcases List.mem_map.mp member with ⟨note, inGather, rfl⟩
    rcases collects.of_gather stays inGather with ⟨inside, here, stay⟩
    refine knowsNamed_iff.mpr fun unit named => ?_
    rcases names_map named with ⟨source, names, rfl⟩
    exact seen_known restored documented collects inside here stay names
  exact UnitBatch.installs collects.isOpen resolves known
    (restored.sound.changesTo (changes_createUnits batch.catalog collects.collected.symbols).1)

/-- The units of a catalog that was just installed are shown as those that were kept. -/
theorem shown?_installed (restored : Restored old notes settled registry log)
    (documented : old.Documented notes) (collects : batch.Collects places old notes files)
    {resolved : List (ResolvedDeclaration R)}
    (installs : batch.Installs registry resolved changed) (symbol : String) :
    changed.shown? batch.catalog symbol = old.shown? batch.catalog symbol := by
  rw [shown?, installs.held, if_pos rfl]
  cases created : (createUnits batch.catalog batch.units registry).1.get? symbol with
  | none =>
      have nowhere := (get?_createUnits_eq_none _ _ _).mp created
      rw [collects.names, Option.map_eq_none_iff] at nowhere
      rw [shown?, nowhere]
      rfl
  | some unit =>
      rcases get?_createUnits restored.sound collects.collected.symbols created with
        ⟨label, _, _, name, collected, named⟩
      rw [collects.names] at collected
      rcases Option.map_eq_some_iff.mp collected with ⟨kept, held, rfl⟩
      rw [shown?_of_held held, Option.map_some, installs.names, named, label,
        documented.label held, if_neg (collects.named held)]

omit [Scalar R] in
/-- Catalogs that are not installed are shown as before. -/
theorem shown?_others (restored : Restored old notes settled registry log)
    {resolved : List (ResolvedDeclaration R)}
    (installs : batch.Installs registry resolved changed) {name : String}
    (different : name ≠ batch.catalog) (symbol : String) :
    changed.shown? name symbol = registry.shown? name symbol := by
  rw [shown?, installs.held, if_neg different, shown?]
  cases held : registry.heldUnit? name symbol with
  | none => rfl
  | some unit =>
      have known := restored.sound.known_of_heldUnit? held
      rw [Option.map_some, Option.map_some, installs.names, nameOf, record?_createUnits known,
        nameOf]

theorem Restored.of_installs (restored : Restored old notes settled registry log)
    (documented : old.Documented notes) (collects : batch.Collects places old notes files)
    (inForce : batch.catalog ∈ old.catalogs.keys) (unsettled : batch.catalog ∉ settled)
    (stays : forall note, note ∈ notes -> note.catalog = batch.catalog -> note.Stays old settled)
    (sound : changed.Sound)
    (installs : batch.Installs registry
      ((Note.gather files notes).map fun note => note.resolved.map (batch.seen registry)) changed) :
    Restored old notes (batch.catalog :: settled) changed
      (log ++ (Note.gather files notes).map (Note.map (batch.seen registry))) where
  sound := sound
  distinct := installs.distinct restored.distinct
  known := by
    intro name member
    rcases (installs.keys name).mp member with rfl | before
    · exact inForce
    · exact restored.known name before
  within := by
    intro name symbol unit held
    rw [installs.held] at held
    split at held
    · rename_i same
      rcases get?_createUnits restored.sound collects.collected.symbols held with
        ⟨_, _, _, shown, collected, _⟩
      rw [collects.names, ← same] at collected
      rcases Option.map_eq_some_iff.mp collected with ⟨kept, found, _⟩
      exact ⟨kept, found⟩
    · exact restored.within held
  inForce := by
    intro name member
    refine (installs.keys name).mpr ((List.mem_cons.mp member).imp_right ?_)
    exact restored.inForce name
  shown := by
    intro name member symbol
    by_cases same : name = batch.catalog
    · subst same
      exact shown?_installed restored documented collects installs symbol
    · rw [shown?_others restored installs same]
      exact restored.shown name ((List.mem_cons.mp member).resolve_left same) symbol
  tells := by
    intro name symbol unit member held key
    have writes : Note.writes ((Note.gather files notes).map (Note.map (batch.seen registry))) =
        ((Note.gather files notes).map fun note =>
          note.resolved.map (batch.seen registry)).flatMap ResolvedDeclaration.writes := by
      rw [← Note.writes_resolved, List.map_map]
      rfl
    rw [Note.writes_append, lastWrite_append, writes, installs.relations]
    rw [installs.held] at held
    split at held
    · -- a new unit was written to by the new declarations only
      have new := (get?_createUnits restored.sound collects.collected.symbols held).2.1
      have silent : lastWrite unit key (Note.writes log) = none := by
        refine lastWrite_eq_none fun write inLog place => new ?_
        rcases List.mem_flatMap.mp inLog with ⟨note, inside, written⟩
        have named := restored.named note inside _ (names_of_writes written)
        exact place.1 ▸ restored.sound.known_of_heldUnit? named.2
      rw [relation?_of_not_mem new, silent]
    · rename_i different
      rw [restored.tells ((List.mem_cons.mp member).resolve_left different) held]
  named := by
    have others : forall name, name ∈ settled -> name ≠ batch.catalog :=
      fun name member same => unsettled (same ▸ member)
    intro note member unit named
    rcases List.mem_append.mp member with before | new
    · rcases restored.named note before unit named with ⟨inSettled, held⟩
      rw [installs.held, if_neg (others _ inSettled)]
      exact ⟨List.mem_cons_of_mem _ inSettled, held⟩
    · rcases List.mem_map.mp new with ⟨source, inGather, rfl⟩
      rcases collects.of_gather stays inGather with ⟨inside, here, stay⟩
      rcases names_map named with ⟨kept, names, rfl⟩
      rcases seen_spec restored documented collects inside here stay names with
        ⟨_, label, ⟨own, created⟩ | ⟨inSettled, held⟩⟩
      · rw [label, own, installs.held, if_pos rfl]
        exact ⟨List.mem_cons_self, created⟩
      · rw [label, installs.held, if_neg (others _ inSettled)]
        exact ⟨List.mem_cons_of_mem _ inSettled, held⟩
  kept := by
    intro file
    rw [List.map_append, restored.bare_gather documented collects stays]
    exact restored.kept_install documented collects unsettled stays file

/-- Installing what was collected settles the catalog. -/
theorem Restored.install (restored : Restored old notes settled registry log)
    (documented : old.Documented notes) (collects : batch.Collects places old notes files)
    (inForce : batch.catalog ∈ old.catalogs.keys) (unsettled : batch.catalog ∉ settled)
    (stays : forall note, note ∈ notes -> note.catalog = batch.catalog -> note.Stays old settled) :
    ∃ changed more, batch.install registry = .ok changed ∧
      Restored old notes (batch.catalog :: settled) changed (log ++ more) ∧
      more.map Note.bare = (Note.gather files notes).map Note.bare := by
  rcases restored.installs documented collects stays with ⟨changed, installed, installs⟩
  have sound := restored.sound.changesTo
    (changes_install restored.sound.held collects.collected installed)
  exact ⟨changed, _, installed,
    restored.of_installs documented collects inForce unsettled stays sound installs,
    restored.bare_gather documented collects stays⟩

end

end Registry

/-! ## All catalogs -/

namespace FileTree

open Registry

variable [Scalar R] {places : Nat} {tree : FileTree} {old registry : Registry R}
  {notes log : List (Note R)} {saved settled : List String}

/-- The unit files of a kept catalog are collected with the notes of the catalog. -/
theorem Keeps.collects (keeps : tree.Keeps old saved) (storable : old.Storable)
    (legible : old.Legible) (documented : old.Documented notes) {place : String}
    (member : place ∈ saved) :
    ∃ batch files, tree.collectUnits places (catalogPath place)
          (tree.namesEnding (catalogPath place) unitEnding)
          (UnitBatch.start (catalogNameOf (catalogPath place)) true) = .ok batch ∧
      batch.catalog = place ∧ batch.Collects places old notes files := by
  rcases keeps.known member with ⟨catalog, there⟩
  rcases keeps.unitFileNames storable member there with ⟨symbols, listed, ordered, among⟩
  have distinct : symbols.Nodup := List.Nodup.of_map _ (ordered.imp ne_of_lt)
  have collects : tree.collectUnits places (catalogPath place) (symbols.map (· ++ unitEnding))
      (UnitBatch.start place true) =
        .ok ⟨place, true, symbols.map fun symbol => (symbol, old.nameIn catalog symbol),
          symbols.flatMap catalog.declarationsOf, false⟩ :=
    keeps.collectUnits storable legible places member there distinct
      (fun symbol => (among symbol).mp) rfl fun _ _ => List.not_mem_nil
  have looked : forall symbol, old.heldUnit? place symbol = catalog.units.get? symbol := by
    intro symbol
    rw [heldUnit?, there]
    rfl
  have kept : forall symbol, catalog.declarationsOf symbol =
      (Note.keptIn (place, symbol) notes).map fun note => note.resolved.declaration := by
    intro symbol
    have declared := documented.declarations place
    rw [declarationsIn, there] at declared
    rw [Catalog.declarationsOf, show catalog.declarations = _ from declared, List.filter_map,
      List.filter_filter, Note.keptIn]
    refine congrArg (List.map _) (List.filter_congr fun note _ => ?_)
    rw [Function.comp_apply, Note.file, Bool.and_comm]
    rfl
  rw [listed, catalogNameOf_catalogPath (storable.name there).isPart]
  refine ⟨_, symbols.map fun symbol => (place, symbol), collects, rfl, ?_⟩
  exact
    { collected := collected_collectUnits (.start place true) collects
      isOpen := rfl
      shares := rfl
      names := by
        intro symbol
        change Table.get? symbol (symbols.map fun symbol => (symbol, old.nameIn catalog symbol)) =
          (old.heldUnit? place symbol).map old.nameOf
        rw [Table.get?_map_mk, looked]
        split
        · rename_i inside
          rcases Table.exists_of_mem_keys ((among symbol).mp inside) with ⟨unit, held⟩
          rw [nameIn, held]
          rfl
        · rename_i outside
          rw [(Table.get?_eq_none_iff _ _).mpr fun inside => outside ((among symbol).mpr inside)]
          rfl
      named := by
        intro symbol unit held
        rw [looked] at held
        exact (legible.name there held).written
      declarations := by
        change symbols.flatMap catalog.declarationsOf = _
        rw [Note.gather, List.flatMap_map, List.map_flatMap]
        exact List.flatMap_congr fun symbol _ => kept symbol
      ordered := List.pairwise_map.mpr (List.pairwise_map.mp ordered)
      files := by
        rintro ⟨name, symbol⟩
        rw [List.mem_map]
        constructor
        · rintro ⟨other, inside, same⟩
          cases same
          rcases Table.exists_of_mem_keys ((among symbol).mp inside) with ⟨unit, held⟩
          exact ⟨rfl, unit, (looked symbol).trans held⟩
        · rintro ⟨sameName, unit, held⟩
          refine ⟨symbol, (among symbol).mpr ?_, congrArg (·, symbol) sameName.symm⟩
          exact Table.mem_keys_of_get? ((looked symbol).symm.trans held) }

/-- A unit file takes effect before another one when a session starts: the catalogs that are not
saved are there from the start, and the files are read in the order of their paths. -/
def ReadsBefore (saves : String -> Bool) (file other : String × String) : Prop :=
  saves other.1 = true ∧ (saves file.1 = false ∨ catalogPath file.1 < catalogPath other.1 ∨
    (file.1 = other.1 ∧ file.2 ++ unitEnding < other.2 ++ unitEnding))

instance (saves : String -> Bool) (file other : String × String) :
    Decidable (ReadsBefore saves file other) :=
  inferInstanceAs (Decidable (_ ∧ (_ ∨ _ ∨ (_ ∧ _))))

/-- No declaration takes effect before an earlier one of the list. -/
def InReadingOrder (saves : String -> Bool) (log : List (Note R)) : Prop :=
  (log.map Note.bare).Pairwise fun note other => ¬ ReadsBefore saves other.file note.file

/-- Loading a kept catalog settles it. -/
theorem Keeps.loadCatalog (keeps : tree.Keeps old saved) (storable : old.Storable)
    (legible : old.Legible) (documented : old.Documented notes)
    (restored : Restored old notes settled registry log) {place : String} (member : place ∈ saved)
    (unsettled : place ∉ settled)
    (stays : forall note, note ∈ notes -> note.catalog = place -> note.Stays old settled) :
    ∃ changed more, tree.loadCatalog places registry (catalogPath place) = .ok changed ∧
      Restored old notes (place :: settled) changed (log ++ more) ∧
      (forall note, note ∈ more.map Note.bare -> note.catalog = place) ∧
      (more.map Note.bare).Pairwise fun note other =>
        ¬ other.file.2 ++ unitEnding < note.file.2 ++ unitEnding := by
  rcases keeps.collects storable legible documented member with
    ⟨batch, files, collected, rfl, collects⟩
  rcases keeps.known member with ⟨_, there⟩
  rcases restored.install documented collects (Table.mem_keys_of_get? there) unsettled stays with
    ⟨changed, more, installed, restoredNow, bare⟩
  refine ⟨changed, more, ?_, restoredNow, fun note inside => ?_, ?_⟩
  · refine (bind_eq_of_ok collected).trans ?_
    rw [installed]
    rfl
  · rw [bare] at inside
    rcases List.mem_map.mp inside with ⟨source, gathered, rfl⟩
    exact (collects.of_gather stays gathered).2.1
  · rw [bare]
    exact List.pairwise_map.mpr collects.gather_ordered

omit [Scalar R] in
/-- What is loaded next takes effect after what is settled. -/
theorem InReadingOrder.append {saves : String -> Bool} {more : List (Note R)} {place : String}
    (ordered : InReadingOrder saves log) (isSaved : saves place = true)
    (restored : Restored old notes settled registry log)
    (earlier : forall name, name ∈ settled ->
      saves name = false ∨ catalogPath name < catalogPath place)
    (here : forall note, note ∈ more.map Note.bare -> note.catalog = place)
    (sorted : (more.map Note.bare).Pairwise fun note other =>
      ¬ other.file.2 ++ unitEnding < note.file.2 ++ unitEnding) :
    InReadingOrder saves (log ++ more) := by
  rw [InReadingOrder, List.map_append, List.pairwise_append]
  refine ⟨ordered, ?_, fun note before other after => ?_⟩
  · refine sorted.imp_of_mem fun {note other} first second notBefore => ?_
    rintro ⟨_, unsaved | less | ⟨_, less⟩⟩
    · change saves other.catalog = false at unsaved
      rw [here other second, isSaved] at unsaved
      cases unsaved
    · change catalogPath other.catalog < catalogPath note.catalog at less
      rw [here other second, here note first] at less
      exact lt_irrefl _ less
    · exact notBefore less
  · have inSettled := restored.settled_of_mem before
    rintro ⟨saved, unsaved | less | ⟨same, _⟩⟩
    · change saves other.catalog = false at unsaved
      rw [here other after, isSaved] at unsaved
      cases unsaved
    · change catalogPath other.catalog < catalogPath note.catalog at less
      rw [here other after] at less
      rcases earlier _ inSettled with notSaved | lessThere
      · exact absurd saved (by rw [show note.file.1 = note.catalog from rfl, notSaved]; decide)
      · exact lt_asymm less lessThere
    · change other.catalog = note.catalog at same
      rw [here other after] at same
      rcases earlier _ inSettled with notSaved | lessThere
      · rw [← same, isSaved] at notSaved
        cases notSaved
      · exact lt_irrefl _ (same ▸ lessThere)

/-- A declaration that stays what it is when catalogs are loaded one after the other. -/
structure Lasts (old : Registry R) (settled names : List String) (note : Note R) : Prop where
  own : note.resolved.subject.label.catalog = note.catalog
  named : forall unit, note.resolved.Names unit -> unit.label.catalog = note.catalog ∨
    ((unit.label.catalog ∈ settled ∨ (unit.label.catalog ∈ names ∧
        catalogPath unit.label.catalog < catalogPath note.catalog)) ∧
      forall other, other ≠ unit.label.catalog -> old.heldUnit? other unit.label.symbol = none)

omit [Scalar R] in
theorem Lasts.mono {names more : List String} {note : Note R} (lasts : Lasts old settled names note)
    (among : forall name, name ∈ names -> name ∈ more) : Lasts old settled more note :=
  ⟨lasts.own, fun unit named => (lasts.named unit named).imp_right fun shared =>
    ⟨shared.1.imp_right fun before => ⟨among _ before.1, before.2⟩, shared.2⟩⟩

/-- Loading kept catalogs in the order of their directories settles them all. -/
theorem Keeps.loadCatalogs (keeps : tree.Keeps old saved) (storable : old.Storable)
    (legible : old.Legible) (documented : old.Documented notes)
    (restored : Restored old notes settled registry log) {saves : String -> Bool}
    (ordered : InReadingOrder saves log) {names : List String}
    (sorted : (names.map catalogPath).Pairwise (· < ·))
    (known : forall name, name ∈ names -> name ∈ saved ∧ saves name = true)
    (unsettled : forall name, name ∈ names -> name ∉ settled)
    (earlier : forall name, name ∈ settled -> saves name = false ∨
      forall later, later ∈ names -> catalogPath name < catalogPath later)
    (lasts : forall note, note ∈ notes -> note.catalog ∈ names -> Lasts old settled names note) :
    ∃ all more, Restored old notes all
        (tree.loadCatalogs places (names.map catalogPath) registry).1 more ∧
      InReadingOrder saves more ∧ forall name, name ∈ all <-> name ∈ names ∨ name ∈ settled := by
  induction names generalizing settled registry log with
  | nil => exact ⟨settled, log, restored, ordered, fun name => (or_iff_right List.not_mem_nil).symm⟩
  | cons first rest inductionHypothesis =>
      rcases List.pairwise_cons.mp sorted with ⟨before, restSorted⟩
      have less : forall later, later ∈ rest -> catalogPath first < catalogPath later :=
        fun later inRest => before _ (List.mem_map_of_mem inRest)
      have stays : forall note, note ∈ notes -> note.catalog = first -> note.Stays old settled := by
        intro note member here
        have lasts := lasts note member (here ▸ List.mem_cons_self)
        refine ⟨lasts.own, fun unit named => (lasts.named unit named).imp_right ?_⟩
        rintro ⟨inSettled | ⟨inNames, smaller⟩, only⟩
        · exact ⟨inSettled, only⟩
        · -- what stands before the first directory was not left for later
          rw [here] at smaller
          rcases List.mem_cons.mp inNames with same | later
          · rw [same] at smaller
            exact absurd smaller (lt_irrefl _)
          · exact absurd smaller (lt_asymm (less _ later))
      have isKnown := known first List.mem_cons_self
      rcases keeps.loadCatalog storable legible documented restored isKnown.1
        (unsettled first List.mem_cons_self) stays with
        ⟨changed, more, loaded, restoredNow, here, sortedMore⟩
      have orderedNow := ordered.append isKnown.2 restored
        (fun name member => (earlier name member).imp_right fun less =>
          less first List.mem_cons_self) here sortedMore
      rcases inductionHypothesis restoredNow orderedNow restSorted
        (fun name later => known name (List.mem_cons_of_mem _ later))
        (fun name later settledNow => (List.mem_cons.mp settledNow).elim
          (fun same => lt_irrefl _ (same ▸ less name later))
          (unsettled name (List.mem_cons_of_mem _ later)))
        (fun name settledNow => (List.mem_cons.mp settledNow).elim
          (fun same => Or.inr (same ▸ less))
          fun member => (earlier name member).imp_right fun less later inRest =>
            less later (List.mem_cons_of_mem _ inRest))
        (fun note member later => by
          have lasts := lasts note member (List.mem_cons_of_mem _ later)
          refine ⟨lasts.own, fun unit named => (lasts.named unit named).imp_right ?_⟩
          rintro ⟨inSettled | ⟨inNames, smaller⟩, only⟩
          · exact ⟨Or.inl (List.mem_cons_of_mem _ inSettled), only⟩
          · refine ⟨(List.mem_cons.mp inNames).imp (fun same => ?_) fun later => ⟨later, smaller⟩,
              only⟩
            exact same ▸ List.mem_cons_self) with ⟨all, log, restoredAll, orderedAll, among⟩
      refine ⟨all, log, ?_, orderedAll, fun name => ?_⟩
      · rw [List.map_cons, FileTree.loadCatalogs, loaded]
        exact restoredAll
      · rw [among, List.mem_cons, List.mem_cons]
        tauto

end FileTree
end QuantityCalculus
