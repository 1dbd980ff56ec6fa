import QuantityCalculus.Proofs.Units.Products

namespace QuantityCalculus

/-!
# Registries as their journals tell

The tables of a registry say what its declarations wrote, the last write under each key.
So two registries whose declarations are the same say the same, and a different order
matters only where two declarations write under one key.

Units of two registries are never the same, since each registry numbers its own; they
compare by their labels.  Declarations and relations are therefore compared bare, without
the editions of the units they name.
-/

variable {R : Type}

/-! ## The last write -/

namespace Registry

/-- The relation that was written last under a key of a unit. -/
def lastWrite (unit : UnitOfMeasure) (key : RelationKey) :
    List (RelationWrite R) -> Option (Relation R)
  | [] => none
  | write :: rest =>
      (lastWrite unit key rest).or (if write.At unit key then some write.relation else none)

section

variable {unit : UnitOfMeasure} {key : RelationKey} {writes : List (RelationWrite R)}

theorem lastWrite_append (first second : List (RelationWrite R)) :
    lastWrite unit key (first ++ second) =
      (lastWrite unit key second).or (lastWrite unit key first) := by
  induction first with
  | nil => rw [List.nil_append, lastWrite, Option.or_none]
  | cons write rest inductionHypothesis =>
      rw [List.cons_append, lastWrite, inductionHypothesis, Option.or_assoc, lastWrite]

theorem lastWrite_eq_none (elsewhere : forall write, write ∈ writes -> ¬ write.At unit key) :
    lastWrite unit key writes = none := by
  induction writes with
  | nil => rfl
  | cons write rest inductionHypothesis =>
      rw [lastWrite, if_neg (elsewhere write List.mem_cons_self), Option.or_none]
      exact inductionHypothesis fun other member => elsewhere other (List.mem_cons_of_mem _ member)

theorem of_lastWrite {relation : Relation R} (found : lastWrite unit key writes = some relation) :
    ∃ write, write ∈ writes ∧ write.At unit key ∧ write.relation = relation := by
  induction writes with
  | nil => cases found
  | cons write rest inductionHypothesis =>
      rcases Option.or_eq_some_iff.mp found with later | ⟨_, here⟩
      · rcases inductionHypothesis later with ⟨other, member, place⟩
        exact ⟨other, List.mem_cons_of_mem _ member, place⟩
      · split at here
        · rename_i place
          exact ⟨write, List.mem_cons_self, place, Option.some.inj here⟩
        · cases here

/-- Under a key that is written something is found. -/
theorem exists_lastWrite {write : RelationWrite R} (member : write ∈ writes)
    (place : write.At unit key) : ∃ relation, lastWrite unit key writes = some relation := by
  induction writes with
  | nil => cases member
  | cons first rest inductionHypothesis =>
      rw [lastWrite]
      cases later : lastWrite unit key rest with
      | some relation => exact ⟨relation, rfl⟩
      | none =>
          rcases List.mem_cons.mp member with rfl | inRest
          · exact ⟨write.relation, if_pos place⟩
          · rcases inductionHypothesis inRest with ⟨relation, found⟩
            cases later.symm.trans found

theorem relation?_writeAll {registry : Registry R}
    (recorded : forall write, write ∈ writes -> write.unit ∈ registry.units) :
    (registry.writeAll writes).relation? unit key =
      (lastWrite unit key writes).or (registry.relation? unit key) := by
  induction writes generalizing registry with
  | nil => rfl
  | cons write rest inductionHypothesis =>
      have later := @inductionHypothesis (registry.write write) fun other member => by
        rw [units_write]
        exact recorded other (List.mem_cons_of_mem _ member)
      refine later.trans ?_
      rw [relation?_write (recorded write List.mem_cons_self), lastWrite, Option.or_assoc]
      split <;> rfl

end

/-! ## Journals -/

/-- The registry holds what some declarations wrote, and knows the units that they name. -/
structure Journal (registry : Registry R) (log : List (ResolvedDeclaration R)) : Prop where
  named : forall resolved, resolved ∈ log -> registry.KnowsNamed resolved
  tells : forall unit key, registry.relation? unit key =
    lastWrite unit key (log.flatMap ResolvedDeclaration.writes)

section

variable {registry changed : Registry R} {log : List (ResolvedDeclaration R)}

theorem empty_journal : Journal (empty : Registry R) [] :=
  ⟨nofun, fun _ _ => rfl⟩

/-- Changes that write nothing leave the journal as it is. -/
theorem Journal.of_same (journal : registry.Journal log) (units : registry.units ⊆ changed.units)
    (tables : forall unit key, changed.relation? unit key = registry.relation? unit key) :
    changed.Journal log where
  named := fun resolved member =>
    ⟨units (journal.named resolved member).subject,
      fun unit operand => units ((journal.named resolved member).operand unit operand),
      units (journal.named resolved member).result⟩
  tells := fun unit key => (tables unit key).trans (journal.tells unit key)

theorem Journal.create (journal : registry.Journal log) (catalog symbol name : String) :
    (registry.createUnit catalog symbol name).2.Journal log := by
  refine journal.of_same (fun unit known => ?_) (relation?_createUnit catalog symbol name)
  rw [units_createUnit]
  exact List.mem_append_left _ known

theorem Journal.rename (journal : registry.Journal log) (unit : UnitOfMeasure) (name : String) :
    (registry.updateRecord unit fun record => { record with name := name }).Journal log := by
  refine journal.of_same (fun other known => ?_) (relation?_rename unit name)
  rw [units_rename]
  exact known

theorem Journal.recatalog (journal : registry.Journal log) (catalogs : Table (Catalog R)) :
    Journal { registry with catalogs := catalogs } log :=
  journal.of_same (List.Subset.refl _) fun _ _ => rfl

theorem Journal.declareAll (journal : registry.Journal log)
    {resolved : List (ResolvedDeclaration R)}
    (named : forall one, one ∈ resolved -> registry.KnowsNamed one) :
    (registry.writeAll (resolved.flatMap ResolvedDeclaration.writes)).Journal
      (log ++ resolved) := by
  have recorded : forall write, write ∈ resolved.flatMap ResolvedDeclaration.writes ->
      write.unit ∈ registry.units := by
    intro write member
    rcases List.mem_flatMap.mp member with ⟨one, inside, written⟩
    exact (named one inside).writes write written
  have known : forall one, registry.KnowsNamed one ->
      (registry.writeAll (resolved.flatMap ResolvedDeclaration.writes)).KnowsNamed one := by
    intro one knows
    rcases knows with ⟨subject, operand, result⟩
    refine ⟨?_, ?_, ?_⟩ <;> rw [units_writeAll] <;> assumption
  refine ⟨fun one member => known one ?_, fun unit key => ?_⟩
  · exact (List.mem_append.mp member).elim (journal.named one) (named one)
  · rw [relation?_writeAll recorded, journal.tells, List.flatMap_append, lastWrite_append]

theorem Journal.createUnits (journal : registry.Journal log) (catalog : String)
    (units : Table String) : (UnitBatch.createUnits catalog units registry).2.Journal log := by
  induction units generalizing registry with
  | nil => exact journal
  | cons first rest inductionHypothesis =>
      exact inductionHypothesis (journal.create catalog first.1 first.2)

end

end Registry

/-! ## Other units in the place of units -/

/-- A relation that names another unit as its result. -/
def Relation.map (change : UnitOfMeasure -> UnitOfMeasure) (relation : Relation R) : Relation R :=
  { relation with result := change relation.result }

/-- A write that names other units, under the same key. -/
def RelationWrite.map (change : UnitOfMeasure -> UnitOfMeasure) (write : RelationWrite R) :
    RelationWrite R :=
  ⟨change write.unit, write.key, write.relation.map change⟩

/-- A unit without its edition. -/
def UnitOfMeasure.bare (unit : UnitOfMeasure) : UnitOfMeasure := ⟨unit.label, 0⟩

/-- A relation that names its result without an edition. -/
def Relation.bare (relation : Relation R) : Relation R :=
  { relation with result := relation.result.bare }

/-- A write of a bare relation for a bare unit. -/
def RelationWrite.bare (write : RelationWrite R) : RelationWrite R :=
  ⟨write.unit.bare, write.key, write.relation.bare⟩

namespace Registry

/-- A declaration that names other units in the place of its own. -/
def ResolvedDeclaration.map (change : UnitOfMeasure -> UnitOfMeasure)
    (resolved : ResolvedDeclaration R) : ResolvedDeclaration R :=
  ⟨resolved.declaration, change resolved.subject, resolved.operand.map change,
    change resolved.result⟩

/-- A declaration that names its units without their editions. -/
def ResolvedDeclaration.bare (resolved : ResolvedDeclaration R) : ResolvedDeclaration R :=
  resolved.map UnitOfMeasure.bare

section

variable {resolved : ResolvedDeclaration R}

theorem names_map {change : UnitOfMeasure -> UnitOfMeasure} {unit : UnitOfMeasure}
    (named : (resolved.map change).Names unit) : ∃ old, resolved.Names old ∧ unit = change old := by
  rcases named with rfl | operand | rfl
  · exact ⟨_, Or.inl rfl, rfl⟩
  · rcases Option.map_eq_some_iff.mp operand with ⟨old, same, rfl⟩
    exact ⟨old, Or.inr (Or.inl same), rfl⟩
  · exact ⟨_, Or.inr (Or.inr rfl), rfl⟩

/-- Units of the same labels make no difference to the bare declaration. -/
theorem bare_map {change : UnitOfMeasure -> UnitOfMeasure}
    (keeps : forall unit, resolved.Names unit -> (change unit).label = unit.label) :
    (resolved.map change).bare = resolved.bare := by
  have same : forall unit, resolved.Names unit -> (change unit).bare = unit.bare := by
    intro unit named
    rw [UnitOfMeasure.bare, keeps unit named, UnitOfMeasure.bare]
  rcases resolved with ⟨declaration, subject, operand, result⟩
  have operands : (operand.map change).map UnitOfMeasure.bare = operand.map UnitOfMeasure.bare := by
    cases operand with
    | none => rfl
    | some operand => exact congrArg some (same operand (Or.inr (Or.inl rfl)))
  simp only [ResolvedDeclaration.bare, ResolvedDeclaration.map, operands,
    same subject (Or.inl rfl), same result (Or.inr (Or.inr rfl))]

end

/-- A declaration that names other units of the same labels writes these under the same keys. -/
theorem writes_map {change : UnitOfMeasure -> UnitOfMeasure}
    (keeps : forall unit, (change unit).label = unit.label) (resolved : ResolvedDeclaration R) :
    (resolved.map change).writes = resolved.writes.map (RelationWrite.map change) := by
  have pair : forall left op right result,
      (RelationWrite.pair (change left) op (change right) (change result) : RelationWrite R) =
        (RelationWrite.pair left op right result).map change := by
    intro left op right result
    rw [RelationWrite.pair, keeps]
    rfl
  rcases resolved with ⟨⟨symbol, op, written, outcome⟩, subject, operand, result⟩
  cases written with
  | factor factor => rfl
  | unit other =>
      cases operand with
      | none => rfl
      | some operand =>
          cases op <;>
            simp only [ResolvedDeclaration.writes, ResolvedDeclaration.map, Option.map_some, pair,
              List.map_cons, List.map_nil]

theorem writes_bare (resolved : ResolvedDeclaration R) :
    resolved.bare.writes = resolved.writes.map RelationWrite.bare :=
  @writes_map _ UnitOfMeasure.bare (fun _ => rfl) resolved

/-- Writes with other units tell what the writes tell, for a unit that no other one meets in its
new place. -/
theorem lastWrite_map {change : UnitOfMeasure -> UnitOfMeasure} {unit : UnitOfMeasure}
    {key : RelationKey} {writes : List (RelationWrite R)}
    (only : forall write, write ∈ writes -> change write.unit = change unit -> write.unit = unit) :
    lastWrite (change unit) key (writes.map (RelationWrite.map change)) =
      (lastWrite unit key writes).map (Relation.map change) := by
  induction writes with
  | nil => rfl
  | cons write rest inductionHypothesis =>
      have place : (write.map change).At (change unit) key <-> write.At unit key :=
        ⟨fun there => ⟨only write List.mem_cons_self there.1, there.2⟩,
          fun here => ⟨congrArg change here.1, here.2⟩⟩
      rw [List.map_cons, lastWrite, lastWrite, Option.map_or,
        inductionHypothesis fun other member => only other (List.mem_cons_of_mem _ member)]
      by_cases here : write.At unit key
      · rw [if_pos here, if_pos (place.mpr here)]
        rfl
      · rw [if_neg here, if_neg fun there => here (place.mp there)]
        rfl

/-- Bare writes tell what the writes tell, for a unit that has its label for itself. -/
theorem lastWrite_bare {unit : UnitOfMeasure} {key : RelationKey} {writes : List (RelationWrite R)}
    (only : forall write, write ∈ writes -> write.unit.label = unit.label -> write.unit = unit) :
    lastWrite unit.bare key (writes.map RelationWrite.bare) =
      (lastWrite unit key writes).map Relation.bare := by
  refine @lastWrite_map _ UnitOfMeasure.bare _ _ _ fun write member same => only write member ?_
  have label := congrArg UnitOfMeasure.label same
  exact label

end Registry

/-! ## Declarations out of order -/

/-- A declaration with the catalog that it was made in. -/
structure Note (R : Type) where
  catalog : String
  resolved : Registry.ResolvedDeclaration R

namespace Note

/-- The catalog and the symbol of the unit file that keeps a declaration. -/
def file (note : Note R) : String × String :=
  (note.catalog, note.resolved.declaration.subject)

/-- The note with other units in the place of its own. -/
def map (change : UnitOfMeasure -> UnitOfMeasure) (note : Note R) : Note R :=
  ⟨note.catalog, note.resolved.map change⟩

/-- The note with units without editions. -/
def bare (note : Note R) : Note R :=
  note.map UnitOfMeasure.bare

/-- What some notes write, in order. -/
def writes (notes : List (Note R)) : List (RelationWrite R) :=
  notes.flatMap fun note => note.resolved.writes

/-- The notes that a unit file keeps. -/
def keptIn (file : String × String) (notes : List (Note R)) : List (Note R) :=
  notes.filter fun note => note.file == file

/-- The notes of some files, file by file. -/
def gather (files : List (String × String)) (notes : List (Note R)) : List (Note R) :=
  files.flatMap fun file => keptIn file notes

/-- Two declarations write different relations under one key of a unit. -/
def Conflicts (note other : Note R) : Prop :=
  ∃ write, write ∈ note.resolved.writes ∧ ∃ again, again ∈ other.resolved.writes ∧
    write.unit = again.unit ∧ write.key = again.key ∧ write.relation ≠ again.relation

instance [DecidableEq R] (note other : Note R) : Decidable (note.Conflicts other) :=
  inferInstanceAs (Decidable (∃ write, write ∈ note.resolved.writes ∧
    ∃ again, again ∈ other.resolved.writes ∧
      write.unit = again.unit ∧ write.key = again.key ∧ write.relation ≠ again.relation))

section

open Registry

variable {unit : UnitOfMeasure} {key : RelationKey} {relation : Relation R}
  {notes first second : List (Note R)}

theorem writes_cons (note : Note R) (notes : List (Note R)) :
    writes (note :: notes) = note.resolved.writes ++ writes notes :=
  rfl

theorem writes_append (first second : List (Note R)) :
    writes (first ++ second) = writes first ++ writes second :=
  List.flatMap_append

theorem writes_resolved (notes : List (Note R)) :
    (notes.map Note.resolved).flatMap ResolvedDeclaration.writes = writes notes :=
  List.flatMap_map _ _ notes

theorem writes_map_bare (notes : List (Note R)) :
    writes (notes.map bare) = (writes notes).map RelationWrite.bare := by
  induction notes with
  | nil => rfl
  | cons note rest inductionHypothesis =>
      rw [List.map_cons, writes_cons, writes_cons, List.map_append, inductionHypothesis]
      exact congrArg (· ++ _) (writes_bare note.resolved)

/-- Notes with other units are kept in the same files. -/
theorem keptIn_map (file : String × String) (change : UnitOfMeasure -> UnitOfMeasure)
    (notes : List (Note R)) :
    keptIn file (notes.map (map change)) = (keptIn file notes).map (map change) :=
  List.filter_map

theorem keptIn_append (file : String × String) (first second : List (Note R)) :
    keptIn file (first ++ second) = keptIn file first ++ keptIn file second :=
  List.filter_append first second

theorem keptIn_self (file other : String × String) (notes : List (Note R)) :
    keptIn file (keptIn other notes) = if file = other then keptIn other notes else [] := by
  rw [keptIn, keptIn, List.filter_filter]
  split
  · rename_i same
    subst same
    simp
  · rename_i different
    refine List.filter_eq_nil_iff.mpr fun note _ both => different ?_
    simp only [Bool.and_eq_true, beq_iff_eq] at both
    exact both.1.symm.trans both.2

theorem mem_gather {files : List (String × String)} {notes : List (Note R)} {note : Note R} :
    note ∈ gather files notes <-> note.file ∈ files ∧ note ∈ notes := by
  constructor
  · intro member
    rcases List.mem_flatMap.mp member with ⟨file, inFiles, kept⟩
    rcases List.mem_filter.mp kept with ⟨inside, same⟩
    exact ⟨beq_iff_eq.mp same ▸ inFiles, inside⟩
  · rintro ⟨inFiles, inside⟩
    exact List.mem_flatMap.mpr
      ⟨note.file, inFiles, List.mem_filter.mpr ⟨inside, beq_self_eq_true _⟩⟩

/-- Files gone through one by one give each file what it keeps. -/
theorem keptIn_gather {files : List (String × String)} (distinct : files.Nodup)
    (file : String × String) (notes : List (Note R)) :
    keptIn file (gather files notes) = if file ∈ files then keptIn file notes else [] := by
  induction files with
  | nil => rfl
  | cons first rest inductionHypothesis =>
      rcases List.nodup_cons.mp distinct with ⟨new, others⟩
      rw [gather, List.flatMap_cons, keptIn_append, keptIn_self, ← gather,
        inductionHypothesis others]
      by_cases same : file = first
      · subst same
        rw [if_pos rfl, if_neg new, if_pos List.mem_cons_self, List.append_nil]
      · rw [if_neg same, List.nil_append]
        simp [same]

theorem lastWrite_eq_none_iff :
    lastWrite unit key (writes notes) = none <->
      forall note, note ∈ notes -> lastWrite unit key note.resolved.writes = none := by
  induction notes with
  | nil => exact ⟨fun _ => nofun, fun _ => rfl⟩
  | cons note rest inductionHypothesis =>
      rw [writes_cons, lastWrite_append, Option.or_eq_none_iff, inductionHypothesis,
        List.forall_mem_cons, and_comm]

/-- What is written last is written by some declaration, and by none after it. -/
theorem of_lastWrite_writes (found : lastWrite unit key (writes notes) = some relation) :
    ∃ before note after, notes = before ++ note :: after ∧
      lastWrite unit key note.resolved.writes = some relation ∧
      lastWrite unit key (writes after) = none := by
  induction notes with
  | nil => cases found
  | cons head rest inductionHypothesis =>
      rw [writes_cons, lastWrite_append] at found
      rcases Option.or_eq_some_iff.mp found with later | ⟨silent, here⟩
      · rcases inductionHypothesis later with ⟨before, note, after, rfl, written, silent⟩
        exact ⟨head :: before, note, after, rfl, written, silent⟩
      · exact ⟨[], head, rest, rfl, here, silent⟩

/-- What is written last is written last in its file. -/
theorem lastWrite_keptIn {before after : List (Note R)} {note : Note R}
    (written : lastWrite unit key note.resolved.writes = some relation)
    (silent : lastWrite unit key (writes after) = none) :
    lastWrite unit key (writes (keptIn note.file (before ++ note :: after))) = some relation := by
  have silentThere : lastWrite unit key (writes (keptIn note.file after)) = none :=
    lastWrite_eq_none_iff.mpr fun other member =>
      lastWrite_eq_none_iff.mp silent other (List.mem_filter.mp member).1
  have kept : keptIn note.file (note :: after) = note :: keptIn note.file after :=
    List.filter_cons_of_pos (by exact beq_self_eq_true note.file)
  rw [keptIn_append, kept, writes_append, writes_cons, lastWrite_append, lastWrite_append,
    silentThere, written]
  rfl

/-- A declaration that is among others, but is none of the last ones, stands before them. -/
theorem mem_before {before after : List (Note R)} {note other : Note R} {found : Relation R}
    (member : other ∈ before ++ note :: after)
    (written : lastWrite unit key note.resolved.writes = some relation)
    (silent : lastWrite unit key (writes after) = none)
    (writtenThere : lastWrite unit key other.resolved.writes = some found)
    (different : found ≠ relation) : other ∈ before := by
  refine (List.mem_append.mp member).resolve_right fun later => ?_
  rcases List.mem_cons.mp later with rfl | behind
  · exact different (Option.some.inj (writtenThere.symm.trans written))
  · rw [lastWrite_eq_none_iff.mp silent other behind] at writtenThere
    cases writtenThere

/-- The files may be gone through in another order, as long as each keeps its own and of two
declarations that conflict the later one stays the later one. -/
theorem lastWrite_regroup {Before : String × String -> String × String -> Prop}
    (agree : first.Pairwise fun note other => note.Conflicts other ->
      note.file = other.file ∨ Before note.file other.file)
    (ordered : second.Pairwise fun note other => ¬ Before other.file note.file)
    (same : forall file, keptIn file first = keptIn file second) :
    lastWrite unit key (writes first) = lastWrite unit key (writes second) := by
  have moves : forall note, note ∈ first <-> note ∈ second := by
    intro note
    have kept : note ∈ keptIn note.file first <-> note ∈ keptIn note.file second := by
      rw [same]
    simpa [keptIn] using kept
  cases found : lastWrite unit key (writes first) with
  | none =>
      refine (lastWrite_eq_none_iff.mpr fun note member => ?_).symm
      exact lastWrite_eq_none_iff.mp found note ((moves note).mpr member)
  | some relation =>
      rcases of_lastWrite_writes found with ⟨before, note, after, rfl, written, silent⟩
      have there := (moves note).mp (List.mem_append_right _ List.mem_cons_self)
      cases again : lastWrite unit key (writes second) with
      | none =>
          rw [lastWrite_eq_none_iff.mp again note there] at written
          cases written
      | some other =>
          rcases of_lastWrite_writes again with ⟨before', note', after', rfl, written', silent'⟩
          have here := (moves note').mpr (List.mem_append_right _ List.mem_cons_self)
          by_contra apart
          have different : other ≠ relation := fun same => apart (congrArg some same.symm)
          by_cases sameFile : note.file = note'.file
          · have kept := @lastWrite_keptIn _ unit key relation before after note written silent
            rw [same, sameFile, lastWrite_keptIn written' silent'] at kept
            exact different (Option.some.inj kept)
          · -- each of the two stands before the other one in one of the lists
            have earlier := mem_before here written silent written' different
            have later := mem_before there written' silent' written different.symm
            have conflict : note'.Conflicts note := by
              rcases of_lastWrite written with ⟨write, inside, place, rfl⟩
              rcases of_lastWrite written' with ⟨write', inside', place', rfl⟩
              exact ⟨write', inside', write, inside, place'.1.trans place.1.symm,
                place'.2.trans place.2.symm, different⟩
            have order := (List.pairwise_append.mp agree).2.2 note' earlier note
              List.mem_cons_self conflict
            exact (List.pairwise_append.mp ordered).2.2 note later note' List.mem_cons_self
              (order.resolve_left (Ne.symm sameFile))

end

end Note
end QuantityCalculus
