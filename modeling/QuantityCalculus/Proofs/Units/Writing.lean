import QuantityCalculus.Units.Batch

namespace QuantityCalculus

/-!
# What declarations write

Whatever is declared, the tables of the units change in one way only: a relation is
written under a key of a unit.  A declaration is a short list of such writes, a sequence
of declarations is the list of all of them, and under each key the last write counts.

So a statement about the tables after any declarations is a statement about a list of
writes, and no proof has to follow the declarations through the registry again.
-/

variable {R : Type}

/-- One relation, with the unit it starts with and the key it is found under. -/
structure RelationWrite (R : Type) where
  unit : UnitOfMeasure
  key : RelationKey
  relation : Relation R

namespace RelationWrite

/-- A write under a key of a unit. -/
def At (write : RelationWrite R) (unit : UnitOfMeasure) (key : RelationKey) : Prop :=
  write.unit = unit ∧ write.key = key

instance (write : RelationWrite R) (unit : UnitOfMeasure) (key : RelationKey) :
    Decidable (write.At unit key) :=
  inferInstanceAs (Decidable (_ ∧ _))

/-- The write of `left op right = result`. -/
def pair (left : UnitOfMeasure) (op : UnitOperator) (right result : UnitOfMeasure) :
    RelationWrite R :=
  ⟨left, ⟨some right.label, op⟩, ⟨op, result, none⟩⟩

/-- The write of `source op factor = target`. -/
def scaling (source : UnitOfMeasure) (op : UnitOperator) (factor : R) (target : UnitOfMeasure) :
    RelationWrite R :=
  ⟨source, ⟨none, op⟩, ⟨op, target, some factor⟩⟩

end RelationWrite

namespace Registry

/-- What a declaration writes: the relation itself and its closure. -/
def ResolvedDeclaration.writes (resolved : ResolvedDeclaration R) : List (RelationWrite R) :=
  match resolved.declaration.operand, resolved.operand with
  | .factor factor, _ =>
      [.scaling resolved.subject resolved.declaration.op factor resolved.result,
        .scaling resolved.result resolved.declaration.op.inverse factor resolved.subject]
  | .unit _, some operand =>
      match resolved.declaration.op with
      | .times =>
          [.pair resolved.subject .times operand resolved.result,
            .pair operand .times resolved.subject resolved.result,
            .pair resolved.result .per resolved.subject operand,
            .pair resolved.result .per operand resolved.subject]
      | .per =>
          [.pair resolved.subject .per operand resolved.result,
            .pair resolved.subject .per resolved.result operand,
            .pair resolved.result .times operand resolved.subject,
            .pair operand .times resolved.result resolved.subject]
  | .unit _, none => []

/-- A unit that a declaration names. -/
def ResolvedDeclaration.Names (resolved : ResolvedDeclaration R) (unit : UnitOfMeasure) : Prop :=
  unit = resolved.subject ∨ resolved.operand = some unit ∨ unit = resolved.result

instance (resolved : ResolvedDeclaration R) (Fits : UnitOfMeasure -> Prop) [DecidablePred Fits] :
    Decidable (forall unit, resolved.Names unit -> Fits unit) :=
  decidable_of_iff (Fits resolved.subject ∧ (forall unit, unit ∈ resolved.operand -> Fits unit) ∧
      Fits resolved.result)
    ⟨fun all _ named => named.elim (fun same => same ▸ all.1)
        fun others => others.elim (all.2.1 _) fun same => same ▸ all.2.2,
      fun each => ⟨each _ (Or.inl rfl), fun _ operand => each _ (Or.inr (Or.inl operand)),
        each _ (Or.inr (Or.inr rfl))⟩⟩

/-- What a declaration writes, and that it does so among the units that it names. -/
theorem of_mem_writes {resolved : ResolvedDeclaration R} {write : RelationWrite R}
    (member : write ∈ resolved.writes) :
    (∃ source op factor target, write = .scaling source op factor target ∧
      resolved.Names source ∧ resolved.Names target) ∨
    ∃ left op right result, write = .pair left op right result ∧
      resolved.Names left ∧ resolved.Names result := by
  rcases resolved with ⟨⟨symbol, op, written, outcome⟩, subject, operand, result⟩
  cases written with
  | factor factor =>
      simp only [ResolvedDeclaration.writes, List.mem_cons, List.not_mem_nil, or_false] at member
      rcases member with rfl | rfl
      · exact Or.inl ⟨_, _, _, _, rfl, Or.inl rfl, Or.inr (Or.inr rfl)⟩
      · exact Or.inl ⟨_, _, _, _, rfl, Or.inr (Or.inr rfl), Or.inl rfl⟩
  | unit other =>
      cases operand with
      | none => cases member
      | some operand =>
          cases op <;>
            (simp only [ResolvedDeclaration.writes, List.mem_cons, List.not_mem_nil,
               or_false] at member
             rcases member with rfl | rfl | rfl | rfl <;>
               exact Or.inr ⟨_, _, _, _, rfl, by simp [ResolvedDeclaration.Names],
                 by simp [ResolvedDeclaration.Names]⟩)

/-- A declaration writes to the units that it names. -/
theorem names_of_writes {resolved : ResolvedDeclaration R} {write : RelationWrite R}
    (member : write ∈ resolved.writes) : resolved.Names write.unit := by
  rcases of_mem_writes member with ⟨_, _, _, _, rfl, named, _⟩ | ⟨_, _, _, _, rfl, named, _⟩
  · exact named
  · exact named

/-- A write leads to a unit that the declaration names. -/
theorem names_result_of_writes {resolved : ResolvedDeclaration R} {write : RelationWrite R}
    (member : write ∈ resolved.writes) : resolved.Names write.relation.result := by
  rcases of_mem_writes member with ⟨_, _, _, _, rfl, _, named⟩ | ⟨_, _, _, _, rfl, _, named⟩
  · exact named
  · exact named

/-- All units that were ever defined. -/
def units (registry : Registry R) : List UnitOfMeasure :=
  registry.records.map UnitRecord.unit

/-- The registry after a write. -/
def write (registry : Registry R) (write : RelationWrite R) : Registry R :=
  registry.updateRecord write.unit fun record =>
    { record with relations := enterRelation write.key write.relation record.relations }

/-- The registry after some writes, in order. -/
def writeAll (registry : Registry R) (writes : List (RelationWrite R)) : Registry R :=
  writes.foldl write registry

/-! ## Records that change but keep their units -/

section

variable {registry : Registry R} {unit : UnitOfMeasure} {change : UnitRecord R -> UnitRecord R}

theorem units_updateRecord (keeps : forall record, (change record).unit = record.unit) :
    (registry.updateRecord unit change).units = registry.units := by
  rw [units, units, updateRecord, List.map_map]
  refine List.map_congr_left fun record _ => ?_
  rw [Function.comp_apply]
  split
  · exact keeps record
  · rfl

theorem record?_updateRecord (keeps : forall record, (change record).unit = record.unit)
    (other : UnitOfMeasure) :
    (registry.updateRecord unit change).record? other =
      (registry.record? other).map fun record =>
        if record.unit = unit then change record else record := by
  have same : (fun record : UnitRecord R => record.unit == other) ∘
      (fun record => if record.unit = unit then change record else record) =
        fun record => record.unit == other := by
    funext record
    rw [Function.comp_apply]
    split
    · rw [keeps]
    · rfl
  rw [record?, updateRecord, List.find?_map, same, record?]

theorem unit_of_record? {record : UnitRecord R} (found : registry.record? unit = some record) :
    record.unit = unit := by
  simpa using List.find?_some found

theorem isSome_record? (recorded : unit ∈ registry.units) : (registry.record? unit).isSome := by
  rcases List.mem_map.mp recorded with ⟨record, member, same⟩
  exact List.find?_isSome.mpr ⟨record, member, by simp [same]⟩

theorem record?_of_not_mem (unknown : unit ∉ registry.units) : registry.record? unit = none := by
  refine List.find?_eq_none.mpr fun record member same => unknown ?_
  exact List.mem_map.mpr ⟨record, member, by simpa using same⟩

/-- A unit that was never defined has no relations. -/
theorem relation?_of_not_mem {key : RelationKey} (unknown : unit ∉ registry.units) :
    registry.relation? unit key = none := by
  rw [relation?, relationsOf, record?_of_not_mem unknown]
  rfl

end

/-! ## The last write counts -/

section

variable {registry : Registry R}

@[simp] theorem units_write (write : RelationWrite R) :
    (registry.write write).units = registry.units :=
  units_updateRecord fun _ => rfl

@[simp] theorem catalogs_write (write : RelationWrite R) :
    (registry.write write).catalogs = registry.catalogs :=
  rfl

theorem relation?_write {write : RelationWrite R} (recorded : write.unit ∈ registry.units)
    (unit : UnitOfMeasure) (key : RelationKey) :
    (registry.write write).relation? unit key =
      if write.At unit key then some write.relation else registry.relation? unit key := by
  rw [relation?, relationsOf, Registry.write, record?_updateRecord (by exact fun _ => rfl)]
  by_cases same : write.unit = unit
  · subst same
    rcases Option.isSome_iff_exists.mp (isSome_record? recorded) with ⟨record, found⟩
    rw [relation?, relationsOf, found]
    simp only [Option.map_some, Option.getD_some, unit_of_record? found, if_true,
      relationAt?_enterRelation, RelationWrite.At, true_and]
  · rw [if_neg fun here => same here.1, relation?, relationsOf]
    cases found : registry.record? unit with
    | none => rfl
    | some record =>
        have other : record.unit ≠ write.unit :=
          fun here => same (here.symm.trans (unit_of_record? found))
        rw [Option.map_some, if_neg other]

@[simp] theorem units_writeAll (writes : List (RelationWrite R)) :
    (registry.writeAll writes).units = registry.units := by
  induction writes generalizing registry with
  | nil => rfl
  | cons first rest inductionHypothesis => exact inductionHypothesis.trans (units_write first)

@[simp] theorem catalogs_writeAll (writes : List (RelationWrite R)) :
    (registry.writeAll writes).catalogs = registry.catalogs := by
  induction writes generalizing registry with
  | nil => rfl
  | cons first rest inductionHypothesis => exact inductionHypothesis.trans (catalogs_write first)

theorem writeAll_append (first second : List (RelationWrite R)) :
    registry.writeAll (first ++ second) = (registry.writeAll first).writeAll second :=
  List.foldl_append

theorem relation?_congr {other : Registry R} (same : registry.records = other.records)
    (unit : UnitOfMeasure) (key : RelationKey) :
    registry.relation? unit key = other.relation? unit key := by
  rw [relation?, relationsOf, record?, same, relation?, relationsOf, record?]

/-- Writing depends on the records alone. -/
theorem records_writeAll_congr {other : Registry R} (same : registry.records = other.records)
    (writes : List (RelationWrite R)) :
    (registry.writeAll writes).records = (other.writeAll writes).records := by
  induction writes generalizing registry other with
  | nil => exact same
  | cons first rest inductionHypothesis =>
      refine @inductionHypothesis (registry.write first) (other.write first) ?_
      rw [write, write, updateRecord, updateRecord, same]

/-- A write takes no unit from those that come after it. -/
theorem recorded_rest {first : RelationWrite R} {rest : List (RelationWrite R)}
    (recorded : forall write, write ∈ first :: rest -> write.unit ∈ registry.units) :
    forall write, write ∈ rest -> write.unit ∈ (registry.write first).units := by
  intro write member
  rw [units_write]
  exact recorded write (List.mem_cons_of_mem _ member)

/-- Under a key that is not written, everything stays. -/
theorem relation?_writeAll_of_not_at {writes : List (RelationWrite R)} {unit : UnitOfMeasure}
    {key : RelationKey} (recorded : forall write, write ∈ writes -> write.unit ∈ registry.units)
    (elsewhere : forall write, write ∈ writes -> ¬ write.At unit key) :
    (registry.writeAll writes).relation? unit key = registry.relation? unit key := by
  induction writes generalizing registry with
  | nil => rfl
  | cons first rest inductionHypothesis =>
      have further := inductionHypothesis (recorded_rest recorded)
        fun write member => elsewhere write (List.mem_cons_of_mem _ member)
      refine further.trans ?_
      rw [relation?_write (recorded first List.mem_cons_self),
        if_neg (elsewhere first List.mem_cons_self)]

/-- What is found under a key that is written was written there. -/
theorem relation?_writeAll_of_at {writes : List (RelationWrite R)} {unit : UnitOfMeasure}
    {key : RelationKey} (recorded : forall write, write ∈ writes -> write.unit ∈ registry.units)
    (written : ∃ write, write ∈ writes ∧ write.At unit key) :
    ∃ write, write ∈ writes ∧ write.At unit key ∧
      (registry.writeAll writes).relation? unit key = some write.relation := by
  induction writes generalizing registry with
  | nil => simp at written
  | cons first rest inductionHypothesis =>
      by_cases later : ∃ write, write ∈ rest ∧ write.At unit key
      · rcases inductionHypothesis (recorded_rest recorded) later with
          ⟨write, member, here, found⟩
        exact ⟨write, List.mem_cons_of_mem _ member, here, found⟩
      · rcases written with ⟨write, member, here⟩
        rcases List.mem_cons.mp member with rfl | inRest
        · refine ⟨write, List.mem_cons_self, here, ?_⟩
          refine (relation?_writeAll_of_not_at (recorded_rest recorded)
            fun other otherMember there => later ⟨other, otherMember, there⟩).trans ?_
          rw [relation?_write (recorded write List.mem_cons_self), if_pos here]
        · exact absurd ⟨write, inRest, here⟩ later

end

/-! ## Declarations write -/

section

variable {registry changed : Registry R}

theorem enter_eq_ok {unit : UnitOfMeasure} {key : RelationKey} {relation : Relation R} :
    registry.enter unit key relation = .ok changed <->
      unit.isDimensionless = false ∧ changed = registry.write ⟨unit, key, relation⟩ := by
  rw [enter]
  cases unit.isDimensionless with
  | true => exact ⟨nofun, nofun⟩
  | false => exact ⟨fun entered => ⟨rfl, (Except.ok.inj entered).symm⟩, fun same => same.2 ▸ rfl⟩

/-- The registry with some writes entered one after the other. -/
def enterEach (writes : List (RelationWrite R)) (registry : Registry R) :
    Except Failure (Registry R) :=
  writes.foldlM (fun entered write => entered.enter write.unit write.key write.relation) registry

/-- To enter a declaration is to enter what it writes. -/
theorem enterDeclaration_eq (resolved : ResolvedDeclaration R) :
    enterDeclaration resolved = enterEach resolved.writes := by
  funext registry
  rcases resolved with ⟨⟨symbol, op, written, outcome⟩, subject, operand, result⟩
  cases written with
  | factor factor =>
      simp only [enterEach, ResolvedDeclaration.writes, List.foldlM_cons, List.foldlM_nil,
        bind_pure]
      rfl
  | unit other =>
      cases operand with
      | none => rfl
      | some operand =>
          cases op <;>
            (simp only [enterEach, ResolvedDeclaration.writes, List.foldlM_cons, List.foldlM_nil,
              bind_pure]
             rfl)

theorem enterAll_eq (resolved : List (ResolvedDeclaration R)) :
    enterAll resolved = enterEach (resolved.flatMap ResolvedDeclaration.writes) := by
  induction resolved with
  | nil => rfl
  | cons first rest inductionHypothesis =>
      funext registry
      rw [enterAll, inductionHypothesis, enterDeclaration_eq, List.flatMap_cons]
      exact List.foldlM_append.symm

/-- A computation that makes some writes, or fails for a unit that takes none. -/
def Writes (writes : List (RelationWrite R))
    (computation : Registry R -> Except Failure (Registry R)) : Prop :=
  forall registry changed, computation registry = .ok changed ->
    changed = registry.writeAll writes ∧
      forall write, write ∈ writes -> write.unit.isDimensionless = false

theorem writes_enterEach (writes : List (RelationWrite R)) : Writes writes (enterEach writes) := by
  induction writes with
  | nil =>
      intro registry changed entered
      cases entered
      exact ⟨rfl, nofun⟩
  | cons first rest inductionHypothesis =>
      intro registry changed entered
      rcases bind_eq_ok.mp entered with ⟨middle, entered, further⟩
      rcases enter_eq_ok.mp entered with ⟨someUnit, rfl⟩
      rcases inductionHypothesis _ _ further with ⟨rfl, someUnits⟩
      exact ⟨rfl, List.forall_mem_cons.mpr ⟨someUnit, someUnits⟩⟩

theorem writes_enterDeclaration (resolved : ResolvedDeclaration R) :
    Writes resolved.writes (enterDeclaration resolved) :=
  enterDeclaration_eq resolved ▸ writes_enterEach _

theorem writes_enterAll (resolved : List (ResolvedDeclaration R)) :
    Writes (resolved.flatMap ResolvedDeclaration.writes) (enterAll resolved) :=
  enterAll_eq resolved ▸ writes_enterEach _

/-- A computation that makes some writes whenever no unit is without a symbol. -/
def Performs (writes : List (RelationWrite R))
    (computation : Registry R -> Except Failure (Registry R)) : Prop :=
  (forall write, write ∈ writes -> write.unit.isDimensionless = false) ->
    forall registry, computation registry = .ok (registry.writeAll writes)

theorem performs_enterEach (writes : List (RelationWrite R)) :
    Performs writes (enterEach writes) := by
  induction writes with
  | nil => exact fun _ _ => rfl
  | cons first rest inductionHypothesis =>
      intro someUnits registry
      rcases List.forall_mem_cons.mp someUnits with ⟨someUnit, someUnits⟩
      have entered : registry.enter first.unit first.key first.relation =
          .ok (registry.write first) := enter_eq_ok.mpr ⟨someUnit, rfl⟩
      exact (bind_eq_of_ok entered).trans (inductionHypothesis someUnits _)

theorem performs_enterDeclaration (resolved : ResolvedDeclaration R) :
    Performs resolved.writes (enterDeclaration resolved) :=
  enterDeclaration_eq resolved ▸ performs_enterEach _

theorem performs_enterAll (resolved : List (ResolvedDeclaration R)) :
    Performs (resolved.flatMap ResolvedDeclaration.writes) (enterAll resolved) :=
  enterAll_eq resolved ▸ performs_enterEach _

/-- A declaration is resolved to the units that are found for its symbols. -/
theorem resolveDeclaration_eq_ok {unitOf : String -> Except Failure UnitOfMeasure}
    {declaration : RelationDeclaration R} {resolved : ResolvedDeclaration R} :
    resolveDeclaration unitOf declaration = .ok resolved <->
      resolved.declaration = declaration ∧ unitOf declaration.subject = .ok resolved.subject ∧
        unitOf declaration.result = .ok resolved.result ∧
        match declaration.operand with
        | .unit symbol => ∃ operand, resolved.operand = some operand ∧ unitOf symbol = .ok operand
        | .factor _ => resolved.operand = none := by
  rcases declaration with ⟨subject, op, written, outcome⟩
  constructor
  · intro named
    rcases bind_eq_ok.mp named with ⟨_, subjectFound, named⟩
    rcases bind_eq_ok.mp named with ⟨_, resultFound, named⟩
    cases written with
    | factor factor =>
        cases named
        exact ⟨rfl, subjectFound, resultFound, rfl⟩
    | unit symbol =>
        rcases bind_eq_ok.mp named with ⟨operand, operandFound, named⟩
        cases named
        exact ⟨rfl, subjectFound, resultFound, operand, rfl, operandFound⟩
  · rcases resolved with ⟨_, _, operand, _⟩
    rintro ⟨rfl, subjectFound, resultFound, operandFound⟩
    refine (bind_eq_of_ok subjectFound).trans ((bind_eq_of_ok resultFound).trans ?_)
    cases written with
    | factor factor =>
        cases operandFound
        rfl
    | unit symbol =>
        rcases operandFound with ⟨unit, rfl, found⟩
        exact bind_eq_of_ok found

/-- What stands behind a declaration that a catalog accepts, and what is left of it. -/
theorem of_defineRelation [Scalar R] {places : Nat} {name line : String}
    (defined : registry.defineRelation places name line = .ok changed) :
    ∃ catalog declaration resolved, registry.catalog name = .ok catalog ∧
      RelationDeclaration.parse places line = .ok declaration ∧
      resolveDeclaration (registry.unitFor catalog) declaration = .ok resolved ∧
      (forall write, write ∈ resolved.writes -> write.unit.isDimensionless = false) ∧
      { registry.writeAll resolved.writes with
        catalogs := (registry.writeAll resolved.writes).catalogs.set name
          { catalog with declarations := catalog.declarations ++ [declaration] } } = changed := by
  rcases bind_eq_ok.mp defined with ⟨catalog, found, defined⟩
  rcases bind_eq_ok.mp defined with ⟨declaration, parsed, defined⟩
  rcases bind_eq_ok.mp defined with ⟨resolved, named, defined⟩
  rcases bind_eq_ok.mp defined with ⟨_, entered, defined⟩
  rcases writes_enterDeclaration resolved registry _ entered with ⟨rfl, someUnits⟩
  exact ⟨catalog, declaration, resolved, found, parsed, named, someUnits, Except.ok.inj defined⟩

end

end Registry

/-- What stands behind a batch that is finished, and what is left of it. -/
theorem UnitBatch.of_finish {batch : UnitBatch R} {registry changed : Registry R}
    {catalog : Catalog R} (finished : batch.finish registry = .ok (catalog, changed)) :
    ∃ resolved, batch.declarations.mapM (Registry.resolveDeclaration
        (batch.unitFor (createUnits batch.catalog batch.units registry).1 registry)) =
          .ok resolved ∧
      (createUnits batch.catalog batch.units registry).2.writeAll
        (resolved.flatMap Registry.ResolvedDeclaration.writes) = changed ∧
      ⟨(createUnits batch.catalog batch.units registry).1, batch.declarations⟩ = catalog := by
  rcases bind_eq_ok.mp finished with ⟨_, _, finished⟩
  rcases bind_eq_ok.mp finished with ⟨resolved, named, finished⟩
  rcases bind_eq_ok.mp finished with ⟨_, entered, finished⟩
  cases finished
  rcases Registry.writes_enterAll resolved _ _ entered with ⟨rfl, _⟩
  exact ⟨resolved, named, rfl, rfl⟩

end QuantityCalculus
