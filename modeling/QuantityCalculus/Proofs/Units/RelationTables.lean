import QuantityCalculus.Proofs.Units.Writing

namespace QuantityCalculus

/-!
# What relations may say

A relation is looked up by the operation it is for, and only a relation between
a unit and a plain number brings a number of its own.  The types do not force
this, but every way of making a registry does: relations are only ever entered
through products, quotients and scalings.  `Registry.Coherent` states it for
the records of a registry, so that each operation has to be checked against
the records it changes and against nothing else.
-/

variable {R : Type}

/-- The relation computes what its key says; between two units it brings no number. -/
def Relation.Fits (key : RelationKey) (relation : Relation R) : Prop :=
  relation.op = key.op ∧ (key.other ≠ none -> relation.factor = none)

/-- All relations of a registry fit their keys. -/
def Registry.Coherent (registry : Registry R) : Prop :=
  forall record, record ∈ registry.records -> forall entry, entry ∈ record.relations ->
    entry.2.Fits entry.1

theorem mem_of_relationAt? {key : RelationKey} {relation : Relation R}
    {relations : List (RelationKey × Relation R)}
    (found : relationAt? key relations = some relation) : (key, relation) ∈ relations := by
  induction relations with
  | nil => cases found
  | cons entry rest inductionHypothesis =>
      rcases entry with ⟨other, old⟩
      rw [relationAt?] at found
      split at found
      · rename_i same
        cases found
        exact same ▸ List.mem_cons_self
      · exact List.mem_cons_of_mem _ (inductionHypothesis found)

theorem mem_enterRelation {key : RelationKey} {relation : Relation R}
    {entry : RelationKey × Relation R} {relations : List (RelationKey × Relation R)}
    (member : entry ∈ enterRelation key relation relations) :
    entry = (key, relation) ∨ entry ∈ relations := by
  induction relations with
  | nil => exact Or.inl (List.mem_singleton.mp member)
  | cons head rest inductionHypothesis =>
      rcases head with ⟨other, old⟩
      rw [enterRelation] at member
      split at member
      · rcases List.mem_cons.mp member with same | later
        · exact Or.inl same
        · exact Or.inr (List.mem_cons_of_mem _ later)
      · rcases List.mem_cons.mp member with same | later
        · exact Or.inr (same ▸ List.mem_cons_self)
        · exact (inductionHypothesis later).imp_right (List.mem_cons_of_mem _)

namespace Registry

/-- A relation that is found fits the key it is found under. -/
theorem Coherent.relation_fits {registry : Registry R} (coherent : registry.Coherent)
    {unit : UnitOfMeasure} {key : RelationKey} {relation : Relation R}
    (found : registry.relation? unit key = some relation) : relation.Fits key := by
  have member := mem_of_relationAt? found
  rw [relationsOf] at member
  cases located : registry.record? unit with
  | none => simp [located] at member
  | some record =>
      rw [located] at member
      exact coherent record (List.mem_of_find?_eq_some located) _ member

theorem empty_coherent : (empty : Registry R).Coherent := by
  intro record member
  cases member

/-! ## Each operation keeps it -/

theorem Coherent.updateRecord {registry : Registry R} (coherent : registry.Coherent)
    (unit : UnitOfMeasure) {change : UnitRecord R -> UnitRecord R}
    (changed : forall record, record ∈ registry.records ->
      forall entry, entry ∈ (change record).relations -> entry.2.Fits entry.1) :
    (registry.updateRecord unit change).Coherent := by
  intro record member
  rcases List.mem_map.mp member with ⟨old, oldMember, rfl⟩
  split
  · exact changed old oldMember
  · exact coherent old oldMember

theorem Coherent.write {registry : Registry R} (coherent : registry.Coherent)
    {write : RelationWrite R} (fits : write.relation.Fits write.key) :
    (registry.write write).Coherent := by
  refine coherent.updateRecord write.unit fun record member entry entryMember => ?_
  rcases mem_enterRelation entryMember with rfl | old
  · exact fits
  · exact coherent record member entry old

theorem Coherent.writeAll {registry : Registry R} (coherent : registry.Coherent)
    {writes : List (RelationWrite R)}
    (fits : forall write, write ∈ writes -> write.relation.Fits write.key) :
    (registry.writeAll writes).Coherent := by
  induction writes generalizing registry with
  | nil => exact coherent
  | cons first rest inductionHypothesis =>
      rcases List.forall_mem_cons.mp fits with ⟨fitsFirst, fitsRest⟩
      exact inductionHypothesis (coherent.write fitsFirst) fitsRest

/-- A declaration writes relations that fit their keys. -/
theorem fits_of_writes {resolved : ResolvedDeclaration R} {write : RelationWrite R}
    (member : write ∈ resolved.writes) : write.relation.Fits write.key := by
  rcases of_mem_writes member with ⟨_, _, _, _, rfl, _⟩ | ⟨_, _, _, _, rfl, _⟩
  · exact ⟨rfl, fun isUnit => absurd rfl isUnit⟩
  · exact ⟨rfl, fun _ => rfl⟩

theorem Coherent.createUnit {registry : Registry R} (coherent : registry.Coherent)
    (catalog symbol name : String) : (registry.createUnit catalog symbol name).2.Coherent := by
  intro record member entry entryMember
  rcases List.mem_append.mp member with old | new
  · exact coherent record old entry entryMember
  · cases List.mem_singleton.mp new
    cases entryMember

/-- Which catalogs are in force plays no part. -/
theorem Coherent.withCatalogs {registry : Registry R} (coherent : registry.Coherent)
    (catalogs : Table (Catalog R)) : Coherent { registry with catalogs := catalogs } :=
  coherent

theorem Coherent.defineUnit {registry changed : Registry R} (coherent : registry.Coherent)
    {catalog symbol name : String} {unit : UnitOfMeasure}
    (defined : registry.defineUnit catalog symbol name = .ok (unit, changed)) :
    changed.Coherent := by
  unfold Registry.defineUnit at defined
  split at defined
  · cases defined
  · dsimp only at defined
    split at defined
    · cases defined
      split
      · exact coherent
      · exact coherent.updateRecord unit coherent
    · cases defined
      exact (coherent.createUnit catalog symbol name).withCatalogs _

theorem Coherent.defineRelation [Scalar R] {registry changed : Registry R}
    (coherent : registry.Coherent) {places : Nat} {name line : String}
    (defined : registry.defineRelation places name line = .ok changed) : changed.Coherent := by
  rcases of_defineRelation defined with ⟨_, _, _, _, _, _, _, rfl⟩
  exact (coherent.writeAll fun _ => fits_of_writes).withCatalogs _

theorem Coherent.removeCatalog {registry changed : Registry R} (coherent : registry.Coherent)
    {name : String} (removed : registry.removeCatalog name = .ok changed) : changed.Coherent := by
  rcases bind_eq_ok.mp removed with ⟨catalog, _, removed⟩
  cases removed
  exact coherent.withCatalogs _

end Registry

namespace UnitBatch

theorem createUnits_coherent {registry : Registry R} (coherent : registry.Coherent)
    (catalog : String) (units : Table String) :
    (createUnits catalog units registry).2.Coherent := by
  induction units generalizing registry with
  | nil => exact coherent
  | cons entry rest inductionHypothesis =>
      exact inductionHypothesis (coherent.createUnit catalog entry.1 entry.2)

/-- A batch enters its relations like single declarations. -/
theorem install_coherent {registry changed : Registry R} (coherent : registry.Coherent)
    {batch : UnitBatch R} (installed : batch.install registry = .ok changed) :
    changed.Coherent := by
  rcases bind_eq_ok.mp installed with ⟨⟨catalog, related⟩, finishing, installed⟩
  cases installed
  rcases of_finish finishing with ⟨resolved, _, rfl, _⟩
  refine ((createUnits_coherent coherent _ _).writeAll fun write member => ?_).withCatalogs _
  rcases List.mem_flatMap.mp member with ⟨_, _, written⟩
  exact Registry.fits_of_writes written

end UnitBatch

end QuantityCalculus
