import QuantityCalculus.Number.BinaryScalar
import QuantityCalculus.Proofs.Arithmetic.Exact
import QuantityCalculus.Proofs.Units.Reachable

namespace QuantityCalculus

/-!
# The order of factors

A declared product is entered from both of its factors, and so are the products in the
closure of a declared quotient.  But a relation names the other factor by its label only,
while the relation back is kept by the unit that had the label when it was declared.
When a catalog is replaced, its units are new ones under old labels: what others say
about them still holds, what they said themselves is gone.

So the order of factors plays no part as long as no label is given to more than one unit,
in every registry that can be made.
-/

variable {R : Type}

namespace Registry

/-- No other unit was ever given the label of a unit. -/
def OnlyOne (registry : Registry R) (unit : UnitOfMeasure) : Prop :=
  forall other, other ∈ registry.units -> other.label = unit.label -> other = unit

/-- The unit of the product of two units, if there is a relation for it. -/
def product? (registry : Registry R) (left right : UnitOfMeasure) : Option UnitOfMeasure :=
  (registry.relation? left ⟨some right.label, .times⟩).map Relation.result

/-- Relations name labels only that were given to some unit. -/
def NamesLabels (registry : Registry R) : Prop :=
  forall unit label op, (registry.relation? unit ⟨some label, op⟩).isSome ->
    ∃ other, other ∈ registry.units ∧ other.label = label

/-- Products of units that have their labels for themselves do not depend on the order. -/
structure Paired (registry : Registry R) : Prop where
  named : registry.NamesLabels
  products : forall left right, left ∈ registry.units -> right ∈ registry.units ->
    registry.OnlyOne left -> registry.OnlyOne right ->
      registry.product? left right = registry.product? right left

theorem empty_paired : (empty : Registry R).Paired where
  named := nofun
  products := nofun

/-! ## Writes -/

section

variable {registry changed : Registry R}

/-- A write of a relation that names a known label, if it names one. -/
theorem NamesLabels.write (names : registry.NamesLabels) {write : RelationWrite R}
    (known : write.unit ∈ registry.units)
    (labelled : forall label, write.key.other = some label ->
      ∃ other, other ∈ registry.units ∧ other.label = label) :
    (registry.write write).NamesLabels := by
  intro unit label op found
  rw [units_write]
  rw [relation?_write known] at found
  split at found
  · rename_i here
    exact labelled label (congrArg RelationKey.other here.2)
  · exact names unit label op found

theorem NamesLabels.write_pair (names : registry.NamesLabels)
    {first second result : UnitOfMeasure} {op : UnitOperator} (firstKnown : first ∈ registry.units)
    (secondKnown : second ∈ registry.units) :
    (registry.write (.pair first op second result)).NamesLabels :=
  names.write firstKnown fun _ named => ⟨second, secondKnown, Option.some.inj named⟩

/-- A write that says nothing about a product. -/
theorem Paired.write_other (paired : registry.Paired) {write : RelationWrite R}
    (known : write.unit ∈ registry.units) (names : (registry.write write).NamesLabels)
    (noProduct : forall label, write.key ≠ ⟨some label, .times⟩) :
    (registry.write write).Paired where
  named := names
  products := by
    have unchanged : forall left right,
        (registry.write write).product? left right = registry.product? left right := by
      intro left right
      rw [product?, relation?_write known, if_neg fun here => noProduct _ here.2, product?]
    intro left right leftKnown rightKnown leftOnly rightOnly
    rw [units_write] at leftKnown rightKnown
    rw [OnlyOne, units_write] at leftOnly rightOnly
    rw [unchanged, unchanged]
    exact paired.products left right leftKnown rightKnown leftOnly rightOnly

theorem product?_write_pair {first second result : UnitOfMeasure} (known : first ∈ registry.units)
    (left right : UnitOfMeasure) :
    (registry.write (.pair first .times second result)).product? left right =
      if first = left ∧ second.label = right.label then some result
      else registry.product? left right := by
  have at_iff : (RelationWrite.pair (R := R) first .times second result).At left
      ⟨some right.label, .times⟩ <-> first = left ∧ second.label = right.label := by
    simp [RelationWrite.At, RelationWrite.pair]
  rw [product?, relation?_write known]
  by_cases here : first = left ∧ second.label = right.label
  · rw [if_pos (at_iff.mpr here), if_pos here]
    rfl
  · rw [if_neg fun found => here (at_iff.mp found), if_neg here, product?]

/-- A product that is written from both of its factors. -/
theorem Paired.write_product (paired : registry.Paired) (first second result : UnitOfMeasure)
    (firstKnown : first ∈ registry.units) (secondKnown : second ∈ registry.units) :
    ((registry.write (.pair first .times second result)).write
      (.pair second .times first result)).Paired := by
  have secondStillKnown : second ∈
      (registry.write (.pair first .times second result)).units := by
    rw [units_write]
    exact secondKnown
  have firstStillKnown : first ∈ (registry.write (.pair first .times second result)).units := by
    rw [units_write]
    exact firstKnown
  refine ⟨(paired.named.write_pair firstKnown secondKnown).write_pair secondStillKnown
    firstStillKnown, fun left right leftKnown rightKnown leftOnly rightOnly => ?_⟩
  rw [units_write, units_write] at leftKnown rightKnown
  rw [OnlyOne, units_write, units_write] at leftOnly rightOnly
  -- Where a label belongs to one unit, having the label is being the unit.
  have same : forall {unit other : UnitOfMeasure}, other ∈ registry.units ->
      registry.OnlyOne unit -> (other.label = unit.label <-> other = unit) :=
    fun known only => ⟨only _ known, congrArg UnitOfMeasure.label⟩
  have before := paired.products left right leftKnown rightKnown leftOnly rightOnly
  simp only [product?_write_pair secondStillKnown, product?_write_pair firstKnown,
    same firstKnown rightOnly, same secondKnown rightOnly, same firstKnown leftOnly,
    same secondKnown leftOnly, before]
  by_cases forward : first = left ∧ second = right
  · simp [forward.1, forward.2]
  · by_cases backward : second = left ∧ first = right
    · simp [backward.1, backward.2]
    · simp only [if_neg forward, if_neg backward, if_neg (fun both => forward (And.comm.mp both)),
        if_neg (fun both => backward (And.comm.mp both))]

/-- A write for a quotient. -/
theorem Paired.write_quotient (paired : registry.Paired) (first second result : UnitOfMeasure)
    (firstKnown : first ∈ registry.units) (secondKnown : second ∈ registry.units) :
    (registry.write (.pair first .per second result)).Paired :=
  paired.write_other firstKnown (paired.named.write_pair firstKnown secondKnown)
    (by simp [RelationWrite.pair])

/-- A write for a number. -/
theorem Paired.write_scaling (paired : registry.Paired) (source : UnitOfMeasure)
    (op : UnitOperator) (factor : R) (target : UnitOfMeasure) (known : source ∈ registry.units) :
    (registry.write (.scaling source op factor target)).Paired :=
  paired.write_other known (paired.named.write known nofun) (by simp [RelationWrite.scaling])

/-! ## Elementary changes -/

/-- A declaration writes its products from both factors. -/
theorem Paired.declare (paired : registry.Paired) {resolved : ResolvedDeclaration R}
    (known : registry.KnowsNamed resolved) : (registry.writeAll resolved.writes).Paired := by
  rcases resolved with ⟨⟨symbol, op, written, outcome⟩, subject, operand, result⟩
  have subjectKnown : subject ∈ registry.units := known.subject
  have resultKnown : result ∈ registry.units := known.result
  cases written with
  | factor factor =>
      have forth := paired.write_scaling subject op factor result subjectKnown
      exact forth.write_scaling result op.inverse factor subject (by simpa using resultKnown)
  | unit other =>
      cases operand with
      | none => exact paired
      | some operand =>
          have operandKnown : operand ∈ registry.units := known.operand operand rfl
          cases op with
          | times =>
              have product := paired.write_product subject operand result subjectKnown operandKnown
              have quotient := product.write_quotient result subject operand
                (by simpa using resultKnown) (by simpa using subjectKnown)
              exact quotient.write_quotient result operand subject
                (by simpa using resultKnown) (by simpa using operandKnown)
          | per =>
              have quotient :=
                paired.write_quotient subject operand result subjectKnown operandKnown
              have quotients := quotient.write_quotient subject result operand
                (by simpa using subjectKnown) (by simpa using resultKnown)
              exact quotients.write_product result operand subject
                (by simpa using resultKnown) (by simpa using operandKnown)

/-- A new unit has no relations yet, and nothing else changes. -/
theorem relation?_createUnit (catalog symbol name : String)
    (unit : UnitOfMeasure) (key : RelationKey) :
    (registry.createUnit catalog symbol name).2.relation? unit key =
      registry.relation? unit key := by
  have records : (registry.createUnit catalog symbol name).2.records = registry.records ++
      [⟨(registry.createUnit catalog symbol name).1, if name = "" then symbol else name, []⟩] := rfl
  by_cases known : unit ∈ registry.units
  · rcases Option.isSome_iff_exists.mp (isSome_record? known) with ⟨record, found⟩
    have stillFound : (registry.createUnit catalog symbol name).2.record? unit = some record := by
      rw [record?, records, List.find?_append, ← record?, found]
      rfl
    rw [relation?, relationsOf, stillFound, relation?, relationsOf, found]
  · rw [relation?_of_not_mem known, relation?, relationsOf, record?, records, List.find?_append,
      ← record?, record?_of_not_mem known]
    by_cases same : (registry.createUnit catalog symbol name).1 = unit <;>
      simp [same, relationAt?]

/-- A unit that was never defined has no products. -/
theorem product?_of_not_mem {left : UnitOfMeasure} (unknown : left ∉ registry.units)
    (right : UnitOfMeasure) : registry.product? left right = none := by
  rw [product?, relation?_of_not_mem unknown]
  rfl

/-- No unit has products with a unit under a label that was never given. -/
theorem NamesLabels.product?_eq_none (names : registry.NamesLabels) {right : UnitOfMeasure}
    (unnamed : forall other, other ∈ registry.units -> other.label ≠ right.label)
    (left : UnitOfMeasure) : registry.product? left right = none := by
  cases found : registry.relation? left ⟨some right.label, .times⟩ with
  | none =>
      rw [product?, found]
      rfl
  | some relation =>
      rcases names left right.label .times (by rw [found]; rfl) with ⟨other, known, same⟩
      exact absurd same (unnamed other known)

/-- A unit with a label of its own has no products yet, and no unit has products with it. -/
theorem Paired.create (paired : registry.Paired) (sound : registry.Sound)
    (catalog symbol name : String) : (registry.createUnit catalog symbol name).2.Paired := by
  have product : forall left right,
      (registry.createUnit catalog symbol name).2.product? left right =
        registry.product? left right := by
    intro left right
    rw [product?, relation?_createUnit, product?]
  have fresh : (registry.createUnit catalog symbol name).1 ∉ registry.units := by
    intro known
    have below := sound.editions _ known
    rw [edition_createUnit] at below
    exact Nat.lt_irrefl _ below
  have units : (registry.createUnit catalog symbol name).2.units =
      registry.units ++ [(registry.createUnit catalog symbol name).1] :=
    units_createUnit catalog symbol name
  generalize (registry.createUnit catalog symbol name).1 = new at fresh units
  have onlyBefore : forall {unit}, (registry.createUnit catalog symbol name).2.OnlyOne unit ->
      registry.OnlyOne unit := by
    intro unit only other known
    refine only other ?_
    rw [units]
    exact List.mem_append_left _ known
  have unnamed : (registry.createUnit catalog symbol name).2.OnlyOne new ->
      forall other, other ∈ registry.units -> other.label ≠ new.label :=
    fun only other known label => fresh (onlyBefore only other known label ▸ known)
  refine ⟨fun unit label op found => ?_,
    fun left right leftKnown rightKnown leftOnly rightOnly => ?_⟩
  · rw [relation?_createUnit] at found
    rcases paired.named unit label op found with ⟨other, known, same⟩
    exact ⟨other, by rw [units]; exact List.mem_append_left _ known, same⟩
  · rw [units] at leftKnown rightKnown
    rw [product, product]
    rcases List.mem_append.mp leftKnown with leftOld | leftNew
    · rcases List.mem_append.mp rightKnown with rightOld | rightNew
      · exact paired.products left right leftOld rightOld (onlyBefore leftOnly)
          (onlyBefore rightOnly)
      · cases List.mem_singleton.mp rightNew
        rw [product?_of_not_mem fresh, paired.named.product?_eq_none (unnamed rightOnly)]
    · cases List.mem_singleton.mp leftNew
      rw [product?_of_not_mem fresh, paired.named.product?_eq_none (unnamed leftOnly)]

theorem relation?_rename (unit : UnitOfMeasure) (name : String) (other : UnitOfMeasure)
    (key : RelationKey) :
    (registry.updateRecord unit fun record => { record with name := name }).relation? other key =
      registry.relation? other key := by
  rw [relation?, relationsOf, record?_updateRecord (by exact fun _ => rfl), relation?, relationsOf]
  cases registry.record? other with
  | none => rfl
  | some record =>
      rw [Option.map_some, Option.map_some, Option.map_some]
      split <;> rfl

theorem Paired.rename (paired : registry.Paired) (unit : UnitOfMeasure) (name : String) :
    (registry.updateRecord unit fun record => { record with name := name }).Paired where
  named := by
    intro other label op found
    rw [relation?_rename] at found
    rw [units_rename]
    exact paired.named other label op found
  products := by
    intro left right leftKnown rightKnown leftOnly rightOnly
    rw [units_rename] at leftKnown rightKnown
    rw [OnlyOne, units_rename] at leftOnly rightOnly
    rw [product?, relation?_rename, product?, relation?_rename]
    exact paired.products left right leftKnown rightKnown leftOnly rightOnly

/-- Elementary changes leave the order of factors without effect. -/
theorem Paired.changes (paired : registry.Paired) (sound : registry.Sound)
    (change : Changes registry changed) : changed.Paired := by
  cases change with
  | create catalog symbol name _ => exact paired.create sound catalog symbol name
  | rename unit name => exact paired.rename unit name
  | declare known => exact paired.declare known
  | recatalog _ _ => exact ⟨paired.named, paired.products⟩

theorem paired_of_changesTo (changes : ChangesTo empty registry) : registry.Paired := by
  induction changes with
  | refl => exact empty_paired
  | tail before change inductionHypothesis =>
      exact inductionHypothesis.changes (empty_sound.changesTo before) change

end

/-! ## Products of quantities -/

/-- A unit of some catalog in force. -/
def Holds (registry : Registry R) (unit : UnitOfMeasure) : Prop :=
  ∃ entry, entry ∈ registry.catalogs ∧ ∃ held, held ∈ entry.2.units ∧ held.2 = unit

theorem Sound.known_of_holds {registry : Registry R} (sound : registry.Sound)
    {unit : UnitOfMeasure} (holds : registry.Holds unit) : unit ∈ registry.units := by
  rcases holds with ⟨entry, inForce, held, member, rfl⟩
  exact sound.held entry inForce held member

/-- Both orders of two factors fail for want of a relation, or both have a product in one unit. -/
def OrderPlaysNoPart [Scalar R] (registry : Registry R) (left right : Quantity R) : Prop :=
  (∃ failure other, registry.combineBy .multiply left right = .error failure ∧
    registry.combineBy .multiply right left = .error other ∧
    failure.kind = .dimensional ∧ other.kind = .dimensional) ∨
  ∃ product other, registry.combineBy .multiply left right = .ok product ∧
    registry.combineBy .multiply right left = .ok other ∧ product.unit = other.unit

section

variable [Scalar R] {registry : Registry R} {left right : Quantity R}

/-- The product of two quantities with units has the unit that the relation gives. -/
theorem combine_times (leftUnit : left.unit.isDimensionless = false)
    (rightUnit : right.unit.isDimensionless = false) :
    (registry.product? left.unit right.unit = none ∧
      ∃ failure, registry.combineBy .multiply left right = .error failure ∧
        failure.kind = .dimensional) ∨
    ∃ unit product, registry.product? left.unit right.unit = some unit ∧
      registry.combineBy .multiply left right = .ok product ∧ product.unit = unit := by
  have combined : registry.combineBy .multiply left right = registry.combine .times left right :=
    rfl
  rw [combined, combine, Quantity.isDimensionless, Quantity.isDimensionless, leftUnit, rightUnit,
    product?]
  cases registry.relation? left.unit ⟨some right.unit.label, .times⟩ with
  | none => exact Or.inl ⟨rfl, _, rfl, rfl⟩
  | some relation => exact Or.inr ⟨_, _, rfl, rfl, Quantity.unit_normalize _⟩

/--
In every registry that can be made, and for any values, the order of two factors plays no
part as long as the labels of their units were given to no other units.
-/
theorem product_order {places : Nat} {finished : List (String × Catalog R)}
    (reachable : Reachable places registry finished) (leftHeld : registry.Holds left.unit)
    (rightHeld : registry.Holds right.unit) (leftOnly : registry.OnlyOne left.unit)
    (rightOnly : registry.OnlyOne right.unit) : registry.OrderPlaysNoPart left right := by
  have sound := reachable.sound
  have leftKnown := sound.known_of_holds leftHeld
  have rightKnown := sound.known_of_holds rightHeld
  have leftUnit := sound.symbols _ leftKnown
  have rightUnit := sound.symbols _ rightKnown
  have same := (paired_of_changesTo reachable.changes.1).products _ _ leftKnown rightKnown
    leftOnly rightOnly
  rcases combine_times leftUnit rightUnit with
    ⟨nothing, failure, failed, kind⟩ | ⟨unit, product, found, succeeded, here⟩
  · rcases combine_times rightUnit leftUnit with
      ⟨_, other, otherFailed, otherKind⟩ | ⟨_, _, otherFound, _, _⟩
    · exact Or.inl ⟨failure, other, failed, otherFailed, kind, otherKind⟩
    · cases nothing.symm.trans (same.trans otherFound)
  · rcases combine_times rightUnit leftUnit with
      ⟨nothing, _, _, _⟩ | ⟨_, other, otherFound, otherSucceeded, there⟩
    · cases nothing.symm.trans (same.symm.trans found)
    · have units := Option.some.inj (found.symm.trans (same.trans otherFound))
      exact Or.inr ⟨product, other, succeeded, otherSucceeded,
        here.trans (units.trans there.symm)⟩

end

/-! ## A catalog that is installed again -/

/-- The unit that a symbol stands for in a catalog in force. -/
def heldUnit? (registry : Registry R) (name symbol : String) : Option UnitOfMeasure :=
  (registry.catalogs.get? name).bind fun catalog => catalog.units.get? symbol

theorem holds_of_heldUnit? {registry : Registry R} {name symbol : String} {unit : UnitOfMeasure}
    (found : registry.heldUnit? name symbol = some unit) : registry.Holds unit := by
  rcases Option.bind_eq_some_iff.mp found with ⟨catalog, inForce, held⟩
  exact ⟨_, Table.mem_of_get? inForce, _, Table.mem_of_get? held, rfl⟩

/-- The registry with the catalog that is there from the start. -/
def builtInRegistry : Registry Float :=
  ((empty : Registry Float).withBuiltIns 15).toOption.getD empty

theorem withBuiltIns_succeeds : (empty : Registry Float).withBuiltIns 15 = .ok builtInRegistry :=
  eq_ok_of_isSome empty (by decide +kernel)

theorem product_order_voltAmpere :
    builtInRegistry.OrderPlaysNoPart ⟨2, ⟨⟨"electric", "V"⟩, 0⟩, .plain⟩
      ⟨3, ⟨⟨"electric", "A"⟩, 1⟩, .plain⟩ := by
  have reachable : Reachable 15 builtInRegistry [] := .withBuiltIns .empty withBuiltIns_succeeds
  -- One evaluation of the registry for all that is looked up in it.
  have facts : builtInRegistry.heldUnit? "electric" "V" = some ⟨⟨"electric", "V"⟩, 0⟩ ∧
      builtInRegistry.heldUnit? "electric" "A" = some ⟨⟨"electric", "A"⟩, 1⟩ ∧
      (forall other, other ∈ builtInRegistry.units ->
        other.label = ⟨"electric", "V"⟩ -> other = ⟨⟨"electric", "V"⟩, 0⟩) ∧
      forall other, other ∈ builtInRegistry.units ->
        other.label = ⟨"electric", "A"⟩ -> other = ⟨⟨"electric", "A"⟩, 1⟩ := by decide +kernel
  rcases facts with ⟨volt, ampere, voltOnly, ampereOnly⟩
  exact product_order reachable (holds_of_heldUnit? volt) (holds_of_heldUnit? ampere) voltOnly
    ampereOnly

/-- A unit of another catalog gets a product with a second, and the seconds' catalog is installed
once more. -/
def installedAgain : Except Failure (Registry Float) := do
  let (_, registry) ← builtInRegistry.defineUnit "m" "N" ""
  let registry ← registry.defineRelation 15 "m" "N*s=V"
  registry.withBuiltIns 15

/-- The registry that results. -/
def installedAgainRegistry : Registry Float :=
  installedAgain.toOption.getD empty

/-- Two newton times three seconds are six volt, but three seconds times two newton are nothing. -/
theorem product_order_lost :
    Reachable 15 installedAgainRegistry [] ∧
      installedAgainRegistry.Holds ⟨⟨"m", "N"⟩, 7⟩ ∧
      installedAgainRegistry.Holds ⟨⟨"electric", "s"⟩, 13⟩ ∧
      (installedAgainRegistry.combineBy .multiply ⟨2, ⟨⟨"m", "N"⟩, 7⟩, .plain⟩
        ⟨3, ⟨⟨"electric", "s"⟩, 13⟩, .plain⟩).toOption.map Quantity.text = some "6[V]" ∧
      installedAgainRegistry.combineBy .multiply ⟨3, ⟨⟨"electric", "s"⟩, 13⟩, .plain⟩
        ⟨2, ⟨⟨"m", "N"⟩, 7⟩, .plain⟩ = .error (.noUnitRelation "s" "*" "N") := by
  have reachable : Reachable 15 installedAgainRegistry [] := by
    have made : installedAgain = .ok installedAgainRegistry :=
      eq_ok_of_isSome empty (by decide +kernel)
    rcases bind_eq_ok.mp made with ⟨⟨unit, defined⟩, defining, made⟩
    rcases bind_eq_ok.mp made with ⟨related, relating, installing⟩
    exact (((Reachable.empty.withBuiltIns withBuiltIns_succeeds).defineUnit defining).defineRelation
      relating).withBuiltIns installing
  have facts : installedAgainRegistry.heldUnit? "m" "N" = some ⟨⟨"m", "N"⟩, 7⟩ ∧
      installedAgainRegistry.heldUnit? "electric" "s" = some ⟨⟨"electric", "s"⟩, 13⟩ ∧
      installedAgainRegistry.relation? ⟨⟨"electric", "s"⟩, 13⟩ ⟨some ⟨"m", "N"⟩, .times⟩ = none ∧
      (installedAgainRegistry.combineBy .multiply ⟨2, ⟨⟨"m", "N"⟩, 7⟩, .plain⟩
        ⟨3, ⟨⟨"electric", "s"⟩, 13⟩, .plain⟩).toOption.map Quantity.text = some "6[V]" := by
    decide +kernel
  rcases facts with ⟨newton, second, unrelated, product⟩
  refine ⟨reachable, holds_of_heldUnit? newton, holds_of_heldUnit? second, product, ?_⟩
  have combined : forall left right : Quantity Float,
      installedAgainRegistry.combineBy .multiply left right =
        installedAgainRegistry.combine .times left right := fun _ _ => rfl
  rw [combined, combine, if_neg (by decide), if_neg (by decide), unrelated]
  rfl

end Registry
end QuantityCalculus
