import QuantityCalculus.Proofs.Arithmetic.Rationals
import QuantityCalculus.Proofs.Units.Reachable

namespace QuantityCalculus

/-!
# Declared conversions

A declared scaling is entered in two directions, from each of its units to the other.
But a unit holds one multiplication and one division only, whatever they lead to: a
later scaling that starts with the same unit and the same operation takes the place of an
earlier one, in either direction.  The earlier conversion is then not found, and a
conversion that is not found keeps the number.

`convert_declared` says exactly which conversions survive a sequence of declarations, and
what becomes of the others.
-/

variable {R : Type}

/-- A scaling between two units: `subject op factor = result`. -/
structure Scaling (R : Type) where
  subject : UnitOfMeasure
  op : UnitOperator
  factor : R
  result : UnitOfMeasure

/-- One way of using a scaling. -/
structure Conversion (R : Type) where
  source : UnitOfMeasure
  op : UnitOperator
  factor : R
  target : UnitOfMeasure

namespace Conversion

/-- The relation of a conversion. -/
def relation (conversion : Conversion R) : Relation R :=
  ⟨conversion.op, conversion.target, some conversion.factor⟩

/-- The write that a conversion is entered by. -/
def write (conversion : Conversion R) : RelationWrite R :=
  .scaling conversion.source conversion.op conversion.factor conversion.target

/-- Two conversions that start with the same unit and the same operation. -/
def SamePlace (first second : Conversion R) : Prop :=
  first.source = second.source ∧ first.op = second.op

/-- A value after a conversion, in exact arithmetic. -/
def applied [Mul R] [Div R] (conversion : Conversion R) (value : R) : R :=
  match conversion.op with
  | .times => value * conversion.factor
  | .per => value / conversion.factor

end Conversion

namespace Scaling

/-- Both ways of using a scaling. -/
def conversions (scaling : Scaling R) : List (Conversion R) :=
  [⟨scaling.subject, scaling.op, scaling.factor, scaling.result⟩,
    ⟨scaling.result, scaling.op.inverse, scaling.factor, scaling.subject⟩]

/-- Two scalings between the same two units, in either order. -/
def SamePair (first second : Scaling R) : Prop :=
  (first.subject.label = second.subject.label ∧ first.result.label = second.result.label) ∨
    (first.subject.label = second.result.label ∧ first.result.label = second.subject.label)

theorem SamePair.symm {first second : Scaling R} (same : first.SamePair second) :
    second.SamePair first := by
  rcases same with ⟨subjects, results⟩ | ⟨crossed, back⟩
  · exact Or.inl ⟨subjects.symm, results.symm⟩
  · exact Or.inr ⟨back.symm, crossed.symm⟩

end Scaling

/-- All conversions of some scalings, in the order in which they are entered. -/
def conversionsOf (scalings : List (Scaling R)) : List (Conversion R) :=
  scalings.flatMap Scaling.conversions

theorem conversionsOf_cons (scaling : Scaling R) (rest : List (Scaling R)) :
    conversionsOf (scaling :: rest) = scaling.conversions ++ conversionsOf rest :=
  rfl

theorem conversionsOf_append (first second : List (Scaling R)) :
    conversionsOf (first ++ second) = conversionsOf first ++ conversionsOf second :=
  List.flatMap_append

/-- Some later scaling takes the place of a conversion. -/
def GivesWay (conversion : Conversion R) (later : List (Scaling R)) : Prop :=
  ∃ other, other ∈ conversionsOf later ∧ other.SamePlace conversion

namespace Registry

/-- The registry in which the conversions of some scalings were written, in order. -/
def convertible (registry : Registry R) (scalings : List (Scaling R)) : Registry R :=
  registry.writeAll ((conversionsOf scalings).map Conversion.write)

/-- A line of a catalog declares a scaling between two units of the registry. -/
def DeclaresScaling [Scalar R] (registry : Registry R) (places : Nat) (name line : String)
    (scaling : Scaling R) : Prop :=
  ∃ catalog subject result, registry.catalog name = .ok catalog ∧
    RelationDeclaration.parse places line =
      .ok ⟨subject, scaling.op, .factor scaling.factor, result⟩ ∧
    registry.unitFor catalog subject = .ok scaling.subject ∧
    registry.unitFor catalog result = .ok scaling.result

/-- A sequence of accepted lines that declare scalings, and the registry at its end. -/
inductive DeclaresScalings [Scalar R] (places : Nat) :
    Registry R -> List (Scaling R) -> Registry R -> Prop
  | nil {registry : Registry R} : DeclaresScalings places registry [] registry
  | cons {registry middle last : Registry R} {name line : String} {scaling : Scaling R}
      {rest : List (Scaling R)} : registry.DeclaresScaling places name line scaling ->
      registry.defineRelation places name line = .ok middle ->
      DeclaresScalings places middle rest last ->
      DeclaresScalings places registry (scaling :: rest) last

section

variable [Scalar R] {places : Nat} {registry last : Registry R} {scalings : List (Scaling R)}

/-- An accepted line that declares a scaling writes its two conversions. -/
theorem DeclaresScaling.writes {middle : Registry R} {name line : String} {scaling : Scaling R}
    (held : registry.KnowsHeld) (declares : registry.DeclaresScaling places name line scaling)
    (defined : registry.defineRelation places name line = .ok middle) :
    middle.records = (registry.writeAll (scaling.conversions.map Conversion.write)).records ∧
      forall conversion, conversion ∈ scaling.conversions ->
        conversion.source ∈ registry.units ∧ conversion.source.isDimensionless = false := by
  rcases declares with ⟨catalog, subject, result, found, parsed, subjectFound, resultFound⟩
  rcases of_defineRelation defined with
    ⟨_, _, resolved, catalogFound, declarationParsed, resolving, units, rfl⟩
  cases found.symm.trans catalogFound
  cases parsed.symm.trans declarationParsed
  rcases resolved with ⟨_, _, _, _⟩
  rcases resolveDeclaration_eq_ok.mp resolving with ⟨rfl, subjectAgain, resultAgain, rfl⟩
  cases subjectFound.symm.trans subjectAgain
  cases resultFound.symm.trans resultAgain
  have knows := held.catalog catalogFound
  refine ⟨rfl, fun conversion member => ⟨?_, units conversion.write ?_⟩⟩
  · rcases List.mem_cons.mp member with rfl | second
    · exact held.unitFor knows subjectFound
    · cases List.mem_singleton.mp second
      exact held.unitFor knows resultFound
  · exact List.mem_map.mpr ⟨conversion, member, rfl⟩

/-- A sequence of declared scalings writes all their conversions, in order. -/
theorem DeclaresScalings.writes (held : registry.KnowsHeld)
    (declares : DeclaresScalings places registry scalings last) :
    (forall unit key,
      last.relation? unit key = (registry.convertible scalings).relation? unit key) ∧
      forall conversion, conversion ∈ conversionsOf scalings ->
        conversion.source ∈ registry.units ∧ conversion.source.isDimensionless = false := by
  induction declares with
  | nil => exact ⟨fun _ _ => rfl, nofun⟩
  | @cons registry middle last name line scaling rest one defined _ inductionHypothesis =>
      rcases one.writes held defined with ⟨records, sources⟩
      have changes := changes_defineRelation held defined
      rcases inductionHypothesis (held.changesTo changes) with ⟨further, laterSources⟩
      have units : middle.units = registry.units := by
        rw [Registry.units, records]
        exact units_writeAll _
      refine ⟨fun unit key => ?_, fun conversion member => ?_⟩
      · rw [further, convertible, convertible, conversionsOf_cons, List.map_append, writeAll_append]
        exact relation?_congr (records_writeAll_congr records _) unit key
      · rcases List.mem_append.mp member with first | later
        · exact sources conversion first
        · rw [← units]
          exact laterSources conversion later

end

/-! ## What is found after the conversions are written -/

section

variable {registry : Registry R} {scalings : List (Scaling R)}

@[simp] theorem units_convertible : (registry.convertible scalings).units = registry.units :=
  units_writeAll _

theorem convertible_append (first second : List (Scaling R)) :
    registry.convertible (first ++ second) = (registry.convertible first).convertible second := by
  rw [convertible, conversionsOf_append, List.map_append, writeAll_append]
  rfl

/-- The write of a conversion stands in the place of the conversion. -/
theorem write_at_iff {other : Conversion R} {unit : UnitOfMeasure} {op : UnitOperator} :
    other.write.At unit ⟨none, op⟩ <-> other.source = unit ∧ other.op = op := by
  simp [RelationWrite.At, Conversion.write, RelationWrite.scaling]

variable (recorded : forall other, other ∈ conversionsOf scalings -> other.source ∈ registry.units)

include recorded in
theorem units_recorded : forall write, write ∈ (conversionsOf scalings).map Conversion.write ->
    write.unit ∈ registry.units := by
  intro write written
  rcases List.mem_map.mp written with ⟨other, inside, rfl⟩
  exact recorded other inside

include recorded in
theorem relation?_convertible_of_mem {unit : UnitOfMeasure} {op : UnitOperator}
    (written : ∃ other, other ∈ conversionsOf scalings ∧ other.source = unit ∧ other.op = op) :
    ∃ other, other ∈ conversionsOf scalings ∧ other.source = unit ∧ other.op = op ∧
      (registry.convertible scalings).relation? unit ⟨none, op⟩ = some other.relation := by
  rcases written with ⟨one, listed, place⟩
  rcases relation?_writeAll_of_at (units_recorded recorded)
    ⟨one.write, List.mem_map.mpr ⟨one, listed, rfl⟩, write_at_iff.mpr place⟩ with
    ⟨write, member, here, found⟩
  rcases List.mem_map.mp member with ⟨other, inside, rfl⟩
  rcases write_at_iff.mp here with ⟨source, sameOp⟩
  exact ⟨other, inside, source, sameOp, found⟩

include recorded in
theorem relation?_convertible_of_not_mem {unit : UnitOfMeasure} {op : UnitOperator}
    (elsewhere : forall other, other ∈ conversionsOf scalings ->
      ¬ (other.source = unit ∧ other.op = op)) :
    (registry.convertible scalings).relation? unit ⟨none, op⟩ =
      registry.relation? unit ⟨none, op⟩ := by
  refine relation?_writeAll_of_not_at (units_recorded recorded) fun write written here => ?_
  rcases List.mem_map.mp written with ⟨other, inside, rfl⟩
  exact elsewhere other inside (write_at_iff.mp here)

end

/-! ## The scaling between two units -/

section

variable {registry : Registry R} {source target : UnitOfMeasure}

theorem same_iff {unit other : UnitOfMeasure} :
    unit.same other = true <-> unit.label = other.label :=
  beq_iff_eq

/-- The scaling between two units is the only relation that leads from one to the other. -/
theorem scaling?_eq_some {op : UnitOperator} {relation : Relation R}
    (found : registry.relation? source ⟨none, op⟩ = some relation)
    (leads : relation.result.label = target.label)
    (only : forall otherOp other, registry.relation? source ⟨none, otherOp⟩ = some other ->
      other.result.label = target.label -> otherOp = op ∧ other = relation) :
    registry.scaling? source target = some relation := by
  have here : ((registry.relation? source ⟨none, op⟩).bind fun relation =>
      if relation.result.same target then some relation else none) = some relation := by
    rw [found, Option.bind_some, if_pos (same_iff.mpr leads)]
  cases op with
  | times =>
      rw [scaling?, List.findSome?_cons, here]
  | per =>
      -- The multiplication is tried first; it leads to the same unit only by being the same.
      have multiplication : ((registry.relation? source ⟨none, .times⟩).bind fun relation =>
          if relation.result.same target then some relation else none) = none := by
        cases other : registry.relation? source ⟨none, .times⟩ with
        | none => rfl
        | some relation =>
            exact if_neg fun same => nomatch (only _ _ other (same_iff.mp same)).1
      rw [scaling?, List.findSome?_cons, multiplication, List.findSome?_cons, here]

/-- Where nothing leads from one unit to the other, there is no scaling. -/
theorem scaling?_eq_none
    (nothing : forall op relation, registry.relation? source ⟨none, op⟩ = some relation ->
      relation.result.label ≠ target.label) :
    registry.scaling? source target = none := by
  refine List.findSome?_eq_none_iff.mpr fun op _ => ?_
  cases found : registry.relation? source ⟨none, op⟩ with
  | none => rfl
  | some relation =>
      exact if_neg fun same => nothing op relation found (same_iff.mp same)

theorem scaling?_congr {other : Registry R} (same : forall key,
    registry.relation? source key = other.relation? source key) :
    registry.scaling? source target = other.scaling? source target := by
  simp only [scaling?, same]

end

/-! ## What leads from one unit to another -/

section

variable {registry last : Registry R} {before after : List (Scaling R)} {scaling : Scaling R}
  {conversion : Conversion R}

/-- Each conversion of a scaling joins its two units. -/
theorem labels_of_mem_conversions {scaling : Scaling R} {conversion : Conversion R}
    (member : conversion ∈ scaling.conversions) :
    (conversion.source = scaling.subject ∧ conversion.target = scaling.result) ∨
      (conversion.source = scaling.result ∧ conversion.target = scaling.subject) := by
  rcases List.mem_cons.mp member with rfl | second
  · exact Or.inl ⟨rfl, rfl⟩
  · cases List.mem_singleton.mp second
    exact Or.inr ⟨rfl, rfl⟩

/-- Conversions between the same two units belong to scalings between these units. -/
theorem samePair_of_conversions {first second : Scaling R} {one other : Conversion R}
    (oneMember : one ∈ first.conversions) (otherMember : other ∈ second.conversions)
    (source : one.source.label = other.source.label)
    (target : one.target.label = other.target.label) : first.SamePair second := by
  rcases labels_of_mem_conversions oneMember with
      ⟨oneSource, oneTarget⟩ | ⟨oneSource, oneTarget⟩ <;>
    rcases labels_of_mem_conversions otherMember with
      ⟨otherSource, otherTarget⟩ | ⟨otherSource, otherTarget⟩ <;>
    rw [oneSource, otherSource] at source <;> rw [oneTarget, otherTarget] at target
  · exact Or.inl ⟨source, target⟩
  · exact Or.inr ⟨source, target⟩
  · exact Or.inr ⟨target, source⟩
  · exact Or.inl ⟨target, source⟩

/-- The two conversions of a scaling do not start with the same unit. -/
theorem eq_of_source {one other : Conversion R}
    (distinct : scaling.subject.label ≠ scaling.result.label)
    (oneMember : one ∈ scaling.conversions) (otherMember : other ∈ scaling.conversions)
    (source : one.source = other.source) : one = other := by
  rcases List.mem_cons.mp oneMember with rfl | oneSecond
  · rcases List.mem_cons.mp otherMember with rfl | otherSecond
    · rfl
    · cases List.mem_singleton.mp otherSecond
      exact absurd (congrArg UnitOfMeasure.label source) distinct
  · cases List.mem_singleton.mp oneSecond
    rcases List.mem_cons.mp otherMember with rfl | otherSecond
    · exact absurd (congrArg UnitOfMeasure.label source).symm distinct
    · exact (List.mem_singleton.mp otherSecond).symm

/-- Among scalings of which no two join the same units, the others join other units. -/
theorem eq_of_samePair {other : Scaling R}
    (once : (before ++ scaling :: after).Pairwise fun first second => ¬ first.SamePair second)
    (member : other ∈ before ++ scaling :: after) (same : other.SamePair scaling) :
    other = scaling := by
  rcases List.pairwise_append.mp once with ⟨_, later, across⟩
  rcases List.mem_append.mp member with earlier | here
  · exact absurd same (across other earlier scaling List.mem_cons_self)
  · rcases List.mem_cons.mp here with rfl | inAfter
    · rfl
    · exact absurd same.symm ((List.pairwise_cons.mp later).1 other inAfter)

/-! ## What becomes of a conversion -/

section

variable (recorded : forall other, other ∈ conversionsOf (before ++ scaling :: after) ->
    other.source ∈ registry.units)
  (once : (before ++ scaling :: after).Pairwise fun first second => ¬ first.SamePair second)
  (distinct : scaling.subject.label ≠ scaling.result.label)
  (member : conversion ∈ scaling.conversions)

include once distinct member in
/-- No other conversion leads from the source of a conversion to its target. -/
theorem eq_of_leads {other : Conversion R}
    (listed : other ∈ conversionsOf (before ++ scaling :: after))
    (source : other.source = conversion.source)
    (leads : other.target.label = conversion.target.label) : other = conversion := by
  rcases List.mem_flatMap.mp listed with ⟨holder, inside, belongs⟩
  have pair := samePair_of_conversions belongs member (congrArg UnitOfMeasure.label source) leads
  cases eq_of_samePair once inside pair
  exact eq_of_source distinct belongs member source

include recorded distinct member in
/-- A conversion that does not give way is found. -/
theorem relation?_of_kept (kept : ¬ GivesWay conversion after) :
    (registry.convertible (before ++ scaling :: after)).relation? conversion.source
      ⟨none, conversion.op⟩ = some conversion.relation := by
  have split : before ++ scaling :: after = (before ++ [scaling]) ++ after := by simp
  rw [split] at recorded
  rw [conversionsOf_append, conversionsOf_append] at recorded
  have own : conversionsOf [scaling] = scaling.conversions := List.append_nil _
  rw [split, convertible_append, convertible_append]
  have recordedAfter : forall other, other ∈ conversionsOf after ->
      other.source ∈ ((registry.convertible before).convertible [scaling]).units := by
    intro other inside
    rw [units_convertible, units_convertible]
    exact recorded other (List.mem_append_right _ inside)
  have recordedHere : forall other, other ∈ conversionsOf [scaling] ->
      other.source ∈ (registry.convertible before).units := by
    intro other inside
    rw [units_convertible]
    exact recorded other (List.mem_append_left _ (List.mem_append_right _ inside))
  rw [relation?_convertible_of_not_mem recordedAfter fun other inside place =>
    kept ⟨other, inside, place⟩]
  rcases relation?_convertible_of_mem recordedHere ⟨conversion, own ▸ member, rfl, rfl⟩ with
    ⟨other, inside, source, _, found⟩
  rw [found, eq_of_source distinct (own ▸ inside) member source]

include recorded once member in
/-- Where a conversion gives way, something is found that leads elsewhere. -/
theorem relation?_of_givesWay (givesWay : GivesWay conversion after) :
    ∃ relation, (registry.convertible (before ++ scaling :: after)).relation? conversion.source
      ⟨none, conversion.op⟩ = some relation ∧ relation.result.label ≠ conversion.target.label := by
  have split : before ++ scaling :: after = (before ++ [scaling]) ++ after := by simp
  have recordedAfter : forall other, other ∈ conversionsOf after ->
      other.source ∈ (registry.convertible (before ++ [scaling])).units := by
    intro other inside
    rw [units_convertible]
    rw [split, conversionsOf_append] at recorded
    exact recorded other (List.mem_append_right _ inside)
  rcases relation?_convertible_of_mem recordedAfter givesWay with
    ⟨other, inside, source, _, found⟩
  rw [split, convertible_append]
  refine ⟨other.relation, found, fun leads => ?_⟩
  rcases List.mem_flatMap.mp inside with ⟨holder, inAfter, belongs⟩
  have pair := samePair_of_conversions belongs member (congrArg UnitOfMeasure.label source) leads
  have later := (List.pairwise_append.mp once).2.1
  exact (List.pairwise_cons.mp later).1 holder inAfter pair.symm

include recorded once distinct member in
/-- After the declarations, a conversion is all that leads from its source to its target. -/
theorem eq_of_found
    (noneBefore : forall op relation,
      registry.relation? conversion.source ⟨none, op⟩ = some relation ->
        relation.result.label ≠ conversion.target.label)
    {op : UnitOperator} {relation : Relation R}
    (found : (registry.convertible (before ++ scaling :: after)).relation? conversion.source
      ⟨none, op⟩ = some relation)
    (leads : relation.result.label = conversion.target.label) :
    op = conversion.op ∧ relation = conversion.relation := by
  by_cases written : ∃ other, other ∈ conversionsOf (before ++ scaling :: after) ∧
      other.source = conversion.source ∧ other.op = op
  · rcases relation?_convertible_of_mem recorded written with ⟨other, listed, source, sameOp, here⟩
    cases here.symm.trans found
    cases eq_of_leads once distinct member listed source leads
    exact ⟨sameOp.symm, rfl⟩
  · rw [relation?_convertible_of_not_mem recorded fun other listed place =>
      written ⟨other, listed, place⟩] at found
    exact absurd leads (noneBefore op relation found)

variable (noneBefore : forall op relation,
  registry.relation? conversion.source ⟨none, op⟩ = some relation ->
    relation.result.label ≠ conversion.target.label)

include recorded once distinct member noneBefore in
/-- A conversion that does not give way is the scaling between its units. -/
theorem scaling?_of_kept (kept : ¬ GivesWay conversion after) :
    (registry.convertible (before ++ scaling :: after)).scaling? conversion.source
      conversion.target = some conversion.relation :=
  scaling?_eq_some (relation?_of_kept recorded distinct member kept) rfl
    fun _ _ found leads => eq_of_found recorded once distinct member noneBefore found leads

include recorded once distinct member noneBefore in
/-- Where a conversion gives way, there is no scaling between its units. -/
theorem scaling?_of_givesWay (givesWay : GivesWay conversion after) :
    (registry.convertible (before ++ scaling :: after)).scaling? conversion.source
      conversion.target = none := by
  rcases relation?_of_givesWay recorded once member givesWay with ⟨relation, found, elsewhere⟩
  refine scaling?_eq_none fun op other otherFound leads => elsewhere ?_
  rcases eq_of_found recorded once distinct member noneBefore otherFound leads with ⟨rfl, _⟩
  cases found.symm.trans otherFound
  exact leads

end

end

/-! ## Converting -/

section

variable {registry : Registry R} {target : UnitOfMeasure}

/-- Between different units, a conversion applies the scaling, if there is one. -/
theorem convert_eq [Scalar R] {quantity : Quantity R} {symbol : String} {enabled : List String}
    {magnitude : Magnitude} (resolved : registry.resolve symbol enabled = .ok (magnitude, target))
    (different : target.label ≠ quantity.unit.label)
    (someUnit : quantity.unit.isDimensionless = false) :
    registry.convert quantity symbol enabled =
      match registry.scaling? quantity.unit target with
      | some relation =>
          .ok ⟨Magnitude.rebase (apply relation quantity.base (Scalar.ofInt 0)) .plain magnitude,
            target, magnitude⟩
      | none => .ok ⟨quantity.value, target, magnitude⟩ := by
  have other : target.same quantity.unit = false :=
    Bool.eq_false_iff.mpr fun same => different (same_iff.mp same)
  have scaled : (target.same quantity.unit || quantity.isDimensionless) = false := by
    rw [other, Quantity.isDimensionless, someUnit]
    rfl
  rw [convert, bind_eq_of_ok resolved]
  simp only [scaled]
  rfl

/-- What a conversion applies is the exact product or quotient. -/
theorem apply_conversion {K : Type} [Field K] [Scalar K] [ExactScalar K]
    {conversion : Conversion K} (factor : conversion.factor ≠ 0) (value other : K) :
    apply conversion.relation value other = conversion.applied value := by
  rcases conversion with ⟨source, op, factor', target⟩
  cases op with
  | times => exact ExactScalar.mul_eq value factor'
  | per => exact ExactScalar.div_eq value factor' factor

/--
After a sequence of declared scalings, of which no two join the same units, a quantity is
converted exactly along each of them and in both directions, unless a later scaling
starts with the same unit and the same operation.  Then the number is kept.
-/
theorem convert_declared {K : Type} [Field K] [Scalar K] [ExactScalar K] {places : Nat}
    {registry last : Registry K} {before after : List (Scaling K)} {scaling : Scaling K}
    {conversion : Conversion K} {quantity : Quantity K} {symbol : String} {enabled : List String}
    {magnitude : Magnitude} (held : registry.KnowsHeld)
    (declared : DeclaresScalings places registry (before ++ scaling :: after) last)
    (once : (before ++ scaling :: after).Pairwise fun first second => ¬ first.SamePair second)
    (distinct : scaling.subject.label ≠ scaling.result.label) (factor : scaling.factor ≠ 0)
    (member : conversion ∈ scaling.conversions)
    (noneBefore : forall op relation,
      registry.relation? conversion.source ⟨none, op⟩ = some relation ->
        relation.result.label ≠ conversion.target.label)
    (unit : quantity.unit = conversion.source)
    (resolved : last.resolve symbol enabled = .ok (magnitude, conversion.target)) :
    ∃ converted, last.convert quantity symbol enabled = .ok converted ∧
      converted.unit = conversion.target ∧
      (¬ GivesWay conversion after -> converted.base = conversion.applied quantity.base) ∧
      (GivesWay conversion after -> converted.value = quantity.value) := by
  rcases declared.writes held with ⟨tables, sources⟩
  have recorded : forall other, other ∈ conversionsOf (before ++ scaling :: after) ->
      other.source ∈ registry.units := fun other listed => (sources other listed).1
  have listed : conversion ∈ conversionsOf (before ++ scaling :: after) :=
    List.mem_flatMap.mpr ⟨scaling, List.mem_append_right _ List.mem_cons_self, member⟩
  have someUnit : quantity.unit.isDimensionless = false := unit ▸ (sources conversion listed).2
  have different : conversion.target.label ≠ quantity.unit.label := by
    rw [unit]
    rcases labels_of_mem_conversions member with ⟨source, target⟩ | ⟨source, target⟩ <;>
      rw [source, target]
    · exact distinct.symm
    · exact distinct
  have sameFactor : conversion.factor = scaling.factor := by
    rcases List.mem_cons.mp member with rfl | second
    · rfl
    · cases List.mem_singleton.mp second
      rfl
  have scaled : last.scaling? conversion.source conversion.target =
      (registry.convertible (before ++ scaling :: after)).scaling? conversion.source
        conversion.target := scaling?_congr fun key => tables conversion.source key
  rw [convert_eq resolved different someUnit, unit, scaled]
  by_cases givesWay : GivesWay conversion after
  · rw [scaling?_of_givesWay recorded once distinct member noneBefore givesWay]
    exact ⟨_, rfl, rfl, fun kept => absurd givesWay kept, fun _ => rfl⟩
  · rw [scaling?_of_kept recorded once distinct member noneBefore givesWay]
    refine ⟨_, rfl, rfl, fun _ => ?_, fun overtaken => absurd overtaken givesWay⟩
    rw [Quantity.base, Magnitude.rebase_plain_rebase]
    exact apply_conversion (sameFactor ▸ factor) _ _

end

/-! ## Hours, minutes and seconds -/

section

/-- The units of a clock. -/
def hour : UnitOfMeasure := ⟨⟨"t", "h"⟩, 0⟩

def minute : UnitOfMeasure := ⟨⟨"t", "min"⟩, 1⟩

def second : UnitOfMeasure := ⟨⟨"t", "s"⟩, 2⟩

/-- A registry with these units and no relations. -/
def clockUnits : Registry ℚ where
  records := [⟨hour, "h", []⟩, ⟨minute, "min", []⟩, ⟨second, "s", []⟩]
  catalogs := [("t", ⟨[("h", hour), ("min", minute), ("s", second)], []⟩)]

/-- The registry after an hour was declared to be sixty minutes. -/
def clockWithMinutes : Registry ℚ :=
  (clockUnits.defineRelation 15 "t" "h*60=min").toOption.getD clockUnits

/-- The registry after it was also declared to be 3600 seconds. -/
def clock : Registry ℚ :=
  (clockWithMinutes.defineRelation 15 "t" "h*3600=s").toOption.getD clockUnits

/-- Both scalings of the clock. -/
def minutesOfHour : Scaling ℚ := ⟨hour, .times, 60, minute⟩

def secondsOfHour : Scaling ℚ := ⟨hour, .times, 3600, second⟩

theorem clock_declared :
    DeclaresScalings 15 clockUnits [minutesOfHour, secondsOfHour] clock := by
  have minutes : clockUnits.DeclaresScaling 15 "t" "h*60=min" minutesOfHour :=
    ⟨_, "h", "min", rfl, eq_ok_of_toOption (by decide +kernel), rfl, rfl⟩
  have catalog : clockWithMinutes.catalog "t" = .ok
      ⟨[("h", hour), ("min", minute), ("s", second)], [⟨"h", .times, .factor 60, "min"⟩]⟩ :=
    eq_ok_of_toOption (by decide +kernel)
  have seconds : clockWithMinutes.DeclaresScaling 15 "t" "h*3600=s" secondsOfHour :=
    ⟨_, "h", "s", catalog, eq_ok_of_toOption (by decide +kernel), rfl, rfl⟩
  exact .cons minutes (eq_ok_of_isSome clockUnits (by decide +kernel))
    (.cons seconds (eq_ok_of_isSome clockUnits (by decide +kernel)) .nil)

theorem clock_once : [minutesOfHour, secondsOfHour].Pairwise fun one other =>
    ¬ one.SamePair other := by
  refine List.pairwise_pair.mpr ?_
  unfold Scaling.SamePair
  decide

theorem clockUnits_held : clockUnits.KnowsHeld := by
  intro entry member unit inside
  cases List.mem_singleton.mp member
  have known : forall one, one ∈ [("h", hour), ("min", minute), ("s", second)] ->
      one.2 ∈ clockUnits.units := by decide
  exact known unit inside

/-- Minutes are still converted to hours after seconds were declared as well. -/
theorem convert_declared_minutes :
    ∃ converted, clock.convert ⟨120, minute, .plain⟩ "h" ["t"] = .ok converted ∧
      converted.unit = hour ∧ converted.base = 2 := by
  have kept : ¬ GivesWay ⟨minute, .per, 60, hour⟩ [secondsOfHour] := by
    rintro ⟨other, listed, source, _⟩
    have elsewhere : forall one, one ∈ conversionsOf [secondsOfHour] -> one.source ≠ minute := by
      decide
    exact elsewhere other listed source
  have noneBefore : forall op relation,
      clockUnits.relation? minute ⟨none, op⟩ = some relation ->
        relation.result.label ≠ hour.label := by
    intro op relation found
    cases found
  have resolved : clock.resolve "h" ["t"] = .ok (.plain, hour) :=
    eq_ok_of_toOption (by decide +kernel)
  have one : (⟨minute, .per, 60, hour⟩ : Conversion ℚ) ∈ minutesOfHour.conversions :=
    List.mem_cons_of_mem _ (List.mem_singleton_self _)
  rcases @convert_declared ℚ _ _ _ 15 clockUnits clock [] [secondsOfHour] minutesOfHour
    ⟨minute, .per, 60, hour⟩ ⟨120, minute, .plain⟩ "h" ["t"] .plain clockUnits_held clock_declared
    clock_once (by decide) (by decide) one noneBefore rfl resolved with
    ⟨converted, succeeded, unit, base, _⟩
  refine ⟨converted, succeeded, unit, (base kept).trans ?_⟩
  decide +kernel

/-- An hour that was declared to be sixty minutes is converted to one minute. -/
theorem convert_declared_lost :
    DeclaresScalings 15 clockUnits [minutesOfHour, secondsOfHour] clock ∧
      ([minutesOfHour, secondsOfHour].Pairwise fun one other => ¬ one.SamePair other) ∧
      clock.convert ⟨1, hour, .plain⟩ "min" ["t"] = .ok ⟨1, minute, .plain⟩ ∧
      (⟨1, minute, .plain⟩ : Quantity ℚ).base ≠
        (⟨1, hour, .plain⟩ : Quantity ℚ).base * minutesOfHour.factor := by
  have resolved : clock.resolve "min" ["t"] = .ok (.plain, minute) :=
    eq_ok_of_toOption (by decide +kernel)
  have noScaling : clock.scaling? hour minute = none := by decide +kernel
  refine ⟨clock_declared, clock_once, ?_, by decide +kernel⟩
  rw [convert_eq resolved (by decide) rfl, noScaling]

end

end Registry
end QuantityCalculus
