import Mathlib.Data.List.Infix
import QuantityCalculus.Proofs.Arithmetic.Rationals
import QuantityCalculus.Proofs.Units.Contents

namespace QuantityCalculus

/-!
# The closure of declared relations

A product or quotient of units is entered with its closure: from `a * b = c` one can also
read `b * a = c`, `c / a = b` and `c / b = a`.  The tables may lose a part of this when a
later declaration writes over an entry of an earlier one.

Two things are kept, whatever is declared in whatever order.  Products are found from both
of their factors, even after contradicting declarations.  And as long as no declaration
gives an entry a new result, the four entries of any three units are all there or all
missing; then an entry is there exactly when some declaration wrote it.
-/

variable {R : Type}

/-! ## Laws and their writes -/

/-- The calls that declare relations between units. -/
inductive UnitLaw (R : Type) where
  | product (left right result : UnitOfMeasure)
  | quotient (left right result : UnitOfMeasure)
  | scaling (unit : UnitOfMeasure) (op : UnitOperator) (factor : R) (result : UnitOfMeasure)

namespace UnitLaw

/-- The registry with a law and its closure. -/
def enter (registry : Registry R) : UnitLaw R -> Except Failure (Registry R)
  | .product left right result => registry.addProduct left right result
  | .quotient left right result => registry.addQuotient left right result
  | .scaling unit op factor result => registry.addScaling unit op factor result

/-- The registry with all laws, in order. -/
def enterAll : List (UnitLaw R) -> Registry R -> Except Failure (Registry R)
  | [], registry => .ok registry
  | law :: rest, registry => do enterAll rest (← law.enter registry)

/-- The units of a law. -/
def units : UnitLaw R -> List UnitOfMeasure
  | .product left right result => [left, right, result]
  | .quotient left right result => [left, right, result]
  | .scaling unit _ _ result => [unit, result]

/-- A declaration that makes a law. -/
def declared : UnitLaw R -> Registry.ResolvedDeclaration R
  | .product left right result => ⟨⟨"", .times, .unit "", ""⟩, left, some right, result⟩
  | .quotient left right result => ⟨⟨"", .per, .unit "", ""⟩, left, some right, result⟩
  | .scaling unit op factor result => ⟨⟨"", op, .factor factor, ""⟩, unit, none, result⟩

/-- What a law writes. -/
def writes (law : UnitLaw R) : List (RelationWrite R) :=
  law.declared.writes

theorem enter_eq (law : UnitLaw R) (registry : Registry R) :
    law.enter registry = registry.enterDeclaration law.declared := by
  cases law <;> rfl

theorem enterAll_eq (laws : List (UnitLaw R)) (registry : Registry R) :
    enterAll laws registry = Registry.enterAll (laws.map declared) registry := by
  induction laws generalizing registry with
  | nil => rfl
  | cons law rest inductionHypothesis =>
      rw [enterAll, List.map_cons, Registry.enterAll, law.enter_eq]
      exact congrArg (registry.enterDeclaration law.declared >>= ·) (funext inductionHypothesis)

theorem flatMap_writes (laws : List (UnitLaw R)) :
    (laws.map declared).flatMap Registry.ResolvedDeclaration.writes = laws.flatMap writes :=
  List.flatMap_map _ _ _

theorem names_iff {law : UnitLaw R} {unit : UnitOfMeasure} :
    law.declared.Names unit <-> unit ∈ law.units := by
  cases law <;> simp [Registry.ResolvedDeclaration.Names, declared, units, eq_comm]

theorem knowsNamed {registry : Registry R} {law : UnitLaw R}
    (among : forall unit, unit ∈ law.units -> unit ∈ registry.units) :
    registry.KnowsNamed law.declared :=
  Registry.knowsNamed_iff.mpr fun unit named => among unit (names_iff.mp named)

end UnitLaw

/-! ## Entries -/

namespace RelationWrite

/-- The four entries of `left * right = result`. -/
def closure (left right result : UnitOfMeasure) : List (RelationWrite R) :=
  [.pair left .times right result, .pair right .times left result,
    .pair result .per left right, .pair result .per right left]

/-- Two writes of the same result in the same place. -/
def Agrees (first second : RelationWrite R) : Prop :=
  first.At second.unit second.key ∧ first.relation.result = second.relation.result

theorem pair_agrees_pair {left right result otherLeft otherRight otherResult : UnitOfMeasure}
    {op otherOp : UnitOperator} :
    (pair left op right result : RelationWrite R).Agrees
        (pair otherLeft otherOp otherRight otherResult) <->
      left = otherLeft ∧ right.label = otherRight.label ∧ op = otherOp ∧ result = otherResult := by
  simp [Agrees, At, pair, and_assoc]

theorem not_scaling_agrees_pair {source target left right result : UnitOfMeasure}
    {scalingOp op : UnitOperator} {factor : R} :
    ¬ (scaling source scalingOp factor target).Agrees (pair left op right result) := by
  simp [Agrees, At, scaling, pair]

/-- An entry of a product names two of its units. -/
theorem mem_closure {left right result : UnitOfMeasure} {entry : RelationWrite R} :
    entry ∈ closure left right result <->
      entry = .pair left .times right result ∨ entry = .pair right .times left result ∨
        entry = .pair result .per left right ∨ entry = .pair result .per right left := by
  simp [closure]

theorem closure_comm {left right result : UnitOfMeasure} {entry : RelationWrite R} :
    entry ∈ closure left right result <-> entry ∈ closure right left result := by
  rw [mem_closure, mem_closure]
  tauto

end RelationWrite

/-- A law on units writes the closure of one product, if it writes any entry of a product. -/
theorem UnitLaw.writes_closure (law : UnitLaw R) :
    (∃ left right result, left ∈ law.units ∧ right ∈ law.units ∧ result ∈ law.units ∧
      forall entry, entry ∈ law.writes <-> entry ∈ RelationWrite.closure left right result) ∨
    forall write, write ∈ law.writes -> forall left op right result,
      ¬ write.Agrees (.pair left op right result) := by
  cases law with
  | product left right result =>
      exact Or.inl ⟨left, right, result, by simp [units], by simp [units], by simp [units],
        fun _ => Iff.rfl⟩
  | quotient left right result =>
      refine Or.inl ⟨result, right, left, by simp [units], by simp [units], by simp [units],
        fun entry => ?_⟩
      rw [RelationWrite.mem_closure]
      simp only [writes, declared, Registry.ResolvedDeclaration.writes, List.mem_cons,
        List.not_mem_nil, or_false]
      tauto
  | scaling unit op factor result =>
      refine Or.inr fun write member _ _ _ _ => ?_
      simp only [writes, declared, Registry.ResolvedDeclaration.writes, List.mem_cons,
        List.not_mem_nil, or_false] at member
      rcases member with rfl | rfl
      · exact RelationWrite.not_scaling_agrees_pair
      · exact RelationWrite.not_scaling_agrees_pair

namespace Registry

/-- The entry of a write is there: its place holds its result. -/
def Present (registry : Registry R) (entry : RelationWrite R) : Prop :=
  (registry.relation? entry.unit entry.key).map Relation.result = some entry.relation.result

instance (registry : Registry R) (entry : RelationWrite R) : Decidable (registry.Present entry) :=
  inferInstanceAs (Decidable (_ = _))

/-- The entry `left op right = result` is there. -/
def Gives (registry : Registry R) (left : UnitOfMeasure) (op : UnitOperator)
    (right result : UnitOfMeasure) : Prop :=
  registry.Present (.pair left op right result)

instance (registry : Registry R) (left : UnitOfMeasure) (op : UnitOperator)
    (right result : UnitOfMeasure) : Decidable (registry.Gives left op right result) :=
  inferInstanceAs (Decidable (registry.Present _))

/-- The entries `a * b = c`, `b * a = c`, `c / a = b` and `c / b = a` are all there, or none. -/
def AllOrNone (registry : Registry R) (left right result : UnitOfMeasure) : Prop :=
  (forall entry, entry ∈ RelationWrite.closure left right result -> registry.Present entry) ∨
    forall entry, entry ∈ RelationWrite.closure left right result -> ¬ registry.Present entry

/-- Some writes, in order, of which none gives a new result to an entry. -/
def KeepsResults : List (RelationWrite R) -> Registry R -> Prop
  | [], _ => True
  | write :: rest, registry =>
      (forall old, old ∈ registry.relation? write.unit write.key ->
        old.result = write.relation.result) ∧ KeepsResults rest (registry.write write)

instance KeepsResults.decidable :
    (writes : List (RelationWrite R)) -> (registry : Registry R) ->
      Decidable (KeepsResults writes registry)
  | [], _ => .isTrue trivial
  | write :: rest, registry =>
      have := KeepsResults.decidable rest (registry.write write)
      inferInstanceAs (Decidable (_ ∧ _))

/-- Units with symbols, each the only one of its label, and nothing said about them. -/
structure Undeclared (registry : Registry R) : Prop where
  symbols : forall unit, unit ∈ registry.units -> unit.isDimensionless = false
  alone : forall unit, unit ∈ registry.units -> registry.OnlyOne unit
  silent : forall unit key, registry.relation? unit key = none

section

variable {registry : Registry R}

theorem gives_times_iff {left right result : UnitOfMeasure} :
    registry.Gives left .times right result <-> registry.product? left right = some result :=
  Iff.rfl

theorem KeepsResults.of_append {first second : List (RelationWrite R)}
    (keeps : KeepsResults (first ++ second) registry) : KeepsResults first registry := by
  induction first generalizing registry with
  | nil => trivial
  | cons write rest inductionHypothesis => exact ⟨keeps.1, inductionHypothesis keeps.2⟩

/-- A write that keeps results adds its own entry and takes none away. -/
theorem present_write_iff {write entry : RelationWrite R} (recorded : write.unit ∈ registry.units)
    (keeps : forall old, old ∈ registry.relation? write.unit write.key ->
      old.result = write.relation.result) :
    (registry.write write).Present entry <-> registry.Present entry ∨ write.Agrees entry := by
  unfold Present RelationWrite.Agrees
  rw [relation?_write recorded]
  by_cases here : write.At entry.unit entry.key
  · rw [if_pos here]
    rw [here.1, here.2] at keeps
    have old : (registry.relation? entry.unit entry.key).map Relation.result =
        some entry.relation.result -> write.relation.result = entry.relation.result := by
      intro found
      rcases Option.map_eq_some_iff.mp found with ⟨relation, there, same⟩
      exact (keeps relation there).symm.trans same
    simp only [Option.map_some, Option.some.injEq, here, true_and]
    exact ⟨Or.inr, fun either => either.elim old id⟩
  · rw [if_neg here]
    simp [here]

/-- Under writes that keep results, an entry is there when it was there or some write wrote it. -/
theorem present_writeAll_iff {writes : List (RelationWrite R)} {entry : RelationWrite R}
    (recorded : forall write, write ∈ writes -> write.unit ∈ registry.units)
    (keeps : KeepsResults writes registry) :
    (registry.writeAll writes).Present entry <->
      registry.Present entry ∨ ∃ write, write ∈ writes ∧ write.Agrees entry := by
  induction writes generalizing registry with
  | nil => simp [writeAll]
  | cons first rest inductionHypothesis =>
      have further : (registry.writeAll (first :: rest)).Present entry <->
          (registry.write first).Present entry ∨ ∃ write, write ∈ rest ∧ write.Agrees entry :=
        inductionHypothesis (recorded_rest recorded) keeps.2
      rw [further, present_write_iff (recorded first List.mem_cons_self) keeps.1]
      simp [or_assoc]

/-- Two products with an entry in common are the same product, up to the order of the factors. -/
theorem factors_of_agrees {left right result first second product : UnitOfMeasure}
    (byLabel : forall unit other, unit ∈ [left, right] -> other ∈ [first, second] ->
      unit.label = other.label -> unit = other)
    {write entry : RelationWrite R} (written : write ∈ RelationWrite.closure left right result)
    (member : entry ∈ RelationWrite.closure first second product) (agrees : write.Agrees entry) :
    result = product ∧ (left = first ∧ right = second ∨ left = second ∧ right = first) := by
  simp only [List.mem_cons, List.not_mem_nil, or_false] at byLabel
  rcases RelationWrite.mem_closure.mp written with rfl | rfl | rfl | rfl <;>
    rcases RelationWrite.mem_closure.mp member with rfl | rfl | rfl | rfl <;>
      rcases RelationWrite.pair_agrees_pair.mp agrees with
        ⟨sameUnit, sameLabel, sameOp, sameResult⟩ <;>
      cases sameOp
  -- The first unit and the result are named as they are, the other operand by its label.
  all_goals
    have sameOperand := byLabel _ _ (by simp) (by simp) sameLabel
    simp_all

/-- An entry of a product that some law wrote was written with all others of the product. -/
theorem closure_written {laws : List (UnitLaw R)} {left right result : UnitOfMeasure}
    (among : forall law, law ∈ laws -> forall unit, unit ∈ law.units -> unit ∈ registry.units)
    (alone : forall unit, unit ∈ registry.units -> registry.OnlyOne unit)
    (leftKnown : left ∈ registry.units) (rightKnown : right ∈ registry.units)
    {write entry : RelationWrite R} (written : write ∈ laws.flatMap UnitLaw.writes)
    (member : entry ∈ RelationWrite.closure left right result) (agrees : write.Agrees entry) :
    forall other, other ∈ RelationWrite.closure left right result ->
      other ∈ laws.flatMap UnitLaw.writes := by
  rcases List.mem_flatMap.mp written with ⟨law, inLaws, written⟩
  rcases law.writes_closure with
    ⟨first, second, product, firstUnit, secondUnit, _, writes⟩ | noProduct
  · have byLabel : forall unit other, unit ∈ [first, second] -> other ∈ [left, right] ->
        unit.label = other.label -> unit = other := by
      intro unit other named known label
      have unitKnown : unit ∈ registry.units := by
        rcases List.mem_pair.mp named with rfl | rfl
        · exact among law inLaws _ firstUnit
        · exact among law inLaws _ secondUnit
      have otherKnown : other ∈ registry.units := by
        rcases List.mem_pair.mp known with rfl | rfl
        · exact leftKnown
        · exact rightKnown
      exact alone other otherKnown unit unitKnown label
    intro other otherMember
    refine List.mem_flatMap.mpr ⟨law, inLaws, (writes other).mpr ?_⟩
    rcases factors_of_agrees byLabel ((writes write).mp written) member agrees with
      ⟨rfl, ⟨rfl, rfl⟩ | ⟨rfl, rfl⟩⟩
    · exact otherMember
    · exact RelationWrite.closure_comm.mp otherMember
  · rcases RelationWrite.mem_closure.mp member with rfl | rfl | rfl | rfl <;>
      exact absurd agrees (noProduct write written _ _ _ _)

/-- While no result is given up, an entry of a product is there only with all its closure. -/
theorem allOrNone_of_keepsResults {laws : List (UnitLaw R)}
    (undeclared : registry.Undeclared)
    (among : forall law, law ∈ laws -> forall unit, unit ∈ law.units -> unit ∈ registry.units)
    (keeps : KeepsResults (laws.flatMap UnitLaw.writes) registry)
    {left right : UnitOfMeasure} (leftKnown : left ∈ registry.units)
    (rightKnown : right ∈ registry.units) (result : UnitOfMeasure) :
    (registry.writeAll (laws.flatMap UnitLaw.writes)).AllOrNone left right result := by
  have recorded : forall write, write ∈ laws.flatMap UnitLaw.writes ->
      write.unit ∈ registry.units := by
    intro write written
    rcases List.mem_flatMap.mp written with ⟨law, inLaws, written⟩
    exact (UnitLaw.knowsNamed (among law inLaws)).writes write written
  have present_iff : forall entry,
      (registry.writeAll (laws.flatMap UnitLaw.writes)).Present entry <->
        ∃ write, write ∈ laws.flatMap UnitLaw.writes ∧ write.Agrees entry := by
    intro entry
    rw [present_writeAll_iff recorded keeps, Present, undeclared.silent]
    simp
  by_cases anyThere : ∃ entry, entry ∈ RelationWrite.closure left right result ∧
      (registry.writeAll (laws.flatMap UnitLaw.writes)).Present entry
  · rcases anyThere with ⟨entry, member, present⟩
    rcases (present_iff entry).mp present with ⟨write, written, agrees⟩
    refine Or.inl fun other otherMember => (present_iff other).mpr ⟨other, ?_, ⟨rfl, rfl⟩, rfl⟩
    exact closure_written among undeclared.alone leftKnown rightKnown written member agrees other
      otherMember
  · exact Or.inr fun entry member present => anyThere ⟨entry, member, present⟩

end

/-! ## Runs of declarations -/

section

variable {start : Registry R} {laws : List (UnitLaw R)}

/-- Laws on units with symbols are all accepted, and are written in order. -/
theorem Undeclared.enterAll (undeclared : start.Undeclared)
    (among : forall law, law ∈ laws -> forall unit, unit ∈ law.units -> unit ∈ start.units) :
    UnitLaw.enterAll laws start = .ok (start.writeAll (laws.flatMap UnitLaw.writes)) := by
  rw [UnitLaw.enterAll_eq, ← UnitLaw.flatMap_writes]
  refine performs_enterAll _ (fun write written => undeclared.symbols _ ?_) start
  rcases List.mem_flatMap.mp written with ⟨resolved, inLaws, written⟩
  rcases List.mem_map.mp inLaws with ⟨law, member, rfl⟩
  exact (UnitLaw.knowsNamed (among law member)).writes write written

theorem Undeclared.paired (undeclared : start.Undeclared) : start.Paired where
  named := by
    intro unit label op found
    rw [undeclared.silent] at found
    cases found
  products := by
    intro left right _ _ _ _
    rw [product?, product?, undeclared.silent, undeclared.silent]

theorem Paired.writeLaws (paired : start.Paired)
    (among : forall law, law ∈ laws -> forall unit, unit ∈ law.units -> unit ∈ start.units) :
    (start.writeAll (laws.flatMap UnitLaw.writes)).Paired := by
  induction laws generalizing start with
  | nil => exact paired
  | cons law rest inductionHypothesis =>
      rw [List.flatMap_cons, writeAll_append]
      have amongFirst := among law List.mem_cons_self
      refine inductionHypothesis (paired.declare (UnitLaw.knowsNamed amongFirst)) ?_
      intro other later unit named
      rw [units_writeAll]
      exact among other (List.mem_cons_of_mem _ later) unit named

/--
For a fixed set of units and any calls that declare relations between them: after each call,
a product is found from both of its factors or from none, whatever was declared.  If no
call gave an entry a new result, then after each call the four entries of any three units
are all there or all missing.
-/
theorem closure_complete (undeclared : start.Undeclared)
    (among : forall law, law ∈ laws -> forall unit, unit ∈ law.units -> unit ∈ start.units)
    {before : List (UnitLaw R)} (begun : before <+: laws) :
    ∃ reached, UnitLaw.enterAll before start = .ok reached ∧
      (forall left right result, left ∈ start.units -> right ∈ start.units ->
        (reached.Gives left .times right result <-> reached.Gives right .times left result)) ∧
      (KeepsResults (laws.flatMap UnitLaw.writes) start ->
        forall left right result, left ∈ start.units -> right ∈ start.units ->
          reached.AllOrNone left right result) := by
  rcases begun with ⟨after, rfl⟩
  have amongBefore : forall law, law ∈ before -> forall unit, unit ∈ law.units ->
      unit ∈ start.units :=
    fun law inLaws => among law (List.mem_append_left _ inLaws)
  refine ⟨_, undeclared.enterAll amongBefore, ?_, ?_⟩
  · intro left right result leftKnown rightKnown
    have same := (undeclared.paired.writeLaws amongBefore).products left right
      (by simpa using leftKnown) (by simpa using rightKnown)
      (by simpa [OnlyOne] using undeclared.alone left leftKnown)
      (by simpa [OnlyOne] using undeclared.alone right rightKnown)
    rw [gives_times_iff, gives_times_iff, same]
  · intro keeps left right result leftKnown rightKnown
    rw [List.flatMap_append] at keeps
    exact allOrNone_of_keepsResults undeclared amongBefore keeps.of_append leftKnown rightKnown
      result

end

/-! ## Electric units -/

/-- Six electric units without relations. -/
def electricUnits : Registry ℚ :=
  (UnitBatch.createUnits "electric"
    [("V", ""), ("A", ""), ("W", ""), ("Wh", ""), ("h", ""), ("s", "")] empty).2

/-- The unit of a symbol among them. -/
def electricUnit (symbol : String) (edition : Nat) : UnitOfMeasure :=
  ⟨⟨"electric", symbol⟩, edition⟩

/-- A product, a quotient and a scaling, and the product declared once more as a quotient. -/
def electricLaws : List (UnitLaw ℚ) :=
  [.product (electricUnit "V" 0) (electricUnit "A" 1) (electricUnit "W" 2),
    .quotient (electricUnit "Wh" 3) (electricUnit "h" 4) (electricUnit "W" 2),
    .scaling (electricUnit "h" 4) .times 3600 (electricUnit "s" 5),
    .quotient (electricUnit "W" 2) (electricUnit "A" 1) (electricUnit "V" 0)]

theorem electricUnits_undeclared : electricUnits.Undeclared where
  symbols := by decide
  alone := by
    have alone : forall unit, unit ∈ electricUnits.units ->
        forall other, other ∈ electricUnits.units -> other.label = unit.label -> other = unit := by
      decide
    exact alone
  silent := UnitBatch.relation?_createUnits _ _

theorem closure_complete_electric :
    KeepsResults (electricLaws.flatMap UnitLaw.writes) electricUnits ∧
      ∃ reached, UnitLaw.enterAll electricLaws electricUnits = .ok reached ∧
        forall left right result, left ∈ electricUnits.units -> right ∈ electricUnits.units ->
          (reached.Gives left .times right result <-> reached.Gives right .times left result) ∧
            reached.AllOrNone left right result := by
  have keeps : KeepsResults (electricLaws.flatMap UnitLaw.writes) electricUnits := by
    decide
  have among : forall law, law ∈ electricLaws ->
      forall unit, unit ∈ law.units -> unit ∈ electricUnits.units := by
    decide
  rcases closure_complete electricUnits_undeclared among (List.prefix_refl _) with
    ⟨reached, entered, symmetric, complete⟩
  exact ⟨keeps, reached, entered, fun left right result leftKnown rightKnown =>
    ⟨symmetric left right result leftKnown rightKnown,
      complete keeps left right result leftKnown rightKnown⟩⟩

/-- A contradicting product takes away one half of a closure and leaves the other. -/
example :
    let contradicting : List (UnitLaw ℚ) :=
      [.product (electricUnit "V" 0) (electricUnit "A" 1) (electricUnit "W" 2),
        .product (electricUnit "V" 0) (electricUnit "A" 1) (electricUnit "Wh" 3)]
    let reached := electricUnits.writeAll (contradicting.flatMap UnitLaw.writes)
    ¬ reached.Gives (electricUnit "V" 0) .times (electricUnit "A" 1) (electricUnit "W" 2) ∧
      reached.Gives (electricUnit "W" 2) .per (electricUnit "V" 0) (electricUnit "A" 1) := by
  decide

end Registry
end QuantityCalculus
