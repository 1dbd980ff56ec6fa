import Mathlib.Algebra.Group.Int.Defs
import Mathlib.Algebra.Group.Prod
import Mathlib.Algebra.Group.TypeTags.Basic
import QuantityCalculus.Proofs.Arithmetic.Rationals
import QuantityCalculus.Proofs.Units.Documented

namespace QuantityCalculus

/-!
# Dimensions

Units are multiplied and divided by looking up a relation that someone declared, or one of
its closure.  The declarations say what the products and quotients of some units are; read
as equations over an abelian group, they restrict what the dimensions of the units can be.

Every entry of every table follows from these equations, in every registry that can be
made: whatever dimensions satisfy the declarations, a product has the product of the
dimensions and a quotient their quotient.  Later declarations may write over an entry, and
units may be replaced by others of the same label; the entry that is found was written by
some declaration.

A dimension belongs to the label of a unit, since units of one label are the same unit.
-/

variable {R G : Type*} [CommGroup G]

/-- What an operation on units does to their dimensions. -/
def UnitOperator.on (op : UnitOperator) (left right : G) : G :=
  match op with
  | .times => left * right
  | .per => left / right

/-! ## Equations -/

section

variable {R : Type} (dimension : UnitLabel -> G)

/-- A write of an entry that dimensions satisfy; scalings ask nothing of them. -/
def RelationWrite.Lawful (write : RelationWrite R) : Prop :=
  forall label, write.key.other = some label ->
    dimension write.relation.result.label =
      write.key.op.on (dimension write.unit.label) (dimension label)

/-- Dimensions that satisfy the equation of a declared product or quotient. -/
def Registry.ResolvedDeclaration.SatisfiedBy (resolved : Registry.ResolvedDeclaration R) : Prop :=
  forall operand, operand ∈ resolved.operand ->
    dimension resolved.result.label =
      resolved.declaration.op.on (dimension resolved.subject.label) (dimension operand.label)

end

section

variable {R : Type} {dimension : UnitLabel -> G}

theorem RelationWrite.lawful_pair {left right result : UnitOfMeasure} {op : UnitOperator} :
    (RelationWrite.pair left op right result : RelationWrite R).Lawful dimension <->
      dimension result.label = op.on (dimension left.label) (dimension right.label) := by
  simp [RelationWrite.Lawful, RelationWrite.pair]

theorem RelationWrite.lawful_scaling {source target : UnitOfMeasure} {op : UnitOperator}
    {factor : R} : (RelationWrite.scaling source op factor target).Lawful dimension :=
  nofun

/-- The closure of a declaration follows from its equation. -/
theorem Registry.ResolvedDeclaration.SatisfiedBy.lawful
    {resolved : Registry.ResolvedDeclaration R} (satisfied : resolved.SatisfiedBy dimension) :
    forall write, write ∈ resolved.writes -> write.Lawful dimension := by
  rcases resolved with ⟨⟨symbol, op, written, outcome⟩, subject, operand, result⟩
  cases written with
  | factor factor =>
      intro write member
      simp only [writes, List.mem_cons, List.not_mem_nil, or_false] at member
      rcases member with rfl | rfl
      · exact RelationWrite.lawful_scaling
      · exact RelationWrite.lawful_scaling
  | unit other =>
      intro write member
      cases operand with
      | none => cases member
      | some operand =>
          have equation := satisfied operand rfl
          cases op with
          | times =>
              simp only [UnitOperator.on] at equation
              simp only [writes, List.mem_cons, List.not_mem_nil, or_false] at member
              rcases member with rfl | rfl | rfl | rfl <;> rw [RelationWrite.lawful_pair] <;>
                simp only [UnitOperator.on]
              · exact equation
              · rw [equation, mul_comm]
              · rw [equation, mul_div_cancel_left]
              · rw [equation, mul_div_cancel_right]
          | per =>
              simp only [UnitOperator.on] at equation
              simp only [writes, List.mem_cons, List.not_mem_nil, or_false] at member
              rcases member with rfl | rfl | rfl | rfl <;> rw [RelationWrite.lawful_pair] <;>
                simp only [UnitOperator.on]
              · exact equation
              · rw [equation, div_div_cancel]
              · rw [equation, div_mul_cancel]
              · rw [equation, mul_div_cancel]

end

namespace Registry

section

variable {R : Type}

/-- Every entry of every table states an equation that dimensions satisfy. -/
def Dimensioned (dimension : UnitLabel -> G) (registry : Registry R) : Prop :=
  forall unit label op relation, registry.relation? unit ⟨some label, op⟩ = some relation ->
    dimension relation.result.label = op.on (dimension unit.label) (dimension label)

/-- What is found under a key was written there by some declaration. -/
theorem Journal.dimensioned {registry : Registry R} {log : List (ResolvedDeclaration R)}
    {dimension : UnitLabel -> G} (journal : registry.Journal log)
    (satisfied : forall resolved, resolved ∈ log -> resolved.SatisfiedBy dimension) :
    registry.Dimensioned dimension := by
  intro unit label op relation found
  rw [journal.tells] at found
  rcases of_lastWrite found with ⟨write, written, ⟨rfl, key⟩, rfl⟩
  rcases List.mem_flatMap.mp written with ⟨resolved, inLog, written⟩
  have lawful := (satisfied resolved inLog).lawful write written label
  rw [key] at lawful
  exact lawful rfl

end

/-! ## Registries with everything that was ever declared -/

section

variable {R : Type} [Scalar R] {places : Nat}

/-- The registries that the operations make from the empty one, with the catalogs that are not in
force yet and with all declarations that were accepted, in order. -/
inductive Logged (places : Nat) :
    Registry R -> List (String × Catalog R) -> List (ResolvedDeclaration R) -> Prop
  | empty : Logged places .empty [] []
  | defineUnit {registry changed : Registry R} {finished : List (String × Catalog R)}
      {log : List (ResolvedDeclaration R)} {catalog symbol name : String} {unit : UnitOfMeasure} :
      Logged places registry finished log ->
      registry.defineUnit catalog symbol name = .ok (unit, changed) ->
      Logged places changed finished log
  | defineRelation {registry changed : Registry R} {finished : List (String × Catalog R)}
      {log : List (ResolvedDeclaration R)} {catalog line : String} {note : Note R} :
      Logged places registry finished log -> registry.noteOf places catalog line = .ok note ->
      registry.defineRelation places catalog line = .ok changed ->
      Logged places changed finished (log ++ [note.resolved])
  | finish {registry changed : Registry R} {finished : List (String × Catalog R)}
      {log resolved : List (ResolvedDeclaration R)} {batch : UnitBatch R} {catalog : Catalog R} :
      Logged places registry finished log -> batch.Collected places ->
      batch.declarations.mapM (resolveDeclaration
        (batch.unitFor (UnitBatch.createUnits batch.catalog batch.units registry).1 registry)) =
          .ok resolved ->
      batch.finish registry = .ok (catalog, changed) ->
      Logged places changed ((batch.catalog, catalog) :: finished) (log ++ resolved)
  | addCatalog {registry : Registry R} {before after : List (String × Catalog R)}
      {log : List (ResolvedDeclaration R)} {name : String} {catalog : Catalog R} :
      Logged places registry (before ++ (name, catalog) :: after) log ->
      Logged places { registry with catalogs := registry.catalogs.set name catalog }
        (before ++ after) log
  | removeCatalog {registry changed : Registry R} {finished : List (String × Catalog R)}
      {log : List (ResolvedDeclaration R)} {name : String} :
      Logged places registry finished log -> registry.removeCatalog name = .ok changed ->
      Logged places changed finished log

variable {registry changed : Registry R} {finished : List (String × Catalog R)}
  {log : List (ResolvedDeclaration R)}

theorem Logged.reachable (logged : Logged places registry finished log) :
    Reachable places registry finished := by
  induction logged with
  | empty => exact .empty
  | defineUnit _ defined inductionHypothesis => exact inductionHypothesis.defineUnit defined
  | defineRelation _ _ defined inductionHypothesis =>
      exact inductionHypothesis.defineRelation defined
  | finish _ collected _ finishing inductionHypothesis =>
      exact inductionHypothesis.finish collected finishing
  | addCatalog _ inductionHypothesis => exact inductionHypothesis.addCatalog
  | removeCatalog _ removed inductionHypothesis => exact inductionHypothesis.removeCatalog removed

/-- A batch that is finished logs the declarations that it resolved. -/
theorem Logged.finish_batch (logged : Logged places registry finished log) {batch : UnitBatch R}
    (collected : batch.Collected places) {catalog : Catalog R}
    (finishing : batch.finish registry = .ok (catalog, changed)) :
    ∃ resolved, Logged places changed ((batch.catalog, catalog) :: finished) (log ++ resolved) := by
  rcases UnitBatch.of_finish finishing with ⟨resolved, named, _⟩
  exact ⟨resolved, logged.finish collected named finishing⟩

theorem Logged.installAll (logged : Logged places registry finished log)
    {catalogs : List (String × List (String × String))}
    (installed : registry.installAll places catalogs = .ok changed) :
    ∃ longer, Logged places changed finished longer := by
  induction catalogs generalizing registry log with
  | nil =>
      cases installed
      exact ⟨log, logged⟩
  | cons first rest inductionHypothesis =>
      rcases bind_eq_ok.mp installed with ⟨batch, added, installed⟩
      rcases bind_eq_ok.mp installed with ⟨middle, one, installed⟩
      have collected := (UnitBatch.Collected.start first.1 true).addFiles added
      rcases bind_eq_ok.mp one with ⟨⟨catalog, related⟩, finishing, one⟩
      cases one
      rcases logged.finish_batch collected finishing with ⟨resolved, longer⟩
      have waiting : Logged places related ([] ++ (batch.catalog, catalog) :: finished)
          (log ++ resolved) := longer
      exact inductionHypothesis waiting.addCatalog installed

/-- Every registry that can be made has a log. -/
theorem Reachable.logged (reachable : Reachable places registry finished) :
    ∃ log, Logged places registry finished log := by
  induction reachable with
  | empty => exact ⟨[], .empty⟩
  | withBuiltIns _ installed inductionHypothesis =>
      rcases inductionHypothesis with ⟨log, logged⟩
      exact logged.installAll installed
  | defineUnit _ defined inductionHypothesis =>
      rcases inductionHypothesis with ⟨log, logged⟩
      exact ⟨log, logged.defineUnit defined⟩
  | defineRelation before defined inductionHypothesis =>
      rcases inductionHypothesis with ⟨log, logged⟩
      rcases of_defineRelation defined with
        ⟨catalog, declaration, resolved, found, parsed, named, _⟩
      have noted : noteOf _ places _ _ = .ok ⟨_, resolved⟩ :=
        (bind_eq_of_ok found).trans ((bind_eq_of_ok parsed).trans (bind_eq_of_ok named))
      exact ⟨_, logged.defineRelation noted defined⟩
  | finish _ collected finishing inductionHypothesis =>
      rcases inductionHypothesis with ⟨log, logged⟩
      rcases logged.finish_batch collected finishing with ⟨resolved, longer⟩
      exact ⟨_, longer⟩
  | addCatalog _ inductionHypothesis =>
      rcases inductionHypothesis with ⟨log, logged⟩
      exact ⟨log, logged.addCatalog⟩
  | removeCatalog _ removed inductionHypothesis =>
      rcases inductionHypothesis with ⟨log, logged⟩
      exact ⟨log, logged.removeCatalog removed⟩

/-- The tables of a registry are told by its log. -/
theorem Logged.journal (logged : Logged places registry finished log) : registry.Journal log := by
  induction logged with
  | empty => exact empty_journal
  | defineUnit before defined inductionHypothesis =>
      exact (definesUnit before.reachable.sound defined).journal inductionHypothesis
  | @defineRelation _ _ _ _ name line note before noted defined inductionHypothesis =>
      rcases declaresRelation before.reachable.sound defined with
        ⟨catalog, declaration, resolved, inForce, parsed, named, declares⟩
      have same : noteOf _ places name line = .ok ⟨name, resolved⟩ :=
        (bind_eq_of_ok (catalog_eq_ok.mpr inForce)).trans
          ((bind_eq_of_ok parsed).trans (bind_eq_of_ok named))
      cases noted.symm.trans same
      exact declares.journal inductionHypothesis
  | finish before collected named finishing inductionHypothesis =>
      rcases UnitBatch.of_finish finishing with ⟨_, namedSame, rfl, _⟩
      cases named.symm.trans namedSame
      have known := UnitBatch.knowsNamed_of_mapM before.reachable.sound.held collected named
      exact (inductionHypothesis.createUnits _ _).declareAll known
  | addCatalog _ inductionHypothesis => exact inductionHypothesis.recatalog _
  | removeCatalog _ removed inductionHypothesis =>
      rcases bind_eq_ok.mp removed with ⟨_, _, removed⟩
      cases removed
      exact inductionHypothesis.recatalog _

/--
Unit arithmetic is dimensionally sound: in every registry that can be made, dimensions that
satisfy all accepted declarations satisfy all entries, and where two quantities with units
are combined, only a product or a quotient results, and its dimension is that of the
operands' dimensions.
-/
theorem dimensions_sound {G : Type*} [CommGroup G] {dimension : UnitLabel -> G}
    (logged : Logged places registry finished log)
    (satisfied : forall resolved, resolved ∈ log -> resolved.SatisfiedBy dimension) :
    registry.Dimensioned dimension ∧
      forall (op : Operator) (left right result : Quantity R), left.isDimensionless = false ->
        right.isDimensionless = false -> registry.combineBy op left right = .ok result ->
          ∃ unitOp, UnitOperator.ofOperator? op = some unitOp ∧
            dimension result.unit.label =
              unitOp.on (dimension left.unit.label) (dimension right.unit.label) := by
  have dimensioned := logged.journal.dimensioned satisfied
  refine ⟨dimensioned, fun op left right result leftUnit rightUnit combined => ?_⟩
  unfold combineBy at combined
  split at combined
  · rename_i unitOp isUnitOp
    refine ⟨unitOp, isUnitOp, ?_⟩
    unfold combine at combined
    rw [if_neg (by simp [rightUnit]), if_neg (by simp [leftUnit])] at combined
    split at combined
    · cases combined
    · rename_i relation found
      cases combined
      rw [Quantity.unit_normalize]
      exact dimensioned _ _ _ _ found
  · cases combined

end

/-! ## Speed -/

/-- Metres, seconds and a unit of speed, the note of its declaration and the registry after it. -/
def speedDeclared : Except Failure (Note ℚ × Registry ℚ) := do
  let (_, registry) ← (empty : Registry ℚ).defineUnit "k" "m" ""
  let (_, registry) ← registry.defineUnit "k" "s" ""
  let (_, registry) ← registry.defineUnit "k" "v" ""
  let note ← registry.noteOf 15 "k" "m/s=v"
  let registry ← registry.defineRelation 15 "k" "m/s=v"
  .ok (note, registry)

/-- The note and the registry that result. -/
def speedNoted : Note ℚ × Registry ℚ :=
  speedDeclared.toOption.getD (⟨"", ⟨⟨"", .times, .unit "", ""⟩, .dimensionless, none,
    .dimensionless⟩⟩, empty)

/-- Length and time as the exponents of their dimensions. -/
def speedDimension (label : UnitLabel) : Multiplicative (ℤ × ℤ) :=
  match label.symbol with
  | "m" => .ofAdd (1, 0)
  | "s" => .ofAdd (0, 1)
  | "v" => .ofAdd (1, -1)
  | _ => 1

theorem dimensions_sound_speed :
    ∃ product, speedNoted.2.combineBy .multiply ⟨6, ⟨⟨"k", "v"⟩, 2⟩, .plain⟩
        ⟨2, ⟨⟨"k", "s"⟩, 1⟩, .plain⟩ = .ok product ∧
      speedDimension product.unit.label = .ofAdd (1, 0) := by
  have made : speedDeclared = .ok speedNoted := eq_ok_of_isSome _ (by decide +kernel)
  rcases bind_eq_ok.mp made with ⟨⟨metre, first⟩, metreDefined, made⟩
  rcases bind_eq_ok.mp made with ⟨⟨second, next⟩, secondDefined, made⟩
  rcases bind_eq_ok.mp made with ⟨⟨speed, units⟩, speedDefined, made⟩
  rcases bind_eq_ok.mp made with ⟨note, noted, made⟩
  rcases bind_eq_ok.mp made with ⟨related, defined, made⟩
  have logged : Logged 15 related [] ([] ++ [note.resolved]) :=
    (((Logged.empty.defineUnit metreDefined).defineUnit secondDefined).defineUnit
      speedDefined).defineRelation noted defined
  have same : (note, related) = speedNoted := Except.ok.inj made
  have sameNote : note = speedNoted.1 := congrArg Prod.fst same
  have sameRegistry : related = speedNoted.2 := congrArg Prod.snd same
  have satisfied : speedNoted.1.resolved.SatisfiedBy speedDimension := by
    have equation : forall operand, operand ∈ speedNoted.1.resolved.operand ->
        speedDimension speedNoted.1.resolved.result.label =
          speedNoted.1.resolved.declaration.op.on
            (speedDimension speedNoted.1.resolved.subject.label)
            (speedDimension operand.label) := by
      decide +kernel
    exact equation
  have combines : (speedNoted.2.combineBy .multiply ⟨6, ⟨⟨"k", "v"⟩, 2⟩, .plain⟩
      ⟨2, ⟨⟨"k", "s"⟩, 1⟩, .plain⟩).toOption.isSome := by
    decide +kernel
  rcases Option.isSome_iff_exists.mp combines with ⟨product, succeeded⟩
  have combined := eq_ok_of_toOption succeeded
  refine ⟨product, combined, ?_⟩
  rw [sameNote, sameRegistry] at logged
  rcases (dimensions_sound logged (by simpa using satisfied)).2 _ _ _ _ rfl rfl combined with
    ⟨unitOp, isUnitOp, dimension⟩
  cases isUnitOp
  exact dimension

end Registry
end QuantityCalculus
