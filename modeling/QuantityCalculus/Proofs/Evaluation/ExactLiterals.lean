import QuantityCalculus.Proofs.Arithmetic.Binary
import QuantityCalculus.Proofs.Arithmetic.Exact
import QuantityCalculus.Proofs.Evaluation.Congruence

namespace QuantityCalculus

/-!
# Binary literals in exact arithmetic

What an expression of the calculator means is what it evaluates to without
rounding.  Its literals are binary numbers, each of which has an exact value, so
the expression is first carried over to the scalars in which it is evaluated,
literal by literal.
-/

/-! ## Changing literals -/

section

variable {R S : Type}

mutual

/-- The expression with every literal changed. -/
def Expr.map (change : R -> S) : Expr R -> Expr S
  | .num value => .num (change value)
  | .var name => .var name
  | .mem => .mem
  | .memAt i => .memAt (i.map change)
  | .func kind x => .func kind (x.map change)
  | .factorial x => .factorial (x.map change)
  | .sqrt x => .sqrt (x.map change)
  | .root x i => .root (x.map change) (i.map change)
  | .abs x => .abs (x.map change)
  | .fraction x y => .fraction (x.map change) (y.map change)
  | .binary op x y => .binary op (x.map change) (y.map change)
  | .binding name x => .binding name (x.map change)
  | .call name arguments => .call name (arguments.map change)
  | .paren x => .paren (x.map change)
  | .marked mark x => .marked mark (x.map change)
  | .equation l r => .equation (l.map change) (r.map change)
  | .declaration name x => .declaration name (x.map change)
  | .target name => .target name

/-- The bindings with every literal changed. -/
def Arguments.map (change : R -> S) : Arguments R -> Arguments S
  | .nil => .nil
  | .cons name value rest => .cons name (value.map change) (rest.map change)

end

theorem Arguments.map_ofList (change : R -> S) (pairs : List (String × Expr R)) :
    (Arguments.ofList pairs).map change =
      .ofList (pairs.map fun pair => (pair.1, pair.2.map change)) := by
  induction pairs with
  | nil => rfl
  | cons pair pairs inductionHypothesis =>
      rw [Arguments.ofList, Arguments.map, inductionHypothesis]
      rfl

/-- Changing literals keeps expressions congruent, by the law between the changed ones. -/
theorem Congruent.map (change : R -> S) {law : Expr R -> Expr R -> Prop} {x y : Expr R}
    (congruent : Congruent law x y) :
    Congruent (Relation.Map law (Expr.map change) (Expr.map change)) (x.map change)
      (y.map change) := by
  induction congruent with
  | law step => exact .law ⟨_, _, step, rfl, rfl⟩
  | refl x => exact .refl _
  | trans _ _ first second => exact .trans first second
  | memAt _ inductionHypothesis => exact .memAt inductionHypothesis
  | func kind _ inductionHypothesis => exact .func kind inductionHypothesis
  | factorial _ inductionHypothesis => exact .factorial inductionHypothesis
  | sqrt _ inductionHypothesis => exact .sqrt inductionHypothesis
  | root index _ inductionHypothesis => exact .root _ inductionHypothesis
  | index radicand _ inductionHypothesis => exact .index _ inductionHypothesis
  | abs _ inductionHypothesis => exact .abs inductionHypothesis
  | numerator below _ inductionHypothesis => exact .numerator _ inductionHypothesis
  | denominator above _ inductionHypothesis => exact .denominator _ inductionHypothesis
  | left op right _ inductionHypothesis => exact .left op _ inductionHypothesis
  | right op left _ inductionHypothesis => exact .right op _ inductionHypothesis
  | paren _ inductionHypothesis => exact .paren inductionHypothesis
  | marked mark _ inductionHypothesis => exact .marked mark inductionHypothesis
  | argument name key before after _ inductionHypothesis =>
      rw [Expr.map, Expr.map, Arguments.map_ofList, Arguments.map_ofList, List.map_append,
        List.map_append]
      exact .argument name key _ _ inductionHypothesis

end

/-! ## Exact values -/

/-- The exact value of a binary number in a field; zero for one that is not finite. -/
def exactValue (K : Type) [Field K] (number : Float) : K :=
  (Scalar.ratio number).numerator / (Scalar.ratio number).denominator

/-- A finite number that is equal to two has the parts of two. -/
theorem Number.ratio_of_eq_two {number : Float} (finite : Number.isFinite number = true)
    (same : Scalar.eq number (Scalar.ofInt 2) = true) : Scalar.ratio number = Ratio.ofInt 2 := by
  have two : Number.parts (Scalar.ofInt 2) = .finite false (Nat.pow 2 52) (-51) := by
    decide
  have compares : Scalar.eq number (Scalar.ofInt 2) =
      number.toModel.unpack.beq (Scalar.ofInt 2 : Float).toModel.unpack := rfl
  rcases Number.unpack_of_finite two with ⟨none, _⟩ | ⟨_, positive, unpacksTwo⟩
  · exact absurd none (by decide)
  · rw [compares, unpacksTwo] at same
    rcases Number.parts_of_isFinite finite with ⟨negative, mantissa, exponent, found⟩
    rcases Number.unpack_of_finite found with ⟨_, unpacks⟩ | ⟨_, still, unpacks⟩
    · rw [unpacks] at same
      cases same
    · rw [unpacks] at same
      cases negative
      · have ordered : (compare exponent (-51)).then (compare mantissa (Nat.pow 2 52)) = .eq :=
          Option.some.inj (eq_of_beq same)
        rcases Ordering.then_eq_eq.mp ordered with ⟨exponents, mantissas⟩
        have ratio : Scalar.ratio number = Ratio.of (Nat.pow 2 52) (Nat.pow 2 51) := by
          show Number.exactRatio number = _
          unfold Number.exactRatio
          rw [found, compare_eq_iff_eq.mp exponents, compare_eq_iff_eq.mp mantissas]
          rfl
        rw [ratio]
        decide
      · cases same

/-- A literal that is equal to two has the exact value two. -/
theorem exactValue_two {K : Type} [Field K] {number : Float}
    (finite : Number.isFinite number = true)
    (same : Scalar.eq number (Scalar.ofInt 2) = true) : exactValue K number = 2 := by
  rw [exactValue, Number.ratio_of_eq_two finite same]
  simp [Ratio.ofInt]

end QuantityCalculus
