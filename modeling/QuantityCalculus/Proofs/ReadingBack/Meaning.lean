import QuantityCalculus.Proofs.Arithmetic.Reals
import QuantityCalculus.Proofs.Evaluation.PlainValue
import QuantityCalculus.Proofs.ReadingBack.Regrouping

namespace QuantityCalculus

open Source

/-!
# Displaying keeps the meaning

In exact arithmetic, multiplying a product by a number is multiplying one of its
factors by this number.  For quantities this takes a little more than associativity,
since two units are multiplied by a relation between them: the number has no unit, so
both ways look for the same relation, and a relation between two units brings no
number of its own.
-/

section

variable {K : Type} [Field K] [Scalar K] [ExactScalar K] {registry : Registry K}

/-! ## Products with numbers -/

omit [Field K] [ExactScalar K] in
@[simp] theorem Quantity.isDimensionless_withValue (quantity : Quantity K) (value : K) :
    (quantity.withValue value).isDimensionless = quantity.isDimensionless := by
  rw [Quantity.isDimensionless, Quantity.unit_withValue]
  rfl

omit [Field K] [ExactScalar K] in
@[simp] theorem Quantity.withValue_withValue (quantity : Quantity K) (first second : K) :
    (quantity.withValue first).withValue second = quantity.withValue second := by
  rw [Quantity.withValue, Quantity.unit_withValue]
  rfl

/-- A number may scale a factor or the whole product. -/
theorem Registry.Coherent.combine_scaled (coherent : registry.Coherent) (value : K)
    (left right : Quantity K) :
    (registry.combine .times (.ofScalar value) right >>= registry.combine .times left) =
      (registry.combine .times left (.ofScalar value) >>= fun scaled =>
        registry.combine .times scaled right) := by
  have number := Quantity.isDimensionless_ofScalar value
  have product : forall a b : K, Operator.multiply.apply a b = a * b := ExactScalar.mul_eq
  have moved : left.base * (value * right.base) = left.base * value * right.base :=
    (mul_assoc _ _ _).symm
  rw [bind_eq_of_ok (Registry.combine_number .times left number), Quantity.base_ofScalar]
  cases rightUnit : right.isDimensionless with
  | true =>
      have whole : ((Quantity.ofScalar value).withValue
          (UnitOperator.times.operator.apply value right.base)).isDimensionless = true := by
        rw [Quantity.isDimensionless_withValue, number]
      rw [Registry.combine_number .times _ rightUnit, Registry.combine_number .times _ rightUnit,
        Quantity.base_ofScalar, bind_eq_of_ok rfl, Registry.combine_number .times _ whole]
      simp only [Quantity.withValue_withValue, Quantity.base_withValue, UnitOperator.operator,
        product, moved]
  | false =>
      rw [Registry.number_combine .times number rightUnit, Quantity.base_ofScalar,
        bind_eq_of_ok rfl]
      cases leftUnit : left.isDimensionless with
      | true =>
          rw [Registry.number_combine .times leftUnit
              ((Quantity.isDimensionless_withValue _ _).trans rightUnit),
            Registry.number_combine .times
              ((Quantity.isDimensionless_withValue _ _).trans leftUnit) rightUnit]
          simp only [Quantity.withValue_withValue, Quantity.base_withValue, UnitOperator.operator,
            product, moved]
      | false =>
          simp only [Registry.combine, Quantity.isDimensionless_withValue, rightUnit, leftUnit,
            Bool.false_eq_true, if_false, Quantity.unit_withValue, Quantity.base_withValue]
          cases found : registry.relation? left.unit ⟨some right.unit.label, .times⟩ with
          | none => rfl
          | some relation =>
              rcases coherent.relation_fits found with ⟨times, noNumber⟩
              simp only [Registry.apply, times, noNumber (Option.some_ne_none _),
                Option.getD_none, UnitOperator.operator, product, moved]

/-! ## Both laws are harmless -/

/-- Trees that differ by one of the laws evaluate alike, literals taken at their exact values. -/
theorem regroups_harmless {environment : Environment K} (coherent : environment.registry.Coherent) :
    Harmless environment
      (Relation.Map Regroups (Expr.map (exactValue K)) (Expr.map (exactValue K))) := by
  rintro deeper trail scopes scope _ _ ⟨x, y, law, rfl, rfl⟩
  cases law with
  | sign value left right =>
      simp only [Expr.map, evaluateWith, Environment.binary]
      cases evaluateWith environment deeper trail scopes scope (left.map (exactValue K)) with
      | error failure => rfl
      | ok first =>
          cases evaluateWith environment deeper trail scopes scope (right.map (exactValue K)) with
          | error failure =>
              have number := Quantity.isDimensionless_ofScalar (exactValue K value)
              simp only [bind, Except.bind, Registry.combine_number .times first number]
          | ok second => exact coherent.combine_scaled (exactValue K value) first second
  | @square value radicand finite square =>
      have two : exactValue K value = Scalar.ofInt 2 := by
        rw [exactValue_two finite square, ExactScalar.ofInt_eq]
        norm_num
      simp only [Expr.map, evaluateWith, two]
      rfl

end

/--
The displayed text of an expression that was read is read again, unless it is too
long, and what it is read as is the regrouped tree.  This tree follows from the
displayed one by the two laws of regrouping exactly if all signs keep their places.
Then both evaluate alike in exact arithmetic, to the same quantity or with the same
failure, in every context.
-/
theorem displayed_text_keeps_meaning {places : Nat} {source : String} {tree : Expr Float}
    (accepted : parseExpression source = .ok tree)
    (writable : tree.Writable (ReadsBack places) fun _ => True) :
    parseExpression (tree.text places) =
        (if (tree.plain places).length ≤ lengthLimit then .ok tree.regrouped
          else .error (.tooLong lengthLimit)) ∧
      (tree.KeepsSigns <-> Congruent Regroups tree tree.regrouped) ∧
      (tree.KeepsSigns -> forall (K : Type) [Field K] [Scalar K] [ExactScalar K]
        (environment : Environment K) (scopes : Scopes K) (scope : ScopeId),
        environment.registry.Coherent ->
        evaluate environment scopes scope (tree.regrouped.map (exactValue K)) =
          evaluate environment scopes scope (tree.map (exactValue K))) := by
  have regroups : tree.KeepsSigns -> Congruent Regroups tree tree.regrouped := by
    rcases parseExpression_derives accepted with ⟨lexemes, _, derivation⟩
    exact derivation.regroups writable
  refine ⟨parseExpression_text accepted writable, ⟨regroups, keepsSigns_of_congruent⟩, ?_⟩
  intro keepsSigns K _ _ _ environment scopes scope coherent
  have congruent := (regroups keepsSigns).map (exactValue K)
  exact (evaluate_congruent (regroups_harmless coherent) congruent scopes scope).symm

/-- What is read from `a*-(b)-root[2](x)`, with a sign in front of a factor and a root of index
two. -/
def signedProduct : Expr Float :=
  .binary .subtract
    (.binary .multiply (.var "a")
      (.binary .multiply (.num (Scalar.ofInt (-1))) (.paren (.var "b"))))
    (.root (.var "x") (.num (Number.readSpelling ['2'])))

theorem signedProduct_read : parseExpression "a*-(b)-root[2](x)" = .ok signedProduct := by
  have read : (parseExpression (R := Float) "a*-(b)-root[2](x)").toOption = some signedProduct := by
    decide +kernel
  exact eq_ok_of_toOption read

theorem signedProduct_writable : signedProduct.Writable (ReadsBack 15) fun _ => True := by
  have one : ReadsBack 15 (Scalar.ofInt (-1)) :=
    ⟨by decide +kernel, by decide +kernel, by decide +kernel⟩
  have two : ReadsBack 15 (Number.readSpelling ['2']) :=
    ⟨by decide +kernel, by decide +kernel, by decide +kernel⟩
  exact ⟨⟨trivial, one, trivial⟩, trivial, two⟩

theorem signedProduct_keepsSigns : signedProduct.KeepsSigns := by
  have multiply : ¬ Operator.multiply.takesFactor = true := by decide
  have subtract : ¬ Operator.subtract.takesFactor = true := by decide
  exact ⟨⟨trivial, ⟨trivial, trivial, (absurd · multiply)⟩, (absurd · multiply)⟩,
    ⟨trivial, trivial⟩, (absurd · subtract)⟩

/-- It is displayed as `a*-1*(b)-sqrt(x)`. -/
theorem displayed_text_keeps_meaning_signedProduct :
    signedProduct.text 15 = "a*-1*(b)-sqrt(x)" ∧
      parseExpression "a*-1*(b)-sqrt(x)" = .ok signedProduct.regrouped ∧
      forall (environment : Environment ℝ) (scopes : Scopes ℝ) (scope : ScopeId),
        environment.registry.Coherent ->
        evaluate environment scopes scope (signedProduct.regrouped.map (exactValue ℝ)) =
          evaluate environment scopes scope (signedProduct.map (exactValue ℝ)) := by
  have text : signedProduct.text 15 = "a*-1*(b)-sqrt(x)" := by decide +kernel
  have short : (signedProduct.plain 15).length ≤ lengthLimit := by decide +kernel
  rcases displayed_text_keeps_meaning signedProduct_read signedProduct_writable with
    ⟨reads, _, means⟩
  rw [text, if_pos short] at reads
  exact ⟨text, reads, means signedProduct_keepsSigns ℝ⟩

/-- What is read from `2^-(x)`, with a sign to the right of a power. -/
def signedPower : Expr Float :=
  .binary .power (.num (Number.readSpelling ['2']))
    (.binary .multiply (.num (Scalar.ofInt (-1))) (.paren (.var "x")))

/-- It is displayed as `2^-1*(x)`, which is one at two instead of a quarter. -/
theorem displayed_text_changes_signedPower :
    parseExpression "2^-(x)" = .ok signedPower ∧ signedPower.text 15 = "2^-1*(x)" ∧
      parseExpression "2^-1*(x)" = .ok signedPower.regrouped ∧
      IsNumber (Environment.initial Registry.empty) (assignment [("x", (2 : ℝ))]) 0
        (signedPower.map (exactValue ℝ)) (1 / 4) ∧
      IsNumber (Environment.initial Registry.empty) (assignment [("x", (2 : ℝ))]) 0
        (signedPower.regrouped.map (exactValue ℝ)) 1 := by
  have read : (parseExpression (R := Float) "2^-(x)").toOption = some signedPower := by
    decide +kernel
  have again : (parseExpression (R := Float) "2^-1*(x)").toOption = some signedPower.regrouped := by
    decide +kernel
  have ratios : Scalar.ratio (Number.readSpelling ['2'] : Float) = ⟨2, 1⟩ ∧
      Scalar.ratio (Scalar.ofInt (-1) : Float) = ⟨-1, 1⟩ := by
    decide +kernel
  have two : exactValue ℝ (Number.readSpelling ['2']) = 2 := by
    rw [exactValue, ratios.1]
    norm_num
  have minusOne : exactValue ℝ (Scalar.ofInt (-1)) = -1 := by
    rw [exactValue, ratios.2]
    norm_num
  have literal : forall value : ℝ, IsNumber (Environment.initial Registry.empty)
      (assignment [("x", (2 : ℝ))]) 0 (.num value) value :=
    isNumber_num
  have x : IsNumber (Environment.initial Registry.empty) (assignment [("x", (2 : ℝ))]) 0
      (.paren (.var "x")) 2 :=
    isNumber_var_assignment rfl rfl rfl
  have quarter : Operator.power.apply 2 (Operator.multiply.apply (-1) 2) = (1 / 4 : ℝ) := by
    show (2 : ℝ) ^ ((-1 : ℝ) * 2) = 1 / 4
    rw [show (-1 : ℝ) * 2 = ((-2 : ℤ) : ℝ) by norm_num, Real.rpow_intCast]
    norm_num
  have whole : Operator.multiply.apply (Operator.power.apply 2 (-1)) 2 = (1 : ℝ) := by
    show (2 : ℝ) ^ (-1 : ℝ) * 2 = 1
    rw [Real.rpow_neg_one]
    norm_num
  have tree : signedPower.map (exactValue ℝ) =
      .binary .power (.num 2) (.binary .multiply (.num (-1)) (.paren (.var "x"))) := by
    rw [← two, ← minusOne]
    rfl
  have reread : signedPower.regrouped.map (exactValue ℝ) =
      .binary .multiply (.binary .power (.num 2) (.num (-1))) (.paren (.var "x")) := by
    rw [← two, ← minusOne]
    rfl
  rw [tree, reread]
  refine ⟨eq_ok_of_toOption read, by decide +kernel, eq_ok_of_toOption again, ?_, ?_⟩
  · have value := (literal 2).binary .power ((literal (-1)).binary .multiply x)
    rw [quarter] at value
    exact value
  · have value := ((literal 2).binary .power (literal (-1))).binary .multiply x
    rw [whole] at value
    exact value

end QuantityCalculus
