import QuantityCalculus.Proofs.Evaluation.ExactLiterals
import QuantityCalculus.Proofs.ReadingBack.Display
import QuantityCalculus.Proofs.Units.RelationTables

namespace QuantityCalculus

open Source

/-!
# What a displayed text means

The displayed text of a tree is read as its regrouped tree.  Two things make the
difference.  A sign that stood in front of a factor of a product now belongs to the
product before it, and a root of index two lost its index.  Neither matters in exact
arithmetic, in any context and for quantities with units as well as for numbers.

This is all as long as no sign stands to the right of a division, a remainder or a
power.  There the displayed text gives only the number minus one to the operator, and
the operand itself to the product that follows.  Counting the products that such an
operator holds in its right operand shows that the two laws cannot make up for it:
they leave the count alone, and regrouping lowers it.
-/

/-! ## Signs that keep their place -/

section

variable {R : Type}

/-- An operator that takes one factor to its right, and no product. -/
def Operator.takesFactor : Operator -> Bool
  | .divide | .modulus | .power => true
  | .add | .subtract | .multiply => false

def Expr.isProduct : Expr R -> Bool
  | .binary .multiply _ _ => true
  | _ => false

mutual

/-- No product stands to the right of an operator that takes one factor.  In a tree that was read,
such a product comes from a minus sign. -/
def Expr.KeepsSigns : Expr R -> Prop
  | .num _ | .var _ | .mem | .target _ => True
  | .memAt x | .func _ x | .factorial x | .sqrt x | .abs x | .paren x | .marked _ x | .binding _ x
  | .declaration _ x => x.KeepsSigns
  | .root x y | .fraction x y | .equation x y => x.KeepsSigns ∧ y.KeepsSigns
  | .binary op x y =>
      x.KeepsSigns ∧ y.KeepsSigns ∧ (op.takesFactor = true -> y.isProduct = false)
  | .call _ arguments => arguments.KeepsSigns

/-- The same of all bindings of a call. -/
def Arguments.KeepsSigns : Arguments R -> Prop
  | .nil => True
  | .cons _ value rest => value.KeepsSigns ∧ rest.KeepsSigns

end

variable [Scalar R]

/-- What keeps its signs and is no product is a single factor. -/
theorem Expr.KeepsSigns.single : (x : Expr R) -> x.KeepsSigns -> x.isProduct = false ->
    x.factors.2 = []
  | .num _, _, _ | .var _, _, _ | .mem, _, _ | .target _, _, _ | .memAt _, _, _ | .func _ _, _, _
  | .factorial _, _, _ | .sqrt _, _, _ | .abs _, _, _ | .paren _, _, _ | .marked _ _, _, _
  | .binding _ _, _, _ | .declaration _ _, _, _ | .fraction _ _, _, _ | .equation _ _, _, _
  | .call _ _, _, _ => rfl
  | .root x i, _, _ => by
      rw [Expr.factors]
      split <;> rfl
  | .binary op x y, keepsSigns, noProduct => by
      cases op with
      | add | subtract => rfl
      | multiply => cases noProduct
      | divide | modulus | power =>
          exact Expr.KeepsSigns.single y keepsSigns.2.1 (keepsSigns.2.2 rfl)

end

/-! ## Congruence -/

/-- The laws by which regrouping changes a tree: a number moves from a factor to the product before
it, and a root of index two is a square root. -/
inductive Regroups : Expr Float -> Expr Float -> Prop
  | sign (value : Float) (left right : Expr Float) :
      Regroups (.binary .multiply left (.binary .multiply (.num value) right))
        (.binary .multiply (.binary .multiply left (.num value)) right)
  | square {value : Float} (radicand : Expr Float) : Number.isFinite value = true ->
      isSquareIndex (.num value) = true ->
      Regroups (.root radicand (.num value)) (.sqrt radicand)

/-- Beside any left factor, the operand of a product can be taken apart into its factors. -/
def TakenApart (x : Expr Float) : Prop :=
  forall left, Congruent Regroups (.binary .multiply left x)
    (multiplied (.binary .multiply left x.factors.1) x.factors.2)

/-- Regrouping the trees of a phrase is congruent to doing nothing. -/
def PhraseRegroups : Phrase Float -> Prop
  | .expression x | .term x => x.KeepsSigns -> Congruent Regroups x x.regrouped
  | .unary x | .power x =>
      x.KeepsSigns -> Congruent Regroups x x.regrouped ∧ TakenApart x
  | .marked x | .primary x =>
      x.KeepsSigns -> Congruent Regroups x x.factors.1 ∧ x.factors.2 = []
  | .bindings arguments => arguments.KeepsSigns ->
      List.Forall₂ (fun first second => first.1 = second.1 ∧
        Congruent Regroups first.2 second.2) arguments.toList arguments.regrouped.toList

/-- Regrouping a root, with its index or without. -/
theorem root_regroups {x i : Expr Float} {places : Nat}
    (writable : i.Writable (ReadsBack places) fun _ => True)
    (radicand : Congruent Regroups x x.regrouped) (index : Congruent Regroups i i.regrouped) :
    Congruent Regroups (.root x i) (Expr.root x i).factors.1 := by
  have inside := Congruent.root i radicand
  rw [Expr.factors]
  split
  · rename_i square
    cases i with
    | num value => exact inside.trans (.law (.square x.regrouped writable.finite square))
    | _ => cases square
  · exact inside.trans (.index x.regrouped index)

/-- A minus sign that keeps its place can be taken apart from its operand. -/
theorem negated_regroups {places : Nat} {x : Expr Float}
    (writable : (negated x).Writable (ReadsBack places) fun _ => True)
    (keepsSigns : (negated x).KeepsSigns)
    (operand : x.Writable (ReadsBack places) (fun _ => True) -> x.KeepsSigns ->
      Congruent Regroups x x.regrouped ∧ TakenApart x) :
    Congruent Regroups (negated x) (negated x).regrouped ∧ TakenApart (negated x) := by
  cases x with
  | num value => exact ⟨.refl _, fun _ => .refl _⟩
  | _ =>
      have takenApart := (operand writable.2 keepsSigns.2.1).2
      refine ⟨takenApart _, ?_⟩
      intro left
      exact Congruent.trans (.law (.sign _ left _)) (takenApart _)

/-- Regrouping what was read is congruent to doing nothing, if all signs keep their places. -/
theorem Source.Derives.regroups {places room : Nat} {lexemes : List Lexeme} {phrase : Phrase Float}
    (derivation : Derives true room lexemes phrase) (writable : PhraseWritable places phrase) :
    PhraseRegroups phrase := by
  induction derivation with
  | term _ inductionHypothesis => exact inductionHypothesis writable
  | @sum _ _ _ op _ x y _ additive _ left right =>
      intro keepsSigns
      have operands := Congruent.binary op (left writable.1 keepsSigns.1)
        (right writable.2 keepsSigns.2.1)
      rcases additive?_sign additive with ⟨_, rfl | rfl⟩
      · exact operands
      · exact operands
  | unary _ inductionHypothesis =>
      exact fun keepsSigns => (inductionHypothesis writable keepsSigns).1
  | @product _ _ _ op _ x y _ multiplicative _ left right =>
      intro keepsSigns
      have first := left writable.1 keepsSigns.1
      rcases right writable.2 keepsSigns.2.1 with ⟨second, takenApart⟩
      rcases multiplicative?_sign multiplicative with ⟨_, rfl | rfl | rfl⟩
      · exact (Congruent.left .multiply y first).trans (takenApart x.regrouped)
      -- Behind the other two signs only a single factor keeps its place.
      all_goals
        have single := Expr.KeepsSigns.single y keepsSigns.2.1 (keepsSigns.2.2 rfl)
        rw [regrouped_single single] at second
        rw [Expr.regrouped, Expr.factors, single]
        exact Congruent.binary _ first second
  | minus _ inductionHypothesis =>
      exact fun keepsSigns => negated_regroups writable keepsSigns inductionHypothesis
  | plus _ inductionHypothesis => exact inductionHypothesis writable
  | power _ inductionHypothesis => exact inductionHypothesis writable
  | marked _ inductionHypothesis =>
      intro keepsSigns
      rcases inductionHypothesis writable keepsSigns with ⟨congruent, single⟩
      refine ⟨?_, ?_⟩
      · rwa [regrouped_single single]
      · intro left
        rw [single]
        exact .right .multiply left congruent
  | @raised _ _ _ x y _ _ left right =>
      intro keepsSigns
      rcases left writable.1 keepsSigns.1 with ⟨first, alone⟩
      have second := (right writable.2 keepsSigns.2.1).1
      have single := Expr.KeepsSigns.single y keepsSigns.2.1 (keepsSigns.2.2 rfl)
      rw [regrouped_single single] at second
      rw [← regrouped_single alone] at first
      have whole := Congruent.binary .power first second
      refine ⟨?_, ?_⟩
      · rw [Expr.regrouped, Expr.factors, single]
        exact whole
      · intro outside
        rw [Expr.factors, single]
        exact .right .multiply outside whole
  | primary _ inductionHypothesis => exact inductionHypothesis writable
  | factorial _ inductionHypothesis =>
      intro keepsSigns
      rcases inductionHypothesis writable keepsSigns with ⟨congruent, single⟩
      rw [← regrouped_single single] at congruent
      exact ⟨.factorial congruent, rfl⟩
  | @unitBracket _ _ _ mark _ _ _ inductionHypothesis =>
      intro keepsSigns
      rcases inductionHypothesis writable.2 keepsSigns with ⟨congruent, single⟩
      rw [← regrouped_single single] at congruent
      exact ⟨.marked mark congruent, rfl⟩
  | number _ => exact fun _ => ⟨.refl _, rfl⟩
  | named _ => exact fun _ => ⟨.refl _, rfl⟩
  | parenthesized _ inductionHypothesis =>
      exact fun keepsSigns => ⟨.paren (inductionHypothesis writable keepsSigns), rfl⟩
  | bars _ inductionHypothesis =>
      exact fun keepsSigns => ⟨.abs (inductionHypothesis writable keepsSigns), rfl⟩
  | fraction _ _ above below =>
      exact fun keepsSigns => ⟨(above writable.1 keepsSigns.1).fraction
        (below writable.2 keepsSigns.2), rfl⟩
  | squareRoot _ inductionHypothesis =>
      exact fun keepsSigns => ⟨.sqrt (inductionHypothesis writable keepsSigns), rfl⟩
  | @root _ _ _ x i _ _ index radicand =>
      intro keepsSigns
      refine ⟨root_regroups writable.2 (radicand writable.1 keepsSigns.1)
        (index writable.2 keepsSigns.2), ?_⟩
      rw [Expr.factors]
      split <;> rfl
  | memory => exact fun _ => ⟨.refl _, rfl⟩
  | memoryAt _ inductionHypothesis =>
      exact fun keepsSigns => ⟨.memAt (inductionHypothesis writable keepsSigns), rfl⟩
  | @function _ _ kind _ _ _ _ inductionHypothesis =>
      exact fun keepsSigns => ⟨.func kind (inductionHypothesis writable keepsSigns), rfl⟩
  | call _ => exact fun _ => ⟨.refl _, rfl⟩
  | callWith name _ inductionHypothesis =>
      exact fun keepsSigns =>
        ⟨.arguments name (inductionHypothesis writable.2.2 keepsSigns), rfl⟩
  | noBindings => exact fun _ => .nil
  | lastBinding _ _ inductionHypothesis =>
      exact fun keepsSigns =>
        .cons ⟨rfl, inductionHypothesis writable.2.1 keepsSigns.1⟩ .nil
  | binding _ _ _ _ _ first rest =>
      exact fun keepsSigns => .cons ⟨rfl, first writable.2.1 keepsSigns.1⟩
        (rest writable.2.2 keepsSigns.2)

/-! ## Signs that lose their place -/

section

variable {R : Type}

mutual

/-- What the operators of an expression contribute, each of them judged by its right operand. -/
def Expr.total (share : Operator -> Expr R -> Nat) : Expr R -> Nat
  | .num _ | .var _ | .mem | .target _ => 0
  | .memAt x | .func _ x | .factorial x | .sqrt x | .abs x | .paren x | .marked _ x | .binding _ x
  | .declaration _ x => x.total share
  | .root x y | .fraction x y | .equation x y => x.total share + y.total share
  | .binary op x y => x.total share + y.total share + share op y
  | .call _ arguments => arguments.total share

/-- What the operators in the bindings of a call contribute. -/
def Arguments.total (share : Operator -> Expr R -> Nat) : Arguments R -> Nat
  | .nil => 0
  | .cons _ value rest => value.total share + rest.total share

end

/-- Counts the products of an expression. -/
def productShare (op : Operator) (_ : Expr R) : Nat :=
  if op = .multiply then 1 else 0

/-- Counts, for each operator that takes one factor, the products in its right operand. -/
def heldShare (op : Operator) (y : Expr R) : Nat :=
  if op.takesFactor then y.total productShare else 0

theorem total_ofList (share : Operator -> Expr R -> Nat) (pairs : List (String × Expr R)) :
    (Arguments.ofList pairs).total share = (pairs.map fun pair => pair.2.total share).sum := by
  induction pairs with
  | nil => rfl
  | cons pair pairs inductionHypothesis =>
      rw [Arguments.ofList, Arguments.total, inductionHypothesis]
      rfl

theorem total_multiplied (share : Operator -> Expr R -> Nat) (left : Expr R)
    (factors : List (Expr R)) :
    (multiplied left factors).total share =
      left.total share + (factors.map fun x => x.total share + share .multiply x).sum := by
  induction factors generalizing left with
  | nil => rfl
  | cons x factors inductionHypothesis =>
      have rest := inductionHypothesis (.binary .multiply left x)
      rw [Expr.total] at rest
      rw [List.map_cons, List.sum_cons]
      exact rest.trans (by omega)

/-- Congruent expressions have equal totals, if both sides of the law have and if congruent right
operands are judged alike. -/
theorem Congruent.total {law : Expr R -> Expr R -> Prop} {share : Operator -> Expr R -> Nat}
    (lawful : forall x y, law x y -> x.total share = y.total share)
    (alike : forall op x y, Congruent law x y -> share op x = share op y) {x y : Expr R}
    (congruent : Congruent law x y) : x.total share = y.total share := by
  induction congruent with
  | law step => exact lawful _ _ step
  | refl x => rfl
  | trans _ _ first second => exact first.trans second
  | memAt _ same | func _ _ same | factorial _ same | sqrt _ same | abs _ same | paren _ same
  | marked _ _ same => exact same
  | root _ _ same | index _ _ same | numerator _ _ same | denominator _ _ same | left _ _ _ same =>
      simp only [Expr.total, same]
  | right op _ congruent same => simp only [Expr.total, same, alike op _ _ congruent]
  | argument name key before after _ same =>
      simp only [Expr.total, total_ofList, List.map_append, List.map_cons, same]

end

/-- Neither law changes the number of products. -/
theorem Congruent.productTotal {x y : Expr Float} (congruent : Congruent Regroups x y) :
    x.total productShare = y.total productShare := by
  refine congruent.total ?_ fun _ _ _ _ => rfl
  intro x y step
  cases step with
  | sign value left right =>
      simp only [Expr.total, productShare, if_true]
      omega
  | square radicand _ _ => rfl

/-- Neither law changes how many products are held. -/
theorem Congruent.heldTotal {x y : Expr Float} (congruent : Congruent Regroups x y) :
    x.total heldShare = y.total heldShare := by
  refine congruent.total ?_ ?_
  · intro x y step
    cases step with
    | sign value left right =>
        simp only [Expr.total, heldShare, Operator.takesFactor, Bool.false_eq_true, if_false]
        omega
    | square radicand _ _ => rfl
  · intro op x y congruent
    simp only [heldShare, congruent.productTotal]

section

variable {R : Type} [Scalar R]

mutual

/-- Regrouping moves products and keeps their number. -/
theorem Expr.productTotal_regrouped : (x : Expr R) ->
    x.regrouped.total productShare = x.total productShare
  | .num _ | .var _ | .mem | .target _ => rfl
  | .memAt x | .func _ x | .factorial x | .sqrt x | .abs x | .paren x | .marked _ x | .binding _ x
  | .declaration _ x => Expr.productTotal_regrouped x
  | .root x i => by
      have radicand := Expr.productTotal_regrouped x
      have index := Expr.productTotal_regrouped i
      rw [Expr.regrouped, Expr.factors]
      split
      · rename_i square
        cases i with
        | num value => exact radicand
        | _ => cases square
      · exact congrArg₂ (· + ·) radicand index
  | .fraction x y | .equation x y =>
      congrArg₂ (· + ·) (Expr.productTotal_regrouped x) (Expr.productTotal_regrouped y)
  | .binary op x y => by
      have left : (multiplied x.factors.1 x.factors.2).total productShare = x.total productShare :=
        Expr.productTotal_regrouped x
      have right : (multiplied y.factors.1 y.factors.2).total productShare = y.total productShare :=
        Expr.productTotal_regrouped y
      have parts := total_multiplied productShare y.factors.1 y.factors.2
      rw [right] at parts
      cases op with
      | add | subtract => exact congrArg₂ (· + · + 0) left right
      | multiply | divide | modulus | power =>
          rw [Expr.regrouped, total_multiplied]
          simp only [Expr.factors, Expr.total, left, parts, List.map_cons, List.sum_cons,
            productShare, reduceCtorEq, if_true, if_false]
          omega
  | .call _ arguments => Arguments.productTotal_regrouped arguments

theorem Arguments.productTotal_regrouped : (arguments : Arguments R) ->
    arguments.regrouped.total productShare = arguments.total productShare
  | .nil => rfl
  | .cons _ value rest =>
      congrArg₂ (· + ·) (Expr.productTotal_regrouped value) (Arguments.productTotal_regrouped rest)

end

/-- A product has more than one factor. -/
theorem not_isProduct_of_single {x : Expr R} (single : x.factors.2 = []) :
    x.isProduct = false := by
  cases x with
  | binary op y z =>
      cases op with
      | multiply => cases single
      | _ => rfl
  | _ => rfl

/-- A number that does not grow, and stays the same only under a condition. -/
def Drops (before after : Nat) (condition : Prop) : Prop :=
  after ≤ before ∧ (before ≤ after -> condition)

omit [Scalar R] in
theorem Drops.both {before after more less : Nat} {condition other : Prop}
    (first : Drops before after condition) (second : Drops more less other) :
    Drops (before + more) (after + less) (condition ∧ other) := by
  have firstBound := first.1
  have secondBound := second.1
  refine ⟨Nat.add_le_add firstBound secondBound, ?_⟩
  intro least
  exact ⟨first.2 (by omega), second.2 (by omega)⟩

/-- Beside an operator that takes one factor, the other factors are let go. -/
theorem Drops.released {op : Operator} {x y : Expr R} (takesFactor : op.takesFactor = true)
    (left : Drops (x.total heldShare) (x.regrouped.total heldShare) x.KeepsSigns)
    (right : Drops (y.total heldShare) (y.regrouped.total heldShare) y.KeepsSigns) :
    Drops ((Expr.binary op x y).total heldShare)
      ((multiplied (.binary op x.regrouped y.factors.1) y.factors.2).total heldShare)
      (Expr.binary op x y).KeepsSigns := by
  have products := total_multiplied productShare y.factors.1 y.factors.2
  have held := total_multiplied heldShare y.factors.1 y.factors.2
  rw [← Expr.regrouped] at products held
  rw [Expr.productTotal_regrouped] at products
  have leftBound := left.1
  have rightBound := right.1
  have share : forall z : Expr R, heldShare op z = z.total productShare :=
    fun _ => if_pos takesFactor
  rw [Drops, total_multiplied]
  simp only [Expr.total, share]
  refine ⟨by omega, ?_⟩
  intro least
  refine ⟨left.2 (by omega), right.2 (by omega), fun _ => not_isProduct_of_single ?_⟩
  have none :
      (y.factors.2.map fun z => z.total productShare + productShare .multiply z).sum = 0 := by
    omega
  cases further : y.factors.2 with
  | nil => rfl
  | cons z rest =>
      rw [further, List.map_cons, List.sum_cons] at none
      have one : productShare .multiply z = 1 := if_pos rfl
      omega

mutual

/-- Regrouping lets go of products that an operator holds, unless all signs keep their places. -/
theorem Expr.heldTotal_regrouped : (x : Expr R) ->
    Drops (x.total heldShare) (x.regrouped.total heldShare) x.KeepsSigns
  | .num _ | .var _ | .mem | .target _ => ⟨Nat.le_refl _, fun _ => trivial⟩
  | .memAt x | .func _ x | .factorial x | .sqrt x | .abs x | .paren x | .marked _ x | .binding _ x
  | .declaration _ x => Expr.heldTotal_regrouped x
  | .root x i => by
      have radicand := Expr.heldTotal_regrouped x
      have index := Expr.heldTotal_regrouped i
      rw [Expr.regrouped, Expr.factors]
      split
      · rename_i square
        cases i with
        | num value => exact ⟨radicand.1, fun least => ⟨radicand.2 least, trivial⟩⟩
        | _ => cases square
      · exact radicand.both index
  | .fraction x y | .equation x y =>
      (Expr.heldTotal_regrouped x).both (Expr.heldTotal_regrouped y)
  | .binary op x y => by
      have left := Expr.heldTotal_regrouped x
      have right := Expr.heldTotal_regrouped y
      have both := left.both right
      cases op with
      | add | subtract =>
          refine ⟨both.1, ?_⟩
          intro least
          exact ⟨(both.2 least).1, (both.2 least).2, nofun⟩
      | multiply =>
          have parts : y.regrouped.total heldShare = _ :=
            total_multiplied heldShare y.factors.1 y.factors.2
          have whole : (Expr.binary .multiply x y).regrouped.total heldShare = _ :=
            total_multiplied heldShare x.regrouped (y.factors.1 :: y.factors.2)
          have none : heldShare .multiply y.factors.1 = 0 := rfl
          have held : (Expr.binary .multiply x y).regrouped.total heldShare =
              x.regrouped.total heldShare + y.regrouped.total heldShare := by
            rw [List.map_cons, List.sum_cons] at whole
            omega
          rw [held]
          refine ⟨both.1, ?_⟩
          intro least
          exact ⟨(both.2 least).1, (both.2 least).2, nofun⟩
      | divide | modulus | power => exact Drops.released rfl left right
  | .call _ arguments => Arguments.heldTotal_regrouped arguments

theorem Arguments.heldTotal_regrouped : (arguments : Arguments R) ->
    Drops (arguments.total heldShare) (arguments.regrouped.total heldShare) arguments.KeepsSigns
  | .nil => ⟨Nat.le_refl _, fun _ => trivial⟩
  | .cons _ value rest =>
      (Expr.heldTotal_regrouped value).both (Arguments.heldTotal_regrouped rest)

end

end

/-- Only a tree in which all signs keep their places is congruent to its regrouped tree. -/
theorem keepsSigns_of_congruent {x : Expr Float} (congruent : Congruent Regroups x x.regrouped) :
    x.KeepsSigns :=
  (Expr.heldTotal_regrouped x).2 (Nat.le_of_eq congruent.heldTotal)

end QuantityCalculus
