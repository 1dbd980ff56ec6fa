import QuantityCalculus.Proofs.Arithmetic.Reals
import QuantityCalculus.Proofs.Evaluation.PlainValue
import QuantityCalculus.Proofs.Solution.Ways
import QuantityCalculus.Solution

namespace QuantityCalculus

/-!
# Solving is exact inversion

In `y = E` the way from the root of `E` to the target is undone outermost
first.  What has been undone so far, the current expression, stands for the
part of `E` that the way has reached: it has the value of that part exactly
when `y` has the value of `E`.  This equivalence is the invariant of the walk.
One step keeps it for each kind of parent and each of its slots, and at the
end of the way the part reached is the target itself.

The equivalence is one of plain values in a context that gives all expressions
concerned a value.  Three things are asked of that context.  No division that
`E` or its solution writes has a divisor of value zero.  Wherever the way
passes a power, a root, a logarithm or a circular function, that function and
the one that replaces it undo each other at the two values met there, once in
each direction.  Everything beside the way is arbitrary: it may call functions,
read the memory or carry units, since it is evaluated in the same context on
both sides.
-/

/-! ## Parents that can be undone -/

section

variable {R : Type}

/-- A parent that can be undone for the child in a slot: sums, products, quotients and
parentheses for every child, powers for their base, roots for their radicand, and the
functions that have an inverse. -/
def isUndoable : PathStep R -> Bool
  | (.binary op _ _, slot) =>
      match op with
      | .add | .subtract | .multiply | .divide => true
      | .power => decide (slot = .x)
      | .modulus => false
  | (.fraction _ _, _) | (.paren _, _) | (.sqrt _, _) => true
  | (.root _ _, slot) => decide (slot = .x)
  | (.func kind _, _) => decide (kind = .log) || kind.inverse?.isSome
  | _ => false

theorem undoFunction_ok_iff (kind : FunctionKind) (current : Expr R) :
    (∃ next, undoFunction kind current = .ok next) <->
      (decide (kind = .log) || kind.inverse?.isSome) = true := by
  cases kind <;> simp [undoFunction, FunctionKind.inverse?]

theorem quotient?_eq_some {expr x y : Expr R} (quotient : quotient? expr = some (x, y)) :
    expr = .fraction x y ∨ expr = .binary .divide x y := by
  unfold quotient? at quotient
  split at quotient
  · cases quotient
    exact Or.inl rfl
  · cases quotient
    exact Or.inr rfl
  · cases quotient

variable [Scalar R]

/-- A solution is what undoing the way to the target makes of the substitute. -/
theorem solve_eq_ok {expr solved : Expr R} {target substitute : String} :
    solve expr target substitute = .ok solved <->
      ∃ path, expr.pathTo? target = some path ∧ undoPath path (.var substitute) = .ok solved := by
  unfold solve
  cases expr.pathTo? target <;> simp

/-- Undoing a step succeeds for exactly the parents that can be undone. -/
theorem undoStep_ok_iff (parent : Expr R) (slot : Slot) (child current : Expr R)
    (member : (slot, child) ∈ parent.children) :
    (∃ next, undoStep (parent, slot) current = .ok next) <->
      isUndoable (parent, slot) = true := by
  cases parent with
  | binary op x y =>
      simp only [Expr.children, List.mem_cons, Prod.mk.injEq, List.not_mem_nil, or_false] at member
      rcases member with ⟨rfl, rfl⟩ | ⟨rfl, rfl⟩ <;>
        cases op <;> simp [undoStep, undoLeft, undoRight, isUndoable]
  | fraction x y =>
      by_cases first : slot = .x <;> simp [undoStep, isUndoable, first]
  | root x index =>
      by_cases first : slot = .x <;> simp [undoStep, isUndoable, first]
  | func kind x => exact undoFunction_ok_iff kind current
  | _ => simp [undoStep, isUndoable]

/-- A way of parents that can be undone is undone. -/
theorem undoPath_ok_of_undoable {name : String} {path : List (PathStep R)} {expr : Expr R}
    (found : expr.pathTo? name = some path)
    (undoable : forall step, step ∈ path -> isUndoable step = true) (current : Expr R) :
    ∃ solved, undoPath path current = .ok solved := by
  induction path generalizing expr current with
  | nil => exact ⟨current, rfl⟩
  | cons step rest inductionHypothesis =>
      rcases Expr.of_pathTo?_cons found with ⟨slot, child, rfl, member, inner⟩
      obtain ⟨next, undone⟩ := (undoStep_ok_iff expr slot child current member).mpr
        (undoable _ List.mem_cons_self)
      obtain ⟨solved, rest⟩ := inductionHypothesis inner
        (fun step later => undoable step (List.mem_cons_of_mem _ later)) next
      exact ⟨solved, bind_eq_ok.mpr ⟨next, undone, rest⟩⟩

end

/-! ## What is asked of a context -/

section

variable {K : Type} [Field K] [Scalar K]

/-- No division written in the expression has a divisor of value zero.  The arguments and
bodies of calls are not looked at. -/
def Expr.DividesSafely (meaning : Expr K -> K -> Prop) : Expr K -> Prop
  | .fraction x y => x.DividesSafely meaning ∧ y.DividesSafely meaning ∧ ¬ meaning y 0
  | .binary op x y =>
      x.DividesSafely meaning ∧ y.DividesSafely meaning ∧ (op = .divide -> ¬ meaning y 0)
  | .root x index => x.DividesSafely meaning ∧ index.DividesSafely meaning
  | .memAt x | .func _ x | .factorial x | .sqrt x | .abs x | .paren x | .marked _ x =>
      x.DividesSafely meaning
  | _ => True

/-- A function and its replacement undo each other: the function at one value, and the
replacement at another. -/
def InvertEachOther (function replacement : K -> K) (inner outer : K) : Prop :=
  replacement (function inner) = inner ∧ function (replacement outer) = outer

/-- A power with the reciprocal of an exponent, which is how roots are computed. -/
def rootWith (index value : K) : K :=
  Scalar.pow value (Scalar.div (Scalar.ofInt 1) index)

/-- A parent on the way and what replaces it undo each other, the parent at the value of the
child and the replacement at the value of the current expression. -/
def PairInverts (meaning : Expr K -> K -> Prop) (mode : AngleMode) (inner outer : K) :
    Expr K -> Prop
  | .binary .power _ exponent => forall power, meaning exponent power ->
      InvertEachOther (fun base => Scalar.pow base power) (rootWith power) inner outer
  | .sqrt _ =>
      InvertEachOther (rootWith (Scalar.ofInt 2)) (fun root => Scalar.pow root (Scalar.ofInt 2))
        inner outer
  | .root _ index => forall power, meaning index power ->
      InvertEachOther (rootWith power) (fun root => Scalar.pow root power) inner outer
  | .func .log _ => forall euler, meaning (.var "e") euler ->
      InvertEachOther Scalar.log (Scalar.pow euler) inner outer
  | .func kind _ => forall inverse, kind.inverse? = some inverse ->
      InvertEachOther (kind.apply mode) (inverse.apply mode) inner outer
  | _ => True

/-- All pairs met on a way invert each other, when it is undone from the current expression. -/
def PairsInvert (meaning : Expr K -> K -> Prop) (mode : AngleMode) :
    List (PathStep K) -> Expr K -> Prop
  | [], _ => True
  | (parent, slot) :: rest, current =>
      (forall child inner outer, (slot, child) ∈ parent.children -> meaning child inner ->
        meaning current outer -> PairInverts meaning mode inner outer parent) ∧
      forall next, undoStep (parent, slot) current = .ok next ->
        PairsInvert meaning mode rest next

/-- A context in which an expression and its solution can be compared exactly. -/
structure ExactlySolvable (environment : Environment K) (scopes : Scopes K) (scope : ScopeId)
    (expr : Expr K) (target substitute : String) (solved : Expr K) : Prop where
  expr_defined : ∃ value, HasValue environment scopes scope expr value
  solved_defined : ∃ value, HasValue environment scopes scope solved value
  expr_divides : expr.DividesSafely (HasValue environment scopes scope)
  solved_divides : solved.DividesSafely (HasValue environment scopes scope)
  pairs_invert : forall path, expr.pathTo? target = some path ->
    PairsInvert (HasValue environment scopes scope) environment.angleMode path (.var substitute)

/-- Both sides of an equation have the same value. -/
def Satisfies (environment : Environment K) (scopes : Scopes K) (scope : ScopeId) :
    Expr K -> Prop
  | .equation lhs rhs =>
      ∃ value, HasValue environment scopes scope lhs value ∧
        HasValue environment scopes scope rhs value
  | _ => False

end

/-! ## One step -/

section

variable {K : Type} [Field K] [Scalar K] [ExactScalar K]
variable {environment : Environment K} {scopes : Scopes K} {scope : ScopeId}

omit [Field K] [ExactScalar K] in
theorem hasValue_lifted {expr : Expr K} {value : K} :
    HasValue environment scopes scope (lifted expr) value <->
      HasValue environment scopes scope expr value := by
  unfold lifted
  split
  · exact hasValue_paren
  · exact Iff.rfl

/-- A quotient, in either spelling, has the quotient of its operands as its value. -/
theorem quotient?_hasValue (coherent : environment.registry.Coherent) {expr x y : Expr K}
    {value : K} (quotient : quotient? expr = some (x, y))
    (defined : HasValue environment scopes scope expr value)
    (safe : expr.DividesSafely (HasValue environment scopes scope)) :
    ∃ above below, HasValue environment scopes scope x above ∧
      HasValue environment scopes scope y below ∧ below ≠ 0 ∧ value = above / below := by
  unfold quotient? at quotient
  split at quotient
  · cases quotient
    rcases defined.fraction coherent with ⟨above, below, first, second, rfl⟩
    have nonzero : below ≠ 0 := fun zero => safe.2.2 (zero ▸ second)
    exact ⟨above, below, first, second, nonzero, ExactScalar.div_eq _ _ nonzero⟩
  · cases quotient
    rcases defined.binary coherent with ⟨above, below, first, second, rfl⟩
    have nonzero : below ≠ 0 := fun zero => safe.2.2 rfl (zero ▸ second)
    exact ⟨above, below, first, second, nonzero, ExactScalar.div_eq _ _ nonzero⟩
  · cases quotient

/-- Dividing by a factor, or by the parts of a quotient one after the other, undoes
multiplying by it. -/
theorem undoFactor_inverts (coherent : environment.registry.Coherent) {current other : Expr K}
    {inner outer factor result : K} (factorDefined : HasValue environment scopes scope other factor)
    (factorSafe : other.DividesSafely (HasValue environment scopes scope))
    (outerDefined : HasValue environment scopes scope current outer)
    (resultDefined : HasValue environment scopes scope (undoFactor current other) result)
    (resultSafe : (undoFactor current other).DividesSafely (HasValue environment scopes scope)) :
    outer = inner * factor <-> result = inner := by
  unfold undoFactor at resultDefined resultSafe
  cases quotient : quotient? other with
  | some operands =>
      rcases operands with ⟨x, y⟩
      rcases quotient?_hasValue coherent quotient factorDefined factorSafe with
        ⟨above, below, first, second, belowNonzero, rfl⟩
      simp only [quotient] at resultDefined resultSafe
      rcases resultDefined.binary coherent with ⟨divided, lower, divides, lowerDefined, rfl⟩
      rcases divides.binary coherent with ⟨again, upper, currentAgain, upperDefined, rfl⟩
      cases currentAgain.unique outerDefined
      cases (hasValue_lifted.mp upperDefined).unique first
      cases (hasValue_lifted.mp lowerDefined).unique second
      have aboveNonzero : above ≠ 0 := fun zero => resultSafe.1.2.2 rfl (zero ▸ upperDefined)
      simp only [Operator.apply, ExactScalar.mul_eq, ExactScalar.div_eq _ _ aboveNonzero]
      field_simp
  | none =>
      simp only [quotient] at resultDefined resultSafe
      rcases resultDefined.binary coherent with ⟨again, divisor, currentAgain, divisorDefined, rfl⟩
      cases currentAgain.unique outerDefined
      cases divisorDefined.unique factorDefined
      have nonzero : factor ≠ 0 := fun zero => resultSafe.2.2 rfl (zero ▸ divisorDefined)
      simp only [Operator.apply, ExactScalar.div_eq _ _ nonzero]
      exact (div_eq_iff nonzero).symm

omit [Field K] [Scalar K] [ExactScalar K] in
/-- Undoing a quotient for its denominator divides the numerator by the current value. -/
theorem eq_div_comm_of_ne_zero [Field K] {above below outer : K} (belowNonzero : below ≠ 0)
    (outerNonzero : outer ≠ 0) : outer = above / below <-> above / outer = below := by
  rw [eq_div_iff belowNonzero, div_eq_iff outerNonzero, mul_comm below outer]
  exact eq_comm

omit [Field K] [Scalar K] [ExactScalar K] in
/-- Where they undo each other, an equation by the one is an equation by the other. -/
theorem InvertEachOther.eq_iff {function replacement : K -> K} {inner outer : K}
    (inverts : InvertEachOther function replacement inner outer) :
    outer = function inner <-> replacement outer = inner := by
  rcases inverts with ⟨down, up⟩
  constructor
  · rintro rfl
    exact down
  · rintro rfl
    exact up.symm

/-- An operator undone for its left operand. -/
theorem undoLeft_inverts (coherent : environment.registry.Coherent) {op : Operator}
    {x y current next : Expr K} {inner outer value result : K}
    (undone : undoLeft op y current = .ok next)
    (exprDefined : HasValue environment scopes scope (.binary op x y) value)
    (innerDefined : HasValue environment scopes scope x inner)
    (outerDefined : HasValue environment scopes scope current outer)
    (resultDefined : HasValue environment scopes scope next result)
    (exprSafe : (Expr.binary op x y).DividesSafely (HasValue environment scopes scope))
    (nextSafe : next.DividesSafely (HasValue environment scopes scope))
    (pair : PairInverts (HasValue environment scopes scope) environment.angleMode inner outer
      (.binary op x y)) :
    outer = value <-> result = inner := by
  rcases exprDefined.binary coherent with ⟨left, right, leftDefined, rightDefined, rfl⟩
  cases leftDefined.unique innerDefined
  cases op with
  | add =>
      cases undone
      rcases resultDefined.binary coherent with ⟨_, other, first, second, rfl⟩
      cases first.unique outerDefined
      cases second.unique rightDefined
      simp only [Operator.apply, ExactScalar.add_eq, ExactScalar.sub_eq]
      exact sub_eq_iff_eq_add.symm
  | subtract =>
      cases undone
      rcases resultDefined.binary coherent with ⟨_, other, first, second, rfl⟩
      cases first.unique outerDefined
      cases second.unique rightDefined
      simp only [Operator.apply, ExactScalar.add_eq, ExactScalar.sub_eq]
      exact eq_sub_iff_add_eq
  | multiply =>
      cases undone
      rw [Operator.apply, ExactScalar.mul_eq]
      exact undoFactor_inverts coherent rightDefined exprSafe.2.1 outerDefined resultDefined
        nextSafe
  | divide =>
      cases undone
      rcases resultDefined.binary coherent with ⟨_, other, first, second, rfl⟩
      cases first.unique outerDefined
      cases second.unique rightDefined
      have nonzero : right ≠ 0 := fun zero => exprSafe.2.2 rfl (zero ▸ rightDefined)
      simp only [Operator.apply, ExactScalar.mul_eq, ExactScalar.div_eq _ _ nonzero]
      exact eq_div_iff nonzero
  | modulus => cases undone
  | power =>
      cases undone
      rcases resultDefined.root with ⟨_, other, first, second, rfl⟩
      cases first.unique outerDefined
      cases second.unique rightDefined
      exact (pair right rightDefined).eq_iff

/-- An operator undone for its right operand. -/
theorem undoRight_inverts (coherent : environment.registry.Coherent) {op : Operator}
    {x y current next : Expr K} {inner outer value result : K}
    (undone : undoRight op x current = .ok next)
    (exprDefined : HasValue environment scopes scope (.binary op x y) value)
    (innerDefined : HasValue environment scopes scope y inner)
    (outerDefined : HasValue environment scopes scope current outer)
    (resultDefined : HasValue environment scopes scope next result)
    (exprSafe : (Expr.binary op x y).DividesSafely (HasValue environment scopes scope))
    (nextSafe : next.DividesSafely (HasValue environment scopes scope)) :
    outer = value <-> result = inner := by
  rcases exprDefined.binary coherent with ⟨left, right, leftDefined, rightDefined, rfl⟩
  cases rightDefined.unique innerDefined
  cases op with
  | add =>
      cases undone
      rcases resultDefined.binary coherent with ⟨_, other, first, second, rfl⟩
      cases first.unique outerDefined
      cases second.unique leftDefined
      simp only [Operator.apply, ExactScalar.add_eq, ExactScalar.sub_eq]
      rw [sub_eq_iff_eq_add, add_comm inner left]
  | subtract =>
      cases undone
      rcases resultDefined.binary coherent with ⟨other, _, first, second, rfl⟩
      cases first.unique leftDefined
      cases second.unique outerDefined
      simp only [Operator.apply, ExactScalar.sub_eq]
      rw [eq_sub_iff_add_eq, sub_eq_iff_eq_add, add_comm outer inner]
      exact eq_comm
  | multiply =>
      cases undone
      rw [Operator.apply, ExactScalar.mul_eq, mul_comm]
      exact undoFactor_inverts coherent leftDefined exprSafe.1 outerDefined resultDefined nextSafe
  | divide =>
      cases undone
      rcases resultDefined.binary coherent with ⟨other, _, first, second, rfl⟩
      cases first.unique leftDefined
      cases second.unique outerDefined
      have belowNonzero : inner ≠ 0 := fun zero => exprSafe.2.2 rfl (zero ▸ rightDefined)
      have outerNonzero : outer ≠ 0 := fun zero => nextSafe.2.2 rfl (zero ▸ outerDefined)
      simp only [Operator.apply, ExactScalar.div_eq _ _ belowNonzero,
        ExactScalar.div_eq _ _ outerNonzero]
      exact eq_div_comm_of_ne_zero belowNonzero outerNonzero
  | modulus => cases undone
  | power => cases undone

/-- A fraction undone for what stands above its line. -/
theorem undoAbove_inverts (coherent : environment.registry.Coherent) {x y current : Expr K}
    {inner outer value result : K}
    (exprDefined : HasValue environment scopes scope (.fraction x y) value)
    (innerDefined : HasValue environment scopes scope x inner)
    (outerDefined : HasValue environment scopes scope current outer)
    (resultDefined :
      HasValue environment scopes scope (.binary .multiply current (lifted y)) result)
    (exprSafe : (Expr.fraction x y).DividesSafely (HasValue environment scopes scope)) :
    outer = value <-> result = inner := by
  rcases exprDefined.fraction coherent with ⟨above, below, first, second, rfl⟩
  cases first.unique innerDefined
  have belowNonzero : below ≠ 0 := fun zero => exprSafe.2.2 (zero ▸ second)
  rcases resultDefined.binary coherent with ⟨_, other, one, two, rfl⟩
  cases one.unique outerDefined
  cases (hasValue_lifted.mp two).unique second
  rw [Operator.apply, ExactScalar.mul_eq, ExactScalar.div_eq _ _ belowNonzero]
  exact eq_div_iff belowNonzero

/-- A fraction undone for what stands below its line. -/
theorem undoBelow_inverts (coherent : environment.registry.Coherent) {x y current : Expr K}
    {inner outer value result : K}
    (exprDefined : HasValue environment scopes scope (.fraction x y) value)
    (innerDefined : HasValue environment scopes scope y inner)
    (outerDefined : HasValue environment scopes scope current outer)
    (resultDefined :
      HasValue environment scopes scope (.binary .divide (lifted x) current) result)
    (exprSafe : (Expr.fraction x y).DividesSafely (HasValue environment scopes scope))
    (nextSafe : (Expr.binary .divide (lifted x) current).DividesSafely
      (HasValue environment scopes scope)) :
    outer = value <-> result = inner := by
  rcases exprDefined.fraction coherent with ⟨above, below, first, second, rfl⟩
  cases second.unique innerDefined
  have belowNonzero : inner ≠ 0 := fun zero => exprSafe.2.2 (zero ▸ innerDefined)
  have outerNonzero : outer ≠ 0 := fun zero => nextSafe.2.2 rfl (zero ▸ outerDefined)
  rcases resultDefined.binary coherent with ⟨other, _, one, two, rfl⟩
  cases (hasValue_lifted.mp one).unique first
  cases two.unique outerDefined
  rw [Operator.apply, ExactScalar.div_eq _ _ outerNonzero, ExactScalar.div_eq _ _ belowNonzero]
  exact eq_div_comm_of_ne_zero belowNonzero outerNonzero

omit [Field K] [Scalar K] [ExactScalar K] in
/-- A function is undone by a power of `e` or by its inverse. -/
theorem undoFunction_cases {kind : FunctionKind} {current next : Expr K}
    (undone : undoFunction kind current = .ok next) :
    (kind = .log ∧ next = .binary .power (.var "e") current) ∨
      ∃ inverse, kind.inverse? = some inverse ∧ next = .func inverse current := by
  cases kind <;> cases undone
  case log => exact Or.inl ⟨rfl, rfl⟩
  all_goals exact Or.inr ⟨_, rfl, rfl⟩

omit [Field K] [ExactScalar K] in
theorem PairInverts.ofFunction {meaning : Expr K -> K -> Prop} {mode : AngleMode}
    {kind inverse : FunctionKind} {x : Expr K} {inner outer : K}
    (pair : PairInverts meaning mode inner outer (.func kind x))
    (inverted : kind.inverse? = some inverse) :
    InvertEachOther (kind.apply mode) (inverse.apply mode) inner outer := by
  cases kind
  case log => cases inverted
  all_goals exact pair inverse inverted

/-- One step keeps the invariant: the current expression has the value of the parent exactly
when the next one has the value of the child. -/
theorem undoStep_inverts (coherent : environment.registry.Coherent) {parent child : Expr K}
    {slot : Slot} {current next : Expr K} {inner outer value result : K}
    (member : (slot, child) ∈ parent.children)
    (undone : undoStep (parent, slot) current = .ok next)
    (exprDefined : HasValue environment scopes scope parent value)
    (innerDefined : HasValue environment scopes scope child inner)
    (outerDefined : HasValue environment scopes scope current outer)
    (resultDefined : HasValue environment scopes scope next result)
    (exprSafe : parent.DividesSafely (HasValue environment scopes scope))
    (nextSafe : next.DividesSafely (HasValue environment scopes scope))
    (pair : PairInverts (HasValue environment scopes scope) environment.angleMode inner outer
      parent) :
    outer = value <-> result = inner := by
  cases parent with
  | binary op x y =>
      simp only [Expr.children, List.mem_cons, Prod.mk.injEq, List.not_mem_nil, or_false] at member
      rcases member with ⟨rfl, rfl⟩ | ⟨rfl, rfl⟩
      · exact undoLeft_inverts coherent undone exprDefined innerDefined outerDefined resultDefined
          exprSafe nextSafe pair
      · exact undoRight_inverts coherent undone exprDefined innerDefined outerDefined
          resultDefined exprSafe nextSafe
  | fraction x y =>
      simp only [Expr.children, List.mem_cons, Prod.mk.injEq, List.not_mem_nil, or_false] at member
      rcases member with ⟨rfl, rfl⟩ | ⟨rfl, rfl⟩
      · cases undone
        exact undoAbove_inverts coherent exprDefined innerDefined outerDefined resultDefined
          exprSafe
      · cases undone
        exact undoBelow_inverts coherent exprDefined innerDefined outerDefined resultDefined
          exprSafe nextSafe
  | paren x =>
      cases List.mem_singleton.mp member
      cases undone
      cases (hasValue_paren.mp exprDefined).unique innerDefined
      rw [resultDefined.unique outerDefined]
  | sqrt x =>
      cases List.mem_singleton.mp member
      cases undone
      rcases exprDefined.sqrt with ⟨radicand, first, rfl⟩
      cases first.unique innerDefined
      rcases resultDefined.binary coherent with ⟨_, two, one, square, rfl⟩
      cases one.unique outerDefined
      cases square.unique (hasValue_num _)
      have inverts : InvertEachOther (rootWith (Scalar.ofInt 2))
          (fun root => Scalar.pow root (Scalar.ofInt 2)) inner outer := pair
      exact inverts.eq_iff
  | root x index =>
      simp only [Expr.children, List.mem_cons, Prod.mk.injEq, List.not_mem_nil, or_false] at member
      rcases member with ⟨rfl, rfl⟩ | ⟨rfl, rfl⟩
      · cases undone
        rcases exprDefined.root with ⟨radicand, power, first, second, rfl⟩
        cases first.unique innerDefined
        rcases resultDefined.binary coherent with ⟨_, exponent, one, raised, rfl⟩
        cases one.unique outerDefined
        cases raised.unique second
        exact (pair power second).eq_iff
      · cases undone
  | func kind x =>
      cases List.mem_singleton.mp member
      rcases exprDefined.func with ⟨argument, first, rfl⟩
      cases first.unique innerDefined
      rcases undoFunction_cases undone with ⟨rfl, rfl⟩ | ⟨inverse, inverted, rfl⟩
      · rcases resultDefined.binary coherent with ⟨euler, _, base, exponent, rfl⟩
        cases exponent.unique outerDefined
        exact (pair euler base).eq_iff
      · rcases resultDefined.func with ⟨_, one, rfl⟩
        cases one.unique outerDefined
        exact (pair.ofFunction inverted).eq_iff
  | _ => cases undone

/-! ## The whole way -/

/-- The ways in which a step builds the next expression around the current one. -/
inductive BuiltAround (current : Expr K) : Expr K -> Prop
  | same : BuiltAround current current
  | left (op : Operator) (other : Expr K) : BuiltAround current (.binary op current other)
  | right (op : Operator) (other : Expr K) : BuiltAround current (.binary op other current)
  | quotient (above below : Expr K) :
      BuiltAround current (.binary .multiply (.binary .divide current above) below)
  | root (index : Expr K) : BuiltAround current (.root current index)
  | func (kind : FunctionKind) : BuiltAround current (.func kind current)

omit [Field K] [Scalar K] [ExactScalar K] in
theorem undoFactor_builtAround (current other : Expr K) :
    BuiltAround current (undoFactor current other) := by
  unfold undoFactor
  split
  · exact .quotient _ _
  · exact .left _ _

omit [Field K] [ExactScalar K] in
theorem undoStep_builtAround {parent : Expr K} {slot : Slot} {current next : Expr K}
    (undone : undoStep (parent, slot) current = .ok next) : BuiltAround current next := by
  cases parent with
  | binary op x y =>
      rw [undoStep] at undone
      split at undone
      · cases op with
        | multiply =>
            cases undone
            exact undoFactor_builtAround current y
        | modulus => cases undone
        | power =>
            cases undone
            exact .root y
        | _ =>
            cases undone
            exact .left _ y
      · cases op with
        | multiply =>
            cases undone
            exact undoFactor_builtAround current x
        | add =>
            cases undone
            exact .left _ x
        | modulus | power => cases undone
        | subtract | divide =>
            cases undone
            exact .right _ x
  | fraction x y =>
      rw [undoStep] at undone
      split at undone
      · cases undone
        exact .left _ _
      · cases undone
        exact .right _ _
  | paren x =>
      cases undone
      exact .same
  | sqrt x =>
      cases undone
      exact .left _ _
  | root x index =>
      rw [undoStep] at undone
      split at undone
      · cases undone
        exact .left _ _
      · cases undone
  | func kind x =>
      rcases undoFunction_cases undone with ⟨_, rfl⟩ | ⟨inverse, _, rfl⟩
      · exact .right _ _
      · exact .func inverse
  | _ => cases undone

/-- A next expression that has a value and divides safely contains a current one that does. -/
theorem undoStep_current (coherent : environment.registry.Coherent) {parent : Expr K} {slot : Slot}
    {current next : Expr K} (undone : undoStep (parent, slot) current = .ok next)
    (defined : ∃ value, HasValue environment scopes scope next value)
    (safe : next.DividesSafely (HasValue environment scopes scope)) :
    (∃ value, HasValue environment scopes scope current value) ∧
      current.DividesSafely (HasValue environment scopes scope) := by
  rcases defined with ⟨value, defined⟩
  cases undoStep_builtAround undone with
  | same => exact ⟨⟨value, defined⟩, safe⟩
  | left op other =>
      rcases defined.binary coherent with ⟨left, _, first, _⟩
      exact ⟨⟨left, first⟩, safe.1⟩
  | right op other =>
      rcases defined.binary coherent with ⟨_, right, _, second, _⟩
      exact ⟨⟨right, second⟩, safe.2.1⟩
  | quotient above below =>
      rcases defined.binary coherent with ⟨left, _, first, _⟩
      rcases first.binary coherent with ⟨inner, _, innermost, _⟩
      exact ⟨⟨inner, innermost⟩, safe.1.1⟩
  | root index =>
      rcases defined.root with ⟨radicand, _, first, _⟩
      exact ⟨⟨radicand, first⟩, safe.1⟩
  | func kind =>
      rcases defined.func with ⟨argument, first, _⟩
      exact ⟨⟨argument, first⟩, safe⟩

theorem undoPath_current (coherent : environment.registry.Coherent) {path : List (PathStep K)}
    {current solved : Expr K} (undone : undoPath path current = .ok solved)
    (defined : ∃ value, HasValue environment scopes scope solved value)
    (safe : solved.DividesSafely (HasValue environment scopes scope)) :
    (∃ value, HasValue environment scopes scope current value) ∧
      current.DividesSafely (HasValue environment scopes scope) := by
  induction path generalizing current with
  | nil =>
      cases undone
      exact ⟨defined, safe⟩
  | cons step rest inductionHypothesis =>
      rcases bind_eq_ok.mp undone with ⟨next, first, later⟩
      rcases inductionHypothesis later with ⟨nextDefined, nextSafe⟩
      exact undoStep_current coherent first nextDefined nextSafe

/-- A parent that can be undone evaluates the child that the way leads into. -/
theorem undoStep_child (coherent : environment.registry.Coherent) {parent child : Expr K}
    {slot : Slot} {current next : Expr K} (member : (slot, child) ∈ parent.children)
    (undone : undoStep (parent, slot) current = .ok next)
    (defined : ∃ value, HasValue environment scopes scope parent value)
    (safe : parent.DividesSafely (HasValue environment scopes scope)) :
    (∃ value, HasValue environment scopes scope child value) ∧
      child.DividesSafely (HasValue environment scopes scope) := by
  rcases defined with ⟨value, defined⟩
  cases parent with
  | binary op x y =>
      rcases defined.binary coherent with ⟨left, right, first, second, _⟩
      simp only [Expr.children, List.mem_cons, Prod.mk.injEq, List.not_mem_nil, or_false] at member
      rcases member with ⟨_, rfl⟩ | ⟨_, rfl⟩
      · exact ⟨⟨left, first⟩, safe.1⟩
      · exact ⟨⟨right, second⟩, safe.2.1⟩
  | fraction x y =>
      rcases defined.fraction coherent with ⟨above, below, first, second, _⟩
      simp only [Expr.children, List.mem_cons, Prod.mk.injEq, List.not_mem_nil, or_false] at member
      rcases member with ⟨_, rfl⟩ | ⟨_, rfl⟩
      · exact ⟨⟨above, first⟩, safe.1⟩
      · exact ⟨⟨below, second⟩, safe.2.1⟩
  | root x index =>
      rcases defined.root with ⟨radicand, power, first, second, _⟩
      simp only [Expr.children, List.mem_cons, Prod.mk.injEq, List.not_mem_nil, or_false] at member
      rcases member with ⟨_, rfl⟩ | ⟨_, rfl⟩
      · exact ⟨⟨radicand, first⟩, safe.1⟩
      · exact ⟨⟨power, second⟩, safe.2⟩
  | paren x =>
      cases List.mem_singleton.mp member
      exact ⟨⟨value, hasValue_paren.mp defined⟩, safe⟩
  | sqrt x =>
      cases List.mem_singleton.mp member
      rcases defined.sqrt with ⟨radicand, first, _⟩
      exact ⟨⟨radicand, first⟩, safe⟩
  | func kind x =>
      cases List.mem_singleton.mp member
      rcases defined.func with ⟨argument, first, _⟩
      exact ⟨⟨argument, first⟩, safe⟩
  | _ => cases undone

/-- The invariant at the end of the way: the current expression has the value of the whole
exactly when its undoing has the value of the target. -/
theorem undoPath_inverts (coherent : environment.registry.Coherent) {target : String}
    {path : List (PathStep K)} {expr current solved : Expr K}
    (found : expr.pathTo? target = some path) (undone : undoPath path current = .ok solved)
    (exprDefined : ∃ value, HasValue environment scopes scope expr value)
    (solvedDefined : ∃ value, HasValue environment scopes scope solved value)
    (exprSafe : expr.DividesSafely (HasValue environment scopes scope))
    (solvedSafe : solved.DividesSafely (HasValue environment scopes scope))
    (pairs : PairsInvert (HasValue environment scopes scope) environment.angleMode path current) :
    (∃ value, HasValue environment scopes scope current value ∧
        HasValue environment scopes scope expr value) <->
      ∃ value, HasValue environment scopes scope (.var target) value ∧
        HasValue environment scopes scope solved value := by
  induction path generalizing expr current with
  | nil =>
      cases Expr.eq_var_of_pathTo?_nil found
      cases undone
      exact exists_congr fun value => and_comm
  | cons step rest inductionHypothesis =>
      rcases Expr.of_pathTo?_cons found with ⟨slot, child, rfl, member, inner⟩
      rcases bind_eq_ok.mp undone with ⟨next, first, later⟩
      rcases pairs with ⟨pairHere, pairsLater⟩
      rcases undoStep_child coherent member first exprDefined exprSafe with
        ⟨childDefined, childSafe⟩
      rcases undoPath_current coherent later solvedDefined solvedSafe with ⟨nextDefined, nextSafe⟩
      rcases undoStep_current coherent first nextDefined nextSafe with ⟨currentDefined, _⟩
      -- The induction hypothesis is about the child and the next expression; the step carries
      -- it over to the parent and the current one.
      rw [← inductionHypothesis inner later childDefined childSafe (pairsLater next first)]
      rcases exprDefined with ⟨value, exprDefined⟩
      rcases childDefined with ⟨innerValue, childDefined⟩
      rcases currentDefined with ⟨outerValue, currentDefined⟩
      rcases nextDefined with ⟨result, nextDefined⟩
      have kept := undoStep_inverts coherent member first exprDefined childDefined currentDefined
        nextDefined exprSafe nextSafe
        (pairHere child innerValue outerValue member childDefined currentDefined)
      constructor
      · rintro ⟨common, one, other⟩
        have agree := kept.mp ((currentDefined.unique one).trans (other.unique exprDefined))
        exact ⟨result, nextDefined, agree ▸ childDefined⟩
      · rintro ⟨common, one, other⟩
        have agree := kept.mpr ((nextDefined.unique one).trans (other.unique childDefined))
        exact ⟨outerValue, currentDefined, agree ▸ exprDefined⟩

end

/-! ## Expressions and equations -/

section

variable {K : Type} [Scalar K]

omit [Scalar K] in
theorem checkSolvable_ok_iff {expr : Expr K} {target : String} :
    (∃ checked, checkSolvable expr target = .ok checked) <-> expr.occurrences target = 1 := by
  unfold checkSolvable
  split <;> simp_all

theorem solveEquation_parts {places : Nat} {lhs rhs equation : Expr K} {target : String}
    (accepted : solveEquation places lhs rhs target = .ok equation) :
    ∃ substitute expr solved,
      splitEquation places lhs rhs (some target) = .ok (substitute, expr) ∧
      expr.occurrences target = 1 ∧ solve expr target substitute = .ok solved ∧
      equation = .equation (.var target) solved := by
  rcases bind_eq_ok.mp accepted with ⟨⟨substitute, expr⟩, split, rest⟩
  rcases bind_eq_ok.mp rest with ⟨nothing, checked, rest⟩
  rcases bind_eq_ok.mp rest with ⟨solved, solving, rest⟩
  cases rest
  exact ⟨substitute, expr, solved, split, checkSolvable_ok_iff.mp ⟨nothing, checked⟩, solving, rfl⟩

/-- The two sides of an equation are the named value and the expression, in some order. -/
theorem satisfies_split {environment : Environment K} {scopes : Scopes K} {scope : ScopeId}
    {places : Nat} {lhs rhs expr : Expr K} {target : Option String} {substitute : String}
    (split : splitEquation places lhs rhs target = .ok (substitute, expr)) :
    Satisfies environment scopes scope (.equation lhs rhs) <->
      Satisfies environment scopes scope (.equation (.var substitute) expr) := by
  have named : forall {side : Expr K} {name : String}, namedSide? target side = some name ->
      side = .var name := by
    intro side name found
    cases side with
    | var other =>
        rw [namedSide?] at found
        split at found <;> cases found
        rfl
    | _ => cases found
  unfold splitEquation at split
  split at split
  · rename_i name found
    cases split
    rw [named found]
  · rename_i name found
    cases split
    rw [named found]
    exact exists_congr fun value => and_comm
  · cases split

variable [Field K] [ExactScalar K]

theorem solve_inverts {environment : Environment K} {scopes : Scopes K} {scope : ScopeId}
    {expr solved : Expr K} {target substitute : String}
    (coherent : environment.registry.Coherent)
    (solving : solve expr target substitute = .ok solved)
    (solvable : ExactlySolvable environment scopes scope expr target substitute solved) :
    Satisfies environment scopes scope (.equation (.var substitute) expr) <->
      Satisfies environment scopes scope (.equation (.var target) solved) := by
  unfold solve at solving
  split at solving
  · cases solving
  · rename_i path found
    exact undoPath_inverts coherent found solving solvable.expr_defined solvable.solved_defined
      solvable.expr_divides solvable.solved_divides (solvable.pairs_invert path found)

/--
Solving succeeds wherever every parent of the target can be undone, and its
answer is exact: in every context that fits, the substitute has the value of the
expression if and only if the target has the value of the solution.  An equation
that is solved for a target is satisfied by the same contexts as its solution.
-/
theorem solve_isExactInversion :
    (forall (expr : Expr K) (target substitute : String), expr.occurrences target = 1 ->
      (forall path, expr.pathTo? target = some path ->
        forall step, step ∈ path -> isUndoable step = true) ->
      ∃ solved, solve expr target substitute = .ok solved ∧
        forall (environment : Environment K) (scopes : Scopes K) (scope : ScopeId),
          environment.registry.Coherent ->
          ExactlySolvable environment scopes scope expr target substitute solved ->
          ((∃ value, HasValue environment scopes scope (.var substitute) value ∧
              HasValue environment scopes scope expr value) <->
            ∃ value, HasValue environment scopes scope (.var target) value ∧
              HasValue environment scopes scope solved value)) ∧
    forall (places : Nat) (lhs rhs equation : Expr K) (target : String),
      solveEquation places lhs rhs target = .ok equation ->
      ∃ substitute expr solved,
        splitEquation places lhs rhs (some target) = .ok (substitute, expr) ∧
        expr.occurrences target = 1 ∧ solve expr target substitute = .ok solved ∧
        equation = .equation (.var target) solved ∧
        forall (environment : Environment K) (scopes : Scopes K) (scope : ScopeId),
          environment.registry.Coherent ->
          ExactlySolvable environment scopes scope expr target substitute solved ->
          (Satisfies environment scopes scope (.equation lhs rhs) <->
            Satisfies environment scopes scope equation) := by
  constructor
  · intro expr target substitute once undoable
    have written : (expr.pathTo? target).isSome = true :=
      (Expr.pathTo?_isSome_iff target expr).mpr (once ▸ Nat.one_pos)
    rcases Option.isSome_iff_exists.mp written with ⟨path, found⟩
    rcases undoPath_ok_of_undoable found (undoable path found) (.var substitute) with
      ⟨solved, undone⟩
    have solving : solve expr target substitute = .ok solved := by
      rw [solve, found]
      exact undone
    exact ⟨solved, solving, fun environment scopes scope coherent solvable =>
      solve_inverts coherent solving solvable⟩
  · intro places lhs rhs equation target accepted
    rcases solveEquation_parts accepted with ⟨substitute, expr, solved, split, once, solving, rfl⟩
    refine ⟨substitute, expr, solved, split, once, solving, rfl, ?_⟩
    intro environment scopes scope coherent solvable
    exact (satisfies_split split).trans (solve_inverts coherent solving solvable)

end

/-! ## A cubic -/

section

/-- The expression `5 - (3 / 2) * t^3`, with the quotient as a fraction. -/
def cubic : Expr ℝ :=
  .binary .subtract (.num 5)
    (.binary .multiply (.fraction (.num 3) (.num 2)) (.binary .power (.var "t") (.num 3)))

/-- The cube root of `(5 - y) / 3 * 2`. -/
def cubicSolution : Expr ℝ :=
  .root (.binary .multiply (.binary .divide (.binary .subtract (.num 5) (.var "y")) (.num 3))
    (.num 2)) (.num 3)

/-- A point at which the cubic and its solution are compared. -/
def cubicPoint : Scopes ℝ := assignment [("t", 2), ("y", -7)]

/-- The way to `t` passes a difference, a product and a power, and all three can be undone. -/
theorem cubic_undoable (path : List (PathStep ℝ)) (found : cubic.pathTo? "t" = some path) :
    forall step, step ∈ path -> isUndoable step = true := by
  cases found
  simp [isUndoable]

theorem cubicPoint_solvable :
    ExactlySolvable (Environment.initial Registry.empty) cubicPoint 0 cubic "t" "y"
      cubicSolution := by
  have t : IsNumber (Environment.initial Registry.empty) cubicPoint 0 (.var "t") 2 :=
    isNumber_var_assignment rfl rfl rfl
  have y : IsNumber (Environment.initial Registry.empty) cubicPoint 0 (.var "y") (-7) :=
    isNumber_var_assignment rfl rfl rfl
  have literal : forall value : ℝ,
      IsNumber (Environment.initial Registry.empty) cubicPoint 0 (.num value) value :=
    isNumber_num
  have nonzero : forall value : ℝ, value ≠ 0 ->
      ¬ HasValue (Environment.initial Registry.empty) cubicPoint 0 (.num value) 0 :=
    fun value nonzero zero => nonzero ((hasValue_num value).unique zero)
  have whole := IsNumber.binary .subtract (literal 5) (.binary .multiply
    (.fraction (literal 3) (literal 2)) (.binary .power t (literal 3)))
  have radicand := IsNumber.binary .multiply
    (.binary .divide (.binary .subtract (literal 5) y) (literal 3)) (literal 2)
  refine ⟨⟨_, whole.hasValue⟩, ⟨_, (radicand.root (literal 3)).hasValue⟩, ?_, ?_, ?_⟩
  · exact ⟨trivial, ⟨⟨trivial, trivial, nonzero 2 two_ne_zero⟩,
      ⟨trivial, trivial, nofun⟩, nofun⟩, nofun⟩
  · exact ⟨⟨⟨⟨trivial, trivial, nofun⟩, trivial, fun _ => nonzero 3 three_ne_zero⟩,
      trivial, nofun⟩, trivial⟩
  · rintro path ⟨⟩
    refine ⟨fun _ _ _ _ _ _ => trivial, ?_⟩
    rintro next ⟨⟩
    refine ⟨fun _ _ _ _ _ _ => trivial, ?_⟩
    rintro next ⟨⟩
    refine ⟨?_, ?_⟩
    · intro child inner outer member innerDefined outerDefined power powerDefined
      cases powerDefined.unique (hasValue_num 3)
      have innerValue : inner = 2 := by
        simp only [Expr.children, List.mem_cons, Prod.mk.injEq, List.not_mem_nil,
          or_false] at member
        rcases member with ⟨_, rfl⟩ | ⟨impossible, _⟩
        · exact innerDefined.unique t.hasValue
        · cases impossible
      have outerValue : outer = (2 : ℝ) ^ (3 : ℝ) := by
        rw [outerDefined.unique radicand.hasValue]
        show (5 - -7) / 3 * 2 = (2 : ℝ) ^ (3 : ℝ)
        norm_num
      have rooted : ((2 : ℝ) ^ (3 : ℝ)) ^ (((1 : Int) : ℝ) / 3) = 2 := by
        rw [← Real.rpow_mul zero_le_two]
        norm_num
      subst innerValue outerValue
      exact ⟨rooted, congrArg (fun base : ℝ => base ^ (3 : ℝ)) rooted⟩
    · rintro next ⟨⟩
      trivial

theorem solve_isExactInversion_cubic :
    ExactlySolvable (Environment.initial Registry.empty) cubicPoint 0 cubic "t" "y"
        cubicSolution ∧
      (Satisfies (Environment.initial Registry.empty) cubicPoint 0
          (.equation (.var "y") cubic) <->
        Satisfies (Environment.initial Registry.empty) cubicPoint 0
          (.equation (.var "t") cubicSolution)) := by
  rcases solve_isExactInversion.1 cubic "t" "y" rfl cubic_undoable with ⟨solved, ⟨⟩, exact⟩
  exact ⟨cubicPoint_solvable, exact _ _ _ Registry.empty_coherent cubicPoint_solvable⟩

end

end QuantityCalculus
