import QuantityCalculus.Proofs.Arithmetic.Rationals
import QuantityCalculus.Proofs.Solution.Inversion

namespace QuantityCalculus

/-!
# What a solution is made of

Solving takes apart the parents on the way to the target and puts new ones together.  What
stands beside the way is passed on: nothing of it is lost, and nothing is written twice, also
where a quotient is split and its two operands go different ways.  So whatever is counted in an
expression is counted again in its solution, with the substitute in place of the target.

Two steps write something that was not there.  A logarithm is undone by a power of the number
of Euler, and a square root, whose index is not written, by the power with the number two.
Nothing else is added, and this is why counting is stated with the added parts as a term of its
own and not as an equation between the expression and its solution alone.
-/

variable {R : Type}

/-! ## Parts that are counted -/

/-- How many parts of an expression pass a test. -/
def Expr.countParts (test : Expr R -> Bool) (expr : Expr R) : Nat :=
  expr.walk.countP test

theorem Expr.occurrences_eq (name : String) (expr : Expr R) :
    expr.occurrences name = expr.countParts (Expr.isVar name) :=
  rfl

/-- A test that passes none of the parents that solving takes apart and puts together. -/
structure TestsOperands (test : Expr R -> Bool) : Prop where
  func : forall kind x, test (.func kind x) = false
  sqrt : forall x, test (.sqrt x) = false
  root : forall x index, test (.root x index) = false
  fraction : forall x y, test (.fraction x y) = false
  binary : forall op x y, test (.binary op x y) = false
  paren : forall x, test (.paren x) = false

section

variable {test : Expr R -> Bool} (tests : TestsOperands test)

include tests

theorem TestsOperands.count_func (kind : FunctionKind) (x : Expr R) :
    (Expr.func kind x).countParts test = x.countParts test := by
  simp [Expr.countParts, Expr.walk, tests.func]

theorem TestsOperands.count_sqrt (x : Expr R) :
    (Expr.sqrt x).countParts test = x.countParts test := by
  simp [Expr.countParts, Expr.walk, tests.sqrt]

theorem TestsOperands.count_paren (x : Expr R) :
    (Expr.paren x).countParts test = x.countParts test := by
  simp [Expr.countParts, Expr.walk, tests.paren]

theorem TestsOperands.count_root (x index : Expr R) :
    (Expr.root x index).countParts test = x.countParts test + index.countParts test := by
  simp [Expr.countParts, Expr.walk, tests.root]

theorem TestsOperands.count_fraction (x y : Expr R) :
    (Expr.fraction x y).countParts test = x.countParts test + y.countParts test := by
  simp [Expr.countParts, Expr.walk, tests.fraction]

theorem TestsOperands.count_binary (op : Operator) (x y : Expr R) :
    (Expr.binary op x y).countParts test = x.countParts test + y.countParts test := by
  simp [Expr.countParts, Expr.walk, tests.binary]

theorem TestsOperands.count_lifted (x : Expr R) :
    (lifted x).countParts test = x.countParts test := by
  unfold lifted
  split
  · exact tests.count_paren _
  · rfl

/-- Dividing by the parts of a quotient counts what dividing by the quotient counts. -/
theorem TestsOperands.count_undoFactor (current other : Expr R) :
    (undoFactor current other).countParts test =
      current.countParts test + other.countParts test := by
  have parts : forall x y, quotient? other = some (x, y) ->
      other.countParts test = x.countParts test + y.countParts test := by
    intro x y quotient
    rcases quotient?_eq_some quotient with rfl | rfl
    · exact tests.count_fraction x y
    · exact tests.count_binary .divide x y
  unfold undoFactor
  split
  · rename_i x y quotient
    rw [tests.count_binary, tests.count_binary, tests.count_lifted, tests.count_lifted,
      parts x y quotient, Nat.add_assoc]
  · exact tests.count_binary .divide current other

end

/-! ## Parts that are added -/

section

variable [Scalar R]

/-- The index of a square root, which is not written there. -/
def Expr.two : Expr R :=
  .num (Scalar.ofInt 2)

theorem Expr.two_ne_var (name : String) : (Expr.two : Expr R) ≠ .var name := by
  rw [Expr.two]
  nofun

/-- The parts that undoing a parent writes and that the parent did not have. -/
def addedBy : Expr R -> List (Expr R)
  | .func .log _ => [.var "e"]
  | .sqrt _ => [.two]
  | _ => []

/-- The parts that undoing a whole way writes. -/
def addedAlong (path : List (PathStep R)) : List (Expr R) :=
  path.flatMap fun step => addedBy step.1

theorem addedBy_inverted {kind inverse : FunctionKind} (inverted : kind.inverse? = some inverse)
    (x : Expr R) : addedBy (.func kind x) = [] := by
  cases kind with
  | log => cases inverted
  | _ => rfl

omit [Scalar R] in
theorem countParts_leaf (test : Expr R -> Bool) (expr : Expr R) (leaf : expr.walk = [expr]) :
    expr.countParts test = [expr].countP test := by
  rw [Expr.countParts, leaf]

variable {test : Expr R -> Bool} (tests : TestsOperands test)

include tests

/-- A step leaves the child out, takes in everything else of the parent, and adds what the inverse
of the parent needs. -/
theorem TestsOperands.count_undoStep {parent child current next : Expr R} {slot : Slot}
    (member : (slot, child) ∈ parent.children)
    (undone : undoStep (parent, slot) current = .ok next) :
    next.countParts test + child.countParts test =
      current.countParts test + parent.countParts test + (addedBy parent).countP test := by
  cases parent with
  | binary op x y =>
      simp only [tests.count_binary, addedBy, List.countP_nil]
      rcases mem_two_children.mp member with ⟨rfl, rfl⟩ | ⟨rfl, rfl⟩ <;> cases op <;>
        cases undone <;>
        simp only [tests.count_undoFactor, tests.count_binary, tests.count_root] <;> omega
  | fraction x y =>
      simp only [tests.count_fraction, addedBy, List.countP_nil]
      rcases mem_two_children.mp member with ⟨rfl, rfl⟩ | ⟨rfl, rfl⟩ <;> cases undone <;>
        simp only [tests.count_binary, tests.count_lifted] <;> omega
  | paren x =>
      cases List.mem_singleton.mp member
      cases undone
      simp only [tests.count_paren, addedBy, List.countP_nil, Nat.add_zero]
  | sqrt x =>
      cases List.mem_singleton.mp member
      cases undone
      rw [tests.count_sqrt, addedBy, ← countParts_leaf test .two rfl]
      exact (congrArg (· + _) (tests.count_binary _ _ _)).trans (Nat.add_right_comm _ _ _)
  | root x index =>
      rcases mem_two_children.mp member with ⟨rfl, rfl⟩ | ⟨rfl, rfl⟩
      · cases undone
        simp only [tests.count_root, tests.count_binary, addedBy, List.countP_nil]
        omega
      · cases undone
  | func kind x =>
      cases List.mem_singleton.mp member
      rw [tests.count_func]
      rcases undoFunction_cases undone with ⟨rfl, rfl⟩ | ⟨inverse, inverted, rfl⟩
      · rw [tests.count_binary, countParts_leaf test (.var "e") rfl, addedBy]
        omega
      · rw [tests.count_func, addedBy_inverted inverted, List.countP_nil, Nat.add_zero]
  | _ => cases undone

/-- A whole way, by induction on its steps: what is counted moves from the expression into the
solution, but for the target at the end. -/
theorem TestsOperands.count_undoPath {target : String} {path : List (PathStep R)}
    {expr current solved : Expr R} (found : expr.pathTo? target = some path)
    (undone : undoPath path current = .ok solved) :
    solved.countParts test + (Expr.var target).countParts test =
      current.countParts test + expr.countParts test + (addedAlong path).countP test := by
  induction path generalizing expr current with
  | nil =>
      cases Expr.eq_var_of_pathTo?_nil found
      cases undone
      rfl
  | cons step rest inductionHypothesis =>
      rcases Expr.of_pathTo?_cons found with ⟨slot, child, rfl, member, inner⟩
      rcases bind_eq_ok.mp undone with ⟨next, first, later⟩
      have here := tests.count_undoStep member first
      have further := inductionHypothesis inner later
      have added : (addedAlong ((expr, slot) :: rest)).countP test =
          (addedBy expr).countP test + (addedAlong rest).countP test :=
        List.countP_append
      omega

/-- What is counted in an expression is counted in its solution, with the substitute in place of
the target, and with the parts that were added on the way. -/
theorem TestsOperands.count_solve {expr solved : Expr R} {target substitute : String}
    {path : List (PathStep R)} (found : expr.pathTo? target = some path)
    (solving : solve expr target substitute = .ok solved) :
    solved.countParts test + (Expr.var target).countParts test =
      (Expr.var substitute).countParts test + expr.countParts test +
        (addedAlong path).countP test := by
  rcases solve_eq_ok.mp solving with ⟨other, alsoFound, undone⟩
  cases found.symm.trans alsoFound
  exact tests.count_undoPath found undone

end

/-! ## Names and other operands -/

/-- A parent that is undone by a power of the number of Euler. -/
def Expr.isLogarithm : Expr R -> Bool
  | .func .log _ => true
  | _ => false

/-- A root whose index is not written. -/
def Expr.isSquareRoot : Expr R -> Bool
  | .sqrt _ => true
  | _ => false

/-- The logarithms on a way. -/
def logarithmsOn (path : List (PathStep R)) : Nat :=
  path.countP fun step => step.1.isLogarithm

/-- The square roots on a way. -/
def squareRootsOn (path : List (PathStep R)) : Nat :=
  path.countP fun step => step.1.isSquareRoot

/-- A part that solving passes on as it is, wherever it stands: a leaf, a call, and everything else
but the parents that solving can undo. -/
def Expr.isOperand : Expr R -> Bool
  | .func .. | .sqrt _ | .root .. | .fraction .. | .binary .. | .paren _ => false
  | _ => true

theorem testsOperands_isVar (name : String) :
    TestsOperands (Expr.isVar name : Expr R -> Bool) where
  func := fun _ _ => rfl
  sqrt := fun _ => rfl
  root := fun _ _ => rfl
  fraction := fun _ _ => rfl
  binary := fun _ _ _ => rfl
  paren := fun _ => rfl

theorem testsOperands_beq [DecidableEq R] {part : Expr R} (operand : part.isOperand = true) :
    TestsOperands (fun other => other == part) := by
  constructor <;> intros <;> rw [beq_eq_false_iff_ne] <;> rintro rfl <;> cases operand

variable [Scalar R]

theorem addedBy_cases (parent : Expr R) :
    (parent.isLogarithm = true ∧ parent.isSquareRoot = false ∧ addedBy parent = [.var "e"]) ∨
      (parent.isLogarithm = false ∧ parent.isSquareRoot = true ∧
        addedBy parent = [.two]) ∨
      (parent.isLogarithm = false ∧ parent.isSquareRoot = false ∧ addedBy parent = []) := by
  cases parent with
  | sqrt x => exact Or.inr (Or.inl ⟨rfl, rfl, rfl⟩)
  | func kind x =>
      cases kind with
      | log => exact Or.inl ⟨rfl, rfl, rfl⟩
      | _ => exact Or.inr (Or.inr ⟨rfl, rfl, rfl⟩)
  | _ => exact Or.inr (Or.inr ⟨rfl, rfl, rfl⟩)

/-- The parts that are added on a way: the number of Euler for each logarithm, and the number two
for each square root. -/
theorem countP_addedAlong (test : Expr R -> Bool) (path : List (PathStep R)) :
    (addedAlong path).countP test =
      logarithmsOn path * (test (.var "e")).toNat +
        squareRootsOn path * (test .two).toNat := by
  induction path with
  | nil => simp [addedAlong, logarithmsOn, squareRootsOn]
  | cons step rest inductionHypothesis =>
      have added : (addedAlong (step :: rest)).countP test =
          (addedBy step.1).countP test + (addedAlong rest).countP test :=
        List.countP_append
      have logarithms : logarithmsOn (step :: rest) =
          logarithmsOn rest + step.1.isLogarithm.toNat := by
        cases here : step.1.isLogarithm <;> simp [logarithmsOn, here]
      have squareRoots : squareRootsOn (step :: rest) =
          squareRootsOn rest + step.1.isSquareRoot.toNat := by
        cases here : step.1.isSquareRoot <;> simp [squareRootsOn, here]
      have single : forall part, [part].countP test = (test part).toNat := by
        intro part
        cases here : test part <;> simp [here]
      rw [added, inductionHypothesis, logarithms, squareRoots, Nat.add_mul, Nat.add_mul]
      rcases addedBy_cases step.1 with
        ⟨isLogarithm, isSquareRoot, adds⟩ | ⟨isLogarithm, isSquareRoot, adds⟩ |
          ⟨isLogarithm, isSquareRoot, adds⟩ <;>
        rw [isLogarithm, isSquareRoot, adds] <;>
        simp only [single, List.countP_nil, Bool.toNat_true, Bool.toNat_false, Nat.one_mul,
          Nat.zero_mul] <;> omega

/-! ## Solutions -/

section

variable {expr solved : Expr R} {target substitute : String} {path : List (PathStep R)}

/-- How often a name is written in a solution, also where the target, the substitute and the number
of Euler are the same name. -/
theorem occurrences_solve (found : expr.pathTo? target = some path)
    (solving : solve expr target substitute = .ok solved) (name : String) :
    solved.occurrences name + (target == name).toNat =
      expr.occurrences name + (substitute == name).toNat +
        logarithmsOn path * ("e" == name).toNat := by
  have counted := (testsOperands_isVar name).count_solve found solving
  have leaf : forall other : String, (Expr.var other : Expr R).countParts (Expr.isVar name) =
      (other == name).toNat := by
    intro other
    rw [countParts_leaf _ _ rfl]
    cases same : other == name <;> simp [Expr.isVar, same]
  have added : (addedAlong path).countP (Expr.isVar name) =
      logarithmsOn path * ("e" == name).toNat := by
    rw [countP_addedAlong]
    exact Nat.add_zero _
  rw [leaf, leaf, added, ← Expr.occurrences_eq, ← Expr.occurrences_eq] at counted
  omega

variable [DecidableEq R]

/-- How often any other operand is written in a solution. -/
theorem count_solve (found : expr.pathTo? target = some path)
    (solving : solve expr target substitute = .ok solved) {part : Expr R}
    (operand : part.isOperand = true) (noVariable : forall name, part ≠ .var name) :
    solved.walk.count part =
      expr.walk.count part + squareRootsOn path * (Expr.two == part).toNat := by
  have counted := (testsOperands_beq operand).count_solve found solving
  have different : forall name, ((.var name : Expr R) == part) = false := fun name =>
    beq_eq_false_iff_ne.mpr (noVariable name).symm
  have leaf : forall name, (Expr.var name).countParts (fun other => other == part) = 0 := by
    intro name
    rw [countParts_leaf _ _ rfl]
    simp [different]
  have added : (addedAlong path).countP (fun other => other == part) =
      squareRootsOn path * (Expr.two == part).toNat := by
    rw [countP_addedAlong, different, Bool.toNat_false, Nat.mul_zero, Nat.zero_add]
  rw [leaf, leaf, added] at counted
  exact counted.trans (congrArg (· + _) (Nat.zero_add _))

/--
The parts of a solution, counted against those of the expression that was solved.  Only the
target is gone, and only the substitute, the number of Euler and the number two are written
more often.
-/
structure KeepsParts (expr : Expr R) (target substitute : String) (path : List (PathStep R))
    (solved : Expr R) : Prop where
  others : forall name, name ≠ target -> name ≠ substitute -> name ≠ "e" ->
    solved.occurrences name = expr.occurrences name
  substituted : substitute ≠ target -> substitute ≠ "e" ->
    solved.occurrences substitute = expr.occurrences substitute + 1
  eulers : target ≠ "e" -> substitute ≠ "e" ->
    solved.occurrences "e" = expr.occurrences "e" + logarithmsOn path
  gone : target ≠ substitute -> target ≠ "e" -> solved.occurrences target = 0
  /-- Where these names are not distinct, their changes add up. -/
  names : forall name, solved.occurrences name + (target == name).toNat =
    expr.occurrences name + (substitute == name).toNat + logarithmsOn path * ("e" == name).toNat
  operands : forall part : Expr R, part.isOperand = true -> (forall name, part ≠ .var name) ->
    part ≠ .two -> solved.walk.count part = expr.walk.count part
  twos : solved.walk.count .two = expr.walk.count .two + squareRootsOn path

/--
Solving loses nothing and writes nothing twice.  Every name, every call and every other operand
is written in the solution as often as in the expression, except for the target, which is
replaced by the substitute, for the number of Euler, which is added for each logarithm on the
way to the target, and for the number two, which is added for each square root.
-/
theorem solve_keepsParts (once : expr.occurrences target = 1)
    (solving : solve expr target substitute = .ok solved) :
    ∃ path, expr.pathTo? target = some path ∧ KeepsParts expr target substitute path solved := by
  rcases solve_eq_ok.mp solving with ⟨path, found, _⟩
  have names := occurrences_solve found solving
  have apart : forall {left right : String}, left ≠ right -> (left == right).toNat = 0 := by
    intro left right different
    rw [beq_eq_false_iff_ne.mpr different]
    rfl
  have alike : forall name : String, (name == name).toNat = 1 := by
    intro name
    rw [beq_self_eq_true]
    rfl
  refine ⟨path, found, ?_, ?_, ?_, ?_, names, ?_, ?_⟩
  · intro name notTarget notSubstitute notEuler
    have counted := names name
    rw [apart notTarget.symm, apart notSubstitute.symm, apart notEuler.symm] at counted
    exact counted
  · intro notTarget notEuler
    have counted := names substitute
    rw [apart notTarget.symm, alike, apart notEuler.symm] at counted
    exact counted
  · intro notTarget notSubstitute
    have counted := names "e"
    rw [apart notTarget, apart notSubstitute, alike, Nat.mul_one] at counted
    exact counted
  · intro notSubstitute notEuler
    have counted := names target
    rw [alike, apart notSubstitute.symm, apart notEuler.symm, once] at counted
    omega
  · intro part operand noVariable notTwo
    rw [count_solve found solving operand noVariable, beq_eq_false_iff_ne.mpr notTwo.symm]
    rfl
  · rw [count_solve found solving rfl Expr.two_ne_var, beq_self_eq_true, Bool.toNat_true,
      Nat.mul_one]

end

/-- The expression `(sqrt(log(x)) + z) * frac($f)(2)`. -/
def scaledRootOfLog : Expr ℚ :=
  .binary .multiply (.paren (.binary .add (.sqrt (.func .log (.var "x"))) (.var "z")))
    (.fraction (.call "f" .nil) .two)

/-- The solution `e ^ ((y / $f * 2 - z) ^ 2)`: the root adds a second `2`, and the logarithm the
number of Euler. -/
theorem solve_keepsParts_rootOfLog :
    ∃ solved path, solve scaledRootOfLog "x" "y" = .ok solved ∧
      scaledRootOfLog.pathTo? "x" = some path ∧
      KeepsParts scaledRootOfLog "x" "y" path solved ∧
      logarithmsOn path = 1 ∧ squareRootsOn path = 1 := by
  have once : scaledRootOfLog.occurrences "x" = 1 := by decide +kernel
  have solving : solve scaledRootOfLog "x" "y" = .ok
      (.binary .power (.var "e") (.binary .power
        (.binary .subtract
          (.binary .multiply (.binary .divide (.var "y") (.call "f" .nil)) .two) (.var "z"))
        .two)) := rfl
  rcases solve_keepsParts once solving with ⟨path, found, keeps⟩
  refine ⟨_, path, solving, found, keeps, ?_⟩
  cases found.symm.trans rfl
  exact ⟨rfl, rfl⟩

/-- The literal `2` of `sqrt(x) + 2` stands beside the way to `x`, and it is written twice in the
solution `(y - 2) ^ 2`. -/
theorem solve_repeats_two :
    (Expr.binary .add (.sqrt (.var "x")) .two : Expr ℚ).occurrences "x" = 1 ∧
      (Expr.binary .add (.sqrt (.var "x")) .two : Expr ℚ).walk.count .two = 1 ∧
      ∃ solved : Expr ℚ, solve (.binary .add (.sqrt (.var "x")) .two) "x" "y" = .ok solved ∧
        solved.walk.count .two = 2 :=
  ⟨by decide +kernel, by decide +kernel, _, rfl, by decide +kernel⟩

end QuantityCalculus
