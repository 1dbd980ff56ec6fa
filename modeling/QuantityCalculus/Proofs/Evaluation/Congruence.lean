import Mathlib.Data.List.Forall2
import QuantityCalculus.Evaluation
import QuantityCalculus.Proofs.Tables

namespace QuantityCalculus

/-!
# Expressions that evaluate alike

`Congruent` closes a law about expressions under every position that evaluation
looks at, the arguments of calls included.  If both sides of the law evaluate
alike, so do congruent expressions, in every context and with the same failure.

Arguments are the reason why this is no plain structural fact.  A call does not
evaluate its arguments: it binds them in the scope of its body, where they are
evaluated when they are met, perhaps from inside further calls.  The statement is
therefore about two contexts at once, whose scopes agree up to congruent bound
expressions.
-/

variable {R : Type}

/-- The least congruence that contains a law, one position at a time. -/
inductive Congruent (law : Expr R -> Expr R -> Prop) : Expr R -> Expr R -> Prop
  | law {x y} : law x y -> Congruent law x y
  | refl (x) : Congruent law x x
  | trans {x y z} : Congruent law x y -> Congruent law y z -> Congruent law x z
  | memAt {x y} : Congruent law x y -> Congruent law (.memAt x) (.memAt y)
  | func {x y} (kind) : Congruent law x y -> Congruent law (.func kind x) (.func kind y)
  | factorial {x y} : Congruent law x y -> Congruent law (.factorial x) (.factorial y)
  | sqrt {x y} : Congruent law x y -> Congruent law (.sqrt x) (.sqrt y)
  | root {x y} (index) : Congruent law x y -> Congruent law (.root x index) (.root y index)
  | index {x y} (radicand) :
      Congruent law x y -> Congruent law (.root radicand x) (.root radicand y)
  | abs {x y} : Congruent law x y -> Congruent law (.abs x) (.abs y)
  | numerator {x y} (below) :
      Congruent law x y -> Congruent law (.fraction x below) (.fraction y below)
  | denominator {x y} (above) :
      Congruent law x y -> Congruent law (.fraction above x) (.fraction above y)
  | left {x y} (op right) :
      Congruent law x y -> Congruent law (.binary op x right) (.binary op y right)
  | right {x y} (op left) :
      Congruent law x y -> Congruent law (.binary op left x) (.binary op left y)
  | paren {x y} : Congruent law x y -> Congruent law (.paren x) (.paren y)
  | marked {x y} (mark) : Congruent law x y -> Congruent law (.marked mark x) (.marked mark y)
  | argument {x y} (name key before after) : Congruent law x y ->
      Congruent law (.call name (.ofList (before ++ (key, x) :: after)))
        (.call name (.ofList (before ++ (key, y) :: after)))

/-- A call of which several arguments are replaced, those behind the first ones.  By induction on
the arguments, one after the other. -/
theorem Congruent.call {law : Expr R -> Expr R -> Prop} (name : String)
    {arguments others : List (String × Expr R)}
    (same : List.Forall₂ (fun first second => first.1 = second.1 ∧
      Congruent law first.2 second.2) arguments others) (before : List (String × Expr R)) :
    Congruent law (.call name (.ofList (before ++ arguments)))
      (.call name (.ofList (before ++ others))) := by
  induction same generalizing before with
  | nil => exact .refl _
  | @cons first second arguments others one _ inductionHypothesis =>
      rcases first with ⟨key, x⟩
      rcases second with ⟨otherKey, y⟩
      rcases one with ⟨keys, congruent⟩
      cases keys
      have rest := inductionHypothesis (before ++ [(key, y)])
      rw [List.append_assoc, List.append_assoc] at rest
      exact (Congruent.argument name key before arguments congruent).trans rest

/-- Calls are congruent when all their arguments are. -/
theorem Congruent.arguments {law : Expr R -> Expr R -> Prop} (name : String)
    {arguments others : Arguments R}
    (same : List.Forall₂ (fun first second => first.1 = second.1 ∧
      Congruent law first.2 second.2) arguments.toList others.toList) :
    Congruent law (.call name arguments) (.call name others) := by
  have whole := Congruent.call name same []
  rwa [List.nil_append, List.nil_append, Arguments.ofList_toList,
    Arguments.ofList_toList] at whole

/-- Operands of an operator that are both replaced. -/
theorem Congruent.binary {law : Expr R -> Expr R -> Prop} (op : Operator) {x y z w : Expr R}
    (first : Congruent law x z) (second : Congruent law y w) :
    Congruent law (.binary op x y) (.binary op z w) :=
  (Congruent.left op y first).trans (Congruent.right op z second)

/-- Both slots of a fraction. -/
theorem Congruent.fraction {law : Expr R -> Expr R -> Prop} {x y z w : Expr R}
    (first : Congruent law x z) (second : Congruent law y w) :
    Congruent law (.fraction x y) (.fraction z w) :=
  (Congruent.numerator y first).trans (Congruent.denominator z second)

/-! ## Scopes that agree up to bound expressions -/

section

variable {related : Expr R -> Expr R -> Prop}

/-- Two bindings of the same name in the same scope, to related expressions. -/
def BindingAgrees (related : Expr R -> Expr R -> Prop) (first second : String × BoundExpr R) :
    Prop :=
  first.1 = second.1 ∧ first.2.scope = second.2.scope ∧ related first.2.expr second.2.expr

/-- Two scopes that differ at most in what is bound and in whom they were opened for. -/
structure ScopeAgrees (related : Expr R -> Expr R -> Prop) (first second : Scope R) : Prop where
  parent : first.parent = second.parent
  bindings : List.Forall₂ (BindingAgrees related) first.bindings second.bindings
  memory : first.memory = second.memory
  enabled : first.enabled = second.enabled

/-- All scopes of two contexts agree. -/
abbrev ScopesAgree (related : Expr R -> Expr R -> Prop) : Scopes R -> Scopes R -> Prop :=
  List.Forall₂ (ScopeAgrees related)

theorem ScopesAgree.refl (reflexive : forall x, related x x) (scopes : Scopes R) :
    ScopesAgree related scopes scopes := by
  have bindings : forall table : Table (BoundExpr R),
      List.Forall₂ (BindingAgrees related) table table :=
    fun table => List.forall₂_same.mpr fun entry _ => ⟨rfl, rfl, reflexive _⟩
  exact List.forall₂_same.mpr fun scope _ => ⟨rfl, bindings _, rfl, rfl⟩

/-- What a name is bound to agrees as well. -/
theorem get?_agrees {first second : Table (BoundExpr R)}
    (agree : List.Forall₂ (BindingAgrees related) first second) (name : String) :
    (first.get? name = none ∧ second.get? name = none) ∨
      ∃ bound other, first.get? name = some bound ∧ second.get? name = some other ∧
        bound.scope = other.scope ∧ related bound.expr other.expr := by
  have bindings : Table.Alike (fun bound other => bound.scope = other.scope ∧
      related bound.expr other.expr) first second := agree
  have alike := Table.get?_alike bindings name
  generalize first.get? name = here at alike
  generalize second.get? name = there at alike
  cases alike with
  | none => exact Or.inl ⟨rfl, rfl⟩
  | some same => exact Or.inr ⟨_, _, rfl, rfl, same.1, same.2⟩

theorem update_agrees {first second newer other : Table (BoundExpr R)}
    (agree : List.Forall₂ (BindingAgrees related) first second)
    (entries : List.Forall₂ (BindingAgrees related) newer other) :
    List.Forall₂ (BindingAgrees related) (first.update newer) (second.update other) := by
  have bindings : Table.Alike (fun bound other => bound.scope = other.scope ∧
      related bound.expr other.expr) first second := agree
  exact Table.update_alike bindings entries

variable {scopes others : Scopes R}

theorem ScopesAgree.enabledIn (agree : ScopesAgree related scopes others) (id : ScopeId) :
    scopes.enabledIn id = others.enabledIn id := by
  unfold Scopes.enabledIn
  induction agree with
  | nil => rfl
  | cons one rest inductionHypothesis =>
      simp only [Scopes.scope?, rest.length_eq]
      split
      · simp [one.enabled]
      · exact inductionHypothesis

/-- A scope and its ancestors agree one by one. -/
theorem ScopesAgree.chain (agree : ScopesAgree related scopes others) (id : ScopeId) :
    List.Forall₂ (fun first second => first.1 = second.1 ∧ ScopeAgrees related first.2 second.2)
      (scopes.chain id) (others.chain id) := by
  induction agree generalizing id with
  | nil => exact .nil
  | @cons scope other older others one rest inductionHypothesis =>
      simp only [Scopes.chain, rest.length_eq]
      split
      · refine .cons ⟨rfl, one⟩ ?_
        rw [one.parent]
        cases other.parent with
        | none => exact .nil
        | some parent => exact inductionHypothesis parent
      · exact inductionHypothesis id

theorem ScopesAgree.lookup? (agree : ScopesAgree related scopes others) (id : ScopeId)
    (name : String) :
    (scopes.lookup? id name = none ∧ others.lookup? id name = none) ∨
      ∃ definedIn bound other, scopes.lookup? id name = some (definedIn, bound) ∧
        others.lookup? id name = some (definedIn, other) ∧ bound.scope = other.scope ∧
        related bound.expr other.expr := by
  unfold Scopes.lookup?
  have chains := agree.chain id
  revert chains
  generalize scopes.chain id = first
  generalize others.chain id = second
  intro chains
  induction chains with
  | nil => exact Or.inl ⟨rfl, rfl⟩
  | @cons entry other first second one _ inductionHypothesis =>
      rcases entry with ⟨place, scope⟩
      rcases other with ⟨otherPlace, otherScope⟩
      rcases one with ⟨same, scopesAgree⟩
      cases same
      rcases get?_agrees scopesAgree.bindings name with ⟨missing, missingToo⟩ | found
      · simp only [Scopes.lookupIn?, missing, missingToo]
        exact inductionHypothesis
      · rcases found with ⟨bound, otherBound, here, there, places, exprs⟩
        refine Or.inr ⟨place, bound, otherBound, ?_, ?_, places, exprs⟩
        · simp only [Scopes.lookupIn?, here]
        · simp only [Scopes.lookupIn?, there]

theorem ScopesAgree.isBound (agree : ScopesAgree related scopes others) (id : ScopeId)
    (name : String) : scopes.isBound id name = others.isBound id name := by
  unfold Scopes.isBound
  have chains := agree.chain id
  revert chains
  generalize scopes.chain id = first
  generalize others.chain id = second
  intro chains
  induction chains with
  | nil => rfl
  | @cons entry other first second one _ inductionHypothesis =>
      have heads : entry.2.bindings.has name = other.2.bindings.has name := by
        rcases get?_agrees one.2.bindings name with ⟨missing, missingToo⟩ | found
        · rw [Table.has, Table.has, missing, missingToo]
        · rcases found with ⟨_, _, here, there, _⟩
          rw [Table.has, Table.has, here, there]
          rfl
      rw [List.any_cons, List.any_cons, heads, inductionHypothesis]

theorem ScopesAgree.memoryAt (agree : ScopesAgree related scopes others) (id : ScopeId)
    (index : Int) : scopes.memoryAt id index = others.memoryAt id index := by
  have values : scopes.memoryValues id = others.memoryValues id := by
    unfold Scopes.memoryValues
    have chains := agree.chain id
    revert chains
    generalize scopes.chain id = first
    generalize others.chain id = second
    intro chains
    induction chains with
    | nil => rfl
    | cons one _ inductionHypothesis =>
        rw [List.flatMap_cons, List.flatMap_cons, one.2.memory, inductionHypothesis]
  unfold Scopes.memoryAt
  rw [values]

theorem ScopesAgree.update (agree : ScopesAgree related scopes others) (id : ScopeId)
    {change otherChange : Scope R -> Scope R}
    (changes : forall scope other, ScopeAgrees related scope other ->
      ScopeAgrees related (change scope) (otherChange other)) :
    ScopesAgree related (scopes.update id change) (others.update id otherChange) := by
  induction agree with
  | nil => exact .nil
  | cons one rest inductionHypothesis =>
      simp only [Scopes.update, rest.length_eq]
      split
      · exact .cons (changes _ _ one) rest
      · exact .cons one inductionHypothesis

/-- The scope that a call opens agrees when its arguments do. -/
theorem ScopesAgree.callScope (agree : ScopesAgree related scopes others)
    (reflexive : forall x, related x x) (scope : ScopeId) (definition : FunctionDefinition R)
    {arguments otherArguments : List (String × Expr R)}
    (same : List.Forall₂ (fun first second => first.1 = second.1 ∧ related first.2 second.2)
      arguments otherArguments) :
    (callScope scopes scope definition arguments).1 =
        (callScope others scope definition otherArguments).1 ∧
      ScopesAgree related (callScope scopes scope definition arguments).2
        (callScope others scope definition otherArguments).2 := by
  have lengths : scopes.length = others.length := agree.length_eq
  have bound : (fun entry : String × Expr R => !scopes.isBound scope entry.1) =
      fun entry => !others.isBound scope entry.1 := by
    funext entry
    rw [agree.isBound]
  have supplied : forall entries : List (String × Expr R),
      List.Forall₂ (BindingAgrees related)
        (entries.map fun entry => (entry.1, ⟨entry.2, none⟩))
        (entries.map fun entry => (entry.1, ⟨entry.2, none⟩)) :=
    fun entries => List.forall₂_same.mpr fun entry member => by
      rcases List.mem_map.mp member with ⟨source, _, rfl⟩
      exact ⟨rfl, rfl, reflexive _⟩
  have given : List.Forall₂ (BindingAgrees related)
      (arguments.map fun entry => (entry.1, ⟨entry.2, some scope⟩))
      (otherArguments.map fun entry => (entry.1, ⟨entry.2, some scope⟩)) := by
    rw [List.forall₂_map_left_iff, List.forall₂_map_right_iff]
    exact same.imp fun first second one => ⟨one.1, rfl, one.2⟩
  have opened : ScopesAgree related (scopes.openChild scope (some definition.body)).2
      (others.openChild scope (some definition.body)).2 :=
    .cons ⟨rfl, .nil, rfl, agree.enabledIn scope⟩ agree
  refine ⟨lengths, ?_⟩
  simp only [QuantityCalculus.callScope, bound, Scopes.openChild, lengths]
  exact opened.update _ fun first second one =>
    ⟨one.parent, update_agrees (supplied _) given, one.memory, one.enabled⟩

end

/-! ## Evaluation -/

section

variable [Scalar R] {environment : Environment R} {law : Expr R -> Expr R -> Prop}

/-- Both sides of a law evaluate alike, whatever names lead to. -/
def Harmless (environment : Environment R) (law : Expr R -> Expr R -> Prop) : Prop :=
  forall (deeper : Evaluator R) trail scopes scope x y, law x y ->
    evaluateWith environment deeper trail scopes scope x =
      evaluateWith environment deeper trail scopes scope y

/-- An evaluator gives the same for congruent expressions in scopes that agree. -/
def Respects (law : Expr R -> Expr R -> Prop) (evaluator : Evaluator R) : Prop :=
  forall trail scopes others scope x y, ScopesAgree (Congruent law) scopes others ->
    Congruent law x y -> evaluator trail scopes scope x = evaluator trail others scope y

variable {deeper : Evaluator R}

omit [Scalar R] in
theorem evaluateVariable_agrees (respects : Respects law deeper) {trail : List Resolution}
    {scopes others : Scopes R} (agree : ScopesAgree (Congruent law) scopes others)
    (scope : ScopeId) (name : String) :
    evaluateVariable environment deeper trail scopes scope name =
      evaluateVariable environment deeper trail others scope name := by
  unfold evaluateVariable Scopes.lookup
  split
  · rfl
  · split
    · rfl
    · rcases agree.lookup? scope name with ⟨missing, missingToo⟩ | found
      · rw [missing, missingToo]
        rfl
      · rcases found with ⟨definedIn, bound, other, here, there, places, exprs⟩
        rw [here, there]
        simp only [bind, Except.bind, places]
        split
        · rfl
        · exact respects _ _ _ _ _ _ agree exprs

theorem evaluateCall_agrees (respects : Respects law deeper) {trail : List Resolution}
    {scopes others : Scopes R} (agree : ScopesAgree (Congruent law) scopes others)
    (scope : ScopeId) (name : String) {arguments otherArguments : List (String × Expr R)}
    (same : List.Forall₂ (fun first second => first.1 = second.1 ∧
      Congruent law first.2 second.2) arguments otherArguments) :
    evaluateCall environment deeper trail scopes scope name arguments =
      evaluateCall environment deeper trail others scope name otherArguments := by
  unfold evaluateCall
  split
  · rfl
  · split
    · rfl
    · rename_i definition _ _
      rcases agree.callScope Congruent.refl scope definition same with ⟨ids, opened⟩
      dsimp only
      rw [ids]
      exact respects _ _ _ _ _ _ opened (.refl _)

/-- One expression in scopes that agree, by recursion on the expression. -/
theorem evaluateWith_agrees (respects : Respects law deeper) {trail : List Resolution}
    {scopes others : Scopes R} (agree : ScopesAgree (Congruent law) scopes others)
    (scope : ScopeId) (x : Expr R) :
    evaluateWith environment deeper trail scopes scope x =
      evaluateWith environment deeper trail others scope x := by
  match x with
  | .num _ | .binding .. | .equation .. | .declaration .. | .target _ => rfl
  | .var name => exact evaluateVariable_agrees respects agree scope name
  | .mem => exact agree.memoryAt scope 0
  | .memAt i =>
      rw [evaluateWith, evaluateWith, evaluateWith_agrees respects agree scope i]
      simp only [agree.memoryAt]
  | .func _ x | .factorial x | .sqrt x | .abs x =>
      rw [evaluateWith, evaluateWith, evaluateWith_agrees respects agree scope x]
  | .paren x => exact evaluateWith_agrees respects agree scope x
  | .root x y | .fraction x y | .binary _ x y =>
      rw [evaluateWith, evaluateWith, evaluateWith_agrees respects agree scope x,
        evaluateWith_agrees respects agree scope y]
  | .marked mark x =>
      rw [evaluateWith, evaluateWith, evaluateWith_agrees respects agree scope x,
        agree.enabledIn]
  | .call name arguments =>
      exact evaluateCall_agrees respects agree scope name
        (List.forall₂_same.mpr fun entry _ => ⟨rfl, .refl _⟩)

/-- Congruent expressions in one context, by induction on the congruence. -/
theorem evaluateWith_congruent (harmless : Harmless environment law)
    (respects : Respects law deeper) {x y : Expr R} (congruent : Congruent law x y)
    (trail : List Resolution) (scopes : Scopes R) (scope : ScopeId) :
    evaluateWith environment deeper trail scopes scope x =
      evaluateWith environment deeper trail scopes scope y := by
  induction congruent with
  | law step => exact harmless deeper trail scopes scope _ _ step
  | refl x => rfl
  | trans _ _ first second => exact first.trans second
  | memAt _ same | func _ _ same | factorial _ same | sqrt _ same | root _ _ same
  | index _ _ same | abs _ same | numerator _ _ same | denominator _ _ same | left _ _ _ same
  | right _ _ _ same | marked _ _ same => rw [evaluateWith, evaluateWith, same]
  | paren _ same => exact same
  | argument name key before after congruent _ =>
      refine evaluateCall_agrees respects (ScopesAgree.refl Congruent.refl scopes) scope name ?_
      rw [Arguments.toList_ofList, Arguments.toList_ofList]
      have same : forall entries : List (String × Expr R),
          List.Forall₂ (fun first second => first.1 = second.1 ∧ Congruent law first.2 second.2)
            entries entries :=
        fun entries => List.forall₂_same.mpr fun entry _ => ⟨rfl, .refl _⟩
      exact List.rel_append (same before) (.cons ⟨rfl, congruent⟩ (same after))

theorem evaluateWith_respects (harmless : Harmless environment law)
    (respects : Respects law deeper) : Respects law (evaluateWith environment deeper) :=
  fun trail scopes _ scope _ y agree congruent =>
    (evaluateWith_congruent harmless respects congruent trail scopes scope).trans
      (evaluateWith_agrees respects agree scope y)

/-- By induction on the resolutions that may still be under way. -/
theorem evaluateWithin_respects (harmless : Harmless environment law) (rounds : Nat) :
    Respects law (evaluateWithin environment rounds) := by
  induction rounds with
  | zero => exact evaluateWith_respects harmless fun _ _ _ _ _ _ _ _ => rfl
  | succ rounds inductionHypothesis => exact evaluateWith_respects harmless inductionHypothesis

/-- Expressions that are congruent by a harmless law have the same quantity or the same
failure in every context. -/
theorem evaluate_congruent (harmless : Harmless environment law) {x y : Expr R}
    (congruent : Congruent law x y) (scopes : Scopes R) (scope : ScopeId) :
    evaluate environment scopes scope x = evaluate environment scopes scope y :=
  evaluateWithin_respects harmless resolutionLimit [] scopes scopes scope x y
    (ScopesAgree.refl Congruent.refl scopes) congruent

end

end QuantityCalculus
