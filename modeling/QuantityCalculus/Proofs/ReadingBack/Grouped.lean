import QuantityCalculus.Proofs.Evaluation.Congruence
import QuantityCalculus.Proofs.ReadingBack.Built
import QuantityCalculus.Proofs.ReadingBack.Levels

namespace QuantityCalculus

open Source

/-!
# Grouped texts read back

The text of a grouped tree derives this tree: parentheses stand wherever an operand
holds together less tightly than its place demands, and nowhere else, so each operand
derives the phrase that its place takes.  The reader recognizes exactly its grammar,
and therefore finds the tree again.  A root of index two is the one exception.  It is
written without its index, and comes back without it.
-/

/-! ## Roots of index two -/

section

variable {R : Type} [Scalar R]

mutual

/-- The expression as it is read back, with square roots instead of roots of index two. -/
def Expr.plainRoots : Expr R -> Expr R
  | .num value => .num value
  | .var name => .var name
  | .mem => .mem
  | .target name => .target name
  | .memAt i => .memAt i.plainRoots
  | .func kind x => .func kind x.plainRoots
  | .factorial x => .factorial x.plainRoots
  | .sqrt x => .sqrt x.plainRoots
  | .root x i => if isSquareIndex i then .sqrt x.plainRoots else .root x.plainRoots i.plainRoots
  | .abs x => .abs x.plainRoots
  | .fraction x y => .fraction x.plainRoots y.plainRoots
  | .binary op x y => .binary op x.plainRoots y.plainRoots
  | .binding name x => .binding name x.plainRoots
  | .call name arguments => .call name arguments.plainRoots
  | .paren x => .paren x.plainRoots
  | .marked mark x => .marked mark x.plainRoots
  | .equation l r => .equation l.plainRoots r.plainRoots
  | .declaration name x => .declaration name x.plainRoots

/-- The bindings of a call as they are read back. -/
def Arguments.plainRoots : Arguments R -> Arguments R
  | .nil => .nil
  | .cons name value rest => .cons name value.plainRoots rest.plainRoots

end

/-! ## The text of a grouped tree -/

variable {places : Nat}

theorem parenIf_legible {needed : Bool} {x : Expr R} :
    (parenIf needed x).Legible places <-> x.Legible places := by
  cases needed <;> rfl

/-- Grouped, the operand of a unit bracket ends with no index word. -/
theorem grouped_endsOpen {literal : R -> Prop} {x : Expr R} {allowed : String -> Prop}
    (writable : x.Writable literal allowed) (noIndex : x.isIndexWord = false) :
    (parenIf (needsGroupBefore x.grouped) x.grouped).endsOpen = false := by
  cases x with
  | num value =>
      unfold parenIf
      split <;> rfl
  | mem => cases noIndex
  | var name => exact noIndex
  | call name arguments =>
      cases arguments with
      | nil => exact not_index_of_free writable.2.1
      | cons key value rest => rfl
  | _ => rfl

mutual

theorem Expr.grouped_legible : (x : Expr R) -> x.Writable (LiteralReads places) IsFreeName ->
    x.WellMarked -> x.grouped.Legible places
  | .num _, writable, _ => writable
  | .var _, writable, _ => writable.1
  | .mem, _, _ => trivial
  | .memAt x, writable, wellMarked | .func _ x, writable, wellMarked | .sqrt x, writable, wellMarked
  | .abs x, writable, wellMarked | .paren x, writable, wellMarked =>
      Expr.grouped_legible x writable wellMarked
  | .factorial x, writable, wellMarked =>
      parenIf_legible.mpr (Expr.grouped_legible x writable wellMarked)
  | .root x y, writable, wellMarked | .fraction x y, writable, wellMarked =>
      ⟨Expr.grouped_legible x writable.1 wellMarked.1,
        Expr.grouped_legible y writable.2 wellMarked.2⟩
  | .binary _ x y, writable, wellMarked =>
      ⟨parenIf_legible.mpr (Expr.grouped_legible x writable.1 wellMarked.1),
        parenIf_legible.mpr (Expr.grouped_legible y writable.2 wellMarked.2)⟩
  | .call _ arguments, writable, wellMarked =>
      ⟨writable.1.1, Arguments.grouped_legible arguments writable.2.2 wellMarked⟩
  | .marked _ x, writable, wellMarked =>
      ⟨writable.1.reads wellMarked.1, grouped_endsOpen writable.2 wellMarked.2.1,
        parenIf_legible.mpr (Expr.grouped_legible x writable.2 wellMarked.2.2)⟩

theorem Arguments.grouped_legible : (arguments : Arguments R) ->
    arguments.Writable (LiteralReads places) IsFreeName -> arguments.WellMarked ->
    arguments.grouped.Legible places
  | .nil, _, _ => trivial
  | .cons _ value rest, writable, wellMarked =>
      ⟨writable.1.1, Expr.grouped_legible value writable.2.1 wellMarked.1,
        Arguments.grouped_legible rest writable.2.2 wellMarked.2⟩

end

/-! ## What it derives -/

/-- In parentheses if it needs them, an operand derives the phrase that its place demands. -/
theorem Means.parenIf {x : Expr R} {demand : Nat} {needed : Bool}
    (means : Means (x.lexemes places) x.level x.plainRoots) (high : demand ≤ 4)
    (needs : needed = decide (x.level < demand)) :
    Means ((parenIf needed x).lexemes places) demand (parenIf needed x).plainRoots := by
  cases needed with
  | false => exact means.lower (Nat.le_of_not_lt (of_decide_eq_false needs.symm))
  | true =>
      rcases means.lower (Nat.zero_le x.level) with ⟨room, derivation⟩
      exact (Means.primary (.parenthesized derivation)).lower high

mutual

/-- A grouped tree is derived from its lexemes, at its own level. -/
theorem Expr.grouped_means : (x : Expr R) -> x.Writable (LiteralReads places) IsFreeName ->
    x.WellMarked -> Means (x.grouped.lexemes places) x.grouped.level x.grouped.plainRoots
  | .num _, writable, _ => writable.means
  | .var _, writable, _ => by
      refine ⟨0, .primary (.named ?_)⟩
      rintro rfl
      exact writable.2 (by decide)
  | .mem, _, _ => ⟨0, .primary .memory⟩
  | .memAt x, writable, wellMarked => by
      rcases (Expr.grouped_means x writable wellMarked).lower (Nat.zero_le _) with ⟨room, inner⟩
      exact .primary (.memoryAt inner)
  | .func kind x, writable, wellMarked => by
      rcases (Expr.grouped_means x writable wellMarked).lower (Nat.zero_le _) with ⟨room, inner⟩
      exact .primary (.function (keyword_ofKeyword? kind) inner)
  | .sqrt x, writable, wellMarked => by
      rcases (Expr.grouped_means x writable wellMarked).lower (Nat.zero_le _) with ⟨room, inner⟩
      exact .primary (.squareRoot inner)
  | .abs x, writable, wellMarked => by
      rcases (Expr.grouped_means x writable wellMarked).lower (Nat.zero_le _) with ⟨room, inner⟩
      exact .primary (.bars inner)
  | .paren x, writable, wellMarked => by
      rcases (Expr.grouped_means x writable wellMarked).lower (Nat.zero_le _) with ⟨room, inner⟩
      exact .primary (.parenthesized inner)
  | .factorial x, writable, wellMarked => by
      have operand := (Expr.grouped_means x writable wellMarked).parenIf (Nat.le_refl 4)
        (needsGroupBefore_eq x.grouped)
      rcases operand with ⟨room, derivation⟩
      exact ⟨room, .factorial derivation⟩
  | .marked mark x, writable, wellMarked => by
      have operand := (Expr.grouped_means x writable.2 wellMarked.2.2).parenIf (Nat.le_refl 4)
        (needsGroupBefore_eq x.grouped)
      rcases operand with ⟨room, derivation⟩
      exact ⟨room, .unitBracket derivation wellMarked.1.descriptor⟩
  | .fraction x y, writable, wellMarked => by
      have above := (Expr.grouped_means x writable.1 wellMarked.1).lower (Nat.zero_le _)
      have below := (Expr.grouped_means y writable.2 wellMarked.2).lower (Nat.zero_le _)
      rcases above.both below with ⟨room, first, second⟩
      exact .primary (.fraction first second)
  | .root x y, writable, wellMarked => by
      have radicand := (Expr.grouped_means x writable.1 wellMarked.1).lower (Nat.zero_le _)
      have index := (Expr.grouped_means y writable.2 wellMarked.2).lower (Nat.zero_le _)
      rcases radicand.both index with ⟨room, first, second⟩
      rw [Expr.grouped, Expr.lexemes, Expr.plainRoots]
      split
      · exact .primary (.squareRoot first)
      · exact .primary (.root second first)
  | .binary op x y, writable, wellMarked => by
      have left := (Expr.grouped_means x writable.1 wellMarked.1).parenIf (op.demand_le true)
        (needsGroupBeside_eq op true x.grouped)
      have right := (Expr.grouped_means y writable.2 wellMarked.2).parenIf (op.demand_le false)
        (needsGroupBeside_eq op false y.grouped)
      exact Means.binary op left right
  | .call name .nil, _, _ => ⟨0, .primary (.call name)⟩
  | .call name (.cons key value rest), writable, wellMarked => by
      rcases Arguments.grouped_means (.cons key value rest) writable.2.2 wellMarked with
        ⟨room, bindings⟩
      exact .primary (.callWith name bindings)

/-- The bindings of a call are derived from their lexemes. -/
theorem Arguments.grouped_means : (arguments : Arguments R) ->
    arguments.Writable (LiteralReads places) IsFreeName -> arguments.WellMarked ->
    ∃ room, Derives true room (arguments.grouped.lexemes places)
      (.bindings arguments.grouped.plainRoots)
  | .nil, _, _ => ⟨0, .noBindings⟩
  | .cons name value .nil, writable, wellMarked => by
      rcases (Expr.grouped_means value writable.2.1 wellMarked.1).lower (Nat.zero_le _) with
        ⟨room, inner⟩
      exact ⟨room, .lastBinding name inner⟩
  | .cons name value (.cons key next rest), writable, wellMarked => by
      rcases (Expr.grouped_means value writable.2.1 wellMarked.1).lower (Nat.zero_le _) with
        ⟨room, inner⟩
      rcases Arguments.grouped_means (.cons key next rest) writable.2.2 wellMarked.2 with
        ⟨enough, later⟩
      refine ⟨max room enough, .binding name (inner.relax id (Nat.le_max_left _ _)) rfl
        (later.relax id (Nat.le_max_right _ _)) (Or.inl rfl)⟩

end

/-! ## What it evaluates to -/

/-- Parentheses are left out. -/
def LeavesOut (x y : Expr R) : Prop :=
  x = .paren y

theorem leavesOut_harmless (environment : Environment R) : Harmless environment LeavesOut := by
  rintro deeper trail scopes scope _ y rfl
  rfl

omit [Scalar R] in
theorem parenIf_congruent {needed : Bool} {x y : Expr R} (congruent : Congruent LeavesOut x y) :
    Congruent LeavesOut (parenIf needed x) y := by
  cases needed
  · exact congruent
  · exact .trans (.law rfl) congruent

mutual

/-- Grouping only adds parentheses. -/
theorem Expr.grouped_congruent {literal : R -> Prop} {allowed : String -> Prop} :
    (x : Expr R) -> x.Writable literal allowed ->
    Congruent LeavesOut x.grouped x
  | .num _, _ | .var _, _ | .mem, _ => .refl _
  | .memAt x, writable => .memAt (Expr.grouped_congruent x writable)
  | .func kind x, writable => .func kind (Expr.grouped_congruent x writable)
  | .sqrt x, writable => .sqrt (Expr.grouped_congruent x writable)
  | .abs x, writable => .abs (Expr.grouped_congruent x writable)
  | .paren x, writable => .paren (Expr.grouped_congruent x writable)
  | .factorial x, writable => .factorial (parenIf_congruent (Expr.grouped_congruent x writable))
  | .marked mark x, writable =>
      .marked mark (parenIf_congruent (Expr.grouped_congruent x writable.2))
  | .root x i, writable =>
      .trans (.root i.grouped (Expr.grouped_congruent x writable.1))
        (.index x (Expr.grouped_congruent i writable.2))
  | .fraction x y, writable =>
      .fraction (Expr.grouped_congruent x writable.1) (Expr.grouped_congruent y writable.2)
  | .binary op x y, writable =>
      .binary op (parenIf_congruent (Expr.grouped_congruent x writable.1))
        (parenIf_congruent (Expr.grouped_congruent y writable.2))
  | .call name arguments, writable =>
      .arguments name (Arguments.grouped_congruent arguments writable.2.2)

theorem Arguments.grouped_congruent {literal : R -> Prop} {allowed : String -> Prop} :
    (arguments : Arguments R) -> arguments.Writable literal allowed ->
    List.Forall₂ (fun first second => first.1 = second.1 ∧
      Congruent LeavesOut first.2 second.2) arguments.grouped.toList arguments.toList
  | .nil, _ => .nil
  | .cons _ value rest, writable =>
      .cons ⟨rfl, Expr.grouped_congruent value writable.2.1⟩
        (Arguments.grouped_congruent rest writable.2.2)

end

end

/--
The text of a grouped tree reads back as this tree, whatever reading and solving
have built it, as long as the text is accepted at all: it may be too long or too
deeply nested.  And grouping a tree does not change what it evaluates to.
-/
theorem grouped_text_reads_back {places : Nat} {tree : Expr Float} (built : Built tree)
    (writable : tree.Writable (ReadsBack places) IsFreeName)
    (short : (tree.grouped.plain places).length ≤ lengthLimit)
    (shallow : parse (R := Float) (tree.grouped.text places) ≠
      .error (.tooDeeplyNested nestingLimit)) :
    parse (tree.grouped.text places) = .ok tree.grouped.plainRoots ∧
      forall (environment : Environment Float) (scopes : Scopes Float) (scope : ScopeId),
        evaluate environment scopes scope tree.grouped =
          evaluate environment scopes scope tree := by
  constructor
  · have legible := Expr.Writable.imp (fun _ readsBack => readsBack.literalReads) tree writable
    have reads := Expr.grouped_legible tree legible built.wellMarked
    rcases (Expr.grouped_means tree legible built.wellMarked).lower (Nat.zero_le _) with
      ⟨room, derivation⟩
    rcases reads.parse short with ⟨tokens, same, parses⟩
    rw [parses] at shallow ⊢
    rw [← same] at derivation
    exact statement_of_derives (.expression derivation) shallow
  · intro environment scopes scope
    exact evaluate_congruent (leavesOut_harmless environment)
      (Expr.grouped_congruent tree writable) scopes scope

/-- The right-hand side of `y = a-x^2+b`. -/
def squareDifference : Expr Float :=
  .binary .add (.binary .subtract (.var "a") (.binary .power (.var "x")
    (.num (Number.readSpelling ['2'])))) (.var "b")

/-- Its solution for `x`, with a difference to the right of a difference and a root of index
two. -/
def squareDifferenceSolved : Expr Float :=
  .root (.binary .subtract (.var "a") (.binary .subtract (.var "y") (.var "b")))
    (.num (Number.readSpelling ['2']))

theorem squareDifferenceSolved_built : Built squareDifferenceSolved := by
  have read : (parse (R := Float) "a-x^2+b").toOption = some squareDifference := by decide +kernel
  have solves : (solve squareDifference "x" "y").toOption = some squareDifferenceSolved := by
    decide +kernel
  exact .solved (.read (eq_ok_of_toOption read)) (eq_ok_of_toOption solves)

theorem squareDifferenceSolved_writable :
    squareDifferenceSolved.Writable (ReadsBack 10) IsFreeName := by
  have free : IsFreeName "a" ∧ IsFreeName "y" ∧ IsFreeName "b" := by
    unfold IsFreeName
    decide +kernel
  have two : ReadsBack 10 (Number.readSpelling ['2']) :=
    ⟨by decide +kernel, by decide +kernel, by decide +kernel⟩
  exact ⟨⟨free.1, free.2⟩, two⟩

/-- The solution is written as `sqrt(a-(y-b))`. -/
theorem grouped_text_reads_back_squareDifferenceSolved :
    squareDifferenceSolved.grouped.text 10 = "sqrt(a-(y-b))" ∧
      parse "sqrt(a-(y-b))" = .ok squareDifferenceSolved.grouped.plainRoots ∧
      forall (environment : Environment Float) (scopes : Scopes Float) (scope : ScopeId),
        evaluate environment scopes scope squareDifferenceSolved.grouped =
          evaluate environment scopes scope squareDifferenceSolved := by
  have text : squareDifferenceSolved.grouped.text 10 = "sqrt(a-(y-b))" := by decide +kernel
  have short : (squareDifferenceSolved.grouped.plain 10).length ≤ lengthLimit := by decide +kernel
  have shallow : parse (R := Float) (squareDifferenceSolved.grouped.text 10) ≠
      .error (.tooDeeplyNested nestingLimit) := by
    have accepted : (parse (R := Float) (squareDifferenceSolved.grouped.text 10)).toOption.isSome =
        true := by
      decide +kernel
    intro refused
    rw [refused] at accepted
    cases accepted
  have back := grouped_text_reads_back squareDifferenceSolved_built squareDifferenceSolved_writable
    short shallow
  rw [text] at back
  exact ⟨text, back⟩

end QuantityCalculus
