import QuantityCalculus.Number.BinaryScalar
import QuantityCalculus.Proofs.Grammar.Completeness

namespace QuantityCalculus
namespace Source

/-!
# Recognition

The reader recognizes its grammar: a statement is read exactly when the whole of
its tokens derives it, nothing else can be derived from the same tokens, and all
other tokens are refused as badly worded.  Nesting is the one thing the grammar
does not limit.  A reader with fewer levels approximates one with more: it gives
the same answer or runs out of levels.  So the limit only ever takes answers away.
-/

/-! ## Running out of levels -/

/-- One computation gives what another gives, or it runs out of levels.  Whatever else it
refuses is a fault in the wording. -/
def Approximates {α : Type} (small great : Except Failure α) : Prop :=
  small = .error (.tooDeeplyNested nestingLimit) ∨
    (small = great ∧ forall failure, small = .error failure -> failure.kind = .parse)

theorem Approximates.ok {α : Type} (value : α) :
    Approximates (.ok value) (.ok value) :=
  Or.inr ⟨rfl, nofun⟩

theorem Approximates.fault {α : Type} {failure : Failure} (wording : failure.kind = .parse) :
    Approximates (.error failure : Except Failure α) (.error failure) := by
  refine Or.inr ⟨rfl, ?_⟩
  intro other same
  cases same
  exact wording

theorem Approximates.bind {α β : Type} {small great : Except Failure α}
    {smallRest greatRest : α -> Except Failure β} (first : Approximates small great)
    (rest : forall value, Approximates (smallRest value) (greatRest value)) :
    Approximates (small >>= smallRest) (great >>= greatRest) := by
  rcases first with deep | ⟨rfl, wording⟩
  · rw [deep]
    exact Or.inl rfl
  · cases small with
    | error failure => exact .fault (wording failure rfl)
    | ok value => exact rest value

theorem unexpectedAt_kind (stop : Nat) (expectation : Expectation) (tokens : Tokens) :
    (unexpectedAt stop expectation tokens).kind = .parse := by
  cases tokens <;> rfl

theorem afterSymbol_approximates (stop : Nat) (c : Char) (tokens : Tokens) :
    Approximates (afterSymbol stop c tokens) (afterSymbol stop c tokens) := by
  unfold afterSymbol
  split
  · exact .ok _
  · exact .fault (unexpectedAt_kind _ _ _)

theorem nameFrom_approximates (stop : Nat) (tokens : Tokens) :
    Approximates (nameFrom stop tokens) (nameFrom stop tokens) := by
  unfold nameFrom
  split
  · exact .ok _
  · exact .fault (unexpectedAt_kind _ _ _)

theorem unitMark_approximates (content : String) (position : Nat) :
    Approximates (unitMark content position) (unitMark content position) := by
  rw [unitMark_eq_markOf]
  generalize questionAfter _ = asked
  cases asked with
  | none => exact .fault rfl
  | some cast =>
      rw [markOf]
      cases cast <;> split <;> first | exact .ok _ | exact .fault rfl

section

variable {R : Type} {stop : Nat} {small great : Production (Expr R)}

theorem chainRest_approximates (operator? : Lexeme -> Option Operator)
    (operands : forall tokens, Approximates (small tokens) (great tokens)) (rounds : Nat)
    (left : Expr R) (tokens : Tokens) :
    Approximates (chainRest small operator? rounds left tokens)
      (chainRest great operator? rounds left tokens) := by
  induction rounds generalizing left tokens with
  | zero => exact .ok _
  | succ rounds inductionHypothesis =>
      cases tokens with
      | nil => exact .ok _
      | cons token tokens =>
          rw [chainRest, chainRest]
          cases operator? token.lexeme with
          | none => exact .ok _
          | some op => exact .bind (operands tokens) fun _ => inductionHypothesis _ _

theorem chain_approximates (operator? : Lexeme -> Option Operator)
    (operands : forall tokens, Approximates (small tokens) (great tokens)) (tokens : Tokens) :
    Approximates (chain small operator? tokens) (chain great operator? tokens) :=
  .bind (operands tokens) fun _ => chainRest_approximates operator? operands _ _ _

theorem between_approximates (left right : Char)
    (inside : forall tokens, Approximates (small tokens) (great tokens)) (tokens : Tokens) :
    Approximates (between stop left right small tokens) (between stop left right great tokens) :=
  .bind (afterSymbol_approximates _ _ _) fun _ =>
    .bind (inside _) fun _ => .bind (afterSymbol_approximates _ _ _) fun _ => .ok _

theorem bindingsFrom_approximates
    (inside : forall tokens, Approximates (small tokens) (great tokens)) (rounds : Nat)
    (tokens : Tokens) :
    Approximates (bindingsFrom stop small rounds tokens)
      (bindingsFrom stop great rounds tokens) := by
  induction rounds generalizing tokens with
  | zero => exact .ok _
  | succ rounds inductionHypothesis =>
      rw [bindingsFrom, bindingsFrom]
      cases (afterSymbol? '\x7d' tokens).isSome
      · refine .bind (nameFrom_approximates _ _) fun _ => ?_
        refine .bind (afterSymbol_approximates _ _ _) fun _ => ?_
        refine .bind (inside _) ?_
        rintro ⟨value, rest⟩
        dsimp only
        split
        · exact .bind (inductionHypothesis _) fun _ => .ok _
        · exact .ok _
      · exact .ok _

theorem callFrom_approximates (inside : forall tokens, Approximates (small tokens) (great tokens))
    (tokens : Tokens) :
    Approximates (callFrom stop small tokens) (callFrom stop great tokens) := by
  refine .bind (nameFrom_approximates _ _) ?_
  rintro ⟨name, rest⟩
  dsimp only
  split
  · exact .bind (bindingsFrom_approximates inside _ _) fun _ =>
      .bind (afterSymbol_approximates _ _ _) fun _ => .ok _
  · exact .ok _

theorem wordFrom_approximates (inside : forall tokens, Approximates (small tokens) (great tokens))
    (word : String) (tokens : Tokens) :
    Approximates (wordFrom stop small word tokens) (wordFrom stop great word tokens) := by
  have argument : forall tokens,
      Approximates (between stop '(' ')' small tokens) (between stop '(' ')' great tokens) :=
    between_approximates '(' ')' inside
  have index : forall tokens,
      Approximates (between stop '[' ']' small tokens) (between stop '[' ']' great tokens) :=
    between_approximates '[' ']' inside
  unfold wordFrom
  dsimp only
  split
  · exact .bind (argument _) fun _ => .bind (argument _) fun _ => .ok _
  · split
    · exact .bind (argument _) fun _ => .ok _
    · split
      · exact .bind (index _) fun _ => .bind (argument _) fun _ => .ok _
      · split
        · split
          · exact .bind (index _) fun _ => .ok _
          · exact .ok _
        · split
          · split
            · exact .bind (argument _) fun _ => .ok _
            · exact .ok _
          · exact .ok _

end

section

variable {R : Type} [Scalar R] {stop : Nat} {small great : Production (Expr R)}

theorem primary_approximates (inside : forall tokens, Approximates (small tokens) (great tokens))
    (tokens : Tokens) :
    Approximates (primary stop small tokens) (primary stop great tokens) := by
  unfold primary
  split
  · exact .ok _
  · exact wordFrom_approximates inside _ _
  · exact .bind (between_approximates _ _ inside _) fun _ => .ok _
  · exact .bind (between_approximates _ _ inside _) fun _ => .ok _
  · exact callFrom_approximates inside _
  · exact .fault (unexpectedAt_kind _ _ _)

omit [Scalar R] in
theorem marksFrom_approximates (expr : Expr R) (tokens : Tokens) :
    Approximates (marksFrom expr tokens) (marksFrom expr tokens) := by
  induction tokens generalizing expr with
  | nil => exact .ok _
  | cons token tokens inductionHypothesis =>
      rw [marksFrom]
      split
      · exact inductionHypothesis _
      · exact .bind (unitMark_approximates _ _) fun _ => inductionHypothesis _
      · exact .ok _

theorem powerFrom_approximates {smallUnary greatUnary : Production (Expr R)}
    (inside : forall tokens, Approximates (small tokens) (great tokens))
    (exponents : forall tokens, Approximates (smallUnary tokens) (greatUnary tokens))
    (tokens : Tokens) :
    Approximates (powerFrom stop small smallUnary tokens)
      (powerFrom stop great greatUnary tokens) := by
  refine .bind (primary_approximates inside _) fun _ => ?_
  refine .bind (marksFrom_approximates _ _) ?_
  rintro ⟨base, rest⟩
  dsimp only
  split
  · exact .bind (exponents _) fun _ => .ok _
  · exact .ok _

/-- By induction on the smaller number of levels. -/
theorem expressionFrom_unaryFrom_approximate {room more : Nat} (bound : room ≤ more) :
    (forall tokens, Approximates (expressionFrom (R := R) stop room tokens)
        (expressionFrom stop more tokens)) ∧
      (forall tokens, Approximates (unaryFrom (R := R) stop room tokens)
        (unaryFrom stop more tokens)) := by
  induction room generalizing more with
  | zero => exact ⟨fun _ => Or.inl rfl, fun _ => Or.inl rfl⟩
  | succ room inductionHypothesis =>
      cases more with
      | zero => exact absurd bound (Nat.not_succ_le_zero _)
      | succ more =>
          rcases inductionHypothesis (Nat.le_of_succ_le_succ bound) with ⟨expressions, unaries⟩
          refine ⟨?_, ?_⟩
          · exact chain_approximates _ (chain_approximates _ unaries)
          · intro tokens
            rw [unaryFrom, unaryFrom]
            cases afterSymbol? '-' tokens with
            | some rest => exact .bind (unaries _) fun _ => .ok _
            | none =>
                cases afterSymbol? '+' tokens with
                | some rest => exact unaries _
                | none => exact powerFrom_approximates expressions unaries _

omit [Scalar R] in
theorem statementBy_approximates
    (inside : forall tokens, Approximates (small tokens) (great tokens)) (tokens : Tokens) :
    Approximates (statementBy stop small tokens) (statementBy stop great tokens) := by
  have equations : forall tokens, Approximates (equationFrom small tokens)
      (equationFrom great tokens) := by
    intro tokens
    refine .bind (inside _) ?_
    rintro ⟨left, rest⟩
    dsimp only
    split
    · exact .ok _
    · refine .bind (inside _) ?_
      rintro ⟨right, rest⟩
      dsimp only
      split
      · exact .fault rfl
      · exact .ok _
  refine .bind ?_ ?_
  · unfold statementFrom
    split
    · exact .bind (nameFrom_approximates _ _) fun _ => .ok _
    · exact .bind (inside _) fun _ => .ok _
    · exact equations _
  · rintro ⟨expr, rest⟩
    cases rest with
    | nil => exact .ok _
    | cons token rest => exact .fault (unexpectedAt_kind _ _ _)

/-! ## Statements -/

/-- Reading with more levels than the limit reads the same, unless the limit is met. -/
theorem statement_approximates {room : Nat} (bound : nestingLimit ≤ room) (tokens : Tokens) :
    Approximates (statement (R := R) stop tokens)
      (statementBy stop (expressionFrom stop room) tokens) :=
  statementBy_approximates (expressionFrom_unaryFrom_approximate bound).1 tokens

/-- Whatever its depth, a derivation is read unless the reader runs out of levels. -/
theorem statement_of_derives {tokens : Tokens} {room : Nat} {expr : Expr R}
    (derivation : DerivesStatement true room (tokens.map Token.lexeme) expr)
    (shallow : statement (R := R) stop tokens ≠ .error (.tooDeeplyNested nestingLimit)) :
    statement stop tokens = .ok expr := by
  have deep := derivation.relax id (Nat.le_max_right nestingLimit room)
  rcases statement_approximates (R := R) (Nat.le_max_left nestingLimit room) tokens with
    runsOut | ⟨same, _⟩
  · exact absurd runsOut shallow
  · rw [same]
    exact statementBy_complete deep

/-- Two derivations by the same lexemes are of the same statement. -/
theorem DerivesStatement.unique {lexemes : List Lexeme} {room more : Nat} {expr other : Expr R}
    (first : DerivesStatement true room lexemes expr)
    (second : DerivesStatement true more lexemes other) : expr = other := by
  have placed : (lexemes.map fun lexeme => Token.mk lexeme 0).map Token.lexeme = lexemes := by
    rw [List.map_map]
    exact List.map_id _
  rw [← placed] at first second
  have readFirst : statementBy 0 (expressionFrom 0 (max room more)) _ = .ok expr :=
    statementBy_complete (first.relax id (Nat.le_max_left room more))
  have readSecond : statementBy 0 (expressionFrom 0 (max room more)) _ = .ok other :=
    statementBy_complete (second.relax id (Nat.le_max_right room more))
  rw [readFirst] at readSecond
  cases readSecond
  rfl

/--
The reader recognizes exactly its grammar.  What it reads is what the whole of
the tokens derives within the limit of levels.  When the limit is not met, it
reads whatever the tokens derive at all and refuses all else for its wording.
No tokens derive two statements.
-/
theorem statement_recognizes (stop : Nat) (tokens : Tokens) :
    (forall expr : Expr R, statement stop tokens = .ok expr <->
      DerivesStatement true nestingLimit (tokens.map Token.lexeme) expr) ∧
    (statement (R := R) stop tokens ≠ .error (.tooDeeplyNested nestingLimit) ->
      (forall expr : Expr R, statement stop tokens = .ok expr <->
        ∃ room, DerivesStatement true room (tokens.map Token.lexeme) expr) ∧
      forall failure, statement (R := R) stop tokens = .error failure ->
        failure.kind = .parse) ∧
    forall (room more : Nat) (expr other : Expr R),
      DerivesStatement true room (tokens.map Token.lexeme) expr ->
      DerivesStatement true more (tokens.map Token.lexeme) other -> expr = other := by
  refine ⟨?_, ?_, ?_⟩
  · intro expr
    exact ⟨statementBy_sound, statementBy_complete⟩
  · intro shallow
    refine ⟨?_, ?_⟩
    · intro expr
      constructor
      · intro accepted
        exact ⟨nestingLimit, statementBy_sound accepted⟩
      · rintro ⟨room, derivation⟩
        exact statement_of_derives derivation shallow
    · intro failure refused
      rcases statement_approximates (R := R) (Nat.le_refl nestingLimit) tokens with
        runsOut | ⟨_, wording⟩
      · exact absurd runsOut shallow
      · exact wording failure refused
  · intro room more expr other first second
    exact first.unique second

/-! ## A separator behind the last binding -/

/-- Without signs of operators and marks, an expression is a primary. -/
theorem Derives.primary_of_no_signs {trailing : Bool} {room : Nat} {lexemes : List Lexeme}
    {x : Expr R} (derivation : Derives trailing room lexemes (.expression x))
    (plain : forall lexeme, lexeme ∈ lexemes -> lexeme.tie = 0 ∨ lexeme.tie = 5) :
    ∃ inner, Derives trailing inner lexemes (.primary x) := by
  have absent : forall {sign : Lexeme},
      sign ∈ lexemes -> 0 < sign.tie -> sign.tie < 5 -> False := by
    intro sign member above below
    rcases plain sign member with tie | tie <;> omega
  cases derivation with
  | sum _ operates _ => exact (absent (by simp) (additive?_tie operates ▸ Nat.one_pos) (by
      rw [additive?_tie operates]; decide)).elim
  | term terms =>
      cases terms with
      | product _ operates _ => exact (absent (by simp) (multiplicative?_tie operates ▸ Nat.two_pos)
          (by rw [multiplicative?_tie operates]; decide)).elim
      | unary unaries =>
          cases unaries with
          | minus _ => exact (absent List.mem_cons_self (by decide) (by decide)).elim
          | plus _ => exact (absent List.mem_cons_self (by decide) (by decide)).elim
          | power powers =>
              cases powers with
              | raised _ _ =>
                  have raises : (Lexeme.symbol '^').tie = 3 := rfl
                  exact (absent (List.mem_append_right _ List.mem_cons_self)
                    (by rw [raises]; decide) (by rw [raises]; decide)).elim
              | marked marks =>
                  cases marks with
                  | factorial _ =>
                      have tie : (Lexeme.symbol '!').tie = 4 := rfl
                      exact (absent (List.mem_append_right _ List.mem_cons_self)
                        (by rw [tie]; decide) (by rw [tie]; decide)).elim
                  | unitBracket _ _ =>
                      have tie : forall content, (Lexeme.unit content).tie = 4 := fun _ => rfl
                      exact (absent (List.mem_append_right _ List.mem_cons_self)
                        (by rw [tie]; decide) (by rw [tie]; decide)).elim
                  | primary found => exact ⟨_, found⟩

end

/-- The lexemes of a call whose only binding has a separator behind it. -/
def trailingCall : List Lexeme :=
  [.symbol '$', .name "f", .symbol '\x7b', .name "a", .symbol '=', .number ['1'], .symbol ';',
    .symbol '\x7d']

/-- The tokens of a call whose only binding has a separator behind it. -/
def trailingCallTokens : Tokens :=
  [⟨.symbol '$', 0⟩, ⟨.name "f", 1⟩, ⟨.symbol '\x7b', 2⟩, ⟨.name "a", 3⟩, ⟨.symbol '=', 4⟩,
    ⟨.number ['1'], 5⟩, ⟨.symbol ';', 6⟩, ⟨.symbol '\x7d', 7⟩]

/-- The call itself. -/
def callOfOne : Expr Float :=
  .call "f" (.cons "a" (.num (Number.readSpelling ['1'])) .nil)

theorem trailingCall_derives : DerivesStatement true nestingLimit trailingCall callOfOne := by
  have value : Derives (R := Float) true 3 [.number ['1']]
      (.expression (.num (Number.readSpelling ['1']))) :=
    .term (.unary (.power (.marked (.primary (.number ['1'])))))
  have bound : Derives true 3 [.name "a", .symbol '=', .number ['1'], .symbol ';']
      (.bindings (.cons "a" (.num (Number.readSpelling ['1'])) .nil)) :=
    .binding "a" value rfl .noBindings (Or.inl rfl)
  have called : Derives true 5 trailingCall (.expression callOfOne) :=
    .term (.unary (.power (.marked (.primary (.callWith "f" bound)))))
  exact .expression (called.relax id (by decide))

theorem statement_recognizes_trailingCall :
    statement 8 trailingCallTokens = .ok callOfOne ∧
      statement (R := Float) 8 trailingCallTokens ≠ .error (.tooDeeplyNested nestingLimit) ∧
      forall expr : Expr Float, statement 8 trailingCallTokens = .ok expr <->
        ∃ room, DerivesStatement true room trailingCall expr := by
  have recognizes := statement_recognizes (R := Float) 8 trailingCallTokens
  have accepted := (recognizes.1 callOfOne).mpr trailingCall_derives
  have shallow : statement (R := Float) 8 trailingCallTokens ≠
      .error (.tooDeeplyNested nestingLimit) := by
    rw [accepted]
    exact nofun
  exact ⟨accepted, shallow, (recognizes.2.1 shallow).1⟩

/-- No expression is made of a number and a separator behind it, or of nothing. -/
theorem no_expression {trailing : Bool} {room : Nat} {lexemes : List Lexeme} {x : Expr Float}
    (short : lexemes = [.number ['1'], .symbol ';'] ∨ lexemes = []) :
    ¬ Derives trailing room lexemes (.expression x) := by
  intro derivation
  have plain : forall lexeme, lexeme ∈ lexemes -> lexeme.tie = 0 ∨ lexeme.tie = 5 := by
    rcases short with rfl | rfl
    · decide
    · exact nofun
  rcases derivation.primary_of_no_signs plain with ⟨inner, found⟩
  cases found <;> rcases short with written | written <;> cases written

theorem not_derives_trailingCall {room : Nat} {expr : Expr Float} :
    ¬ Derives false room trailingCall (.expression expr) := by
  intro derivation
  have plain : forall lexeme, lexeme ∈ trailingCall -> lexeme.tie = 0 ∨ lexeme.tie = 5 := by
    decide
  rcases derivation.primary_of_no_signs plain with ⟨inner, found⟩
  generalize written : trailingCall = lexemes at found
  cases found <;> try cases written
  rename_i lexemes arguments name bound
  simp only [trailingCall, within, List.cons.injEq, Lexeme.name.injEq, true_and] at written
  rcases written with ⟨rfl, written⟩
  have inside : lexemes = [.name "a", .symbol '=', .number ['1'], .symbol ';'] :=
    List.append_cancel_right written.symm
  subst inside
  generalize content : [Lexeme.name "a", .symbol '=', .number ['1'], .symbol ';'] = lexemes at bound
  cases bound with
  | noBindings => cases content
  | lastBinding _ value =>
      cases content
      exact no_expression (Or.inl rfl) value
  | @binding room value separator more _ _ _ valued separates others follows =>
      simp only [List.cons.injEq, true_and] at content
      rcases follows with impossible | present
      · cases impossible
      · cases value with
        | nil => exact no_expression (Or.inr rfl) valued
        | cons first rest =>
            have lengths := congrArg List.length content.2
            have positive := List.length_pos_iff.mpr present
            simp only [List.cons_append, List.length_cons, List.length_append,
              List.length_nil] at lengths
            omega

/-- With separators between bindings only, such a call is not derived, yet it is read. -/
theorem trailingCall_read_not_derived :
    tokenize "$f\x7ba=1;\x7d".toList = .ok trailingCallTokens ∧
      statement 8 trailingCallTokens = .ok callOfOne ∧
      forall (room : Nat) (expr : Expr Float),
        ¬ DerivesStatement false room (trailingCallTokens.map Token.lexeme) expr := by
  refine ⟨?_, statementBy_complete trailingCall_derives, ?_⟩
  · have tokens : (tokenize "$f\x7ba=1;\x7d".toList).toOption = some trailingCallTokens := by
      decide
    cases read : tokenize "$f\x7ba=1;\x7d".toList with
    | error failure =>
        rw [read] at tokens
        cases tokens
    | ok found =>
        rw [read] at tokens
        cases tokens
        rfl
  · intro room expr derivation
    have same := (derivation.relax nofun (Nat.le_refl room)).unique trailingCall_derives
    generalize written : trailingCallTokens.map Token.lexeme = lexemes at derivation
    cases derivation with
    | target name => cases same
    | declaration name value => cases same
    | expression whole => exact not_derives_trailingCall (written ▸ whole)
    | equation left right => cases same

end Source
end QuantityCalculus
