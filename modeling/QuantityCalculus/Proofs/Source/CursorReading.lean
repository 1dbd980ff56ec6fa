import QuantityCalculus.Number.BinaryScalar
import QuantityCalculus.Proofs.Grammar.Soundness
import QuantityCalculus.Proofs.Source.Cursor
import QuantityCalculus.Proofs.Source.Tiling

namespace QuantityCalculus
namespace Source

/-!
# A cursor that stays inside the list

The end of the list is never passed, and every loop passes a token before it goes round.
Between a call of the reader of expressions and the next one a token is passed, too, while the
calls in between go down the precedence levels, of which there are two that count.  So twice the
number of tokens and a little more bounds how deeply the calls are nested, and in each place the
reader does what the production does there.
-/

namespace Scan

variable {α β R : Type}

/-- A reader follows a production wherever fewer tokens are left than some bound. -/
def FollowsBelow (stop : Nat) (tokens : Tokens) (room bound : Nat) (scan : Scan α)
    (production : Production α) : Prop :=
  forall rest, rest.length < bound -> Follows stop tokens room rest scan (production rest)

/-! ### Parts of expressions -/

section

variable {stop : Nat} {tokens rest : Tokens} {room bound : Nat}
  {operand expression : Scan (Expr R)} {production : Production (Expr R)}

/-- By induction on the rounds; each passes an operator, so there are more than are needed. -/
theorem chainFrom_follows {operator? : Lexeme -> Option Operator}
    (operands : FollowsBelow stop tokens room bound operand production) {calls rounds : Nat}
    (inside : rest.length < calls) (enough : rest.length ≤ rounds) (short : rest.length ≤ bound)
    (left : Expr R) :
    Follows stop tokens room rest (chainFrom operand operator? calls left)
      (chainRest production operator? rounds left rest) := by
  induction calls generalizing rest rounds left with
  | zero => exact absurd inside (Nat.not_lt_zero _)
  | succ calls inductionHypothesis =>
      refine Follows.current_bind ?_
      rcases rest with _ | ⟨token, further⟩
      · have finished : chainRest production operator? rounds left [] = .ok (left, []) := by
          cases rounds <;> rfl
        rw [finished]
        exact .pure left
      · cases rounds with
        | zero => exact absurd enough (Nat.not_succ_le_zero _)
        | succ rounds =>
            have looked : (front stop (token :: further)).lexeme?.bind operator? =
                operator? token.lexeme := rfl
            rw [looked, chainRest]
            cases operator? token.lexeme with
            | none => exact .pure left
            | some op =>
                refine Follows.advance_bind ?_
                refine (operands further short).bind fun right last fewer => ?_
                exact inductionHypothesis
                  (Nat.lt_of_le_of_lt fewer (Nat.lt_of_succ_lt_succ inside))
                  (Nat.le_trans fewer (Nat.le_of_succ_le_succ enough))
                  (Nat.le_trans fewer (Nat.le_of_lt short)) _

theorem chain_follows {operator? : Lexeme -> Option Operator}
    (operands : FollowsBelow stop tokens room bound operand production) {calls : Nat}
    (enough : bound ≤ calls) :
    FollowsBelow stop tokens room bound (chain operand operator? calls)
      (Source.chain production operator?) := by
  intro rest short
  refine (operands rest short).bind fun first further fewer => ?_
  have below := Nat.lt_of_le_of_lt fewer short
  exact chainFrom_follows operands (Nat.lt_of_lt_of_le below enough) (Nat.le_refl _)
    (Nat.le_of_lt below) first

/-- Behind the opening symbol the production between two symbols is followed. -/
theorem closedBy_follows {left right : Char} {further : Tokens}
    (opened : afterSymbol? left rest = some further)
    (inner : Follows stop tokens room further expression (production further)) :
    Follows stop tokens room further (closedBy right expression)
      (Source.between stop left right production rest) := by
  have begun : afterSymbol stop left rest = .ok further := by rw [afterSymbol, opened]
  rw [Source.between, bind_eq_of_ok begun]
  exact inner.bind fun x last _ => Follows.expect_bind fun _ _ => .pure x

theorem argument_follows (inner : FollowsBelow stop tokens room bound expression production)
    (short : rest.length ≤ bound) :
    Follows stop tokens room rest (argument expression)
      (Source.between stop '(' ')' production rest) := by
  refine Follows.expect_bind fun further fewer => ?_
  refine (inner further (Nat.lt_of_lt_of_le fewer short)).bind fun x last _ => ?_
  exact Follows.expect_bind fun _ _ => .pure x

theorem bindingsFrom_follows (inner : FollowsBelow stop tokens room bound expression production)
    {calls rounds : Nat} (inside : rest.length < calls) (enough : rest.length < rounds)
    (short : rest.length ≤ bound) :
    Follows stop tokens room rest (bindingsFrom expression calls)
      (Source.bindingsFrom stop production rounds rest) := by
  induction calls generalizing rest rounds with
  | zero => exact absurd inside (Nat.not_lt_zero _)
  | succ calls inductionHypothesis =>
      cases rounds with
      | zero => exact absurd enough (Nat.not_lt_zero _)
      | succ rounds =>
          rw [bindingsFrom, Source.bindingsFrom]
          refine Follows.check_bind ?_
          split
          · exact Follows.pure Arguments.nil
          · refine Follows.expectName.bind fun word behind shorter => ?_
            refine Follows.expect_bind fun further fewer => ?_
            have below := Nat.lt_of_lt_of_le fewer shorter
            refine (inner further (Nat.lt_of_lt_of_le below short)).bind fun x last fewer => ?_
            have remaining := Nat.lt_of_le_of_lt fewer below
            -- either separator is passed, so that a round less is enough for what follows
            have next : forall behind, behind.length < last.length ->
                Follows stop tokens room behind
                  (bindingsFrom expression calls >>= fun more =>
                    (Pure.pure (Arguments.cons word x more) : Scan (Arguments R)))
                  (Source.bindingsFrom stop production rounds behind >>= fun found =>
                    .ok (.cons word x found.1, found.2)) := by
              intro behind passed
              have fewerStill := Nat.lt_trans passed remaining
              refine (inductionHypothesis ?_ ?_ ?_).bind fun more last _ => .pure _
              · exact Nat.lt_of_lt_of_le fewerStill (Nat.le_of_lt_succ inside)
              · exact Nat.lt_of_lt_of_le fewerStill (Nat.le_of_lt_succ enough)
              · exact Nat.le_trans (Nat.le_of_lt fewerStill) short
            refine Follows.accept_bind (fun behind found passed => ?_) fun missing => ?_
            · have separated : afterSeparator? last = some behind := by
                rw [afterSeparator?, found, Option.some_or]
              simp only [separated]
              exact next behind passed
            · refine Follows.accept_bind (fun behind found passed => ?_) fun missingToo => ?_
              · have separated : afterSeparator? last = some behind := by
                  rw [afterSeparator?, missing, found, Option.none_or]
                simp only [separated]
                exact next behind passed
              · have separated : afterSeparator? last = none := by
                  rw [afterSeparator?, missing, missingToo, Option.none_or]
                simp only [separated]
                exact .pure _

theorem call_follows (inner : FollowsBelow stop tokens room bound expression production)
    {calls : Nat} (enough : bound ≤ calls) :
    FollowsBelow stop tokens room bound (call expression calls)
      (Source.callFrom stop production) := by
  intro rest short
  refine Follows.expectName.bind fun word behind fewer => ?_
  refine Follows.accept_bind (fun further found passed => ?_) fun missing => ?_
  · have below := Nat.lt_trans (Nat.lt_of_lt_of_le passed fewer) short
    simp only [found]
    refine (bindingsFrom_follows inner (Nat.lt_of_lt_of_le below enough) (Nat.lt_succ_self _)
      (Nat.le_of_lt below)).bind fun arguments last _ => ?_
    exact Follows.expect_bind fun _ _ => .pure _
  · simp only [missing]
    exact .pure _

theorem wordFrom_follows (inner : FollowsBelow stop tokens room bound expression production)
    (short : rest.length ≤ bound) (word : String) :
    Follows stop tokens room rest (wordFrom expression word)
      (Source.wordFrom stop production word rest) := by
  have behind : forall {further : Tokens}, further.length ≤ rest.length ->
      Follows stop tokens room further (argument expression)
        (Source.between stop '(' ')' production further) :=
    fun fewer => argument_follows inner (Nat.le_trans fewer short)
  unfold wordFrom Source.wordFrom
  refine Follows.check_bind (Follows.check_bind ?_)
  dsimp only
  split
  · refine (behind (Nat.le_refl _)).bind fun x further fewer => ?_
    exact (behind fewer).bind fun y last _ => .pure _
  · split
    · exact (behind (Nat.le_refl _)).bind fun x further _ => .pure _
    · split
      · rename_i indexed
        rcases Option.isSome_iff_exists.mp (Bool.and_eq_true_iff.mp indexed).2 with
          ⟨further, opened⟩
        rcases afterSymbol?_eq_some_iff.mp opened with ⟨position, rfl⟩
        refine Follows.advance_bind ?_
        have within := inner further (Nat.lt_of_succ_le short)
        refine (closedBy_follows opened within).bind fun index last fewer => ?_
        exact (behind (Nat.le_succ_of_le fewer)).bind fun x final _ => .pure _
      · split
        · refine Follows.accept_bind (fun further opened passed => ?_) fun missing => ?_
          · rw [opened, Option.isSome_some, if_pos rfl]
            have within := inner further (Nat.lt_of_lt_of_le passed short)
            exact (closedBy_follows opened within).bind fun index last _ => .pure _
          · rw [missing, Option.isSome_none, if_neg Bool.false_ne_true]
            exact .pure _
        · cases FunctionKind.ofKeyword? word with
          | none => exact .pure _
          | some kind =>
              dsimp only
              split
              · exact (behind (Nat.le_refl _)).bind fun x further _ => .pure _
              · exact .pure _

/-- What is refused in a unit bracket is refused at its place. -/
theorem refusedAt_unitMark {content : String} {token : Token} {failure : Failure}
    (refused : unitMark content token.position = .error failure)
    (member : ⟨some token.lexeme, token.position⟩ ∈ entries stop tokens) :
    RefusedAt (entries stop tokens) failure := by
  have place : failure.kind = .parse ∧ failure.position? = some token.position := by
    rw [unitMark_eq_markOf] at refused
    generalize questionAfter _ = asked at refused
    cases asked with
    | none =>
        cases refused
        exact ⟨rfl, rfl⟩
    | some cast =>
        rw [markOf] at refused
        cases cast <;> split at refused <;> cases refused
        exact ⟨rfl, rfl⟩
  exact Or.inr ⟨place.1, _, member, place.2⟩

/-- By induction on the rounds; each passes a sign or a bracket. -/
theorem marksFrom_follows {calls : Nat} (inside : rest.length < calls) (expr : Expr R) :
    Follows stop tokens room rest (marksFrom calls expr) (Source.marksFrom expr rest) := by
  induction calls generalizing rest expr with
  | zero => exact absurd inside (Nat.not_lt_zero _)
  | succ calls inductionHypothesis =>
      refine Follows.accept_bind (fun further found _ => ?_) fun missing => ?_
      · rcases afterSymbol?_eq_some_iff.mp found with ⟨position, rfl⟩
        exact inductionHypothesis (Nat.lt_of_succ_lt_succ inside) _
      · refine Follows.current_bind (Follows.listed fun member => ?_)
        rcases rest with _ | ⟨⟨lexeme, position⟩, further⟩
        · exact .pure expr
        · cases lexeme with
          | unit content =>
              refine Follows.advance_bind ?_
              rw [Source.marksFrom]
              dsimp only [front]
              cases read : unitMark content position with
              | error failure => exact .refuse (refusedAt_unitMark read member)
              | ok unit => exact inductionHypothesis (Nat.lt_of_succ_lt_succ inside) _
          | symbol c =>
              have other : c ≠ '!' := by
                rintro rfl
                cases missing
              have finished : Source.marksFrom expr (⟨.symbol c, position⟩ :: further) =
                  .ok (expr, ⟨.symbol c, position⟩ :: further) := by
                rw [Source.marksFrom]
                split
                · rename_i same
                  exact absurd (Lexeme.symbol.inj same) other
                · rename_i same
                  cases same
                · rfl
              rw [finished]
              exact .pure expr
          | _ => exact .pure expr

theorem signFrom_follows [Scalar R]
    (inner : FollowsBelow stop tokens room bound expression production) {calls : Nat}
    (enough : bound ≤ calls) (short : rest.length ≤ bound)
    (noNumber : forall spelling, (front stop rest).lexeme? ≠ some (.number spelling))
    (noName : forall word, (front stop rest).lexeme? ≠ some (.name word)) :
    Follows stop tokens room rest (signFrom expression calls)
      (Source.primary stop production rest) := by
  have within : forall {further : Tokens}, further.length < rest.length ->
      Follows stop tokens room further expression (production further) :=
    fun fewer => inner _ (Nat.lt_of_lt_of_le fewer short)
  refine Follows.accept_bind (fun further opened passed => ?_) fun noParenthesis => ?_
  · rcases afterSymbol?_eq_some_iff.mp opened with ⟨position, rfl⟩
    exact (closedBy_follows opened (within passed)).bind fun x last _ => .pure _
  refine Follows.accept_bind (fun further opened passed => ?_) fun noBar => ?_
  · rcases afterSymbol?_eq_some_iff.mp opened with ⟨position, rfl⟩
    exact (closedBy_follows opened (within passed)).bind fun x last _ => .pure _
  refine Follows.accept_bind (fun further found passed => ?_) fun noCall => ?_
  · rcases afterSymbol?_eq_some_iff.mp found with ⟨position, rfl⟩
    exact call_follows inner enough further (Nat.lt_of_lt_of_le passed short)
  have refused : Source.primary stop production rest =
      .error (unexpectedAt stop .token rest) := by
    unfold Source.primary
    split
    · exact absurd rfl (noNumber _)
    · exact absurd rfl (noName _)
    · cases noParenthesis
    · cases noBar
    · cases noCall
    · rfl
  rw [refused]
  exact .unexpected .token

theorem primary_follows [Scalar R]
    (inner : FollowsBelow stop tokens room bound expression production) {calls : Nat}
    (enough : bound ≤ calls) (short : rest.length ≤ bound) :
    Follows stop tokens room rest (primary expression calls)
      (Source.primary stop production rest) := by
  refine Follows.current_bind ?_
  rcases rest with _ | ⟨⟨lexeme, position⟩, further⟩
  · exact signFrom_follows inner enough short nofun nofun
  · cases lexeme with
    | number spelling => exact Follows.advance_bind (.pure _)
    | name word =>
        exact Follows.advance_bind (wordFrom_follows inner (Nat.le_of_succ_le short) word)
    | _ => exact signFrom_follows inner enough short nofun nofun

theorem power_follows [Scalar R] {unary : Scan (Expr R)} {exponents : Production (Expr R)}
    (inner : FollowsBelow stop tokens room bound expression production)
    (raised : FollowsBelow stop tokens room bound unary exponents) {calls : Nat}
    (enough : bound < calls) (short : rest.length ≤ bound) :
    Follows stop tokens room rest (power expression unary calls)
      (Source.powerFrom stop production exponents rest) := by
  refine (primary_follows inner (Nat.le_of_lt enough) short).bind fun first behind fewer => ?_
  have inside := Nat.lt_of_le_of_lt (Nat.le_trans fewer short) enough
  refine (marksFrom_follows inside first).bind fun base last fewerStill => ?_
  refine Follows.accept_bind (fun further found passed => ?_) fun missing => ?_
  · simp only [found]
    have below := Nat.lt_of_lt_of_le passed (Nat.le_trans fewerStill (Nat.le_trans fewer short))
    exact (raised further below).bind fun exponent final _ => .pure _
  · simp only [missing]
    exact .pure base

/-! ### Expressions and statements -/

/-- By induction on the calls.  From an expression to its first unary no token is passed, but from
there to an expression or a unary inside there is, so two calls for each token are enough. -/
theorem expression_unary_follow [Scalar R] (calls : Nat) :
    (forall room rest, 2 * rest.length + 3 ≤ calls -> Follows stop tokens room rest
      (Scan.expression calls : Scan (Expr R)) (expressionFrom stop room rest)) ∧
    (forall room rest, 2 * rest.length + 2 ≤ calls -> Follows stop tokens room rest
      (Scan.unary calls : Scan (Expr R)) (unaryFrom stop room rest)) := by
  induction calls with
  | zero => exact ⟨fun _ _ enough => absurd enough (Nat.not_succ_le_zero _),
      fun _ _ enough => absurd enough (Nat.not_succ_le_zero _)⟩
  | succ calls inductionHypothesis =>
      rcases inductionHypothesis with ⟨expressions, unaries⟩
      constructor
      · intro room rest enough
        rw [Scan.expression]
        cases room with
        | zero => exact .nested_zero _
        | succ room =>
            have operands : FollowsBelow stop tokens room (rest.length + 1)
                (Scan.unary calls : Scan (Expr R)) (unaryFrom stop room) :=
              fun further fewer => unaries room further (by omega)
            have products : FollowsBelow stop tokens room (rest.length + 1)
                (Scan.chain (Scan.unary calls : Scan (Expr R)) multiplicative? calls)
                (Source.chain (unaryFrom stop room) multiplicative?) :=
              chain_follows operands (by omega)
            exact .nested (chain_follows products (by omega) rest (Nat.lt_succ_self _))
      · intro room rest enough
        rw [Scan.unary]
        cases room with
        | zero => exact .nested_zero _
        | succ room =>
            refine .nested ?_
            have within : FollowsBelow stop tokens room rest.length
                (Scan.expression calls : Scan (Expr R)) (expressionFrom stop room) :=
              fun further fewer => expressions room further (by omega)
            have operands : FollowsBelow stop tokens room rest.length
                (Scan.unary calls : Scan (Expr R)) (unaryFrom stop room) :=
              fun further fewer => unaries room further (by omega)
            rw [unaryFrom]
            refine Follows.accept_bind (fun further found passed => ?_) fun missing => ?_
            · simp only [found]
              exact (operands further passed).bind fun operand last _ => .pure _
            · refine Follows.accept_bind (fun further found passed => ?_) fun missingToo => ?_
              · simp only [missing, found]
                exact operands further passed
              · simp only [missing, missingToo]
                exact power_follows within operands (by omega) (Nat.le_refl _)

theorem equation_follows (inner : FollowsBelow stop tokens room bound expression production)
    (short : rest.length < bound) :
    Follows stop tokens room rest (equation expression) (equationFrom production rest) := by
  refine (inner rest short).bind fun left behind fewer => ?_
  refine Follows.accept_bind (fun further found passed => ?_) fun missing => ?_
  · simp only [found]
    have below := Nat.lt_trans passed (Nat.lt_of_le_of_lt fewer short)
    refine (inner further below).bind fun right last _ => ?_
    refine Follows.check_bind ?_
    cases again : afterSymbol? '=' last with
    | some beyond =>
        rcases afterSymbol?_eq_some_iff.mp again with ⟨position, rfl⟩
        refine Follows.current_bind (Follows.listed fun member => ?_)
        exact .refuse (Or.inr ⟨rfl, _, member, rfl⟩)
    | none =>
        rw [Option.isSome_none, if_neg Bool.false_ne_true]
        dsimp only
        split
        · cases again
        · exact .pure _
  · simp only [missing]
    exact .pure left

/-- A name with the sign of a declaration behind it. -/
def declares : Tokens -> Bool
  | ⟨.name _, _⟩ :: ⟨.declare, _⟩ :: _ => true
  | _ => false

theorem startsDeclaration_bind {next : Bool -> Scan β} {result : Except Failure (β × Tokens)}
    (further : Follows stop tokens room rest (next (declares rest)) result) :
    Follows stop tokens room rest (startsDeclaration >>= next) result := by
  intro cursor before
  have looked : startsDeclaration (entries stop tokens) cursor = .ok (declares rest, cursor) := by
    rw [startsDeclaration, run_bind_of_ok (current_eq before)]
    rcases rest with _ | ⟨⟨lexeme, position⟩, behind⟩
    · rfl
    · cases lexeme with
      | name word =>
          refine (run_bind_of_ok (following_eq before) _).trans ?_
          rcases behind with _ | ⟨⟨_ | _ | _ | _ | _, _⟩, _⟩ <;> rfl
      | _ => rfl
  rw [run_bind_of_ok looked]
  exact further cursor before

theorem opening_follows (inner : FollowsBelow stop tokens room bound expression production)
    (short : rest.length < bound) :
    Follows stop tokens room rest (opening expression) (statementFrom stop production rest) := by
  refine Follows.accept_bind (fun further found passed => ?_) fun missing => ?_
  · rcases afterSymbol?_eq_some_iff.mp found with ⟨position, rfl⟩
    exact Follows.expectName.bind fun word last _ => .pure _
  · refine startsDeclaration_bind ?_
    by_cases declaring : declares rest = true
    · rw [if_pos declaring]
      unfold declares at declaring
      split at declaring
      · rename_i word position place further
        have below : further.length < bound := Nat.lt_of_succ_lt (Nat.lt_of_succ_lt short)
        refine Follows.advance_bind (Follows.advance_bind ?_)
        exact (inner further below).bind fun x last _ => .pure _
      · cases declaring
    · have ordinary : statementFrom stop production rest = equationFrom production rest := by
        unfold statementFrom
        split
        · cases missing
        · exact absurd rfl declaring
        · rfl
      rw [if_neg declaring, ordinary]
      exact equation_follows inner short

/-- The reader of statements has the result of the production that reads them. -/
theorem statement_follows [Scalar R] {calls : Nat} (enough : 2 * tokens.length + 3 ≤ calls) :
    Follows stop tokens nestingLimit tokens (Scan.statement calls : Scan (Expr R))
      ((Source.statement stop tokens).map fun expr => (expr, [])) := by
  have inner : FollowsBelow stop tokens nestingLimit (tokens.length + 1)
      (Scan.expression calls : Scan (Expr R)) (expressionFrom stop nestingLimit) :=
    fun rest fewer => (expression_unary_follow calls).1 nestingLimit rest (by omega)
  have opened := opening_follows inner (Nat.lt_succ_self _)
  rw [Source.statement, statementBy]
  cases read : (statementFrom stop (expressionFrom stop nestingLimit) tokens :
    Except Failure (Expr R × Tokens)) with
  | error failure =>
      rw [read] at opened
      exact opened.bind_error _
  | ok found =>
      rcases found with ⟨expr, rest⟩
      rw [read] at opened
      refine opened.bind_ok fun _ => Follows.current_bind ?_
      cases rest with
      | nil => exact .pure expr
      | cons token further => exact .unexpected .token

end

end Scan

/-! ## Inside the list -/

/-- The entries of a text stand inside it. -/
theorem position_le_of_mem_entries {text : List Char} {tokens : Tokens}
    (cut : tokenize text = .ok tokens) {entry : Entry}
    (member : entry ∈ entries text.length tokens) : entry.position ≤ text.length := by
  have tiled := cut_tokensFrom 0 0 none text
  rw [← tokenize.eq_def, cut] at tiled
  cases tiled with
  | tiled tiles =>
      rcases List.mem_append.mp member with inside | last
      · rcases List.mem_map.mp inside with ⟨token, known, rfl⟩
        have within := (tiles.within token known).2
        rw [List.take_zero, List.length_nil, List.drop_zero, Nat.zero_add] at within
        exact Nat.le_of_lt within
      · cases List.mem_singleton.mp last
        exact Nat.le_refl _

/-- The reader that moves a cursor through the tokens of a text ends, whenever its calls may be
nested twice as deeply as there are tokens and a little more, and never points outside the list.
What it ends with is what the productions read or refuse.  A statement is read up to the end of
the list, with all levels closed again, of which there were never more than are allowed.  A fault
in the wording stands at an entry of the list, and that is inside the text. -/
theorem statement_staysInside {R : Type} [Scalar R] {text : List Char} {tokens : Tokens}
    (cut : tokenize text = .ok tokens) {calls : Nat} (enough : 2 * tokens.length + 3 ≤ calls) :
    (∃ (expr : Expr R) (last : Cursor),
      Scan.statement calls (entries text.length tokens) .start = .ok (expr, last) ∧
      Source.statement text.length tokens = .ok expr ∧
      (entries text.length tokens)[last.index]? = some ⟨none, text.length⟩ ∧
      last.depth = 0 ∧ last.deepest ≤ nestingLimit) ∨
    ∃ failure : Failure,
      (Scan.statement calls : Scan (Expr R)) (entries text.length tokens) .start =
        .error (.refused failure) ∧
      (Source.statement text.length tokens : Except Failure (Expr R)) = .error failure ∧
      (failure.kind = .validation ∨
        failure.kind = .parse ∧ ∃ entry, entry ∈ entries text.length tokens ∧
          failure.position? = some entry.position ∧ entry.position ≤ text.length) := by
  have start : Scan.Before tokens tokens nestingLimit .start :=
    ⟨rfl, Nat.zero_le _, Nat.zero_add _, Nat.zero_le _⟩
  have follows : Scan.Follows text.length tokens nestingLimit tokens
      (Scan.statement calls : Scan (Expr R)) _ := Scan.statement_follows enough
  have agrees := follows .start start
  cases outcome : (Source.statement text.length tokens : Except Failure (Expr R)) with
  | ok expr =>
      rw [outcome] at agrees
      rcases agrees with ⟨_, last, run, ended⟩
      refine Or.inl ⟨expr, last, run, rfl, Scan.getElem?_entries ended, ?_, ended.deepest⟩
      have depth := ended.depth
      omega
  | error failure =>
      rw [outcome] at agrees
      rcases agrees with ⟨run, refused⟩
      refine Or.inr ⟨failure, run, rfl, refused.imp_right ?_⟩
      rintro ⟨wording, entry, member, place⟩
      exact ⟨wording, entry, member, place, position_le_of_mem_entries cut member⟩

/-- The tokens of a call whose bindings are missing, `$f` with an opening brace. -/
def openCallTokens : List Token :=
  [⟨.symbol '$', 0⟩, ⟨.name "f", 1⟩, ⟨.symbol '\x7b', 2⟩]

theorem statement_staysInside_openCall :
    tokenize "$f\x7b".toList = .ok openCallTokens ∧ 2 * openCallTokens.length + 3 ≤ 9 ∧
      (Scan.statement 9 : Scan (Expr Float)) (entries 3 openCallTokens) .start =
        .error (.refused (.unexpected .name none 3)) ∧
      ∃ entry, entry ∈ entries 3 openCallTokens ∧ entry.position = 3 := by
  have cut : tokenize "$f\x7b".toList = .ok openCallTokens := eq_ok_of_toOption (by decide +kernel)
  have outcome : (Source.statement 3 openCallTokens : Except Failure (Expr Float)) =
      .error (.unexpected .name none 3) := rfl
  have enough : 2 * openCallTokens.length + 3 ≤ 9 := by decide
  refine ⟨cut, enough, ?_⟩
  rcases statement_staysInside (R := Float) cut enough with
    ⟨expr, _, _, read, _⟩ | ⟨failure, run, same, validation | ⟨_, entry, member, place, _⟩⟩
  · cases outcome.symm.trans read
  · cases outcome.symm.trans same
    cases validation
  · cases outcome.symm.trans same
    exact ⟨run, entry, member, (Option.some.inj place).symm⟩

end Source
end QuantityCalculus
