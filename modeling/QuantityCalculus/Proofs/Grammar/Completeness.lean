import QuantityCalculus.Proofs.Grammar.Soundness

namespace QuantityCalculus
namespace Source

/-!
# What is derived is read

The reader looks at one token at a time and takes as many as it can.  A phrase is
therefore read back only in front of tokens that cannot continue it.  How far a
lexeme reaches back into what stands before it is a number, its tie: a bracket
continues even a bare name, a factorial sign continues a primary and all that
ends with it, and so on up to the signs of sums.  A phrase of each kind ends in
front of lexemes with a smaller tie than that kind allows.

`Completes` says for each kind of phrase what its production does with the tokens
of the phrase and those behind them.  For a chain of operands this is not the end
result but the state in which the loop is left, because the chain may go on; the
rules for chains recur on the left, and so does the loop.
-/

/-- How far a lexeme reaches back into the phrase before it. -/
def Lexeme.tie : Lexeme -> Nat
  | .symbol '(' | .symbol '[' | .symbol '\x7b' => 5
  | .symbol '!' | .unit _ => 4
  | .symbol '^' => 3
  | .symbol '*' | .symbol '/' | .symbol '%' => 2
  | .symbol '+' | .symbol '-' => 1
  | _ => 0

/-- The tokens do not start with a lexeme of the given tie or a greater one. -/
def Ends (tie : Nat) (tokens : Tokens) : Prop :=
  forall token, token ∈ tokens.head? -> token.lexeme.tie < tie

theorem Ends.weaken {small great : Nat} {tokens : Tokens} (ends : Ends small tokens)
    (bound : small ≤ great) : Ends great tokens :=
  fun token first => Nat.lt_of_lt_of_le (ends token first) bound

theorem ends_nil (tie : Nat) : Ends tie [] :=
  nofun

theorem ends_cons {tie : Nat} {token : Token} {tokens : Tokens} (small : token.lexeme.tie < tie) :
    Ends tie (token :: tokens) := by
  intro first same
  cases same
  exact small

/-- A symbol with a tie that is too great is not the next one. -/
theorem Ends.afterSymbol? {tie : Nat} {c : Char} {tokens : Tokens} (ends : Ends tie tokens)
    (great : tie ≤ (Lexeme.symbol c).tie) : afterSymbol? c tokens = none := by
  cases found : Source.afterSymbol? c tokens with
  | none => rfl
  | some rest =>
      rcases afterSymbol?_eq_some_iff.mp found with ⟨position, rfl⟩
      exact absurd (ends _ rfl) (Nat.not_lt_of_le great)

theorem additive?_tie {sign : Lexeme} {op : Operator} (operates : additive? sign = some op) :
    sign.tie = 1 := by
  unfold additive? at operates
  split at operates <;> first | rfl | cases operates

theorem multiplicative?_tie {sign : Lexeme} {op : Operator}
    (operates : multiplicative? sign = some op) : sign.tie = 2 := by
  unfold multiplicative? at operates
  split at operates <;> first | rfl | cases operates

/-- A loop over operands ends in front of a token that is no operator. -/
theorem chainRest_ends {R : Type} {operand : Production (Expr R)}
    {operator? : Lexeme -> Option Operator} {tie : Nat} {rest : Tokens} (ends : Ends tie rest)
    (operates : forall sign op, operator? sign = some op -> tie ≤ sign.tie) (rounds : Nat)
    (x : Expr R) : chainRest operand operator? rounds x rest = .ok (x, rest) := by
  cases rounds with
  | zero => rfl
  | succ rounds =>
      cases rest with
      | nil => rfl
      | cons token rest =>
          cases found : operator? token.lexeme with
          | none => simp [chainRest, found]
          | some op => exact absurd (ends _ rfl) (Nat.not_lt_of_le (operates _ _ found))

/-! ## Tokens of a phrase -/

theorem map_lexeme_eq_cons {tokens : Tokens} {lexeme : Lexeme} {lexemes : List Lexeme}
    (written : tokens.map Token.lexeme = lexeme :: lexemes) :
    ∃ position rest, tokens = ⟨lexeme, position⟩ :: rest ∧ rest.map Token.lexeme = lexemes := by
  rcases List.map_eq_cons_iff.mp written with ⟨token, rest, rfl, rfl, remaining⟩
  exact ⟨token.position, rest, rfl, remaining⟩

theorem map_lexeme_eq_singleton {tokens : Tokens} {lexeme : Lexeme}
    (written : tokens.map Token.lexeme = [lexeme]) :
    ∃ position, tokens = [⟨lexeme, position⟩] := by
  rcases map_lexeme_eq_cons written with ⟨position, nothing, rfl, empty⟩
  cases List.map_eq_nil_iff.mp empty
  exact ⟨position, rfl⟩

theorem map_lexeme_eq_split {tokens : Tokens} {sign : Lexeme} {lexemes more : List Lexeme}
    (written : tokens.map Token.lexeme = lexemes ++ sign :: more) :
    ∃ before position after, tokens = before ++ ⟨sign, position⟩ :: after ∧
      before.map Token.lexeme = lexemes ∧ after.map Token.lexeme = more := by
  rcases List.map_eq_append_iff.mp written with ⟨before, later, rfl, writtenLeft, writtenLater⟩
  rcases map_lexeme_eq_cons writtenLater with ⟨position, after, rfl, writtenRight⟩
  exact ⟨before, position, after, rfl, writtenLeft, writtenRight⟩

theorem map_lexeme_eq_within {tokens : Tokens} {left right : Char} {lexemes : List Lexeme}
    (written : tokens.map Token.lexeme = within left lexemes right) :
    ∃ first inner last, tokens = ⟨.symbol left, first⟩ :: (inner ++ [⟨.symbol right, last⟩]) ∧
      inner.map Token.lexeme = lexemes := by
  rcases map_lexeme_eq_cons written with ⟨first, rest, rfl, remaining⟩
  rcases map_lexeme_eq_split remaining with ⟨inner, last, nothing, rfl, inside, empty⟩
  cases List.map_eq_nil_iff.mp empty
  exact ⟨first, inner, last, rfl, inside⟩

/-- Tokens in brackets start with the opening one. -/
theorem within_opens {read : Tokens} {left right : Char} {lexemes : List Lexeme}
    (written : read.map Token.lexeme = within left lexemes right) (rest : Tokens) :
    (afterSymbol? left (read ++ rest)).isSome = true := by
  rcases map_lexeme_eq_cons written with ⟨first, inner, rfl, _⟩
  rw [List.cons_append, afterSymbol?_eq_some_iff.mpr ⟨first, rfl⟩]
  rfl

theorem within_opens_only {read : Tokens} {left right other : Char} {lexemes : List Lexeme}
    (written : read.map Token.lexeme = within left lexemes right) (different : left ≠ other)
    (rest : Tokens) : (afterSymbol? other (read ++ rest)).isSome = false := by
  rcases map_lexeme_eq_cons written with ⟨first, inner, rfl, _⟩
  simp [afterSymbol?, different]

section

variable {R : Type} [Scalar R] {stop room : Nat}

/-! ## What each production does with a phrase -/

/-- What the production for a kind of phrase does with the tokens of a phrase. -/
def Completes (stop room : Nat) (read : Tokens) : Phrase R -> Prop
  | .expression x => forall rest, Ends 2 rest -> ∃ rounds, rest.length ≤ rounds ∧
      expressionFrom stop room (read ++ rest) =
        chainRest (chain (unaryFrom stop (room - 1)) multiplicative?) additive? rounds x rest
  | .term x => forall rest, Ends 3 rest -> ∃ rounds, rest.length ≤ rounds ∧
      chain (unaryFrom stop room) multiplicative? (read ++ rest) =
        chainRest (unaryFrom stop room) multiplicative? rounds x rest
  | .unary x => forall rest, Ends 3 rest -> unaryFrom stop room (read ++ rest) = .ok (x, rest)
  | .power x => forall rest, Ends 3 rest ->
      powerFrom stop (expressionFrom stop room) (unaryFrom stop room) (read ++ rest) =
        .ok (x, rest)
  | .marked x => forall rest, Ends 5 rest ->
      (primary stop (expressionFrom stop room) (read ++ rest) >>= fun found =>
        marksFrom found.1 found.2) = marksFrom x rest
  | .primary x => forall rest, Ends 5 rest ->
      primary stop (expressionFrom stop room) (read ++ rest) = .ok (x, rest)
  | .bindings arguments => forall rest rounds, (afterSymbol? '\x7d' rest).isSome = true ->
      (read ++ rest).length ≤ rounds ->
      bindingsFrom stop (expressionFrom stop room) rounds (read ++ rest) = .ok (arguments, rest)

/-- An expression is read in front of a token that cannot continue a sum. -/
theorem Completes.expression_read {read : Tokens} {x : Expr R}
    (completes : Completes stop room read (.expression x)) {rest : Tokens} (ends : Ends 1 rest) :
    expressionFrom stop room (read ++ rest) = .ok (x, rest) := by
  rcases completes rest (ends.weaken (Nat.le_succ 1)) with ⟨rounds, _, reads⟩
  rw [reads]
  exact chainRest_ends ends (fun sign op operates => Nat.le_of_eq (additive?_tie operates).symm) _ _

/-- A term is read in front of a token that cannot continue a product. -/
theorem Completes.term_read {read : Tokens} {x : Expr R}
    (completes : Completes stop room read (.term x)) {rest : Tokens} (ends : Ends 2 rest) :
    chain (unaryFrom stop room) multiplicative? (read ++ rest) = .ok (x, rest) := by
  rcases completes rest (ends.weaken (Nat.le_succ 2)) with ⟨rounds, _, reads⟩
  rw [reads]
  exact chainRest_ends ends
    (fun sign op operates => Nat.le_of_eq (multiplicative?_tie operates).symm) _ _

/-- An expression in brackets is read whatever follows. -/
theorem between_read {lexemes : List Lexeme} {x : Expr R}
    (completes : forall inner : Tokens, inner.map Token.lexeme = lexemes ->
      Completes stop room inner (.expression x))
    {left right : Char} (loose : (Lexeme.symbol right).tie = 0) {read : Tokens}
    (written : read.map Token.lexeme = within left lexemes right) (rest : Tokens) :
    between stop left right (expressionFrom stop room) (read ++ rest) = .ok (x, rest) := by
  rcases map_lexeme_eq_within written with ⟨first, inner, last, rfl, writtenInside⟩
  have ends : Ends 1 (⟨.symbol right, last⟩ :: rest) := ends_cons (by rw [loose]; exact Nat.one_pos)
  rw [List.cons_append, List.append_assoc]
  refine bind_eq_ok.mpr ⟨_, afterSymbol_eq_ok_iff.mpr ⟨first, rfl⟩, ?_⟩
  refine bind_eq_ok.mpr ⟨_, (completes inner writtenInside).expression_read ends, ?_⟩
  exact bind_eq_ok.mpr ⟨_, afterSymbol_eq_ok_iff.mpr ⟨last, rfl⟩, rfl⟩

omit [Scalar R] in
/-- No marks are read in front of a token that is none. -/
theorem marksFrom_ends {rest : Tokens} (ends : Ends 4 rest) (x : Expr R) :
    marksFrom x rest = .ok (x, rest) := by
  cases rest with
  | nil => rfl
  | cons token rest =>
      have small := ends token rfl
      rw [marksFrom]
      split
      · rename_i sign
        rw [sign] at small
        exact absurd small (Nat.lt_irrefl 4)
      · rename_i content sign
        rw [sign] at small
        exact absurd small (Nat.lt_irrefl 4)
      · rfl

/-- A marked primary as the first part of a power. -/
theorem Completes.marked_read {read : Tokens} {x : Expr R}
    (completes : Completes stop room read (.marked x)) {rest : Tokens} (ends : Ends 4 rest) :
    ∃ found, primary stop (expressionFrom stop room) (read ++ rest) = .ok found ∧
      marksFrom found.1 found.2 = .ok (x, rest) := by
  have reads := completes rest (ends.weaken (Nat.le_succ 4))
  rw [marksFrom_ends ends] at reads
  exact bind_eq_ok.mp reads

/-- A power does not start with a sign. -/
theorem afterSymbol?_of_powerFrom {expression unary : Production (Expr R)} {tokens : Tokens}
    {result : Expr R × Tokens} (reads : powerFrom stop expression unary tokens = .ok result)
    {sign : Char} (signed : sign = '-' ∨ sign = '+') : afterSymbol? sign tokens = none := by
  cases found : afterSymbol? sign tokens with
  | none => rfl
  | some rest =>
      rcases afterSymbol?_eq_some_iff.mp found with ⟨position, rfl⟩
      rcases bind_eq_ok.mp reads with ⟨first, begins, _⟩
      rcases signed with rfl | rfl <;> cases begins

/-! ## Words -/

theorem not_keyword {word : String} {kind : FunctionKind}
    (keyword : FunctionKind.ofKeyword? word = some kind) :
    word ≠ "frac" ∧ word ≠ "sqrt" ∧ word ≠ "mem" := by
  refine ⟨?_, ?_, ?_⟩ <;>
    · rintro rfl
      revert keyword
      simp [FunctionKind.ofKeyword?, FunctionKind.keywords]

omit [Scalar R] in
/-- A word stands for itself in front of a token that is no bracket. -/
theorem wordFrom_ends {expression : Production (Expr R)} {word : String} (ordinary : word ≠ "mem")
    {rest : Tokens} (ends : Ends 5 rest) :
    wordFrom stop expression word rest = .ok (.var word, rest) := by
  have noCall : afterSymbol? '(' rest = none := ends.afterSymbol? (Nat.le_refl 5)
  have noIndex : afterSymbol? '[' rest = none := ends.afterSymbol? (Nat.le_refl 5)
  unfold wordFrom
  simp only [noCall, noIndex, Option.isSome_none, Bool.and_false, Bool.false_eq_true, if_false,
    ordinary]
  split <;> rfl

omit [Scalar R] in
theorem wordFrom_memory {expression : Production (Expr R)} {rest : Tokens} (ends : Ends 5 rest) :
    wordFrom stop expression "mem" rest = .ok (.mem, rest) := by
  have noIndex : afterSymbol? '[' rest = none := ends.afterSymbol? (Nat.le_refl 5)
  unfold wordFrom
  simp only [noIndex, String.reduceEq, decide_false, Bool.false_and, Bool.false_eq_true,
    Option.isSome_none, if_false, if_true]

/-- A word that acts on one expression in parentheses. -/
theorem wordFrom_function {word : String} {kind : FunctionKind} {lexemes : List Lexeme}
    {x : Expr R} {read : Tokens} (keyword : FunctionKind.ofKeyword? word = some kind)
    (completes : forall inner : Tokens, inner.map Token.lexeme = lexemes ->
      Completes stop room inner (.expression x))
    (written : read.map Token.lexeme = within '(' lexemes ')') (rest : Tokens) :
    wordFrom stop (expressionFrom stop room) word (read ++ rest) = .ok (.func kind x, rest) := by
  rcases not_keyword keyword with ⟨notFraction, notRoot, notMemory⟩
  have noIndex : (afterSymbol? '[' (read ++ rest)).isSome = false :=
    within_opens_only written (by decide) rest
  unfold wordFrom
  simp only [within_opens written rest, noIndex, notFraction, notRoot, notMemory, keyword,
    decide_false, Bool.false_and, Bool.and_false, Bool.false_eq_true, if_false, if_true]
  exact bind_eq_ok.mpr ⟨_, between_read completes rfl written rest, rfl⟩

theorem wordFrom_squareRoot {lexemes : List Lexeme} {x : Expr R} {read : Tokens}
    (completes : forall inner : Tokens, inner.map Token.lexeme = lexemes ->
      Completes stop room inner (.expression x))
    (written : read.map Token.lexeme = within '(' lexemes ')') (rest : Tokens) :
    wordFrom stop (expressionFrom stop room) "sqrt" (read ++ rest) = .ok (.sqrt x, rest) := by
  unfold wordFrom
  simp only [within_opens written rest, String.reduceEq, decide_false, decide_true, Bool.false_and,
    Bool.true_and, Bool.false_eq_true, if_false, if_true]
  exact bind_eq_ok.mpr ⟨_, between_read completes rfl written rest, rfl⟩

theorem wordFrom_memoryAt {lexemes : List Lexeme} {x : Expr R} {read : Tokens}
    (completes : forall inner : Tokens, inner.map Token.lexeme = lexemes ->
      Completes stop room inner (.expression x))
    (written : read.map Token.lexeme = within '[' lexemes ']') (rest : Tokens) :
    wordFrom stop (expressionFrom stop room) "mem" (read ++ rest) = .ok (.memAt x, rest) := by
  unfold wordFrom
  simp only [within_opens written rest, String.reduceEq, decide_false, Bool.false_and,
    Bool.false_eq_true, if_false, if_true]
  exact bind_eq_ok.mpr ⟨_, between_read completes rfl written rest, rfl⟩

/-- A fraction: the word and two expressions in parentheses. -/
theorem wordFrom_fraction {above below : List Lexeme} {x y : Expr R} {first second : Tokens}
    (completesAbove : forall inner : Tokens, inner.map Token.lexeme = above ->
      Completes stop room inner (.expression x))
    (completesBelow : forall inner : Tokens, inner.map Token.lexeme = below ->
      Completes stop room inner (.expression y))
    (writtenAbove : first.map Token.lexeme = within '(' above ')')
    (writtenBelow : second.map Token.lexeme = within '(' below ')') (rest : Tokens) :
    wordFrom stop (expressionFrom stop room) "frac" (first ++ (second ++ rest)) =
      .ok (.fraction x y, rest) := by
  unfold wordFrom
  simp only [within_opens writtenAbove (second ++ rest), decide_true, Bool.true_and, if_true]
  refine bind_eq_ok.mpr ⟨_, between_read completesAbove rfl writtenAbove _, ?_⟩
  exact bind_eq_ok.mpr ⟨_, between_read completesBelow rfl writtenBelow _, rfl⟩

/-- A root: the word, its index, and its radicand. -/
theorem wordFrom_root {indices radicand : List Lexeme} {x index : Expr R} {first second : Tokens}
    (completesIndex : forall inner : Tokens, inner.map Token.lexeme = indices ->
      Completes stop room inner (.expression index))
    (completes : forall inner : Tokens, inner.map Token.lexeme = radicand ->
      Completes stop room inner (.expression x))
    (writtenIndex : first.map Token.lexeme = within '[' indices ']')
    (written : second.map Token.lexeme = within '(' radicand ')') (rest : Tokens) :
    wordFrom stop (expressionFrom stop room) "root" (first ++ (second ++ rest)) =
      .ok (.root x index, rest) := by
  unfold wordFrom
  simp only [within_opens writtenIndex (second ++ rest), String.reduceEq, decide_false, decide_true,
    Bool.false_and, Bool.true_and, Bool.false_eq_true, if_false, if_true]
  refine bind_eq_ok.mpr ⟨_, between_read completesIndex rfl writtenIndex _, ?_⟩
  exact bind_eq_ok.mpr ⟨_, between_read completes rfl written _, rfl⟩

/-! ## Chains of operands -/

omit [Scalar R] in
/-- One more operand of a chain, taken by the loop. -/
theorem chainRest_operand {operand : Production (Expr R)} {operator? : Lexeme -> Option Operator}
    {rounds : Nat} {x y : Expr R} {sign : Token} {op : Operator} {tokens rest : Tokens}
    (operates : operator? sign.lexeme = some op) (reads : operand tokens = .ok (y, rest)) :
    chainRest operand operator? (rounds + 1) x (sign :: tokens) =
      chainRest operand operator? rounds (.binary op x y) rest := by
  rw [chainRest, operates]
  simp only [reads]
  rfl

omit [Scalar R] in
/-- A chain that the loop goes on with, after it has read one more operand. -/
theorem chain_extends {operand : Production (Expr R)} {operator? : Lexeme -> Option Operator}
    {production : Production (Expr R)} {before : Tokens} {x y : Expr R} {sign : Token}
    {op : Operator} {more rest : Tokens}
    (chained : ∃ rounds, (sign :: (more ++ rest)).length ≤ rounds ∧
      production (before ++ sign :: (more ++ rest)) =
        chainRest operand operator? rounds x (sign :: (more ++ rest)))
    (operates : operator? sign.lexeme = some op) (reads : operand (more ++ rest) = .ok (y, rest)) :
    ∃ rounds, rest.length ≤ rounds ∧
      production ((before ++ sign :: more) ++ rest) =
        chainRest operand operator? rounds (.binary op x y) rest := by
  rcases chained with ⟨rounds, enough, left⟩
  cases rounds with
  | zero => exact absurd enough (Nat.not_succ_le_zero _)
  | succ rounds =>
      refine ⟨rounds, ?_, ?_⟩
      · simp only [List.length_cons, List.length_append] at enough
        omega
      · rw [List.append_assoc, List.cons_append, left]
        exact chainRest_operand operates reads

/-! ## Bindings -/

/-- A binding in front of the closing bracket is the last one. -/
theorem bindingsFrom_last {lexemes : List Lexeme} {name : String} {x : Expr R}
    (completes : forall inner : Tokens, inner.map Token.lexeme = lexemes ->
      Completes stop room inner (.expression x))
    {read rest : Tokens} {rounds : Nat}
    (written : read.map Token.lexeme = .name name :: .symbol '=' :: lexemes)
    (closes : (afterSymbol? '\x7d' rest).isSome = true)
    (enough : (read ++ rest).length ≤ rounds) :
    bindingsFrom stop (expressionFrom stop room) rounds (read ++ rest) =
      .ok (.cons name x .nil, rest) := by
  rcases map_lexeme_eq_cons written with ⟨position, after, rfl, writtenAfter⟩
  rcases map_lexeme_eq_cons writtenAfter with ⟨signPosition, inner, rfl, writtenInside⟩
  rcases Option.isSome_iff_exists.mp closes with ⟨later, found⟩
  rcases afterSymbol?_eq_some_iff.mp found with ⟨last, rfl⟩
  cases rounds with
  | zero => exact absurd enough (Nat.not_succ_le_zero _)
  | succ rounds =>
      have ends : Ends 1 (⟨.symbol '\x7d', last⟩ :: later) := ends_cons Nat.one_pos
      have reads := (completes inner writtenInside).expression_read ends
      refine bind_eq_ok.mpr ⟨(name, _), rfl, bind_eq_ok.mpr ⟨inner ++ _, rfl, ?_⟩⟩
      exact bind_eq_ok.mpr ⟨_, reads, rfl⟩

/-- A binding in front of a separator, and the bindings behind it. -/
theorem bindingsFrom_more {lexemes more : List Lexeme} {name : String} {separator : Char}
    {x : Expr R} {arguments : Arguments R}
    (completes : forall inner : Tokens, inner.map Token.lexeme = lexemes ->
      Completes stop room inner (.expression x))
    (separates : isSeparator separator = true)
    (others : forall following : Tokens, following.map Token.lexeme = more ->
      Completes stop room following (.bindings arguments))
    {read rest : Tokens} {rounds : Nat}
    (written : read.map Token.lexeme =
      .name name :: .symbol '=' :: (lexemes ++ .symbol separator :: more))
    (closes : (afterSymbol? '\x7d' rest).isSome = true)
    (enough : (read ++ rest).length ≤ rounds) :
    bindingsFrom stop (expressionFrom stop room) rounds (read ++ rest) =
      .ok (.cons name x arguments, rest) := by
  rcases map_lexeme_eq_cons written with ⟨position, after, rfl, writtenAfter⟩
  rcases map_lexeme_eq_cons writtenAfter with ⟨signPosition, bound, rfl, writtenBound⟩
  rcases map_lexeme_eq_split writtenBound with
    ⟨inner, place, following, rfl, writtenInside, writtenOthers⟩
  cases rounds with
  | zero => exact absurd enough (Nat.not_succ_le_zero _)
  | succ rounds =>
      have loose : (Lexeme.symbol separator).tie = 0 := by
        simp only [isSeparator, Bool.or_eq_true, beq_iff_eq] at separates
        rcases separates with rfl | rfl <;> rfl
      have ends : Ends 1 (⟨.symbol separator, place⟩ :: (following ++ rest)) :=
        ends_cons (by rw [loose]; exact Nat.one_pos)
      have separated := afterSeparator?_eq_some_iff.mpr
        ⟨separator, place, separates,
          (rfl : _ = ⟨.symbol separator, place⟩ :: (following ++ rest))⟩
      -- The name, the sign and the separator are gone, so one round less is still enough.
      have remaining : (following ++ rest).length ≤ rounds := by
        simp only [List.length_cons, List.length_append] at enough ⊢
        omega
      have reads := others following writtenOthers rest rounds closes remaining
      simp only [List.cons_append, List.append_assoc]
      refine bind_eq_ok.mpr ⟨(name, _), rfl, bind_eq_ok.mpr ⟨inner ++ _, rfl, ?_⟩⟩
      refine bind_eq_ok.mpr ⟨_, (completes inner writtenInside).expression_read ends, ?_⟩
      simp only [separated]
      exact bind_eq_ok.mpr ⟨_, reads, rfl⟩

/-- A call with its bindings in braces. -/
theorem callFrom_braces {lexemes : List Lexeme} {name : String} {arguments : Arguments R}
    (completes : forall inner : Tokens, inner.map Token.lexeme = lexemes ->
      Completes stop room inner (.bindings arguments))
    {read : Tokens}
    (written : read.map Token.lexeme = .name name :: within '\x7b' lexemes '\x7d')
    (rest : Tokens) :
    callFrom stop (expressionFrom stop room) (read ++ rest) =
      .ok (.call name arguments, rest) := by
  rcases map_lexeme_eq_cons written with ⟨namePosition, braces, rfl, writtenBraces⟩
  rcases map_lexeme_eq_within writtenBraces with ⟨first, inner, last, rfl, writtenInside⟩
  have reads := completes inner writtenInside (⟨.symbol '\x7d', last⟩ :: rest) _ rfl
    (Nat.le_succ _)
  simp only [List.cons_append, List.append_assoc, List.nil_append]
  refine bind_eq_ok.mpr ⟨(name, _), rfl, bind_eq_ok.mpr ⟨_, reads, ?_⟩⟩
  exact bind_eq_ok.mpr ⟨rest, afterSymbol_eq_ok_iff.mpr ⟨last, rfl⟩, rfl⟩

/-! ## Every derivation -/

theorem unaryFrom_power {read rest : Tokens} {x : Expr R}
    (reads : powerFrom stop (expressionFrom stop room) (unaryFrom stop room) (read ++ rest) =
      .ok (x, rest)) :
    unaryFrom stop (room + 1) (read ++ rest) = .ok (x, rest) := by
  rw [unaryFrom, afterSymbol?_of_powerFrom reads (Or.inl rfl),
    afterSymbol?_of_powerFrom reads (Or.inr rfl)]
  exact reads

/-- By induction on the derivation: the tokens of a phrase are read as this phrase. -/
theorem Derives.completes {lexemes : List Lexeme} {phrase : Phrase R}
    (derivation : Derives true room lexemes phrase) :
    forall read : Tokens, read.map Token.lexeme = lexemes -> Completes stop room read phrase := by
  induction derivation with
  | term _ inductionHypothesis =>
      intro read written rest ends
      exact ⟨rest.length, Nat.le_refl _,
        bind_eq_of_ok ((inductionHypothesis read written).term_read ends)⟩
  | @sum room _ sign op more x y _ operates _ left right =>
      intro read written rest ends
      rcases map_lexeme_eq_split written with
        ⟨before, position, after, rfl, writtenLeft, writtenRight⟩
      have tie : sign.tie < 2 := by rw [additive?_tie operates]; exact Nat.lt_succ_self 1
      -- The loop stands where it has read the left operand, and takes one term more.
      exact chain_extends
        (left before writtenLeft (⟨sign, position⟩ :: (after ++ rest)) (ends_cons tie)) operates
        ((right after writtenRight).term_read ends)
  | unary _ inductionHypothesis =>
      intro read written rest ends
      exact ⟨rest.length, Nat.le_refl _,
        bind_eq_of_ok (inductionHypothesis read written rest ends)⟩
  | @product room _ sign op more x y _ operates _ left right =>
      intro read written rest ends
      rcases map_lexeme_eq_split written with
        ⟨before, position, after, rfl, writtenLeft, writtenRight⟩
      have tie : sign.tie < 3 := by rw [multiplicative?_tie operates]; exact Nat.lt_succ_self 2
      exact chain_extends
        (left before writtenLeft (⟨sign, position⟩ :: (after ++ rest)) (ends_cons tie)) operates
        (right after writtenRight rest ends)
  | minus _ inductionHypothesis =>
      intro read written rest ends
      rcases map_lexeme_eq_cons written with ⟨position, after, rfl, writtenOperand⟩
      exact bind_eq_ok.mpr ⟨_, inductionHypothesis after writtenOperand rest ends, rfl⟩
  | plus _ inductionHypothesis =>
      intro read written rest ends
      rcases map_lexeme_eq_cons written with ⟨position, after, rfl, writtenOperand⟩
      exact inductionHypothesis after writtenOperand rest ends
  | power _ inductionHypothesis =>
      intro read written rest ends
      exact unaryFrom_power (inductionHypothesis read written rest ends)
  | marked _ inductionHypothesis =>
      intro read written rest ends
      rcases (inductionHypothesis read written).marked_read (ends.weaken (Nat.le_succ 3)) with
        ⟨found, begins, marks⟩
      -- What follows has no sign of a power, so the reader stops behind the marks.
      have noPower : afterSymbol? '^' rest = none := ends.afterSymbol? (Nat.le_refl 3)
      refine bind_eq_ok.mpr ⟨found, begins, bind_eq_ok.mpr ⟨(_, rest), marks, ?_⟩⟩
      simp only [noPower]
  | raised _ _ base exponent =>
      intro read written rest ends
      rcases map_lexeme_eq_split written with
        ⟨before, position, after, rfl, writtenBase, writtenExponent⟩
      have raising : Ends 4 (⟨.symbol '^', position⟩ :: (after ++ rest)) :=
        ends_cons (Nat.lt_succ_self 3)
      rcases (base before writtenBase).marked_read raising with ⟨found, begins, marks⟩
      rw [List.append_assoc]
      refine bind_eq_ok.mpr ⟨found, begins, bind_eq_ok.mpr ⟨(_, _), marks, ?_⟩⟩
      exact bind_eq_ok.mpr ⟨_, exponent after writtenExponent rest ends, rfl⟩
  | primary _ inductionHypothesis =>
      intro read written rest ends
      exact bind_eq_of_ok (inductionHypothesis read written rest ends)
  | factorial _ inductionHypothesis =>
      intro read written rest ends
      rcases List.map_eq_append_iff.mp written with ⟨before, later, rfl, writtenLeft, writtenLater⟩
      rcases map_lexeme_eq_singleton writtenLater with ⟨position, rfl⟩
      rw [List.append_assoc]
      exact inductionHypothesis before writtenLeft (⟨.symbol '!', position⟩ :: rest)
        (ends_cons (Nat.lt_succ_self 4))
  | @unitBracket room _ content mark x _ descriptor inductionHypothesis =>
      intro read written rest ends
      rcases List.map_eq_append_iff.mp written with ⟨before, later, rfl, writtenLeft, writtenLater⟩
      rcases map_lexeme_eq_singleton writtenLater with ⟨position, rfl⟩
      have reads := descriptor.unitMark_eq position
      rw [List.append_assoc]
      refine (inductionHypothesis before writtenLeft (⟨.unit content, position⟩ :: rest)
        (ends_cons (Nat.lt_succ_self 4))).trans ?_
      simp only [marksFrom, reads]
      rfl
  | number spelling =>
      intro read written rest ends
      rcases map_lexeme_eq_singleton written with ⟨position, rfl⟩
      rfl
  | named ordinary =>
      intro read written rest ends
      rcases map_lexeme_eq_singleton written with ⟨position, rfl⟩
      exact wordFrom_ends ordinary ends
  | parenthesized _ inductionHypothesis =>
      intro read written rest ends
      have reads : between stop '(' ')' (expressionFrom stop _) (read ++ rest) = .ok (_, rest) :=
        between_read inductionHypothesis rfl written rest
      rcases map_lexeme_eq_cons written with ⟨first, inner, rfl, _⟩
      exact bind_eq_ok.mpr ⟨_, reads, rfl⟩
  | bars _ inductionHypothesis =>
      intro read written rest ends
      have reads : between stop '|' '|' (expressionFrom stop _) (read ++ rest) = .ok (_, rest) :=
        between_read inductionHypothesis rfl written rest
      rcases map_lexeme_eq_cons written with ⟨first, inner, rfl, _⟩
      exact bind_eq_ok.mpr ⟨_, reads, rfl⟩
  | fraction _ _ above below =>
      intro read written rest ends
      rcases map_lexeme_eq_cons written with ⟨position, after, rfl, writtenAfter⟩
      rcases List.map_eq_append_iff.mp writtenAfter with
        ⟨first, second, rfl, writtenAbove, writtenBelow⟩
      rw [List.cons_append, List.append_assoc]
      exact wordFrom_fraction above below writtenAbove writtenBelow rest
  | squareRoot _ inductionHypothesis =>
      intro read written rest ends
      rcases map_lexeme_eq_cons written with ⟨position, after, rfl, writtenAfter⟩
      exact wordFrom_squareRoot inductionHypothesis writtenAfter rest
  | root _ _ index radicand =>
      intro read written rest ends
      rcases map_lexeme_eq_cons written with ⟨position, after, rfl, writtenAfter⟩
      rcases List.map_eq_append_iff.mp writtenAfter with
        ⟨first, second, rfl, writtenIndex, writtenRadicand⟩
      rw [List.cons_append, List.append_assoc]
      exact wordFrom_root index radicand writtenIndex writtenRadicand rest
  | memory =>
      intro read written rest ends
      rcases map_lexeme_eq_singleton written with ⟨position, rfl⟩
      exact wordFrom_memory ends
  | memoryAt _ inductionHypothesis =>
      intro read written rest ends
      rcases map_lexeme_eq_cons written with ⟨position, after, rfl, writtenAfter⟩
      exact wordFrom_memoryAt inductionHypothesis writtenAfter rest
  | function keyword _ inductionHypothesis =>
      intro read written rest ends
      rcases map_lexeme_eq_cons written with ⟨position, after, rfl, writtenAfter⟩
      exact wordFrom_function keyword inductionHypothesis writtenAfter rest
  | call name =>
      intro read written rest ends
      rcases map_lexeme_eq_cons written with ⟨position, after, rfl, writtenAfter⟩
      rcases map_lexeme_eq_singleton writtenAfter with ⟨namePosition, rfl⟩
      have noBindings : afterSymbol? '\x7b' rest = none := ends.afterSymbol? (Nat.le_refl 5)
      refine bind_eq_ok.mpr ⟨(name, rest), rfl, ?_⟩
      simp only [noBindings]
  | callWith name _ inductionHypothesis =>
      intro read written rest ends
      rcases map_lexeme_eq_cons written with ⟨position, after, rfl, writtenAfter⟩
      exact callFrom_braces inductionHypothesis writtenAfter rest
  | noBindings =>
      intro read written rest rounds closes enough
      cases List.map_eq_nil_iff.mp written
      cases rounds with
      | zero => rfl
      | succ rounds => exact if_pos closes
  | lastBinding name _ inductionHypothesis =>
      intro read written rest rounds closes enough
      exact bindingsFrom_last inductionHypothesis written closes enough
  | binding name _ separates _ _ first others =>
      intro read written rest rounds closes enough
      exact bindingsFrom_more first separates others written closes enough

/-! ## Statements -/

/-- The signs of declarations and targets do not occur in phrases. -/
theorem Derives.ordinary {trailing : Bool} {lexemes : List Lexeme} {phrase : Phrase R}
    (derivation : Derives trailing room lexemes phrase) :
    forall lexeme, lexeme ∈ lexemes -> lexeme ≠ .declare ∧ lexeme ≠ .symbol '@' := by
  have signs : forall {sign : Lexeme}, 0 < sign.tie -> sign ≠ .declare ∧ sign ≠ .symbol '@' := by
    intro sign positive
    constructor <;>
      · rintro rfl
        exact absurd positive (Nat.lt_irrefl 0)
  induction derivation with
  | sum _ operates _ left right =>
      have sign := signs (by rw [additive?_tie operates]; exact Nat.one_pos)
      exact List.forall_mem_append.mpr ⟨left, List.forall_mem_cons.mpr ⟨sign, right⟩⟩
  | product _ operates _ left right =>
      have sign := signs (by rw [multiplicative?_tie operates]; exact Nat.two_pos)
      exact List.forall_mem_append.mpr ⟨left, List.forall_mem_cons.mpr ⟨sign, right⟩⟩
  | @binding _ _ separator _ _ _ name _ separates _ _ first rest =>
      have sign : Lexeme.symbol separator ≠ .declare ∧ Lexeme.symbol separator ≠ .symbol '@' := by
        refine ⟨nofun, ?_⟩
        intro same
        cases same
        cases separates
      have inner := List.forall_mem_append.mpr ⟨first, List.forall_mem_cons.mpr ⟨sign, rest⟩⟩
      simpa [or_imp, forall_and] using inner
  | _ => simp_all [within, or_imp, forall_and]

omit [Scalar R] in
/-- Tokens without the signs of declarations and targets are those of an equation or expression. -/
theorem statementFrom_ordinary {expression : Production (Expr R)} {tokens : Tokens}
    (ordinary : forall lexeme, lexeme ∈ tokens.map Token.lexeme ->
      lexeme ≠ .declare ∧ lexeme ≠ .symbol '@') :
    statementFrom stop expression tokens = equationFrom expression tokens := by
  unfold statementFrom
  split
  · exact absurd rfl (ordinary (.symbol '@') (by simp)).2
  · exact absurd rfl (ordinary .declare (by simp)).1
  · rfl

/-- A statement that the whole of some tokens derives is read from them. -/
theorem statementBy_complete {tokens : Tokens} {expr : Expr R}
    (derivation : DerivesStatement true room (tokens.map Token.lexeme) expr) :
    statementBy stop (expressionFrom stop room) tokens = .ok expr := by
  have whole : forall {read : Tokens} {x : Expr R},
      Derives true room (read.map Token.lexeme) (.expression x) ->
      expressionFrom stop room read = .ok (x, []) := by
    intro read x derived
    have completes : Completes stop room read (.expression x) := derived.completes read rfl
    have reads := completes.expression_read (ends_nil 1)
    rwa [List.append_nil] at reads
  generalize written : tokens.map Token.lexeme = lexemes at derivation
  cases derivation with
  | target name =>
      rcases map_lexeme_eq_cons written with ⟨position, after, rfl, writtenAfter⟩
      rcases map_lexeme_eq_singleton writtenAfter with ⟨namePosition, rfl⟩
      rfl
  | declaration name derived =>
      rcases map_lexeme_eq_cons written with ⟨position, after, rfl, writtenAfter⟩
      rcases map_lexeme_eq_cons writtenAfter with ⟨signPosition, read, rfl, rfl⟩
      refine bind_eq_ok.mpr ⟨(.declaration name _, []), ?_, rfl⟩
      exact bind_eq_ok.mpr ⟨_, whole derived, rfl⟩
  | expression derived =>
      refine bind_eq_ok.mpr ⟨(_, []), ?_, rfl⟩
      rw [statementFrom_ordinary (by rw [written]; exact derived.ordinary)]
      exact bind_eq_ok.mpr ⟨_, whole (written ▸ derived), rfl⟩
  | equation left right =>
      have ordinary : forall lexeme, lexeme ∈ tokens.map Token.lexeme ->
          lexeme ≠ .declare ∧ lexeme ≠ .symbol '@' := by
        rw [written]
        exact List.forall_mem_append.mpr ⟨left.ordinary,
          List.forall_mem_cons.mpr ⟨⟨nofun, by decide⟩, right.ordinary⟩⟩
      refine bind_eq_ok.mpr ⟨(.equation _ _, []), ?_, rfl⟩
      rw [statementFrom_ordinary ordinary]
      rcases map_lexeme_eq_split written with ⟨before, position, after, rfl, rfl, rfl⟩
      have ends : Ends 1 (⟨.symbol '=', position⟩ :: after) := ends_cons Nat.one_pos
      refine bind_eq_ok.mpr ⟨_, (left.completes before rfl).expression_read ends, ?_⟩
      exact bind_eq_ok.mpr ⟨_, whole right, rfl⟩

end

end Source
end QuantityCalculus
