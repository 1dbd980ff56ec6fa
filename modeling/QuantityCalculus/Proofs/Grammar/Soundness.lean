import QuantityCalculus.Proofs.Grammar.Derivation

namespace QuantityCalculus
namespace Source

/-!
# What the reader reads is derived

Every production of the reader takes a run of tokens off the front and returns
what this run stands for in the grammar.  The productions are composed of one
another, and so are their lemmas: each says what the composition derives when its
parts derive what they should.  Only the last lemma, on expressions and unaries,
is an induction, on the number of levels that may be opened.
-/

/-- Whatever a production reads derives what it returns. -/
def Reads {α : Type} (production : Production α) (derives : List Lexeme -> α -> Prop) : Prop :=
  forall tokens result rest, production tokens = .ok (result, rest) ->
    ∃ read, tokens = read ++ rest ∧ derives (read.map Token.lexeme) result

/-! ## Single tokens -/

theorem afterSymbol?_eq_some_iff {c : Char} {tokens rest : Tokens} :
    afterSymbol? c tokens = some rest <-> ∃ position, tokens = ⟨.symbol c, position⟩ :: rest := by
  constructor
  · intro found
    unfold afterSymbol? at found
    split at found
    · rename_i d position more
      split at found
      · rename_i same
        cases found
        exact ⟨position, by rw [same]⟩
      · cases found
    · cases found
  · rintro ⟨position, rfl⟩
    exact if_pos rfl

theorem afterSymbol_eq_ok_iff {stop : Nat} {c : Char} {tokens rest : Tokens} :
    afterSymbol stop c tokens = .ok rest <->
      ∃ position, tokens = ⟨.symbol c, position⟩ :: rest := by
  rw [← afterSymbol?_eq_some_iff]
  unfold afterSymbol
  cases afterSymbol? c tokens <;> simp

theorem nameFrom_eq_ok_iff {stop : Nat} {name : String} {tokens rest : Tokens} :
    nameFrom stop tokens = .ok (name, rest) <->
      ∃ position, tokens = ⟨.name name, position⟩ :: rest := by
  constructor
  · intro found
    unfold nameFrom at found
    split at found
    · cases found
      exact ⟨_, rfl⟩
    · cases found
  · rintro ⟨position, rfl⟩
    rfl

section

variable {R : Type} {stop : Nat}

/-! ## Chains and brackets -/

/-- A chain whose left part is derived already derives more with every operand. -/
theorem chainRest_reads {operand : Production (Expr R)} {operator? : Lexeme -> Option Operator}
    {single chained : List Lexeme -> Expr R -> Prop} (operands : Reads operand single)
    (extend : forall lexemes sign op more x y, chained lexemes x -> operator? sign = some op ->
      single more y -> chained (lexemes ++ sign :: more) (.binary op x y))
    (rounds : Nat) (left : Expr R) (before : List Lexeme) (derived : chained before left) :
    Reads (chainRest operand operator? rounds left)
      (fun lexemes x => chained (before ++ lexemes) x) := by
  intro tokens result rest accepted
  induction rounds generalizing left before tokens with
  | zero =>
      cases accepted
      exact ⟨[], rfl, by simpa using derived⟩
  | succ rounds inductionHypothesis =>
      cases tokens with
      | nil =>
          cases accepted
          exact ⟨[], rfl, by simpa using derived⟩
      | cons token tokens =>
          rw [chainRest] at accepted
          split at accepted
          · rename_i op operates
            rcases bind_eq_ok.mp accepted with ⟨⟨right, later⟩, first, continued⟩
            rcases operands _ _ _ first with ⟨read, rfl, rightDerived⟩
            have longer := extend _ _ _ _ _ _ derived operates rightDerived
            rcases inductionHypothesis _ _ longer _ continued with ⟨more, rfl, resultDerived⟩
            refine ⟨token :: (read ++ more), by simp, ?_⟩
            simpa using resultDerived
          · cases accepted
            exact ⟨[], rfl, by simpa using derived⟩

theorem chain_reads {operand : Production (Expr R)} {operator? : Lexeme -> Option Operator}
    {single chained : List Lexeme -> Expr R -> Prop} (operands : Reads operand single)
    (begin : forall lexemes x, single lexemes x -> chained lexemes x)
    (extend : forall lexemes sign op more x y, chained lexemes x -> operator? sign = some op ->
      single more y -> chained (lexemes ++ sign :: more) (.binary op x y)) :
    Reads (chain operand operator?) chained := by
  intro tokens result rest accepted
  rcases bind_eq_ok.mp accepted with ⟨⟨left, later⟩, first, continued⟩
  rcases operands _ _ _ first with ⟨read, rfl, leftDerived⟩
  rcases chainRest_reads operands extend _ _ _ (begin _ _ leftDerived) _ _ _ continued with
    ⟨more, rfl, resultDerived⟩
  exact ⟨read ++ more, by rw [List.append_assoc], by rwa [List.map_append]⟩

theorem between_reads {left right : Char} {inner : Production (Expr R)}
    {derives : List Lexeme -> Expr R -> Prop} (inside : Reads inner derives) :
    Reads (between stop left right inner)
      (fun lexemes x => ∃ enclosed, lexemes = within left enclosed right ∧ derives enclosed x) := by
  intro tokens result rest accepted
  rcases bind_eq_ok.mp accepted with ⟨opened, opens, continued⟩
  rcases bind_eq_ok.mp continued with ⟨⟨x, closing⟩, first, concluded⟩
  rcases bind_eq_ok.mp concluded with ⟨closed, closes, finished⟩
  cases finished
  rcases afterSymbol_eq_ok_iff.mp opens with ⟨position, rfl⟩
  rcases inside _ _ _ first with ⟨read, rfl, derived⟩
  rcases afterSymbol_eq_ok_iff.mp closes with ⟨last, rfl⟩
  refine ⟨⟨.symbol left, position⟩ :: (read ++ [⟨.symbol right, last⟩]), by simp, _, ?_, derived⟩
  simp [within]

end

section

variable {R : Type} [Scalar R] {stop room : Nat} {expression : Production (Expr R)}

/-! ## Calls -/

theorem afterSeparator?_eq_some_iff {tokens rest : Tokens} :
    afterSeparator? tokens = some rest <->
      ∃ separator position, isSeparator separator = true ∧
        tokens = ⟨.symbol separator, position⟩ :: rest := by
  rw [afterSeparator?, Option.or_eq_some_iff, afterSymbol?_eq_some_iff]
  constructor
  · rintro (⟨position, rfl⟩ | ⟨_, found⟩)
    · exact ⟨';', position, rfl, rfl⟩
    · rcases afterSymbol?_eq_some_iff.mp found with ⟨position, rfl⟩
      exact ⟨',', position, rfl, rfl⟩
  · rintro ⟨separator, position, separates, rfl⟩
    by_cases semicolon : separator = ';'
    · subst semicolon
      exact Or.inl ⟨position, rfl⟩
    · have comma : separator = ',' := by simpa [isSeparator, semicolon] using separates
      subst comma
      exact Or.inr ⟨rfl, rfl⟩

theorem bindingsFrom_reads
    (inside : Reads expression fun lexemes x => Derives true room lexemes (.expression x))
    (rounds : Nat) :
    Reads (bindingsFrom stop expression rounds)
      (fun lexemes arguments => Derives true room lexemes (.bindings arguments)) := by
  intro tokens result rest accepted
  induction rounds generalizing tokens result with
  | zero =>
      cases accepted
      exact ⟨[], rfl, .noBindings⟩
  | succ rounds inductionHypothesis =>
      rw [bindingsFrom] at accepted
      split at accepted
      · cases accepted
        exact ⟨[], rfl, .noBindings⟩
      · rcases bind_eq_ok.mp accepted with ⟨⟨name, afterName⟩, named, continued⟩
        rcases bind_eq_ok.mp continued with ⟨afterSign, signed, concluded⟩
        rcases bind_eq_ok.mp concluded with ⟨⟨value, afterValue⟩, valued, finished⟩
        rcases nameFrom_eq_ok_iff.mp named with ⟨namePosition, rfl⟩
        rcases afterSymbol_eq_ok_iff.mp signed with ⟨signPosition, rfl⟩
        rcases inside _ _ _ valued with ⟨read, rfl, derived⟩
        dsimp only at finished
        split at finished
        · rename_i afterSign separated
          rcases bind_eq_ok.mp finished with ⟨⟨more, afterMore⟩, later, completed⟩
          cases completed
          rcases afterSeparator?_eq_some_iff.mp separated with ⟨separator, position, separates, rfl⟩
          rcases inductionHypothesis _ _ later with ⟨others, rfl, moreDerived⟩
          refine ⟨⟨.name name, namePosition⟩ :: ⟨.symbol '=', signPosition⟩ ::
            (read ++ ⟨.symbol separator, position⟩ :: others), by simp, ?_⟩
          simpa using Derives.binding name derived separates moreDerived (Or.inl rfl)
        · cases finished
          exact ⟨⟨.name name, namePosition⟩ :: ⟨.symbol '=', signPosition⟩ :: read, by simp,
            .lastBinding name derived⟩

/-- A call without its sign. -/
theorem callFrom_reads
    (inside : Reads expression fun lexemes x => Derives true room lexemes (.expression x)) :
    Reads (callFrom stop expression)
      (fun lexemes x => Derives true room (.symbol '$' :: lexemes) (.primary x)) := by
  intro tokens result rest accepted
  rcases bind_eq_ok.mp accepted with ⟨⟨name, afterName⟩, named, continued⟩
  rcases nameFrom_eq_ok_iff.mp named with ⟨namePosition, rfl⟩
  dsimp only at continued
  split at continued
  · rename_i opened opens
    rcases bind_eq_ok.mp continued with ⟨⟨arguments, closing⟩, bound, concluded⟩
    rcases bind_eq_ok.mp concluded with ⟨closed, closes, finished⟩
    cases finished
    rcases afterSymbol?_eq_some_iff.mp opens with ⟨position, rfl⟩
    rcases bindingsFrom_reads inside _ _ _ _ bound with ⟨read, rfl, derived⟩
    rcases afterSymbol_eq_ok_iff.mp closes with ⟨last, rfl⟩
    refine ⟨⟨.name name, namePosition⟩ :: ⟨.symbol '\x7b', position⟩ ::
      (read ++ [⟨.symbol '\x7d', last⟩]), by simp, ?_⟩
    simpa [within] using Derives.callWith name derived
  · cases continued
    exact ⟨[⟨.name name, namePosition⟩], rfl, .call name⟩

/-! ## Primaries and what stands behind them -/

/-- An expression that starts with a word, without the word. -/
theorem wordFrom_reads
    (inside : Reads expression fun lexemes x => Derives true room lexemes (.expression x))
    (word : String) :
    Reads (wordFrom stop expression word)
      (fun lexemes x => Derives true room (.name word :: lexemes) (.primary x)) := by
  intro tokens result rest accepted
  have alone : word ≠ "mem" -> result = .var word -> rest = tokens ->
      ∃ read, tokens = read ++ rest ∧
        Derives true room (.name word :: read.map Token.lexeme) (.primary result) := by
    rintro ordinary rfl rfl
    exact ⟨[], rfl, .named ordinary⟩
  unfold wordFrom at accepted
  dsimp only at accepted
  split at accepted
  · rename_i chosen
    rcases bind_eq_ok.mp accepted with ⟨⟨x, between⟩, first, continued⟩
    rcases bind_eq_ok.mp continued with ⟨⟨y, after⟩, second, concluded⟩
    cases concluded
    rcases between_reads inside _ _ _ first with ⟨read, rfl, above, written, aboveDerived⟩
    rcases between_reads inside _ _ _ second with ⟨more, rfl, below, writtenToo, belowDerived⟩
    refine ⟨read ++ more, by rw [List.append_assoc], ?_⟩
    have named : word = "frac" := of_decide_eq_true (Bool.and_eq_true_iff.mp chosen).1
    rw [named, List.map_append, written, writtenToo]
    exact .fraction aboveDerived belowDerived
  · split at accepted
    · rename_i chosen
      rcases bind_eq_ok.mp accepted with ⟨⟨x, after⟩, first, continued⟩
      cases continued
      rcases between_reads inside _ _ _ first with ⟨read, rfl, enclosed, written, derived⟩
      refine ⟨read, rfl, ?_⟩
      have named : word = "sqrt" := of_decide_eq_true (Bool.and_eq_true_iff.mp chosen).1
      rw [named, written]
      exact .squareRoot derived
    · split at accepted
      · rename_i chosen
        rcases bind_eq_ok.mp accepted with ⟨⟨index, between⟩, first, continued⟩
        rcases bind_eq_ok.mp continued with ⟨⟨x, after⟩, second, concluded⟩
        cases concluded
        rcases between_reads inside _ _ _ first with ⟨read, rfl, above, written, indexDerived⟩
        rcases between_reads inside _ _ _ second with ⟨more, rfl, below, writtenToo, derived⟩
        refine ⟨read ++ more, by rw [List.append_assoc], ?_⟩
        have named : word = "root" := of_decide_eq_true (Bool.and_eq_true_iff.mp chosen).1
        rw [named, List.map_append, written, writtenToo]
        exact .root indexDerived derived
      · split at accepted
        · rename_i named
          subst named
          split at accepted
          · rcases bind_eq_ok.mp accepted with ⟨⟨index, after⟩, first, continued⟩
            cases continued
            rcases between_reads inside _ _ _ first with ⟨read, rfl, enclosed, written, derived⟩
            exact ⟨read, rfl, written ▸ .memoryAt derived⟩
          · cases accepted
            exact ⟨[], rfl, .memory⟩
        · rename_i ordinary
          split at accepted
          · rename_i kind keyword
            split at accepted
            · rcases bind_eq_ok.mp accepted with ⟨⟨x, after⟩, first, continued⟩
              cases continued
              rcases between_reads inside _ _ _ first with ⟨read, rfl, enclosed, written, derived⟩
              exact ⟨read, rfl, written ▸ .function keyword derived⟩
            · cases accepted
              exact alone ordinary rfl rfl
          · cases accepted
            exact alone ordinary rfl rfl

theorem primary_reads
    (inside : Reads expression fun lexemes x => Derives true room lexemes (.expression x)) :
    Reads (primary stop expression)
      (fun lexemes x => Derives true room lexemes (.primary x)) := by
  intro tokens result rest accepted
  unfold primary at accepted
  split at accepted
  · rename_i spelling position more
    cases accepted
    exact ⟨[⟨.number spelling, position⟩], rfl, .number spelling⟩
  · rename_i word position more
    rcases wordFrom_reads inside word _ _ _ accepted with ⟨read, rfl, derived⟩
    exact ⟨⟨.name word, position⟩ :: read, rfl, derived⟩
  · rcases bind_eq_ok.mp accepted with ⟨⟨x, after⟩, first, continued⟩
    cases continued
    rcases between_reads inside _ _ _ first with ⟨read, written, enclosed, inner, derived⟩
    exact ⟨read, written, inner ▸ .parenthesized derived⟩
  · rcases bind_eq_ok.mp accepted with ⟨⟨x, after⟩, first, continued⟩
    cases continued
    rcases between_reads inside _ _ _ first with ⟨read, written, enclosed, inner, derived⟩
    exact ⟨read, written, inner ▸ .bars derived⟩
  · rename_i position more
    rcases callFrom_reads inside _ _ _ accepted with ⟨read, rfl, derived⟩
    exact ⟨⟨.symbol '$', position⟩ :: read, rfl, derived⟩
  · cases accepted

/-- Marks behind an expression that is derived already. -/
theorem marksFrom_reads (expr : Expr R) (before : List Lexeme)
    (derived : Derives true room before (.marked expr)) :
    Reads (marksFrom expr)
      (fun lexemes x => Derives true room (before ++ lexemes) (.marked x)) := by
  intro tokens result rest accepted
  induction tokens generalizing expr before with
  | nil =>
      cases accepted
      exact ⟨[], rfl, by simpa using derived⟩
  | cons token tokens inductionHypothesis =>
      rw [marksFrom] at accepted
      split at accepted
      · rename_i sign
        rcases inductionHypothesis _ _ (.factorial derived) accepted with ⟨read, rfl, resultDerived⟩
        refine ⟨token :: read, rfl, ?_⟩
        simpa [sign] using resultDerived
      · rename_i content sign
        rcases bind_eq_ok.mp accepted with ⟨mark, reads, continued⟩
        have descriptor := unitMark_describes reads
        rcases inductionHypothesis _ _ (.unitBracket derived descriptor) continued with
          ⟨read, rfl, resultDerived⟩
        refine ⟨token :: read, rfl, ?_⟩
        simpa [sign] using resultDerived
      · cases accepted
        exact ⟨[], rfl, by simpa using derived⟩

theorem powerFrom_reads {unary : Production (Expr R)}
    (inside : Reads expression fun lexemes x => Derives true room lexemes (.expression x))
    (exponents : Reads unary fun lexemes x => Derives true room lexemes (.unary x)) :
    Reads (powerFrom stop expression unary)
      (fun lexemes x => Derives true room lexemes (.power x)) := by
  intro tokens result rest accepted
  rcases bind_eq_ok.mp accepted with ⟨⟨first, afterFirst⟩, begins, continued⟩
  rcases bind_eq_ok.mp continued with ⟨⟨base, afterBase⟩, marks, concluded⟩
  rcases primary_reads inside _ _ _ begins with ⟨read, rfl, firstDerived⟩
  rcases marksFrom_reads _ _ (.primary firstDerived) _ _ _ marks with ⟨marked, rfl, baseDerived⟩
  rw [← List.map_append] at baseDerived
  dsimp only at concluded
  split at concluded
  · rename_i afterSign raised
    rcases bind_eq_ok.mp concluded with ⟨⟨exponent, afterExponent⟩, exponentRead, finished⟩
    cases finished
    rcases afterSymbol?_eq_some_iff.mp raised with ⟨position, rfl⟩
    rcases exponents _ _ _ exponentRead with ⟨more, rfl, exponentDerived⟩
    refine ⟨(read ++ marked) ++ ⟨.symbol '^', position⟩ :: more, by simp, ?_⟩
    rw [List.map_append]
    exact .raised baseDerived exponentDerived
  · cases concluded
    exact ⟨read ++ marked, by rw [List.append_assoc], .marked baseDerived⟩

/-! ## Expressions and statements -/

/-- By induction on the levels that may be opened. -/
theorem expressionFrom_unaryFrom_read (room : Nat) :
    Reads (expressionFrom (R := R) stop room)
        (fun lexemes x => Derives true room lexemes (.expression x)) ∧
      Reads (unaryFrom (R := R) stop room)
        (fun lexemes x => Derives true room lexemes (.unary x)) := by
  induction room with
  | zero => exact ⟨nofun, nofun⟩
  | succ room inductionHypothesis =>
      rcases inductionHypothesis with ⟨expressions, unaries⟩
      have terms : Reads (chain (unaryFrom (R := R) stop room) multiplicative?)
          (fun lexemes x => Derives true room lexemes (.term x)) :=
        chain_reads unaries (fun _ _ => .unary) (fun _ _ _ _ _ _ => .product)
      refine ⟨?_, ?_⟩
      · exact chain_reads terms (fun _ _ => .term) (fun _ _ _ _ _ _ => .sum)
      · intro tokens result rest accepted
        rw [unaryFrom] at accepted
        split at accepted
        · rename_i afterSign signed
          rcases bind_eq_ok.mp accepted with ⟨⟨operand, afterOperand⟩, first, continued⟩
          cases continued
          rcases afterSymbol?_eq_some_iff.mp signed with ⟨position, rfl⟩
          rcases unaries _ _ _ first with ⟨read, rfl, derived⟩
          exact ⟨⟨.symbol '-', position⟩ :: read, rfl, .minus derived⟩
        · split at accepted
          · rename_i afterSign signed
            rcases afterSymbol?_eq_some_iff.mp signed with ⟨position, rfl⟩
            rcases unaries _ _ _ accepted with ⟨read, rfl, derived⟩
            exact ⟨⟨.symbol '+', position⟩ :: read, rfl, .plus derived⟩
          · rcases powerFrom_reads expressions unaries _ _ _ accepted with ⟨read, rfl, derived⟩
            exact ⟨read, rfl, .power derived⟩

theorem equationFrom_reads
    (inside : Reads expression fun lexemes x => Derives true room lexemes (.expression x)) :
    Reads (equationFrom expression)
      (fun lexemes x => DerivesStatement true room lexemes x) := by
  intro tokens result rest accepted
  rcases bind_eq_ok.mp accepted with ⟨⟨left, afterLeft⟩, first, continued⟩
  rcases inside _ _ _ first with ⟨read, rfl, leftDerived⟩
  dsimp only at continued
  split at continued
  · cases continued
    exact ⟨read, rfl, .expression leftDerived⟩
  · rename_i afterSign equated
    rcases bind_eq_ok.mp continued with ⟨⟨right, afterRight⟩, second, concluded⟩
    rcases afterSymbol?_eq_some_iff.mp equated with ⟨position, rfl⟩
    rcases inside _ _ _ second with ⟨more, rfl, rightDerived⟩
    dsimp only at concluded
    split at concluded
    · cases concluded
    · cases concluded
      refine ⟨read ++ ⟨.symbol '=', position⟩ :: more, by simp, ?_⟩
      rw [List.map_append]
      exact .equation leftDerived rightDerived

theorem statementFrom_reads
    (inside : Reads expression fun lexemes x => Derives true room lexemes (.expression x)) :
    Reads (statementFrom stop expression)
      (fun lexemes x => DerivesStatement true room lexemes x) := by
  intro tokens result rest accepted
  unfold statementFrom at accepted
  split at accepted
  · rename_i position more
    rcases bind_eq_ok.mp accepted with ⟨⟨name, afterName⟩, named, continued⟩
    cases continued
    rcases nameFrom_eq_ok_iff.mp named with ⟨namePosition, rfl⟩
    exact ⟨[⟨.symbol '@', position⟩, ⟨.name name, namePosition⟩], rfl, .target name⟩
  · rename_i name position signPosition more
    rcases bind_eq_ok.mp accepted with ⟨⟨value, afterValue⟩, valued, continued⟩
    cases continued
    rcases inside _ _ _ valued with ⟨read, rfl, derived⟩
    exact ⟨⟨.name name, position⟩ :: ⟨.declare, signPosition⟩ :: read, rfl,
      .declaration name derived⟩
  · exact equationFrom_reads inside _ _ _ accepted

/-- A statement that is read is derived by the whole of its tokens. -/
theorem statementBy_sound {tokens : Tokens} {expr : Expr R}
    (accepted : statementBy stop (expressionFrom stop room) tokens = .ok expr) :
    DerivesStatement true room (tokens.map Token.lexeme) expr := by
  rcases bind_eq_ok.mp accepted with ⟨⟨result, rest⟩, first, continued⟩
  dsimp only at continued
  split at continued
  · cases continued
    rcases statementFrom_reads (expressionFrom_unaryFrom_read room).1 _ _ _ first with
      ⟨read, rfl, derived⟩
    rwa [List.append_nil]
  · cases continued

end

end Source
end QuantityCalculus
