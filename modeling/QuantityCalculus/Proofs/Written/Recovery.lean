import QuantityCalculus.Proofs.Written.Spelling
import QuantityCalculus.Source.Statement

namespace QuantityCalculus

open Source

/-!
# Legible expressions spell their lexemes

The lexemes of a legible expression are recovered from its text, so reading the
text back is reading these lexemes.  Only a text that is longer than a source text
may be is refused before it is cut.
-/

section

variable {R : Type} [Scalar R] {places : Nat}

/-! ## Literals and unit brackets -/

/-- A spelling carries no sign. -/
theorem IsSpelling.no_sign {spelling : List Char} (isSpelling : IsSpelling spelling)
    (rest : List Char) : spelling ≠ '-' :: rest := by
  rintro rfl
  have whole := isSpelling.whole
  rw [spellingLength_eq_zero (by decide) (by decide)] at whole
  cases whole

theorem literalLexemes_unsigned {spelling : List Char} (isSpelling : IsSpelling spelling) :
    literalLexemes spelling = [.number spelling] := by
  unfold literalLexemes
  split
  · exact absurd rfl (isSpelling.no_sign _)
  · rfl

theorem spells_literal {value : R} (reads : LiteralReads places value) :
    Spells (Number.literalText places value)
      (literalLexemes (Number.literalText places value)) := by
  cases reads with
  | unsigned spelling written isSpelling =>
      rw [written, literalLexemes_unsigned isSpelling]
      exact spells_number isSpelling
  | signed spelling written isSpelling =>
      rw [written]
      exact (spells_number isSpelling).cons rfl (by decide)

/-- Whatever closes the bracket, a unit mark that is read back is written between brackets as
one token. -/
theorem UnitMark.Reads.label {mark : UnitMark} (reads : mark.Reads) :
    Settles (mark.label ++ [']']) ∧ Balances mark.label ∧ ']' ∉ mark.label := by
  have noClosing : forall symbol : List Char,
      symbol.all isUnitCharacter = true -> ']' ∉ symbol := by
    intro symbol symbolic member
    have this := List.all_eq_true.mp symbolic ']' member
    cases this
  cases mark with
  | apply symbol =>
      exact ⟨settles_symbol reads.settled reads.symbolic (Or.inl rfl),
        balances_of_noFault reads.balanced, noClosing _ reads.symbolic⟩
  | cast symbol =>
      refine ⟨?_, ?_, ?_⟩
      · exact (settles_symbol reads.settled reads.symbolic (Or.inr rfl)).append
          (settles_cons (by decide) settles_nil)
      · exact (balances_of_noFault reads.balanced).append (balances_cons rfl rfl balances_nil)
      · intro member
        rcases List.mem_append.mp member with inside | question
        · exact noClosing _ reads.symbolic inside
        · cases List.mem_singleton.mp question
  | normalize =>
      exact ⟨settles_cons (by decide) (settles_cons (by decide) settles_nil),
        balances_cons rfl rfl balances_nil, by decide⟩

/-! ## The last lexeme -/

theorem getLast?_within (front : List Lexeme) (left : Char) (inside : List Lexeme) (right : Char) :
    (front ++ within left inside right).getLast? = some (.symbol right) := by
  rw [within, ← List.cons_append, ← List.append_assoc, List.getLast?_concat]

/-- The last lexeme of an expression opens an index exactly when the expression ends open. -/
theorem Expr.Legible.last : (x : Expr R) -> x.Legible places ->
    ∃ last, (x.lexemes places).getLast? = some last ∧ opensIndex (some last) = x.endsOpen
  | .num value, _ => by
      rw [Expr.lexemes]
      unfold literalLexemes
      split <;> exact ⟨_, rfl, rfl⟩
  | .var name, _ => ⟨_, rfl, rfl⟩
  | .mem, _ => ⟨_, rfl, rfl⟩
  | .memAt i, _ => ⟨_, getLast?_within [.name "mem"] '[' (i.lexemes places) ']', rfl⟩
  | .func kind x, _ => ⟨_, getLast?_within [.name kind.name] '(' (x.lexemes places) ')', rfl⟩
  | .factorial x, _ => ⟨_, List.getLast?_concat, rfl⟩
  | .sqrt x, _ => ⟨_, getLast?_within [.name "sqrt"] '(' (x.lexemes places) ')', rfl⟩
  | .root x i, _ => by
      rw [Expr.lexemes]
      split
      · exact ⟨_, getLast?_within [.name "sqrt"] '(' (x.lexemes places) ')', rfl⟩
      · exact ⟨_, getLast?_within (.name "root" :: within '[' (i.lexemes places) ']') '('
          (x.lexemes places) ')', rfl⟩
  | .abs x, _ => ⟨_, getLast?_within [] '|' (x.lexemes places) '|', rfl⟩
  | .fraction x y, _ =>
      ⟨_, getLast?_within (.name "frac" :: within '(' (x.lexemes places) ')') '('
        (y.lexemes places) ')', rfl⟩
  | .binary op x y, legible => by
      rcases Expr.Legible.last y legible.2 with ⟨last, found, opens⟩
      refine ⟨last, ?_, opens⟩
      rw [Expr.lexemes, List.getLast?_append, List.getLast?_cons, found]
      rfl
  | .call name .nil, _ => ⟨_, rfl, rfl⟩
  | .call name (.cons key value rest), _ =>
      ⟨_, getLast?_within [.symbol '$', .name name] '\x7b'
        ((Arguments.cons key value rest).lexemes places) '\x7d', rfl⟩
  | .paren x, _ => ⟨_, getLast?_within [] '(' (x.lexemes places) ')', rfl⟩
  | .marked mark x, _ => ⟨_, List.getLast?_concat, rfl⟩

/-! ## Expressions -/

theorem keyword_isName (kind : FunctionKind) : Text.isName kind.name.toList = true := by
  cases kind <;> decide

theorem Operator.sign_mark (op : Operator) : isMark op.sign = true ∧ isPlain op.sign = true := by
  cases op <;> decide

mutual

/-- The text of a legible expression spells its lexemes. -/
theorem Expr.Legible.spells : (x : Expr R) -> x.Legible places ->
    Spells (x.plain places) (x.lexemes places)
  | .num value, legible => spells_literal legible
  | .var name, legible => spells_name legible
  | .mem, _ => (spells_name (by decide) : Spells "mem".toList [.name "mem"])
  | .memAt i, legible => by
      have inner := (Expr.Legible.spells i legible).indexed "mem" (by decide) (by decide)
      simpa [Expr.plain, Expr.lexemes, enclosed] using inner
  | .func kind x, legible => by
      have inner := (Expr.Legible.spells x legible).called kind.name (keyword_isName kind)
      simpa [Expr.plain, Expr.lexemes, enclosed] using inner
  | .factorial x, legible =>
      (Expr.Legible.spells x legible).append (spells_mark rfl (by decide)) (delimited_cons rfl _)
  | .sqrt x, legible => by
      have inner := (Expr.Legible.spells x legible).called "sqrt" (by decide)
      simpa [Expr.plain, Expr.lexemes, enclosed] using inner
  | .root x i, legible => by
      have radicand := Expr.Legible.spells x legible.1
      have index := Expr.Legible.spells i legible.2
      rw [Expr.plain, Expr.lexemes]
      split
      · simpa [enclosed] using radicand.called "sqrt" (by decide)
      · have whole := (index.indexed "root" (by decide) (by decide)).append
          radicand.parenthesized (delimited_cons rfl _)
        simpa [enclosed] using whole
  | .abs x, legible => by
      simpa [Expr.plain, Expr.lexemes, enclosed] using (Expr.Legible.spells x legible).barred
  | .fraction x y, legible => by
      have above := (Expr.Legible.spells x legible.1).called "frac" (by decide)
      have whole := above.append (Expr.Legible.spells y legible.2).parenthesized
        (delimited_cons rfl _)
      simpa [Expr.plain, Expr.lexemes, enclosed] using whole
  | .binary op x y, legible => by
      have right := (Expr.Legible.spells y legible.2).cons op.sign_mark.1 op.sign_mark.2
      have whole := (Expr.Legible.spells x legible.1).append right
        (delimited_cons op.sign_mark.1 _)
      simpa [Expr.plain, Expr.lexemes, Operator.symbol_toList] using whole
  | .call name .nil, legible => (spells_name legible.1).cons rfl (by decide)
  | .call name (.cons key value rest), legible => by
      have bindings := Arguments.Legible.spells (.cons key value rest) legible.2 nofun
      have whole := ((spells_name legible.1).append bindings.braced (delimited_cons rfl _)).cons
        (c := '$') rfl (by decide)
      simpa [Expr.plain, Expr.lexemes, enclosed] using whole
  | .paren x, legible => by
      simpa [Expr.plain, Expr.lexemes, enclosed] using (Expr.Legible.spells x legible).parenthesized
  | .marked mark x, legible => by
      rcases legible.1.label with ⟨settles, balances, inside⟩
      have noIndex : forall previous,
          opensIndex ((x.lexemes places).getLast?.or previous) = false := by
        intro previous
        rcases Expr.Legible.last x legible.2.2 with ⟨last, found, opens⟩
        rw [found, Option.some_or, opens, legible.2.1]
      have whole := (Expr.Legible.spells x legible.2.2).bracketed noIndex settles balances inside
      simpa [Expr.plain, Expr.lexemes] using whole

/-- The bindings of a call spell their lexemes, if there are any. -/
theorem Arguments.Legible.spells : (arguments : Arguments R) -> arguments.Legible places ->
    arguments ≠ .nil ->
    Spells (joined "; " (arguments.plain places)) (arguments.lexemes places)
  | .nil, _, written => absurd rfl written
  | .cons name value .nil, legible, _ =>
      (spells_name legible.1).append ((Expr.Legible.spells value legible.2.1).cons rfl (by decide))
        (delimited_cons rfl _)
  | .cons name value (.cons key next rest), legible, _ => by
      have later := Arguments.Legible.spells (.cons key next rest) legible.2.2 nofun
      have first := (Expr.Legible.spells value legible.2.1).append later.separated
        (delimited_cons rfl _)
      have whole := (spells_name legible.1).append (first.cons (c := '=') rfl (by decide))
        (delimited_cons rfl _)
      simpa [Arguments.plain, Arguments.lexemes, joined] using whole

end

/-! ## Reading back -/

/-- A text that spells lexemes is its own prepared form, if it is not too long. -/
theorem Spells.prepare {text : List Char} {lexemes : List Lexeme} (spells : Spells text lexemes)
    (short : text.length ≤ lengthLimit) : prepare text = .ok text := by
  refine prepare_eq_self ?_ ?_ spells.settles.settled spells.balances short
  · rcases spells.starts with ⟨c, rest, rfl, _⟩
    exact List.cons_ne_nil c rest
  · refine bare_eq_self ?_ spells.ends
    rcases spells.starts with ⟨c, rest, rfl, visible⟩
    intro d first
    cases first
    exact visible

theorem Spells.tokenize {text : List Char} {lexemes : List Lexeme} (spells : Spells text lexemes) :
    ∃ tokens : Tokens, tokenize text = .ok tokens ∧ tokens.map Token.lexeme = lexemes := by
  rcases spells.cuts 0 none [] delimited_nil with ⟨tokens, same, cut⟩
  refine ⟨tokens, ?_, same⟩
  rw [List.append_nil] at cut
  rw [Source.tokenize, cut, tokensFrom]
  exact congrArg Except.ok (List.append_nil tokens)

/-- The text of a legible expression is read as its lexemes are. -/
theorem Expr.Legible.parse {x : Expr R} (legible : x.Legible places)
    (short : (x.plain places).length ≤ lengthLimit) :
    ∃ tokens : Tokens, tokens.map Token.lexeme = x.lexemes places ∧
      Source.parse (R := R) (x.text places) = statement (x.plain places).length tokens := by
  have spells := Expr.Legible.spells x legible
  rcases spells.tokenize with ⟨tokens, cut, same⟩
  refine ⟨tokens, same, ?_⟩
  rw [Source.parse, Expr.text, Expr.write, String.toList_ofList]
  rw [spells.prepare short]
  simp only [bind, Except.bind, cut]

/-- A text that is too long is refused. -/
theorem Expr.Legible.too_long {x : Expr R} (legible : x.Legible places)
    (long : lengthLimit < (x.plain places).length) :
    Source.parse (R := R) (x.text places) = .error (.tooLong lengthLimit) := by
  have spells := Expr.Legible.spells x legible
  have bareText : bare (x.plain places) = x.plain places := by
    refine bare_eq_self ?_ spells.ends
    rcases spells.starts with ⟨c, rest, same, visible⟩
    rw [same]
    intro d first
    cases first
    exact visible
  have notEmpty : (x.plain places).isEmpty = false := by
    rcases spells.starts with ⟨c, rest, same, _⟩
    rw [same]
    rfl
  rw [Source.parse, Expr.text, Expr.write, String.toList_ofList, Source.prepare]
  simp only [bareText, notEmpty, Bool.false_eq_true, if_false, if_pos long]
  rfl

end

end QuantityCalculus
