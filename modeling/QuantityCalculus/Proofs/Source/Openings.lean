import QuantityCalculus.Proofs.Grammar.Soundness
import QuantityCalculus.Proofs.Source.Superscripts
import QuantityCalculus.Proofs.Source.Tiling

namespace QuantityCalculus
namespace Source

/-!
# How a text begins that can be read

The grammar lets an expression begin with a number, a name, a sign, or one of the marks that
enclose or introduce; never with an operator between operands or a unit bracket.  Preparation
leaves plain signs at the front of a text as they are, so the same can be said of its first
character.
-/

/-- Symbols with which a statement may begin. -/
def openingSymbols : List Char :=
  ['-', '+', '(', '|', '$', '@']

/-- A statement may begin with the lexeme. -/
def Lexeme.opens : Lexeme -> Bool
  | .number _ | .name _ => true
  | .symbol c => openingSymbols.contains c
  | .declare | .unit _ => false

/-- The lexemes begin with one that opens a statement. -/
def Opened (lexemes : List Lexeme) : Prop :=
  ∃ first rest, lexemes = first :: rest ∧ first.opens = true

theorem opened_cons {first : Lexeme} (opens : first.opens = true) (rest : List Lexeme) :
    Opened (first :: rest) :=
  ⟨first, rest, rfl, opens⟩

theorem Opened.append {lexemes : List Lexeme} (opened : Opened lexemes) (more : List Lexeme) :
    Opened (lexemes ++ more) := by
  rcases opened with ⟨first, rest, rfl, opens⟩
  exact opened_cons opens (rest ++ more)

section

variable {R : Type} [Scalar R] {trailing : Bool} {room : Nat} {lexemes : List Lexeme}

/-- Every phrase but bindings begins with such a lexeme. -/
theorem Derives.opened {phrase : Phrase R} (derivation : Derives trailing room lexemes phrase) :
    phrase.Holds (fun _ => Opened lexemes) (fun _ => True) := by
  induction derivation with
  | term _ inner | unary _ inner | power _ inner | marked _ inner | primary _ inner => exact inner
  | sum _ _ _ left _ | product _ _ _ left _ | raised _ _ left _ => exact Opened.append left _
  | factorial _ inner | unitBracket _ _ inner => exact Opened.append inner _
  | minus _ _ | plus _ _ | parenthesized _ _ | bars _ _ | call _ | callWith _ _ _ =>
      exact opened_cons rfl _
  | number _ | named _ | fraction _ _ _ _ | squareRoot _ _ | root _ _ _ _ | memory | memoryAt _ _
  | function _ _ _ => exact opened_cons rfl _
  | noBindings | lastBinding _ _ _ | binding _ _ _ _ _ _ _ => exact trivial

theorem DerivesStatement.opened {tree : Expr R}
    (derivation : DerivesStatement trailing room lexemes tree) : Opened lexemes := by
  cases derivation with
  | target _ | declaration _ _ => exact opened_cons rfl _
  | expression whole => exact whole.opened
  | equation left _ => exact Opened.append left.opened _

end

/-! ## The first character -/

/-- A character of ASCII at the front stays there, and does nothing to what follows. -/
theorem plainSigns_cons {c : Char} (ascii : c.toNat < 128) (rest : List Char) :
    plainSigns (c :: rest) = c :: plainSigns rest := by
  rcases ascii_plain ascii with ⟨plain, notRaised, notRoot⟩
  unfold plainSigns
  rw [List.map_cons, plain, lowerSuperscripts_eq, writeRuns_ordinary notRaised,
    rootPass_calls.keeps _ _ notRoot, rootPass_operands.keeps _ _ notRoot, lowerSuperscripts_eq]

/-- Signs that continue or end an expression, but begin none. -/
def innerSigns : List Char :=
  ['=', '*', '/', '%', '^', '!', ':', '[']

/-- A number starts with a digit or a point. -/
theorem IsNumber.starts {spelling : List Char} (isNumber : IsNumber spelling) :
    ∃ c rest, spelling = c :: rest ∧ (Text.isDigit c = true ∨ c = '.') := by
  cases isNumber with
  | @whole digits exponent written numeric _ =>
      cases digits with
      | nil => exact absurd rfl written
      | cons c digits =>
          exact ⟨c, _, rfl, Or.inl (Bool.and_eq_true_iff.mp numeric).1⟩
  | @pointed before after exponent _ numeric _ =>
      cases before with
      | nil => exact ⟨'.', _, rfl, Or.inr rfl⟩
      | cons c before => exact ⟨c, _, rfl, Or.inl (Bool.and_eq_true_iff.mp numeric).1⟩

/-- No token that opens a statement starts with such a sign. -/
theorem Lexeme.IsToken.noInnerSign {lexeme : Lexeme} (isToken : lexeme.IsToken)
    (opens : lexeme.opens = true) {c : Char} {rest : List Char} (piece : lexeme.piece = c :: rest) :
    c ∉ innerSigns := by
  intro inner
  have each : (innerSigns.all fun c => decide (Text.isDigit c = false ∧ c ≠ '.' ∧
      Text.isNameStart c = false ∧ openingSymbols.contains c = false)) = true := by
    decide
  rcases of_decide_eq_true (List.all_eq_true.mp each c inner) with
    ⟨noDigit, noPoint, noName, noOpening⟩
  cases isToken with
  | number isNumber =>
      rw [Lexeme.piece_number] at piece
      rcases isNumber.starts with ⟨d, rest, rfl, first⟩
      cases piece
      rcases first with digit | point
      · rw [noDigit] at digit
        cases digit
      · exact noPoint point
  | @name word valid =>
      rw [Lexeme.piece_name] at piece
      rw [piece, Text.isName, noName] at valid
      cases valid
  | declare => cases opens
  | symbol _ =>
      rw [Lexeme.piece_symbol] at piece
      cases piece
      rw [Lexeme.opens, noOpening] at opens
      cases opens
  | unit _ => cases opens

/-- A visible character at the front of a text is where its first token starts. -/
theorem Tiles.first {position : Nat} {c : Char} {rest : List Char} {tokens : List Token}
    (tiles : Tiles position (c :: rest) tokens) (seen : Text.isBlank c = false) :
    ∃ lexeme later behind, tokens = ⟨lexeme, position⟩ :: later ∧ lexeme.IsToken ∧
      lexeme.piece = c :: behind := by
  generalize whole : c :: rest = text at tiles
  cases tiles with
  | nil => cases whole
  | blank blank _ =>
      cases whole
      rw [seen] at blank
      cases blank
  | @token _ lexeme later tokens isToken _ =>
      cases piece : lexeme.piece with
      | nil => exact absurd piece isToken.piece_ne_nil
      | cons d behind =>
          rw [piece] at whole
          cases whole
          exact ⟨lexeme, tokens, behind, rfl, isToken, piece⟩

/-- What is cut without failure is tiled. -/
theorem tiles_of_tokenize {text : List Char} {tokens : List Token}
    (cut : tokenize text = .ok tokens) : Tiles 0 text tokens := by
  have outcome := cut_tokensFrom 0 0 none text
  change Cut 0 text (tokenize text) at outcome
  rw [cut] at outcome
  cases outcome with
  | tiled tiles => exact tiles

/-- Nothing can be read from no text. -/
theorem ne_nil_of_parse {R : Type} [Scalar R] {source : String} {tree : Expr R}
    (accepted : parse source = .ok tree) : source.toList ≠ [] := by
  intro none
  rcases bind_eq_ok.mp accepted with ⟨text, prepared, _⟩
  rw [none] at prepared
  cases prepared

/-- A text that can be read does not begin with a sign that begins no expression. -/
theorem parse_opening {R : Type} [Scalar R] {source : String} {tree : Expr R}
    (accepted : parse source = .ok tree) (whole : Text.trim source.toList = source.toList) :
    forall c, c ∈ source.toList.head? -> c ∉ innerSigns := by
  intro c first inner
  have each : (innerSigns.all fun c => decide (c.toNat < 128 ∧ c ≠ '>' ∧
      Text.isBlank c = false)) = true := by
    decide
  rcases of_decide_eq_true (List.all_eq_true.mp each c inner) with ⟨ascii, noPrompt, seen⟩
  rcases bind_eq_ok.mp accepted with ⟨text, prepared, accepted⟩
  rcases bind_eq_ok.mp accepted with ⟨tokens, cut, accepted⟩
  have opened := (statementBy_sound accepted).opened
  rcases List.head?_eq_some_iff.mp first with ⟨rest, written⟩
  have starts : ∃ behind, text = c :: behind := by
    have notPrompt : ¬ (c :: rest).take 3 = prompt := fun same => noPrompt (List.cons.inj same).1
    have itself : bare source.toList = c :: rest := by
      rw [bare, whole, written, if_neg notPrompt]
    rcases prepare_eq_ok_iff.mp prepared with ⟨_, _, rfl, _⟩
    rw [itself, plainSigns_cons ascii]
    exact ⟨_, rfl⟩
  rcases starts with ⟨behind, rfl⟩
  rcases (tiles_of_tokenize cut).first seen with ⟨lexeme, later, _, rfl, isToken, piece⟩
  rcases opened with ⟨_, _, same, opens⟩
  cases same
  exact isToken.noInnerSign opens piece inner

end Source
end QuantityCalculus
