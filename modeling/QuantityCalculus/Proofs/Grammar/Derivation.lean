import QuantityCalculus.Proofs.Grammar.Descriptor

namespace QuantityCalculus
namespace Source

/-!
# The grammar of statements

`Derives` is the grammar itself: which runs of lexemes stand for which phrases.
It reads nothing, looks at nothing ahead, and prefers no rule to another.  The
chains of operators group to the left because the rules recur on the left, the
power groups to the right because its rule recurs on the right.

Each rule for an expression or a unary opens one level, so a derivation carries
the number of levels that it may open.  More levels never take a derivation away.

Whether a separator may stand behind the last binding of a call is left open:
the grammar exists with such trailing separators and without them.
-/

/-- What a run of lexemes may stand for. -/
inductive Phrase (R : Type) where
  | expression (expr : Expr R)
  | term (expr : Expr R)
  | unary (expr : Expr R)
  | power (expr : Expr R)
  | marked (expr : Expr R)
  | primary (expr : Expr R)
  | bindings (arguments : Arguments R)

/-- What a phrase is about has a property, stated for expressions and for bindings. -/
def Phrase.Holds {R : Type} (property : Expr R -> Prop) (bindings : Arguments R -> Prop) :
    Phrase R -> Prop
  | .expression x | .term x | .unary x | .power x | .marked x | .primary x => property x
  | .bindings arguments => bindings arguments

/-- Lexemes between two symbols. -/
def within (left : Char) (lexemes : List Lexeme) (right : Char) : List Lexeme :=
  .symbol left :: (lexemes ++ [.symbol right])

/-- A symbol that separates bindings. -/
def isSeparator (c : Char) : Bool :=
  c == ';' || c == ','

section

variable {R : Type} [Scalar R]

/-- The grammar of expressions, with the number of levels that may be opened. -/
inductive Derives (trailing : Bool) : Nat -> List Lexeme -> Phrase R -> Prop
  | term {room lexemes x} :
      Derives trailing room lexemes (.term x) ->
      Derives trailing (room + 1) lexemes (.expression x)
  | sum {room lexemes sign op more x y} :
      Derives trailing (room + 1) lexemes (.expression x) -> additive? sign = some op ->
      Derives trailing room more (.term y) ->
      Derives trailing (room + 1) (lexemes ++ sign :: more) (.expression (.binary op x y))
  | unary {room lexemes x} :
      Derives trailing room lexemes (.unary x) -> Derives trailing room lexemes (.term x)
  | product {room lexemes sign op more x y} :
      Derives trailing room lexemes (.term x) -> multiplicative? sign = some op ->
      Derives trailing room more (.unary y) ->
      Derives trailing room (lexemes ++ sign :: more) (.term (.binary op x y))
  | minus {room lexemes x} :
      Derives trailing room lexemes (.unary x) ->
      Derives trailing (room + 1) (.symbol '-' :: lexemes) (.unary (negated x))
  | plus {room lexemes x} :
      Derives trailing room lexemes (.unary x) ->
      Derives trailing (room + 1) (.symbol '+' :: lexemes) (.unary x)
  | power {room lexemes x} :
      Derives trailing room lexemes (.power x) -> Derives trailing (room + 1) lexemes (.unary x)
  | marked {room lexemes x} :
      Derives trailing room lexemes (.marked x) -> Derives trailing room lexemes (.power x)
  | raised {room lexemes more x y} :
      Derives trailing room lexemes (.marked x) -> Derives trailing room more (.unary y) ->
      Derives trailing room (lexemes ++ .symbol '^' :: more) (.power (.binary .power x y))
  | primary {room lexemes x} :
      Derives trailing room lexemes (.primary x) -> Derives trailing room lexemes (.marked x)
  | factorial {room lexemes x} :
      Derives trailing room lexemes (.marked x) ->
      Derives trailing room (lexemes ++ [.symbol '!']) (.marked (.factorial x))
  | unitBracket {room lexemes content mark x} :
      Derives trailing room lexemes (.marked x) -> Descriptor content.toList mark ->
      Derives trailing room (lexemes ++ [.unit content]) (.marked (.marked mark x))
  | number {room} (spelling : List Char) :
      Derives trailing room [.number spelling] (.primary (.num (Number.readSpelling spelling)))
  | named {room word} :
      word ≠ "mem" -> Derives trailing room [.name word] (.primary (.var word))
  | parenthesized {room lexemes x} :
      Derives trailing room lexemes (.expression x) ->
      Derives trailing room (within '(' lexemes ')') (.primary (.paren x))
  | bars {room lexemes x} :
      Derives trailing room lexemes (.expression x) ->
      Derives trailing room (within '|' lexemes '|') (.primary (.abs x))
  | fraction {room lexemes more x y} :
      Derives trailing room lexemes (.expression x) ->
      Derives trailing room more (.expression y) ->
      Derives trailing room (.name "frac" :: (within '(' lexemes ')' ++ within '(' more ')'))
        (.primary (.fraction x y))
  | squareRoot {room lexemes x} :
      Derives trailing room lexemes (.expression x) ->
      Derives trailing room (.name "sqrt" :: within '(' lexemes ')') (.primary (.sqrt x))
  | root {room lexemes more x index} :
      Derives trailing room lexemes (.expression index) ->
      Derives trailing room more (.expression x) ->
      Derives trailing room (.name "root" :: (within '[' lexemes ']' ++ within '(' more ')'))
        (.primary (.root x index))
  | memory {room} : Derives trailing room [.name "mem"] (.primary .mem)
  | memoryAt {room lexemes index} :
      Derives trailing room lexemes (.expression index) ->
      Derives trailing room (.name "mem" :: within '[' lexemes ']') (.primary (.memAt index))
  | function {room word kind lexemes x} :
      FunctionKind.ofKeyword? word = some kind -> Derives trailing room lexemes (.expression x) ->
      Derives trailing room (.name word :: within '(' lexemes ')') (.primary (.func kind x))
  | call {room} (name : String) :
      Derives trailing room [.symbol '$', .name name] (.primary (.call name .nil))
  | callWith {room lexemes arguments} (name : String) :
      Derives trailing room lexemes (.bindings arguments) ->
      Derives trailing room (.symbol '$' :: .name name :: within '\x7b' lexemes '\x7d')
        (.primary (.call name arguments))
  | noBindings {room} : Derives trailing room [] (.bindings .nil)
  | lastBinding {room lexemes x} (name : String) :
      Derives trailing room lexemes (.expression x) ->
      Derives trailing room (.name name :: .symbol '=' :: lexemes)
        (.bindings (.cons name x .nil))
  | binding {room lexemes separator more x arguments} (name : String) :
      Derives trailing room lexemes (.expression x) -> isSeparator separator = true ->
      Derives trailing room more (.bindings arguments) -> (trailing = true ∨ more ≠ []) ->
      Derives trailing room (.name name :: .symbol '=' :: (lexemes ++ .symbol separator :: more))
        (.bindings (.cons name x arguments))

/-- The grammar of statements. -/
inductive DerivesStatement (trailing : Bool) : Nat -> List Lexeme -> Expr R -> Prop
  | target {room} (name : String) :
      DerivesStatement trailing room [.symbol '@', .name name] (.target name)
  | declaration {room lexemes x} (name : String) :
      Derives trailing room lexemes (.expression x) ->
      DerivesStatement trailing room (.name name :: .declare :: lexemes) (.declaration name x)
  | expression {room lexemes x} :
      Derives trailing room lexemes (.expression x) -> DerivesStatement trailing room lexemes x
  | equation {room lexemes more x y} :
      Derives trailing room lexemes (.expression x) ->
      Derives trailing room more (.expression y) ->
      DerivesStatement trailing room (lexemes ++ .symbol '=' :: more) (.equation x y)

/-! ## More levels, more separators -/

/-- What can be derived with some levels can be derived with more, and allowing trailing
separators takes nothing away. -/
theorem Derives.relax {trailing loose : Bool} {room more : Nat} {lexemes : List Lexeme}
    {phrase : Phrase R} (derivation : Derives trailing room lexemes phrase)
    (looser : trailing = true -> loose = true) (bound : room ≤ more) :
    Derives loose more lexemes phrase := by
  induction derivation generalizing more with
  | term _ inner =>
      cases more with
      | zero => exact absurd bound (Nat.not_succ_le_zero _)
      | succ more => exact .term (inner (Nat.le_of_succ_le_succ bound))
  | sum _ sign _ left right =>
      cases more with
      | zero => exact absurd bound (Nat.not_succ_le_zero _)
      | succ more => exact .sum (left bound) sign (right (Nat.le_of_succ_le_succ bound))
  | unary _ inner => exact .unary (inner bound)
  | product _ sign _ left right => exact .product (left bound) sign (right bound)
  | minus _ inner =>
      cases more with
      | zero => exact absurd bound (Nat.not_succ_le_zero _)
      | succ more => exact .minus (inner (Nat.le_of_succ_le_succ bound))
  | plus _ inner =>
      cases more with
      | zero => exact absurd bound (Nat.not_succ_le_zero _)
      | succ more => exact .plus (inner (Nat.le_of_succ_le_succ bound))
  | power _ inner =>
      cases more with
      | zero => exact absurd bound (Nat.not_succ_le_zero _)
      | succ more => exact .power (inner (Nat.le_of_succ_le_succ bound))
  | marked _ inner => exact .marked (inner bound)
  | raised _ _ left right => exact .raised (left bound) (right bound)
  | primary _ inner => exact .primary (inner bound)
  | factorial _ inner => exact .factorial (inner bound)
  | unitBracket _ descriptor inner => exact .unitBracket (inner bound) descriptor
  | number spelling => exact .number spelling
  | named allowed => exact .named allowed
  | parenthesized _ inner => exact .parenthesized (inner bound)
  | bars _ inner => exact .bars (inner bound)
  | fraction _ _ above below => exact .fraction (above bound) (below bound)
  | squareRoot _ inner => exact .squareRoot (inner bound)
  | root _ _ index radicand => exact .root (index bound) (radicand bound)
  | memory => exact .memory
  | memoryAt _ inner => exact .memoryAt (inner bound)
  | function keyword _ inner => exact .function keyword (inner bound)
  | call name => exact .call name
  | callWith name _ inner => exact .callWith name (inner bound)
  | noBindings => exact .noBindings
  | lastBinding name _ inner => exact .lastBinding name (inner bound)
  | binding name _ separates _ follows first rest =>
      exact .binding name (first bound) separates (rest bound) (follows.imp_left looser)

theorem DerivesStatement.relax {trailing loose : Bool} {room more : Nat} {lexemes : List Lexeme}
    {expr : Expr R} (derivation : DerivesStatement trailing room lexemes expr)
    (looser : trailing = true -> loose = true) (bound : room ≤ more) :
    DerivesStatement loose more lexemes expr := by
  cases derivation with
  | target name => exact .target name
  | declaration name value => exact .declaration name (value.relax looser bound)
  | expression whole => exact .expression (whole.relax looser bound)
  | equation left right => exact .equation (left.relax looser bound) (right.relax looser bound)

end

end Source
end QuantityCalculus
