import QuantityCalculus.Expr.Basic
import QuantityCalculus.Source.Prepared
import QuantityCalculus.Source.Token

namespace QuantityCalculus
namespace Source

/-!
Statements read from tokens.

The grammar, loosest operators first:

    statement  := '@' name | name ':=' expression | expression ['=' expression]
    expression := term (('+' | '-') term)*
    term       := unary (('*' | '/' | '%') unary)*
    unary      := '-' unary | '+' unary | power
    power      := marked ['^' unary]
    marked     := primary ('!' | unit bracket)*
    primary    := number | name | '(' expression ')' | '|' expression '|'
                | 'frac' '(' expression ')' '(' expression ')' | 'sqrt' '(' expression ')'
                | 'root' '[' expression ']' '(' expression ')' | 'mem' ['[' expression ']']
                | function '(' expression ')' | '$' name ['{' bindings '}']

Each production takes the tokens before it and leaves the tokens after it.
Expressions and unaries may nest to a limited depth; this depth is the measure
by which the productions recur, and running out of it is a failure of its own.
-/

/-- How deeply expressions and unaries may nest. -/
def nestingLimit : Nat := 200

/-- The tokens from a place to the end. -/
abbrev Tokens := List Token

/-- Reads a part of a statement and leaves the tokens after it. -/
abbrev Production (α : Type) := Tokens -> Except Failure (α × Tokens)

/-- The failure of an expectation at a place; `stop` is the position of the end. -/
def unexpectedAt (stop : Nat) (expectation : Expectation) : Tokens -> Failure
  | [] => .unexpected expectation none stop
  | token :: _ => .unexpected expectation (some token.lexeme.text) token.position

/-- The tokens after a symbol, if they start with it. -/
def afterSymbol? (c : Char) : Tokens -> Option Tokens
  | ⟨.symbol d, _⟩ :: rest => if d = c then some rest else none
  | _ => none

/-- The tokens after a symbol that has to be there. -/
def afterSymbol (stop : Nat) (c : Char) (tokens : Tokens) : Except Failure Tokens :=
  match afterSymbol? c tokens with
  | some rest => .ok rest
  | none => .error (unexpectedAt stop (.symbol (String.ofList [c])) tokens)

/-- A name that has to be there. -/
def nameFrom (stop : Nat) : Production String
  | ⟨.name word, _⟩ :: rest => .ok (word, rest)
  | tokens => .error (unexpectedAt stop .name tokens)

/-- What the inside of a unit bracket asks for. -/
def unitMark (content : String) (position : Nat) : Except Failure UnitMark :=
  let inside := Text.trimStart content.toList
  let symbol := inside.takeWhile fun c =>
    !(Text.isBlank c || c == '?' || c == '[' || c == ']')
  let asked : Option Bool :=
    match Text.trimStart (inside.drop symbol.length) with
    | [] => some false
    | '?' :: rest => if (Text.trimStart rest).isEmpty then some true else none
    | _ => none
  match asked with
  | none => .error (.invalidUnitDescriptor content position)
  | some cast =>
      if symbol.isEmpty then
        if cast then .ok .normalize else .error (.emptyUnitDescriptor position)
      else if cast then .ok (.cast (String.ofList symbol))
      else .ok (.apply (String.ofList symbol))

/-- The operators of a chain of terms. -/
def additive? : Lexeme -> Option Operator
  | .symbol '+' => some .add
  | .symbol '-' => some .subtract
  | _ => none

/-- The operators of a chain of unaries. -/
def multiplicative? : Lexeme -> Option Operator
  | .symbol '*' => some .multiply
  | .symbol '/' => some .divide
  | .symbol '%' => some .modulus
  | _ => none

section Productions

variable {R : Type} [Scalar R] (stop : Nat)

/-- The rest of a chain of operands, grouped to the left; every round takes an operator. -/
def chainRest (operand : Production (Expr R)) (operator? : Lexeme -> Option Operator) :
    Nat -> Expr R -> Production (Expr R)
  | rounds + 1, left, token :: rest =>
      match operator? token.lexeme with
      | some op => do
          let (right, rest) ← operand rest
          chainRest operand operator? rounds (.binary op left right) rest
      | none => .ok (left, token :: rest)
  | _, left, tokens => .ok (left, tokens)

/-- A chain of operands with operators between them. -/
def chain (operand : Production (Expr R)) (operator? : Lexeme -> Option Operator) :
    Production (Expr R) := fun tokens => do
  let (first, rest) ← operand tokens
  chainRest operand operator? rest.length first rest

/-- A production between two symbols that have to be there. -/
def between (left right : Char) (inner : Production (Expr R)) : Production (Expr R) :=
  fun tokens => do
    let rest ← afterSymbol stop left tokens
    let (expr, rest) ← inner rest
    let rest ← afterSymbol stop right rest
    .ok (expr, rest)

/-- The tokens after a separator of bindings. -/
def afterSeparator? (tokens : Tokens) : Option Tokens :=
  (afterSymbol? ';' tokens).or (afterSymbol? ',' tokens)

/-- Bindings up to a closing brace, which is left; every round takes a name. -/
def bindingsFrom (expression : Production (Expr R)) : Nat -> Production (Arguments R)
  | 0, tokens => .ok (.nil, tokens)
  | rounds + 1, tokens =>
      if (afterSymbol? '}' tokens).isSome then .ok (.nil, tokens)
      else do
        let (name, rest) ← nameFrom stop tokens
        let rest ← afterSymbol stop '=' rest
        let (value, rest) ← expression rest
        match afterSeparator? rest with
        | some rest => do
            let (more, rest) ← bindingsFrom expression rounds rest
            .ok (.cons name value more, rest)
        | none => .ok (.cons name value .nil, rest)

/-- A call after its sign. -/
def callFrom (expression : Production (Expr R)) : Production (Expr R) := fun tokens => do
  let (name, rest) ← nameFrom stop tokens
  match afterSymbol? '{' rest with
  | some rest => do
      let (arguments, rest) ← bindingsFrom stop expression (rest.length + 1) rest
      let rest ← afterSymbol stop '}' rest
      .ok (.call name arguments, rest)
  | none => .ok (.call name .nil, rest)

/-- An expression that starts with a word; a word of the language acts only before its bracket. -/
def wordFrom (expression : Production (Expr R)) (word : String) : Production (Expr R) :=
  fun rest => do
    let opened := (afterSymbol? '(' rest).isSome
    let argument := between stop '(' ')' expression
    if word = "frac" && opened then
      let (x, rest) ← argument rest
      let (y, rest) ← argument rest
      .ok (.fraction x y, rest)
    else if word = "sqrt" && opened then
      let (x, rest) ← argument rest
      .ok (.sqrt x, rest)
    else if word = "root" && (afterSymbol? '[' rest).isSome then
      let (index, rest) ← between stop '[' ']' expression rest
      let (x, rest) ← argument rest
      .ok (.root x index, rest)
    else if word = "mem" then
      if (afterSymbol? '[' rest).isSome then
        let (index, rest) ← between stop '[' ']' expression rest
        .ok (.memAt index, rest)
      else .ok (.mem, rest)
    else
      match FunctionKind.ofKeyword? word with
      | some kind =>
          if opened then
            let (x, rest) ← argument rest
            .ok (.func kind x, rest)
          else .ok (.var word, rest)
      | none => .ok (.var word, rest)

/-- A primary expression. -/
def primary (expression : Production (Expr R)) : Production (Expr R)
  | ⟨.number spelling, _⟩ :: rest => .ok (.num (Number.readSpelling spelling), rest)
  | ⟨.name word, _⟩ :: rest => wordFrom stop expression word rest
  | ⟨.symbol '(', position⟩ :: rest => do
      let (x, rest) ← between stop '(' ')' expression (⟨.symbol '(', position⟩ :: rest)
      .ok (.paren x, rest)
  | ⟨.symbol '|', position⟩ :: rest => do
      let (x, rest) ← between stop '|' '|' expression (⟨.symbol '|', position⟩ :: rest)
      .ok (.abs x, rest)
  | ⟨.symbol '$', _⟩ :: rest => callFrom stop expression rest
  | tokens => .error (unexpectedAt stop .token tokens)

/-- The factorial signs and unit brackets after an expression. -/
def marksFrom : Expr R -> Production (Expr R)
  | expr, [] => .ok (expr, [])
  | expr, token :: rest =>
      match token.lexeme with
      | .symbol '!' => marksFrom (.factorial expr) rest
      | .unit content => do
          let mark ← unitMark content token.position
          marksFrom (.marked mark expr) rest
      | _ => .ok (expr, token :: rest)

/-- A marked primary, possibly raised to a power, which groups to the right. -/
def powerFrom (expression unary : Production (Expr R)) : Production (Expr R) := fun tokens => do
  let (first, rest) ← primary stop expression tokens
  let (base, rest) ← marksFrom first rest
  match afterSymbol? '^' rest with
  | some rest => do
      let (exponent, rest) ← unary rest
      .ok (.binary .power base exponent, rest)
  | none => .ok (base, rest)

/-- The negative of an expression: a literal changes its sign, anything else is multiplied. -/
def negated : Expr R -> Expr R
  | .num value => .num (Scalar.neg value)
  | expr => .binary .multiply (.num (Scalar.ofInt (-1))) expr

mutual

/-- An expression, when `room` further levels may be opened. -/
def expressionFrom : Nat -> Production (Expr R)
  | 0, _ => .error (.tooDeeplyNested nestingLimit)
  | room + 1, tokens =>
      chain (chain (unaryFrom room) multiplicative?) additive? tokens

/-- A unary, when `room` further levels may be opened. -/
def unaryFrom : Nat -> Production (Expr R)
  | 0, _ => .error (.tooDeeplyNested nestingLimit)
  | room + 1, tokens =>
      match afterSymbol? '-' tokens with
      | some rest => do
          let (operand, rest) ← unaryFrom room rest
          .ok (negated operand, rest)
      | none =>
          match afterSymbol? '+' tokens with
          | some rest => unaryFrom room rest
          | none => powerFrom stop (expressionFrom room) (unaryFrom room) tokens

end

/-- An expression or an equation. -/
def equationFrom (expression : Production (Expr R)) : Production (Expr R) := fun tokens => do
  let (left, rest) ← expression tokens
  match afterSymbol? '=' rest with
  | none => .ok (left, rest)
  | some rest => do
      let (right, rest) ← expression rest
      match rest with
      | ⟨.symbol '=', position⟩ :: _ => .error (.repeatedEquals position)
      | rest => .ok (.equation left right, rest)

/-- A statement and what is left after it. -/
def statementFrom (expression : Production (Expr R)) : Production (Expr R)
  | ⟨.symbol '@', _⟩ :: rest => do
      let (name, rest) ← nameFrom stop rest
      .ok (.target name, rest)
  | ⟨.name name, _⟩ :: ⟨.declare, _⟩ :: rest => do
      let (value, rest) ← expression rest
      .ok (.declaration name value, rest)
  | tokens => equationFrom expression tokens

/-- The statement that all tokens make up, for a way of reading expressions. -/
def statementBy (expression : Production (Expr R)) (tokens : Tokens) :
    Except Failure (Expr R) := do
  let (expr, rest) ← statementFrom stop expression tokens
  match rest with
  | [] => .ok expr
  | rest => .error (unexpectedAt stop .token rest)

/-- The statement that all tokens make up. -/
def statement (tokens : Tokens) : Except Failure (Expr R) :=
  statementBy stop (expressionFrom stop nestingLimit) tokens

end Productions

variable {R : Type} [Scalar R]

/-- The statement that a source text stands for. -/
def parse (source : String) : Except Failure (Expr R) := do
  let text ← prepare source.toList
  let tokens ← tokenize text
  statement text.length tokens

/-- The expression that a source text stands for. -/
def parseExpression (source : String) : Except Failure (Expr R) := do
  let expr ← parse source
  if expr.isStatement then .error .notAnExpression else .ok expr

end Source
end QuantityCalculus
