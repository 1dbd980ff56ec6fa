import QuantityCalculus.Expr.Basic
import QuantityCalculus.Number.Shown

namespace QuantityCalculus

/-!
Expressions as text, plain or as markup for typesetting.

Every expression writes its own signs around its children and adds no
parentheses; only parentheses that are part of the tree are written.  The
plain form of a grouped expression can be read back.  Both forms show literals
with a limited number of places.
-/

variable {R : Type} [Scalar R]

/-- The inside of a unit bracket. -/
def UnitMark.label : UnitMark -> List Char
  | .apply symbol => symbol.toList
  | .cast symbol => symbol.toList ++ ['?']
  | .normalize => ['?']

/-- A root whose index is left out or is the number two is written as a square root. -/
def isSquareIndex : Expr R -> Bool
  | .num value => Scalar.eq value (Scalar.ofInt 2)
  | _ => false

/-- A text between two others. -/
def enclosed (left : String) (text : List Char) (right : String) : List Char :=
  left.toList ++ text ++ right.toList

/-- Texts with a separator between each two of them. -/
def joined (separator : String) : List (List Char) -> List Char
  | [] => []
  | [text] => text
  | text :: rest => text ++ separator.toList ++ joined separator rest

mutual

/-- The plain form of an expression. -/
def Expr.plain (places : Nat) : Expr R -> List Char
  | .num value => Number.literalText places value
  | .var name => name.toList
  | .mem => "mem".toList
  | .memAt i => enclosed "mem[" (i.plain places) "]"
  | .func kind x => kind.name.toList ++ enclosed "(" (x.plain places) ")"
  | .factorial x => x.plain places ++ ['!']
  | .sqrt x => enclosed "sqrt(" (x.plain places) ")"
  | .root x i =>
      if isSquareIndex i then enclosed "sqrt(" (x.plain places) ")"
      else enclosed "root[" (i.plain places) "]" ++ enclosed "(" (x.plain places) ")"
  | .abs x => enclosed "|" (x.plain places) "|"
  | .fraction x y =>
      enclosed "frac(" (x.plain places) ")" ++ enclosed "(" (y.plain places) ")"
  | .binary op x y => x.plain places ++ op.symbol.toList ++ y.plain places
  | .call name .nil => '$' :: name.toList
  | .call name arguments =>
      '$' :: name.toList ++ enclosed "\x7b" (joined "; " (arguments.plain places)) "\x7d"
  | .binding name x => name.toList ++ '=' :: x.plain places
  | .paren x => enclosed "(" (x.plain places) ")"
  | .marked mark x => x.plain places ++ '[' :: mark.label ++ [']']
  | .equation l r => l.plain places ++ " = ".toList ++ r.plain places
  | .declaration name x => name.toList ++ " := ".toList ++ x.plain places
  | .target name => '@' :: name.toList

/-- The plain forms of the bindings of a call. -/
def Arguments.plain (places : Nat) : Arguments R -> List (List Char)
  | .nil => []
  | .cons name value rest => (name.toList ++ '=' :: value.plain places) :: rest.plain places

end

/-- A word set upright in markup. -/
def uprightMarkup (word : List Char) : List Char :=
  enclosed "\\text\x7b" word "\x7d"

/-- A text in the braces of markup. -/
def braced (text : List Char) : List Char :=
  enclosed "\x7b" text "\x7d"

/-- The markup of an operator, when it is written between its operands. -/
def Operator.markup : Operator -> String
  | .multiply => "\\cdot "
  | .modulus => "\\bmod "
  | op => op.symbol

mutual

/-- The markup of an expression. -/
def Expr.markup (places : Nat) : Expr R -> List Char
  | .num value => Number.literalText places value
  | .var name => uprightMarkup name.toList
  | .mem => uprightMarkup "mem".toList
  | .memAt i => uprightMarkup "mem".toList ++ '_' :: braced (i.markup places)
  | .func kind x => '\\' :: kind.name.toList ++ enclosed "(" (x.markup places) ")"
  | .factorial x => x.markup places ++ ['!']
  | .sqrt x => "\\sqrt".toList ++ braced (x.markup places)
  | .root x i =>
      if isSquareIndex i then "\\sqrt".toList ++ braced (x.markup places)
      else enclosed "\\sqrt[" (i.markup places) "]" ++ braced (x.markup places)
  | .abs x => enclosed "\\left|" (x.markup places) "\\right|"
  | .fraction x y => "\\frac".toList ++ braced (x.markup places) ++ braced (y.markup places)
  | .binary .divide x y =>
      "\\frac".toList ++ braced (x.markup places) ++ braced (y.markup places)
  | .binary .power x y => x.markup places ++ '^' :: braced (y.markup places)
  | .binary op x y => x.markup places ++ op.markup.toList ++ y.markup places
  | .call name arguments =>
      uprightMarkup name.toList ++ enclosed "(" (joined "; " (arguments.markup places)) ")"
  | .binding name x => uprightMarkup name.toList ++ '=' :: x.markup places
  | .paren x => enclosed "\\left(" (x.markup places) "\\right)"
  | .marked mark x =>
      x.markup places ++ enclosed "\\,[" (uprightMarkup mark.label) "]"
  | .equation l r => l.markup places ++ " &= ".toList ++ r.markup places
  | .declaration name x => uprightMarkup name.toList ++ " := ".toList ++ x.markup places
  | .target name => '@' :: uprightMarkup name.toList

/-- The markup of the bindings of a call. -/
def Arguments.markup (places : Nat) : Arguments R -> List (List Char)
  | .nil => []
  | .cons name value rest =>
      (uprightMarkup name.toList ++ '=' :: value.markup places) :: rest.markup places

end

/-- The two forms that an expression is written in. -/
inductive WrittenForm where
  | plain | markup
deriving DecidableEq, Repr

/-- An expression in one of the two forms. -/
def Expr.write (form : WrittenForm) (places : Nat) (expr : Expr R) : String :=
  match form with
  | .plain => String.ofList (expr.plain places)
  | .markup => String.ofList (expr.markup places)

/-- The plain form as a string. -/
def Expr.text (places : Nat) (expr : Expr R) : String :=
  expr.write .plain places

end QuantityCalculus
