import QuantityCalculus.Expr.Written
import QuantityCalculus.Failure
import QuantityCalculus.Number.Reading
import QuantityCalculus.Text.Blank
import QuantityCalculus.Text.WordCharacter
import QuantityCalculus.Units.Basic

namespace QuantityCalculus

/-!
Declarations of relations between units.

A declaration such as `V*A=W` says which unit a product or quotient of units
has, and `h*3600=s` says how many of one unit make another.  It names units by
their symbols only; a registry decides later which units these are.  A unit
file holds the display name of a unit and the declarations that start with it.
-/

/-- The second operand of a declaration: a unit, or a number. -/
inductive RelationOperand (R : Type) where
  | unit (symbol : String)
  | factor (value : R)
deriving DecidableEq, Repr

/-- A declared relation: `subject op operand = result`. -/
structure RelationDeclaration (R : Type) where
  subject : String
  op : UnitOperator
  operand : RelationOperand R
  result : String
deriving DecidableEq, Repr

variable {R : Type} [Scalar R]

/-- A factor as it is written in a declaration: whole numbers without a fraction part. -/
def factorText (factor : R) : List Char :=
  match Scalar.toInt? factor with
  | some whole => Number.integerText whole
  | none => Scalar.shortest factor

/-- The text of the second operand. -/
def RelationOperand.text : RelationOperand R -> String
  | .unit symbol => symbol
  | .factor value => String.ofList (factorText value)

/-- The text of a declaration. -/
def RelationDeclaration.text (declaration : RelationDeclaration R) : String :=
  declaration.subject ++ declaration.op.symbol ++ declaration.operand.text ++ "="
    ++ declaration.result

/-- Characters of a unit symbol in a declaration. -/
def isSymbolCharacter (c : Char) : Bool :=
  Text.isWordCharacter c || c == '.' || c == 'µ' || c == 'μ'

/-- A symbol at the start of a text, with blanks around it skipped. -/
def symbolAt? (text : List Char) : Option (List Char × List Char) :=
  let text := Text.trimStart text
  let symbol := text.takeWhile isSymbolCharacter
  if symbol.isEmpty then none else some (symbol, Text.trimStart (text.drop symbol.length))

/-- The four parts of a declaration, if a line has its shape. -/
def relationParts? (line : List Char) :
    Option (List Char × UnitOperator × List Char × List Char) := do
  let (left, rest) ← symbolAt? line
  let (op, rest) ←
    match rest with
    | '*' :: rest => some (UnitOperator.times, rest)
    | '/' :: rest => some (UnitOperator.per, rest)
    | _ => none
  let (right, rest) ← symbolAt? rest
  let rest ←
    match rest with
    | '=' :: rest => some rest
    | _ => none
  let (result, rest) ← symbolAt? rest
  match rest with
  | [] => some (left, op, right, result)
  | ';' :: rest => if (Text.trimStart rest).isEmpty then some (left, op, right, result) else none
  | _ => none

/-- An operand of a declaration: a number if it reads as one, a name otherwise. -/
def relationOperand (text : List Char) : Expr R :=
  match Number.read? text with
  | some value => .num value
  | none => .var (String.ofList text)

/-- The text is read as a number. -/
def isNumberText (R : Type) [Scalar R] (text : List Char) : Bool :=
  (Number.read? text : Option R).isSome

/-- The two sides of the equation that a line declares. -/
def relationSides (line : String) : Except Failure (Expr R × Expr R) :=
  match relationParts? line.toList with
  | none => .error (.invalidDescriptor (Text.trimmed line))
  | some (left, op, right, result) =>
      if isNumberText R left || isNumberText R result then
        .error (.numericOperand (Text.trimmed line))
      else
        .ok (.binary op.operator (.var (String.ofList left)) (relationOperand right),
          .var (String.ofList result))

/-- The declaration that an equation between two sides makes. -/
def RelationDeclaration.ofSides (places : Nat) (lhs rhs : Expr R) :
    Except Failure (RelationDeclaration R) :=
  match lhs, rhs with
  | .binary .multiply (.var subject) (.var other), .var result =>
      .ok ⟨subject, .times, .unit other, result⟩
  | .binary .multiply (.var subject) (.num factor), .var result =>
      .ok ⟨subject, .times, .factor factor, result⟩
  | .binary .divide (.var subject) (.var other), .var result =>
      .ok ⟨subject, .per, .unit other, result⟩
  | .binary .divide (.var subject) (.num factor), .var result =>
      .ok ⟨subject, .per, .factor factor, result⟩
  | lhs, rhs => .error (.relationForm ((Expr.equation lhs rhs).text places))

/-- The declaration that a line makes. -/
def RelationDeclaration.parse (places : Nat) (line : String) :
    Except Failure (RelationDeclaration R) := do
  let (lhs, rhs) ← relationSides line
  ofSides places lhs rhs

/-- A unit file: the display name of a unit, and its declarations. -/
structure UnitFile (R : Type) where
  name : String
  declarations : List (RelationDeclaration R)

/-- The lines of a text that carry something: trimmed, not empty, and no comment. -/
def contentLines (text : String) : List String :=
  ((Text.linesOf text).map Text.trimmed).filter fun line =>
    line != "" && line.toList.head? != some '#'

/-- The unit file in a text; one malformed line spoils the whole file. -/
def UnitFile.parse (places : Nat) (text : String) : Except Failure (UnitFile R) :=
  match contentLines text with
  | [] => .error .emptyUnitFile
  | name :: lines => do
      let sides ← lines.mapM relationSides
      let declarations ← sides.mapM fun (lhs, rhs) => RelationDeclaration.ofSides places lhs rhs
      .ok ⟨name, declarations⟩

end QuantityCalculus
