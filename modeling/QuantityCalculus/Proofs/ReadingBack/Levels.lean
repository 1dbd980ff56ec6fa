import QuantityCalculus.Proofs.Written.Literal
import QuantityCalculus.Proofs.Written.Recovery
import QuantityCalculus.Proofs.Written.Symbol

namespace QuantityCalculus

open Source

/-!
# Levels of the grammar and writable trees

A written expression stands for a phrase of the grammar, and how tightly its text
holds together decides for which: a sum for an expression, a product for a term, a
power or a literal with a sign for a unary, everything else for a marked primary.
Numbering the phrases turns the rule for parentheses into a comparison.  Each place
demands a level, and an operand below it is put in parentheses.

Derivations count the levels that they open, which is of no interest here, so
`Means` leaves the count open.
-/

section

variable {R : Type} [Scalar R]

/-- How tightly the text of an expression holds together. -/
def Expr.level : Expr R -> Nat
  | .num value => if isNegativeLiteral value then 3 else 4
  | .binary op _ _ => op.strength
  | _ => 4

/-- The least level that an operand has to have beside an operator. -/
def Operator.demand (op : Operator) (left : Bool) : Nat :=
  if op = .power then if left then 4 else 3
  else if left then op.strength else op.strength + 1

theorem Operator.demand_le (op : Operator) (left : Bool) : op.demand left ≤ 4 := by
  cases op <;> cases left <;> decide

/-- Parentheses are needed beside an operator exactly below the demanded level. -/
theorem needsGroupBeside_eq (op : Operator) (left : Bool) (x : Expr R) :
    needsGroupBeside op left x = decide (x.level < op.demand left) := by
  have high : forall op left, decide (4 < Operator.demand op left) = false := by
    intro op left
    exact decide_eq_false (Nat.not_lt_of_le (op.demand_le left))
  cases x with
  | num value =>
      rw [needsGroupBeside, Expr.level]
      cases isNegativeLiteral value
      · exact (high op left).symm
      · cases op <;> cases left <;> rfl
  | binary inner y z => cases inner <;> cases op <;> cases left <;> rfl
  | _ => exact (high op left).symm

/-- Parentheses are needed in front of a mark exactly below the highest level. -/
theorem needsGroupBefore_eq (x : Expr R) : needsGroupBefore x = decide (x.level < 4) := by
  cases x with
  | num value =>
      rw [needsGroupBefore, Expr.level]
      cases isNegativeLiteral value <;> rfl
  | binary inner y z => cases inner <;> rfl
  | _ => rfl

/-- The phrase of a level. -/
def phraseAt (x : Expr R) : Nat -> Phrase R
  | 0 | 1 => .expression x
  | 2 => .term x
  | 3 => .unary x
  | _ => .marked x

/-- The lexemes derive an expression at a level. -/
def Means (lexemes : List Lexeme) (level : Nat) (x : Expr R) : Prop :=
  ∃ room, Derives true room lexemes (phraseAt x level)

variable {lexemes more : List Lexeme} {x y : Expr R} {level : Nat}

/-- Whatever derives a tighter phrase derives a looser one. -/
theorem Means.step (means : Means lexemes (level + 1) x) : Means lexemes level x := by
  rcases means with ⟨room, derivation⟩
  match level with
  | 0 => exact ⟨room, derivation⟩
  | 1 => exact ⟨room + 1, .term derivation⟩
  | 2 => exact ⟨room, .unary derivation⟩
  | 3 => exact ⟨room + 1, .power (.marked derivation)⟩
  | _ + 4 => exact ⟨room, derivation⟩

theorem Means.lower {less : Nat} (means : Means lexemes level x) (bound : less ≤ level) :
    Means lexemes less x := by
  induction bound with
  | refl => exact means
  | step _ inductionHypothesis => exact inductionHypothesis means.step

theorem Means.primary {room : Nat} (derivation : Derives true room lexemes (.primary x)) :
    Means lexemes 4 x :=
  ⟨room, .primary derivation⟩

/-- Two derivations with as many levels as either of them needs. -/
theorem Means.both {other : Nat} (first : Means lexemes level x) (second : Means more other y) :
    ∃ room, Derives true room lexemes (phraseAt x level) ∧
      Derives true room more (phraseAt y other) := by
  rcases first with ⟨room, derivation⟩
  rcases second with ⟨enough, continued⟩
  exact ⟨max room enough, derivation.relax id (Nat.le_max_left _ _),
    continued.relax id (Nat.le_max_right _ _)⟩

/-- Operands of the demanded levels make up a phrase of the level of their operator. -/
theorem Means.binary (op : Operator) (left : Means lexemes (op.demand true) x)
    (right : Means more (op.demand false) y) :
    Means (lexemes ++ .symbol op.sign :: more) op.strength (.binary op x y) := by
  rcases left.both right with ⟨room, first, second⟩
  have deeper := first.relax id (Nat.le_succ room)
  cases op with
  | add => exact ⟨room + 1, .sum deeper rfl second⟩
  | subtract => exact ⟨room + 1, .sum deeper rfl second⟩
  | multiply => exact ⟨room, .product first rfl second⟩
  | divide => exact ⟨room, .product first rfl second⟩
  | modulus => exact ⟨room, .product first rfl second⟩
  | power => exact ⟨room + 1, .power (.raised first second)⟩

/-- A literal, with its sign if it has one, is a unary. -/
theorem LiteralReads.unary {places : Nat} {value : R} (reads : LiteralReads places value)
    (room : Nat) : Derives true (room + 2) (literalLexemes (Number.literalText places value))
      (.unary (.num value)) := by
  cases reads with
  | unsigned spelling written isSpelling same _ =>
      rw [written, literalLexemes_unsigned isSpelling, ← same]
      exact .power (.marked (.primary (.number spelling)))
  | signed spelling written _ same _ =>
      rw [written, ← same]
      exact .minus (.power (.marked (.primary (.number spelling))))

/-- A literal without a sign is a primary. -/
theorem LiteralReads.primary {places : Nat} {value : R} (reads : LiteralReads places value)
    (positive : isNegativeLiteral value = false) (room : Nat) :
    Derives true room (literalLexemes (Number.literalText places value))
      (.primary (.num value)) := by
  cases reads with
  | unsigned spelling written isSpelling same _ =>
      rw [written, literalLexemes_unsigned isSpelling, ← same]
      exact .number spelling
  | signed _ _ _ _ negative =>
      rw [positive] at negative
      cases negative

/-- A literal is derived at its own level. -/
theorem LiteralReads.means {places : Nat} {value : R} (reads : LiteralReads places value) :
    Means (literalLexemes (Number.literalText places value)) (Expr.num value).level
      (.num value) := by
  cases negative : isNegativeLiteral value with
  | false =>
      rw [Expr.level, negative]
      exact Means.primary (reads.primary negative 0)
  | true =>
      rw [Expr.level, negative]
      exact ⟨2, reads.unary 0⟩

/-- The word that a function is written with calls this function. -/
theorem keyword_ofKeyword? (kind : FunctionKind) :
    FunctionKind.ofKeyword? kind.name = some kind := by
  cases kind <;> decide

/-- The written form of a unit mark is a descriptor of it. -/
theorem UnitMark.Symbolic.descriptor {mark : UnitMark} (symbolic : mark.Symbolic) :
    Descriptor (String.ofList mark.label).toList mark := by
  rw [String.toList_ofList]
  cases mark with
  | apply symbol =>
      have whole := Descriptor.apply [] symbol.toList [] rfl symbolic.1 symbolic.2 rfl
      rwa [List.append_nil, String.ofList_toList] at whole
  | cast symbol =>
      have whole := Descriptor.cast [] symbol.toList [] [] rfl symbolic.1 symbolic.2 rfl rfl
      rwa [String.ofList_toList] at whole
  | normalize => exact Descriptor.normalize [] [] rfl rfl

end

/-!
## Writable trees

What can go wrong with a text that is to be read back has little to do with the shape
of the tree.  A statement inside an expression has no text of its own, a literal may
be shown with too few places, a name may be a word of the language, and a unit symbol
may be one that preparation changes.  A tree is writable when nothing of this kind
happens anywhere in it.
-/

/-- A valid name that is no word of the language. -/
def IsFreeName (name : String) : Prop :=
  Text.isName name.toList = true ∧ name ∉ reservedNames

/-- Whatever is no word of the language takes no bracket for an index. -/
theorem not_index_of_free {name : String} (free : name ∉ reservedNames) :
    (name == "root" || name == "mem") = false := by
  rw [Bool.or_eq_false_iff, beq_eq_false_iff_ne, beq_eq_false_iff_ne]
  constructor
  · rintro rfl
    exact free (by decide)
  · rintro rfl
    exact free (by decide)

section

variable {R : Type}

mutual

/-- No statement is part of the tree, preparation leaves all unit symbols alone, no function is
named by a word of the language, and all literals and names are as demanded. -/
def Expr.Writable (literal : R -> Prop) (allowed : String -> Prop) : Expr R -> Prop
  | .num value => literal value
  | .var name => allowed name
  | .mem => True
  | .memAt x | .func _ x | .factorial x | .sqrt x | .abs x | .paren x => x.Writable literal allowed
  | .root x y | .fraction x y | .binary _ x y =>
      x.Writable literal allowed ∧ y.Writable literal allowed
  | .call name arguments =>
      allowed name ∧ name ∉ reservedNames ∧ arguments.Writable literal allowed
  | .marked mark x => mark.Unchanged ∧ x.Writable literal allowed
  | .binding .. | .equation .. | .declaration .. | .target _ => False

/-- The same of the bindings of a call. -/
def Arguments.Writable (literal : R -> Prop) (allowed : String -> Prop) : Arguments R -> Prop
  | .nil => True
  | .cons name value rest =>
      allowed name ∧ value.Writable literal allowed ∧ rest.Writable literal allowed

end

variable {literal other : R -> Prop} {allowed : String -> Prop}

mutual

theorem Expr.Writable.imp (weaker : forall value, literal value -> other value) :
    (x : Expr R) -> x.Writable literal allowed -> x.Writable other allowed
  | .num value, writable => weaker value writable
  | .var _, writable => writable
  | .mem, _ => trivial
  | .memAt x, writable | .func _ x, writable | .factorial x, writable | .sqrt x, writable
  | .abs x, writable | .paren x, writable => Expr.Writable.imp weaker x writable
  | .root x y, writable | .fraction x y, writable | .binary _ x y, writable =>
      ⟨Expr.Writable.imp weaker x writable.1, Expr.Writable.imp weaker y writable.2⟩
  | .call _ arguments, writable =>
      ⟨writable.1, writable.2.1, Arguments.Writable.imp weaker arguments writable.2.2⟩
  | .marked _ x, writable => ⟨writable.1, Expr.Writable.imp weaker x writable.2⟩

theorem Arguments.Writable.imp (weaker : forall value, literal value -> other value) :
    (arguments : Arguments R) -> arguments.Writable literal allowed ->
    arguments.Writable other allowed
  | .nil, _ => trivial
  | .cons _ value rest, writable =>
      ⟨writable.1, Expr.Writable.imp weaker value writable.2.1,
        Arguments.Writable.imp weaker rest writable.2.2⟩

end

end

end QuantityCalculus
