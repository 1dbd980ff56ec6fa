import QuantityCalculus.Function.Written
import QuantityCalculus.Proofs.ReadingBack.Grouped
import QuantityCalculus.Proofs.Storage.Places
import QuantityCalculus.Proofs.Storage.UnitFiles

namespace QuantityCalculus

open Source

/-!
# Functions written and read back

The text of a function has its body on one line and each default on a line of its own.  Such
a line is found again as it was written: it has no line breaks inside and no blanks around it,
starts no comment, and ends with no semicolon, which would be taken for the end of its
statement.  What stands on it reads back for the same reasons as any other text of a grouped
tree, so a function is read back whose expressions are.

Saving asks for none of this.  A name that came from elsewhere than a text may not be one, and
a text may have grown too long or too deep.
-/

variable {R : Type} [Scalar R]

/-! ## Signs on a line -/

/-- Texts of which the text of an expression is put together. -/
structure IsLinePiece (text : List Char) : Prop where
  spaces : forall c, c ∈ text -> c = ' ' ∨ Text.isBlank c = false
  noComment : text.head? ≠ some '#'
  complete : text.getLast? ≠ some ';'

namespace IsLinePiece

variable {text more : List Char}

instance (text : List Char) : Decidable (IsLinePiece text) :=
  decidable_of_iff ((text.all fun c => c == ' ' || !Text.isBlank c) = true ∧
      text.head? ≠ some '#' ∧ text.getLast? ≠ some ';')
    ⟨fun ⟨spaces, noComment, complete⟩ =>
        ⟨fun c member => by simpa using List.all_eq_true.mp spaces c member, noComment, complete⟩,
      fun piece => ⟨List.all_eq_true.mpr fun c member => by simpa using piece.spaces c member,
        piece.noComment, piece.complete⟩⟩

theorem append (first : IsLinePiece text) (second : IsLinePiece more) :
    IsLinePiece (text ++ more) where
  spaces := fun c member => (List.mem_append.mp member).elim (first.spaces c) (second.spaces c)
  noComment := by
    rw [List.head?_append]
    cases start : text.head? with
    | none => exact second.noComment
    | some c =>
        rw [Option.some_or, ← start]
        exact first.noComment
  complete := by
    rw [List.getLast?_append]
    cases last : more.getLast? with
    | none => exact first.complete
    | some c =>
        rw [Option.some_or, ← last]
        exact second.complete

/-- Brackets around a piece are put in front of it and behind it. -/
theorem enclosed {left right : String} (inside : IsLinePiece text)
    (around : IsLinePiece left.toList ∧ IsLinePiece right.toList) :
    IsLinePiece (QuantityCalculus.enclosed left text right) :=
  (around.1.append inside).append around.2

/-- Signs that are neither blank nor one of two make up a piece. -/
theorem of_all {p : Char -> Bool} (all : text.all p = true)
    (visible : forall c, p c = true -> Text.isBlank c = false ∧ c ≠ '#' ∧ c ≠ ';') :
    IsLinePiece text where
  spaces := fun c member => Or.inr (visible c (List.all_eq_true.mp all c member)).1
  noComment := fun first =>
    (visible _ (List.all_eq_true.mp all _ (List.mem_of_head? first))).2.1 rfl
  complete := fun last =>
    (visible _ (List.all_eq_true.mp all _ (List.mem_of_getLast? last))).2.2 rfl

end IsLinePiece

theorem visible_of_isNumeral (c : Char) (numeral : isNumeral c = true) :
    Text.isBlank c = false ∧ c ≠ '#' ∧ c ≠ ';' := by
  have each : numeralSigns.all (fun c => decide (Text.isBlank c = false ∧ c ≠ '#' ∧ c ≠ ';')) =
      true := by
    decide
  exact of_decide_eq_true (List.all_eq_true.mp each c (List.contains_iff_mem.mp numeral))

theorem visible_of_isNameCharacter (c : Char) (character : Text.isNameCharacter c = true) :
    Text.isBlank c = false ∧ c ≠ '#' ∧ c ≠ ';' := by
  rcases Text.exists_ascii (Text.ascii_of_isNameCharacter character) with ⟨code, rfl⟩
  revert code
  decide +kernel

theorem isLinePiece_name {name : String} (named : Text.isName name.toList = true) :
    IsLinePiece name.toList :=
  .of_all (List.all_eq_true.mpr fun _ => Text.isNameCharacter_of_isName named)
    visible_of_isNameCharacter

section

variable {places : Nat}

theorem LiteralReads.isLinePiece {value : R} (reads : LiteralReads places value) :
    IsLinePiece (Number.literalText places value) := by
  cases reads with
  | unsigned spelling written isSpelling _ _ =>
      rw [written]
      exact .of_all isSpelling.numerals visible_of_isNumeral
  | signed spelling written isSpelling _ _ =>
      rw [written]
      exact (by decide : IsLinePiece ['-']).append
        (.of_all isSpelling.numerals visible_of_isNumeral)

omit [Scalar R] in
/-- The inside of a unit bracket may start and end with anything, but the brackets do not. -/
theorem UnitMark.Reads.isLinePiece {mark : UnitMark} (reads : mark.Reads) :
    IsLinePiece ('[' :: mark.label ++ [']']) where
  spaces := by
    have inside : forall c, c ∈ mark.label -> Text.isBlank c = false := by
      have symbol : forall {symbol : List Char}, SymbolReads symbol -> forall c, c ∈ symbol ->
          Text.isBlank c = false := fun reads c member =>
        not_isBlank_of_isUnitCharacter (List.all_eq_true.mp reads.symbolic c member)
      intro c member
      cases mark with
      | apply name => exact symbol reads c member
      | cast name =>
          rcases List.mem_append.mp member with here | last
          · exact symbol reads c here
          · rw [List.mem_singleton.mp last]
            decide
      | normalize =>
          rw [List.mem_singleton.mp member]
          decide
    intro c member
    rcases List.mem_append.mp member with before | last
    · rcases List.mem_cons.mp before with rfl | within
      · decide
      · exact Or.inr (inside c within)
    · rw [List.mem_singleton.mp last]
      decide
  noComment := by
    rw [List.cons_append, List.head?_cons]
    exact fun same => absurd (Option.some.inj same) (by decide)
  complete := by
    rw [List.getLast?_concat]
    decide

mutual

/-- The text of a legible expression is such a piece. -/
theorem Expr.Legible.isLinePiece : (x : Expr R) -> x.Legible places ->
    IsLinePiece (x.plain places)
  | .num _, legible => LiteralReads.isLinePiece legible
  | .var _, legible => isLinePiece_name legible
  | .mem, _ => (by decide : IsLinePiece "mem".toList)
  | .memAt i, legible => (Expr.Legible.isLinePiece i legible).enclosed (by decide)
  | .func kind x, legible =>
      (isLinePiece_name (keyword_isName kind)).append
        ((Expr.Legible.isLinePiece x legible).enclosed (by decide))
  | .factorial x, legible => (Expr.Legible.isLinePiece x legible).append (by decide)
  | .sqrt x, legible => (Expr.Legible.isLinePiece x legible).enclosed (by decide)
  | .root x i, legible => by
      rw [Expr.plain]
      split
      · exact (Expr.Legible.isLinePiece x legible.1).enclosed (by decide)
      · exact ((Expr.Legible.isLinePiece i legible.2).enclosed (by decide)).append
          ((Expr.Legible.isLinePiece x legible.1).enclosed (by decide))
  | .abs x, legible => (Expr.Legible.isLinePiece x legible).enclosed (by decide)
  | .fraction x y, legible =>
      ((Expr.Legible.isLinePiece x legible.1).enclosed (by decide)).append
        ((Expr.Legible.isLinePiece y legible.2).enclosed (by decide))
  | .binary op x y, legible =>
      ((Expr.Legible.isLinePiece x legible.1).append (by cases op <;> decide)).append
        (Expr.Legible.isLinePiece y legible.2)
  | .call name .nil, legible =>
      (by decide : IsLinePiece ['$']).append (isLinePiece_name legible.1)
  | .call name (.cons key value rest), legible =>
      ((by decide : IsLinePiece ['$']).append (isLinePiece_name legible.1)).append
        ((Arguments.Legible.isLinePiece (.cons key value rest) legible.2).enclosed (by decide))
  | .paren x, legible => (Expr.Legible.isLinePiece x legible).enclosed (by decide)
  | .marked mark x, legible => by
      rw [Expr.plain, List.append_assoc]
      exact (Expr.Legible.isLinePiece x legible.2.2).append (UnitMark.Reads.isLinePiece legible.1)

theorem Arguments.Legible.isLinePiece : (arguments : Arguments R) -> arguments.Legible places ->
    IsLinePiece (joined "; " (arguments.plain places))
  | .nil, _ => (by decide : IsLinePiece [])
  | .cons name value .nil, legible =>
      (isLinePiece_name legible.1).append ((by decide : IsLinePiece ['=']).append
        (Expr.Legible.isLinePiece value legible.2.1))
  | .cons name value (.cons key next rest), legible => by
      have first := (isLinePiece_name legible.1).append ((by decide : IsLinePiece ['=']).append
        (Expr.Legible.isLinePiece value legible.2.1))
      have later := Arguments.Legible.isLinePiece (.cons key next rest) legible.2.2
      exact (first.append (by decide : IsLinePiece "; ".toList)).append later

end

/-! ## Expressions on a line -/

/-- An expression whose text is read back: no name, literal, unit or statement in it stands in
the way, and the text is neither too long nor too deeply nested. -/
structure Expr.Keepable (places : Nat) (expr : Expr R) : Prop where
  wellMarked : expr.WellMarked
  writable : expr.Writable (LiteralReads places) IsFreeName
  short : (expr.grouped.plain places).length <= lengthLimit
  shallow : parse (R := R) (expr.grouped.text places) ≠ .error (.tooDeeplyNested nestingLimit)

/-- A text that is accepted is not too deeply nested. -/
theorem shallow_of_accepted {expr : Expr R}
    (accepted : (parse (R := R) (expr.grouped.text places)).toOption.isSome = true) :
    parse (R := R) (expr.grouped.text places) ≠ .error (.tooDeeplyNested nestingLimit) := by
  intro refused
  rw [refused] at accepted
  cases accepted

namespace Expr.Keepable

variable {expr : Expr R}

theorem legible (keepable : expr.Keepable places) : expr.grouped.Legible places :=
  Expr.grouped_legible expr keepable.writable keepable.wellMarked

theorem spells (keepable : expr.Keepable places) :
    Spells (expr.grouped.plain places) (expr.grouped.lexemes places) :=
  Expr.Legible.spells _ keepable.legible

theorem isLinePiece (keepable : expr.Keepable places) : IsLinePiece (expr.grouped.plain places) :=
  Expr.Legible.isLinePiece _ keepable.legible

theorem starts (keepable : expr.Keepable places) (c : Char)
    (first : c ∈ (expr.grouped.plain places).head?) : Text.isBlank c = false := by
  rcases keepable.spells.starts with ⟨d, rest, same, visible, _⟩
  rw [same] at first
  cases first
  exact visible

theorem written (keepable : expr.Keepable places) : expr.grouped.plain places ≠ [] := by
  rcases keepable.spells.starts with ⟨c, rest, same, _⟩
  rw [same]
  exact List.cons_ne_nil c rest

/-- The text is read back as an expression. -/
theorem parse (keepable : expr.Keepable places) :
    parseExpression (expr.grouped.text places) = .ok expr.grouped.plainRoots := by
  rcases (Expr.grouped_means expr keepable.writable keepable.wellMarked).lower (Nat.zero_le _) with
    ⟨room, derivation⟩
  rcases keepable.legible.parse keepable.short with ⟨tokens, same, parses⟩
  have shallow := keepable.shallow
  rw [← same] at derivation
  rw [parses] at shallow
  have noStatement : expr.grouped.plainRoots.isStatement = false := by
    have writable := keepable.writable
    cases expr with
    | root x i =>
        rw [Expr.grouped, Expr.plainRoots]
        split <;> rfl
    | binding | equation | declaration | target => exact writable.elim
    | _ => rfl
  rw [parseExpression, parses, statement_of_derives (.expression derivation) shallow]
  exact if_neg (Bool.eq_false_iff.mp noStatement)

end Expr.Keepable

/-! ## Lines -/

/-- A text that stands on a line as it is written. -/
theorem isContentLine_of_isLinePiece {line : String} (piece : IsLinePiece line.toList)
    (written : line.toList ≠ [])
    (starts : forall c, c ∈ line.toList.head? -> Text.isBlank c = false)
    (ends : forall c, c ∈ line.toList.getLast? -> Text.isBlank c = false) : IsContentLine line :=
  isContentLine_of_isPhrase ⟨written, starts, ends, piece.spaces⟩ piece.noComment

/-- A name starts with a sign of a name. -/
theorem head_of_isName {name : String} (named : Text.isName name.toList = true) (rest : List Char)
    (c : Char) (first : c ∈ (name.toList ++ rest).head?) : Text.isNameCharacter c = true := by
  cases letters : name.toList with
  | nil =>
      rw [letters] at named
      cases named
  | cons start others =>
      rw [letters] at first
      cases first
      refine Text.isNameCharacter_of_isName named ?_
      rw [letters]
      exact List.mem_cons_self

/-- A text that an assignment can give to a name, as it is read as it is written. -/
structure IsAssignable (value : List Char) : Prop where
  piece : IsLinePiece value
  written : value ≠ []
  starts : forall c, c ∈ value.head? -> Text.isBlank c = false
  ends : forall c, c ∈ value.getLast? -> Text.isBlank c = false

namespace IsAssignable

variable {name line : String} {value : List Char}

/-- The line of an assignment is read as it is written. -/
theorem isContentLine (assignable : IsAssignable value) (named : Text.isName name.toList = true)
    (text : line.toList = name.toList ++ ([' ', '=', ' '] ++ value)) : IsContentLine line := by
  refine isContentLine_of_isLinePiece ?_ ?_ (fun c first => ?_) fun c last => ?_
  · rw [text]
    exact (isLinePiece_name named).append
      ((by decide : IsLinePiece [' ', '=', ' ']).append assignable.piece)
  · rw [text]
    exact List.append_ne_nil_of_right_ne_nil _ (List.cons_ne_nil _ _)
  · rw [text] at first
    exact (visible_of_isNameCharacter c (head_of_isName named _ c first)).1
  · rw [text, ← List.append_assoc, List.getLast?_append_of_ne_nil _ assignable.written] at last
    exact assignable.ends c last

/-- The text is its own value in an assignment, as it ends with no semicolon. -/
theorem assignedValue (assignable : IsAssignable value) :
    assignedValue value = value := by
  have ended : Text.trimEnd value = value := by
    have trimmed := trim_eq_self assignable.starts assignable.ends
    rwa [Text.trim, Source.trimStart_of_head assignable.starts] at trimmed
  simp only [QuantityCalculus.assignedValue, ended, if_neg assignable.piece.complete,
    List.isEmpty_eq_false_iff.mpr assignable.written, Bool.false_eq_true, if_false]

/-- An assignment is found on its line. -/
theorem assignment? (assignable : IsAssignable value) (named : Text.isName name.toList = true) :
    assignment? (name.toList ++ ([' ', '=', ' '] ++ value)) = some (name, value) := by
  have characters : name.toList.all Text.isNameCharacter = true :=
    List.all_eq_true.mpr fun _ => Text.isNameCharacter_of_isName named
  have start : Text.trimStart (name.toList ++ ([' ', '=', ' '] ++ value)) =
      name.toList ++ ([' ', '=', ' '] ++ value) :=
    Source.trimStart_of_head fun c first =>
      (visible_of_isNameCharacter c (head_of_isName named _ c first)).1
  have cut : (name.toList ++ ([' ', '=', ' '] ++ value)).takeWhile Text.isNameCharacter =
      name.toList :=
    takeWhile_append_of_all characters fun c first => by
      cases first
      decide
  have sign : Text.trimStart ([' ', '=', ' '] ++ value) = '=' :: ' ' :: value :=
    rfl
  have given : Text.trimStart (' ' :: value) = value :=
    Source.trimStart_of_head assignable.starts
  simp only [QuantityCalculus.assignment?, start, cut, named, List.drop_left, sign, given,
    List.isEmpty_eq_false_iff.mpr assignable.written, assignable.assignedValue,
    String.ofList_toList, Bool.not_true, Bool.false_eq_true, if_false]

end IsAssignable

section

variable {expr : Expr R} {name : String}

theorem Expr.Keepable.isAssignable (keepable : expr.Keepable places) :
    IsAssignable (expr.grouped.plain places) :=
  ⟨keepable.isLinePiece, keepable.written, keepable.starts, keepable.spells.ends⟩

theorem Expr.Keepable.isContentLine (keepable : expr.Keepable places) :
    IsContentLine (expr.grouped.text places) := by
  have text : (expr.grouped.text places).toList = expr.grouped.plain places :=
    String.toList_ofList
  refine isContentLine_of_isLinePiece ?_ ?_ ?_ ?_ <;> rw [text]
  · exact keepable.isLinePiece
  · exact keepable.written
  · exact keepable.starts
  · exact keepable.spells.ends

/-- The line of a default. -/
def defaultLine (places : Nat) (entry : String × Expr R) : String :=
  entry.1 ++ " = " ++ entry.2.grouped.text places

theorem toList_defaultLine (places : Nat) (name : String) (expr : Expr R) :
    (defaultLine places (name, expr)).toList =
      name.toList ++ ([' ', '=', ' '] ++ expr.grouped.plain places) := by
  simp [defaultLine, Expr.text, Expr.write]

theorem isContentLine_default (keepable : expr.Keepable places)
    (named : Text.isName name.toList = true) : IsContentLine (defaultLine places (name, expr)) :=
  keepable.isAssignable.isContentLine named (toList_defaultLine places name expr)

/-- A default is found on its line. -/
theorem assignment?_default (keepable : expr.Keepable places)
    (named : Text.isName name.toList = true) :
    assignment? (defaultLine places (name, expr)).toList =
      some (name, expr.grouped.plain places) := by
  rw [toList_defaultLine]
  exact keepable.isAssignable.assignment? named

end

end

/-! ## Functions -/

/-- A function whose text is read back. -/
structure FunctionDefinition.Keepable (places : Nat) (definition : FunctionDefinition R) :
    Prop where
  body : definition.body.Keepable places
  names : forall entry, entry ∈ definition.defaults -> Text.isName entry.1.toList = true
  defaults : forall entry, entry ∈ definition.defaults -> entry.2.Keepable places

/-- The function that is read back. -/
def FunctionDefinition.reread (definition : FunctionDefinition R) : FunctionDefinition R :=
  ⟨definition.body.grouped.plainRoots,
    Table.update [] (definition.defaults.map fun entry => (entry.1, entry.2.grouped.plainRoots))⟩

variable {places : Nat}

theorem readDefaults_lines {function : String} {entries : Table (Expr R)}
    (names : forall entry, entry ∈ entries -> Text.isName entry.1.toList = true)
    (keepable : forall entry, entry ∈ entries -> entry.2.Keepable places)
    (defaults : Table (Expr R)) :
    readDefaults function (entries.map (defaultLine places)) defaults =
      .ok (defaults.update (entries.map fun entry => (entry.1, entry.2.grouped.plainRoots))) := by
  induction entries generalizing defaults with
  | nil => rfl
  | cons entry rest inductionHypothesis =>
      have first := keepable entry List.mem_cons_self
      have found := assignment?_default first (names entry List.mem_cons_self)
      have further := inductionHypothesis
        (fun other member => names other (List.mem_cons_of_mem _ member))
        (fun other member => keepable other (List.mem_cons_of_mem _ member))
      rw [List.map_cons, readDefaults, found]
      exact (bind_eq_of_ok first.parse).trans (further _)

/-- A text of lines is these lines, each of them ended. -/
theorem intercalate_ended (first : String) (rest : List String) :
    String.intercalate "\n" (first :: rest) ++ "\n" =
      String.join ((first :: rest).map (· ++ "\n")) := by
  induction rest generalizing first with
  | nil => simp [String.join]
  | cons second rest inductionHypothesis =>
      rw [String.intercalate_cons_cons, String.append_assoc, inductionHypothesis]
      simp

/-- A keepable function is read back from its text. -/
theorem FunctionDefinition.Keepable.parse {definition : FunctionDefinition R}
    (keepable : definition.Keepable places) (name : String) :
    FunctionDefinition.parse name (definition.text places) = .ok definition.reread := by
  have lines : contentLines (definition.text places) =
      definition.body.grouped.text places :: definition.defaults.map (defaultLine places) := by
    have text : definition.text places = String.join ((definition.body.grouped.text places ::
        definition.defaults.map (defaultLine places)).map (· ++ "\n")) :=
      intercalate_ended _ _
    rw [text]
    refine contentLines_join fun line member => ?_
    rcases List.mem_cons.mp member with rfl | later
    · exact keepable.body.isContentLine
    · rcases List.mem_map.mp later with ⟨entry, listed, rfl⟩
      exact isContentLine_default (keepable.defaults entry listed) (keepable.names entry listed)
  rw [FunctionDefinition.parse, lines]
  exact (bind_eq_of_ok keepable.body.parse).trans
    ((bind_eq_of_ok (readDefaults_lines keepable.names keepable.defaults [])).trans rfl)

end QuantityCalculus
