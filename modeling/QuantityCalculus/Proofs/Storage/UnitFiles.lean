import Mathlib.Data.List.Basic
import Mathlib.Tactic.MkIffOfInductiveProp
import QuantityCalculus.Proofs.Written.Settling
import QuantityCalculus.Session.Line
import QuantityCalculus.Units.Declaration

namespace QuantityCalculus

/-!
# Unit files read back

A unit file has the display name of its unit on the first line and a declaration on each
further line.  A name is read back when it is a line that carries something, and a
declaration when it is one that was read from a line in the first place and its factor,
if it has one, is written as a number that the reader of declarations takes.

The last condition is not idle: a factor is written with all its digits, and a factor
that is written with the sign of an exponent is no symbol for the reader.
-/

variable {R : Type} [Scalar R]

/-! ## Characters of symbols -/

namespace Text

/-- Sets whose ranges lie apart have no character in common. -/
theorem CharacterSet.covers_apart {first second : CharacterSet} {c : Char}
    (apart : forall one, one ∈ first -> forall other, other ∈ second ->
      one.2 < other.1 ∨ other.2 < one.1)
    (covered : first.covers c = true) : second.covers c = false := by
  rcases (covers_iff first c).mp covered with ⟨one, member, low, high⟩
  refine Bool.eq_false_iff.mpr fun there => ?_
  rcases (covers_iff second c).mp there with ⟨other, inside, low', high'⟩
  rcases apart one member other inside with before | after <;> omega

theorem isBlank_of_isWordCharacter {c : Char} (word : isWordCharacter c = true) :
    isBlank c = false :=
  CharacterSet.covers_apart (by decide +kernel) word

end Text

theorem isBlank_of_isSymbolCharacter {c : Char} (symbol : isSymbolCharacter c = true) :
    Text.isBlank c = false := by
  simp only [isSymbolCharacter, Bool.or_eq_true, beq_iff_eq] at symbol
  rcases symbol with ((word | rfl) | rfl) | rfl
  · exact Text.isBlank_of_isWordCharacter word
  all_goals decide

/-- A text that a declaration can have in the place of a symbol. -/
structure IsSymbol (text : List Char) : Prop where
  written : text ≠ []
  characters : text.all isSymbolCharacter = true

/-! ## Lines -/

/-- A line that carries something and is read as it is written. -/
structure IsContentLine (line : String) : Prop where
  trimmed : Text.trimmed line = line
  written : line ≠ ""
  noComment : line.toList.head? ≠ some '#'
  unbroken : forall c, c ∈ line.toList -> Text.isLineBreak c = false

instance (line : String) : Decidable (IsContentLine line) :=
  decidable_of_iff (Text.trimmed line = line ∧ line ≠ "" ∧ line.toList.head? ≠ some '#' ∧
      (line.toList.all fun c => !Text.isLineBreak c) = true)
    ⟨fun ⟨trimmed, written, noComment, unbroken⟩ => ⟨trimmed, written, noComment,
        fun c inside => by simpa using List.all_eq_true.mp unbroken c inside⟩,
      fun content => ⟨content.trimmed, content.written, content.noComment,
        List.all_eq_true.mpr fun c inside => by rw [content.unbroken c inside]; rfl⟩⟩

namespace Text

theorem linesAfter_append (unfinished : List Char) {line : List Char} (rest : List Char)
    (unbroken : forall c, c ∈ line -> isLineBreak c = false) :
    linesAfter unfinished (line ++ '\n' :: rest) =
      (unfinished.reverse ++ line) :: lines rest := by
  induction line generalizing unfinished with
  | nil =>
      rw [List.nil_append, linesAfter, if_pos (by decide), List.append_nil]
      · rfl
      · exact nofun
  | cons c line inductionHypothesis =>
      have plain := unbroken c List.mem_cons_self
      rw [List.cons_append, linesAfter, if_neg (by rw [plain]; exact Bool.false_ne_true),
        inductionHypothesis _ fun other member => unbroken other (List.mem_cons_of_mem _ member),
        List.reverse_cons, List.append_assoc, List.singleton_append]
      rintro others rfl
      exact absurd plain (by decide)

/-- Lines that were each ended are the lines of the whole. -/
theorem linesOf_join {lines : List String}
    (unbroken : forall line, line ∈ lines -> forall c, c ∈ line.toList -> isLineBreak c = false) :
    linesOf (String.join (lines.map (· ++ "\n"))) = lines := by
  induction lines with
  | nil => rfl
  | cons line rest inductionHypothesis =>
      have text : (String.join ((line :: rest).map (· ++ "\n"))).toList =
          line.toList ++ '\n' :: (String.join (rest.map (· ++ "\n"))).toList := by
        simp
      have further := inductionHypothesis fun other member =>
        unbroken other (List.mem_cons_of_mem _ member)
      rw [linesOf, text, Text.lines, linesAfter_append [] _ (unbroken line List.mem_cons_self)]
      rw [linesOf] at further
      rw [List.map_cons, further]
      simp

end Text

/-- Lines that carry something are all found again. -/
theorem contentLines_join {lines : List String}
    (content : forall line, line ∈ lines -> IsContentLine line) :
    contentLines (String.join (lines.map (· ++ "\n"))) = lines := by
  have trims : lines.map Text.trimmed = lines := by
    refine (List.map_congr_left fun line member => ?_).trans (List.map_id lines)
    exact (content line member).trimmed
  rw [contentLines, Text.linesOf_join fun line member => (content line member).unbroken, trims]
  refine List.filter_eq_self.mpr fun line member => ?_
  simp [(content line member).written, (content line member).noComment]

/-- A computation over a list that has a result for each member has the list of the results. -/
theorem mapM_eq_ok {Fault α β : Type} {f : α -> Except Fault β} {g : α -> β} {items : List α}
    (each : forall item, item ∈ items -> f item = .ok (g item)) :
    items.mapM f = .ok (items.map g) := by
  induction items with
  | nil => rfl
  | cons first rest inductionHypothesis =>
      rw [List.mapM_cons, each first List.mem_cons_self,
        inductionHypothesis fun item member => each item (List.mem_cons_of_mem _ member)]
      rfl

/-! ## Words -/

namespace Text

/-- A text that is not empty and has no blanks. -/
structure IsWord (word : List Char) : Prop where
  written : word ≠ []
  unblank : forall c, c ∈ word -> isBlank c = false

/-- A text with no blanks around it, and with spaces at most inside. -/
structure IsPhrase (text : List Char) : Prop where
  written : text ≠ []
  starts : forall c, c ∈ text.head? -> isBlank c = false
  ends : forall c, c ∈ text.getLast? -> isBlank c = false
  spaces : forall c, c ∈ text -> c = ' ' ∨ isBlank c = false

theorem isWord_of_wordsAfter {unfinished text word : List Char}
    (unblank : forall c, c ∈ unfinished -> isBlank c = false)
    (member : word ∈ wordsAfter unfinished text) : IsWord word := by
  have nothing : forall c, c ∈ ([] : List Char) -> isBlank c = false :=
    fun c inside => absurd inside List.not_mem_nil
  have finished : ¬ unfinished.isEmpty = true -> IsWord unfinished.reverse := fun notEmpty =>
    ⟨fun none => notEmpty (List.isEmpty_iff.mpr (List.reverse_eq_nil_iff.mp none)),
      fun c inside => unblank c (List.mem_reverse.mp inside)⟩
  induction text generalizing unfinished with
  | nil =>
      rw [wordsAfter] at member
      split at member
      · cases member
      · rename_i notEmpty
        exact List.mem_singleton.mp member ▸ finished notEmpty
  | cons c rest inductionHypothesis =>
      have further := inductionHypothesis nothing
      rw [wordsAfter] at member
      split at member
      · split at member
        · exact further member fun notEmpty => absurd rfl notEmpty
        · rename_i notEmpty
          rcases List.mem_cons.mp member with rfl | later
          · exact finished notEmpty
          · exact further later fun notEmpty => absurd rfl notEmpty
      · rename_i notBlank
        have unblankNow : forall other, other ∈ c :: unfinished -> isBlank other = false := by
          intro other inside
          rcases List.mem_cons.mp inside with rfl | before
          · exact Bool.eq_false_iff.mpr notBlank
          · exact unblank other before
        refine inductionHypothesis unblankNow member fun _ => ⟨?_, fun other inside => ?_⟩
        · exact fun none => List.cons_ne_nil c unfinished (List.reverse_eq_nil_iff.mp none)
        · exact unblankNow other (List.mem_reverse.mp inside)

theorem isWord_of_words {text word : List Char} (member : word ∈ words text) : IsWord word :=
  isWord_of_wordsAfter (fun _ inside => absurd inside List.not_mem_nil) member

theorem IsWord.isPhrase {word : List Char} (isWord : IsWord word) : IsPhrase word where
  written := isWord.written
  starts := fun c first => isWord.unblank c (List.mem_of_head? first)
  ends := fun c last => isWord.unblank c (List.mem_of_getLast? last)
  spaces := fun c inside => Or.inr (isWord.unblank c inside)

/-- Words with single spaces between them are a phrase. -/
theorem isPhrase_intercalate {words : List (List Char)} (someWord : words ≠ [])
    (each : forall word, word ∈ words -> IsWord word) : IsPhrase ([' '].intercalate words) := by
  induction words with
  | nil => exact absurd rfl someWord
  | cons word rest inductionHypothesis =>
      have isWord := each word List.mem_cons_self
      cases rest with
      | nil =>
          rw [List.intercalate_singleton]
          exact isWord.isPhrase
      | cons next rest =>
          have further := inductionHypothesis (List.cons_ne_nil next rest) fun other member =>
            each other (List.mem_cons_of_mem _ member)
          rw [List.intercalate_cons_cons]
          refine ⟨?_, fun c first => ?_, fun c last => ?_, fun c inside => ?_⟩
          · simp
          · rw [List.append_assoc, List.head?_append_of_ne_nil _ isWord.written] at first
            exact isWord.isPhrase.starts c first
          · rw [List.getLast?_append_of_ne_nil _ further.written] at last
            exact further.ends c last
          · rcases List.mem_append.mp inside with here | later
            · rcases List.mem_append.mp here with inWord | space
              · exact Or.inr (isWord.unblank c inWord)
              · exact Or.inl (List.mem_singleton.mp space)
            · exact further.spaces c later

end Text

/-- The words of a command are cut from a line. -/
theorem Line.isWord_of_ofText {line : List Char} {command : Command} {words : List String}
    (read : Line.ofText line = .command command words) :
    forall word, word ∈ words -> Text.IsWord word.toList := by
  rw [Line.ofText] at read
  dsimp only at read
  split at read
  · split at read
    · cases read
    · cases read
      intro word member
      rcases List.mem_map.mp member with ⟨letters, inside, rfl⟩
      rw [String.toList_ofList]
      exact Text.isWord_of_words inside
  · cases read

/-- A phrase has no blanks around it to be left out. -/
theorem Text.IsPhrase.trimmed {line : String} (isPhrase : IsPhrase line.toList) :
    Text.trimmed line = line := by
  rw [Text.trimmed, Source.trim_eq_self isPhrase.starts isPhrase.ends, String.ofList_toList]

/-- A phrase that starts no comment is a line that is read as it is written. -/
theorem isContentLine_of_isPhrase {line : String} (isPhrase : Text.IsPhrase line.toList)
    (noComment : line.toList.head? ≠ some '#') : IsContentLine line where
  trimmed := isPhrase.trimmed
  written := fun none => isPhrase.written (by rw [none]; rfl)
  noComment := noComment
  unbroken := by
    intro c inside
    refine Bool.eq_false_iff.mpr fun breaks => ?_
    rcases isPhrase.spaces c inside with rfl | unblank
    · exact absurd breaks (by decide)
    · rw [Text.isBlank_of_isLineBreak breaks] at unblank
      cases unblank

/-! ## Symbols at the start of a text -/

theorem takeWhile_append_of_all {text rest : List Char} {p : Char -> Bool}
    (whole : text.all p = true) (ends : forall c, c ∈ rest.head? -> p c = false) :
    (text ++ rest).takeWhile p = text := by
  rw [List.takeWhile_append_of_pos (List.all_eq_true.mp whole)]
  cases rest with
  | nil => simp
  | cons c rest => simp [ends c rfl]

section

variable {symbol rest : List Char}

theorem IsSymbol.head_append (isSymbol : IsSymbol symbol) (rest : List Char) :
    forall c, c ∈ (symbol ++ rest).head? -> Text.isBlank c = false := by
  intro c first
  cases symbol with
  | nil => exact absurd rfl isSymbol.written
  | cons head tail =>
      cases first
      exact isBlank_of_isSymbolCharacter (List.all_eq_true.mp isSymbol.characters c
        List.mem_cons_self)

/-- A symbol is found in front of what is neither a blank nor part of a symbol. -/
theorem IsSymbol.symbolAt? (isSymbol : IsSymbol symbol)
    (ends : forall c, c ∈ rest.head? -> isSymbolCharacter c = false ∧ Text.isBlank c = false) :
    symbolAt? (symbol ++ rest) = some (symbol, rest) := by
  have notEmpty : symbol.isEmpty = false := List.isEmpty_eq_false_iff.mpr isSymbol.written
  rw [QuantityCalculus.symbolAt?, Source.trimStart_of_head (isSymbol.head_append rest),
    takeWhile_append_of_all isSymbol.characters fun c first => (ends c first).1]
  simp only [notEmpty, Bool.false_eq_true, if_false, List.drop_left]
  rw [Source.trimStart_of_head fun c first => (ends c first).2]

theorem isSymbol_of_symbolAt? {text : List Char} (found : symbolAt? text = some (symbol, rest)) :
    IsSymbol symbol := by
  rw [symbolAt?] at found
  split at found
  · cases found
  · rename_i notEmpty
    cases found
    exact ⟨fun none => notEmpty (List.isEmpty_iff.mpr none), List.all_takeWhile⟩

end

/-! ## Declarations -/

/-- The text of a factor reads as that factor. -/
@[mk_iff]
structure ReadableFactor (value : R) : Prop where
  characters : (factorText value).all isSymbolCharacter = true
  reads : Number.read? (factorText value) = some value

instance [DecidableEq R] (value : R) : Decidable (ReadableFactor value) :=
  decidable_of_iff' _ (readableFactor_iff value)

/-- A symbol that is read as the name of a unit. -/
structure IsUnitName (R : Type) [Scalar R] (symbol : String) : Prop where
  isSymbol : IsSymbol symbol.toList
  noNumber : isNumberText R symbol.toList = false

/-- The number of an operand that is one. -/
def RelationOperand.factor? : RelationOperand R -> Option R
  | .unit _ => none
  | .factor value => some value

/-- An operand whose text is read back. -/
def RelationOperand.Readable : RelationOperand R -> Prop
  | .unit symbol => IsUnitName R symbol
  | .factor value => ReadableFactor value

/-- A declaration whose text is read back. -/
structure RelationDeclaration.Readable (declaration : RelationDeclaration R) : Prop where
  subject : IsUnitName R declaration.subject
  operand : declaration.operand.Readable
  result : IsUnitName R declaration.result

namespace RelationOperand

/-- An operand as an expression. -/
def expr : RelationOperand R -> Expr R
  | .unit symbol => .var symbol
  | .factor value => .num value

theorem isSymbol_text {operand : RelationOperand R} (readable : operand.Readable) :
    IsSymbol operand.text.toList := by
  cases operand with
  | unit symbol => exact IsUnitName.isSymbol readable
  | factor value =>
      have reads := ReadableFactor.reads readable
      refine ⟨fun none => ?_, ?_⟩
      · rw [text, String.toList_ofList] at none
        rw [none] at reads
        cases reads
      · rw [text, String.toList_ofList]
        exact ReadableFactor.characters readable

theorem relationOperand_text {operand : RelationOperand R} (readable : operand.Readable) :
    relationOperand operand.text.toList = operand.expr := by
  cases operand with
  | unit symbol =>
      have noNumber : (Number.read? symbol.toList : Option R) = none := by
        simpa [isNumberText] using IsUnitName.noNumber readable
      rw [relationOperand, text, noNumber, expr, String.ofList_toList]
  | factor value =>
      rw [relationOperand, text, String.toList_ofList, ReadableFactor.reads readable, expr]

end RelationOperand

namespace RelationDeclaration

variable {declaration : RelationDeclaration R}

/-- The two sides of the equation that a declaration is. -/
def sides (declaration : RelationDeclaration R) : Expr R × Expr R :=
  (.binary declaration.op.operator (.var declaration.subject) declaration.operand.expr,
    .var declaration.result)

theorem ofSides_sides (places : Nat) (declaration : RelationDeclaration R) :
    ofSides places declaration.sides.1 declaration.sides.2 = .ok declaration := by
  rcases declaration with ⟨subject, op, operand, result⟩
  cases op <;> cases operand <;> rfl

theorem toList_text (declaration : RelationDeclaration R) :
    declaration.text.toList = declaration.subject.toList ++ (declaration.op.symbol.toList ++
      (declaration.operand.text.toList ++ '=' :: declaration.result.toList)) := by
  simp [text]

/-- The signs that stand behind the symbols are no part of them. -/
theorem ends_of_sign (sign : Char) (rest : List Char) (member : sign ∈ ['*', '/', '=', '-']) :
    forall c, c ∈ (sign :: rest).head? -> isSymbolCharacter c = false ∧ Text.isBlank c = false := by
  intro c first
  cases first
  have each : (['*', '/', '=', '-'].all fun c =>
      !isSymbolCharacter c && !Text.isBlank c) = true := by
    decide +kernel
  simpa using List.all_eq_true.mp each _ member

/-- What is read behind the first symbol and the operator. -/
theorem relationParts?_behind {subject : List Char} (isSubject : IsSymbol subject)
    (op : UnitOperator) (rest : List Char) :
    relationParts? (subject ++ (op.symbol.toList ++ rest)) = (do
      let (right, rest) ← symbolAt? rest
      let rest ←
        match rest with
        | '=' :: rest => some rest
        | _ => none
      let (result, rest) ← symbolAt? rest
      match rest with
      | [] => some (subject, op, right, result)
      | ';' :: rest =>
          if (Text.trimStart rest).isEmpty then some (subject, op, right, result) else none
      | _ => none) := by
  cases op with
  | times =>
      have found := isSubject.symbolAt? (ends_of_sign '*' rest (by decide))
      have sign : UnitOperator.times.symbol.toList = ['*'] := rfl
      rw [relationParts?, sign, List.singleton_append, found]
      rfl
  | per =>
      have found := isSubject.symbolAt? (ends_of_sign '/' rest (by decide))
      have sign : UnitOperator.per.symbol.toList = ['/'] := rfl
      rw [relationParts?, sign, List.singleton_append, found]
      rfl

theorem relationParts?_text (readable : declaration.Readable) :
    relationParts? declaration.text.toList =
      some (declaration.subject.toList, declaration.op, declaration.operand.text.toList,
        declaration.result.toList) := by
  have resultFound := @IsSymbol.symbolAt? _ [] readable.result.isSymbol nofun
  have operandFound := (RelationOperand.isSymbol_text readable.operand).symbolAt?
    (ends_of_sign '=' declaration.result.toList (by decide))
  rw [List.append_nil] at resultFound
  rw [toList_text, relationParts?_behind readable.subject.isSymbol, operandFound]
  simp only [Option.bind_eq_bind, Option.bind_some, resultFound]

/-- The text of a declaration reads as the declaration. -/
theorem relationSides_text (readable : declaration.Readable) :
    relationSides declaration.text = .ok declaration.sides := by
  rw [relationSides, relationParts?_text readable]
  simp only [readable.subject.noNumber, readable.result.noNumber, Bool.or_self,
    Bool.false_eq_true, if_false, RelationOperand.relationOperand_text readable.operand,
    String.ofList_toList]
  rfl

/-- The text of a declaration is a word if its parts are. -/
theorem isWord_text (subject : IsSymbol declaration.subject.toList)
    (operand : forall c, c ∈ declaration.operand.text.toList -> Text.isBlank c = false)
    (result : IsSymbol declaration.result.toList) : Text.IsWord declaration.text.toList := by
  have symbols : forall {text : List Char}, IsSymbol text -> forall c, c ∈ text ->
      Text.isBlank c = false := fun isSymbol c member =>
    isBlank_of_isSymbolCharacter (List.all_eq_true.mp isSymbol.characters c member)
  have signs : forall (op : UnitOperator) c, c ∈ op.symbol.toList -> Text.isBlank c = false := by
    intro op c member
    have each : (op.symbol.toList.all fun c => !Text.isBlank c) = true := by
      cases op <;> decide +kernel
    simpa using List.all_eq_true.mp each c member
  rw [toList_text]
  refine ⟨fun none => subject.written (List.append_eq_nil_iff.mp none).1, fun c member => ?_⟩
  rcases List.mem_append.mp member with here | member
  · exact symbols subject c here
  rcases List.mem_append.mp member with here | member
  · exact signs _ c here
  rcases List.mem_append.mp member with here | member
  · exact operand c here
  rcases List.mem_cons.mp member with rfl | here
  · decide
  · exact symbols result c here

theorem isContentLine_text (readable : declaration.Readable) : IsContentLine declaration.text := by
  have operand := RelationOperand.isSymbol_text readable.operand
  have isWord := isWord_text readable.subject.isSymbol
    (fun c member => isBlank_of_isSymbolCharacter (List.all_eq_true.mp operand.characters c member))
    readable.result.isSymbol
  cases letters : declaration.subject.toList with
  | nil => exact absurd letters readable.subject.isSymbol.written
  | cons c rest =>
      have starts : declaration.text.toList.head? = some c := by
        rw [toList_text, letters]
        rfl
      refine isContentLine_of_isPhrase isWord.isPhrase ?_
      rw [starts]
      rintro comment
      cases comment
      have symbol := List.all_eq_true.mp readable.subject.isSymbol.characters '#'
        (letters ▸ List.mem_cons_self)
      exact absurd symbol (by decide +kernel)

end RelationDeclaration

/-- A unit file with a name that is a line and declarations that can be read reads as it is. -/
theorem parse_unitFile (places : Nat) {name : String} {declarations : List (RelationDeclaration R)}
    (content : IsContentLine name)
    (readable : forall declaration, declaration ∈ declarations -> declaration.Readable) :
    UnitFile.parse places (String.join
      ((name :: declarations.map RelationDeclaration.text).map (· ++ "\n"))) =
        .ok ⟨name, declarations⟩ := by
  have lines : forall line, line ∈ name :: declarations.map RelationDeclaration.text ->
      IsContentLine line := by
    intro line member
    rcases List.mem_cons.mp member with rfl | later
    · exact content
    · rcases List.mem_map.mp later with ⟨declaration, inside, rfl⟩
      exact RelationDeclaration.isContentLine_text (readable declaration inside)
  have texts : (declarations.map RelationDeclaration.text).mapM relationSides =
      .ok (declarations.map RelationDeclaration.sides) := by
    rw [List.mapM_map]
    exact mapM_eq_ok fun declaration member =>
      RelationDeclaration.relationSides_text (readable declaration member)
  have declared : (declarations.map RelationDeclaration.sides).mapM
      (fun sides => RelationDeclaration.ofSides places sides.1 sides.2) = .ok declarations := by
    rw [List.mapM_map]
    refine (mapM_eq_ok fun declaration _ =>
      RelationDeclaration.ofSides_sides places declaration).trans ?_
    rw [List.map_id']
  rw [UnitFile.parse, contentLines_join lines]
  refine (bind_eq_of_ok texts).trans ?_
  exact (bind_eq_of_ok declared).trans rfl

/-! ## What was read is written so that it is read back -/

theorem isSymbol_of_relationParts? {line left right result : List Char} {op : UnitOperator}
    (found : relationParts? line = some (left, op, right, result)) :
    IsSymbol left ∧ IsSymbol right ∧ IsSymbol result := by
  rcases Option.bind_eq_some_iff.mp found with ⟨⟨first, rest⟩, firstFound, found⟩
  dsimp only at found
  split at found <;>
    rcases Option.bind_eq_some_iff.mp found with ⟨⟨sign, rest⟩, signFound, found⟩ <;>
    cases signFound
  all_goals
    rcases Option.bind_eq_some_iff.mp found with ⟨⟨second, rest⟩, secondFound, found⟩
    dsimp only at found
    split at found <;>
      rcases Option.bind_eq_some_iff.mp found with ⟨rest, equals, found⟩ <;>
      cases equals
    rcases Option.bind_eq_some_iff.mp found with ⟨⟨third, rest⟩, thirdFound, found⟩
    have symbols := And.intro (isSymbol_of_symbolAt? firstFound)
      (And.intro (isSymbol_of_symbolAt? secondFound) (isSymbol_of_symbolAt? thirdFound))
    dsimp only at found
    split at found
    · cases found
      exact symbols
    · split at found
      · cases found
        exact symbols
      · cases found
    · cases found

/-- An operand as a line gives it. -/
inductive RelationOperand.Read : RelationOperand R -> Prop
  | unit {symbol : String} : IsUnitName R symbol -> Read (.unit symbol)
  | factor {text : List Char} {value : R} : IsSymbol text ->
      Number.read? text = some value -> Read (.factor value)

/-- What a declaration that was read from a line consists of. -/
theorem parts_of_parse {places : Nat} {line : String} {declaration : RelationDeclaration R}
    (parsed : RelationDeclaration.parse places line = .ok declaration) :
    IsUnitName R declaration.subject ∧ declaration.operand.Read ∧
      IsUnitName R declaration.result := by
  rcases bind_eq_ok.mp parsed with ⟨⟨lhs, rhs⟩, sided, parsed⟩
  rw [relationSides] at sided
  split at sided
  · cases sided
  rename_i left op right result found
  rcases isSymbol_of_relationParts? found with ⟨leftSymbol, rightSymbol, resultSymbol⟩
  split at sided
  · cases sided
  rename_i names
  cases sided
  rcases not_or.mp (mt Bool.or_eq_true_iff.mpr names) with ⟨leftName, resultName⟩
  have isName : forall {text : List Char}, IsSymbol text -> ¬ isNumberText R text = true ->
      IsUnitName R (String.ofList text) := by
    intro text isSymbol noNumber
    rw [← @String.toList_ofList text] at isSymbol noNumber
    exact ⟨isSymbol, Bool.eq_false_iff.mpr noNumber⟩
  cases number : (Number.read? right : Option R) with
  | none =>
      have rightName : IsUnitName R (String.ofList right) := by
        refine isName rightSymbol fun isNumber => ?_
        rw [isNumberText, number] at isNumber
        cases isNumber
      rw [relationOperand, number] at parsed
      cases op <;> cases parsed <;>
        exact ⟨isName leftSymbol leftName, .unit rightName, isName resultSymbol resultName⟩
  | some value =>
      rw [relationOperand, number] at parsed
      cases op <;> cases parsed <;>
        exact ⟨isName leftSymbol leftName, .factor rightSymbol number,
          isName resultSymbol resultName⟩

/-- A declaration that was read from a line is read back if its factor is. -/
theorem readable_of_parse {places : Nat} {line : String} {declaration : RelationDeclaration R}
    (parsed : RelationDeclaration.parse places line = .ok declaration)
    (factor : forall value, declaration.operand = .factor value -> ReadableFactor value) :
    declaration.Readable := by
  rcases parts_of_parse parsed with ⟨subject, operand, result⟩
  refine ⟨subject, ?_, result⟩
  cases same : declaration.operand with
  | unit symbol =>
      rw [same] at operand
      cases operand with
      | unit isName => exact isName
  | factor value => exact factor value same

end QuantityCalculus
