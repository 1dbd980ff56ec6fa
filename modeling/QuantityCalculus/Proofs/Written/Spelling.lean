import QuantityCalculus.Expr.Grouping
import QuantityCalculus.Expr.Written
import QuantityCalculus.Proofs.Grammar.Derivation
import QuantityCalculus.Proofs.Written.Cutting
import QuantityCalculus.Proofs.Written.Settling

namespace QuantityCalculus

open Source

/-!
# The lexemes of a written expression

An expression is written as a text, and it has a list of lexemes that follows the
same recursion.  The text spells these lexemes: preparation leaves it alone, its
brackets are balanced, and it is cut into exactly these tokens.  All three hold of
a part whatever stands around it, as long as a number or a name is followed by a
mark, so they pass from the parts of an expression to the whole.

Legible expressions are those for which this works: literals whose text reads back,
valid names, unit symbols that preparation leaves alone, and no unit bracket behind
a word that would take it for an index.
-/

/-- The sign of an operator as a character. -/
def Operator.sign : Operator -> Char
  | .add => '+'
  | .subtract => '-'
  | .multiply => '*'
  | .divide => '/'
  | .modulus => '%'
  | .power => '^'

theorem Operator.symbol_toList (op : Operator) : op.symbol.toList = [op.sign] := by
  cases op <;> rfl

/-- The lexemes of a literal: a sign of its own, if it has one, and a spelling. -/
def literalLexemes : List Char -> List Lexeme
  | '-' :: spelling => [.symbol '-', .number spelling]
  | spelling => [.number spelling]

section

variable {R : Type} [Scalar R]

mutual

/-- The lexemes of an expression as it is written. -/
def Expr.lexemes (places : Nat) : Expr R -> List Lexeme
  | .num value => literalLexemes (Number.literalText places value)
  | .var name => [.name name]
  | .mem => [.name "mem"]
  | .memAt i => .name "mem" :: within '[' (i.lexemes places) ']'
  | .func kind x => .name kind.name :: within '(' (x.lexemes places) ')'
  | .factorial x => x.lexemes places ++ [.symbol '!']
  | .sqrt x => .name "sqrt" :: within '(' (x.lexemes places) ')'
  | .root x i =>
      if isSquareIndex i then .name "sqrt" :: within '(' (x.lexemes places) ')'
      else .name "root" :: (within '[' (i.lexemes places) ']' ++ within '(' (x.lexemes places) ')')
  | .abs x => within '|' (x.lexemes places) '|'
  | .fraction x y =>
      .name "frac" :: (within '(' (x.lexemes places) ')' ++ within '(' (y.lexemes places) ')')
  | .binary op x y => x.lexemes places ++ .symbol op.sign :: y.lexemes places
  | .call name .nil => [.symbol '$', .name name]
  | .call name arguments =>
      .symbol '$' :: .name name :: within '\x7b' (arguments.lexemes places) '\x7d'
  | .paren x => within '(' (x.lexemes places) ')'
  | .marked mark x => x.lexemes places ++ [.unit (String.ofList mark.label)]
  | .binding .. | .equation .. | .declaration .. | .target _ => []

/-- The lexemes of the bindings of a call. -/
def Arguments.lexemes (places : Nat) : Arguments R -> List Lexeme
  | .nil => []
  | .cons name value .nil => .name name :: .symbol '=' :: value.lexemes places
  | .cons name value rest =>
      .name name :: .symbol '=' :: (value.lexemes places ++ .symbol ';' :: rest.lexemes places)

end

/-! ## Legible expressions -/

/-- The characters of numbers. -/
def numeralSigns : List Char :=
  ['0', '1', '2', '3', '4', '5', '6', '7', '8', '9', '.', 'e', '+', '-']

def isNumeral (c : Char) : Bool :=
  numeralSigns.contains c

/-- A complete decimal spelling. -/
structure IsSpelling (spelling : List Char) : Prop where
  written : spelling ≠ []
  whole : Number.spellingLength spelling = spelling.length
  numerals : spelling.all isNumeral = true

/-- A literal is written so that it reads back, with a sign of its own exactly when it has to
be kept apart from what binds more tightly. -/
inductive LiteralReads (places : Nat) (value : R) : Prop
  | unsigned (spelling : List Char) : Number.literalText places value = spelling ->
      IsSpelling spelling -> Number.readSpelling spelling = value ->
      isNegativeLiteral value = false -> LiteralReads places value
  | signed (spelling : List Char) : Number.literalText places value = '-' :: spelling ->
      IsSpelling spelling -> Scalar.neg (Number.readSpelling spelling) = value ->
      isNegativeLiteral value = true -> LiteralReads places value

/-- A unit symbol that is read back from its bracket. -/
structure SymbolReads (symbol : List Char) : Prop where
  written : symbol ≠ []
  symbolic : symbol.all isUnitCharacter = true
  settled : Settled symbol
  balanced : bracketFault? symbol = none

/-- A unit bracket that is read back. -/
def UnitMark.Reads : UnitMark -> Prop
  | .apply symbol | .cast symbol => SymbolReads symbol.toList
  | .normalize => True

/-- The text of an expression ends with a word that takes a bracket for an index. -/
def Expr.endsOpen : Expr R -> Bool
  | .mem => true
  | .var name | .call name .nil => name == "root" || name == "mem"
  | .binary _ _ y => y.endsOpen
  | _ => false

mutual

/-- An expression whose text spells its lexemes. -/
def Expr.Legible (places : Nat) : Expr R -> Prop
  | .num value => LiteralReads places value
  | .var name => Text.isName name.toList = true
  | .mem => True
  | .memAt x | .func _ x | .factorial x | .sqrt x | .abs x | .paren x => x.Legible places
  | .root x y | .fraction x y | .binary _ x y => x.Legible places ∧ y.Legible places
  | .call name arguments => Text.isName name.toList = true ∧ arguments.Legible places
  | .marked mark x => mark.Reads ∧ x.endsOpen = false ∧ x.Legible places
  | .binding .. | .equation .. | .declaration .. | .target _ => False

/-- Bindings whose texts spell their lexemes. -/
def Arguments.Legible (places : Nat) : Arguments R -> Prop
  | .nil => True
  | .cons name value rest =>
      Text.isName name.toList = true ∧ value.Legible places ∧ rest.Legible places

end

end

/-! ## Texts and their lexemes -/

/-- Between its surroundings, the text is cut into these lexemes. -/
def Cuts (text : List Char) (lexemes : List Lexeme) (position : Nat) (previous : Option Lexeme)
    (rest : List Char) : Prop :=
  ∃ tokens : List Token, tokens.map Token.lexeme = lexemes ∧
    tokensFrom 0 position previous (text ++ rest) =
      (tokensFrom 0 (position + text.length) (lexemes.getLast?.or previous) rest).map
        (tokens ++ ·)

/-- The text spells the lexemes, wherever it stands. -/
structure Spells (text : List Char) (lexemes : List Lexeme) : Prop where
  settles : Settles text
  balances : Balances text
  cuts : forall position previous rest, Delimited rest -> Cuts text lexemes position previous rest
  starts : ∃ c rest, text = c :: rest ∧ Text.isBlank c = false ∧ c ≠ '>'
  ends : forall c, c ∈ text.getLast? -> Text.isBlank c = false

/-! ### Cutting -/

section

variable {text more : List Char} {lexemes others : List Lexeme} {position : Nat}
  {previous : Option Lexeme} {rest : List Char}

theorem Cuts.append (first : Cuts text lexemes position previous (more ++ rest))
    (second : Cuts more others (position + text.length) (lexemes.getLast?.or previous) rest) :
    Cuts (text ++ more) (lexemes ++ others) position previous rest := by
  rcases first with ⟨tokens, rfl, cut⟩
  rcases second with ⟨later, rfl, cutLater⟩
  refine ⟨tokens ++ later, List.map_append, ?_⟩
  rw [List.append_assoc, cut, cutLater, List.length_append, Nat.add_assoc, List.getLast?_append,
    Option.or_assoc]
  cases tokensFrom 0 _ _ rest with
  | error failure => rfl
  | ok found => exact congrArg Except.ok (List.append_assoc tokens later found).symm

/-- One token at the front. -/
theorem cuts_token {lexeme : Lexeme}
    (cut : tokensFrom 0 position previous (text ++ rest) =
      (tokensFrom 0 (position + text.length) (some lexeme) rest).map
        (⟨lexeme, position⟩ :: ·)) :
    Cuts text [lexeme] position previous rest :=
  ⟨[⟨lexeme, position⟩], rfl, cut⟩

theorem cuts_mark {c : Char} (mark : isMark c = true)
    (noUnit : c ≠ '[' ∨ opensIndex previous = true) :
    Cuts [c] [.symbol c] position previous rest :=
  cuts_token (tokensFrom_mark mark noUnit position rest)

theorem Cuts.mark {c : Char} (mark : isMark c = true)
    (noUnit : c ≠ '[' ∨ opensIndex previous = true)
    (second : Cuts more others (position + 1) (some (.symbol c)) rest) :
    Cuts (c :: more) (.symbol c :: others) position previous rest :=
  (cuts_mark mark noUnit).append second

/-- A space at the front. -/
theorem Cuts.space (second : Cuts more others (position + 1) previous rest) :
    Cuts (' ' :: more) others position previous rest := by
  rcases second with ⟨tokens, same, cut⟩
  refine ⟨tokens, same, ?_⟩
  rw [List.cons_append, tokensFrom_space, cut, List.length_cons]
  congr 2
  omega

end

/-! ### Runs of plain characters -/

/-- A character that nothing happens to outside of its token. -/
def isPlain (c : Char) : Bool :=
  decide (c.toNat < 128) && !Text.isBlank c && c != '>' && (closing? c).isNone && !isClosing c

theorem isPlain_iff {c : Char} :
    isPlain c = true <->
      c.toNat < 128 ∧ Text.isBlank c = false ∧ c ≠ '>' ∧ closing? c = none ∧
        isClosing c = false := by
  simp [isPlain, and_assoc]

/-- Every character of a number is plain. -/
theorem isPlain_of_isNumeral {c : Char} (numeral : isNumeral c = true) : isPlain c = true := by
  have each : numeralSigns.all isPlain = true := by decide
  exact List.all_eq_true.mp each c (List.contains_iff_mem.mp numeral)

/-- Every character of a name is plain. -/
theorem isPlain_of_isNameCharacter {c : Char} (character : Text.isNameCharacter c = true) :
    isPlain c = true := by
  rcases Text.exists_ascii (Text.ascii_of_isNameCharacter character) with ⟨code, rfl⟩
  revert code
  decide +kernel

/-- Every mark is visible. -/
theorem mark_visible {c : Char} (mark : isMark c = true) :
    c.toNat < 128 ∧ Text.isBlank c = false ∧ c ≠ '>' := by
  have each : (marks.all fun c =>
      decide (c.toNat < 128 ∧ Text.isBlank c = false ∧ c ≠ '>')) = true := by
    decide
  exact of_decide_eq_true (List.all_eq_true.mp each c (mem_marks mark))

theorem settles_plain {text : List Char} (plain : text.all isPlain = true) : Settles text :=
  settles_ascii fun c member => (isPlain_iff.mp (List.all_eq_true.mp plain c member)).1

theorem balances_plain {text : List Char} (plain : text.all isPlain = true) : Balances text := by
  induction text with
  | nil => exact balances_nil
  | cons c text inductionHypothesis =>
      rcases Bool.and_eq_true_iff.mp plain with ⟨first, others⟩
      rcases isPlain_iff.mp first with ⟨_, _, _, opens, closes⟩
      exact balances_cons opens closes (inductionHypothesis others)

/-- A run of plain characters spells what it is cut into. -/
theorem spells_run {text : List Char} {lexemes : List Lexeme} (written : text ≠ [])
    (plain : text.all isPlain = true)
    (cuts : forall position previous rest, Delimited rest ->
      Cuts text lexemes position previous rest) : Spells text lexemes where
  settles := settles_plain plain
  balances := balances_plain plain
  cuts := cuts
  starts := by
    cases text with
    | nil => exact absurd rfl written
    | cons c text =>
        rcases isPlain_iff.mp (Bool.and_eq_true_iff.mp plain).1 with ⟨_, visible, noPrompt, _⟩
        exact ⟨c, text, rfl, visible, noPrompt⟩
  ends := fun c last =>
    (isPlain_iff.mp (List.all_eq_true.mp plain c (List.mem_of_getLast? last))).2.1

theorem spells_number {spelling : List Char} (isSpelling : IsSpelling spelling) :
    Spells spelling [.number spelling] := by
  refine spells_run isSpelling.written ?_ ?_
  · exact List.all_eq_true.mpr fun c member =>
      isPlain_of_isNumeral (List.all_eq_true.mp isSpelling.numerals c member)
  · intro position previous rest delimited
    exact cuts_token
      (tokensFrom_number isSpelling.written isSpelling.whole delimited position previous)

theorem spells_name {name : String} (valid : Text.isName name.toList = true) :
    Spells name.toList [.name name] := by
  refine spells_run ?_ ?_ ?_
  · intro empty
    rw [empty] at valid
    cases valid
  · cases characters : name.toList with
    | nil => rfl
    | cons c rest =>
        rw [characters] at valid
        rcases Bool.and_eq_true_iff.mp valid with ⟨start, inside⟩
        rw [List.all_cons, Bool.and_eq_true]
        refine ⟨isPlain_of_isNameCharacter (Text.isNameCharacter_of_isNameStart start), ?_⟩
        exact List.all_eq_true.mpr fun d member =>
          isPlain_of_isNameCharacter (List.all_eq_true.mp inside d member)
  · intro position previous rest delimited
    have cut := tokensFrom_name valid delimited position previous
    rw [String.ofList_toList] at cut
    exact cuts_token cut

/-- A mark that is no bracket spells itself. -/
theorem spells_mark {c : Char} (mark : isMark c = true) (plain : isPlain c = true) :
    Spells [c] [.symbol c] := by
  refine spells_run (List.cons_ne_nil _ _) (by simpa using plain) ?_
  intro position previous rest _
  refine cuts_mark mark (Or.inl ?_)
  rintro rfl
  cases (isPlain_iff.mp plain).2.2.2.1

/-! ### Composing -/

section

variable {text more : List Char} {lexemes others : List Lexeme}

/-- A text in front of one that starts with a mark. -/
theorem Spells.append (first : Spells text lexemes) (second : Spells more others)
    (delimited : Delimited more) : Spells (text ++ more) (lexemes ++ others) where
  settles := first.settles.append second.settles
  balances := first.balances.append second.balances
  cuts := by
    intro position previous rest ends
    refine Cuts.append (first.cuts _ _ _ ?_) (second.cuts _ _ _ ends)
    rcases second.starts with ⟨c, others, rfl, _⟩
    exact delimited_cons (delimited c rfl) _
  starts := by
    rcases first.starts with ⟨c, others, rfl, visible⟩
    exact ⟨c, others ++ more, rfl, visible⟩
  ends := by
    intro c last
    rcases second.starts with ⟨d, others, rfl, _⟩
    rw [List.getLast?_append, Option.or_of_isSome (by simp)] at last
    exact second.ends c last

/-- A mark in front of a text. -/
theorem Spells.cons {c : Char} (second : Spells text lexemes) (mark : isMark c = true)
    (plain : isPlain c = true) : Spells (c :: text) (.symbol c :: lexemes) where
  settles := (spells_mark mark plain).settles.append second.settles
  balances := (spells_mark mark plain).balances.append second.balances
  cuts := by
    intro position previous rest ends
    refine Cuts.mark mark (Or.inl ?_) (second.cuts _ _ _ ends)
    rintro rfl
    cases (isPlain_iff.mp plain).2.2.2.1
  starts := ⟨c, text, rfl, (mark_visible mark).2⟩
  ends := by
    intro d last
    rcases second.starts with ⟨e, others, rfl, _⟩
    rw [List.getLast?_cons_cons] at last
    exact second.ends d last

/-- A text behind a separator and a space. -/
theorem Spells.separated (second : Spells text lexemes) :
    Spells (';' :: ' ' :: text) (.symbol ';' :: lexemes) where
  settles := settles_cons (by decide) (settles_cons (by decide) second.settles)
  balances := balances_cons rfl rfl (balances_cons rfl rfl second.balances)
  cuts := by
    intro position previous rest ends
    exact Cuts.mark rfl (Or.inl (by decide)) (Cuts.space (second.cuts _ _ _ ends))
  starts := ⟨';', ' ' :: text, rfl, by decide, by decide⟩
  ends := by
    intro d last
    rcases second.starts with ⟨e, others, rfl, _⟩
    rw [List.getLast?_cons_cons, List.getLast?_cons_cons] at last
    exact second.ends d last

theorem settles_enclosed {left right : Char} (settles : Settles text)
    (leftMark : isMark left = true) (rightMark : isMark right = true) :
    Settles (left :: (text ++ [right])) :=
  settles_cons (mark_visible leftMark).1
    (settles.append (settles_cons (mark_visible rightMark).1 settles_nil))

theorem last_enclosed (front : List Char) {c right : Char}
    (last : c ∈ (front ++ [right]).getLast?) : c = right := by
  rw [List.getLast?_concat] at last
  cases last
  rfl

/-- A text in parentheses, braces or bars. -/
theorem Spells.enclosed {left right : Char} (inner : Spells text lexemes)
    (leftMark : isMark left = true) (rightMark : isMark right = true)
    (noIndex : left ≠ '[' ∧ right ≠ '[') (balances : Balances (left :: (text ++ [right]))) :
    Spells (left :: (text ++ [right])) (within left lexemes right) where
  settles := settles_enclosed inner.settles leftMark rightMark
  balances := balances
  cuts := by
    intro position previous rest _
    refine Cuts.mark leftMark (Or.inl noIndex.1) ?_
    refine Cuts.append (inner.cuts _ _ _ (delimited_cons rightMark _)) ?_
    exact cuts_mark rightMark (Or.inl noIndex.2)
  starts := ⟨left, text ++ [right], rfl, (mark_visible leftMark).2⟩
  ends := by
    intro c last
    cases last_enclosed (left :: text) last
    exact (mark_visible rightMark).2.1

theorem Spells.parenthesized (inner : Spells text lexemes) :
    Spells ('(' :: (text ++ [')'])) (within '(' lexemes ')') :=
  inner.enclosed rfl rfl (by decide) (inner.balances.enclosed rfl rfl rfl)

theorem Spells.braced (inner : Spells text lexemes) :
    Spells ('\x7b' :: (text ++ ['\x7d'])) (within '\x7b' lexemes '\x7d') :=
  inner.enclosed rfl rfl (by decide) (inner.balances.enclosed rfl rfl rfl)

/-- Bars are no brackets, so they balance whatever is between them. -/
theorem Spells.barred (inner : Spells text lexemes) :
    Spells ('|' :: (text ++ ['|'])) (within '|' lexemes '|') :=
  inner.enclosed rfl rfl (by decide)
    (balances_cons rfl rfl (inner.balances.append (balances_cons rfl rfl balances_nil)))

/-- A word in front of a text in parentheses. -/
theorem Spells.called (inner : Spells text lexemes) (word : String)
    (valid : Text.isName word.toList = true) :
    Spells (word.toList ++ '(' :: (text ++ [')'])) (.name word :: within '(' lexemes ')') :=
  (spells_name valid).append inner.parenthesized (delimited_cons rfl _)

/-- An index behind a word that opens one. -/
theorem Spells.indexed (inner : Spells text lexemes) (word : String)
    (valid : Text.isName word.toList = true) (opens : opensIndex (some (.name word)) = true) :
    Spells (word.toList ++ '[' :: (text ++ [']'])) (.name word :: within '[' lexemes ']') where
  settles := (spells_name valid).settles.append (settles_enclosed inner.settles rfl rfl)
  balances := (spells_name valid).balances.append (inner.balances.enclosed rfl rfl rfl)
  cuts := by
    intro position previous rest _
    refine Cuts.append ((spells_name valid).cuts _ _ _ (delimited_cons rfl _)) ?_
    refine Cuts.mark rfl (Or.inr opens) ?_
    refine Cuts.append (inner.cuts _ _ _ (delimited_cons rfl _)) ?_
    exact cuts_mark rfl (Or.inl (by decide))
  starts := by
    rcases (spells_name valid).starts with ⟨c, others, same, visible⟩
    exact ⟨c, others ++ '[' :: (text ++ [']']), by rw [same]; rfl, visible⟩
  ends := by
    intro c last
    rw [← List.cons_append, ← List.append_assoc] at last
    cases last_enclosed _ last
    rfl

/-- A text in front of a unit bracket that is not taken for an index. -/
theorem Spells.bracketed {content : List Char} (inner : Spells text lexemes)
    (noIndex : forall previous, opensIndex (lexemes.getLast?.or previous) = false)
    (settles : Settles (content ++ [']'])) (balances : Balances content)
    (inside : ']' ∉ content) :
    Spells (text ++ '[' :: (content ++ [']'])) (lexemes ++ [.unit (String.ofList content)]) where
  settles := inner.settles.append (settles_cons (by decide) settles)
  balances := inner.balances.append (balances.enclosed rfl rfl rfl)
  cuts := by
    intro position previous rest _
    refine Cuts.append (inner.cuts _ _ _ (delimited_cons rfl _)) (cuts_token ?_)
    rw [List.cons_append, List.append_assoc, List.singleton_append,
      tokensFrom_unit inside (noIndex previous), List.length_cons, List.length_append]
    rfl
  starts := by
    rcases inner.starts with ⟨c, others, rfl, visible⟩
    exact ⟨c, others ++ '[' :: (content ++ [']']), rfl, visible⟩
  ends := by
    intro c last
    rw [← List.cons_append, ← List.append_assoc] at last
    cases last_enclosed _ last
    rfl

end

end QuantityCalculus
