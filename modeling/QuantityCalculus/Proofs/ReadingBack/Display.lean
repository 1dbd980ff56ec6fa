import QuantityCalculus.Proofs.ReadingBack.Built
import QuantityCalculus.Proofs.ReadingBack.Levels

namespace QuantityCalculus

open Source

/-!
# Displayed texts, read again

A tree that was read is displayed without any parentheses of its own.  For almost
every tree this is right, since the source had parentheses where they were needed and
the tree still has them.  The one production that loses them is the minus sign.  On
anything but a literal it stands for a product with minus one, and the product is
displayed in a place that held a single factor.

`regrouped` is the tree that the displayed text is read as.  Where a place holds a
single factor, the first factor of the operand stays and the others move out, up to
the product or the sum around it.
-/

/-! ## The tree of a displayed text -/

section

variable {R : Type} [Scalar R]

/-- A product continued by further factors. -/
def multiplied (left : Expr R) (factors : List (Expr R)) : Expr R :=
  factors.foldl (.binary .multiply) left

mutual

/-- What the text of an expression is read as behind a sign that takes one factor: this factor,
and the factors that follow it. -/
def Expr.factors : Expr R -> Expr R × List (Expr R)
  | .num value => (.num value, [])
  | .var name => (.var name, [])
  | .mem => (.mem, [])
  | .target name => (.target name, [])
  | .memAt i => (.memAt (multiplied i.factors.1 i.factors.2), [])
  | .func kind x => (.func kind (multiplied x.factors.1 x.factors.2), [])
  | .factorial x => (.factorial (multiplied x.factors.1 x.factors.2), [])
  | .sqrt x => (.sqrt (multiplied x.factors.1 x.factors.2), [])
  | .root x i =>
      if isSquareIndex i then (.sqrt (multiplied x.factors.1 x.factors.2), [])
      else (.root (multiplied x.factors.1 x.factors.2) (multiplied i.factors.1 i.factors.2), [])
  | .abs x => (.abs (multiplied x.factors.1 x.factors.2), [])
  | .fraction x y =>
      (.fraction (multiplied x.factors.1 x.factors.2) (multiplied y.factors.1 y.factors.2), [])
  | .binary op x y =>
      match op with
      | .add | .subtract =>
          (.binary op (multiplied x.factors.1 x.factors.2) (multiplied y.factors.1 y.factors.2), [])
      | .multiply => (multiplied x.factors.1 x.factors.2, y.factors.1 :: y.factors.2)
      | .divide | .modulus | .power =>
          (.binary op (multiplied x.factors.1 x.factors.2) y.factors.1, y.factors.2)
  | .binding name x => (.binding name (multiplied x.factors.1 x.factors.2), [])
  | .call name arguments => (.call name arguments.regrouped, [])
  | .paren x => (.paren (multiplied x.factors.1 x.factors.2), [])
  | .marked mark x => (.marked mark (multiplied x.factors.1 x.factors.2), [])
  | .equation l r =>
      (.equation (multiplied l.factors.1 l.factors.2) (multiplied r.factors.1 r.factors.2), [])
  | .declaration name x => (.declaration name (multiplied x.factors.1 x.factors.2), [])

/-- What the text of the bindings of a call is read as. -/
def Arguments.regrouped : Arguments R -> Arguments R
  | .nil => .nil
  | .cons name value rest =>
      .cons name (multiplied value.factors.1 value.factors.2) rest.regrouped

end

/-- What the text of an expression is read as. -/
def Expr.regrouped (x : Expr R) : Expr R :=
  multiplied x.factors.1 x.factors.2

theorem regrouped_single {x : Expr R} (single : x.factors.2 = []) : x.regrouped = x.factors.1 := by
  rw [Expr.regrouped, single]
  rfl

end

/-! ## The text is legible -/

section

variable {places : Nat}

/-- Lexemes as they come out of a text. -/
structure WellCut (lexemes : List Lexeme) : Prop where
  indexesFirst : IndexesFirst lexemes
  names : forall word, .name word ∈ lexemes -> Text.isName word.toList = true

theorem wellCut_of_tokenize {text : List Char} {tokens : List Token}
    (cut : tokenize text = .ok tokens) : WellCut (tokens.map Token.lexeme) where
  indexesFirst := tokensFrom_indexesFirst cut
  names := fun _ member => tokensFrom_names cut member

/-- What a phrase is about is writable, whatever its names. -/
def PhraseWritable (places : Nat) : Phrase Float -> Prop :=
  Phrase.Holds (fun x => x.Writable (ReadsBack places) fun _ => True)
    (fun arguments => arguments.Writable (ReadsBack places) fun _ => True)

/-- A marked primary that ends open is an index word or the call of one. -/
theorem Source.Derives.endsOpen {room : Nat} {lexemes : List Lexeme} {x : Expr Float}
    (derivation : Derives true room lexemes (.marked x))
    (writable : x.Writable (ReadsBack places) fun _ => True) (noIndex : x.isIndexWord = false) :
    x.endsOpen = false := by
  cases derivation with
  | factorial _ => rfl
  | unitBracket _ _ => rfl
  | primary derivation =>
      cases derivation with
      | named _ => exact noIndex
      | memory => cases noIndex
      | call _ => exact not_index_of_free writable.2.1
      | @callWith _ _ arguments _ _ =>
          cases arguments with
          | nil => exact not_index_of_free writable.2.1
          | cons _ _ _ => rfl
      | _ => rfl

/-- What is read from the tokens of a text is legible. -/
theorem Source.Derives.legible {room : Nat} {whole lexemes : List Lexeme} {phrase : Phrase Float}
    (wellCut : WellCut whole) (derivation : Derives true room lexemes phrase)
    (part : lexemes <:+: whole) (writable : PhraseWritable places phrase) :
    phrase.Holds (Expr.Legible places) (Arguments.Legible places) := by
  induction derivation with
  | term _ inductionHypothesis => exact inductionHypothesis part writable
  | sum _ _ _ left right =>
      exact ⟨left (infix_front part) writable.1, right (infix_right part) writable.2⟩
  | unary _ inductionHypothesis => exact inductionHypothesis part writable
  | product _ _ _ left right =>
      exact ⟨left (infix_front part) writable.1, right (infix_right part) writable.2⟩
  | @minus _ _ x _ inductionHypothesis =>
      -- A literal takes the sign into itself, anything else becomes a factor.
      cases x with
      | num value => exact writable.literalReads
      | _ => exact ⟨writable.1.literalReads, inductionHypothesis (infix_tail part) writable.2⟩
  | plus _ inductionHypothesis => exact inductionHypothesis (infix_tail part) writable
  | power _ inductionHypothesis => exact inductionHypothesis part writable
  | marked _ inductionHypothesis => exact inductionHypothesis part writable
  | raised _ _ left right =>
      exact ⟨left (infix_front part) writable.1, right (infix_right part) writable.2⟩
  | primary _ inductionHypothesis => exact inductionHypothesis part writable
  | factorial _ inductionHypothesis => exact inductionHypothesis (infix_front part) writable
  | @unitBracket _ _ content _ x derivation descriptor inductionHypothesis =>
      refine ⟨writable.1.reads descriptor.symbolic, derivation.endsOpen writable.2 ?_,
        inductionHypothesis (infix_front part) writable.2⟩
      refine Bool.eq_false_iff.mpr ?_
      intro index
      rcases derivation.index_word index with ⟨word, rfl, opens⟩
      rw [wellCut.indexesFirst word content part] at opens
      cases opens
  | number _ => exact writable.literalReads
  | named _ => exact wellCut.names _ (part.subset List.mem_cons_self)
  | parenthesized _ inductionHypothesis => exact inductionHypothesis (infix_inside part) writable
  | bars _ inductionHypothesis => exact inductionHypothesis (infix_inside part) writable
  | fraction _ _ above below =>
      have bodies := infix_tail part
      exact ⟨above (infix_inside (infix_front bodies)) writable.1,
        below (infix_inside (infix_back bodies)) writable.2⟩
  | squareRoot _ inductionHypothesis =>
      exact inductionHypothesis (infix_inside (infix_tail part)) writable
  | root _ _ index radicand =>
      have bodies := infix_tail part
      exact ⟨radicand (infix_inside (infix_back bodies)) writable.1,
        index (infix_inside (infix_front bodies)) writable.2⟩
  | memory => trivial
  | memoryAt _ inductionHypothesis =>
      exact inductionHypothesis (infix_inside (infix_tail part)) writable
  | function _ _ inductionHypothesis =>
      exact inductionHypothesis (infix_inside (infix_tail part)) writable
  | call _ => exact ⟨wellCut.names _ (part.subset (by simp)), trivial⟩
  | callWith _ _ inductionHypothesis =>
      exact ⟨wellCut.names _ (part.subset (by simp)),
        inductionHypothesis (infix_inside (infix_tail (infix_tail part))) writable.2.2⟩
  | noBindings => trivial
  | lastBinding _ _ inductionHypothesis =>
      exact ⟨wellCut.names _ (part.subset (by simp)),
        inductionHypothesis (infix_tail (infix_tail part)) writable.2.1, trivial⟩
  | binding _ _ _ _ _ first rest =>
      have after := infix_tail (infix_tail part)
      exact ⟨wellCut.names _ (part.subset (by simp)), first (infix_front after) writable.2.1,
        rest (infix_right after) writable.2.2⟩

/-! ## The text is read as the regrouped tree -/

/-- Lexemes that continue a product by further factors. -/
def Continues (room : Nat) (further : List Lexeme) (factors : List (Expr Float)) : Prop :=
  forall more, room ≤ more -> forall before left, Derives true more before (.term left) ->
    Derives true more (before ++ further) (.term (multiplied left factors))

theorem Continues.none (room : Nat) : Continues room [] [] := by
  intro more _ before left derivation
  rwa [List.append_nil]

theorem Continues.relax {room more : Nat} {further : List Lexeme} {factors : List (Expr Float)}
    (continues : Continues room further factors) (bound : room ≤ more) :
    Continues more further factors :=
  fun enough within => continues enough (Nat.le_trans bound within)

/-- One more factor in front of those that continue a product. -/
theorem Continues.cons {room more : Nat} {first further : List Lexeme} {x : Expr Float}
    {factors : List (Expr Float)} (derivation : Derives true room first (.unary x))
    (continues : Continues room further factors) (bound : room ≤ more) :
    Continues more (.symbol '*' :: (first ++ further)) (x :: factors) := by
  intro enough within before left start
  have longer : Derives true enough (before ++ .symbol '*' :: first)
      (.term (.binary .multiply left x)) :=
    .product start rfl (derivation.relax id (Nat.le_trans bound within))
  have whole := continues enough (Nat.le_trans bound within) _ _ longer
  rwa [List.append_assoc, List.cons_append] at whole

/-- The text of an expression starts with one factor, which derives the phrase, and goes on with
the factors that follow it. -/
def Splits (places room : Nat) (phrase : Expr Float -> Phrase Float) (x : Expr Float) : Prop :=
  ∃ first further, x.lexemes places = first ++ further ∧
    Derives true room first (phrase x.factors.1) ∧ Continues room further x.factors.2

/-- The text of an expression derives the phrase as a whole. -/
def Stays (places room : Nat) (phrase : Expr Float -> Phrase Float) (x : Expr Float) : Prop :=
  Derives true room (x.lexemes places) (phrase x.factors.1) ∧ x.factors.2 = []

/-- What the texts of the trees of a phrase derive. -/
def Redisplayed (places room : Nat) : Phrase Float -> Prop
  | .expression x => Derives true room (x.lexemes places) (.expression x.regrouped)
  | .term x => Derives true room (x.lexemes places) (.term x.regrouped)
  | .unary x => Splits places room .unary x
  | .power x => Splits places room .power x
  | .marked x => Stays places room .marked x
  | .primary x => Stays places room .primary x
  | .bindings arguments =>
      Derives true room (arguments.lexemes places) (.bindings arguments.regrouped)

theorem Stays.regrouped {room : Nat} {phrase : Expr Float -> Phrase Float} {x : Expr Float}
    (stays : Stays places room phrase x) :
    Derives true room (x.lexemes places) (phrase x.regrouped) := by
  rw [regrouped_single stays.2]
  exact stays.1

theorem Stays.splits {room : Nat} {phrase : Expr Float -> Phrase Float} {x : Expr Float}
    (stays : Stays places room phrase x) : Splits places room phrase x := by
  refine ⟨x.lexemes places, [], (List.append_nil _).symm, stays.1, ?_⟩
  rw [stays.2]
  exact Continues.none room

theorem additive?_sign {sign : Lexeme} {op : Operator} (additive : additive? sign = some op) :
    sign = .symbol op.sign ∧ (op = .add ∨ op = .subtract) := by
  unfold additive? at additive
  split at additive
  · cases additive
    exact ⟨rfl, Or.inl rfl⟩
  · cases additive
    exact ⟨rfl, Or.inr rfl⟩
  · cases additive

theorem multiplicative?_sign {sign : Lexeme} {op : Operator}
    (multiplicative : multiplicative? sign = some op) :
    sign = .symbol op.sign ∧ (op = .multiply ∨ op = .divide ∨ op = .modulus) := by
  unfold multiplicative? at multiplicative
  split at multiplicative
  · cases multiplicative
    exact ⟨rfl, Or.inl rfl⟩
  · cases multiplicative
    exact ⟨rfl, Or.inr (Or.inl rfl)⟩
  · cases multiplicative
    exact ⟨rfl, Or.inr (Or.inr rfl)⟩
  · cases multiplicative

/-- A unary opens a level. -/
theorem Source.Derives.unary_room {trailing : Bool} {room : Nat} {lexemes : List Lexeme}
    {x : Expr Float} (derivation : Derives trailing room lexemes (.unary x)) : 0 < room := by
  cases derivation <;> exact Nat.succ_pos _

/-- A minus sign displays as a literal and, behind it, as the factors of its operand. -/
theorem Splits.negated {room : Nat} {x : Expr Float} (positive : 0 < room)
    (writable : (negated x).Writable (ReadsBack places) fun _ => True)
    (splits : x.Writable (ReadsBack places) (fun _ => True) -> Splits places room .unary x) :
    Splits places (room + 1) .unary (negated x) := by
  rcases Nat.exists_eq_add_one_of_ne_zero (Nat.ne_of_gt positive) with ⟨room, rfl⟩
  cases x with
  | num value =>
      have stays : Stays places (room + 1 + 1) .unary (.num (Scalar.neg value)) :=
        ⟨writable.literalReads.unary room, rfl⟩
      exact stays.splits
  | _ =>
      rcases splits writable.2 with ⟨first, further, same, derivation, continues⟩
      refine ⟨literalLexemes (Number.literalText places (Scalar.ofInt (-1) : Float)), _,
        congrArg (_ ++ .symbol '*' :: ·) same, writable.1.literalReads.unary room, ?_⟩
      exact Continues.cons derivation continues (Nat.le_succ _)

/-- The displayed text of whatever was derived derives its regrouped tree. -/
theorem Source.Derives.redisplayed {room : Nat} {lexemes : List Lexeme} {phrase : Phrase Float}
    (derivation : Derives true room lexemes phrase) (writable : PhraseWritable places phrase) :
    Redisplayed places room phrase := by
  induction derivation with
  | term _ inductionHypothesis => exact .term (inductionHypothesis writable)
  | sum _ additive _ left right =>
      rcases additive?_sign additive with ⟨rfl, rfl | rfl⟩
      · exact .sum (left writable.1) additive (right writable.2)
      · exact .sum (left writable.1) additive (right writable.2)
  | @unary room _ x _ inductionHypothesis =>
      rcases inductionHypothesis writable with ⟨first, further, same, derivation, continues⟩
      have whole := continues room (Nat.le_refl room) first _ (.unary derivation)
      rw [← same] at whole
      exact whole
  | @product room _ _ _ _ x y _ multiplicative _ left right =>
      rcases multiplicative?_sign multiplicative with ⟨rfl, kinds⟩
      rcases right writable.2 with ⟨first, further, same, derivation, continues⟩
      rw [Redisplayed, Expr.lexemes, same]
      rcases kinds with rfl | rfl | rfl
      all_goals
        have start := Derives.product (left writable.1) multiplicative derivation
        have whole := continues room (Nat.le_refl room) _ _ start
        rw [List.append_assoc, List.cons_append] at whole
        exact whole
  | minus derivation inductionHypothesis =>
      exact Splits.negated derivation.unary_room writable inductionHypothesis
  | plus _ inductionHypothesis =>
      rcases inductionHypothesis writable with ⟨first, further, same, derivation, continues⟩
      exact ⟨first, further, same, derivation.relax id (Nat.le_succ _),
        continues.relax (Nat.le_succ _)⟩
  | power _ inductionHypothesis =>
      rcases inductionHypothesis writable with ⟨first, further, same, derivation, continues⟩
      exact ⟨first, further, same, .power derivation, continues.relax (Nat.le_succ _)⟩
  | marked _ inductionHypothesis =>
      have stays := inductionHypothesis writable
      exact Stays.splits ⟨.marked stays.1, stays.2⟩
  | @raised _ _ _ x y _ _ left right =>
      rcases right writable.2 with ⟨first, further, same, derivation, continues⟩
      refine ⟨x.lexemes places ++ .symbol '^' :: first, further, ?_,
        .raised (left writable.1).regrouped derivation, continues⟩
      rw [Expr.lexemes, same, List.append_assoc, List.cons_append]
      rfl
  | primary _ inductionHypothesis =>
      have stays := inductionHypothesis writable
      exact ⟨.primary stays.1, stays.2⟩
  | factorial _ inductionHypothesis =>
      exact ⟨.factorial (inductionHypothesis writable).regrouped, rfl⟩
  | unitBracket _ descriptor inductionHypothesis =>
      exact ⟨.unitBracket (inductionHypothesis writable.2).regrouped
        descriptor.symbolic.descriptor, rfl⟩
  | number spelling =>
      have positive := isNegativeLiteral_readSpelling spelling writable
      exact ⟨writable.literalReads.primary positive _, rfl⟩
  | named allowed => exact ⟨.named allowed, rfl⟩
  | parenthesized _ inductionHypothesis =>
      exact ⟨.parenthesized (inductionHypothesis writable), rfl⟩
  | bars _ inductionHypothesis => exact ⟨.bars (inductionHypothesis writable), rfl⟩
  | fraction _ _ above below =>
      exact ⟨.fraction (above writable.1) (below writable.2), rfl⟩
  | squareRoot _ inductionHypothesis =>
      exact ⟨.squareRoot (inductionHypothesis writable), rfl⟩
  | root _ _ index radicand =>
      have derivation := radicand writable.1
      rw [Redisplayed, Stays, Expr.lexemes, Expr.factors]
      split
      · exact ⟨.squareRoot derivation, rfl⟩
      · exact ⟨.root (index writable.2) derivation, rfl⟩
  | memory => exact ⟨.memory, rfl⟩
  | memoryAt _ inductionHypothesis => exact ⟨.memoryAt (inductionHypothesis writable), rfl⟩
  | @function _ _ kind _ _ _ _ inductionHypothesis =>
      exact ⟨.function (keyword_ofKeyword? kind) (inductionHypothesis writable), rfl⟩
  | call name => exact ⟨.call name, rfl⟩
  | @callWith _ _ arguments name _ inductionHypothesis =>
      cases arguments with
      | nil => exact ⟨.call name, rfl⟩
      | cons key value rest => exact ⟨.callWith name (inductionHypothesis writable.2.2), rfl⟩
  | noBindings => exact .noBindings
  | lastBinding name _ inductionHypothesis =>
      exact .lastBinding name (inductionHypothesis writable.2.1)
  | @binding _ _ _ _ _ arguments name _ _ _ _ first rest =>
      cases arguments with
      | nil => exact .lastBinding name (first writable.2.1)
      | cons key value others =>
          exact .binding name (first writable.2.1) rfl (rest writable.2.2) (Or.inl rfl)

/-! ## Reading it -/

/-- What is derived is no statement. -/
theorem Source.Derives.ordinary_tree {trailing : Bool} {room : Nat} {lexemes : List Lexeme}
    {phrase : Phrase Float} (derivation : Derives trailing room lexemes phrase) :
    phrase.Holds (fun x => x.isStatement = false) (fun _ => True) := by
  induction derivation with
  | term _ same | unary _ same | plus _ same | power _ same | marked _ same | primary _ same =>
      exact same
  | @minus _ _ x _ _ => cases x <;> rfl
  | noBindings | lastBinding | binding => trivial
  | _ => rfl

/-- An expression that is read is derived by the tokens of its text. -/
theorem parseExpression_derives {source : String} {tree : Expr Float}
    (accepted : parseExpression source = .ok tree) :
    ∃ lexemes, WellCut lexemes ∧ Derives true nestingLimit lexemes (.expression tree) := by
  rcases bind_eq_ok.mp accepted with ⟨read, parsed, whole⟩
  rcases bind_eq_ok.mp parsed with ⟨text, _, rest⟩
  rcases bind_eq_ok.mp rest with ⟨tokens, cut, statementRead⟩
  split at whole
  · cases whole
  · rename_i ordinary
    cases whole
    refine ⟨tokens.map Token.lexeme, wellCut_of_tokenize cut, ?_⟩
    have statement := statementBy_sound statementRead
    generalize tokens.map Token.lexeme = lexemes at statement ⊢
    cases statement with
    | expression derivation => exact derivation
    | target _ => exact absurd rfl ordinary
    | declaration _ _ => exact absurd rfl ordinary
    | equation _ _ => exact absurd rfl ordinary

/-- The displayed text of an expression that was read is read as its regrouped tree, however
deeply nested, and refused exactly if it is too long. -/
theorem parseExpression_text {source : String} {tree : Expr Float}
    (accepted : parseExpression source = .ok tree)
    (writable : tree.Writable (ReadsBack places) fun _ => True) :
    parseExpression (tree.text places) =
      if (tree.plain places).length ≤ lengthLimit then .ok tree.regrouped
      else .error (.tooLong lengthLimit) := by
  rcases parseExpression_derives accepted with ⟨lexemes, wellCut, derivation⟩
  have legible : tree.Legible places := derivation.legible wellCut (List.infix_refl _) writable
  have displayed : Derives true nestingLimit (tree.lexemes places) (.expression tree.regrouped) :=
    derivation.redisplayed writable
  have ordinary : tree.regrouped.isStatement = false := displayed.ordinary_tree
  split
  · rename_i short
    rcases legible.parse short with ⟨tokens, same, parses⟩
    rw [← same] at displayed
    have reads : parse (tree.text places) = .ok tree.regrouped :=
      parses.trans (statementBy_complete (.expression displayed))
    rw [parseExpression, bind_eq_of_ok reads, ordinary]
    rfl
  · rename_i long
    rw [parseExpression, legible.too_long (Nat.lt_of_not_le long)]
    rfl

end

end QuantityCalculus
