import QuantityCalculus.Proofs.Grammar.Recognition
import QuantityCalculus.Proofs.Solution.Ways
import QuantityCalculus.Proofs.Written.Symbol
import QuantityCalculus.Solution

namespace QuantityCalculus

open Source

/-!
# Trees that are built by reading and solving

Not every tree can be built, and some that cannot would not be read back: a bracket
behind `mem` is an index, so no text puts a unit on it.  Reading never builds such a
tree, because the same bracket was an index in the source, and solving takes trees
apart and puts parts together without a unit.  `WellMarked` is what this comes to.
-/

/-! ## Brackets behind words, and names -/

/-- No unit bracket stands behind a word that takes a bracket for an index. -/
def IndexesFirst (lexemes : List Lexeme) : Prop :=
  forall word content, [.name word, .unit content] <:+: lexemes ->
    opensIndex (some (.name word)) = false

theorem IndexesFirst.cons {first : Lexeme} {lexemes : List Lexeme} (rest : IndexesFirst lexemes)
    (start : forall word content more, first = .name word -> lexemes = .unit content :: more ->
      opensIndex (some (.name word)) = false) : IndexesFirst (first :: lexemes) := by
  intro word content inside
  rcases List.infix_cons_iff.mp inside with atStart | later
  · rcases atStart with ⟨more, same⟩
    injection same with one others
    exact start word content more one.symm others.symm
  · exact rest word content later

theorem indexesFirst_single (previous : Option Lexeme) : IndexesFirst previous.toList := by
  intro word content inside
  have short := inside.length_le
  cases previous <;> simp at short

/-- A lexeme in front keeps the order unless it is such a word and a unit bracket follows. -/
theorem IndexesFirst.behind {previous : Option Lexeme} {lexemes : List Lexeme}
    (rest : IndexesFirst lexemes)
    (start : forall content more, lexemes = .unit content :: more -> opensIndex previous = false) :
    IndexesFirst (previous.toList ++ lexemes) := by
  cases previous with
  | none => exact rest
  | some lexeme =>
      refine rest.cons ?_
      rintro word content more rfl same
      exact start content more same

theorem startsWith?_ne_unit {c : Char} {rest : List Char} {lexeme : Lexeme} {taken : Nat}
    (starts : startsWith? c rest = some (some lexeme, taken)) (content : String) :
    lexeme ≠ .unit content := by
  rintro rfl
  unfold startsWith? at starts
  split at starts
  · cases starts
  · dsimp only at starts
    split at starts
    · cases starts
    · split at starts
      · cases starts
      · split at starts
        · cases starts
        · split at starts <;> cases starts

/-- Whatever was cut before, the tokens of a text have no unit bracket behind an index word.
By induction on the text. -/
theorem tokensFrom_indexesFirst {taken position : Nat} {previous : Option Lexeme}
    {text : List Char} {tokens : List Token}
    (cut : tokensFrom taken position previous text = .ok tokens) :
    IndexesFirst (previous.toList ++ tokens.map Token.lexeme) := by
  induction text generalizing taken position previous tokens with
  | nil =>
      have empty : tokens = [] := by
        cases taken <;> exact (Except.ok.inj cut).symm
      rw [empty, List.map_nil, List.append_nil]
      exact indexesFirst_single previous
  | cons c text inductionHypothesis =>
      cases taken with
      | succ taken => exact inductionHypothesis cut
      | zero =>
          rw [tokensFrom_cons] at cut
          split at cut
          · rename_i bracket
            dsimp only at cut
            split at cut
            · cases cut
            · rcases map_eq_ok.mp cut with ⟨later, found, rfl⟩
              -- The content is cut as a unit only where no index is expected.
              refine (inductionHypothesis found).behind fun _ _ _ => ?_
              simpa using (Bool.and_eq_true_iff.mp bracket).2
          · split at cut
            · cases cut
            · exact inductionHypothesis cut
            · rename_i lexeme taken starts
              rcases map_eq_ok.mp cut with ⟨later, found, rfl⟩
              refine (inductionHypothesis found).behind ?_
              intro content more same
              exact absurd (List.cons.inj same).1 (startsWith?_ne_unit starts content)

/-- A name is cut out of a text only if it is one. -/
theorem startsWith?_name {c : Char} {rest : List Char} {word : String} {taken : Nat}
    (starts : startsWith? c rest = some (some (.name word), taken)) :
    Text.isName word.toList = true := by
  unfold startsWith? at starts
  split at starts
  · cases starts
  · dsimp only at starts
    split at starts
    · rename_i start
      cases starts
      rw [String.toList_ofList, Text.isName, start, Bool.true_and]
      exact takeWhile_all Text.isNameCharacter rest
    · split at starts
      · cases starts
      · split at starts
        · cases starts
        · split at starts <;> cases starts

/-- All names among the tokens of a text are valid.  By induction on the text. -/
theorem tokensFrom_names {taken position : Nat} {previous : Option Lexeme} {text : List Char}
    {tokens : List Token} (cut : tokensFrom taken position previous text = .ok tokens)
    {word : String} (member : .name word ∈ tokens.map Token.lexeme) :
    Text.isName word.toList = true := by
  induction text generalizing taken position previous tokens with
  | nil =>
      have empty : tokens = [] := by
        cases taken <;> exact (Except.ok.inj cut).symm
      rw [empty] at member
      cases member
  | cons c text inductionHypothesis =>
      cases taken with
      | succ taken => exact inductionHypothesis cut member
      | zero =>
          rw [tokensFrom_cons] at cut
          split at cut
          · dsimp only at cut
            split at cut
            · cases cut
            · rcases map_eq_ok.mp cut with ⟨later, found, rfl⟩
              rcases List.mem_cons.mp member with impossible | inside
              · cases impossible
              · exact inductionHypothesis found inside
          · split at cut
            · cases cut
            · exact inductionHypothesis cut member
            · rename_i lexeme taken starts
              rcases map_eq_ok.mp cut with ⟨later, found, rfl⟩
              rcases List.mem_cons.mp member with first | inside
              · cases first
                exact startsWith?_name starts
              · exact inductionHypothesis found inside

/-! ## Trees with sound marks -/

section

variable {R : Type}

/-- A word that takes a bracket behind it for an index. -/
def Expr.isIndexWord : Expr R -> Bool
  | .mem => true
  | .var name => name == "root" || name == "mem"
  | _ => false

mutual

/-- Every unit has a symbol, and none is put on an index word. -/
def Expr.WellMarked : Expr R -> Prop
  | .num _ | .var _ | .mem | .target _ => True
  | .memAt x | .func _ x | .factorial x | .sqrt x | .abs x | .paren x | .binding _ x
  | .declaration _ x => x.WellMarked
  | .root x y | .fraction x y | .binary _ x y | .equation x y => x.WellMarked ∧ y.WellMarked
  | .call _ arguments => arguments.WellMarked
  | .marked mark x => mark.Symbolic ∧ x.isIndexWord = false ∧ x.WellMarked

/-- Every unit in the bindings of a call has a symbol, and none is put on an index word. -/
def Arguments.WellMarked : Arguments R -> Prop
  | .nil => True
  | .cons _ value rest => value.WellMarked ∧ rest.WellMarked

end

theorem Source.Descriptor.symbolic {content : List Char} {mark : UnitMark}
    (descriptor : Descriptor content mark) : mark.Symbolic := by
  cases descriptor with
  | apply _ _ _ _ written symbolic _ =>
      exact ⟨by simpa using written, by simpa using symbolic⟩
  | cast _ _ _ _ _ written symbolic _ _ =>
      exact ⟨by simpa using written, by simpa using symbolic⟩
  | normalize _ _ _ _ => trivial

/-! ## Reading -/

variable [Scalar R]

theorem negated_wellMarked {x : Expr R} (wellMarked : x.WellMarked) : (negated x).WellMarked := by
  cases x with
  | num value => trivial
  | _ => exact ⟨trivial, wellMarked⟩

/-- An index word is derived from this word alone. -/
theorem Source.Derives.index_word {trailing : Bool} {room : Nat} {lexemes : List Lexeme}
    {x : Expr R} (derivation : Derives trailing room lexemes (.marked x))
    (index : x.isIndexWord = true) :
    ∃ word, lexemes = [.name word] ∧ opensIndex (some (.name word)) = true := by
  cases derivation with
  | factorial _ => cases index
  | unitBracket _ _ => cases index
  | primary derivation =>
      cases derivation with
      | named _ => exact ⟨_, rfl, index⟩
      | memory => exact ⟨"mem", rfl, by decide⟩
      | _ => cases index

section

variable {lexemes more whole : List Lexeme}

theorem infix_front (part : lexemes ++ more <:+: whole) : lexemes <:+: whole :=
  (List.prefix_append _ _).isInfix.trans part

theorem infix_back (part : lexemes ++ more <:+: whole) : more <:+: whole :=
  (List.suffix_append _ _).isInfix.trans part

theorem infix_tail {lexeme : Lexeme} (part : lexeme :: lexemes <:+: whole) : lexemes <:+: whole :=
  (List.suffix_cons _ _).isInfix.trans part

theorem infix_right {sign : Lexeme} (part : lexemes ++ sign :: more <:+: whole) :
    more <:+: whole :=
  infix_tail (infix_back part)

theorem infix_inside {left right : Char} (part : within left lexemes right <:+: whole) :
    lexemes <:+: whole :=
  infix_front (infix_tail part)

end

/-- What is read from lexemes with index words first is well marked. -/
theorem Source.Derives.wellMarked {trailing : Bool} {room : Nat} {whole lexemes : List Lexeme}
    {phrase : Phrase R} (indexesFirst : IndexesFirst whole)
    (derivation : Derives trailing room lexemes phrase) (part : lexemes <:+: whole) :
    phrase.Holds Expr.WellMarked Arguments.WellMarked := by
  induction derivation with
  | term _ inductionHypothesis => exact inductionHypothesis part
  | sum _ _ _ left right => exact ⟨left (infix_front part), right (infix_right part)⟩
  | unary _ inductionHypothesis => exact inductionHypothesis part
  | product _ _ _ left right => exact ⟨left (infix_front part), right (infix_right part)⟩
  | minus _ inductionHypothesis => exact negated_wellMarked (inductionHypothesis (infix_tail part))
  | plus _ inductionHypothesis => exact inductionHypothesis (infix_tail part)
  | power _ inductionHypothesis => exact inductionHypothesis part
  | marked _ inductionHypothesis => exact inductionHypothesis part
  | raised _ _ left right => exact ⟨left (infix_front part), right (infix_right part)⟩
  | primary _ inductionHypothesis => exact inductionHypothesis part
  | factorial _ inductionHypothesis => exact inductionHypothesis (infix_front part)
  | @unitBracket _ _ content _ x derivation descriptor inductionHypothesis =>
      refine ⟨descriptor.symbolic, ?_, inductionHypothesis (infix_front part)⟩
      refine Bool.eq_false_iff.mpr ?_
      intro index
      rcases derivation.index_word index with ⟨word, rfl, opens⟩
      rw [indexesFirst word content part] at opens
      cases opens
  | number _ => trivial
  | named _ => trivial
  | parenthesized _ inductionHypothesis => exact inductionHypothesis (infix_inside part)
  | bars _ inductionHypothesis => exact inductionHypothesis (infix_inside part)
  | fraction _ _ above below =>
      have bodies := infix_tail part
      exact ⟨above (infix_inside (infix_front bodies)), below (infix_inside (infix_back bodies))⟩
  | squareRoot _ inductionHypothesis => exact inductionHypothesis (infix_inside (infix_tail part))
  | root _ _ index radicand =>
      have bodies := infix_tail part
      exact ⟨radicand (infix_inside (infix_back bodies)), index (infix_inside (infix_front bodies))⟩
  | memory => trivial
  | memoryAt _ inductionHypothesis => exact inductionHypothesis (infix_inside (infix_tail part))
  | function _ _ inductionHypothesis => exact inductionHypothesis (infix_inside (infix_tail part))
  | call _ => trivial
  | callWith _ _ inductionHypothesis =>
      exact inductionHypothesis (infix_inside (infix_tail (infix_tail part)))
  | noBindings => trivial
  | lastBinding _ _ inductionHypothesis =>
      exact ⟨inductionHypothesis (infix_tail (infix_tail part)), trivial⟩
  | binding _ _ _ _ _ first rest =>
      have after := infix_tail (infix_tail part)
      exact ⟨first (infix_front after), rest (infix_right after)⟩

/-- Reading builds well-marked trees. -/
theorem parse_wellMarked {source : String} {tree : Expr R}
    (accepted : parse source = .ok tree) : tree.WellMarked := by
  rcases bind_eq_ok.mp accepted with ⟨text, _, rest⟩
  rcases bind_eq_ok.mp rest with ⟨tokens, cut, read⟩
  have indexesFirst : IndexesFirst (tokens.map Token.lexeme) := tokensFrom_indexesFirst cut
  have derivation := statementBy_sound read
  generalize tokens.map Token.lexeme = lexemes at derivation indexesFirst
  cases derivation with
  | target _ => trivial
  | declaration _ value =>
      exact value.wellMarked indexesFirst
        ((List.suffix_cons _ _).trans (List.suffix_cons _ _)).isInfix
  | expression whole => exact whole.wellMarked indexesFirst (List.infix_refl _)
  | equation left right =>
      exact ⟨left.wellMarked indexesFirst (List.prefix_append _ _).isInfix,
        right.wellMarked indexesFirst
          ((List.suffix_cons _ _).trans (List.suffix_append _ _)).isInfix⟩

/-! ## Solving -/

omit [Scalar R] in
theorem Arguments.WellMarked.child {arguments : Arguments R} (wellMarked : arguments.WellMarked)
    {position : Nat} {slot : Slot} {child : Expr R}
    (member : (slot, child) ∈ arguments.childrenFrom position) : child.WellMarked := by
  match arguments with
  | .nil => cases member
  | .cons name value rest =>
      rcases List.mem_cons.mp member with same | later
      · cases same
        exact wellMarked.1
      · exact Arguments.WellMarked.child wellMarked.2 later

omit [Scalar R] in
theorem Expr.WellMarked.child {expr : Expr R} (wellMarked : expr.WellMarked) {slot : Slot}
    {child : Expr R} (member : (slot, child) ∈ expr.children) : child.WellMarked := by
  cases expr with
  | num _ => cases member
  | var _ => cases member
  | mem => cases member
  | target _ => cases member
  | memAt _ | func _ _ | factorial _ | sqrt _ | abs _ | binding _ _ | paren _ | declaration _ _ =>
      cases List.mem_singleton.mp member
      exact wellMarked
  | marked _ _ =>
      cases List.mem_singleton.mp member
      exact wellMarked.2.2
  | root _ _ | fraction _ _ | binary _ _ _ | equation _ _ =>
      rcases List.mem_cons.mp member with same | other
      · cases same
        exact wellMarked.1
      · cases List.mem_singleton.mp other
        exact wellMarked.2
  | call _ _ => exact Arguments.WellMarked.child wellMarked member

omit [Scalar R] in
theorem lifted_wellMarked {x : Expr R} (wellMarked : x.WellMarked) : (lifted x).WellMarked := by
  cases x <;> exact wellMarked

omit [Scalar R] in
theorem undoFactor_wellMarked {current other : Expr R} (first : current.WellMarked)
    (second : other.WellMarked) : (undoFactor current other).WellMarked := by
  unfold undoFactor
  split
  · rename_i x y divides
    have parts : x.WellMarked ∧ y.WellMarked := by
      unfold quotient? at divides
      split at divides
      · cases divides
        exact second
      · cases divides
        exact second
      · cases divides
    exact ⟨⟨first, lifted_wellMarked parts.1⟩, lifted_wellMarked parts.2⟩
  · exact ⟨first, second⟩

/-- One step back puts a well-marked tree together from well-marked parts. -/
theorem undoStep_wellMarked {step : PathStep R} {current solved : Expr R}
    (parent : step.1.WellMarked) (wellMarked : current.WellMarked)
    (undone : undoStep step current = .ok solved) : solved.WellMarked := by
  rcases step with ⟨expr, slot⟩
  cases expr with
  | binary op x y =>
      have left := parent.1
      have right := parent.2
      unfold undoStep at undone
      dsimp only at undone
      split at undone
      · cases op <;> cases undone
        all_goals first
          | exact undoFactor_wellMarked wellMarked right
          | exact ⟨wellMarked, right⟩
      · cases op <;> cases undone
        all_goals first
          | exact undoFactor_wellMarked wellMarked left
          | exact ⟨wellMarked, left⟩
          | exact ⟨left, wellMarked⟩
  | fraction x y =>
      unfold undoStep at undone
      dsimp only at undone
      split at undone
      · cases undone
        exact ⟨wellMarked, lifted_wellMarked parent.2⟩
      · cases undone
        exact ⟨lifted_wellMarked parent.1, wellMarked⟩
  | paren x =>
      cases undone
      exact wellMarked
  | sqrt x =>
      cases undone
      exact ⟨wellMarked, trivial⟩
  | root x index =>
      unfold undoStep at undone
      dsimp only at undone
      split at undone
      · cases undone
        exact ⟨wellMarked, parent.2⟩
      · cases undone
  | func kind x =>
      cases kind <;> cases undone
      all_goals first
        | exact wellMarked
        | exact ⟨trivial, wellMarked⟩
  | _ => cases undone

/-- Going back along a way keeps the marks sound.  By induction on the way. -/
theorem undoPath_wellMarked {path : List (PathStep R)} {expr current solved : Expr R}
    {target : String} (found : expr.pathTo? target = some path) (whole : expr.WellMarked)
    (wellMarked : current.WellMarked) (undone : undoPath path current = .ok solved) :
    solved.WellMarked := by
  induction path generalizing expr current with
  | nil =>
      cases undone
      exact wellMarked
  | cons step path inductionHypothesis =>
      rcases bind_eq_ok.mp undone with ⟨next, first, rest⟩
      rcases Expr.of_pathTo?_cons found with ⟨slot, child, rfl, member, inner⟩
      exact inductionHypothesis inner (whole.child member)
        (undoStep_wellMarked whole wellMarked first) rest

theorem solve_wellMarked {expr solved : Expr R} {target substitute : String}
    (wellMarked : expr.WellMarked) (solves : solve expr target substitute = .ok solved) :
    solved.WellMarked := by
  unfold solve at solves
  split at solves
  · cases solves
  · rename_i path found
    have start : (Expr.var substitute : Expr R).WellMarked := trivial
    exact undoPath_wellMarked found wellMarked start solves

/-! ## Built trees -/

/-- The trees that reading and solving can build. -/
inductive Built : Expr R -> Prop
  /-- A statement as it was read. -/
  | read {source : String} {tree : Expr R} : parse source = .ok tree -> Built tree
  /-- A part of a tree: the side of an equation, say, that is then solved. -/
  | part {tree child : Expr R} {slot : Slot} :
      Built tree -> (slot, child) ∈ tree.children -> Built child
  /-- A solution. -/
  | solved {tree solved : Expr R} {target substitute : String} :
      Built tree -> solve tree target substitute = .ok solved -> Built solved

theorem Built.wellMarked {tree : Expr R} (built : Built tree) : tree.WellMarked := by
  induction built with
  | read accepted => exact parse_wellMarked accepted
  | part _ member inductionHypothesis => exact inductionHypothesis.child member
  | solved _ solves inductionHypothesis => exact solve_wellMarked inductionHypothesis solves

end

end QuantityCalculus
