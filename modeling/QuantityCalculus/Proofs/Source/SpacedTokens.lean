import QuantityCalculus.Proofs.Grammar.Completeness
import QuantityCalculus.Proofs.Grammar.Soundness
import QuantityCalculus.Proofs.Source.Spacing
import QuantityCalculus.Proofs.Source.Tiling

namespace QuantityCalculus
namespace Source

/-!
# Reading texts with narrower gaps

A text whose gaps are narrowed is cut into the same tokens but for the contents of unit
brackets, whose gaps are narrowed with it.  A content is blanks around a symbol and a question
mark, so it still asks for the same mark.  Hence the statement that is read stays the same.
-/

/-! ## Cutting at gaps -/

/-- A blank continues no token. -/
theorem stopsToken_of_blank {c : Char} (blank : Text.isBlank c = true) : StopsToken c := by
  rcases forall_blanks (fun c => Text.isDigit c = false ∧ c ≠ '.' ∧
    Number.isExponentMark c = false ∧ Number.isSign c = false ∧
    Text.isNameCharacter c = false ∧ c ≠ '=') (by decide) blank with
    ⟨digit, point, exponent, sign, name, equals⟩
  exact ⟨digit, point, exponent, sign, name, equals⟩

theorem IsGap.endsToken {run : List Char} (gap : IsGap run) (text : List Char) :
    EndsToken (run ++ text) := by
  rcases gap.parts with ⟨c, rest, rfl, blank⟩
  rintro d ⟨⟩
  exact stopsToken_of_blank blank

/-- A blank is cut out as no token. -/
theorem startsWith?_of_blank {c : Char} (blank : Text.isBlank c = true) (rest : List Char) :
    startsWith? c rest = some (none, 0) := by
  have stops := stopsToken_of_blank blank
  have other : Text.isNameStart c = false ∧ c ≠ ':' ∧ isMark c = false :=
    forall_blanks (fun c => Text.isNameStart c = false ∧ c ≠ ':' ∧ isMark c = false) (by decide)
      blank
  rw [startsWith?, spellingLength_eq_zero stops.digit stops.point]
  have noMark : (isOperatorSign c || isPunctuation c) = false := other.2.2
  simp [other.1, other.2.1, noMark, blank]

/-- A gap is skipped. -/
theorem tokensFrom_gap {run : List Char} (blank : run.all Text.isBlank = true) (position : Nat)
    (previous : Option Lexeme) (rest : List Char) :
    tokensFrom 0 position previous (run ++ rest) =
      tokensFrom 0 (position + run.length) previous rest := by
  induction run generalizing position with
  | nil => rfl
  | cons c run inductionHypothesis =>
      rcases Bool.and_eq_true_iff.mp blank with ⟨first, others⟩
      have noBracket : c ≠ '[' := by
        rintro rfl
        cases first
      rw [List.cons_append, tokensFrom_cons, if_neg (by simp [noBracket]),
        startsWith?_of_blank first]
      dsimp only
      rw [inductionHypothesis others, List.length_cons, Nat.add_assoc, Nat.add_comm 1]

namespace Narrowed

variable {text other : List Char}

/-- Up to the first gap both texts are the same. -/
theorem upToGap (narrowed : Narrowed text other) :
    ∃ front later others, text = front ++ later ∧ other = front ++ others ∧
      Narrowed later others ∧ (forall c, c ∈ front -> Text.isBlank c = false) ∧
      EndsToken later ∧ EndsToken others := by
  induction narrowed with
  | nil => exact ⟨[], [], [], rfl, rfl, .nil, nofun, nofun, nofun⟩
  | @visible c text other seen _ inductionHypothesis =>
      rcases inductionHypothesis with
        ⟨front, later, others, rfl, rfl, narrowed, seenFront, ends, endsToo⟩
      refine ⟨c :: front, later, others, rfl, rfl, narrowed, ?_, ends, endsToo⟩
      exact List.forall_mem_cons.mpr ⟨seen, seenFront⟩
  | gap gap gapToo narrower narrowed _ =>
      exact ⟨[], _, _, rfl, rfl, .gap gap gapToo narrower narrowed, nofun, gap.endsToken _,
        gapToo.endsToken _⟩

/-- The same token starts in both texts, and lies in front of the first gap. -/
theorem token (narrowed : Narrowed text other) {c : Char} {lexeme : Option Lexeme} {taken : Nat}
    (starts : startsWith? c text = some (lexeme, taken)) :
    startsWith? c other = some (lexeme, taken) ∧
      ∃ run later others, text = run ++ later ∧ other = run ++ others ∧ run.length = taken ∧
        Narrowed later others := by
  rcases narrowed.upToGap with
    ⟨front, later, others, rfl, rfl, narrowed, seen, ends, endsToo⟩
  rw [ends.startsWith?] at starts
  rw [endsToo.startsWith?]
  refine ⟨starts, front.take taken, front.drop taken ++ later, front.drop taken ++ others,
    ?_, ?_, ?_, narrowed.behind _⟩
  · rw [← List.append_assoc, List.take_append_drop]
  · rw [← List.append_assoc, List.take_append_drop]
  · rw [List.length_take, Nat.min_eq_left (le_of_startsWith? starts)]

/-- What is cut off at a visible sign is narrowed, and so is what stands behind the sign. -/
theorem upTo {inside behind : List Char} {sign : Char}
    (narrowed : Narrowed (inside ++ sign :: behind) other)
    (seen : Text.isBlank sign = false) (first : sign ∉ inside) :
    ∃ insideToo later, other = insideToo ++ sign :: later ∧ sign ∉ insideToo ∧
      Narrowed inside insideToo ∧ Narrowed behind later := by
  have run : inside.all (· != sign) = true := by
    rw [List.all_eq_true]
    intro c member
    rw [bne_iff_ne]
    rintro rfl
    exact first member
  have uniform : forall c, Text.isBlank c = true -> (c != sign) = true := by
    intro c blank
    rw [bne_iff_ne]
    rintro rfl
    rw [seen] at blank
    cases blank
  have cut := narrowed.cut uniform
  have stops : (sign :: behind).head?.all (fun c => !(c != sign)) = true := by simp
  have here := takeWhile_run run stops
  rw [here.1, here.2] at cut
  rcases cut.2.first seen with ⟨later, starts, narrowedLater⟩
  refine ⟨other.takeWhile (· != sign), later, ?_, ?_, cut.1, narrowedLater⟩
  · rw [← starts, List.takeWhile_append_dropWhile]
  · intro member
    have differs := List.all_eq_true.mp (takeWhile_all (· != sign) other) sign member
    simp at differs

end Narrowed

/-! ## Tokens -/

/-- The lexemes are the same, but gaps in the contents of unit brackets are narrowed. -/
inductive NarrowedUnits : List Lexeme -> List Lexeme -> Prop
  | nil : NarrowedUnits [] []
  | same {lexeme : Lexeme} {lexemes others : List Lexeme} :
      NarrowedUnits lexemes others -> NarrowedUnits (lexeme :: lexemes) (lexeme :: others)
  | unit {content other : String} {lexemes others : List Lexeme}
      (narrowed : Narrowed content.toList other.toList) :
      NarrowedUnits lexemes others ->
      NarrowedUnits (.unit content :: lexemes) (.unit other :: others)

/-- What is cut at a bracket that holds a unit. -/
theorem of_tokensFrom_bracket {text : List Char} {position : Nat} {previous : Option Lexeme}
    (noIndex : opensIndex previous = false) {tokens : List Token}
    (cut : tokensFrom 0 position previous ('[' :: text) = .ok tokens) :
    ∃ content behind later, text = content ++ ']' :: behind ∧ ']' ∉ content ∧
      tokensFrom 0 (position + (content.length + 2)) (some (.unit (String.ofList content)))
        behind = .ok later ∧
      tokens = ⟨.unit (String.ofList content), position⟩ :: later := by
  rcases content_cases text with ⟨_, whole⟩ | ⟨behind, split, inside⟩
  · rw [tokensFrom_cons, if_pos (by simp [noIndex])] at cut
    dsimp only at cut
    rw [if_pos (congrArg List.length whole)] at cut
    cases cut
  · generalize text.takeWhile (· != ']') = content at split inside
    rw [← List.append_cons] at split
    rw [split, tokensFrom_unit inside noIndex] at cut
    rcases map_eq_ok.mp cut with ⟨later, cutBehind, rfl⟩
    exact ⟨content, behind, later, split, inside, cutBehind, rfl⟩

/-- A text with narrower gaps is cut into the same tokens, but for gaps in units.  By induction
on the length of the text, for a token may take more than one character. -/
theorem Narrowed.tokensFrom {text other : List Char} (narrowed : Narrowed text other)
    {position place : Nat} {previous before : Option Lexeme}
    (index : opensIndex previous = opensIndex before) {tokens : List Token}
    (cut : tokensFrom 0 position previous text = .ok tokens) :
    ∃ others, Source.tokensFrom 0 place before other = .ok others ∧
      NarrowedUnits (tokens.map Token.lexeme) (others.map Token.lexeme) := by
  induction length : text.length using Nat.strongRecOn
    generalizing text other position place previous before tokens with
  | ind length inductionHypothesis =>
      subst length
      cases narrowed with
      | nil =>
          cases cut
          exact ⟨[], rfl, .nil⟩
      | @gap run others text other gap gapToo narrower narrowed =>
          have shorter : text.length < (run ++ text).length := by
            have positive := List.length_pos_iff.mpr gap.written
            rw [List.length_append]
            omega
          rw [tokensFrom_gap gap.blank] at cut
          rw [tokensFrom_gap gapToo.blank]
          exact inductionHypothesis _ shorter narrowed index cut rfl
      | @visible c text other seen narrowed =>
          by_cases bracket : (c = '[' && !opensIndex previous) = true
          · rcases Bool.and_eq_true_iff.mp bracket with ⟨sign, outside⟩
            cases of_decide_eq_true sign
            have noIndex : opensIndex previous = false := by simpa using outside
            rcases of_tokensFrom_bracket noIndex cut with
              ⟨content, behind, found, rfl, inside, cutBehind, rfl⟩
            rcases narrowed.upTo rfl inside with
              ⟨contentToo, later, rfl, insideToo, narrowedContent, narrowedBehind⟩
            have shorter : behind.length < ('[' :: (content ++ ']' :: behind)).length := by
              rw [List.length_cons, List.length_append, List.length_cons]
              omega
            have units : opensIndex (some (.unit (String.ofList content))) =
                opensIndex (some (.unit (String.ofList contentToo))) := rfl
            rcases inductionHypothesis _ shorter narrowedBehind units cutBehind rfl with
              ⟨others, cutLater, same⟩
            rw [tokensFrom_unit insideToo (index.symm.trans noIndex)]
            refine ⟨_, map_eq_ok.mpr ⟨others, cutLater, rfl⟩, .unit ?_ same⟩
            rwa [String.toList_ofList, String.toList_ofList]
          · rw [tokensFrom_cons, if_neg bracket] at cut
            rw [tokensFrom_cons, ← index, if_neg bracket]
            split at cut
            · cases cut
            · rename_i starts
              rw [(startsWith?_blank starts).1] at seen
              cases seen
            · rename_i lexeme taken starts
              rcases narrowed.token starts with
                ⟨startsToo, run, later, others, rfl, rfl, rfl, narrowed⟩
              have shorter : later.length < (c :: (run ++ later)).length := by
                rw [List.length_cons, List.length_append]
                omega
              rw [tokensFrom_skip _ _ _ _ _ rfl] at cut
              rcases map_eq_ok.mp cut with ⟨found, cutLater, rfl⟩
              rcases inductionHypothesis _ shorter narrowed rfl cutLater rfl with
                ⟨behind, cutOthers, same⟩
              rw [startsToo]
              dsimp only
              rw [tokensFrom_skip _ _ _ _ _ rfl]
              exact ⟨_, map_eq_ok.mpr ⟨behind, cutOthers, rfl⟩, .same same⟩

/-! ## Descriptors of units -/

namespace Narrowed

variable {text other : List Char}

theorem blank (narrowed : Narrowed text other) (blank : text.all Text.isBlank = true) :
    other.all Text.isBlank = true := by
  rw [← trimStart_eq_nil_iff] at blank ⊢
  exact narrowed.trimStart.eq_nil_iff.mp blank

/-- Blanks in front stay blanks in front. -/
theorem margin {before : List Char} (narrowed : Narrowed (before ++ text) other)
    (blank : before.all Text.isBlank = true)
    (starts : text.head?.all (fun c => !Text.isBlank c) = true) :
    ∃ front later, other = front ++ later ∧ front.all Text.isBlank = true ∧
      Narrowed text later := by
  have cut := narrowed.cut fun _ blank => blank
  have here := takeWhile_run blank starts
  rw [here.1, here.2] at cut
  exact ⟨_, _, List.takeWhile_append_dropWhile.symm, takeWhile_all _ _, cut.2⟩

end Narrowed

/-- The characters of a symbol are visible. -/
theorem seen_of_symbol {symbol : List Char} (symbolic : symbol.all isUnitCharacter = true) :
    forall c, c ∈ symbol -> Text.isBlank c = false :=
  fun c member => not_isBlank_of_isUnitCharacter (List.all_eq_true.mp symbolic c member)

theorem head?_symbol {symbol : List Char} (written : symbol ≠ [])
    (symbolic : symbol.all isUnitCharacter = true) (rest : List Char) :
    (symbol ++ rest).head?.all (fun c => !Text.isBlank c) = true := by
  cases symbol with
  | nil => exact absurd rfl written
  | cons c symbol => simp [seen_of_symbol symbolic c List.mem_cons_self]

/-- A content with narrower gaps asks for the same mark. -/
theorem Descriptor.narrowed {content other : List Char} {mark : UnitMark}
    (describes : Descriptor content mark) (narrowed : Narrowed content other) :
    Descriptor other mark := by
  cases describes with
  | apply before symbol after blank written symbolic blankAfter =>
      rcases narrowed.margin blank (head?_symbol written symbolic after) with
        ⟨front, rest, rfl, blankFront, further⟩
      rcases further.front (seen_of_symbol symbolic) with ⟨later, rfl, last⟩
      exact .apply _ _ _ blankFront written symbolic (last.blank blankAfter)
  | cast before symbol between after blank written symbolic blankBetween blankAfter =>
      rcases narrowed.margin blank (head?_symbol written symbolic _) with
        ⟨front, rest, rfl, blankFront, further⟩
      rcases further.front (seen_of_symbol symbolic) with ⟨more, rfl, beyond⟩
      rcases beyond.margin blankBetween rfl with ⟨middle, question, rfl, blankMiddle, asked⟩
      rcases asked.first rfl with ⟨finish, rfl, last⟩
      exact .cast _ _ _ _ blankFront written symbolic blankMiddle (last.blank blankAfter)
  | normalize before after blank blankAfter =>
      rcases narrowed.margin blank rfl with ⟨front, rest, rfl, blankFront, asked⟩
      rcases asked.first rfl with ⟨finish, rfl, last⟩
      exact .normalize _ _ blankFront (last.blank blankAfter)

/-! ## Derivations -/

namespace NarrowedUnits

variable {lexemes more others : List Lexeme}

/-- Any lexeme but a unit stays. -/
theorem behind {lexeme : Lexeme} (narrowed : NarrowedUnits (lexeme :: lexemes) others)
    (noUnit : forall content, lexeme ≠ .unit content) :
    ∃ later, others = lexeme :: later ∧ NarrowedUnits lexemes later := by
  cases narrowed with
  | same later => exact ⟨_, rfl, later⟩
  | unit _ _ => exact absurd rfl (noUnit _)

theorem split (narrowed : NarrowedUnits (lexemes ++ more) others) :
    ∃ first second, others = first ++ second ∧ NarrowedUnits lexemes first ∧
      NarrowedUnits more second := by
  induction lexemes generalizing others with
  | nil => exact ⟨[], others, rfl, .nil, narrowed⟩
  | cons lexeme lexemes inductionHypothesis =>
      cases narrowed with
      | same later =>
          rcases inductionHypothesis later with ⟨first, second, rfl, before, behind⟩
          exact ⟨lexeme :: first, second, rfl, .same before, behind⟩
      | unit content later =>
          rcases inductionHypothesis later with ⟨first, second, rfl, before, behind⟩
          exact ⟨_ :: first, second, rfl, .unit content before, behind⟩

/-- Between operands the operator stays. -/
theorem operator {sign : Lexeme} (narrowed : NarrowedUnits (lexemes ++ sign :: more) others)
    (noUnit : forall content, sign ≠ .unit content) :
    ∃ first second, others = first ++ sign :: second ∧ NarrowedUnits lexemes first ∧
      NarrowedUnits more second := by
  rcases narrowed.split with ⟨first, rest, rfl, before, further⟩
  rcases further.behind noUnit with ⟨second, rfl, behind⟩
  exact ⟨first, second, rfl, before, behind⟩

/-- Symbols around lexemes stay. -/
theorem brackets {left right : Char}
    (narrowed : NarrowedUnits (within left lexemes right ++ more) others) :
    ∃ first second, others = within left first right ++ second ∧ NarrowedUnits lexemes first ∧
      NarrowedUnits more second := by
  rcases narrowed.split with ⟨whole, second, rfl, enclosed, behind⟩
  rcases enclosed.behind nofun with ⟨rest, rfl, further⟩
  rcases further.operator nofun with ⟨first, last, rfl, inside, ⟨⟩⟩
  exact ⟨first, second, rfl, inside, behind⟩

theorem bracketed {left right : Char}
    (narrowed : NarrowedUnits (within left lexemes right) others) :
    ∃ first, others = within left first right ∧ NarrowedUnits lexemes first := by
  rw [← List.append_nil (within left lexemes right)] at narrowed
  rcases narrowed.brackets with ⟨first, second, rfl, inside, ⟨⟩⟩
  exact ⟨first, List.append_nil _, inside⟩

end NarrowedUnits

section

variable {R : Type} [Scalar R] {trailing : Bool} {room : Nat} {lexemes others : List Lexeme}

/-- What the lexemes derive does not depend on the gaps in units.  By induction on the
derivation; only a unit bracket asks what a content says. -/
theorem Derives.narrowed {phrase : Phrase R} (derivation : Derives trailing room lexemes phrase)
    (narrowed : NarrowedUnits lexemes others) : Derives trailing room others phrase := by
  induction derivation generalizing others with
  | term _ inner => exact .term (inner narrowed)
  | sum _ sign _ left right =>
      rcases narrowed.operator (by rintro content rfl; cases sign) with
        ⟨first, second, rfl, before, behind⟩
      exact .sum (left before) sign (right behind)
  | unary _ inner => exact .unary (inner narrowed)
  | product _ sign _ left right =>
      rcases narrowed.operator (by rintro content rfl; cases sign) with
        ⟨first, second, rfl, before, behind⟩
      exact .product (left before) sign (right behind)
  | minus _ inner =>
      rcases narrowed.behind nofun with ⟨later, rfl, further⟩
      exact .minus (inner further)
  | plus _ inner =>
      rcases narrowed.behind nofun with ⟨later, rfl, further⟩
      exact .plus (inner further)
  | power _ inner => exact .power (inner narrowed)
  | marked _ inner => exact .marked (inner narrowed)
  | raised _ _ left right =>
      rcases narrowed.operator nofun with ⟨first, second, rfl, before, behind⟩
      exact .raised (left before) (right behind)
  | primary _ inner => exact .primary (inner narrowed)
  | factorial _ inner =>
      rcases narrowed.operator nofun with ⟨first, second, rfl, before, ⟨⟩⟩
      exact .factorial (inner before)
  | unitBracket _ descriptor inner =>
      rcases narrowed.split with ⟨first, last, rfl, before, further⟩
      cases further with
      | same behind =>
          cases behind
          exact .unitBracket (inner before) descriptor
      | unit content behind =>
          cases behind
          exact .unitBracket (inner before) (descriptor.narrowed content)
  | number spelling =>
      rcases narrowed.behind nofun with ⟨later, rfl, ⟨⟩⟩
      exact .number spelling
  | named allowed =>
      rcases narrowed.behind nofun with ⟨later, rfl, ⟨⟩⟩
      exact .named allowed
  | parenthesized _ inner =>
      rcases narrowed.bracketed with ⟨first, rfl, inside⟩
      exact .parenthesized (inner inside)
  | bars _ inner =>
      rcases narrowed.bracketed with ⟨first, rfl, inside⟩
      exact .bars (inner inside)
  | fraction _ _ above below =>
      rcases narrowed.behind nofun with ⟨later, rfl, further⟩
      rcases further.brackets with ⟨first, rest, rfl, insideFirst, beyond⟩
      rcases beyond.bracketed with ⟨second, rfl, insideSecond⟩
      exact .fraction (above insideFirst) (below insideSecond)
  | squareRoot _ inner =>
      rcases narrowed.behind nofun with ⟨later, rfl, further⟩
      rcases further.bracketed with ⟨first, rfl, inside⟩
      exact .squareRoot (inner inside)
  | root _ _ index radicand =>
      rcases narrowed.behind nofun with ⟨later, rfl, further⟩
      rcases further.brackets with ⟨first, rest, rfl, insideFirst, beyond⟩
      rcases beyond.bracketed with ⟨second, rfl, insideSecond⟩
      exact .root (index insideFirst) (radicand insideSecond)
  | memory =>
      rcases narrowed.behind nofun with ⟨later, rfl, ⟨⟩⟩
      exact .memory
  | memoryAt _ inner =>
      rcases narrowed.behind nofun with ⟨later, rfl, further⟩
      rcases further.bracketed with ⟨first, rfl, inside⟩
      exact .memoryAt (inner inside)
  | function keyword _ inner =>
      rcases narrowed.behind nofun with ⟨later, rfl, further⟩
      rcases further.bracketed with ⟨first, rfl, inside⟩
      exact .function keyword (inner inside)
  | call name =>
      rcases narrowed.behind nofun with ⟨later, rfl, further⟩
      rcases further.behind nofun with ⟨rest, rfl, ⟨⟩⟩
      exact .call name
  | callWith name _ inner =>
      rcases narrowed.behind nofun with ⟨later, rfl, further⟩
      rcases further.behind nofun with ⟨rest, rfl, beyond⟩
      rcases beyond.bracketed with ⟨first, rfl, inside⟩
      exact .callWith name (inner inside)
  | noBindings =>
      cases narrowed
      exact .noBindings
  | lastBinding name _ inner =>
      rcases narrowed.behind nofun with ⟨later, rfl, further⟩
      rcases further.behind nofun with ⟨rest, rfl, beyond⟩
      exact .lastBinding name (inner beyond)
  | binding name _ separates _ follows first rest =>
      rcases narrowed.behind nofun with ⟨later, rfl, further⟩
      rcases further.behind nofun with ⟨rest, rfl, beyond⟩
      rcases beyond.operator nofun with ⟨value, bindings, rfl, before, behind⟩
      refine .binding name (first before) separates (rest behind) (follows.imp_right ?_)
      rintro written rfl
      cases behind
      exact written rfl

theorem DerivesStatement.narrowed {tree : Expr R}
    (derivation : DerivesStatement trailing room lexemes tree)
    (narrowed : NarrowedUnits lexemes others) : DerivesStatement trailing room others tree := by
  cases derivation with
  | target name =>
      rcases narrowed.behind nofun with ⟨later, rfl, further⟩
      rcases further.behind nofun with ⟨rest, rfl, ⟨⟩⟩
      exact .target name
  | declaration name value =>
      rcases narrowed.behind nofun with ⟨later, rfl, further⟩
      rcases further.behind nofun with ⟨rest, rfl, beyond⟩
      exact .declaration name (value.narrowed beyond)
  | expression whole => exact .expression (whole.narrowed narrowed)
  | equation left right =>
      rcases narrowed.operator nofun with ⟨first, second, rfl, before, behind⟩
      exact .equation (left.narrowed before) (right.narrowed behind)

/-- A text that can be read means the same with narrower gaps. -/
theorem Narrowed.parse {source other : String} {tree : Expr R}
    (narrowed : Narrowed source.toList other.toList) (accepted : parse source = .ok tree) :
    Source.parse other = .ok tree := by
  rcases bind_eq_ok.mp accepted with ⟨text, prepared, accepted⟩
  rcases bind_eq_ok.mp accepted with ⟨tokens, cut, accepted⟩
  rcases narrowed.prepare prepared with ⟨further, preparedToo, narrowedText⟩
  rcases narrowedText.tokensFrom rfl cut with ⟨others, cutToo, same⟩
  refine bind_eq_ok.mpr ⟨further, preparedToo, bind_eq_ok.mpr ⟨others, cutToo, ?_⟩⟩
  exact statementBy_complete ((statementBy_sound accepted).narrowed same)

end

end Source
end QuantityCalculus
