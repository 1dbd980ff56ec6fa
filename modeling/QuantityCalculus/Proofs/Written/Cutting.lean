import QuantityCalculus.Proofs.Grammar.Descriptor
import QuantityCalculus.Source.Token

namespace QuantityCalculus
namespace Source

/-!
# Cutting a written text into tokens

Tokens are as long as they can be, so a number or a name is cut out whole only in
front of a character that cannot continue it.  In a written expression this is
always a sign of an operator or a punctuation mark.  The lemmas here take one
token off the front of a text, for each kind of token there is.

Some characters continue no token at all: the sign of a power, superscripts,
blanks.  In front of one of them any text is cut as if it ended there.
-/

/-- A character that is a token of its own. -/
def isMark (c : Char) : Bool :=
  isOperatorSign c || isPunctuation c

/-- All characters that are tokens of their own. -/
def marks : List Char :=
  ['-', '+', '*', '/', '%', '^', '!', '='] ++
    ['(', ')', '[', ']', '{', '}', '|', '$', ';', ',', '@']

theorem mem_marks {c : Char} (mark : isMark c = true) : c ∈ marks := by
  simp only [isMark, isOperatorSign, isPunctuation, Bool.or_eq_true,
    List.contains_iff_mem] at mark
  exact List.mem_append.mpr mark

/-- No mark continues a number or a name. -/
theorem mark_ends {c : Char} (mark : isMark c = true) :
    Text.isDigit c = false ∧ c ≠ '.' ∧ Number.isExponentMark c = false ∧
      Text.isNameCharacter c = false := by
  have each : (marks.all fun c => decide (Text.isDigit c = false ∧ c ≠ '.' ∧
      Number.isExponentMark c = false ∧ Text.isNameCharacter c = false)) = true := by
    decide
  exact of_decide_eq_true (List.all_eq_true.mp each c (mem_marks mark))

/-- The text is at its end or goes on with a mark. -/
def Delimited (text : List Char) : Prop :=
  forall c, c ∈ text.head? -> isMark c = true

theorem delimited_nil : Delimited [] :=
  nofun

theorem delimited_cons {c : Char} (mark : isMark c = true) (rest : List Char) :
    Delimited (c :: rest) := by
  intro first same
  cases same
  exact mark

/-! ## Numbers -/

theorem leadingDigits_append {text rest : List Char}
    (ends : rest.head?.all (fun c => !Text.isDigit c) = true) :
    Number.leadingDigits (text ++ rest) = Number.leadingDigits text := by
  have none : Number.leadingDigits rest = [] := by
    have alone : ([] ++ rest).takeWhile Text.isDigit = [] := (takeWhile_run rfl ends).1
    rwa [List.nil_append] at alone
  unfold Number.leadingDigits at *
  rw [List.takeWhile_append]
  split
  · rename_i whole
    rw [none, List.append_nil]
    exact ((List.takeWhile_prefix _).eq_of_length whole).symm
  · rfl

theorem leadingDigits_length_le (text : List Char) :
    (Number.leadingDigits text).length ≤ text.length :=
  (List.takeWhile_prefix _).length_le

/-- Digits, point and digits are continued by nothing but a digit or a point. -/
theorem mantissaLength_append_of_ends {text rest : List Char}
    (digits : rest.head?.all (fun c => !Text.isDigit c) = true)
    (noPoint : forall c, c ∈ rest.head? -> c ≠ '.') :
    Number.mantissaLength (text ++ rest) = Number.mantissaLength text := by
  unfold Number.mantissaLength
  simp only [leadingDigits_append digits,
    List.drop_append_of_le_length (leadingDigits_length_le text)]
  generalize text.drop (Number.leadingDigits text).length = left
  cases left with
  | nil =>
      cases rest with
      | nil => rfl
      | cons c rest =>
          have other := noPoint c rfl
          simp only [List.nil_append]
          split
          · rename_i point
            cases point
            exact absurd rfl other
          · rfl
  | cons c left =>
      by_cases point : c = '.'
      · subst point
        simp only [List.cons_append, leadingDigits_append digits]
      · simp only [List.cons_append]
        split
        · rename_i same
          cases same
          exact absurd rfl point
        · split
          · rename_i same
            cases same
            exact absurd rfl point
          · rfl

/-- Digits, point and digits are not continued by a mark. -/
theorem mantissaLength_append {text rest : List Char} (delimited : Delimited rest) :
    Number.mantissaLength (text ++ rest) = Number.mantissaLength text := by
  refine mantissaLength_append_of_ends ?_ fun c first => (mark_ends (delimited c first)).2.1
  cases rest with
  | nil => rfl
  | cons c rest => simp [(mark_ends (delimited c rfl)).1]

/-- The length of an exponent, given its mark, the number of its signs, and its digits. -/
def exponentSize (mark : Char) (signs : Nat) (digits : List Char) : Nat :=
  if Number.isExponentMark mark && !digits.isEmpty then 1 + signs + digits.length else 0

theorem exponentLength_cons (mark next : Char) (text : List Char) :
    Number.exponentLength (mark :: next :: text) =
      exponentSize mark ([next].countP Number.isSign)
        (Number.leadingDigits ((next :: text).drop ([next].countP Number.isSign))) :=
  rfl

/-- A complete exponent is not continued by a mark. -/
theorem exponentLength_append {text rest : List Char}
    (whole : Number.exponentLength text = text.length) (delimited : Delimited rest) :
    Number.exponentLength (text ++ rest) = text.length := by
  have digits : rest.head?.all (fun c => !Text.isDigit c) = true := by
    cases rest with
    | nil => rfl
    | cons c rest => simp [(mark_ends (delimited c rfl)).1]
  cases text with
  | nil =>
      cases rest with
      | nil => rfl
      | cons c rest =>
          have noExponent := (mark_ends (delimited c rfl)).2.2.1
          simp [Number.exponentLength, noExponent]
  | cons mark text =>
      cases text with
      | nil =>
          -- A mark alone is no exponent.
          simp [Number.exponentLength, Number.leadingDigits] at whole
      | cons next text =>
          have sign : ([next].countP Number.isSign) ≤ (next :: text).length := by
            simp only [List.countP_cons, List.countP_nil, List.length_cons]
            split <;> omega
          have same : Number.leadingDigits
              ((next :: text ++ rest).drop ([next].countP Number.isSign)) =
                Number.leadingDigits ((next :: text).drop ([next].countP Number.isSign)) := by
            rw [List.drop_append_of_le_length sign, leadingDigits_append digits]
          rw [exponentLength_cons] at whole
          rw [List.cons_append, List.cons_append, exponentLength_cons, ← List.cons_append, same]
          exact whole

/-- A complete spelling is not continued by a mark. -/
theorem spellingLength_append {spelling rest : List Char}
    (whole : Number.spellingLength spelling = spelling.length) (delimited : Delimited rest) :
    Number.spellingLength (spelling ++ rest) = spelling.length := by
  unfold Number.spellingLength at *
  rw [mantissaLength_append delimited]
  split at whole
  · exact whole
  · rename_i length found
    have bound : length + 1 ≤ spelling.length := by omega
    rw [List.drop_append_of_le_length bound]
    have exponent : Number.exponentLength (spelling.drop (length + 1)) =
        (spelling.drop (length + 1)).length := by
      rw [List.length_drop]
      omega
    rw [exponentLength_append exponent delimited, ← exponent]
    exact whole

/-- What starts with neither a digit nor a point is no number. -/
theorem spellingLength_eq_zero {c : Char} (noDigit : Text.isDigit c = false) (noPoint : c ≠ '.')
    (rest : List Char) : Number.spellingLength (c :: rest) = 0 := by
  have mantissa : Number.mantissaLength (c :: rest) = 0 := by
    simp only [Number.mantissaLength, Number.leadingDigits, List.takeWhile, noDigit,
      List.length_nil, List.drop_zero]
    split
    · rename_i same
      cases same
      exact absurd rfl noPoint
    · rfl
  rw [Number.spellingLength, mantissa]

/-! ## One token -/

theorem tokensFrom_succ (taken position : Nat) (previous : Option Lexeme) (c : Char)
    (rest : List Char) :
    tokensFrom (taken + 1) position previous (c :: rest) =
      tokensFrom taken (position + 1) previous rest :=
  rfl

theorem tokensFrom_cons (position : Nat) (previous : Option Lexeme) (c : Char)
    (rest : List Char) :
    tokensFrom 0 position previous (c :: rest) =
      if c = '[' && !opensIndex previous then
        let content := rest.takeWhile (· != ']')
        if content.length = rest.length then .error (.unterminatedUnit position)
        else
          let lexeme := Lexeme.unit (String.ofList content)
          (tokensFrom (content.length + 1) (position + 1) (some lexeme) rest).map
            (⟨lexeme, position⟩ :: ·)
      else
        match startsWith? c rest with
        | none => .error (.invalidCharacter c position)
        | some (none, taken) => tokensFrom taken (position + 1) previous rest
        | some (some lexeme, taken) =>
            (tokensFrom taken (position + 1) (some lexeme) rest).map (⟨lexeme, position⟩ :: ·) :=
  rfl

theorem tokensFrom_skip (taken position : Nat) (previous : Option Lexeme) (text rest : List Char)
    (length : text.length = taken) :
    tokensFrom taken position previous (text ++ rest) =
      tokensFrom 0 (position + taken) previous rest := by
  induction text generalizing taken position with
  | nil =>
      subst length
      rfl
  | cons c text inductionHypothesis =>
      subst length
      rw [List.cons_append, List.length_cons, tokensFrom_succ,
        inductionHypothesis text.length (position + 1) rfl]
      congr 1
      omega

/-- A text that starts with some token of its own. -/
theorem tokensFrom_token {c : Char} {run rest : List Char} {lexeme : Lexeme} (position : Nat)
    (previous : Option Lexeme) (noUnit : c ≠ '[' ∨ opensIndex previous = true)
    (starts : startsWith? c (run ++ rest) = some (some lexeme, run.length)) :
    tokensFrom 0 position previous (c :: run ++ rest) =
      (tokensFrom 0 (position + (c :: run).length) (some lexeme) rest).map
        (⟨lexeme, position⟩ :: ·) := by
  have bracket : ¬ ((decide (c = '[') && !opensIndex previous) = true) := by
    rcases noUnit with other | index
    · simp [other]
    · simp [index]
  rw [List.cons_append, tokensFrom_cons, if_neg bracket, starts]
  dsimp only
  rw [tokensFrom_skip _ _ _ _ _ rfl, List.length_cons]
  congr 2
  omega

/-- The longest number at the front of a text is cut out. -/
theorem tokensFrom_spelled {spelling rest : List Char} (written : spelling ≠ [])
    (longest : Number.spellingLength (spelling ++ rest) = spelling.length)
    (position : Nat) (previous : Option Lexeme) :
    tokensFrom 0 position previous (spelling ++ rest) =
      (tokensFrom 0 (position + spelling.length) (some (.number spelling)) rest).map
        (⟨.number spelling, position⟩ :: ·) := by
  cases spelling with
  | nil => exact absurd rfl written
  | cons c run =>
      have noBracket : c ≠ '[' := by
        rintro rfl
        rw [List.cons_append, spellingLength_eq_zero (by decide) (by decide)] at longest
        cases longest
      refine tokensFrom_token position previous (Or.inl noBracket) ?_
      rw [startsWith?, ← List.cons_append, longest, List.length_cons]
      simp only [List.take_left]

/-- A complete spelling in front of a mark is cut out as a number. -/
theorem tokensFrom_number {spelling rest : List Char} (written : spelling ≠ [])
    (whole : Number.spellingLength spelling = spelling.length) (delimited : Delimited rest)
    (position : Nat) (previous : Option Lexeme) :
    tokensFrom 0 position previous (spelling ++ rest) =
      (tokensFrom 0 (position + spelling.length) (some (.number spelling)) rest).map
        (⟨.number spelling, position⟩ :: ·) :=
  tokensFrom_spelled written (spellingLength_append whole delimited) position previous

/-- Every character that starts a name is one of ASCII that starts no number. -/
theorem nameStart_ends {c : Char} (start : Text.isNameStart c = true) :
    Text.isDigit c = false ∧ c ≠ '.' ∧ c ≠ '[' := by
  have character := Text.isNameCharacter_of_isNameStart start
  rcases Text.exists_ascii (Text.ascii_of_isNameCharacter character) with ⟨code, rfl⟩
  revert code
  decide

/-- A name in front of a mark is cut out whole. -/
theorem tokensFrom_name {name rest : List Char} (valid : Text.isName name = true)
    (delimited : Delimited rest) (position : Nat) (previous : Option Lexeme) :
    tokensFrom 0 position previous (name ++ rest) =
      (tokensFrom 0 (position + name.length) (some (.name (String.ofList name))) rest).map
        (⟨.name (String.ofList name), position⟩ :: ·) := by
  cases name with
  | nil => cases valid
  | cons c run =>
      rcases Bool.and_eq_true_iff.mp valid with ⟨start, inside⟩
      rcases nameStart_ends start with ⟨noDigit, noPoint, noBracket⟩
      have ends : rest.head?.all (fun c => !Text.isNameCharacter c) = true := by
        cases rest with
        | nil => rfl
        | cons c rest => simp [(mark_ends (delimited c rfl)).2.2.2]
      refine tokensFrom_token position previous (Or.inl noBracket) ?_
      rw [startsWith?, spellingLength_eq_zero noDigit noPoint]
      simp only [start, if_true, (takeWhile_run inside ends).1]

/-- A mark is cut out by itself; an opening bracket only where an index is opened. -/
theorem tokensFrom_mark {c : Char} (mark : isMark c = true) {previous : Option Lexeme}
    (noUnit : c ≠ '[' ∨ opensIndex previous = true) (position : Nat) (rest : List Char) :
    tokensFrom 0 position previous (c :: rest) =
      (tokensFrom 0 (position + 1) (some (.symbol c)) rest).map (⟨.symbol c, position⟩ :: ·) := by
  have each : (marks.all fun c => decide (Text.isNameStart c = false ∧ c ≠ ':')) = true := by
    decide
  rcases mark_ends mark with ⟨noDigit, noPoint, _, _⟩
  rcases of_decide_eq_true (List.all_eq_true.mp each c (mem_marks mark)) with
    ⟨noName, noDeclaration⟩
  change tokensFrom 0 position previous ([c] ++ rest) =
    (tokensFrom 0 (position + [c].length) (some (.symbol c)) rest).map _
  refine tokensFrom_token position previous noUnit ?_
  have known : (isOperatorSign c || isPunctuation c) = true := mark
  rw [startsWith?, spellingLength_eq_zero noDigit noPoint]
  simp [noName, noDeclaration, known]

/-- A space is skipped. -/
theorem tokensFrom_space (position : Nat) (previous : Option Lexeme) (rest : List Char) :
    tokensFrom 0 position previous (' ' :: rest) = tokensFrom 0 (position + 1) previous rest := by
  have starts : startsWith? ' ' rest = some (none, 0) := by
    rw [startsWith?, spellingLength_eq_zero (by decide) (by decide)]
    rfl
  rw [tokensFrom_cons, if_neg (by simp), starts]

/-- A unit bracket is cut out up to its end. -/
theorem tokensFrom_unit {content : List Char} (inside : ']' ∉ content) {previous : Option Lexeme}
    (noIndex : opensIndex previous = false) (position : Nat) (rest : List Char) :
    tokensFrom 0 position previous ('[' :: (content ++ ']' :: rest)) =
      (tokensFrom 0 (position + (content.length + 2)) (some (.unit (String.ofList content)))
        rest).map (⟨.unit (String.ofList content), position⟩ :: ·) := by
  have run : content.all (· != ']') = true := by
    rw [List.all_eq_true]
    intro c member
    rw [bne_iff_ne]
    rintro rfl
    exact inside member
  have cut : (content ++ ']' :: rest).takeWhile (· != ']') = content :=
    (takeWhile_run run rfl).1
  have longer : ¬ content.length = (content ++ ']' :: rest).length := by
    rw [List.length_append, List.length_cons]
    omega
  have skipped := tokensFrom_skip (content.length + 1) (position + 1)
    (some (.unit (String.ofList content))) (content ++ [']']) rest (by simp)
  rw [List.append_assoc] at skipped
  rw [tokensFrom_cons, if_pos (by simp [noIndex])]
  simp only [cut, if_neg longer]
  refine congrArg (Except.map _) (skipped.trans ?_)
  congr 1
  omega

/-! ## A token lies in its text -/

theorem mantissaLength_le (text : List Char) : Number.mantissaLength text ≤ text.length := by
  have leading := leadingDigits_length_le text
  unfold Number.mantissaLength
  dsimp only
  split
  · rename_i rest behind
    have further := leadingDigits_length_le rest
    have lengths := congrArg List.length behind
    rw [List.length_drop, List.length_cons] at lengths
    split <;> omega
  · exact leading

theorem leadingDigits_le_mantissaLength (text : List Char) :
    (Number.leadingDigits text).length ≤ Number.mantissaLength text := by
  unfold Number.mantissaLength
  dsimp only
  split
  · split
    · rename_i empty
      have none := List.isEmpty_iff.mp (Bool.and_eq_true_iff.mp empty).1
      rw [none]
      exact Nat.le_refl 0
    · omega
  · exact Nat.le_refl _

theorem exponentLength_le (text : List Char) : Number.exponentLength text ≤ text.length := by
  cases text with
  | nil => exact Nat.le_refl _
  | cons mark rest =>
      have digits := leadingDigits_length_le (rest.drop ((rest.take 1).countP Number.isSign))
      have signs : (rest.take 1).countP Number.isSign ≤ (rest.take 1).length :=
        List.countP_le_length
      rw [List.length_take] at signs
      rw [List.length_drop] at digits
      rw [Number.exponentLength]
      split
      · rw [List.length_cons]
        omega
      · exact Nat.zero_le _

theorem spellingLength_le (text : List Char) : Number.spellingLength text ≤ text.length := by
  have mantissa := mantissaLength_le text
  rw [Number.spellingLength]
  split
  · exact Nat.zero_le _
  · rename_i length found
    have exponent := exponentLength_le (text.drop (length + 1))
    rw [List.length_drop] at exponent
    omega

/-- A token belongs to the text that it starts in. -/
theorem le_of_startsWith? {c : Char} {rest : List Char} {lexeme : Option Lexeme} {taken : Nat}
    (starts : startsWith? c rest = some (lexeme, taken)) : taken ≤ rest.length := by
  unfold startsWith? at starts
  split at starts
  · rename_i length found
    cases starts
    have bound := spellingLength_le (c :: rest)
    rw [found, List.length_cons] at bound
    exact Nat.le_of_succ_le_succ bound
  · dsimp only at starts
    split at starts
    · cases starts
      exact (List.takeWhile_prefix _).length_le
    · split at starts
      · rename_i declares
        cases starts
        cases rest with
        | nil => simp at declares
        | cons _ _ => exact Nat.succ_le_succ (Nat.zero_le _)
      · split at starts
        · cases starts
          exact Nat.zero_le _
        · split at starts <;> cases starts
          exact Nat.zero_le _

/-! ## Characters that end tokens -/

/-- The character continues no token. -/
structure StopsToken (c : Char) : Prop where
  digit : Text.isDigit c = false
  point : c ≠ '.'
  exponent : Number.isExponentMark c = false
  sign : Number.isSign c = false
  name : Text.isNameCharacter c = false
  equals : c ≠ '='

/-- The text is at its end, or goes on with a character that continues no token. -/
def EndsToken (text : List Char) : Prop :=
  forall c, c ∈ text.head? -> StopsToken c

namespace EndsToken

variable {behind : List Char}

theorem noDigit (ends : EndsToken behind) :
    behind.head?.all (fun c => !Text.isDigit c) = true := by
  cases behind with
  | nil => rfl
  | cons c rest =>
      rw [List.head?_cons, Option.all_some, (ends c rfl).digit]
      rfl

theorem mantissaLength (ends : EndsToken behind) (text : List Char) :
    Number.mantissaLength (text ++ behind) = Number.mantissaLength text :=
  mantissaLength_append_of_ends ends.noDigit fun c first => (ends c first).point

theorem exponentLength (ends : EndsToken behind) (text : List Char) :
    Number.exponentLength (text ++ behind) = Number.exponentLength text := by
  cases text with
  | nil =>
      cases behind with
      | nil => rfl
      | cons c rest => simp [Number.exponentLength, (ends c rfl).exponent]
  | cons mark text =>
      cases text with
      | nil =>
          have none : Number.leadingDigits behind = [] :=
            @leadingDigits_append [] behind ends.noDigit
          cases behind with
          | nil => rfl
          | cons c rest =>
              have empty : Number.leadingDigits [] = [] := rfl
              simp [Number.exponentLength, (ends c rfl).sign, none, empty]
      | cons next text =>
          have sign : ([next].countP Number.isSign) ≤ (next :: text).length := by
            simp only [List.countP_cons, List.countP_nil, List.length_cons]
            split <;> omega
          have same : Number.leadingDigits
              ((next :: text ++ behind).drop ([next].countP Number.isSign)) =
                Number.leadingDigits ((next :: text).drop ([next].countP Number.isSign)) := by
            rw [List.drop_append_of_le_length sign, leadingDigits_append ends.noDigit]
          rw [List.cons_append, List.cons_append, exponentLength_cons, ← List.cons_append, same,
            exponentLength_cons]

/-- No number goes on behind its end. -/
theorem spellingLength (ends : EndsToken behind) (text : List Char) :
    Number.spellingLength (text ++ behind) = Number.spellingLength text := by
  unfold Number.spellingLength
  rw [ends.mantissaLength]
  split
  · rfl
  · rename_i length found
    have bound := mantissaLength_le text
    rw [List.drop_append_of_le_length (by omega), ends.exponentLength]

/-- Neither does any other token. -/
theorem startsWith? (ends : EndsToken behind) (c : Char) (front : List Char) :
    startsWith? c (front ++ behind) = startsWith? c front := by
  have name : (front ++ behind).takeWhile Text.isNameCharacter =
      front.takeWhile Text.isNameCharacter := by
    have none : behind.takeWhile Text.isNameCharacter = [] := by
      cases behind with
      | nil => rfl
      | cons d rest => exact List.takeWhile_cons_of_neg (Bool.eq_false_iff.mp (ends d rfl).name)
    rw [List.takeWhile_append]
    split
    · rename_i whole
      rw [none, List.append_nil]
      exact ((List.takeWhile_prefix _).eq_of_length whole).symm
    · rfl
  have declares : ((front ++ behind).head? == some '=') = (front.head? == some '=') := by
    cases front with
    | cons d front => rfl
    | nil =>
        cases behind with
        | nil => rfl
        | cons d rest => simp [(ends d rfl).equals]
  have bound := spellingLength_le (c :: front)
  unfold Source.startsWith?
  rw [← List.cons_append, ends.spellingLength, name, declares]
  split
  · rename_i length found
    rw [found, List.length_cons] at bound
    rw [List.take_append_of_le_length (Nat.le_of_succ_le_succ bound)]
  · rfl

end EndsToken

end Source
end QuantityCalculus
