import QuantityCalculus.Proofs.Grammar.Parentheses
import QuantityCalculus.Proofs.Source.PreparedRuns
import QuantityCalculus.Proofs.Source.Tiling

namespace QuantityCalculus
namespace Source

/-!
# Superscripts as exponents

A run of superscripts stands alone if it is a number with minus signs in front, if no
longer number starts with its digits where it stands, and if nothing behind it comes in
between its sign and its number.  When all runs of a text stand alone, the text is cut into
the same tokens whether the runs are written in parentheses or not, but for parentheses
around the numbers of the runs.

A run ends every token in front of it.  So up to the next run both texts are cut alike,
whatever the runs behind it look like.
-/

/-! ## One step of cutting -/

/-- None of the tokens is the content of a unit bracket. -/
def NoUnits (tokens : List Token) : Prop :=
  forall token, token ∈ tokens -> forall content, token.lexeme ≠ .unit content

/-- What cutting does at a place where no unit bracket is opened. -/
inductive CutsOne (c : Char) (rest : List Char) (position : Nat) (previous : Option Lexeme) :
    List Token -> Prop
  | blank {taken : Nat} {tokens : List Token} (starts : startsWith? c rest = some (none, taken))
      (cut : tokensFrom taken (position + 1) previous rest = .ok tokens)
      (noUnits : NoUnits tokens) : CutsOne c rest position previous tokens
  | token {lexeme : Lexeme} {taken : Nat} {later : List Token}
      (starts : startsWith? c rest = some (some lexeme, taken))
      (cut : tokensFrom taken (position + 1) (some lexeme) rest = .ok later)
      (noUnits : NoUnits later) : CutsOne c rest position previous (⟨lexeme, position⟩ :: later)

section

variable {c : Char} {rest : List Char} {position : Nat} {previous : Option Lexeme}
  {tokens : List Token}

theorem NoUnits.behind {first : List Token} (noUnits : NoUnits (first ++ tokens)) :
    NoUnits tokens :=
  fun token member => noUnits token (List.mem_append_right _ member)

/-- Without unit brackets cutting takes one step, and never the one into a bracket. -/
theorem NoUnits.step (noUnits : NoUnits tokens)
    (cut : tokensFrom 0 position previous (c :: rest) = .ok tokens) :
    ¬ (c = '[' && !opensIndex previous) = true ∧ CutsOne c rest position previous tokens := by
  rw [tokensFrom_cons] at cut
  split at cut
  · dsimp only at cut
    split at cut
    · cases cut
    · rcases map_eq_ok.mp cut with ⟨later, _, rfl⟩
      exact absurd rfl (noUnits _ List.mem_cons_self _)
  · rename_i noBracket
    refine ⟨noBracket, ?_⟩
    split at cut
    · cases cut
    · rename_i taken starts
      exact .blank starts cut noUnits
    · rename_i lexeme taken starts
      rcases map_eq_ok.mp cut with ⟨later, found, rfl⟩
      exact .token starts found (@NoUnits.behind _ [⟨lexeme, position⟩] noUnits)

end

/-! ## Up to the next run -/

/-- The text is at its end, or goes on with a run of superscripts, written or not. -/
def AtRun (text : List Char) : Prop :=
  forall c, c ∈ text.head? -> c = '^' ∨ isOrdinary c = false

/-- A run ends the token in front of it. -/
theorem AtRun.endsToken {text : List Char} (atRun : AtRun text) : EndsToken text := by
  intro c first
  rcases atRun c first with rfl | run
  · exact ⟨by decide, by decide, by decide, by decide, by decide, by decide⟩
  · cases raised : superscript? c with
    | none => rw [isOrdinary_iff.mpr raised] at run; cases run
    | some plain =>
        rcases forall_superscripts (fun c _ => Text.isDigit c = false ∧ c ≠ '.' ∧
          Number.isExponentMark c = false ∧ Number.isSign c = false ∧
          Text.isNameCharacter c = false ∧ c ≠ '=') (by decide) raised with
          ⟨digit, point, exponent, sign, name, equals⟩
        exact ⟨digit, point, exponent, sign, name, equals⟩

/-- The text in front of the next run, and the rest. -/
theorem atRun_dropWhile (text : List Char) : AtRun (text.dropWhile isOrdinary) := by
  intro c first
  have run := List.head?_dropWhile_not isOrdinary text
  rw [Option.mem_def.mp first] at run
  exact Or.inr (by simpa using run)

theorem AtRun.writeRuns {text : List Char} (atRun : AtRun text) (enclosed : Bool)
    (noPower : '^' ∉ text.head?) : AtRun (writeRuns enclosed false text) := by
  intro c first
  rw [head?_writeRuns, Option.mem_def, Option.map_eq_some_iff] at first
  rcases first with ⟨d, first, rfl⟩
  rcases atRun d first with rfl | run
  · exact absurd first noPower
  · rw [if_neg (Bool.eq_false_iff.mp run)]
    exact Or.inl rfl

/-- Up to the next run a text is written as it is. -/
theorem writeRuns_split (enclosed : Bool) (text : List Char) :
    ∃ behind, writeRuns enclosed false text = text.takeWhile isOrdinary ++ behind ∧
      AtRun behind := by
  refine ⟨writeRuns enclosed false (text.dropWhile isOrdinary), ?_, ?_⟩
  · have split := List.takeWhile_append_dropWhile (p := isOrdinary) (l := text)
    rw [← writeRuns_front (takeWhile_all _ _), split]
  · refine (atRun_dropWhile text).writeRuns enclosed fun first => ?_
    have run := List.head?_dropWhile_not isOrdinary text
    rw [Option.mem_def.mp first] at run
    cases run

/-- Which token starts at a place does not depend on how the runs behind it are written. -/
theorem startsWith?_writeRuns (enclosed : Bool) (c : Char) (text : List Char) :
    startsWith? c (writeRuns enclosed false text) =
      startsWith? c (text.takeWhile isOrdinary) := by
  rcases writeRuns_split enclosed text with ⟨behind, split, atRun⟩
  rw [split, atRun.endsToken.startsWith?]

/-- Neither does how long a number is that starts before. -/
theorem spellingLength_writeRuns (enclosed : Bool) (front text : List Char) :
    Number.spellingLength (front ++ writeRuns enclosed false text) =
      Number.spellingLength (front ++ text) := by
  rcases writeRuns_split enclosed text with ⟨behind, split, atRun⟩
  have whole := List.takeWhile_append_dropWhile (p := isOrdinary) (l := text)
  have plain := (atRun_dropWhile text).endsToken.spellingLength (front ++ text.takeWhile isOrdinary)
  rw [List.append_assoc, whole] at plain
  rw [split, ← List.append_assoc, atRun.endsToken.spellingLength, plain]

/-! ## A run that stands alone -/

/-- What may stand behind digits so that they are a number: no digit, no point, no exponent. -/
def endsNumber (rest : List Char) : Bool :=
  rest.head?.all (fun c => !Text.isDigit c && c != '.') && Number.exponentLength rest == 0

/-- What may stand behind a number with a sign, so that the sign is the last to take effect. -/
def leavesSign (c : Char) : Bool :=
  c != '^' && c != '!' && isOrdinary c

theorem spellingLength_eq {text : List Char} (found : Number.mantissaLength text ≠ 0) :
    Number.spellingLength text = Number.mantissaLength text +
      Number.exponentLength (text.drop (Number.mantissaLength text)) := by
  unfold Number.spellingLength
  split
  · rename_i none
    exact absurd none found
  · rename_i length same
    rw [same]

theorem mantissaLength_digits {digits : List Char} (numeric : digits.all Text.isDigit = true) :
    Number.leadingDigits digits = digits ∧ Number.mantissaLength digits = digits.length := by
  have leading : Number.leadingDigits digits = digits := by
    have whole := (takeWhile_run numeric (rfl : ([] : List Char).head?.all _ = true)).1
    rwa [List.append_nil] at whole
  exact ⟨leading, by simp [Number.mantissaLength, leading]⟩

theorem spellingLength_digits {digits : List Char} (written : digits ≠ [])
    (numeric : digits.all Text.isDigit = true) :
    Number.spellingLength digits = digits.length := by
  have mantissa := (mantissaLength_digits numeric).2
  have found : Number.mantissaLength digits ≠ 0 := by
    rw [mantissa]
    exact fun empty => written (List.length_eq_zero_iff.mp empty)
  rw [spellingLength_eq found, mantissa, List.drop_length]
  rfl

/-- Digits are a number of their own exactly if nothing behind them continues it. -/
theorem spellingLength_digits_iff {digits rest : List Char} (written : digits ≠ [])
    (numeric : digits.all Text.isDigit = true) :
    Number.spellingLength (digits ++ rest) = digits.length <-> endsNumber rest = true := by
  have positive := List.length_pos_iff.mpr written
  rcases mantissaLength_digits numeric with ⟨leading, mantissa⟩
  have longer : forall {length : Nat}, digits.length < length ->
      length ≤ Number.mantissaLength (digits ++ rest) ->
      Number.spellingLength (digits ++ rest) ≠ digits.length := by
    intro length more bound same
    rw [spellingLength_eq (by omega)] at same
    omega
  cases rest with
  | nil =>
      rw [List.append_nil]
      exact iff_of_true (spellingLength_digits written numeric) rfl
  | cons c rest =>
      by_cases digit : Text.isDigit c = true
      · refine iff_of_false (longer (Nat.lt_succ_self _) ?_) (by simp [endsNumber, digit])
        have inside : (digits ++ [c]).all Text.isDigit = true := by
          rw [List.all_append, numeric]
          simp [digit]
        have first := leadingDigits_le_mantissaLength (digits ++ c :: rest)
        have front := le_length_takeWhile inside rest
        rw [List.append_assoc, List.singleton_append, List.length_append] at front
        exact Nat.le_trans front first
      · have ends : (c :: rest).head?.all (fun c => !Text.isDigit c) = true := by simp [digit]
        by_cases point : c = '.'
        · subst point
          refine iff_of_false (longer (Nat.lt_succ_self _) ?_) (by simp [endsNumber])
          have front : Number.leadingDigits (digits ++ '.' :: rest) = digits :=
            (leadingDigits_append ends).trans leading
          have nonempty : digits.isEmpty = false := by simpa using written
          simp only [Number.mantissaLength, front, List.drop_left, nonempty, Bool.false_and,
            Bool.false_eq_true, if_false]
          omega
        · have same : Number.mantissaLength (digits ++ c :: rest) = digits.length :=
            (mantissaLength_append_of_ends ends (by rintro d ⟨⟩; exact point)).trans mantissa
          rw [spellingLength_eq (by omega), same, List.drop_left]
          simp [endsNumber, digit, point]

/-- All runs of superscripts are read as the numbers that they spell. -/
inductive RunsStandAlone : List Char -> Prop
  | nil : RunsStandAlone []
  | ordinary {c : Char} {rest : List Char} (other : superscript? c = none) :
      RunsStandAlone rest -> RunsStandAlone (c :: rest)
  | run (signs : Nat) {raised digits rest : List Char}
      (plain : raised.map superscript? = digits.map some) (written : digits ≠ [])
      (numeric : digits.all Text.isDigit = true)
      (ends : forall c, c ∈ rest.head? -> superscript? c = none)
      (ownNumber : endsNumber rest = true)
      (ownSign : signs = 0 ∨ (Text.trimStart rest).head?.all leavesSign = true) :
      RunsStandAlone rest -> RunsStandAlone (List.replicate signs '⁻' ++ raised ++ rest)

section

variable {enclosed : Bool} {rest : List Char}

/-- Signs and a number are cut into as many tokens, if no longer number starts there. -/
theorem tokensFrom_signed {spelling : List Char} (written : spelling ≠ [])
    (longest : Number.spellingLength (spelling ++ rest) = spelling.length)
    (signs position : Nat) (previous : Option Lexeme) :
    ∃ place tokens, tokens.map Token.lexeme = signed signs spelling ∧
      ⟨.number spelling, position + signs⟩ ∈ tokens ∧
      tokensFrom 0 position previous (List.replicate signs '-' ++ (spelling ++ rest)) =
        (tokensFrom 0 place (some (.number spelling)) rest).map (tokens ++ ·) := by
  induction signs generalizing position previous with
  | zero =>
      refine ⟨position + spelling.length, [⟨.number spelling, position⟩], rfl,
        List.mem_cons_self, ?_⟩
      exact tokensFrom_spelled written longest position previous
  | succ signs inductionHypothesis =>
      rcases inductionHypothesis (position + 1) (some (.symbol '-')) with
        ⟨place, tokens, same, member, cut⟩
      refine ⟨place, ⟨.symbol '-', position⟩ :: tokens, congrArg _ same, ?_, ?_⟩
      · rw [Nat.add_assoc, Nat.add_comm 1 signs] at member
        exact List.mem_cons_of_mem _ member
      · rw [List.replicate_succ, List.cons_append, tokensFrom_mark rfl (Or.inl (by decide)), cut]
        generalize tokensFrom 0 place _ rest = result
        cases result <;> rfl

/-- No mark is a blank. -/
theorem mark_not_isBlank {c : Char} (mark : isMark c = true) : Text.isBlank c = false := by
  have each : (marks.all fun c => !Text.isBlank c) = true := by decide
  simpa using List.all_eq_true.mp each c (mem_marks mark)

/-- What may stand behind a sign and its number does not bind more closely. -/
theorem not_binds_of_leavesSign {position : Nat} {previous : Option Lexeme} {tokens : List Token}
    (leaves : (Text.trimStart rest).head?.all leavesSign = true)
    (cut : tokensFrom 0 position previous (writeRuns false false rest) = .ok tokens)
    (noUnits : NoUnits tokens) :
    (tokens.map Token.lexeme).head?.all (fun next => !next.binds) = true := by
  induction rest generalizing position previous tokens with
  | nil =>
      cases cut
      rfl
  | cons c rest inductionHypothesis =>
      have visible : Text.isBlank c = false -> leavesSign c = true := by
        intro noBlank
        rw [Text.trimStart, List.dropWhile_cons_of_neg (Bool.eq_false_iff.mp noBlank)] at leaves
        exact leaves
      cases raised : superscript? c with
      | some plain =>
          have run : Text.isBlank c = false ∧ leavesSign c = false :=
            forall_superscripts (fun c _ => Text.isBlank c = false ∧ leavesSign c = false)
              (by decide) raised
          rw [visible run.1] at run
          cases run.2
      | none =>
          rw [writeRuns_ordinary raised] at cut
          rcases noUnits.step cut with ⟨_, one⟩
          cases one with
          | blank starts further noUnits =>
              rcases startsWith?_blank starts with ⟨blank, rfl⟩
              rw [Text.trimStart, List.dropWhile_cons_of_pos blank] at leaves
              exact inductionHypothesis leaves further noUnits
          | token starts _ _ =>
              rcases startsWith?_token starts with ⟨isToken, piece⟩
              cases isToken with
              | @symbol d mark =>
                  rw [Lexeme.piece_symbol] at piece
                  cases (List.cons.inj piece).1
                  have free := visible (mark_not_isBlank mark)
                  simp only [leavesSign, Bool.and_eq_true, bne_iff_ne] at free
                  simp [Lexeme.binds, free.1.1, free.1.2]
              | unit _ => exact absurd rfl (noUnits _ List.mem_cons_self _)
              | _ => rfl

/-- A lexeme that is the same in both texts, and what is cut behind it. -/
theorem encloses_cons {first second : Token} {tokens others : List Token}
    (same : first.lexeme = second.lexeme)
    (later : forall behind, Encloses behind (tokens.map Token.lexeme) (others.map Token.lexeme))
    (behind : Bool) :
    Encloses behind ((first :: tokens).map Token.lexeme) ((second :: others).map Token.lexeme) := by
  rw [List.map_cons, List.map_cons, same]
  exact .same (later _)

/-- No token goes on into a run, so cutting begins anew there. -/
theorem tokensFrom_atRun {front behind : List Char} (atRun : AtRun behind) {taken position : Nat}
    (inside : taken ≤ front.length) {previous : Option Lexeme} {tokens : List Token}
    (cut : tokensFrom taken position previous (front ++ behind) = .ok tokens)
    (noUnits : NoUnits tokens) :
    ∃ last first later, tokens = first ++ later ∧
      tokensFrom 0 (position + front.length) last behind = .ok later := by
  induction front generalizing taken position previous tokens with
  | nil =>
      cases Nat.eq_zero_of_le_zero inside
      exact ⟨previous, [], tokens, rfl, cut⟩
  | cons c front inductionHypothesis =>
      have place : forall {last later}, tokensFrom 0 (position + 1 + front.length) last behind =
          .ok later -> tokensFrom 0 (position + (c :: front).length) last behind = .ok later := by
        intro last later found
        rwa [List.length_cons, Nat.add_comm front.length, ← Nat.add_assoc]
      cases taken with
      | succ taken =>
          rcases inductionHypothesis (Nat.le_of_succ_le_succ inside) cut noUnits with
            ⟨last, first, later, parts, found⟩
          exact ⟨last, first, later, parts, place found⟩
      | zero =>
          rw [List.cons_append] at cut
          rcases noUnits.step cut with ⟨_, one⟩
          cases one with
          | blank starts further noUnits =>
              rw [atRun.endsToken.startsWith?] at starts
              rcases inductionHypothesis (le_of_startsWith? starts) further noUnits with
                ⟨last, first, later, parts, found⟩
              exact ⟨last, first, later, parts, place found⟩
          | token starts further noUnitsLater =>
              rw [atRun.endsToken.startsWith?] at starts
              rcases inductionHypothesis (le_of_startsWith? starts) further noUnitsLater with
                ⟨last, first, later, rfl, found⟩
              exact ⟨last, _ :: first, later, rfl, place found⟩

/-- A run of superscripts that spells a number with its signs, and where it stands. -/
structure RunAt (text before : List Char) (signs : Nat) (digits rest : List Char) : Prop where
  parts : ∃ raised, text = before ++ (List.replicate signs '⁻' ++ raised ++ rest) ∧
    raised.map superscript? = digits.map some
  written : digits ≠ []
  numeric : digits.all Text.isDigit = true
  /-- The run begins where it does. -/
  begins : forall c, c ∈ before.getLast? -> superscript? c = none
  /-- The run ends where it does. -/
  ends : forall c, c ∈ rest.head? -> superscript? c = none

/-- The longest number at the front of digits and more starts with the digits. -/
theorem longest_of_digits {digits : List Char} (written : digits ≠ [])
    (numeric : digits.all Text.isDigit = true) (more : List Char) :
    ∃ further left, digits ++ more = (digits ++ further) ++ left ∧
      Number.spellingLength (digits ++ more) = (digits ++ further).length := by
  have leading : digits.length ≤ (Number.leadingDigits (digits ++ more)).length :=
    le_length_takeWhile numeric more
  have mantissa := leadingDigits_le_mantissaLength (digits ++ more)
  have positive := List.length_pos_iff.mpr written
  have longer : digits.length ≤ Number.spellingLength (digits ++ more) := by
    rw [spellingLength_eq (by omega)]
    omega
  have bound := spellingLength_le (digits ++ more)
  rw [List.length_append] at bound
  refine ⟨more.take (Number.spellingLength (digits ++ more) - digits.length),
    more.drop (Number.spellingLength (digits ++ more) - digits.length), ?_, ?_⟩
  · rw [List.append_assoc, List.take_append_drop]
  · rw [List.length_append, List.length_take]
    omega

/-- The number that is read where a run stands starts with the digits of the run, and it is the
number of the run exactly if nothing behind the run continues it. -/
theorem RunAt.number {text before digits rest : List Char} {signs : Nat}
    (run : RunAt text before signs digits rest) {tokens : List Token}
    (cut : tokenize (writeRuns false false text) = .ok tokens)
    (noUnits : NoUnits tokens) :
    ∃ spelling, ⟨.number spelling, (writeRuns false false before).length + 1 + signs⟩ ∈ tokens ∧
      digits <+: spelling ∧ (spelling = digits <-> endsNumber rest = true) := by
  rcases run.parts with ⟨raised, rfl, plain⟩
  rw [writeRuns_before run.begins, writeRuns_signed signs plain run.written run.ends] at cut
  change tokenize (writeRuns false false before ++ '^' :: (List.replicate signs '-' ++
    (digits ++ writeRuns false false rest))) = .ok tokens at cut
  have atRun : AtRun ('^' :: (List.replicate signs '-' ++
      (digits ++ writeRuns false false rest))) := by
    rintro c ⟨⟩
    exact Or.inl rfl
  rcases tokensFrom_atRun atRun (Nat.zero_le _) cut noUnits with ⟨last, first, later, rfl, found⟩
  rcases longest_of_digits run.written run.numeric (writeRuns false false rest) with
    ⟨further, left, parts, longest⟩
  have same : Number.spellingLength (digits ++ rest) = (digits ++ further).length :=
    (spellingLength_writeRuns false digits rest).symm.trans longest
  rw [parts] at longest
  rcases tokensFrom_signed (List.append_ne_nil_of_left_ne_nil run.written _) longest signs
    (0 + (writeRuns false false before).length + 1) (some (.symbol '^')) with
    ⟨_, number, _, member, cutNumber⟩
  rw [tokensFrom_mark rfl (Or.inl (by decide)), parts, cutNumber] at found
  rcases map_eq_ok.mp found with ⟨_, foundNumber, rfl⟩
  rcases map_eq_ok.mp foundNumber with ⟨behind, _, rfl⟩
  rw [Nat.zero_add] at member
  refine ⟨digits ++ further, ?_, List.prefix_append _ _, ?_⟩
  · exact List.mem_append_right _ (List.mem_cons_of_mem _ (List.mem_append_left _ member))
  · rw [← spellingLength_digits_iff run.written run.numeric, same, List.length_append]
    constructor
    · intro whole
      rw [← List.length_append, whole]
    · intro none
      have empty : further = [] := List.length_eq_zero_iff.mp (by omega)
      rw [empty, List.append_nil]

/-- A run starts with no other character. -/
theorem takeWhile_run_nil {run plain : List Char} (raised : run.map superscript? = plain.map some)
    (written : plain ≠ []) (rest : List Char) : (run ++ rest).takeWhile isOrdinary = [] := by
  cases run with
  | nil => exact absurd (List.map_eq_nil_iff.mp raised.symm) written
  | cons c run =>
      cases plain with
      | nil => cases raised
      | cons d plain =>
          refine List.takeWhile_cons_of_neg fun ordinary => ?_
          rw [List.map_cons, isOrdinary_iff.mp ordinary] at raised
          cases raised

/-- A run that stands alone, and what is cut behind it. -/
theorem cut_run {signs : Nat} {digits : List Char} (written : digits ≠ [])
    (numeric : digits.all Text.isDigit = true)
    (ownNumber : endsNumber rest = true)
    {position place : Nat} {previous before : Option Lexeme} {tokens : List Token}
    (ownSign : signs = 0 ∨ (Text.trimStart rest).head?.all leavesSign = true)
    (noUnits : NoUnits tokens)
    (cut : tokensFrom 0 position previous (runStart false ++ (List.replicate signs '-' ++
      (digits ++ (runEnd false ++ writeRuns false false rest)))) = .ok tokens)
    (later : forall {position place : Nat} {tokens : List Token},
      tokensFrom 0 position (some (.number digits)) (writeRuns false false rest) = .ok tokens ->
      NoUnits tokens ->
      ∃ others, tokensFrom 0 place (some (.symbol ')')) (writeRuns true false rest) = .ok others ∧
        forall behind, Encloses behind (tokens.map Token.lexeme) (others.map Token.lexeme)) :
    ∃ others, tokensFrom 0 place before (runStart true ++ (List.replicate signs '-' ++
        (digits ++ (runEnd true ++ writeRuns true false rest)))) = .ok others ∧
      forall behind, Encloses behind (tokens.map Token.lexeme) (others.map Token.lexeme) := by
  change tokensFrom 0 position previous ('^' :: (List.replicate signs '-' ++
    (digits ++ writeRuns false false rest))) = .ok tokens at cut
  change ∃ others, tokensFrom 0 place before ('^' :: '(' :: (List.replicate signs '-' ++
    (digits ++ ')' :: writeRuns true false rest))) = .ok others ∧ _
  have bare : Number.spellingLength (digits ++ writeRuns false false rest) = digits.length :=
    (spellingLength_writeRuns false digits rest).trans
      ((spellingLength_digits_iff written numeric).mpr ownNumber)
  have closed : Number.spellingLength (digits ++ ')' :: writeRuns true false rest) =
      digits.length :=
    spellingLength_append (spellingLength_digits written numeric) (delimited_cons rfl _)
  rcases tokensFrom_signed written bare signs (position + 1) (some (.symbol '^')) with
    ⟨_, number, sameNumber, _, cutNumber⟩
  rcases tokensFrom_signed written closed signs (place + 1 + 1) (some (.symbol '(')) with
    ⟨end_, otherNumber, sameOther, _, cutOther⟩
  rw [tokensFrom_mark rfl (Or.inl (by decide)), cutNumber] at cut
  rcases map_eq_ok.mp cut with ⟨_, found, rfl⟩
  rcases map_eq_ok.mp found with ⟨behind, foundBehind, rfl⟩
  have noUnitsBehind : NoUnits behind :=
    (@NoUnits.behind (number ++ behind) [⟨.symbol '^', position⟩] noUnits).behind
  rcases later foundBehind noUnitsBehind with ⟨others, foundOthers, encloses⟩
  refine ⟨⟨.symbol '^', place⟩ :: ⟨.symbol '(', place + 1⟩ ::
    (otherNumber ++ ⟨.symbol ')', end_⟩ :: others), ?_, ?_⟩
  · rw [tokensFrom_mark rfl (Or.inl (by decide)), tokensFrom_mark rfl (Or.inl (by decide)),
      cutOther, tokensFrom_mark rfl (Or.inl (by decide)), foundOthers]
    rfl
  · intro flag
    have alone : signs = 0 ∨ (behind.map Token.lexeme).head?.all (fun next => !next.binds) = true :=
      ownSign.imp_right fun leaves => not_binds_of_leavesSign leaves foundBehind noUnitsBehind
    have whole : Encloses true (signed signs digits ++ behind.map Token.lexeme)
        (within '(' (signed signs digits) ')' ++ others.map Token.lexeme) :=
      .enclosed alone (encloses false)
    simp only [List.map_cons, List.map_append, sameNumber, sameOther]
    refine .same ?_
    have shape : Lexeme.symbol '(' :: (signed signs digits ++
        Lexeme.symbol ')' :: others.map Token.lexeme) =
          within '(' (signed signs digits) ')' ++ others.map Token.lexeme := by
      simp [within]
    rw [shape]
    exact whole

/-- Where all runs stand alone, putting them in parentheses puts their numbers in parentheses.
By induction on the text, in which the token before may still go on: it ends before the next
run. -/
theorem RunsStandAlone.tokensFrom {text : List Char} (alone : RunsStandAlone text) {taken : Nat}
    (inside : taken ≤ (text.takeWhile isOrdinary).length) {position place : Nat}
    {previous before : Option Lexeme} (index : opensIndex previous = opensIndex before)
    {tokens : List Token}
    (cut : tokensFrom taken position previous (writeRuns false false text) = .ok tokens)
    (noUnits : NoUnits tokens) :
    ∃ others, Source.tokensFrom taken place before (writeRuns true false text) = .ok others ∧
      forall behind, Encloses behind (tokens.map Token.lexeme) (others.map Token.lexeme) := by
  induction alone generalizing taken position place previous before tokens with
  | nil =>
      have nothing : forall taken position previous,
          Source.tokensFrom taken position previous [] = .ok [] := by
        intro taken position previous
        cases taken <;> rfl
      cases (nothing taken position previous).symm.trans cut
      exact ⟨[], nothing _ _ _, fun _ => .nil⟩
  | @ordinary c rest other _ inductionHypothesis =>
      rw [writeRuns_ordinary other] at cut ⊢
      cases taken with
      | succ taken =>
          rw [List.takeWhile_cons_of_pos (isOrdinary_iff.mpr other)] at inside
          exact inductionHypothesis (Nat.le_of_succ_le_succ inside) index cut noUnits
      | zero =>
          rcases noUnits.step cut with ⟨noBracket, one⟩
          rw [tokensFrom_cons, ← index, if_neg noBracket, startsWith?_writeRuns]
          cases one with
          | blank starts further noUnits =>
              rw [startsWith?_writeRuns] at starts
              rw [starts]
              exact inductionHypothesis (le_of_startsWith? starts) index further noUnits
          | token starts further noUnitsLater =>
              rw [startsWith?_writeRuns] at starts
              rw [starts]
              rcases inductionHypothesis (le_of_startsWith? starts) rfl further noUnitsLater with
                ⟨behind, same, encloses⟩
              exact ⟨_, map_eq_ok.mpr ⟨behind, same, rfl⟩, encloses_cons rfl encloses⟩
  | @run signs raised digits rest plain written numeric ends ownNumber ownSign _
      inductionHypothesis =>
      have start : taken = 0 := by
        rw [takeWhile_run_nil (map_superscript?_signed signs plain)
          (List.append_ne_nil_of_right_ne_nil _ written)] at inside
        exact Nat.eq_zero_of_le_zero inside
      subst start
      have noIndex : opensIndex (some (.number digits)) = opensIndex (some (.symbol ')')) := rfl
      rw [writeRuns_signed signs plain written ends] at cut ⊢
      exact cut_run written numeric ownNumber ownSign noUnits cut fun found others =>
        inductionHypothesis (Nat.zero_le _) noIndex found others

end

end Source
end QuantityCalculus
