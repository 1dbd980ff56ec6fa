import QuantityCalculus.Proofs.Source.Nesting
import QuantityCalculus.Proofs.Written.Cutting

namespace QuantityCalculus
namespace Source

/-!
# Tokens tile their text

Cutting a text loses nothing but blanks.  What a token may look like is said here once
for each kind, without regard to how it is found, so that it can also be said where no
token starts at all.  The tokens of a text stand one behind the other with only blanks
between them, and each is the piece of the text at its place.

An opening bracket whose content never ends is the one other thing that cutting may meet.
In a prepared text it does not occur: the brackets of such a text are nested, and a
closing bracket behind each opening one is all that is needed, whatever the tokens are.
-/

/-! ## The shapes of tokens -/

/-- The exponent of a number, or nothing. -/
inductive IsExponent : List Char -> Prop
  | none : IsExponent []
  | marked {mark : Char} {signs digits : List Char} (marks : Number.isExponentMark mark = true)
      (signed : signs = [] ∨ ∃ sign, signs = [sign] ∧ Number.isSign sign = true)
      (written : digits ≠ []) (numeric : digits.all Text.isDigit = true) :
      IsExponent (mark :: (signs ++ digits))

/-- Digits, with a point or without, a digit on at least one side of it, and an exponent. -/
inductive IsNumber : List Char -> Prop
  | whole {digits exponent : List Char} (written : digits ≠ [])
      (numeric : digits.all Text.isDigit = true) (scaled : IsExponent exponent) :
      IsNumber (digits ++ exponent)
  | pointed {before after exponent : List Char} (written : before ≠ [] ∨ after ≠ [])
      (numeric : (before ++ after).all Text.isDigit = true) (scaled : IsExponent exponent) :
      IsNumber (before ++ '.' :: (after ++ exponent))

/-- What a lexeme may be. -/
inductive Lexeme.IsToken : Lexeme -> Prop
  | number {spelling : List Char} : IsNumber spelling -> IsToken (.number spelling)
  | name {word : String} : Text.isName word.toList = true -> IsToken (.name word)
  | declare : IsToken .declare
  | symbol {c : Char} : isMark c = true -> IsToken (.symbol c)
  | unit {content : String} : ']' ∉ content.toList -> IsToken (.unit content)

/-- The piece of a text that a lexeme is cut out of: a unit has its brackets around it. -/
def Lexeme.piece : Lexeme -> List Char
  | .unit content => '[' :: (content.toList ++ [']'])
  | lexeme => lexeme.text.toList

@[simp] theorem Lexeme.piece_number (spelling : List Char) :
    (Lexeme.number spelling).piece = spelling :=
  String.toList_ofList

@[simp] theorem Lexeme.piece_name (word : String) : (Lexeme.name word).piece = word.toList :=
  rfl

@[simp] theorem Lexeme.piece_symbol (c : Char) : (Lexeme.symbol c).piece = [c] :=
  String.toList_ofList

/-- No token of any kind stands at the start of the text. -/
def NoToken (text : List Char) : Prop :=
  forall lexeme : Lexeme, lexeme.IsToken -> ¬ lexeme.piece <+: text

/-! ### Numbers -/

theorem leadingDigits_eq_take (text : List Char) :
    Number.leadingDigits text = text.take (Number.leadingDigits text).length :=
  List.prefix_iff_eq_take.mp (List.takeWhile_prefix _)

/-- What is cut out as an exponent has the shape of one. -/
theorem isExponent_take (text : List Char) :
    IsExponent (text.take (Number.exponentLength text)) := by
  cases text with
  | nil => exact .none
  | cons mark rest =>
      have signed : rest.take ((rest.take 1).countP Number.isSign) = [] ∨
          ∃ sign, rest.take ((rest.take 1).countP Number.isSign) = [sign] ∧
            Number.isSign sign = true := by
        cases rest with
        | nil => exact Or.inl rfl
        | cons sign rest =>
            cases signs : Number.isSign sign with
            | false => exact Or.inl (by simp [signs])
            | true => exact Or.inr ⟨sign, by simp [signs], signs⟩
      rw [Number.exponentLength]
      split
      · rename_i marked
        rcases Bool.and_eq_true_iff.mp marked with ⟨marks, written⟩
        rw [Nat.add_assoc, Nat.add_comm 1, List.take_succ_cons, List.take_add,
          ← leadingDigits_eq_take]
        exact .marked marks signed (by simpa using written) (takeWhile_all _ _)
      · exact .none

/-- Digits and a point that are cut out in front of an exponent make up a number with it. -/
theorem isNumber_take_mantissa {text exponent : List Char}
    (found : Number.mantissaLength text ≠ 0) (scaled : IsExponent exponent) :
    IsNumber (text.take (Number.mantissaLength text) ++ exponent) := by
  have digits : (Number.leadingDigits text).all Text.isDigit = true := takeWhile_all _ _
  unfold Number.mantissaLength at *
  dsimp only at *
  split at found
  · rename_i rest behind
    have more : (Number.leadingDigits rest).all Text.isDigit = true := takeWhile_all _ _
    split at found
    · exact absurd rfl found
    · rename_i written
      rw [if_neg written, Nat.add_assoc, Nat.add_comm 1, List.take_add, ← leadingDigits_eq_take,
        behind, List.take_succ_cons, ← leadingDigits_eq_take, List.append_assoc, List.cons_append]
      refine .pointed ?_ ?_ scaled
      · by_cases none : Number.leadingDigits text = []
        · exact Or.inr (by simpa [none] using written)
        · exact Or.inl none
      · rw [List.all_append, digits, more]
        rfl
  · rw [← leadingDigits_eq_take]
    exact .whole (fun empty => found (congrArg List.length empty)) digits scaled

/-- What is cut out as a number has the shape of one. -/
theorem isNumber_take {text : List Char} {length : Nat}
    (found : Number.spellingLength text = length + 1) : IsNumber (text.take (length + 1)) := by
  rw [← found]
  unfold Number.spellingLength at *
  split at found
  · cases found
  · rename_i mantissa counted
    rw [← Nat.succ_eq_add_one, ← counted, List.take_add]
    exact isNumber_take_mantissa (by rw [counted]; exact Nat.succ_ne_zero _) (isExponent_take _)

theorem mantissaLength_digit {c : Char} (digit : Text.isDigit c = true) (rest : List Char) :
    Number.mantissaLength (c :: rest) ≠ 0 := by
  have first : Number.leadingDigits (c :: rest) = c :: Number.leadingDigits rest := by
    simp [Number.leadingDigits, List.takeWhile, digit]
  unfold Number.mantissaLength
  simp only [first, List.isEmpty_cons, Bool.false_and, Bool.false_eq_true, if_false,
    List.length_cons]
  split
  · omega
  · omega

theorem mantissaLength_point {c : Char} (digit : Text.isDigit c = true) (rest : List Char) :
    Number.mantissaLength ('.' :: c :: rest) ≠ 0 := by
  have first : Number.leadingDigits ('.' :: c :: rest) = [] := rfl
  have second : Number.leadingDigits (c :: rest) = c :: Number.leadingDigits rest := by
    simp [Number.leadingDigits, List.takeWhile, digit]
  simp [Number.mantissaLength, first, second]

/-- Where a number stands, one is found. -/
theorem spellingLength_ne_zero {spelling rest : List Char} (isNumber : IsNumber spelling) :
    Number.spellingLength (spelling ++ rest) ≠ 0 := by
  have mantissa : Number.mantissaLength (spelling ++ rest) ≠ 0 := by
    cases isNumber with
    | @whole digits exponent written numeric _ =>
        cases digits with
        | nil => exact absurd rfl written
        | cons c digits => exact mantissaLength_digit (Bool.and_eq_true_iff.mp numeric).1 _
    | @pointed before after exponent written numeric _ =>
        cases before with
        | cons c before => exact mantissaLength_digit (Bool.and_eq_true_iff.mp numeric).1 _
        | nil =>
            cases after with
            | nil => simp at written
            | cons c after => exact mantissaLength_point (Bool.and_eq_true_iff.mp numeric).1 _
  rw [Number.spellingLength]
  split
  · rename_i none
    exact absurd none mantissa
  · omega

/-! ## Cutting one token -/

theorem Lexeme.IsToken.piece_ne_nil {lexeme : Lexeme} (isToken : lexeme.IsToken) :
    lexeme.piece ≠ [] := by
  cases isToken with
  | @number spelling isNumber =>
      rintro empty
      rw [Lexeme.piece_number] at empty
      subst empty
      generalize none : ([] : List Char) = spelling at isNumber
      cases isNumber with
      | whole written _ _ => exact written (List.append_eq_nil_iff.mp none.symm).1
      | pointed _ _ _ => cases (List.append_eq_nil_iff.mp none.symm).2
  | @name word valid =>
      intro empty
      rw [Lexeme.piece_name] at empty
      rw [empty] at valid
      cases valid
  | declare => exact List.cons_ne_nil _ _
  | symbol _ => simp
  | unit _ => exact List.cons_ne_nil _ _

/-- What is cut out at a place is a token, and the piece of the text that stands there. -/
theorem startsWith?_token {c : Char} {rest : List Char} {lexeme : Lexeme} {taken : Nat}
    (starts : startsWith? c rest = some (some lexeme, taken)) :
    lexeme.IsToken ∧ lexeme.piece = c :: rest.take taken := by
  unfold startsWith? at starts
  split at starts
  · rename_i length found
    cases starts
    exact ⟨.number (isNumber_take found), String.toList_ofList⟩
  · dsimp only at starts
    split at starts
    · rename_i start
      cases starts
      have tail : rest.take (rest.takeWhile Text.isNameCharacter).length =
          rest.takeWhile Text.isNameCharacter :=
        (List.prefix_iff_eq_take.mp (List.takeWhile_prefix _)).symm
      rw [tail]
      refine ⟨.name ?_, String.toList_ofList⟩
      rw [String.toList_ofList, Text.isName, start, Bool.true_and]
      exact takeWhile_all Text.isNameCharacter rest
    · split at starts
      · rename_i declares
        cases starts
        rcases Bool.and_eq_true_iff.mp declares with ⟨colon, equals⟩
        cases of_decide_eq_true colon
        cases rest with
        | nil => cases equals
        | cons d rest =>
            have same : d = '=' := by simpa using equals
            subst same
            exact ⟨.declare, rfl⟩
      · split at starts
        · rename_i mark
          cases starts
          exact ⟨.symbol mark, String.toList_ofList⟩
        · split at starts <;> cases starts

/-- What is cut out as no token is a single blank. -/
theorem startsWith?_blank {c : Char} {rest : List Char} {taken : Nat}
    (starts : startsWith? c rest = some (none, taken)) : Text.isBlank c = true ∧ taken = 0 := by
  unfold startsWith? at starts
  split at starts
  · cases starts
  · dsimp only at starts
    split at starts
    · cases starts
    · split at starts
      · cases starts
      · split at starts
        · cases starts
        · split at starts
          · rename_i blank
            cases starts
            exact ⟨blank, rfl⟩
          · cases starts

/-- Where nothing can be cut out, no token stands. -/
theorem noToken_of_startsWith? {c : Char} {rest : List Char} (none : startsWith? c rest = none) :
    NoToken (c :: rest) := by
  unfold startsWith? at none
  split at none
  · cases none
  · rename_i noNumber
    dsimp only at none
    split at none
    · cases none
    · rename_i noName
      split at none
      · cases none
      · rename_i noDeclaration
        split at none
        · cases none
        · rename_i noMark
          intro lexeme isToken starts
          rcases starts with ⟨behind, same⟩
          cases isToken with
          | number isNumber =>
              rw [Lexeme.piece_number] at same
              exact spellingLength_ne_zero isNumber (same ▸ noNumber)
          | @name word valid =>
              rw [Lexeme.piece_name] at same
              cases characters : word.toList with
              | nil =>
                  rw [characters] at valid
                  cases valid
              | cons d others =>
                  rw [characters] at valid same
                  cases (List.cons.inj same).1
                  exact noName (Bool.and_eq_true_iff.mp valid).1
          | declare =>
              cases same
              exact noDeclaration rfl
          | symbol mark =>
              rw [Lexeme.piece_symbol] at same
              cases (List.cons.inj same).1
              exact noMark mark
          | unit _ =>
              cases (List.cons.inj same).1
              exact noMark rfl

/-! ## Cutting a text -/

/-- The tokens stand one behind the other, with nothing but blanks between them. -/
inductive Tiles : Nat -> List Char -> List Token -> Prop
  | nil {position : Nat} : Tiles position [] []
  | blank {position : Nat} {c : Char} {rest : List Char} {tokens : List Token}
      (blank : Text.isBlank c = true) :
      Tiles (position + 1) rest tokens -> Tiles position (c :: rest) tokens
  | token {position : Nat} {lexeme : Lexeme} {rest : List Char} {tokens : List Token}
      (isToken : lexeme.IsToken) : Tiles (position + lexeme.piece.length) rest tokens ->
      Tiles position (lexeme.piece ++ rest) (⟨lexeme, position⟩ :: tokens)

/-- What may come of cutting a text from a position on. -/
inductive Cut (position : Nat) (text : List Char) : Except Failure (List Token) -> Prop
  | tiled {tokens : List Token} (tiles : Tiles position text tokens) :
      Cut position text (.ok tokens)
  /-- A character with which no token starts. -/
  | stray {before : List Char} {c : Char} {after : List Char} (split : text = before ++ c :: after)
      (noToken : NoToken (c :: after)) :
      Cut position text (.error (.invalidCharacter c (position + before.length)))
  /-- A bracket that nothing behind it closes. -/
  | unterminated {before after : List Char} (split : text = before ++ '[' :: after)
      (never : ']' ∉ after) :
      Cut position text (.error (.unterminatedUnit (position + before.length)))

/-- A failure of the rest of a text is one of the whole, and so are its tokens behind one more. -/
theorem Cut.behind {position : Nat} {piece rest : List Char} {result : Except Failure (List Token)}
    (cut : Cut (position + piece.length) rest result) {extend : List Token -> List Token}
    (tiles : forall tokens, Tiles (position + piece.length) rest tokens ->
      Tiles position (piece ++ rest) (extend tokens)) :
    Cut position (piece ++ rest) (result.map extend) := by
  have place : forall before : List Char,
      position + piece.length + before.length = position + (piece ++ before).length := by
    intro before
    rw [List.length_append, Nat.add_assoc]
  cases cut with
  | tiled found => exact .tiled (tiles _ found)
  | stray split noToken =>
      rw [split, ← List.append_assoc, place]
      exact .stray rfl noToken
  | unterminated split never =>
      rw [split, ← List.append_assoc, place]
      exact .unterminated rfl never

/-- A piece in front of what is cut into tokens. -/
theorem Cut.cons {position : Nat} {c : Char} {run behind : List Char} {lexeme : Lexeme}
    {result : Except Failure (List Token)} (isToken : lexeme.IsToken)
    (piece : lexeme.piece = c :: run) (cut : Cut (position + 1 + run.length) behind result) :
    Cut position (c :: (run ++ behind)) (result.map (⟨lexeme, position⟩ :: ·)) := by
  have place : position + 1 + run.length = position + lexeme.piece.length := by
    rw [piece, List.length_cons]
    omega
  rw [← List.cons_append, ← piece]
  rw [place] at cut
  exact cut.behind fun _ tiles => .token isToken tiles

/-- The content of a bracket goes up to the first closing bracket, or to the end. -/
theorem content_cases (rest : List Char) :
    (']' ∉ rest ∧ rest.takeWhile (· != ']') = rest) ∨
      ∃ behind, rest = rest.takeWhile (· != ']') ++ [']'] ++ behind ∧
        ']' ∉ rest.takeWhile (· != ']') := by
  have run : forall content : List Char, ']' ∉ content -> content.all (· != ']') = true := by
    intro content inside
    rw [List.all_eq_true]
    intro c member
    rw [bne_iff_ne]
    rintro rfl
    exact inside member
  by_cases closes : ']' ∈ rest
  · rcases List.eq_append_cons_of_mem closes with ⟨content, behind, rfl, inside⟩
    have cut : (content ++ ']' :: behind).takeWhile (· != ']') = content :=
      (takeWhile_run (run content inside) rfl).1
    rw [cut]
    exact Or.inr ⟨behind, List.append_cons _ _ _, inside⟩
  · have alone := (takeWhile_run (run rest closes) (rfl : ([] : List Char).head?.all _ = true)).1
    rw [List.append_nil] at alone
    exact Or.inl ⟨closes, alone⟩

/-- Whatever belongs to the token before, the rest is cut into tokens.  By induction on the
text. -/
theorem cut_tokensFrom (taken position : Nat) (previous : Option Lexeme) (text : List Char) :
    Cut (position + (text.take taken).length) (text.drop taken)
      (tokensFrom taken position previous text) := by
  induction text generalizing taken position previous with
  | nil =>
      have whole : tokensFrom taken position previous [] = .ok [] := by cases taken <;> rfl
      rw [whole, List.drop_nil]
      exact .tiled .nil
  | cons c rest inductionHypothesis =>
      cases taken with
      | succ taken =>
          have later := inductionHypothesis taken (position + 1) previous
          rw [List.take_succ_cons, List.length_cons, Nat.add_comm (rest.take taken).length,
            ← Nat.add_assoc]
          exact later
      | zero =>
          rw [tokensFrom_cons]
          split
          · rename_i bracket
            cases of_decide_eq_true (Bool.and_eq_true_iff.mp bracket).1
            dsimp only
            rcases content_cases rest with ⟨never, whole⟩ | ⟨behind, split, inside⟩
            · have start : '[' :: rest = [] ++ '[' :: rest := rfl
              rw [if_pos (congrArg List.length whole)]
              exact .unterminated start never
            · generalize rest.takeWhile (· != ']') = content at *
              have longer : ¬ content.length = rest.length := by
                rw [split, List.length_append, List.length_append, List.length_singleton]
                omega
              have closed : rest.take (content.length + 1) = content ++ [']'] := by
                rw [split, List.take_append_of_le_length (by simp)]
                exact List.take_of_length_le (by simp)
              have piece : (Lexeme.unit (String.ofList content)).piece =
                  '[' :: rest.take (content.length + 1) := by
                rw [Lexeme.piece, String.toList_ofList, closed]
              have later := inductionHypothesis (content.length + 1) (position + 1)
                (some (.unit (String.ofList content)))
              have whole := later.cons (.unit (by rwa [String.toList_ofList])) piece
              rw [List.take_append_drop] at whole
              rwa [if_neg longer]
          · split
            · rename_i none
              have split : c :: rest = [] ++ c :: rest := rfl
              exact .stray split (noToken_of_startsWith? none)
            · rename_i taken starts
              rcases startsWith?_blank starts with ⟨blank, rfl⟩
              have later : Cut (position + [c].length) rest _ :=
                inductionHypothesis 0 (position + 1) previous
              have whole : Cut position ([c] ++ rest) (Except.map id _) :=
                later.behind fun _ tiles => .blank blank tiles
              rwa [Except.map_id] at whole
            · rename_i lexeme taken starts
              rcases startsWith?_token starts with ⟨isToken, piece⟩
              have later := inductionHypothesis taken (position + 1) (some lexeme)
              have whole := later.cons isToken piece
              rwa [List.take_append_drop] at whole

/-! ## What a tiling says -/

/-- The tokens of a text leave out nothing but its blanks. -/
structure Lossless (text : List Char) (tokens : List Token) : Prop where
  /-- The places of the tokens increase, and the last place is the end of the text. -/
  ordered : (tokens.map Token.position ++ [text.length]).Pairwise (· < ·)
  /-- Each token is the piece of the text at its place. -/
  pieces : forall token, token ∈ tokens ->
    token.lexeme.IsToken ∧ token.lexeme.piece <+: text.drop token.position
  /-- Each character is a blank or belongs to a token. -/
  covered : forall position c, text[position]? = some c -> Text.isBlank c = true ∨
    ∃ token, token ∈ tokens ∧ token.position ≤ position ∧
      position < token.position + token.lexeme.piece.length

section

variable {position : Nat} {text : List Char} {tokens : List Token}

theorem Tiles.within (tiles : Tiles position text tokens) :
    forall token, token ∈ tokens ->
      position ≤ token.position ∧ token.position < position + text.length := by
  induction tiles with
  | nil => exact nofun
  | blank _ _ inductionHypothesis =>
      intro token member
      have inside := inductionHypothesis token member
      rw [List.length_cons]
      omega
  | token isToken _ inductionHypothesis =>
      intro token member
      have written := List.length_pos_iff.mpr isToken.piece_ne_nil
      rw [List.length_append]
      rcases List.mem_cons.mp member with rfl | later
      · dsimp only
        omega
      · have inside := inductionHypothesis token later
        omega

theorem Tiles.ordered (tiles : Tiles position text tokens) :
    (tokens.map Token.position ++ [position + text.length]).Pairwise (· < ·) := by
  induction tiles with
  | nil => exact List.pairwise_singleton _ _
  | blank _ _ inductionHypothesis =>
      rwa [List.length_cons, Nat.add_comm _ 1, ← Nat.add_assoc]
  | token isToken tiles inductionHypothesis =>
      have written := List.length_pos_iff.mpr isToken.piece_ne_nil
      rw [List.length_append, ← Nat.add_assoc, List.map_cons, List.cons_append]
      refine List.pairwise_cons.mpr ⟨fun place member => ?_, inductionHypothesis⟩
      rcases List.mem_append.mp member with earlier | last
      · rcases List.mem_map.mp earlier with ⟨token, inside, rfl⟩
        have after := (tiles.within token inside).1
        dsimp only
        omega
      · have place := List.mem_singleton.mp last
        dsimp only
        omega

/-- A place behind a piece is one of the rest. -/
theorem drop_behind (piece rest : List Char) {position place : Nat}
    (later : position + piece.length ≤ place) :
    (piece ++ rest).drop (place - position) = rest.drop (place - (position + piece.length)) := by
  rw [List.drop_append, List.drop_eq_nil_of_le (by omega), List.nil_append]
  congr 1
  omega

theorem Tiles.pieces (tiles : Tiles position text tokens) :
    forall token, token ∈ tokens ->
      token.lexeme.IsToken ∧ token.lexeme.piece <+: text.drop (token.position - position) := by
  induction tiles with
  | nil => exact nofun
  | @blank _ c rest _ _ tiles inductionHypothesis =>
      intro token member
      have later := (tiles.within token member).1
      rw [← List.singleton_append, drop_behind [c] rest later]
      exact inductionHypothesis token member
  | @token position lexeme rest _ isToken tiles inductionHypothesis =>
      intro token member
      rcases List.mem_cons.mp member with rfl | inside
      · rw [Nat.sub_self, List.drop_zero]
        exact ⟨isToken, List.prefix_append _ _⟩
      · have later := (tiles.within token inside).1
        rw [drop_behind lexeme.piece rest later]
        exact inductionHypothesis token inside

theorem Tiles.covered (tiles : Tiles position text tokens) :
    forall place c, text[place]? = some c -> Text.isBlank c = true ∨
      ∃ token, token ∈ tokens ∧ token.position ≤ position + place ∧
        position + place < token.position + token.lexeme.piece.length := by
  induction tiles with
  | nil => exact nofun
  | blank blank _ inductionHypothesis =>
      intro place c found
      cases place with
      | zero =>
          cases found
          exact Or.inl blank
      | succ place =>
          rw [show forall start, start + (place + 1) = start + 1 + place by omega]
          exact inductionHypothesis place c found
  | @token position lexeme rest _ _ _ inductionHypothesis =>
      intro place c found
      by_cases within : place < lexeme.piece.length
      · exact Or.inr ⟨_, List.mem_cons_self, Nat.le_add_right _ _, Nat.add_lt_add_left within _⟩
      · have behind := Nat.le_of_not_lt within
        rw [List.getElem?_append_right behind] at found
        refine (inductionHypothesis _ c found).imp_right ?_
        rintro ⟨token, inside, first, last⟩
        exact ⟨token, List.mem_cons_of_mem _ inside, by omega, by omega⟩

end

theorem Tiles.lossless {text : List Char} {tokens : List Token} (tiles : Tiles 0 text tokens) :
    Lossless text tokens where
  ordered := by
    have ordered := tiles.ordered
    rwa [Nat.zero_add] at ordered
  pieces := tiles.pieces
  covered := fun place c found => by
    have covered := tiles.covered place c found
    rwa [Nat.zero_add] at covered

/-! ## Prepared texts -/

/-- In a prepared text every bracket that is opened is closed. -/
theorem prepared_closes {source text before after : List Char} (prepared : prepare source = .ok text)
    (split : text = before ++ '[' :: after) : ']' ∈ after := by
  have noFault := (prepare_eq_ok_iff.mp prepared).2.2.2
  have start : Opens [] [] := .nested .nil
  have nested := (start.search text).1 noFault
  rcases Nested.closes nested split rfl with ⟨inside, rest, rfl, _⟩
  exact List.mem_append_right _ List.mem_cons_self

/-- Cutting a text into tokens loses nothing but blanks, and a prepared text is cut into
tokens unless it has a character with which no token starts. -/
theorem tokenize_lossless :
    (forall text tokens, tokenize text = .ok tokens -> Lossless text tokens) ∧
      forall source text, prepare source = .ok text ->
        (∃ tokens, tokenize text = .ok tokens) ∨
          ∃ before c after, text = before ++ c :: after ∧ NoToken (c :: after) ∧
            tokenize text = .error (.invalidCharacter c before.length) := by
  have cut : forall text, Cut 0 text (tokenize text) := by
    intro text
    have whole := cut_tokensFrom 0 0 none text
    exact whole
  constructor
  · intro text tokens succeeded
    have tiled := cut text
    rw [succeeded] at tiled
    cases tiled with
    | tiled tiles => exact tiles.lossless
  · intro source text prepared
    have result := cut text
    generalize tokenize text = outcome at result ⊢
    cases result with
    | tiled _ => exact Or.inl ⟨_, rfl⟩
    | @stray before c after split noToken =>
        rw [Nat.zero_add]
        exact Or.inr ⟨before, c, after, split, noToken, rfl⟩
    | unterminated split never => exact absurd (prepared_closes prepared split) never

/-- The tokens of `3 [a[b]c]`: the content of the unit ends at the first closing bracket. -/
def bracketInUnitTokens : List Token :=
  [⟨.number ['3'], 0⟩, ⟨.unit "a[b", 2⟩, ⟨.name "c", 7⟩, ⟨.symbol ']', 8⟩]

theorem tokenize_lossless_bracketInUnit :
    tokenize "3 [a[b]c]".toList = .ok bracketInUnitTokens ∧
      Lossless "3 [a[b]c]".toList bracketInUnitTokens ∧
      prepare "2 # 3".toList = .ok "2 # 3".toList ∧
      ∃ before c after, "2 # 3".toList = before ++ c :: after ∧ NoToken (c :: after) ∧
        tokenize "2 # 3".toList = .error (.invalidCharacter c before.length) := by
  have cut : tokenize "3 [a[b]c]".toList = .ok bracketInUnitTokens :=
    eq_ok_of_toOption (by decide +kernel)
  have prepared : prepare "2 # 3".toList = .ok "2 # 3".toList :=
    eq_ok_of_toOption (by decide +kernel)
  refine ⟨cut, tokenize_lossless.1 _ _ cut, prepared, ?_⟩
  rcases tokenize_lossless.2 _ _ prepared with ⟨tokens, succeeded⟩ | stray
  · have failed : (tokenize "2 # 3".toList).toOption = none := by decide +kernel
    rw [succeeded] at failed
    cases failed
  · exact stray

end Source
end QuantityCalculus
