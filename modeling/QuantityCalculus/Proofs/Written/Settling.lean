import QuantityCalculus.Proofs.Grammar.Descriptor
import QuantityCalculus.Source.Prepared
import QuantityCalculus.Text.Identifier

namespace QuantityCalculus
namespace Source

/-!
# Texts that preparation leaves alone

Preparation replaces signs, and three of its passes look at more than one
character.  What a text must satisfy so that nothing is replaced can still be
said from right to left: no character has a plain form, and behind a root sign
stands neither a parenthesis nor an operand, blanks aside.  This is `Settled`,
and it holds of exactly the texts that the replacements leave alone.

A text is made of parts, and what is wanted of a part is that it may stand in
front of any settled text, or inside any brackets.  In this form the conditions
pass from parts to the whole by themselves.
-/

/-- What may stand behind a root sign without being taken into a call. -/
def isQuiet (text : List Char) : Bool :=
  text.head?.all fun c => c != '(' && !isRootOperand c

/-- Nothing in the text is replaced by preparation. -/
def Settled : List Char -> Prop
  | [] => True
  | c :: rest =>
      plainOperator c = c ∧ superscript? c = none ∧
        (c = rootSign -> isQuiet (Text.trimStart rest) = true) ∧ Settled rest

/-! ## The passes one by one -/

theorem Settled.map_plainOperator {text : List Char} (settled : Settled text) :
    text.map plainOperator = text := by
  induction text with
  | nil => rfl
  | cons c rest inductionHypothesis =>
      rw [List.map_cons, settled.1, inductionHypothesis settled.2.2.2]

theorem Settled.lowerSuperscripts {text : List Char} (settled : Settled text) :
    lowerSuperscripts false text = text := by
  induction text with
  | nil => rfl
  | cons c rest inductionHypothesis =>
      simp only [Source.lowerSuperscripts, settled.2.1]
      rw [inductionHypothesis settled.2.2.2]

/-- A root sign is taken into a call in front of a parenthesis. -/
theorem nameRootCalls_cons (c : Char) (rest : List Char) :
    nameRootCalls 0 (c :: rest) =
      if c = rootSign && (Text.trimStart rest).head? == some '(' then
        "sqrt(".toList ++ nameRootCalls ((rest.takeWhile Text.isBlank).length + 1) rest
      else c :: nameRootCalls 0 rest := by
  rw [nameRootCalls, Text.trimStart, ← drop_length_takeWhile]

/-- A root sign is taken into a call in front of an operand. -/
theorem nameRootOperands_cons (c : Char) (rest : List Char) :
    nameRootOperands 0 (c :: rest) =
      if c = rootSign && !((Text.trimStart rest).takeWhile isRootOperand).isEmpty then
        "sqrt(".toList ++ (Text.trimStart rest).takeWhile isRootOperand ++
          ')' :: nameRootOperands ((rest.takeWhile Text.isBlank).length +
            ((Text.trimStart rest).takeWhile isRootOperand).length) rest
      else c :: nameRootOperands 0 rest := by
  rw [nameRootOperands, Text.trimStart, ← drop_length_takeWhile]

/-- The two conditions on a root sign together. -/
theorem isQuiet_iff (text : List Char) :
    isQuiet text = true <->
      (text.head? == some '(') = false ∧ (text.takeWhile isRootOperand).isEmpty = true := by
  cases text with
  | nil => simp [isQuiet]
  | cons c rest =>
      cases operand : isRootOperand c <;> simp [isQuiet, List.takeWhile, operand]

theorem Settled.nameRootCalls {text : List Char} (settled : Settled text) :
    nameRootCalls 0 text = text := by
  induction text with
  | nil => rfl
  | cons c rest inductionHypothesis =>
      have kept : ¬ (decide (c = rootSign) && (Text.trimStart rest).head? == some '(') = true := by
        intro taken
        rcases Bool.and_eq_true_iff.mp taken with ⟨root, opens⟩
        have quiet := settled.2.2.1 (of_decide_eq_true root)
        rw [((isQuiet_iff _).mp quiet).1] at opens
        cases opens
      rw [nameRootCalls_cons, if_neg kept, inductionHypothesis settled.2.2.2]

theorem Settled.nameRootOperands {text : List Char} (settled : Settled text) :
    nameRootOperands 0 text = text := by
  induction text with
  | nil => rfl
  | cons c rest inductionHypothesis =>
      have kept : ¬ (decide (c = rootSign) &&
          !((Text.trimStart rest).takeWhile isRootOperand).isEmpty) = true := by
        intro taken
        rcases Bool.and_eq_true_iff.mp taken with ⟨root, operand⟩
        have quiet := settled.2.2.1 (of_decide_eq_true root)
        rw [((isQuiet_iff _).mp quiet).2] at operand
        cases operand
      rw [nameRootOperands_cons, if_neg kept, inductionHypothesis settled.2.2.2]

theorem Settled.plainSigns {text : List Char} (settled : Settled text) :
    plainSigns text = text := by
  rw [Source.plainSigns, settled.map_plainOperator, settled.lowerSuperscripts,
    settled.nameRootCalls, settled.nameRootOperands]

/-- What the passes over root signs make of a first character: they keep it, and go on behind
it, unless it is a root sign that starts a call. -/
theorem rootPasses_cons (c : Char) (rest : List Char) :
    (c = rootSign ∧ (nameRootOperands 0 (nameRootCalls 0 (c :: rest))).head? = some 's') ∨
      (nameRootOperands 0 (nameRootCalls 0 (c :: rest)) =
          c :: nameRootOperands 0 (nameRootCalls 0 rest) ∧
        (c = rootSign -> ((Text.trimStart rest).head? == some '(') = false ∧
          ((Text.trimStart (nameRootCalls 0 rest)).takeWhile isRootOperand).isEmpty = true)) := by
  rw [nameRootCalls_cons]
  split
  · rename_i taken
    refine Or.inl ⟨of_decide_eq_true (Bool.and_eq_true_iff.mp taken).1, ?_⟩
    rw [show "sqrt(".toList = 's' :: "qrt(".toList from rfl, List.cons_append,
      nameRootOperands_cons, if_neg (by simp [show ¬ 's' = rootSign by decide])]
    rfl
  · rename_i noCall
    rw [nameRootOperands_cons]
    split
    · rename_i taken
      exact Or.inl ⟨of_decide_eq_true (Bool.and_eq_true_iff.mp taken).1, rfl⟩
    · rename_i noOperand
      refine Or.inr ⟨rfl, ?_⟩
      rintro rfl
      simpa using And.intro noCall noOperand

/-- The replacements leave exactly the settled texts alone.  By induction on the text: a
character that is replaced at all is replaced by a different one. -/
theorem plainSigns_eq_self_iff (text : List Char) : plainSigns text = text <-> Settled text := by
  refine ⟨?_, Settled.plainSigns⟩
  induction text with
  | nil => exact fun _ => trivial
  | cons c rest inductionHypothesis =>
      intro same
      rw [plainSigns, List.map_cons] at same
      cases raised : superscript? (plainOperator c) with
      | some digit =>
          -- A run of superscripts starts with the sign of a power, which is no superscript.
          rw [lowerSuperscripts] at same
          simp only [raised, Bool.false_eq_true, if_false] at same
          rcases rootPasses_cons '^' (digit :: lowerSuperscripts true (rest.map plainOperator)) with
            ⟨impossible, _⟩ | ⟨kept, _⟩
          · cases impossible
          · rw [kept] at same
            cases (List.cons.inj same).1
            cases raised
      | none =>
          rw [lowerSuperscripts] at same
          simp only [raised] at same
          rcases rootPasses_cons (plainOperator c) (lowerSuperscripts false
            (rest.map plainOperator)) with ⟨root, replaced⟩ | ⟨kept, quiet⟩
          · rw [same] at replaced
            cases replaced
            cases root
          · rw [kept] at same
            rcases List.cons.inj same with ⟨plain, remaining⟩
            have settled := inductionHypothesis remaining
            rw [plain] at raised quiet
            refine ⟨plain, raised, ?_, settled⟩
            intro root
            rw [settled.map_plainOperator, settled.lowerSuperscripts,
              settled.nameRootCalls] at quiet
            exact (isQuiet_iff _).mpr ⟨(quiet root).1, (quiet root).2⟩

/-! ## Parts of a text -/

/-- The text may stand in front of any settled text. -/
def Settles (text : List Char) : Prop :=
  forall rest, Settled rest -> Settled (text ++ rest)

theorem Settles.settled {text : List Char} (settles : Settles text) : Settled text := by
  have alone := settles [] trivial
  rwa [List.append_nil] at alone

theorem Settles.append {text more : List Char} (first : Settles text) (second : Settles more) :
    Settles (text ++ more) := by
  intro rest settled
  rw [List.append_assoc]
  exact first _ (second _ settled)

theorem settles_nil : Settles [] :=
  fun _ settled => settled

/-- All replaced characters lie outside of ASCII. -/
theorem ascii_plain {c : Char} (ascii : c.toNat < 128) :
    plainOperator c = c ∧ superscript? c = none ∧ c ≠ rootSign := by
  rcases Text.exists_ascii ascii with ⟨code, rfl⟩
  clear ascii
  revert code
  decide +kernel

theorem settles_ascii {text : List Char} (ascii : forall c, c ∈ text -> c.toNat < 128) :
    Settles text := by
  intro rest settled
  induction text with
  | nil => exact settled
  | cons c text inductionHypothesis =>
      rcases ascii_plain (ascii c List.mem_cons_self) with ⟨plain, notRaised, notRoot⟩
      exact ⟨plain, notRaised, fun root => absurd root notRoot,
        inductionHypothesis fun d member => ascii d (List.mem_cons_of_mem c member)⟩

theorem settles_cons {c : Char} (ascii : c.toNat < 128) {text : List Char}
    (settles : Settles text) : Settles (c :: text) := by
  have first : Settles [c] := settles_ascii (by simpa using ascii)
  exact first.append settles

/-- A settled symbol may stand in a bracket: what closes it, or asks for a cast, is quiet. -/
theorem settles_symbol {symbol : List Char} (settled : Settled symbol)
    (symbolic : symbol.all isUnitCharacter = true) {last : Char}
    (closes : last = ']' ∨ last = '?') : Settles (symbol ++ [last]) := by
  have quiet : forall rest, isQuiet (Text.trimStart (last :: rest)) = true := by
    intro rest
    rcases closes with rfl | rfl <;> rfl
  have ascii : last.toNat < 128 := by
    rcases closes with rfl | rfl <;> decide
  intro rest settledRest
  induction symbol with
  | nil => exact settles_cons ascii settles_nil rest settledRest
  | cons c symbol inductionHypothesis =>
      rcases settled with ⟨plain, notRaised, root, later⟩
      rcases Bool.and_eq_true_iff.mp symbolic with ⟨_, others⟩
      refine ⟨plain, notRaised, ?_, inductionHypothesis later others⟩
      intro same
      cases symbol with
      | nil => exact quiet rest
      | cons d symbol =>
          have noBlank := not_isBlank_of_isUnitCharacter (Bool.and_eq_true_iff.mp others).1
          have here := root same
          simpa [Text.trimStart, List.dropWhile, noBlank, isQuiet] using here

/-! ## Brackets -/

/-- The text leaves the brackets that are open around it as they are. -/
def Balances (text : List Char) : Prop :=
  forall waiting position rest, faultFrom? waiting position (text ++ rest) =
    faultFrom? waiting (position + text.length) rest

theorem balances_nil : Balances [] :=
  fun _ _ _ => rfl

theorem Balances.append {text more : List Char} (first : Balances text) (second : Balances more) :
    Balances (text ++ more) := by
  intro waiting position rest
  rw [List.append_assoc, first, second, List.length_append, Nat.add_assoc]

theorem Balances.noFault {text : List Char} (balances : Balances text) :
    bracketFault? text = none := by
  have whole := balances [] 0 []
  rw [List.append_nil] at whole
  exact whole

theorem faultFrom?_cons (waiting : List (Char × Nat)) (position : Nat) (c : Char)
    (rest : List Char) :
    faultFrom? waiting position (c :: rest) =
      match closing? c with
      | some close => faultFrom? ((close, position) :: waiting) (position + 1) rest
      | none =>
          if isClosing c then
            match waiting with
            | [] => some position
            | (close, _) :: waiting =>
                if c = close then faultFrom? waiting (position + 1) rest else some position
          else faultFrom? waiting (position + 1) rest :=
  rfl

/-- A character that is no bracket. -/
theorem balances_cons {c : Char} (opens : closing? c = none) (closes : isClosing c = false)
    {text : List Char} (balances : Balances text) : Balances (c :: text) := by
  intro waiting position rest
  rw [List.cons_append, faultFrom?_cons, opens]
  simp only [closes, Bool.false_eq_true, if_false]
  rw [balances, List.length_cons]
  congr 1
  omega

/-- A text in a pair of brackets. -/
theorem Balances.enclosed {left right : Char} {text : List Char} (balances : Balances text)
    (pair : closing? left = some right) (noOpening : closing? right = none)
    (closes : isClosing right = true) : Balances (left :: (text ++ [right])) := by
  intro waiting position rest
  rw [List.cons_append, List.append_assoc, faultFrom?_cons, pair]
  simp only
  rw [balances, List.singleton_append, faultFrom?_cons, noOpening]
  simp only [closes, if_true, List.length_cons, List.length_append, List.length_nil]
  congr 1
  omega

/-- A text without fault balances wherever it stands.  By induction on the text, with the
brackets that it has opened itself still open. -/
theorem faultFrom?_append {own others : List (Char × Nat)} {place : Nat} {text : List Char}
    (noFault : faultFrom? own place text = none)
    (same : others.map Prod.fst = own.map Prod.fst) (waiting : List (Char × Nat)) (position : Nat)
    (rest : List Char) :
    faultFrom? (others ++ waiting) position (text ++ rest) =
      faultFrom? waiting (position + text.length) rest := by
  induction text generalizing own others place position with
  | nil =>
      have closed : own = [] := by
        cases own with
        | nil => rfl
        | cons head own => simp [faultFrom?] at noFault
      subst closed
      cases List.map_eq_nil_iff.mp same
      rfl
  | cons c text inductionHypothesis =>
      rw [List.cons_append, List.length_cons,
        show position + (text.length + 1) = position + 1 + text.length by omega]
      rw [faultFrom?_cons] at noFault ⊢
      cases opening : closing? c with
      | some close =>
          simp only [opening] at noFault ⊢
          have opened : ((close, position) :: others).map Prod.fst =
              ((close, place) :: own).map Prod.fst :=
            congrArg (close :: ·) same
          exact inductionHypothesis noFault opened (position + 1)
      | none =>
          simp only [opening] at noFault ⊢
          cases closes : isClosing c
          · simp only [closes, Bool.false_eq_true, if_false] at noFault ⊢
            exact inductionHypothesis noFault same (position + 1)
          · simp only [closes, if_true] at noFault ⊢
            cases own with
            | nil => cases noFault
            | cons head own =>
                cases others with
                | nil => cases same
                | cons other others =>
                    -- The innermost open bracket is the text's own, so what waits outside is
                    -- not reached.
                    rcases head with ⟨close, opened⟩
                    rcases other with ⟨otherClose, otherOpened⟩
                    simp only [List.map_cons, List.cons.injEq] at same
                    rcases same with ⟨rfl, same⟩
                    simp only [List.cons_append] at noFault ⊢
                    split at noFault
                    · rename_i fits
                      rw [if_pos fits]
                      exact inductionHypothesis noFault same (position + 1)
                    · cases noFault

theorem balances_of_noFault {text : List Char} (noFault : bracketFault? text = none) :
    Balances text :=
  faultFrom?_append noFault (rfl : ([] : List (Char × Nat)).map Prod.fst = [])

/-! ## The whole text -/

theorem trimStart_of_head {text : List Char}
    (starts : forall c, c ∈ text.head? -> Text.isBlank c = false) : Text.trimStart text = text := by
  cases text with
  | nil => rfl
  | cons c rest => simp [Text.trimStart, starts c rfl]

theorem trimEnd_of_last {text : List Char}
    (ends : forall c, c ∈ text.getLast? -> Text.isBlank c = false) : Text.trimEnd text = text := by
  rw [Text.trimEnd]
  cases reversed : text.reverse with
  | nil => exact (List.reverse_eq_nil_iff.mp reversed).symm
  | cons c rest =>
      have last : text.getLast? = some c := by
        rw [← List.head?_reverse, reversed]
        rfl
      rw [List.dropWhile_cons_of_neg (Bool.eq_false_iff.mp (ends c last)), ← reversed,
        List.reverse_reverse]

/-- A text without blanks around it keeps its ends. -/
theorem trim_eq_self {text : List Char}
    (starts : forall c, c ∈ text.head? -> Text.isBlank c = false)
    (ends : forall c, c ∈ text.getLast? -> Text.isBlank c = false) : Text.trim text = text := by
  rw [Text.trim, trimStart_of_head starts, trimEnd_of_last ends]

/-- A text that starts and ends with something, and not with a prompt, is bare. -/
theorem bare_eq_self {text : List Char}
    (starts : forall c, c ∈ text.head? -> Text.isBlank c = false ∧ c ≠ '>')
    (ends : forall c, c ∈ text.getLast? -> Text.isBlank c = false) : bare text = text := by
  have noPrompt : text.take 3 ≠ prompt := by
    cases text with
    | nil => exact nofun
    | cons c rest =>
        intro same
        exact (starts c rfl).2 (List.cons.inj same).1
  rw [bare, trim_eq_self (fun c first => (starts c first).1) ends, if_neg noPrompt]

/-- A text can be prepared if something is left of it, not too much, with balanced brackets. -/
theorem prepare_eq_ok_iff {source text : List Char} :
    prepare source = .ok text <->
      bare source ≠ [] ∧ (bare source).length ≤ lengthLimit ∧
        plainSigns (bare source) = text ∧ bracketFault? text = none := by
  unfold prepare
  dsimp only
  split
  · rename_i empty
    exact iff_of_false nofun fun parts => parts.1 (List.isEmpty_iff.mp empty)
  · rename_i written
    have something : bare source ≠ [] := fun none => written (List.isEmpty_iff.mpr none)
    split
    · rename_i long
      exact iff_of_false nofun fun parts => Nat.not_lt_of_le parts.2.1 long
    · rename_i short
      cases fault : bracketFault? (plainSigns (bare source)) with
      | some position =>
          refine iff_of_false nofun ?_
          rintro ⟨_, _, rfl, balanced⟩
          rw [fault] at balanced
          cases balanced
      | none =>
          constructor
          · rintro ⟨⟩
            exact ⟨something, Nat.le_of_not_lt short, rfl, fault⟩
          · rintro ⟨_, _, rfl, _⟩
            rfl

/-- A settled, balanced and bare text is its own prepared form, if it is not too long. -/
theorem prepare_eq_self {text : List Char} (written : text ≠ []) (bareText : bare text = text)
    (settled : Settled text) (balances : Balances text) (short : text.length ≤ lengthLimit) :
    prepare text = .ok text := by
  rw [prepare_eq_ok_iff, bareText]
  exact ⟨written, short, settled.plainSigns, balances.noFault⟩

end Source
end QuantityCalculus
