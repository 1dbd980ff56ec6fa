import QuantityCalculus.Proofs.Written.Settling

namespace QuantityCalculus
namespace Source

/-!
# Nested brackets

Which texts have their brackets in order can be said without any search for a fault.
Without its other characters, such a text is a word of the Dyck language over the three
kinds of brackets.  A text that is none has one place where it goes wrong.  Either the
brackets up to there could still be completed to such a word, and with one more closing
bracket they cannot.  Or the whole text could be completed, and the place is that of the
leftmost opening bracket that no later bracket closes.

The search keeps the brackets that are open.  What ties it to these notions is that the
text read so far falls into pieces: nested ones, and between them the open brackets.
-/

/-- A bracket of any kind. -/
def isBracket (c : Char) : Bool :=
  (closing? c).isSome || isClosing c

/-- The text without its other characters. -/
def brackets (text : List Char) : List Char :=
  text.filter isBracket

/-- The Dyck language over the three kinds of brackets. -/
inductive Nested : List Char -> Prop
  | nil : Nested []
  | enclosed {left right : Char} {inside rest : List Char} (pair : closing? left = some right) :
      Nested inside -> Nested rest -> Nested (left :: (inside ++ right :: rest))

/-- Further characters complete the brackets of the text. -/
def Completable (text : List Char) : Prop :=
  ∃ more, Nested (brackets (text ++ more))

/-- The closing bracket comes where all that was opened in between has been closed. -/
def Closes (right : Char) (after : List Char) : Prop :=
  ∃ inside rest, after = inside ++ right :: rest ∧ Nested (brackets inside)

/-- The character at a position is an opening bracket that no later one closes. -/
def NeverClosed (text : List Char) (position : Nat) : Prop :=
  ∃ before left right after, text = before ++ left :: after ∧ before.length = position ∧
    closing? left = some right ∧ ¬ Closes right after

/-- Where a text goes wrong. -/
inductive FaultAt (text : List Char) (position : Nat) : Prop
  /-- What stands before can be completed, but no longer with this closing bracket. -/
  | hopeless {before : List Char} {c : Char} {after : List Char}
      (split : text = before ++ c :: after) (place : before.length = position)
      (closes : isClosing c = true) (possible : Completable before)
      (impossible : ¬ Completable (before ++ [c]))
  /-- Every beginning of the text can be completed, and this is its leftmost open bracket. -/
  | unclosed (possible : forall before after, text = before ++ after -> Completable before)
      (opens : NeverClosed text position)
      (leftmost : forall earlier, earlier < position -> ¬ NeverClosed text earlier)

/-! ## Nested words and texts -/

theorem closing?_right {left right : Char} (pair : closing? left = some right) :
    closing? right = none ∧ isClosing right = true := by
  unfold closing? at pair
  split at pair <;> cases pair <;> exact ⟨rfl, rfl⟩

theorem isBracket_left {left right : Char} (pair : closing? left = some right) :
    isBracket left = true := by
  rw [isBracket, pair]
  rfl

theorem isBracket_right {left right : Char} (pair : closing? left = some right) :
    isBracket right = true := by
  rw [isBracket, (closing?_right pair).2, Bool.or_true]

theorem not_isBracket {c : Char} (opens : closing? c = none) (closes : isClosing c = false) :
    isBracket c = false := by
  rw [isBracket, opens, closes]
  rfl

theorem brackets_append (text more : List Char) :
    brackets (text ++ more) = brackets text ++ brackets more :=
  List.filter_append text more

theorem Nested.append {word more : List Char} (first : Nested word) (second : Nested more) :
    Nested (word ++ more) := by
  induction first with
  | nil => exact second
  | enclosed pair inside _ _ inductionHypothesis =>
      rw [List.cons_append, List.append_assoc]
      exact .enclosed pair inside inductionHypothesis

/-- A nested text in a pair of brackets. -/
theorem Nested.pair {left right : Char} {inside : List Char} (pair : closing? left = some right)
    (nested : Nested (brackets inside)) : Nested (brackets (left :: (inside ++ [right]))) := by
  have word : brackets (left :: (inside ++ [right])) = left :: (brackets inside ++ right :: []) := by
    rw [brackets, List.filter_cons_of_pos (isBracket_left pair), List.filter_append,
      List.filter_cons_of_pos (isBracket_right pair)]
    rfl
  rw [word]
  exact .enclosed pair nested .nil

/-- A text with nested brackets has none at all, or it goes on behind its first pair.  By
induction on the word that its brackets make up. -/
theorem nested_induction {motive : List Char -> Prop}
    (plain : forall text, (forall c, c ∈ text -> isBracket c = false) -> motive text)
    (enclosed : forall front left right inside rest,
      (forall c, c ∈ front -> isBracket c = false) -> closing? left = some right ->
      Nested (brackets inside) -> motive inside -> motive rest ->
      motive (front ++ left :: (inside ++ right :: rest)))
    {text : List Char} (nested : Nested (brackets text)) : motive text := by
  generalize word : brackets text = brackets at nested
  induction nested generalizing text with
  | nil =>
      refine plain text fun c member => ?_
      exact Bool.eq_false_iff.mpr (List.filter_eq_nil_iff.mp word c member)
  | @enclosed left right inside rest pair nestedInside _ insideHolds restHolds =>
      rcases List.filter_eq_cons_iff.mp word with ⟨front, behind, rfl, bare, _, behindWord⟩
      rcases List.filter_eq_append_iff.mp behindWord with ⟨first, second, rfl, firstWord, secondWord⟩
      rcases List.filter_eq_cons_iff.mp secondWord with ⟨gap, last, rfl, bareGap, _, lastWord⟩
      have gapWord : Source.brackets gap = [] := List.filter_eq_nil_iff.mpr bareGap
      have insideWord : Source.brackets (first ++ gap) = inside := by
        rw [brackets_append, gapWord, List.append_nil]
        exact firstWord
      rw [← List.append_assoc first gap]
      exact enclosed front left right (first ++ gap) last
        (fun c member => Bool.eq_false_iff.mpr (bare c member)) pair (insideWord ▸ nestedInside)
        (insideHolds insideWord) (restHolds lastWord)

/-- Nested brackets leave the ones around them as they are. -/
theorem Nested.balances {text : List Char} (nested : Nested (brackets text)) : Balances text := by
  have bare : forall front : List Char, (forall c, c ∈ front -> isBracket c = false) ->
      Balances front := by
    intro front others
    induction front with
    | nil => exact balances_nil
    | cons c front inductionHypothesis =>
        have none := Bool.or_eq_false_iff.mp (others c List.mem_cons_self)
        exact balances_cons (Option.not_isSome_iff_eq_none.mp (Bool.eq_false_iff.mp none.1)) none.2
          (inductionHypothesis fun d member => others d (List.mem_cons_of_mem c member))
  refine nested_induction bare ?_ nested
  intro front left right inside rest others pair _ insideHolds restHolds
  have enclosed := insideHolds.enclosed pair (closing?_right pair).1 (closing?_right pair).2
  have pieces := ((bare front others).append enclosed).append restHolds
  simpa using pieces

theorem Closes.append {right : Char} {after : List Char} (closes : Closes right after)
    (more : List Char) : Closes right (after ++ more) := by
  rcases closes with ⟨inside, rest, rfl, nested⟩
  exact ⟨inside, rest ++ more, by simp, nested⟩

/-- In a nested text every opening bracket is closed. -/
theorem Nested.closes {text before after : List Char} {left right : Char}
    (nested : Nested (brackets text)) (split : text = before ++ left :: after)
    (pair : closing? left = some right) : Closes right after := by
  revert before after
  refine nested_induction (motive := fun text => forall {before after},
    text = before ++ left :: after -> Closes right after) ?plain ?enclosed nested
  case plain =>
    rintro text others before after rfl
    have impossible := others left (List.mem_append_right _ List.mem_cons_self)
    rw [isBracket_left pair] at impossible
    cases impossible
  case enclosed =>
    intro front other otherRight inside rest others otherPair nestedInside insideHolds restHolds
      before after split
    have noRight : left ≠ otherRight := by
      rintro rfl
      rw [(closing?_right otherPair).1] at pair
      cases pair
    have first : forall {further : List Char},
        other :: (inside ++ otherRight :: rest) = left :: further -> Closes right further := by
      intro further same
      cases same
      rw [pair] at otherPair
      cases otherPair
      exact ⟨inside, rest, rfl, nestedInside⟩
    rcases List.append_eq_append_iff.mp split with ⟨middle, rfl, later⟩ | ⟨middle, rfl, later⟩
    · cases middle with
      | nil => exact first later
      | cons _ middle =>
          -- It stands behind the first bracket, so inside of the pair or behind it.
          rcases List.append_eq_append_iff.mp (List.cons.inj later).2 with
            ⟨further, rfl, behind⟩ | ⟨further, within, behind⟩
          · cases further with
            | nil => exact absurd (List.cons.inj behind).1.symm noRight
            | cons _ further => exact restHolds (List.cons.inj behind).2
          · cases further with
            | nil => exact absurd (List.cons.inj behind).1 noRight
            | cons _ further =>
                cases (List.cons.inj behind).1
                rw [(List.cons.inj behind).2]
                exact (insideHolds within).append _
    · cases middle with
      | nil => exact first later.symm
      | cons _ middle =>
          cases (List.cons.inj later).1
          have impossible := others left (List.mem_append_right _ List.mem_cons_self)
          rw [isBracket_left pair] at impossible
          cases impossible

/-! ## The open brackets of a text -/

/-- These brackets of the text are open, the innermost first: what stands before, between and
behind them is nested. -/
inductive Opens : List (Char × Nat) -> List Char -> Prop
  | nested {text : List Char} : Nested (brackets text) -> Opens [] text
  | opened {waiting : List (Char × Nat)} {before inside : List Char} {left right : Char} :
      Opens waiting before -> closing? left = some right -> Nested (brackets inside) ->
      Opens ((right, before.length) :: waiting) (before ++ left :: inside)

theorem Opens.append {waiting : List (Char × Nat)} {before text : List Char}
    (opens : Opens waiting before) (nested : Nested (brackets text)) :
    Opens waiting (before ++ text) := by
  cases opens with
  | nested first =>
      refine .nested ?_
      rw [brackets_append]
      exact first.append nested
  | opened outer pair inside =>
      rw [List.append_assoc, List.cons_append]
      refine .opened outer pair ?_
      rw [brackets_append]
      exact inside.append nested

theorem Opens.other {waiting : List (Char × Nat)} {before : List Char} {c : Char}
    (opens : Opens waiting before) (other : isBracket c = false) :
    Opens waiting (before ++ [c]) := by
  refine opens.append ?_
  rw [brackets, List.filter_cons_of_neg (Bool.eq_false_iff.mp other)]
  exact .nil

theorem Opens.opening {waiting : List (Char × Nat)} {before : List Char} {left right : Char}
    (opens : Opens waiting before) (pair : closing? left = some right) :
    Opens ((right, before.length) :: waiting) (before ++ [left]) :=
  .opened opens pair .nil

theorem Opens.closing {waiting : List (Char × Nat)} {before : List Char} {right : Char}
    {place : Nat} (opens : Opens ((right, place) :: waiting) before) :
    Opens waiting (before ++ [right]) := by
  cases opens with
  | opened outer pair inside =>
      rw [List.append_assoc, List.cons_append]
      exact outer.append (Nested.pair pair inside)

theorem Completable.before {text more : List Char} (completable : Completable (text ++ more)) :
    Completable text := by
  rcases completable with ⟨further, nested⟩
  rw [List.append_assoc] at nested
  exact ⟨more ++ further, nested⟩

/-- Closing what is open completes the text. -/
theorem Opens.completable {waiting : List (Char × Nat)} {before : List Char}
    (opens : Opens waiting before) : Completable before := by
  induction waiting generalizing before with
  | nil =>
      cases opens with
      | nested nested =>
          refine ⟨[], ?_⟩
          rwa [List.append_nil]
  | cons _ _ inductionHypothesis => exact (inductionHypothesis opens.closing).before

/-- The search reaches the end of a text with just the brackets that are open there. -/
theorem Opens.reached {waiting : List (Char × Nat)} {before : List Char}
    (opens : Opens waiting before) (rest : List Char) :
    bracketFault? (before ++ rest) = faultFrom? waiting before.length rest := by
  induction opens generalizing rest with
  | nested nested =>
      rw [bracketFault?, nested.balances, Nat.zero_add]
  | opened _ pair nested inductionHypothesis =>
      rw [List.append_assoc, inductionHypothesis, List.cons_append, faultFrom?_cons, pair]
      dsimp only
      rw [nested.balances, List.length_append, List.length_cons]
      congr 1
      omega

/-- The outermost open bracket stands behind a nested text. -/
theorem Opens.outermost {waiting : List (Char × Nat)} {text : List Char} {right : Char}
    {place : Nat} (opens : Opens waiting text) (last : waiting.getLast? = some (right, place)) :
    ∃ before left inside, text = before ++ left :: inside ∧ before.length = place ∧
      closing? left = some right ∧ Nested (brackets before) := by
  induction opens with
  | nested _ => cases last
  | @opened waiting before inside left _ outer pair _ inductionHypothesis =>
      cases waiting with
      | nil =>
          cases last
          cases outer with
          | nested nested => exact ⟨before, left, inside, rfl, rfl, pair, nested⟩
      | cons entry waiting =>
          rw [List.getLast?_cons_cons] at last
          rcases inductionHypothesis last with ⟨front, first, within, rfl, rest⟩
          exact ⟨front, first, within ++ left :: inside, by simp, rest⟩

/-! ## The search -/

/-- Behind a place the search finds a fault no earlier than there. -/
theorem le_of_faultFrom? {waiting : List (Char × Nat)} {least position place : Nat}
    {text : List Char} (found : faultFrom? waiting position text = some place)
    (later : forall entry, entry ∈ waiting -> least ≤ entry.2) (bound : least ≤ position) :
    least ≤ place := by
  induction text generalizing waiting position with
  | nil =>
      rcases Option.map_eq_some_iff.mp found with ⟨entry, last, rfl⟩
      exact later entry (List.mem_of_getLast? last)
  | cons c rest inductionHypothesis =>
      rw [faultFrom?_cons] at found
      cases opening : closing? c with
      | some right =>
          simp only [opening] at found
          refine inductionHypothesis found ?_ (Nat.le_succ_of_le bound)
          intro entry member
          rcases List.mem_cons.mp member with rfl | earlier
          · exact bound
          · exact later entry earlier
      | none =>
          simp only [opening] at found
          cases closes : isClosing c with
          | false =>
              simp only [closes, Bool.false_eq_true, if_false] at found
              exact inductionHypothesis found later (Nat.le_succ_of_le bound)
          | true =>
              simp only [closes, if_true] at found
              cases waiting with
              | nil =>
                  cases found
                  exact bound
              | cons entry waiting =>
                  dsimp only at found
                  split at found
                  · refine inductionHypothesis found ?_ (Nat.le_succ_of_le bound)
                    exact fun other member => later other (List.mem_cons_of_mem _ member)
                  · cases found
                    exact bound

/-- A text cannot be completed once a closing bracket meets the search as a fault. -/
theorem Opens.hopeless {waiting : List (Char × Nat)} {before : List Char} {c : Char}
    (opens : Opens waiting before)
    (fault : forall rest, faultFrom? waiting before.length (c :: rest) = some before.length) :
    ¬ Completable (before ++ [c]) := by
  rintro ⟨more, nested⟩
  rw [List.append_assoc, List.singleton_append] at nested
  have none := nested.balances.noFault
  rw [opens.reached, fault] at none
  cases none

/-- At the end of a text, the outermost bracket that is open there is its fault. -/
theorem Opens.faultAt_end {waiting : List (Char × Nat)} {text : List Char} {right : Char}
    {place : Nat} (opens : Opens waiting text) (last : waiting.getLast? = some (right, place)) :
    FaultAt text place := by
  rcases opens.outermost last with ⟨before, left, inside, rfl, rfl, pair, nested⟩
  refine .unclosed ?_ ⟨before, left, right, inside, rfl, rfl, pair, ?_⟩ ?_
  · intro front behind split
    have whole := opens.completable
    rw [split] at whole
    exact whole.before
  · -- Were it closed, the search would have gone on behind its pair with nothing open.
    rintro ⟨within, behind, rfl, nestedWithin⟩
    have closed : Nested (brackets (before ++ left :: (within ++ [right]))) := by
      rw [brackets_append]
      exact nested.append (Nested.pair pair nestedWithin)
    have reached := opens.reached []
    have behindPair := closed.balances [] 0 behind
    have found : faultFrom? waiting (before ++ left :: (within ++ right :: behind)).length [] =
        some before.length := by
      rw [faultFrom?, last]
      rfl
    rw [List.append_nil, found] at reached
    simp only [List.append_assoc, List.cons_append, List.nil_append] at behindPair
    rw [bracketFault?, behindPair] at reached
    have late := le_of_faultFrom? reached (fun _ member => absurd member List.not_mem_nil)
      (Nat.le_refl _)
    simp only [List.length_append, List.length_cons] at late
    omega
  · rintro earlier smaller ⟨front, other, otherRight, behind, split, rfl, otherPair, never⟩
    rcases List.append_eq_append_iff.mp split with ⟨middle, rfl, _⟩ | ⟨middle, rfl, later⟩
    · rw [List.length_append] at smaller
      omega
    · cases middle with
      | nil =>
          rw [List.append_nil] at smaller
          exact Nat.lt_irrefl _ smaller
      | cons first middle =>
          rcases List.cons.inj later with ⟨rfl, rfl⟩
          exact never ((nested.closes rfl otherPair).append _)

/-- The search decides what a text comes to, wherever it has arrived.  By induction on what is
left of the text, each case a step of the open brackets. -/
theorem Opens.search {waiting : List (Char × Nat)} {before : List Char}
    (opens : Opens waiting before) (rest : List Char) :
    (faultFrom? waiting before.length rest = none -> Nested (brackets (before ++ rest))) ∧
      forall place, faultFrom? waiting before.length rest = some place ->
        FaultAt (before ++ rest) place := by
  induction rest generalizing waiting before with
  | nil =>
      rw [List.append_nil]
      constructor
      · intro closed
        have empty := List.getLast?_eq_none_iff.mp (Option.map_eq_none_iff.mp closed)
        subst empty
        cases opens with
        | nested nested => exact nested
      · intro place found
        rcases Option.map_eq_some_iff.mp found with ⟨entry, last, rfl⟩
        exact opens.faultAt_end last
  | cons c rest inductionHypothesis =>
      have further : before.length + 1 = (before ++ [c]).length := by simp
      have whole : before ++ c :: rest = (before ++ [c]) ++ rest := by simp
      have fault : isClosing c = true ->
          (forall more, faultFrom? waiting before.length (c :: more) = some before.length) ->
          FaultAt (before ++ c :: rest) before.length :=
        fun closes fault => .hopeless rfl rfl closes opens.completable (opens.hopeless fault)
      rw [faultFrom?_cons]
      cases opening : closing? c with
      | some right =>
          dsimp only
          rw [further, whole]
          exact inductionHypothesis (opens.opening opening)
      | none =>
          dsimp only
          cases closes : isClosing c with
          | false =>
              rw [if_neg Bool.false_ne_true, further, whole]
              exact inductionHypothesis (opens.other (not_isBracket opening closes))
          | true =>
              rw [if_pos rfl]
              cases waiting with
              | nil =>
                  refine ⟨nofun, fun place found => ?_⟩
                  cases found
                  exact fault closes fun more => by simp [faultFrom?_cons, opening, closes]
              | cons entry waiting =>
                  dsimp only
                  split
                  · rename_i fits
                    subst fits
                    rw [further, whole]
                    exact inductionHypothesis opens.closing
                  · rename_i other
                    refine ⟨nofun, fun place found => ?_⟩
                    cases found
                    exact fault closes fun more => by simp [faultFrom?_cons, opening, closes, other]

/-! ## Faults -/

theorem FaultAt.not_nested {text : List Char} {position : Nat} (fault : FaultAt text position) :
    ¬ Nested (brackets text) := by
  intro nested
  cases fault with
  | @hopeless before c after split _ _ _ impossible =>
      refine impossible ⟨after, ?_⟩
      rwa [List.append_assoc, List.singleton_append, ← split]
  | unclosed _ opens _ =>
      rcases opens with ⟨before, left, right, after, split, _, pair, never⟩
      exact never (nested.closes split pair)

/-- A beginning of the text that ends behind another one's last bracket completes that one. -/
theorem completable_of_before {text before after front behind : List Char} {c : Char}
    (split : text = before ++ c :: after) (otherSplit : text = front ++ behind)
    (shorter : before.length < front.length) (possible : Completable front) :
    Completable (before ++ [c]) := by
  rw [split] at otherSplit
  rcases List.append_eq_append_iff.mp otherSplit with ⟨middle, rfl, later⟩ | ⟨middle, rfl, _⟩
  · cases middle with
    | nil =>
        rw [List.append_nil] at shorter
        exact absurd shorter (Nat.lt_irrefl _)
    | cons first middle =>
        cases (List.cons.inj later).1
        have longer : Completable (before ++ [c] ++ middle) := by
          rwa [List.append_assoc, List.singleton_append]
        exact longer.before
  · rw [List.length_append] at shorter
    omega

/-- A text goes wrong in one place only. -/
theorem FaultAt.unique {text : List Char} {position other : Nat} (first : FaultAt text position)
    (second : FaultAt text other) : position = other := by
  cases first with
  | hopeless split place _ possible impossible =>
      cases second with
      | hopeless otherSplit otherPlace _ otherPossible otherImpossible =>
          subst place otherPlace
          refine Nat.le_antisymm (Nat.le_of_not_lt fun less => ?_) (Nat.le_of_not_lt fun less => ?_)
          · exact otherImpossible (completable_of_before otherSplit split less possible)
          · exact impossible (completable_of_before split otherSplit less otherPossible)
      | unclosed always _ _ =>
          exact absurd (always _ _ (split.trans (List.append_cons _ _ _))) impossible
  | unclosed always opens leftmost =>
      cases second with
      | hopeless otherSplit _ _ _ otherImpossible =>
          exact absurd (always _ _ (otherSplit.trans (List.append_cons _ _ _))) otherImpossible
      | unclosed _ otherOpens otherLeftmost =>
          exact Nat.le_antisymm (Nat.le_of_not_lt fun less => leftmost _ less otherOpens)
            (Nat.le_of_not_lt fun less => otherLeftmost _ less opens)

/-- The search for a fault decides the Dyck language, and what it finds is where a text goes
wrong. -/
theorem bracketFault?_decides (text : List Char) :
    (bracketFault? text = none <-> Nested (brackets text)) ∧
      forall position, bracketFault? text = some position <-> FaultAt text position := by
  have start : Opens [] [] := .nested .nil
  have search := start.search text
  refine ⟨⟨search.1, fun nested => nested.balances.noFault⟩, fun position => ?_⟩
  refine ⟨search.2 position, fun fault => ?_⟩
  cases result : bracketFault? text with
  | none => exact absurd (search.1 result) fault.not_nested
  | some place => exact congrArg some ((search.2 place result).unique fault)

end Source
end QuantityCalculus
