import QuantityCalculus.Proofs.Source.Superscripts

namespace QuantityCalculus
namespace Source

/-!
# Preparing a text with its superscripts in parentheses

Preparation also trims a text, takes the prompt off and checks brackets and length.  The
ends of a text are the same whether its runs are in parentheses or not, and parentheses
around runs are balanced.  So a prepared text stays prepared with parentheses around its
runs, unless it becomes too long.
-/

section

variable {enclosed : Bool}

/-! ## The ends of the text -/

theorem trimEnd_append_blanks (text : List Char) {blanks : List Char}
    (blank : blanks.all Text.isBlank = true) :
    Text.trimEnd (text ++ blanks) = Text.trimEnd text := by
  have each : forall c, c ∈ blanks.reverse -> Text.isBlank c = true :=
    fun c member => List.all_eq_true.mp blank c (List.mem_reverse.mp member)
  rw [Text.trimEnd, List.reverse_append, List.dropWhile_append_of_pos each, Text.trimEnd]

/-- A text is what trimming leaves of it, and blanks. -/
theorem trimEnd_split (text : List Char) :
    ∃ blanks, text = Text.trimEnd text ++ blanks ∧ blanks.all Text.isBlank = true := by
  refine ⟨(text.reverse.takeWhile Text.isBlank).reverse, ?_, ?_⟩
  · rw [Text.trimEnd, ← List.reverse_append, List.takeWhile_append_dropWhile,
      List.reverse_reverse]
  · rw [List.all_reverse]
    exact takeWhile_all _ _

theorem last_trimEnd (text : List Char) :
    forall c, c ∈ (Text.trimEnd text).getLast? -> Text.isBlank c = false := by
  intro c last
  rw [Text.trimEnd, List.getLast?_reverse] at last
  have first := List.head?_dropWhile_not Text.isBlank text.reverse
  rw [last] at first
  simpa using first

theorem plain_not_isBlank {c plain : Char} (raised : superscript? c = some plain) :
    Text.isBlank plain = false :=
  forall_superscripts (fun _ plain => Text.isBlank plain = false) (by decide) raised

/-- The last character stays visible. -/
theorem last_writeRuns (inRun : Bool) {text : List Char}
    (ends : forall c, c ∈ text.getLast? -> Text.isBlank c = false) :
    forall c, c ∈ (writeRuns enclosed inRun text).getLast? -> Text.isBlank c = false := by
  induction text generalizing inRun with
  | nil =>
      intro c last
      cases inRun with
      | false => cases last
      | true =>
          cases enclosed with
          | false => cases last
          | true =>
              cases last
              rfl
  | cons c rest inductionHypothesis =>
      have restEnds := forall_getLast?_of_cons ends
      have tail := fun inRun => inductionHypothesis inRun restEnds
      intro d last
      cases raised : superscript? c with
      | some plain =>
          rw [writeRuns_raised raised, List.getLast?_append, List.getLast?_cons] at last
          cases written : (writeRuns enclosed true rest).getLast? with
          | none =>
              rw [written] at last
              cases last
              exact plain_not_isBlank raised
          | some e =>
              rw [written] at last
              cases last
              exact tail true e written
      | none =>
          rw [writeRuns_other raised, List.getLast?_append, List.getLast?_cons] at last
          cases written : (writeRuns enclosed false rest).getLast? with
          | none =>
              have empty : rest = [] :=
                (writeRuns_eq_nil_iff rest).mp (List.getLast?_eq_none_iff.mp written)
              rw [written] at last
              cases last
              exact ends c (by rw [empty]; rfl)
          | some e =>
              rw [written] at last
              cases last
              exact tail false e written

theorem trimEnd_writeRuns (text : List Char) :
    Text.trimEnd (writeRuns enclosed false text) =
      writeRuns enclosed false (Text.trimEnd text) := by
  rcases trimEnd_split text with ⟨blanks, split, blank⟩
  have ordinary : blanks.all isOrdinary = true := by
    rw [List.all_eq_true] at blank ⊢
    exact fun c member => passesRuns_blank.2 c (blank c member)
  have ends : forall c, c ∈ blanks.head? -> superscript? c = none := by
    intro c first
    exact isOrdinary_iff.mp (List.all_eq_true.mp ordinary c (List.mem_of_mem_head? first))
  have written : writeRuns enclosed false text =
      writeRuns enclosed false (Text.trimEnd text) ++ blanks := by
    rw [← writeRuns_eq_self ordinary, ← writeRuns_append false _ ends, ← split]
  rw [written, trimEnd_append_blanks _ blank,
    trimEnd_of_last (last_writeRuns false (last_trimEnd text))]

theorem trim_writeRuns (text : List Char) :
    Text.trim (writeRuns enclosed false text) = writeRuns enclosed false (Text.trim text) := by
  rw [Text.trim, Text.trimStart, (takeWhile_writeRuns passesRuns_blank text).2, trimEnd_writeRuns,
    Text.trim, Text.trimStart]

/-- What stands at the front of a written text stood there before, if it holds no sign of a
power. -/
theorem prefix_of_writeRuns {front text : List Char} (noPower : '^' ∉ front)
    (starts : front <+: writeRuns enclosed false text) : front <+: text := by
  induction front generalizing text with
  | nil => exact List.nil_prefix
  | cons d front inductionHypothesis =>
      cases text with
      | nil => exact absurd (List.prefix_nil.mp starts) (List.cons_ne_nil _ _)
      | cons c rest =>
          cases raised : superscript? c with
          | some plain =>
              have sign : d = '^' := by
                rw [writeRuns_raised raised] at starts
                cases enclosed <;> exact (List.cons_prefix_cons.mp starts).1
              exact absurd (sign ▸ List.mem_cons_self) noPower
          | none =>
              rw [writeRuns_ordinary raised] at starts
              rcases List.cons_prefix_cons.mp starts with ⟨rfl, later⟩
              refine List.cons_prefix_cons.mpr ⟨rfl, inductionHypothesis ?_ later⟩
              exact fun inside => noPower (List.mem_cons_of_mem d inside)

theorem prompt_writeRuns (text : List Char) :
    (writeRuns enclosed false text).take 3 = prompt <-> text.take 3 = prompt := by
  have starts : forall text : List Char, text.take 3 = prompt <-> prompt <+: text :=
    fun text => eq_comm.trans List.prefix_iff_eq_take.symm
  rw [starts, starts]
  refine ⟨prefix_of_writeRuns (by decide), ?_⟩
  rintro ⟨rest, rfl⟩
  rw [writeRuns_front (by decide)]
  exact List.prefix_append _ _

theorem bare_writeRuns (text : List Char) :
    bare (writeRuns enclosed false text) = writeRuns enclosed false (bare text) := by
  unfold bare
  dsimp only
  rw [trim_writeRuns]
  generalize Text.trim text = trimmed
  by_cases prompted : trimmed.take 3 = prompt
  · have split := List.take_append_drop 3 trimmed
    rw [prompted] at split
    have behind : (writeRuns enclosed false trimmed).drop 3 =
        writeRuns enclosed false (trimmed.drop 3) := by
      rw [← split, writeRuns_front (by decide)]
      rfl
    rw [if_pos ((prompt_writeRuns trimmed).mpr prompted), if_pos prompted, behind,
      trim_writeRuns]
  · rw [if_neg fun written => prompted ((prompt_writeRuns trimmed).mp written), if_neg prompted]

end

/-! ## Brackets -/

/-- A character that is no bracket is passed over. -/
theorem faultFrom?_other {c : Char} (opens : closing? c = none) (closes : isClosing c = false)
    (waiting : List (Char × Nat)) (position : Nat) (rest : List Char) :
    faultFrom? waiting position (c :: rest) = faultFrom? waiting (position + 1) rest := by
  rw [faultFrom?_cons, opens]
  simp only [closes, Bool.false_eq_true, if_false]

/-- Whether a text has a fault behind a character depends on which brackets are open, not on
where they were opened. -/
theorem noFault_cons {c : Char} {waiting others : List (Char × Nat)} {position place : Nat}
    {rest more : List Char} (same : others.map Prod.fst = waiting.map Prod.fst)
    (later : forall {waiting others : List (Char × Nat)} {position place : Nat},
      others.map Prod.fst = waiting.map Prod.fst -> faultFrom? waiting position rest = none ->
        faultFrom? others place more = none)
    (noFault : faultFrom? waiting position (c :: rest) = none) :
    faultFrom? others place (c :: more) = none := by
  rw [faultFrom?_cons] at noFault ⊢
  cases opening : closing? c with
  | some close =>
      simp only [opening] at noFault ⊢
      have opened : ((close, place) :: others).map Prod.fst =
          ((close, position) :: waiting).map Prod.fst :=
        congrArg (close :: ·) same
      exact later opened noFault
  | none =>
      simp only [opening] at noFault ⊢
      cases closes : isClosing c with
      | false =>
          simp only [closes, Bool.false_eq_true, if_false] at noFault ⊢
          exact later same noFault
      | true =>
          simp only [closes, if_true] at noFault ⊢
          cases waiting with
          | nil => cases noFault
          | cons entry waiting =>
              cases others with
              | nil => cases same
              | cons other others =>
                  rcases List.cons.inj same with ⟨first, same⟩
                  simp only [first] at noFault ⊢
                  split at noFault
                  · rename_i fits
                    rw [if_pos fits]
                    exact later same noFault
                  · cases noFault

theorem plain_isNoBracket {c plain : Char} (raised : superscript? c = some plain) :
    closing? plain = none ∧ isClosing plain = false :=
  forall_superscripts (fun _ plain => closing? plain = none ∧ isClosing plain = false) (by decide)
    raised

/-- The parentheses of a run in which the search is. -/
def openRun (inRun : Bool) (place : Nat) : List (Char × Nat) :=
  if inRun then [(')', place)] else []

/-- Parentheses around the runs bring no fault with them.  By induction on the text, the
parenthesis of the run at hand still open. -/
theorem noFault_enclosed {inRun : Bool} {text : List Char} {waiting others : List (Char × Nat)}
    {position place opened : Nat} (same : others.map Prod.fst = waiting.map Prod.fst)
    (noFault : faultFrom? waiting position (writeRuns false inRun text) = none) :
    faultFrom? (openRun inRun opened ++ others) place (writeRuns true inRun text) = none := by
  induction text generalizing inRun waiting others position place opened with
  | nil =>
      have closed : others = [] := by
        cases waiting with
        | nil => exact List.map_eq_nil_iff.mp same
        | cons entry waiting => cases inRun <;> simp [writeRuns, runEnd, faultFrom?] at noFault
      subst closed
      cases inRun <;> rfl
  | cons c rest inductionHypothesis =>
      cases raised : superscript? c with
      | some plain =>
          rcases plain_isNoBracket raised with ⟨opens, closes⟩
          rw [writeRuns_raised raised] at noFault ⊢
          cases inRun with
          | true =>
              change faultFrom? waiting position (plain :: writeRuns false true rest) = none
                at noFault
              change faultFrom? (openRun true opened ++ others) place
                (plain :: writeRuns true true rest) = none
              rw [faultFrom?_other opens closes] at noFault ⊢
              exact inductionHypothesis same noFault
          | false =>
              change faultFrom? waiting position ('^' :: plain :: writeRuns false true rest) = none
                at noFault
              change faultFrom? others place
                ('^' :: '(' :: plain :: writeRuns true true rest) = none
              rw [faultFrom?_other rfl rfl, faultFrom?_other opens closes] at noFault
              rw [faultFrom?_other rfl rfl, faultFrom?_cons]
              change faultFrom? (openRun true (place + 1) ++ others) (place + 1 + 1)
                (plain :: writeRuns true true rest) = none
              rw [faultFrom?_other opens closes]
              exact inductionHypothesis same noFault
      | none =>
          rw [writeRuns_other raised] at noFault ⊢
          have step : forall {place : Nat}, faultFrom? others place
              (c :: writeRuns true false rest) = none := by
            refine fun {place} => noFault_cons same ?_ (by cases inRun <;> exact noFault)
            intro waiting others position place same noFault
            exact @inductionHypothesis false waiting others position place 0 same noFault
          cases inRun with
          | true =>
              change faultFrom? ((')', opened) :: others) place
                (')' :: c :: writeRuns true false rest) = none
              exact step
          | false => exact step

/-- Preparation of a text whose runs are written in parentheses. -/
theorem prepare_enclosed {source text : List Char} (prepared : prepare source = .ok text) :
    text = writeRuns false false (plainAroundRuns (bare source)) ∧
      prepare (writeRuns true false source) =
        if lengthLimit < (writeRuns true false (bare source)).length then
          .error (.tooLong lengthLimit)
        else .ok (writeRuns true false (plainAroundRuns (bare source))) := by
  rcases prepare_eq_ok_iff.mp prepared with ⟨written, _, rfl, noFault⟩
  rw [plainSigns_eq] at noFault
  refine ⟨plainSigns_eq _, ?_⟩
  have something : ¬ (writeRuns true false (bare source)).isEmpty = true := by
    rwa [List.isEmpty_iff, writeRuns_eq_nil_iff]
  have enclosed : bracketFault? (writeRuns true false (plainAroundRuns (bare source))) = none :=
    @noFault_enclosed false _ [] [] 0 0 0 rfl noFault
  unfold prepare
  dsimp only
  rw [bare_writeRuns, plainSigns_writeRuns, if_neg something, enclosed]

end Source
end QuantityCalculus
