import QuantityCalculus.Proofs.Session.Clearing
import QuantityCalculus.Proofs.Source.Openings
import QuantityCalculus.Proofs.Source.SpacedTokens

namespace QuantityCalculus

/-!
# Showing the markup of a text

The command for markup takes the rest of its line as a text of its own.  The words of that text
are cut and joined again on the way, which narrows its gaps and so changes nothing about what
is read.

Before that it is decided that the first word is meant as a command at all.  What begins with a
single sign continues the word instead, which is then a variable: `latex -x` is a difference.
That a text can be read by itself does not settle which of the two is meant.
-/

/-! ## Command or variable -/

/-- The text begins with one sign of an operand.  Two minus signs are the start of an option. -/
def IsSigned (text : List Char) : Prop :=
  ['+'] <+: text ∨ (['-'] <+: text ∧ ¬ optionStart <+: text)

theorem continuesExpression_cons {c : Char} (seen : Text.isBlank c = false) (rest : List Char) :
    continuesExpression (c :: rest) = true <->
      ¬ optionStart <+: c :: rest ∧ c ∈ continuingSigns := by
  have starts : Text.trimStart (c :: rest) = c :: rest :=
    List.dropWhile_cons_of_neg (Bool.eq_false_iff.mp seen)
  rw [continuesExpression, starts, Bool.and_eq_true, Bool.not_eq_true', ← Bool.not_eq_true,
    List.isPrefixOf_iff_prefix, List.contains_iff_mem]

/-- Of the texts that can be read, those with a sign and those in parentheses continue a word in
front of them. -/
theorem continuesExpression_iff {text : List Char} (starts : Text.trimStart text = text)
    (opening : forall c, c ∈ text.head? -> c ∉ Source.innerSigns) :
    continuesExpression text = true <-> IsSigned text ∨ ['('] <+: text := by
  cases text with
  | nil =>
      refine iff_of_false nofun ?_
      rintro ((plus | ⟨minus, _⟩) | parenthesis)
      · exact absurd (List.prefix_nil.mp plus) (List.cons_ne_nil _ _)
      · exact absurd (List.prefix_nil.mp minus) (List.cons_ne_nil _ _)
      · exact absurd (List.prefix_nil.mp parenthesis) (List.cons_ne_nil _ _)
  | cons c rest =>
      have seen : Text.isBlank c = false := by
        refine Bool.eq_false_iff.mpr fun blank => ?_
        have shorter := Source.length_trimStart_le rest
        rw [Text.trimStart, List.dropWhile_cons_of_pos blank, ← Text.trimStart] at starts
        rw [starts, List.length_cons] at shorter
        exact Nat.not_succ_le_self _ shorter
      rw [continuesExpression_cons seen]
      constructor
      · rintro ⟨noOption, sign⟩
        have each : (continuingSigns.all fun c => decide (c ∈ Source.innerSigns ∨ c = '+' ∨
            c = '-' ∨ c = '(')) = true := by
          decide
        rcases of_decide_eq_true (List.all_eq_true.mp each c sign) with
          inner | rfl | rfl | rfl
        · exact absurd inner (opening c rfl)
        · exact Or.inl (Or.inl (List.prefix_append ['+'] rest))
        · exact Or.inl (Or.inr ⟨List.prefix_append ['-'] rest, noOption⟩)
        · exact Or.inr (List.prefix_append ['('] rest)
      · rintro ((plus | ⟨minus, noOption⟩) | parenthesis)
        · cases (List.cons_prefix_cons.mp plus).1
          exact ⟨fun option => absurd (List.cons_prefix_cons.mp option).1 (by decide), by decide⟩
        · cases (List.cons_prefix_cons.mp minus).1
          exact ⟨noOption, by decide⟩
        · cases (List.cons_prefix_cons.mp parenthesis).1
          exact ⟨fun option => absurd (List.cons_prefix_cons.mp option).1 (by decide), by decide⟩

/-- Behind the word for markup stands a text for the command, or the rest of an expression. -/
theorem Line.ofText_latex (text : List Char) :
    Line.ofText ("latex ".toList ++ text) =
      if continuesExpression text then .statement (String.ofList ("latex ".toList ++ text))
      else .command .latex ((Text.words text).map String.ofList) := by
  have parts : firstWord ("latex ".toList ++ text) = ("latex".toList, text) := rfl
  have known : Command.ofWord? (Text.lowerCase (String.ofList "latex".toList)) = some .latex := by
    decide +kernel
  rw [Line.ofText, parts]
  dsimp only
  rw [known]

/-- Words that were cut from a text, joined again. -/
theorem toList_phrase_words (text : List Char) :
    (Action.phrase ((Text.words text).map String.ofList)).toList =
      [' '].intercalate (Text.words text) := by
  rw [Action.phrase, String.toList_intercalate, List.map_map]
  have same : String.toList ∘ String.ofList = id := funext fun _ => String.toList_ofList
  rw [same, List.map_id]
  rfl

variable {R : Type} [Scalar R]

/-- The markup of a text that can be read is shown, and nothing else happens. -/
theorem Action.run_showMarkup {source : String} {tree : Expr R}
    (whole : Text.trim source.toList = source.toList) (accepted : Source.parse source = .ok tree)
    (session : Session R) :
    showMarkup ((Text.words source.toList).map String.ofList) session =
      (.ok [tree.write .markup session.places], session) := by
  have narrowed : Source.Narrowed source.toList
      (phrase ((Text.words source.toList).map String.ofList)).toList := by
    rw [toList_phrase_words]
    exact Source.narrowed_words whole
  have written : ((Text.words source.toList).map String.ofList).isEmpty = false := by
    refine Bool.eq_false_iff.mpr fun none => ?_
    rw [List.isEmpty_iff.mp none] at narrowed
    have empty := narrowed.eq_nil_iff.mpr rfl
    exact Source.ne_nil_of_parse accepted empty
  rw [showMarkup, run_get_bind, written]
  simp only [Bool.false_eq_true, if_false]
  rw [narrowed.parse accepted]
  rfl

namespace Session

/--
A text without blanks around it that can be read is shown as markup, in whatever state the
session is, and the session stays as it is.  This needs that the text begins neither with one
sign nor with a parenthesis.  With a sign the line is a statement, in which the word for markup
is a variable.
-/
theorem markup_shown {source : String} {tree : Expr R}
    (whole : Text.trim source.toList = source.toList) (accepted : Source.parse source = .ok tree)
    (session : Session R) :
    (¬ IsSigned source.toList -> ¬ ['('] <+: source.toList ->
      session.execute ("latex " ++ source) = ([tree.write .markup session.places], session)) ∧
    (IsSigned source.toList ->
      Line.ofText (Text.trim ("latex " ++ source).toList) = .statement ("latex " ++ source)) := by
  have continues := continuesExpression_iff (Source.ends_of_trim whole).1
    (Source.parse_opening accepted whole)
  have line : Text.trim ("latex " ++ source).toList = "latex ".toList ++ source.toList := by
    rw [String.toList_append]
    refine Source.trim_eq_self (fun c first => ?_) fun c last => ?_
    · cases first
      decide
    · rw [List.getLast?_append_of_ne_nil _ (Source.ne_nil_of_parse accepted)] at last
      exact (Source.ends_of_trim whole).2 c last
  rw [line, Line.ofText_latex]
  constructor
  · intro unsigned open_
    have command : ¬ continuesExpression source.toList = true :=
      fun continued => (continues.mp continued).elim unsigned open_
    have asks : Line.ofText (Text.trim ("latex " ++ source).toList) =
        .command .latex ((Text.words source.toList).map String.ofList) := by
      rw [line, Line.ofText_latex, if_neg command]
    exact execute_of_run asks (Action.run_showMarkup whole accepted session)
  · intro signed
    rw [if_pos (continues.mpr (Or.inl signed)), ← String.toList_append, String.ofList_toList]

/-- What is read from `√  (x) +  2[ km ]`. -/
def rootAndLength : Expr Float :=
  .binary .add (.sqrt (.var "x")) (.marked (.apply "km") (.num (Number.readSpelling ['2'])))

/-- Gaps behind a root sign and in a unit bracket do not show. -/
theorem markup_shown_gaps :
    ∃ first : Session Float, start ⟨none, 15, true⟩ none = .ok first ∧
      Text.trim "√  (x) +  2[ km ]".toList = "√  (x) +  2[ km ]".toList ∧
      Source.parse "√  (x) +  2[ km ]" = .ok rootAndLength ∧
      first.execute ("latex " ++ "√  (x) +  2[ km ]") =
        ([rootAndLength.write .markup first.places], first) ∧
      Line.ofText (Text.trim ("latex " ++ "+x").toList) = .statement ("latex " ++ "+x") := by
  rcases exists_start_without_files with ⟨first, started⟩
  have whole : Text.trim "√  (x) +  2[ km ]".toList = "√  (x) +  2[ km ]".toList := by
    decide +kernel
  have accepted : Source.parse "√  (x) +  2[ km ]" = .ok rootAndLength :=
    eq_ok_of_toOption (by decide +kernel)
  have acceptedSign : Source.parse "+x" = .ok (.var "x" : Expr Float) :=
    eq_ok_of_toOption (by decide +kernel)
  refine ⟨first, started, whole, accepted, ?_, ?_⟩
  · refine (markup_shown whole accepted first).1 ?_ ?_
    · rintro (plus | ⟨minus, _⟩)
      · exact absurd (List.cons_prefix_cons.mp plus).1 (by decide)
      · exact absurd (List.cons_prefix_cons.mp minus).1 (by decide)
    · intro parenthesis
      exact absurd (List.cons_prefix_cons.mp parenthesis).1 (by decide)
  · exact (markup_shown (by decide +kernel) acceptedSign first).2
      (Or.inl (List.prefix_append ['+'] ['x']))

/-- What is read from `-x`. -/
def negativeOfX : Expr Float :=
  .binary .multiply (.num (Scalar.ofInt (-1))) (.var "x")

/-- Although `-x` can be read, its markup is not shown: the line is a difference, and opens an
editor because of its missing variables. -/
theorem markup_not_shown :
    ∃ first : Session Float, start ⟨none, 15, true⟩ none = .ok first ∧
      Text.trim "-x".toList = "-x".toList ∧ Source.parse "-x" = .ok negativeOfX ∧
      (first.execute ("latex " ++ "-x")).1 = ["latex-x", "Missing variables: latex, x"] ∧
      (first.execute ("latex " ++ "-x")).1 ≠ [negativeOfX.write .markup first.places] ∧
      (first.execute ("latex " ++ "-x")).2 ≠ first := by
  rcases exists_start_without_files with ⟨first, started⟩
  have outcome : (start ⟨none, 15, true⟩ none : Except LoadFault (Session Float)).toOption.map
      (fun first => ((first.execute ("latex " ++ "-x")).1, negativeOfX.write .markup first.places,
        first.isEditing, (first.execute ("latex " ++ "-x")).2.isEditing)) =
      some (["latex-x", "Missing variables: latex, x"], "-1\\cdot \\text\x7bx\x7d",
        false, true) := by
    decide +kernel
  rw [started] at outcome
  have parts := Option.some.inj outcome
  rcases Prod.mk.inj parts with ⟨shown, rest⟩
  rcases Prod.mk.inj rest with ⟨markup, rest⟩
  rcases Prod.mk.inj rest with ⟨before, after⟩
  refine ⟨first, started, by decide +kernel, eq_ok_of_toOption (by decide +kernel), shown, ?_, ?_⟩
  · rw [shown, markup]
    decide
  · intro same
    rw [same, before] at after
    cases after

end Session
end QuantityCalculus
