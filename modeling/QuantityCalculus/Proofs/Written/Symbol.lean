import QuantityCalculus.Proofs.Written.Spelling

namespace QuantityCalculus

open Source

/-!
# Unit symbols that preparation leaves alone

A symbol in which preparation replaces nothing may stand in a bracket of a written
text.  Symbols that are their own prepared form are among these.  One detail could
come in between: preparation drops a prompt in front of its text, and then replaces
signs, so a symbol might get its prompt back.  It does not, because no replacement
writes the character that a prompt is made of.
-/

/-! ## No prompt is written -/

/-- The number of characters that a prompt could be made of. -/
def promptSigns (text : List Char) : Nat :=
  text.count '>'

theorem promptSigns_cons (c : Char) (text : List Char) :
    promptSigns (c :: text) = promptSigns text + if c = '>' then 1 else 0 := by
  simp [promptSigns, List.count_cons]

theorem promptSigns_append (text more : List Char) :
    promptSigns (text ++ more) = promptSigns text + promptSigns more :=
  List.count_append

theorem plainOperator_prompt {c : Char} (written : plainOperator c = '>') : c = '>' := by
  unfold plainOperator at written
  split at written
  · cases written
  · split at written
    · cases written
    · split at written
      · cases written
      · exact written

theorem promptSigns_plainOperator (text : List Char) :
    promptSigns (text.map plainOperator) ≤ promptSigns text := by
  induction text with
  | nil => exact Nat.le_refl _
  | cons c text inductionHypothesis =>
      rw [List.map_cons, promptSigns_cons, promptSigns_cons]
      refine Nat.add_le_add inductionHypothesis ?_
      by_cases written : plainOperator c = '>'
      · exact Nat.le_of_eq (by rw [if_pos written, if_pos (plainOperator_prompt written)])
      · rw [if_neg written]
        exact Nat.zero_le _

theorem superscript?_prompt {c : Char} : superscript? c ≠ some '>' := by
  unfold superscript?
  split <;> exact nofun

theorem promptSigns_lowerSuperscripts (inRun : Bool) (text : List Char) :
    promptSigns (lowerSuperscripts inRun text) ≤ promptSigns text := by
  induction text generalizing inRun with
  | nil => exact Nat.le_refl _
  | cons c text inductionHypothesis =>
      have later := inductionHypothesis true
      rw [lowerSuperscripts]
      split
      · rename_i plain raised
        have noPrompt : ¬ plain = '>' := by
          rintro rfl
          exact superscript?_prompt raised
        have noPower : ¬ '^' = '>' := by decide
        split <;> simp only [promptSigns_cons, if_neg noPrompt, if_neg noPower] <;> omega
      · rw [promptSigns_cons, promptSigns_cons]
        exact Nat.add_le_add_right (inductionHypothesis false) _

theorem promptSigns_nameRootCalls (replaced : Nat) (text : List Char) :
    promptSigns (nameRootCalls replaced text) ≤ promptSigns text := by
  induction text generalizing replaced with
  | nil => exact Nat.le_refl _
  | cons c text inductionHypothesis =>
      cases replaced with
      | succ replaced =>
          rw [nameRootCalls, promptSigns_cons]
          exact Nat.le_add_right_of_le (inductionHypothesis replaced)
      | zero =>
          rw [nameRootCalls_cons]
          split
          · have word : promptSigns "sqrt(".toList = 0 := by decide
            rw [promptSigns_append, word, promptSigns_cons, Nat.zero_add]
            exact Nat.le_add_right_of_le (inductionHypothesis _)
          · rw [promptSigns_cons, promptSigns_cons]
            exact Nat.add_le_add_right (inductionHypothesis 0) _

theorem promptSigns_operand (text : List Char) :
    promptSigns (text.takeWhile isRootOperand) = 0 := by
  refine List.count_eq_zero.mpr ?_
  intro member
  have operand := List.all_eq_true.mp (takeWhile_all isRootOperand text) '>' member
  cases operand

theorem promptSigns_nameRootOperands (replaced : Nat) (text : List Char) :
    promptSigns (nameRootOperands replaced text) ≤ promptSigns text := by
  induction text generalizing replaced with
  | nil => exact Nat.le_refl _
  | cons c text inductionHypothesis =>
      cases replaced with
      | succ replaced =>
          rw [nameRootOperands, promptSigns_cons]
          exact Nat.le_add_right_of_le (inductionHypothesis replaced)
      | zero =>
          rw [nameRootOperands_cons]
          split
          · have word : promptSigns "sqrt(".toList = 0 := by decide
            rw [promptSigns_append, promptSigns_append, word, promptSigns_operand,
              promptSigns_cons, promptSigns_cons]
            simp only [show ¬ ')' = '>' by decide, if_false, Nat.zero_add, Nat.add_zero]
            exact Nat.le_add_right_of_le (inductionHypothesis _)
          · rw [promptSigns_cons, promptSigns_cons]
            exact Nat.add_le_add_right (inductionHypothesis 0) _

/-- Replacing signs writes no prompt. -/
theorem promptSigns_plainSigns (text : List Char) :
    promptSigns (plainSigns text) ≤ promptSigns text :=
  calc promptSigns (plainSigns text)
      ≤ promptSigns (nameRootCalls 0 (lowerSuperscripts false (text.map plainOperator))) :=
        promptSigns_nameRootOperands 0 _
    _ ≤ promptSigns (lowerSuperscripts false (text.map plainOperator)) :=
        promptSigns_nameRootCalls 0 _
    _ ≤ promptSigns (text.map plainOperator) := promptSigns_lowerSuperscripts false _
    _ ≤ promptSigns text := promptSigns_plainOperator text

/-! ## Symbols -/

theorem trim_symbol {symbol : List Char} (symbolic : symbol.all isUnitCharacter = true) :
    Text.trim symbol = symbol := by
  have visible : forall c, c ∈ symbol -> Text.isBlank c = false := fun c member =>
    not_isBlank_of_isUnitCharacter (List.all_eq_true.mp symbolic c member)
  exact trim_eq_self (fun c first => visible c (List.mem_of_head? first))
    (fun c last => visible c (List.mem_of_getLast? last))

/-- A symbol that is its own prepared form loses no prompt. -/
theorem bare_symbol {symbol : List Char} (symbolic : symbol.all isUnitCharacter = true)
    (unchanged : plainSigns (bare symbol) = symbol) : bare symbol = symbol := by
  unfold bare at *
  simp only [trim_symbol symbolic] at *
  split
  · rename_i prompted
    have rest : (symbol.drop 3).all isUnitCharacter = true :=
      List.all_eq_true.mpr fun c member =>
        List.all_eq_true.mp symbolic c (List.drop_subset _ _ member)
    rw [if_pos prompted, trim_symbol rest] at unchanged
    have fewer := promptSigns_plainSigns (symbol.drop 3)
    rw [unchanged] at fewer
    have whole : promptSigns symbol = 3 + promptSigns (symbol.drop 3) := by
      conv => lhs; rw [← List.take_append_drop 3 symbol, promptSigns_append, prompted]
      rfl
    omega
  · rfl

/-- In the symbol of a mark, preparation finds nothing to replace and all brackets balanced. -/
def UnitMark.Unchanged : UnitMark -> Prop
  | .apply symbol | .cast symbol =>
      plainSigns symbol.toList = symbol.toList ∧ bracketFault? symbol.toList = none
  | .normalize => True

/-- A unit symbol has characters, none of which ends a symbol. -/
def UnitMark.Symbolic : UnitMark -> Prop
  | .apply symbol | .cast symbol =>
      symbol.toList ≠ [] ∧ symbol.toList.all isUnitCharacter = true
  | .normalize => True

/-- A symbol that is its own prepared form is unchanged also as a part of a longer text. -/
theorem unchanged_of_prepare {symbol : List Char} (symbolic : symbol.all isUnitCharacter = true)
    (prepared : prepare symbol = .ok symbol) :
    plainSigns symbol = symbol ∧ bracketFault? symbol = none := by
  unfold prepare at prepared
  dsimp only at prepared
  split at prepared
  · cases prepared
  · split at prepared
    · cases prepared
    · split at prepared
      · cases prepared
      · rename_i balanced
        have same := Except.ok.inj prepared
        rw [same] at balanced
        rw [bare_symbol symbolic same] at same
        exact ⟨same, balanced⟩

theorem UnitMark.Unchanged.reads {mark : UnitMark} (unchanged : mark.Unchanged)
    (symbolic : mark.Symbolic) : mark.Reads := by
  cases mark with
  | apply symbol =>
      exact ⟨symbolic.1, symbolic.2, (plainSigns_eq_self_iff _).mp unchanged.1, unchanged.2⟩
  | cast symbol =>
      exact ⟨symbolic.1, symbolic.2, (plainSigns_eq_self_iff _).mp unchanged.1, unchanged.2⟩
  | normalize => trivial

end QuantityCalculus
