import QuantityCalculus.Source.Statement

namespace QuantityCalculus
namespace Source

/-!
# Unit descriptors

The content of a unit bracket is a symbol, a symbol with a question mark, or a
question mark alone, with blanks anywhere around the two.  `Descriptor` says this
without reading anything; `unitMark` reads it.  The two agree, so the mark that a
content asks for does not depend on where the bracket stands.
-/

/-- A character of a unit symbol. -/
def isUnitCharacter (c : Char) : Bool :=
  !(Text.isBlank c || c == '?' || c == '[' || c == ']')

/-- A content and the mark that it asks for. -/
inductive Descriptor : List Char -> UnitMark -> Prop
  | apply (before symbol after : List Char) :
      before.all Text.isBlank = true -> symbol ≠ [] -> symbol.all isUnitCharacter = true ->
      after.all Text.isBlank = true ->
      Descriptor (before ++ (symbol ++ after)) (.apply (String.ofList symbol))
  | cast (before symbol between after : List Char) :
      before.all Text.isBlank = true -> symbol ≠ [] -> symbol.all isUnitCharacter = true ->
      between.all Text.isBlank = true -> after.all Text.isBlank = true ->
      Descriptor (before ++ (symbol ++ (between ++ '?' :: after))) (.cast (String.ofList symbol))
  | normalize (before after : List Char) :
      before.all Text.isBlank = true -> after.all Text.isBlank = true ->
      Descriptor (before ++ '?' :: after) .normalize

/-! ## Cutting runs of characters -/

theorem drop_length_takeWhile (property : Char -> Bool) (text : List Char) :
    text.drop (text.takeWhile property).length = text.dropWhile property := by
  induction text with
  | nil => rfl
  | cons c rest inductionHypothesis =>
      cases holds : property c
      · simp [List.takeWhile, List.dropWhile, holds]
      · simp only [List.takeWhile, List.dropWhile, holds, List.length_cons, List.drop_succ_cons]
        exact inductionHypothesis

theorem takeWhile_all (property : Char -> Bool) (text : List Char) :
    (text.takeWhile property).all property = true :=
  List.all_takeWhile

/-- A run of characters with the property, up to a text that does not go on with one. -/
theorem takeWhile_run {property : Char -> Bool} {run rest : List Char}
    (inside : run.all property = true) (ends : rest.head?.all (fun c => !property c) = true) :
    (run ++ rest).takeWhile property = run ∧ (run ++ rest).dropWhile property = rest := by
  have alone : rest.takeWhile property = [] ∧ rest.dropWhile property = rest := by
    cases rest with
    | nil => exact ⟨rfl, rfl⟩
    | cons c more =>
        have fails : property c = false := by simpa using ends
        simp [List.takeWhile, List.dropWhile, fails]
  have each : forall c, c ∈ run -> property c = true := List.all_eq_true.mp inside
  rw [List.takeWhile_append_of_pos each, List.dropWhile_append_of_pos each, alone.1, alone.2,
    List.append_nil]
  exact ⟨rfl, rfl⟩

theorem trimStart_eq_nil_iff (text : List Char) :
    Text.trimStart text = [] <-> text.all Text.isBlank = true := by
  induction text with
  | nil => simp [Text.trimStart]
  | cons c rest inductionHypothesis =>
      rw [Text.trimStart] at inductionHypothesis ⊢
      cases blank : Text.isBlank c <;> simp [List.dropWhile, blank, inductionHypothesis]

/-! ## Reading a descriptor -/

/-- The two signs that a descriptor distinguishes are no characters of a symbol. -/
theorem not_isUnitCharacter {c : Char} (sign : Text.isBlank c = true ∨ c = '?') :
    isUnitCharacter c = false := by
  rcases sign with blank | rfl
  · simp [isUnitCharacter, blank]
  · simp [isUnitCharacter]

theorem not_isBlank_of_isUnitCharacter {c : Char} (unit : isUnitCharacter c = true) :
    Text.isBlank c = false := by
  cases blank : Text.isBlank c
  · rfl
  · rw [not_isUnitCharacter (Or.inl blank)] at unit
    cases unit

/-- What is decided once the symbol has been cut off: whether a question mark follows. -/
def questionAfter (rest : List Char) : Option Bool :=
  match Text.trimStart rest with
  | [] => some false
  | '?' :: after => if (Text.trimStart after).isEmpty then some true else none
  | _ => none

theorem questionAfter_blank {after : List Char} (blank : after.all Text.isBlank = true) :
    questionAfter after = some false := by
  rw [questionAfter, (trimStart_eq_nil_iff after).mpr blank]

theorem questionAfter_question {between after : List Char}
    (blank : between.all Text.isBlank = true) (blankAfter : after.all Text.isBlank = true) :
    questionAfter (between ++ '?' :: after) = some true := by
  have reached : Text.trimStart (between ++ '?' :: after) = '?' :: after :=
    (takeWhile_run blank rfl).2
  simp only [questionAfter, reached, (trimStart_eq_nil_iff after).mpr blankAfter,
    List.isEmpty_nil, if_true]

/-- What stands behind the symbol of a descriptor. -/
theorem questionAfter_cases {rest : List Char} {asked : Bool}
    (decided : questionAfter rest = some asked) :
    (asked = false ∧ rest.all Text.isBlank = true) ∨
      (asked = true ∧ ∃ between after, between.all Text.isBlank = true ∧
        after.all Text.isBlank = true ∧ rest = between ++ '?' :: after) := by
  unfold questionAfter at decided
  split at decided
  · rename_i nothing
    cases decided
    exact Or.inl ⟨rfl, (trimStart_eq_nil_iff rest).mp nothing⟩
  · rename_i after found
    split at decided
    · rename_i ends
      cases decided
      refine Or.inr ⟨rfl, rest.takeWhile Text.isBlank, after, takeWhile_all _ _, ?_, ?_⟩
      · exact (trimStart_eq_nil_iff after).mp (List.isEmpty_iff.mp ends)
      · rw [← found]
        exact List.takeWhile_append_dropWhile.symm
    · cases decided
  · cases decided

/-- The mark for a symbol and the decision about the question mark. -/
def markOf (content : String) (position : Nat) (symbol : List Char) :
    Option Bool -> Except Failure UnitMark
  | none => .error (.invalidUnitDescriptor content position)
  | some cast =>
      if symbol.isEmpty then
        if cast then .ok .normalize else .error (.emptyUnitDescriptor position)
      else if cast then .ok (.cast (String.ofList symbol))
      else .ok (.apply (String.ofList symbol))

theorem unitMark_eq_markOf (content : String) (position : Nat) :
    unitMark content position =
      markOf content position ((Text.trimStart content.toList).takeWhile isUnitCharacter)
        (questionAfter ((Text.trimStart content.toList).dropWhile isUnitCharacter)) := by
  rw [← drop_length_takeWhile]
  rfl

/-- The reader in terms of the three parts of a content. -/
theorem unitMark_parts {content : String} {before symbol rest : List Char} (position : Nat)
    (written : content.toList = before ++ (symbol ++ rest))
    (blank : before.all Text.isBlank = true) (symbolic : symbol.all isUnitCharacter = true)
    (starts : (symbol ++ rest).head?.all (fun c => !Text.isBlank c) = true)
    (ends : rest.head?.all (fun c => !isUnitCharacter c) = true) :
    unitMark content position = markOf content position symbol (questionAfter rest) := by
  have inside : Text.trimStart content.toList = symbol ++ rest := by
    rw [written]
    exact (takeWhile_run blank starts).2
  have cut := takeWhile_run symbolic ends
  rw [unitMark_eq_markOf, inside, cut.1, cut.2]

/-- A symbol keeps its place behind blanks. -/
theorem starts_of_symbol {symbol : List Char} (rest : List Char) (written : symbol ≠ [])
    (symbolic : symbol.all isUnitCharacter = true) :
    (symbol ++ rest).head?.all (fun c => !Text.isBlank c) = true := by
  cases symbol with
  | nil => exact absurd rfl written
  | cons c more =>
      have first := List.all_eq_true.mp symbolic c List.mem_cons_self
      simp [not_isBlank_of_isUnitCharacter first]

/-- A text of blanks, or one that starts with the question mark behind them, ends a symbol. -/
theorem ends_of_blank {blanks rest : List Char} (blank : blanks.all Text.isBlank = true)
    (ends : rest.head?.all (fun c => c == '?') = true) :
    (blanks ++ rest).head?.all (fun c => !isUnitCharacter c) = true := by
  cases blanks with
  | nil =>
      cases rest with
      | nil => rfl
      | cons c more =>
          have question : c = '?' := by simpa using ends
          simp [not_isUnitCharacter (Or.inr question)]
  | cons c more =>
      have first := List.all_eq_true.mp blank c List.mem_cons_self
      simp [not_isUnitCharacter (Or.inl first)]

/-- A mark that the reader finds is the one that the content asks for. -/
theorem unitMark_describes {content : String} {position : Nat} {mark : UnitMark}
    (reads : unitMark content position = .ok mark) : Descriptor content.toList mark := by
  rw [unitMark_eq_markOf] at reads
  have parts : content.toList.takeWhile Text.isBlank ++
      ((Text.trimStart content.toList).takeWhile isUnitCharacter ++
        (Text.trimStart content.toList).dropWhile isUnitCharacter) = content.toList := by
    rw [List.takeWhile_append_dropWhile, Text.trimStart, List.takeWhile_append_dropWhile]
  have blank := takeWhile_all Text.isBlank content.toList
  have symbolic := takeWhile_all isUnitCharacter (Text.trimStart content.toList)
  revert parts reads symbolic
  generalize (Text.trimStart content.toList).takeWhile isUnitCharacter = symbol
  generalize (Text.trimStart content.toList).dropWhile isUnitCharacter = rest
  intro reads parts symbolic
  rw [← parts]
  cases decided : questionAfter rest with
  | none =>
      rw [decided] at reads
      cases reads
  | some cast =>
      rw [decided, markOf] at reads
      -- Without a symbol only the question mark alone is a descriptor.
      by_cases empty : symbol = []
      · subst empty
        rcases questionAfter_cases decided with
          ⟨rfl, _⟩ | ⟨rfl, between, after, inner, outer, rfl⟩
        · cases reads
        · cases reads
          rw [List.nil_append, ← List.append_assoc]
          exact .normalize _ _ (by rw [List.all_append, blank, inner]; rfl) outer
      · rw [if_neg (by simpa using empty)] at reads
        rcases questionAfter_cases decided with
          ⟨rfl, after⟩ | ⟨rfl, between, after, inner, outer, rfl⟩
        · cases reads
          exact .apply _ _ _ blank empty symbolic after
        · cases reads
          exact .cast _ _ _ _ blank empty symbolic inner outer

/-- The mark that a content asks for is found, wherever the bracket stands. -/
theorem Descriptor.unitMark_eq {content : String} {mark : UnitMark}
    (describes : Descriptor content.toList mark) (position : Nat) :
    unitMark content position = .ok mark := by
  generalize written : content.toList = text at describes
  cases describes with
  | apply before symbol after blank present symbolic blankAfter =>
      have ends : (after ++ []).head?.all (fun c => !isUnitCharacter c) = true :=
        ends_of_blank blankAfter rfl
      rw [List.append_nil] at ends
      rw [unitMark_parts position written blank symbolic
        (starts_of_symbol after present symbolic) ends, questionAfter_blank blankAfter, markOf,
        if_neg (by simpa using present)]
      rfl
  | cast before symbol between after blank present symbolic blankBetween blankAfter =>
      rw [unitMark_parts position written blank symbolic (starts_of_symbol _ present symbolic)
        (ends_of_blank blankBetween rfl), questionAfter_question blankBetween blankAfter, markOf,
        if_neg (by simpa using present)]
      rfl
  | normalize before after blank blankAfter =>
      have reads : unitMark content position =
          markOf content position [] (questionAfter ('?' :: after)) :=
        unitMark_parts position written blank rfl rfl rfl
      rw [reads, ← List.nil_append ('?' :: after), questionAfter_question rfl blankAfter]
      rfl

end Source
end QuantityCalculus
