import QuantityCalculus.Proofs.Arithmetic.Negation
import QuantityCalculus.Proofs.Storage.FunctionLines
import QuantityCalculus.Storage.Constants

namespace QuantityCalculus

/-!
# Constants read back

A constant has a line of its own, with its name and the shortest text of its value.  Such a
text has no blanks and no semicolon, so it is found on its line as it is written, and the
text of a whole table gives back all of its constants but those that are always there.

That the shortest text of a number is read as this number is left to the numbers.  For the
infinite values and the undefined one, which have names, it holds at once.
-/

variable {R : Type} [Scalar R]

/-! ## Lines -/

/-- A number whose shortest text can stand on a line and is read as the number. -/
structure RereadsFromLine (value : R) : Prop where
  assignable : IsAssignable (Scalar.shortest value)
  same : Number.read? (Scalar.shortest value) = some value

namespace FileTree

variable {name : String} {value : R}

/-- The line of a constant, without its end. -/
def constantContent (entry : String × R) : String :=
  entry.1 ++ " = " ++ String.ofList (Scalar.shortest entry.2)

theorem toList_constantContent (name : String) (value : R) :
    (constantContent (name, value)).toList = name.toList ++ ([' ', '=', ' '] ++
      Scalar.shortest value) := by
  simp [constantContent]

/-- A constant is found on its line. -/
theorem readConstant?_constantContent (rereads : RereadsFromLine value)
    (named : Text.isName name.toList = true) :
    readConstant? (constantContent (name, value)).toList = some (name, value) := by
  have noComment : (Text.trimStart (constantContent (name, value)).toList).head? ≠ some '#' := by
    rw [toList_constantContent, Source.trimStart_of_head fun c first =>
      (visible_of_isNameCharacter c (head_of_isName named _ c first)).1]
    intro first
    exact (visible_of_isNameCharacter '#' (head_of_isName named _ '#' first)).2.1 rfl
  rw [readConstant?, if_neg noComment, toList_constantContent,
    rereads.assignable.assignment? named, Option.bind_eq_bind, Option.bind_some]
  dsimp only
  rw [rereads.same]
  rfl

/-- The constants that the lines of a text define, line by line. -/
def definitionsIn (content : String) : Table R :=
  (Text.lines content.toList).filterMap readConstant?

theorem readConstants_eq_update (content : String) :
    (readConstants content : Table R) = Table.update [] (definitionsIn content) := by
  rw [readConstants, Table.update, definitionsIn, List.foldl_filterMap]
  refine List.foldl_ext _ _ [] fun table line _ => ?_
  cases (readConstant? line : Option (String × R)) <;> rfl

theorem distinct_readConstants (content : String) :
    (readConstants content : Table R).keys.Nodup := by
  have none : (Table.keys ([] : Table R)).Nodup := List.nodup_nil
  rw [readConstants_eq_update]
  exact Table.nodup_keys_update none _

/-- The table of the lines of some constants. -/
theorem readConstants_lines {entries : Table R}
    (names : forall entry, entry ∈ entries -> Text.isName entry.1.toList = true)
    (rereads : forall entry, entry ∈ entries -> RereadsFromLine entry.2) :
    readConstants (String.join (entries.map constantLine)) = Table.update [] entries := by
  have content : forall entry, entry ∈ entries -> IsContentLine (constantContent entry) :=
    fun entry member => (rereads entry member).assignable.isContentLine (names entry member)
      (toList_constantContent entry.1 entry.2)
  have lines : Text.linesOf (String.join (entries.map constantLine)) =
      entries.map constantContent := by
    have ended : entries.map constantLine = (entries.map constantContent).map (· ++ "\n") := by
      rw [List.map_map]
      rfl
    rw [ended]
    refine Text.linesOf_join fun line member => ?_
    rcases List.mem_map.mp member with ⟨entry, listed, rfl⟩
    exact (content entry listed).unbroken
  have cut : Text.lines (String.join (entries.map constantLine)).toList =
      entries.map fun entry => (constantContent entry).toList := by
    have texts := congrArg (List.map String.toList) lines
    rw [Text.linesOf, List.map_map, List.map_map] at texts
    refine Eq.trans ?_ texts
    exact ((List.map_congr_left fun _ _ => String.toList_ofList).trans (List.map_id _)).symm
  rw [readConstants_eq_update, definitionsIn, cut, List.filterMap_map]
  refine congrArg (Table.update []) ((List.filterMap_congr fun entry member => ?_).trans
    List.filterMap_some)
  exact readConstant?_constantContent (rereads entry member) (names entry member)

/-- The text of a table gives back the constants that are not always there. -/
theorem get?_readConstants_constantsText {constants : Table R} (distinct : constants.keys.Nodup)
    (names : forall name, name ∈ constants.keys -> builtInConstants.contains name = false ->
      Text.isName name.toList = true)
    (rereads : forall name value, builtInConstants.contains name = false ->
      constants.get? name = some value -> RereadsFromLine value) (name : String) :
    (readConstants (constantsText constants)).get? name =
      if builtInConstants.contains name then none else constants.get? name := by
  have written : forall entry, entry ∈ Text.sortedBy Prod.fst
      (constants.filter fun entry => !builtInConstants.contains entry.1) <->
        entry ∈ constants ∧ builtInConstants.contains entry.1 = false := by
    intro entry
    rw [Text.mem_sortedBy, List.mem_filter, Bool.not_eq_true']
  have found : forall entry, entry ∈ constants -> constants.get? entry.1 = some entry.2 :=
    fun _ => Table.get?_of_mem distinct
  rw [constantsText, readConstants_lines (fun entry member => ?_) fun entry member => ?_]
  · rcases Table.get?_update_cases [] _ name with ⟨absent, none⟩ | ⟨value, member, some⟩
    · rw [none]
      split
      · rfl
      · rename_i own
        refine ((Table.get?_eq_none_iff _ _).mpr fun there => absent ?_).symm
        rcases List.mem_map.mp there with ⟨entry, member, rfl⟩
        exact List.mem_map.mpr
          ⟨entry, (written entry).mpr ⟨member, Bool.eq_false_iff.mpr own⟩, rfl⟩
    · rcases (written _).mp member with ⟨inside, own⟩
      rw [some, if_neg (Bool.eq_false_iff.mp own)]
      exact (found _ inside).symm
  · rcases (written entry).mp member with ⟨inside, own⟩
    exact names entry.1 (List.mem_map.mpr ⟨entry, inside, rfl⟩) own
  · rcases (written entry).mp member with ⟨inside, own⟩
    exact rereads entry.1 entry.2 own (found entry inside)

end FileTree

/-! ## Numbers -/

/-- The signs in the texts of numbers. -/
def isNumberSign (c : Char) : Bool :=
  isNumeral c || Text.isNameCharacter c

theorem isAssignable_of_numberSigns {text : List Char} (written : text ≠ [])
    (signs : text.all isNumberSign = true) : IsAssignable text := by
  have visible : forall c, isNumberSign c = true ->
      Text.isBlank c = false ∧ c ≠ '#' ∧ c ≠ ';' := fun c sign =>
    (Bool.or_eq_true_iff.mp sign).elim (visible_of_isNumeral c) (visible_of_isNameCharacter c)
  have unblank : forall c, c ∈ text -> Text.isBlank c = false :=
    fun c member => (visible c (List.all_eq_true.mp signs c member)).1
  exact ⟨.of_all signs visible, written, fun c first => unblank c (List.mem_of_head? first),
    fun c last => unblank c (List.mem_of_getLast? last)⟩

/-- The shortest text of a finite number consists of numerals. -/
theorem numberSigns_shortest {value : Float} (finite : Number.isFinite value = true) :
    (Scalar.shortest value).all isNumberSign = true := by
  rcases Number.parts_of_isFinite finite with ⟨negative, mantissa, exponent, found⟩
  rcases shortestText_shape found with ⟨magnitude, written, isMagnitude⟩
  have numerals : magnitude.all isNumberSign = true := List.all_eq_true.mpr fun c member => by
    rw [isNumberSign, List.all_eq_true.mp isMagnitude.numerals c member]
    rfl
  change (Number.shortestText value).all isNumberSign = true
  rw [written]
  cases negative with
  | false => exact numerals
  | true =>
      rw [Number.withSign, if_pos rfl, List.all_cons, numerals]
      rfl

/-- A binary number stands on its line as it has to, once its shortest text is read as the number;
the latter is only a question for finite ones. -/
theorem rereadsFromLine_of_read {value : Float}
    (reads : Number.isFinite value = true ->
      Number.read? (Scalar.shortest value) = some value) : RereadsFromLine value := by
  cases finite : Number.isFinite value with
  | true =>
      have same := reads finite
      refine ⟨isAssignable_of_numberSigns (fun none => ?_) (numberSigns_shortest finite), same⟩
      rw [none] at same
      cases same
  | false =>
      rcases Number.not_finite_cases finite with rfl | rfl | rfl
      all_goals
        exact ⟨isAssignable_of_numberSigns (by decide +kernel) (by decide +kernel),
          by decide +kernel⟩

end QuantityCalculus
