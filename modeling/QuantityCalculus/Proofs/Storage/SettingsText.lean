import QuantityCalculus.Proofs.Session.Actions
import QuantityCalculus.Proofs.Storage.JsonText

namespace QuantityCalculus

/-!
# Settings read back

The settings of a session are kept as one object.  A session that starts on the text of it
finds the angle mode in it again, and enables those of its catalogs that are named there.
Where nothing was kept, angles are counted in degrees and all catalogs are enabled.
-/

variable {R : Type}

/-- The fields in which settings are kept. -/
def settingsFields (angleMode : AngleMode) (autoEval : Bool) (enabled : List String) :
    Table (JsonValue R) :=
  [(StoredSettings.angleModeField, .string angleMode.name),
   (StoredSettings.autoEvalField, .truth autoEval),
   (StoredSettings.enabledField, .list (enabled.map .string))]

namespace StoredSettings

variable (angleMode : AngleMode) (autoEval : Bool) (enabled : List String)

/-- The settings as they are read back. -/
def kept : StoredSettings R :=
  ⟨currentVersion, .string angleMode.name, .truth autoEval, some (enabled.map .string)⟩

/-- The version stands behind the settings. -/
theorem set_settingsFields :
    (settingsFields (R := R) angleMode autoEval enabled).set versionField currentVersion =
      settingsFields angleMode autoEval enabled ++ [(versionField, currentVersion)] := by
  have keys : (settingsFields (R := R) angleMode autoEval enabled).keys =
      [angleModeField, autoEvalField, enabledField] := rfl
  exact Table.set_of_not_mem (by rw [keys]; decide) _

section

variable [Scalar R]

theorem readsBack_settings : (JsonValue.object
    ((settingsFields (R := R) angleMode autoEval enabled).set versionField
      currentVersion)).ReadsBack := by
  rw [set_settingsFields]
  have keys : Table.keys (settingsFields (R := R) angleMode autoEval enabled ++
      [(versionField, currentVersion)]) =
        [angleModeField, autoEvalField, enabledField, versionField] := rfl
  refine JsonValue.readsBack_object (by rw [keys]; decide) fun field member => ?_
  simp only [settingsFields, List.cons_append, List.nil_append, List.mem_cons, List.not_mem_nil,
    or_false] at member
  rcases member with rfl | rfl | rfl | rfl
  · exact JsonValue.readsBack_string _
  · exact JsonValue.readsBack_truth _
  · refine JsonValue.readsBack_list fun item inside => ?_
    rcases List.mem_map.mp inside with ⟨name, _, rfl⟩
    exact JsonValue.readsBack_string name
  · exact JsonValue.readsBack_one

/-- What is kept is read back. -/
theorem read_settingsText :
    read (FileTree.settingsText (settingsFields (R := R) angleMode autoEval enabled)) =
      .ok (kept (R := R) angleMode autoEval enabled) := by
  have found := (readsBack_settings (R := R) angleMode autoEval enabled).read (.lines 0)
  rw [read, FileTree.settingsText, JsonValue.pageText, String.toList_ofList, found,
    set_settingsFields]
  rfl

end

theorem angleModeOf_kept :
    (kept (R := R) angleMode autoEval enabled).angleModeOf = .ok angleMode := by
  cases angleMode <;> rfl

/-- Of the catalogs there are, those are enabled that are named. -/
theorem enabledAmong_kept (catalogs : List String) :
    (kept (R := R) angleMode autoEval enabled).enabledAmong catalogs =
      .ok (catalogs.filter fun name => enabled.contains name) := by
  have named : forall name, ((enabled.map .string : List (JsonValue R)).any
      (JsonValue.isName name)) = enabled.contains name := by
    intro name
    rw [List.any_map, List.contains_eq_any_beq]
    exact congrArg (List.any enabled) (funext fun text => (BEq.comm : (text == name) = _))
  have names : ((enabled.map .string : List (JsonValue R)).any JsonValue.isContainer) = false := by
    rw [List.any_map, List.any_eq_false]
    exact fun _ _ => nofun
  rw [kept, enabledAmong]
  dsimp only
  rw [names, if_neg Bool.false_ne_true]
  simp only [named]

theorem angleModeOf_initial : (initial : StoredSettings R).angleModeOf = .ok .deg :=
  rfl

theorem enabledAmong_initial (catalogs : List String) :
    (initial : StoredSettings R).enabledAmong catalogs = .ok catalogs :=
  rfl

end StoredSettings

end QuantityCalculus
