import QuantityCalculus.FileTree
import QuantityCalculus.JsonValue.Reading
import QuantityCalculus.JsonValue.Written
import QuantityCalculus.Storage.LoadFault

namespace QuantityCalculus

/-!
The settings that are kept between sessions.

Settings are one JSON object.  Each setting that is missing has its default,
and all of them do when the text is no value, no object or carries another
version.  A number that is too long to be read is not passed over like this.
Unknown fields are ignored.  What stands in a known field is only looked at
when a session starts with it.
-/

/-- The settings as they were kept. -/
structure StoredSettings (R : Type) where
  version : JsonValue R
  angleMode : JsonValue R
  autoEval : JsonValue R
  /-- The names of the enabled catalogs, or none for all catalogs. -/
  enabled : Option (List (JsonValue R))
deriving Repr

namespace StoredSettings

variable {R : Type}

/-- The fields in which settings are kept. -/
def versionField : String := "version"
def angleModeField : String := "angle_mode"
def autoEvalField : String := "auto_eval"
def enabledField : String := "enabled"

/-- The version of the form in which settings are kept. -/
def currentVersion : JsonValue R := .whole 1

/-- The settings where nothing was kept. -/
def initial : StoredSettings R :=
  ⟨currentVersion, .string "deg", .truth true, none⟩

/-- The enabled catalogs of a field; anything but a list stands for all catalogs. -/
def enabledOf : Option (JsonValue R) -> Option (List (JsonValue R))
  | some (.list items) => some items
  | _ => none

/-- The settings in the fields of an object. -/
def ofFields (fields : Table (JsonValue R)) : StoredSettings R where
  version := (fields.get? versionField).getD initial.version
  angleMode := (fields.get? angleModeField).getD initial.angleMode
  autoEval := (fields.get? autoEvalField).getD initial.autoEval
  enabled := enabledOf (fields.get? enabledField)

/-- The settings as one value. -/
def toJson (settings : StoredSettings R) : JsonValue R :=
  .object
    [(versionField, settings.version), (angleModeField, settings.angleMode),
     (autoEvalField, settings.autoEval),
     (enabledField, (settings.enabled.map JsonValue.list).getD .null)]

variable [Scalar R]

/-- The fields of a value that carries the current version. -/
def currentFields? (value : JsonValue R) : Option (Table (JsonValue R)) := do
  let fields ← value.fields?
  if ((fields.get? versionField).getD .null).isOne then some fields else none

/-- The settings that a value stands for. -/
def ofValue (value : JsonValue R) : StoredSettings R :=
  ((currentFields? value).map ofFields).getD initial

/-- The settings that a text keeps; a text that is no value keeps none. -/
def read (content : String) : Except LoadFault (StoredSettings R) :=
  match JsonValue.read content.toList with
  | .ok value => .ok (ofValue value)
  | .error .malformed => .ok initial
  | .error .numberTooLong => .error .numberTooLong

end StoredSettings

namespace FileTree

variable {R : Type} [Scalar R]

/-- Where settings are kept. -/
def settingsPath : String := "config.json"

/-- The settings that a tree keeps. -/
def loadSettings (tree : FileTree) : Except LoadFault (StoredSettings R) :=
  match tree.text? settingsPath with
  | some content => StoredSettings.read content
  | none => .ok .initial

/-- The text of some fields, with the current version. -/
def settingsText (fields : Table (JsonValue R)) : String :=
  (JsonValue.object
    (fields.set StoredSettings.versionField StoredSettings.currentVersion)).pageText

/-- Keeps some fields as the settings. -/
def saveSettings (tree : FileTree) (fields : Table (JsonValue R)) : FileTree × Bool :=
  tree.write settingsPath (settingsText fields)

end FileTree
end QuantityCalculus
