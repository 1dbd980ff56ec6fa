import QuantityCalculus.Session.Basic
import QuantityCalculus.Storage.Catalogs
import QuantityCalculus.Storage.Constants
import QuantityCalculus.Storage.Functions

namespace QuantityCalculus

/-!
The start of a session, from what an earlier one kept.

The catalogs that are always there come first, so that a kept catalog takes
the place of one of the same name.  A session that keeps nothing starts as if
an empty tree had been kept.
-/

/-- How a session is to run. -/
structure SessionOptions where
  /-- The angle mode to start with, whatever was kept. -/
  angleMode : Option AngleMode
  places : Nat
  verifies : Bool
deriving Repr

variable {R : Type} [Scalar R]

/-- The angle mode that was kept. -/
def StoredSettings.angleModeOf (settings : StoredSettings R) : Except LoadFault AngleMode :=
  match settings.angleMode with
  | .string word => LoadFault.lift (AngleMode.parse word)
  | _ => .error .angleModeNotAWord

/-- The angle mode to start with: the one that is asked for, or else the one that was kept. -/
def StoredSettings.startingMode (settings : StoredSettings R) (options : SessionOptions) :
    Except LoadFault AngleMode :=
  match options.angleMode with
  | some mode => .ok mode
  | none => settings.angleModeOf

/-- A value is the name of a catalog. -/
def JsonValue.isName (name : String) : JsonValue R -> Bool
  | .string text => text == name
  | _ => false

/-- The catalogs that are enabled among those there are. -/
def StoredSettings.enabledAmong (settings : StoredSettings R) (catalogs : List String) :
    Except LoadFault (List String) :=
  match settings.enabled with
  | none => .ok catalogs
  | some items =>
      if items.any JsonValue.isContainer then .error .catalogNameNotAName
      else .ok (catalogs.filter fun name => items.any (JsonValue.isName name))

/-- A new session over what was kept, if anything is kept. -/
def Session.start (options : SessionOptions) (files : Option FileTree) :
    Except LoadFault (Session R) := do
  let tree := files.getD []
  let settings : StoredSettings R ← tree.loadSettings
  let kept : Table R ← tree.loadConstants
  let builtIn : Registry R ← LoadFault.lift (Registry.empty.withBuiltIns options.places)
  let (registry, _) := tree.loadAllCatalogs options.places builtIn
  let (functions, _) ← tree.loadAllFunctions []
  let angleMode ← settings.startingMode options
  let enabled ← settings.enabledAmong registry.catalogs.keys
  let initial := Environment.initial registry
  let (_, scopes) := Scopes.openRoot [] enabled
  .ok { environment :=
          { initial with
            functions, angleMode, constants := initial.constants.update kept }
        scopes
        editing := []
        stash := []
        target := none
        autoEval := settings.autoEval.isTrue
        running := true
        files
        places := options.places
        verifies := options.verifies }

end QuantityCalculus
