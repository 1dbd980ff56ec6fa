import QuantityCalculus.Proofs.Storage.ConstantLines
import QuantityCalculus.Proofs.Storage.FunctionTexts
import QuantityCalculus.Proofs.Storage.UsableCatalogs

namespace QuantityCalculus

/-!
# Starting on what was kept

A session starts on what an earlier one kept, or on what somebody has written into the same
places.  Lines of constants, texts of functions and directories of catalogs that cannot be used
are passed over, and so are settings that are no value, no object or of another version.

A few things are not passed over.  A whole number in the settings may be too long to be read;
the angle mode may be no word, or the word for no mode; a container may stand among the names
of the enabled catalogs; and a text may be called like the ending of functions and nothing
else, which is then looked for under that name with the ending once more.  In these cases there
is no session.  In all others there is one, and it has everything that can be used.
-/

variable {R : Type}

/-! ## Where a session may start -/

namespace FileTree

instance (path : String) : Decidable (IsPlainPath path) :=
  inferInstanceAs (Decidable (plainPath path = path))

/-- Constants and functions are texts, if they are there.  What the texts say is left open, and so
is everything else in the tree. -/
structure IsDataDirectory (tree : FileTree) : Prop where
  plain : forall path entry, tree.get? path = some entry -> IsPlainPath path
  constants : tree.get? constantsPath ≠ some .directory
  functions : forall name, IsPart (functionPath name) ->
    tree.get? (functionPath name) ≠ some .directory

/-- A data directory is told by its entries. -/
theorem isDataDirectory_of_entries {tree : FileTree}
    (each : forall entry, entry ∈ tree -> IsPlainPath entry.1 ∧
      (entry.2 = .directory -> entry.1 ≠ constantsPath ∧
        hasEnding functionEnding entry.1 = false)) : tree.IsDataDirectory where
  plain := fun path entry found => (each _ (Table.mem_of_get? found)).1
  constants := fun found => ((each _ (Table.mem_of_get? found)).2 rfl).1 rfl
  functions := by
    intro name _ found
    have ends := ((each _ (Table.mem_of_get? found)).2 rfl).2
    rw [functionPath, hasEnding_append] at ends
    cases ends

end FileTree

/-! ## Settings -/

/-- The angle mode of a word is the one that is called like it, in any letter case. -/
theorem AngleMode.parse_cases (word : String) :
    (∃ mode, parse word = .ok mode ∧ mode.name = Text.lowerCase (Text.trimmed word)) ∨
      (parse word = .error (.unknownAngleMode word) ∧
        forall mode : AngleMode, mode.name ≠ Text.lowerCase (Text.trimmed word)) := by
  rw [parse]
  split
  · rename_i mode found
    have matched := List.find?_some found
    exact Or.inl ⟨mode, rfl, beq_iff_eq.mp matched⟩
  · rename_i none
    refine Or.inr ⟨rfl, fun mode same => ?_⟩
    have among : mode ∈ [deg, rad, grad] := by cases mode <;> decide
    have differs := List.find?_eq_none.mp none mode among
    exact differs (beq_iff_eq.mpr same)

namespace StoredSettings

/-- The angle mode that settings give a session which is not told its own. -/
def Names (settings : StoredSettings R) (mode : AngleMode) : Prop :=
  ∃ word, settings.angleMode = .string word ∧
    mode.name = Text.lowerCase (Text.trimmed word)

/-- What is wrong with the angle mode of settings. -/
inductive MistakesMode (settings : StoredSettings R) : LoadFault -> Prop
  | unknown {word : String} (kept : settings.angleMode = .string word)
      (noMode : forall mode : AngleMode, mode.name ≠ Text.lowerCase (Text.trimmed word)) :
      MistakesMode settings (.failure (.unknownAngleMode word))
  | noWord (other : forall word, settings.angleMode ≠ .string word) :
      MistakesMode settings .angleModeNotAWord

theorem MistakesMode.not_names {settings : StoredSettings R} {fault : LoadFault}
    (mistakes : settings.MistakesMode fault) (mode : AngleMode) : ¬ settings.Names mode := by
  rintro ⟨word, kept, named⟩
  cases mistakes with
  | unknown sameKept noMode =>
      cases sameKept.symm.trans kept
      exact noMode mode named
  | noWord other => exact other word kept

theorem angleModeOf_cases (settings : StoredSettings R) :
    (∃ mode, settings.angleModeOf = .ok mode ∧ settings.Names mode) ∨
      ∃ fault, settings.angleModeOf = .error fault ∧ settings.MistakesMode fault := by
  rw [angleModeOf]
  split
  · rename_i word kept
    rcases AngleMode.parse_cases word with ⟨mode, parsed, named⟩ | ⟨refused, noMode⟩
    · rw [parsed]
      exact Or.inl ⟨mode, rfl, word, kept, named⟩
    · rw [refused]
      exact Or.inr ⟨_, rfl, .unknown kept noMode⟩
  · rename_i other
    exact Or.inr ⟨_, rfl, .noWord other⟩

/-- A container stands among the names of the enabled catalogs. -/
def MistakesEnabled (settings : StoredSettings R) : Prop :=
  ∃ items item, settings.enabled = some items ∧ item ∈ items ∧ item.isContainer = true

/-- Without such a container those catalogs are enabled that are named, or all of them. -/
theorem enabledAmong_cases (settings : StoredSettings R) (catalogs : List String) :
    (∃ enabled, settings.enabledAmong catalogs = .ok enabled ∧ ¬ settings.MistakesEnabled ∧
        forall name, name ∈ enabled <-> name ∈ catalogs ∧
          forall items, settings.enabled = some items -> .string name ∈ items) ∨
      (settings.enabledAmong catalogs = .error .catalogNameNotAName ∧
        settings.MistakesEnabled) := by
  have isName : forall (name : String) (item : JsonValue R),
      item.isName name = true <-> item = .string name := by
    intro name item
    cases item with
    | string text => simp [JsonValue.isName]
    | _ => simp [JsonValue.isName]
  rw [enabledAmong]
  cases kept : settings.enabled with
  | none =>
      refine Or.inl ⟨catalogs, rfl, ?_, by simp⟩
      rintro ⟨items, item, found, _⟩
      cases kept.symm.trans found
  | some items =>
      dsimp only
      split
      · rename_i container
        rcases List.any_eq_true.mp container with ⟨item, member, isContainer⟩
        exact Or.inr ⟨rfl, items, item, kept, member, isContainer⟩
      · rename_i noContainer
        refine Or.inl ⟨_, rfl, ?_, fun name => ?_⟩
        · rintro ⟨others, item, found, member, isContainer⟩
          cases kept.symm.trans found
          exact noContainer (List.any_eq_true.mpr ⟨item, member, isContainer⟩)
        · simp [List.mem_filter, isName]

end StoredSettings

section

variable [Scalar R]

namespace FileTree

/-- The settings that a tree keeps, or those where nothing is kept if they cannot be used. -/
def keptSettings (tree : FileTree) : StoredSettings R :=
  (((tree.text? settingsPath).bind fun content =>
    (JsonValue.read content.toList).toOption).map StoredSettings.ofValue).getD .initial

variable (R) in
/-- The settings have a whole number that is too long to be read. -/
def HasLongNumber (tree : FileTree) : Prop :=
  ∃ content, tree.text? settingsPath = some content ∧
    (JsonValue.read content.toList : Except JsonValue.ReadingFault (JsonValue R)) =
      .error .numberTooLong

/-- Only a number that is too long keeps settings from being loaded. -/
theorem loadSettings_cases (tree : FileTree) :
    (tree.loadSettings = (.ok tree.keptSettings : Except LoadFault (StoredSettings R)) ∧
        ¬ tree.HasLongNumber R) ∨
      (tree.loadSettings = (.error .numberTooLong : Except LoadFault (StoredSettings R)) ∧
        tree.HasLongNumber R) := by
  rw [loadSettings, keptSettings]
  cases kept : tree.text? settingsPath with
  | none =>
      refine Or.inl ⟨rfl, ?_⟩
      rintro ⟨content, found, _⟩
      cases kept.symm.trans found
  | some content =>
      dsimp only
      rw [StoredSettings.read, Option.bind_some]
      have only : tree.HasLongNumber R ->
          (JsonValue.read content.toList : Except JsonValue.ReadingFault (JsonValue R)) =
            .error .numberTooLong := by
        rintro ⟨other, found, long⟩
        cases kept.symm.trans found
        exact long
      cases outcome : (JsonValue.read content.toList :
          Except JsonValue.ReadingFault (JsonValue R)) with
      | ok value => exact Or.inl ⟨rfl, fun long => nomatch outcome.symm.trans (only long)⟩
      | error fault =>
          cases fault with
          | malformed => exact Or.inl ⟨rfl, fun long => nomatch outcome.symm.trans (only long)⟩
          | numberTooLong => exact Or.inr ⟨rfl, content, kept, outcome⟩

theorem eq_keptSettings {tree : FileTree} {settings : StoredSettings R}
    (loaded : tree.loadSettings = .ok settings) : settings = tree.keptSettings := by
  rcases tree.loadSettings_cases (R := R) with ⟨found, _⟩ | ⟨refused, _⟩
  · exact Except.ok.inj (loaded.symm.trans found)
  · cases refused.symm.trans loaded

/-! ## Constants, functions and catalogs -/

/-- The value that the last line for a name gives it. -/
def keptConstant? (tree : FileTree) (name : String) : Option R :=
  (tree.text? constantsPath).bind fun content =>
    Table.get? name (definitionsIn content).reverse

/-- Constants are always loaded. -/
theorem exists_loadConstants {tree : FileTree}
    (noDirectory : tree.get? constantsPath ≠ some .directory) :
    ∃ kept : Table R, tree.loadConstants = .ok kept ∧ forall (table : Table R) name,
      (table.update kept).get? name = (tree.keptConstant? name).or (table.get? name) := by
  have same : tree.entry? constantsPath = tree.get? constantsPath :=
    entry?_part isPart_constantsPath
  rw [loadConstants]
  simp only [keptConstant?, text?, same]
  cases found : tree.get? constantsPath with
  | none => exact ⟨[], rfl, fun table name => rfl⟩
  | some entry =>
      cases entry with
      | directory => exact absurd found noDirectory
      | text content =>
          refine ⟨_, rfl, fun table name => ?_⟩
          have last := Table.get?_update_last [] (definitionsIn (R := R) content) name
          rw [← readConstants_eq_update, Table.get?, Option.or_none] at last
          rw [Table.get?_update table (distinct_readConstants content), last]
          rfl

/-- A text is called like the ending of functions and nothing else, and there is none of that name
with the ending once more. -/
def HasNamelessFunction (tree : FileTree) : Prop :=
  (∃ entry, tree.get? functionEnding = some entry) ∧
    tree.get? (functionPath functionEnding) = none

/-- All functions that can be read are loaded, unless there is one without a name. -/
theorem IsDataDirectory.loadAllFunctions_cases {tree : FileTree}
    (directory : tree.IsDataDirectory) :
    (∃ functions count, tree.loadAllFunctions ([] : FunctionStore R) = .ok (functions, count) ∧
        ¬ tree.HasNamelessFunction ∧ forall name definition,
          functions.get? name = some definition <->
            IsPart (functionPath name) ∧ tree.function? name = some definition) ∨
      (tree.loadAllFunctions ([] : FunctionStore R) =
          .error (.failure (.unknownFunction functionEnding)) ∧ tree.HasNamelessFunction) := by
  by_cases nameless : tree.HasNamelessFunction
  · exact Or.inr ⟨loadAllFunctions_unnamed directory.plain directory.functions
      nameless.1 nameless.2, nameless⟩
  · have named : tree.get? functionEnding = none ∨
        ∃ entry, tree.get? (functionPath functionEnding) = some entry := by
      rw [HasNamelessFunction, not_and_or, ← Option.isSome_iff_exists, Option.not_isSome_iff_eq_none,
        ← ne_eq, Option.ne_none_iff_exists'] at nameless
      exact nameless
    rcases exists_loadAllFunctions (R := R) directory.plain directory.functions named with
      ⟨functions, count, loaded, found⟩
    exact Or.inl ⟨functions, count, loaded, nameless, found⟩

end FileTree

/-- The catalogs that are always there can be installed, however numbers are computed. -/
theorem exists_withBuiltIns (places : Nat) :
    ∃ builtIn : Registry R, Registry.empty.withBuiltIns places = .ok builtIn := by
  have succeeds : (Registry.empty.withBuiltIns places :
      Except Failure (Registry R)).toOption.isSome = true := by
    -- the texts of the catalogs are read without computing any of the numbers in them
    set_option maxRecDepth 100000 in with_unfolding_all rfl
  exact ⟨_, eq_ok_of_isSome Registry.empty succeeds⟩

/-! ## Sessions -/

namespace Session

open FileTree

variable (R) in
/-- What keeps a session from starting on a tree. -/
inductive Hinders (options : SessionOptions) (tree : FileTree) : LoadFault -> Prop
  | longNumber (has : tree.HasLongNumber R) : Hinders options tree .numberTooLong
  | namelessFunction (has : tree.HasNamelessFunction) :
      Hinders options tree (.failure (.unknownFunction functionEnding))
  | angleMode {fault : LoadFault} (unasked : options.angleMode = none)
      (mistakes : (tree.keptSettings : StoredSettings R).MistakesMode fault) :
      Hinders options tree fault
  | enabled (mistakes : (tree.keptSettings : StoredSettings R).MistakesEnabled) :
      Hinders options tree .catalogNameNotAName

/-- A session has everything that a tree keeps and that can be used. -/
structure TakesOver (session : Session R) (options : SessionOptions) (tree : FileTree)
    (builtIn : Registry R) : Prop where
  angleMode : options.angleMode = some session.environment.angleMode ∨
    (options.angleMode = none ∧
      (tree.keptSettings : StoredSettings R).Names session.environment.angleMode)
  autoEval : session.autoEval = (tree.keptSettings : StoredSettings R).autoEval.isTrue
  enabled : forall name, name ∈ session.enabledIn base <->
    name ∈ session.environment.registry.catalogs.keys ∧
      forall items, (tree.keptSettings : StoredSettings R).enabled = some items ->
        .string name ∈ items
  constants : forall name, session.environment.constants.get? name =
    (tree.keptConstant? name).or (Table.get? name builtInConstantTable)
  functions : forall name definition,
    session.environment.functions.get? name = some definition <->
      IsPart (functionPath name) ∧ tree.function? name = some definition
  catalogs : forall name, session.environment.registry.catalogs.get? name =
    (tree.keptCatalog? options.places builtIn name).or (builtIn.catalogs.get? name)
  /-- A catalog is kept, with all that its unit files say, just if it can be used. -/
  usable : forall name, catalogPath name ∈ tree.catalogDirectories ->
    (∃ files catalog, tree.IsUsable options.places
          (tree.registryBefore options.places builtIn name) (catalogPath name) files ∧
        tree.keptCatalog? options.places builtIn name = some catalog ∧
        catalog.IsMadeOf files) ∨
      ((forall files, ¬ tree.IsUsable options.places
          (tree.registryBefore options.places builtIn name) (catalogPath name) files) ∧
        tree.keptCatalog? options.places builtIn name = none)
  /-- A catalog is missing only if it was refused, for a declaration or for a directory in it. -/
  leftOut : forall name, catalogPath name ∈ tree.catalogDirectories ->
    tree.keptCatalog? options.places builtIn name = none ->
      ∃ fault, tree.loadCatalog options.places (tree.registryBefore options.places builtIn name)
        (catalogPath name) = .error fault ∧ fault.LeavesOut
  files : session.files = some tree

section

variable {options : SessionOptions} {tree : FileTree} {fault : LoadFault}

/-- A start that fails is hindered by what it fails with. -/
theorem hinders_of_start (directory : tree.IsDataDirectory)
    (failed : (Session.start options (some tree) : Except LoadFault (Session R)) =
      .error fault) : Hinders R options tree fault := by
  rcases bind_eq_error.mp failed with here | ⟨settings, found, failed⟩
  · rcases tree.loadSettings_cases (R := R) with ⟨loaded, _⟩ | ⟨refused, long⟩
    · cases loaded.symm.trans here
    · cases refused.symm.trans here
      exact .longNumber long
  have same := eq_keptSettings found
  rcases bind_eq_error.mp failed with here | ⟨constants, _, failed⟩
  · rcases exists_loadConstants (R := R) directory.constants with ⟨kept, loaded, _⟩
    cases loaded.symm.trans here
  rcases bind_eq_error.mp failed with here | ⟨builtIn, _, failed⟩
  · rcases exists_withBuiltIns (R := R) options.places with ⟨builtIn, built⟩
    cases (LoadFault.lift_eq_ok.mpr built).symm.trans here
  rcases bind_eq_error.mp failed with here | ⟨⟨functions, count⟩, _, failed⟩
  · rcases directory.loadAllFunctions_cases (R := R) with
      ⟨functions, count, loaded, _⟩ | ⟨refused, nameless⟩
    · cases loaded.symm.trans here
    · cases refused.symm.trans here
      exact .namelessFunction nameless
  rcases bind_eq_error.mp failed with here | ⟨mode, _, failed⟩
  · rw [StoredSettings.startingMode] at here
    split at here
    · cases here
    · rename_i unasked
      rcases settings.angleModeOf_cases with ⟨mode, read, _⟩ | ⟨found, refused, mistakes⟩
      · cases read.symm.trans here
      · cases refused.symm.trans here
        exact .angleMode unasked (same ▸ mistakes)
  rcases bind_eq_error.mp failed with here | ⟨enabled, _, failed⟩
  · rcases settings.enabledAmong_cases _ with ⟨enabled, read, _⟩ | ⟨refused, mistakes⟩
    · cases read.symm.trans here
    · cases refused.symm.trans here
      exact .enabled (same ▸ mistakes)
  · cases failed

variable {parts : Parts R}

/-- Nothing hinders a session whose parts can be loaded. -/
theorem Parts.LoadedFrom.not_hinders (loaded : parts.LoadedFrom options (some tree))
    (directory : tree.IsDataDirectory) : ¬ Hinders R options tree fault := by
  have same : parts.settings = tree.keptSettings := eq_keptSettings loaded.settings
  intro hinders
  cases hinders with
  | longNumber long =>
      rcases tree.loadSettings_cases (R := R) with ⟨_, short⟩ | ⟨refused, _⟩
      · exact short long
      · cases refused.symm.trans loaded.settings
  | namelessFunction nameless =>
      rcases loaded.functions with ⟨count, found⟩
      rcases directory.loadAllFunctions_cases (R := R) with
        ⟨_, _, _, named, _⟩ | ⟨refused, _⟩
      · exact named nameless
      · cases refused.symm.trans found
  | angleMode unasked mistakes =>
      have read := loaded.angleMode
      rw [StoredSettings.startingMode, unasked, same] at read
      rcases StoredSettings.angleModeOf_cases (R := R) tree.keptSettings with
        ⟨mode, _, names⟩ | ⟨_, refused, _⟩
      · exact mistakes.not_names mode names
      · cases refused.symm.trans read
  | enabled mistakes =>
      rcases parts.settings.enabledAmong_cases (parts.registry options (some tree)).catalogs.keys
        with ⟨_, _, noMistake, _⟩ | ⟨refused, _⟩
      · exact noMistake (same ▸ mistakes)
      · cases refused.symm.trans loaded.enabled

/-- A session whose parts can be loaded has everything that can be used. -/
theorem Parts.LoadedFrom.takesOver (loaded : parts.LoadedFrom options (some tree))
    (directory : tree.IsDataDirectory) :
    (parts.session options (some tree)).TakesOver options tree parts.builtIn := by
  have same : parts.settings = tree.keptSettings := eq_keptSettings loaded.settings
  rcases exists_loadConstants (R := R) directory.constants with ⟨kept, constants, updated⟩
  cases constants.symm.trans loaded.constants
  rcases loaded.functions with ⟨count, functionsLoaded⟩
  exact
    { angleMode := by
        have read := loaded.angleMode
        rw [StoredSettings.startingMode] at read
        split at read
        · rename_i mode asked
          exact Or.inl (asked.trans (congrArg some (Except.ok.inj read)))
        · rename_i unasked
          rcases parts.settings.angleModeOf_cases with ⟨mode, found, names⟩ | ⟨_, refused, _⟩
          · cases found.symm.trans read
            exact Or.inr ⟨unasked, same ▸ names⟩
          · cases refused.symm.trans read
      autoEval := congrArg (fun settings => settings.autoEval.isTrue) same
      enabled := by
        intro name
        rcases parts.settings.enabledAmong_cases
          (parts.registry options (some tree)).catalogs.keys with
          ⟨enabled, found, _, among⟩ | ⟨refused, _⟩
        · cases found.symm.trans loaded.enabled
          rw [← same, enabledIn, Text.mem_sortedNames]
          exact among name
        · cases refused.symm.trans loaded.enabled
      constants := updated builtInConstantTable
      functions := by
        rcases directory.loadAllFunctions_cases (R := R) with
          ⟨functions, _, found, _, among⟩ | ⟨refused, _⟩
        · cases found.symm.trans functionsLoaded
          exact among
        · cases refused.symm.trans functionsLoaded
      catalogs := get?_loadAllCatalogs directory.plain parts.builtIn
      usable := fun name => keptCatalog?_usable directory.plain
        (Registry.Reachable.empty.withBuiltIns loaded.builtIn).sound
      leftOut := by
        intro name listed nothing
        rcases keptCatalog?_cases directory.plain parts.builtIn listed with
          ⟨_, catalog, _, _, found⟩ | ⟨fault, refused, leavesOut, _⟩
        · cases nothing.symm.trans found
        · exact ⟨fault, refused, leavesOut⟩
      files := rfl }

/--
Over every data directory a session starts, whatever the texts in it say, unless one of a few
things stands in the settings or among the functions; then it fails with just that.  A session
that starts has everything that can be used: the settings, the last readable line of each
constant, each function whose text can be read, and each catalog whose unit files are all read and mention
only units that are among them or in the catalogs before it.
-/
theorem start_unless_hindered (options : SessionOptions) {tree : FileTree}
    (directory : tree.IsDataDirectory) :
    (∃ fault, Hinders R options tree fault ∧
        (Session.start options (some tree) : Except LoadFault (Session R)) = .error fault) ∨
      ((forall fault, ¬ Hinders R options tree fault) ∧
        ∃ (session : Session R) (builtIn : Registry R),
          Session.start options (some tree) = .ok session ∧
          Registry.empty.withBuiltIns options.places = .ok builtIn ∧
          session.TakesOver options tree builtIn) := by
  cases started : (Session.start options (some tree) : Except LoadFault (Session R)) with
  | error fault => exact Or.inl ⟨fault, hinders_of_start directory started, rfl⟩
  | ok session =>
      rcases start_eq_ok.mp started with ⟨parts, loaded, rfl⟩
      exact Or.inr ⟨fun _ => loaded.not_hinders directory, _, parts.builtIn, rfl, loaded.builtIn,
        loaded.takesOver directory⟩

end

end Session

end

/-! ## Two data directories -/

namespace Session

open FileTree

/-- A session that is not told its angle mode. -/
def unaskedOptions : SessionOptions := ⟨none, 15, true⟩

/-- A tree with something of each kind that can be used, and something that cannot. -/
def mixedTree : FileTree :=
  [("config.json", .text
      "\x7b\"version\": 1, \"angle_mode\": \" RAD\", \"enabled\": [\"t\", 7, \"u\"]\x7d"),
   ("constants.vars", .text "g = 9\nlost\ng = 7\ng = fast\n"),
   ("half.math", .text "x/2\n"), ("broken.math", .text "x/\n"),
   ("t.units", .directory), ("t.units/min.unit", .text "Minute\nmin*60=s\n"),
   ("u.units", .directory), ("u.units/a.unit", .text "A\na*b=c\n")]

/-- A session starts over it with what can be used. -/
theorem start_unless_hindered_mixed :
    ∃ (session : Session Float) (builtIn : Registry Float),
      Session.start unaskedOptions (some mixedTree) = .ok session ∧
      session.TakesOver unaskedOptions mixedTree builtIn ∧
      session.environment.angleMode = .rad ∧ session.enabledIn base = ["t"] ∧
      session.environment.constants.get? "g" = some 7 ∧
      session.environment.functions.keys = ["half"] ∧
      session.environment.registry.catalogs.keys = ["electric", "t"] := by
  have directory : mixedTree.IsDataDirectory :=
    isDataDirectory_of_entries (by decide +kernel)
  have facts : (Session.start unaskedOptions (some mixedTree) :
      Except LoadFault (Session Float)).toOption.any (fun session => decide (
        session.environment.angleMode = .rad ∧ session.enabledIn base = ["t"] ∧
        session.environment.constants.get? "g" = some 7 ∧
        session.environment.functions.keys = ["half"] ∧
        session.environment.registry.catalogs.keys = ["electric", "t"])) = true := by
    decide +kernel
  rcases start_unless_hindered (R := Float) unaskedOptions directory with
    ⟨fault, _, failed⟩ | ⟨_, session, builtIn, started, _, takesOver⟩
  · rw [failed] at facts
    cases facts
  · rw [started] at facts
    exact ⟨session, builtIn, started, takesOver, of_decide_eq_true facts⟩

/-- Settings with a word for no angle mode are not passed over: there is no session. -/
theorem start_hindered_turns :
    ∃ tree : FileTree, tree.IsDataDirectory ∧
      tree = [("config.json", .text
        "\x7b\"version\": 1, \"angle_mode\": \"turns\"\x7d")] ∧
      forall session : Session Float, Session.start unaskedOptions (some tree) ≠ .ok session := by
  refine ⟨_, isDataDirectory_of_entries (by decide +kernel), rfl, fun session started => ?_⟩
  have refused : (Session.start unaskedOptions (some [("config.json", .text
      "\x7b\"version\": 1, \"angle_mode\": \"turns\"\x7d")]) :
        Except LoadFault (Session Float)).isOk = false := by
    decide +kernel
  rw [started] at refused
  cases refused

end Session

end QuantityCalculus
