import QuantityCalculus.Proofs.Session.Steps
import QuantityCalculus.Proofs.Storage.SettingsText
import QuantityCalculus.Proofs.Storage.Starting

namespace QuantityCalculus

/-!
# Sessions that can be reopened

Whatever lines a session is given, a new session starts on what it keeps.  As long as no
catalog is named with a slash, directories are made for catalogs only, so that none is ever
in the way of the settings, the constants or a function.

A catalog whose name has a slash lies in another directory, which may be named like anything
that is kept.  Such sessions are left open here.
-/

variable {R : Type}

/-! ## What a session keeps -/

namespace Session

open FileTree

/-- What a session keeps. -/
def tree (session : Session R) : FileTree := session.files.getD []

variable [Scalar R]

/-- Nothing is in the way of what the session keeps: the directories are those of catalogs, and
functions have valid names. -/
structure Tidy (session : Session R) : Prop where
  files : session.files = some session.tree
  valid : forall name definition, session.environment.functions.get? name = some definition ->
    validFunctionName.{0} name = .ok ⟨⟩
  plain : forall path entry, session.tree.get? path = some entry -> IsPlainPath path
  directories : forall path, session.tree.get? path = some .directory ->
    ∃ name, path = catalogPath name
  unnamed : session.tree.get? functionEnding = none

/-- The session keeps the settings of the last session that did so, functions under their names,
and no directories but those of its catalogs. -/
structure Filed (options : SessionOptions) (builtIn : Registry R) (settled : Option (Session R))
    (session : Session R) : Prop where
  files : session.files = some session.tree
  places : session.places = options.places
  built : Registry.empty.withBuiltIns options.places = .ok builtIn
  catalogs : forall name, name ∈ builtIn.catalogs.keys ->
    name ∈ session.environment.registry.catalogs.keys
  valid : forall name definition, session.environment.functions.get? name = some definition ->
    validFunctionName.{0} name = .ok ⟨⟩
  plain : forall path entry, session.tree.get? path = some entry -> IsPlainPath path
  directories : forall path, session.tree.get? path = some .directory ->
    ∃ name, name ∈ session.environment.registry.catalogs.keys ∧ path = catalogPath name
  unnamed : session.tree.get? functionEnding = none
  settings : session.tree.get? settingsPath =
    settled.map fun kept => .text (settingsText kept.settings)

/-- No catalog is named with a slash. -/
def Unslashed (session : Session R) : Prop :=
  forall name, name ∈ session.environment.registry.catalogs.keys -> '/' ∉ name.toList

instance (session : Session R) : Decidable session.Unslashed :=
  inferInstanceAs (Decidable (∀ name ∈ session.environment.registry.catalogs.keys,
    '/' ∉ name.toList))

section

variable {options : SessionOptions} {builtIn : Registry R} {settled : Option (Session R)}
  {before after : Session R} {name : String} {definition : FunctionDefinition R}
  {functions : FunctionStore R}

theorem Filed.tidy (filed : before.Filed options builtIn settled) : before.Tidy where
  files := filed.files
  valid := filed.valid
  plain := filed.plain
  directories := fun path found =>
    (filed.directories path found).imp fun _ both => both.2
  unnamed := filed.unnamed

/-! ### Places that are free -/

omit [Scalar R] in
/-- Directories are told by their last letter. -/
theorem Tidy.noDirectory_of_last (tidy : before.Tidy) {path : String}
    (last : path.toList.getLast? ≠ some 's') : before.tree.get? path ≠ some .directory := by
  intro found
  rcases tidy.directories path found with ⟨catalog, rfl⟩
  exact last (getLast?_append catalog (by decide))

omit [Scalar R] in
/-- No directory is in the way of a function. -/
theorem Tidy.noDirectory (tidy : before.Tidy) (name : String) :
    before.tree.get? (functionPath name) ≠ some .directory :=
  tidy.noDirectory_of_last (by rw [functionPath, getLast?_append name (by decide)]; decide)

omit [Scalar R] in
/-- No directory is in the way of a temporary text. -/
theorem Tidy.noScratch (tidy : before.Tidy) (path : String) :
    before.tree.get? (temporaryPath path) ≠ some .directory :=
  tidy.noDirectory_of_last (by rw [temporaryPath, getLast?_append path (by decide)]; decide)

omit [Scalar R] in
/-- No directory is in the way of the constants. -/
theorem Tidy.noConstantsDirectory (tidy : before.Tidy) :
    before.tree.get? constantsPath ≠ some .directory := by
  intro found
  rcases tidy.directories _ found with ⟨name, same⟩
  have ends := hasEnding_append name catalogEnding
  rw [← catalogPath, ← same] at ends
  exact absurd ends (by decide)

/-! ### Places that are written -/

/-- Where a line may write, besides the settings. -/
def IsLinePlace (path : String) : Prop :=
  IsElsewhere path ∨ ∃ name, validFunctionName.{0} name = .ok ⟨⟩ ∧ path = functionPath name

/-- Where a line may write, besides the settings and the constants. -/
def IsOtherPlace (path : String) : Prop :=
  IsLinePlace path ∧ path ≠ constantsPath

theorem IsLinePlace.plain {path : String} (place : IsLinePlace path) : IsPlainPath path := by
  rcases place with elsewhere | ⟨name, valid, rfl⟩
  · exact elsewhere.plain
  · exact (of_validFunctionName valid).1.isPlainPath

theorem not_isLinePlace_settingsPath : ¬ IsLinePlace settingsPath := by
  rintro (elsewhere | ⟨name, _, same⟩)
  · exact elsewhere.settings rfl
  · have last := getLast?_append name (by decide : functionEnding.toList ≠ [])
    rw [← functionPath, ← same] at last
    exact absurd last (by decide)

theorem not_isLinePlace_functionEnding : ¬ IsLinePlace functionEnding := by
  rintro (elsewhere | ⟨name, valid, same⟩)
  · exact elsewhere.functions "" ⟨by decide, by decide, by decide⟩ (by decide)
  · exact (of_validFunctionName valid).2 same.symm

theorem ne_constantsPath_of_last {path : String} (last : path.toList.getLast? ≠ some 's') :
    path ≠ constantsPath := by
  rintro rfl
  exact last (by decide)

theorem isOtherPlace_temporary {path : String} (part : IsPart path) :
    IsOtherPlace (temporaryPath path) := by
  refine ⟨Or.inl part.isElsewhere_temporary, ne_constantsPath_of_last ?_⟩
  rw [temporaryPath, getLast?_append path (by decide)]
  decide

theorem isOtherPlace_function (valid : validFunctionName.{0} name = .ok ⟨⟩) :
    IsOtherPlace (functionPath name) := by
  refine ⟨Or.inr ⟨name, valid, rfl⟩, ne_constantsPath_of_last ?_⟩
  rw [functionPath, getLast?_append name (by decide)]
  decide

theorem isOtherPlace_catalog (whole : '/' ∉ name.toList) {path : String}
    (place : IsCatalogPlace name path) : IsOtherPlace path := by
  refine ⟨Or.inl (place.isElsewhere whole), ?_⟩
  rcases place with rfl | inner
  · intro same
    have ends := hasEnding_append name catalogEnding
    rw [← catalogPath, same] at ends
    exact absurd ends (by decide)
  · exact fun same => isPart_constantsPath.not_isInner (same ▸ inner)

/-! ### Writing -/

/-- A session that has written to some places.  Its catalogs only become more, and so do its
directories. -/
structure WritesTo (paths : String -> Prop) (before after : Session R) : Prop where
  files : after.files = some after.tree
  places : after.places = before.places
  grows : forall name, name ∈ before.environment.registry.catalogs.keys ->
    name ∈ after.environment.registry.catalogs.keys
  valid : forall name definition, after.environment.functions.get? name = some definition ->
    validFunctionName.{0} name = .ok ⟨⟩
  touches : Touches paths (fun path => ∃ name,
    name ∈ after.environment.registry.catalogs.keys ∧ path = catalogPath name)
    before.tree after.tree

omit [Scalar R] in
theorem WritesTo.mono {paths more : String -> Prop} (writes : WritesTo paths before after)
    (widens : forall path, paths path -> more path) : WritesTo more before after :=
  { writes with touches := writes.touches.mono widens fun _ => id }

omit [Scalar R] in
/-- What is kept stays, and so do the catalogs and the functions. -/
theorem Tidy.stays (tidy : before.Tidy) {paths : String -> Prop}
    (files : after.files = before.files) (places : after.places = before.places)
    (registry : after.environment.registry = before.environment.registry)
    (functions : after.environment.functions = before.environment.functions) :
    WritesTo paths before after := by
  have tree : after.tree = before.tree := congrArg (Option.getD · []) files
  refine ⟨by rw [files, tree, tidy.files], places, ?_, ?_, ?_⟩
  · rw [registry]
    exact fun _ => id
  · rw [functions]
    exact tidy.valid
  · rw [tree]
    exact .refl _

omit [Scalar R] in
theorem tree_keeping {session : Session R} {tree : FileTree} (files : session.files = some tree)
    (change : FileTree -> FileTree × Bool) :
    (session.keeping change).files = some (change tree).1 ∧
      (session.keeping change).tree = (change tree).1 := by
  rw [Session.tree, Session.keeping, files]
  exact ⟨rfl, rfl⟩

omit [Scalar R] in
theorem Tidy.keeping (tidy : before.Tidy) {paths : String -> Prop} {middle : Session R}
    (files : middle.files = before.files) (places : middle.places = before.places)
    (grows : forall name, name ∈ before.environment.registry.catalogs.keys ->
      name ∈ middle.environment.registry.catalogs.keys)
    (valid : forall name definition, middle.environment.functions.get? name = some definition ->
      validFunctionName.{0} name = .ok ⟨⟩)
    {change : FileTree -> FileTree × Bool}
    (touches : Touches paths (fun path => ∃ name,
      name ∈ middle.environment.registry.catalogs.keys ∧ path = catalogPath name)
      before.tree (change before.tree).1) :
    WritesTo paths before (middle.keeping change) := by
  rcases tree_keeping (files.trans tidy.files) change with ⟨kept, tree⟩
  refine ⟨kept.trans (congrArg some tree.symm), places, grows, valid, ?_⟩
  rw [tree]
  exact touches

omit [Scalar R] in
/-- What is written to the places of a line is in the way of nothing. -/
theorem WritesTo.tidy
    (writes : WritesTo (fun path => IsLinePlace path ∨ path = settingsPath) before after)
    (tidy : before.Tidy) : after.Tidy where
  files := writes.files
  valid := writes.valid
  plain := by
    intro path entry found
    by_cases place : IsLinePlace path ∨ path = settingsPath
    · exact place.elim (·.plain) fun same => same ▸ isPart_settingsPath.isPlainPath
    · rw [writes.touches.others path place] at found
      exact tidy.plain path entry found
  directories := by
    intro path found
    rcases writes.touches.made path found with earlier | ⟨name, _, made⟩
    · exact tidy.directories path earlier
    · exact ⟨name, made⟩
  unnamed := by
    have elsewhere : ¬ (IsLinePlace functionEnding ∨ functionEnding = settingsPath) :=
      not_or.mpr ⟨not_isLinePlace_functionEnding, by decide⟩
    exact (writes.touches.others _ elsewhere).trans tidy.unnamed

/-- The settings are found again where they were kept last. -/
theorem WritesTo.filed
    (writes : WritesTo (fun path => IsLinePlace path ∨ path = settingsPath) before after)
    (filed : before.Filed options builtIn settled) {further : Option (Session R)}
    (settings : after.tree.get? settingsPath =
      further.map fun kept => .text (settingsText kept.settings)) :
    after.Filed options builtIn further :=
  { writes.tidy filed.tidy with
    places := writes.places.trans filed.places
    built := filed.built
    catalogs := fun name member => writes.grows name (filed.catalogs name member)
    directories := by
      intro path found
      rcases writes.touches.made path found with earlier | made
      · rcases filed.directories path earlier with ⟨name, member, same⟩
        exact ⟨name, writes.grows name member, same⟩
      · exact made
    settings := settings }

/-- Most changes leave the settings as they were kept. -/
theorem Filed.step (filed : before.Filed options builtIn settled)
    (writes : WritesTo IsLinePlace before after) : after.Filed options builtIn settled :=
  (writes.mono fun _ => Or.inl).filed filed
    ((writes.touches.others _ not_isLinePlace_settingsPath).trans filed.settings)

/-! ### Steps -/

/-- A catalog is kept in a directory of its own. -/
theorem touches_catalog {registry : Registry R} (inForce : name ∈ registry.catalogs.keys)
    (whole : '/' ∉ name.toList) (catalog : Catalog R) (tree : FileTree) :
    Touches IsOtherPlace (fun path => ∃ name, name ∈ registry.catalogs.keys ∧
      path = catalogPath name) tree (tree.saveCatalog registry name catalog).1 :=
  (touches_saveCatalog tree registry whole catalog).mono
    (fun _ => isOtherPlace_catalog whole) fun _ same => ⟨name, inForce, same⟩

omit [Scalar R] in
/-- A stored function was given a name that is valid. -/
theorem Tidy.valid_set (tidy : before.Tidy)
    (named : validFunctionName.{0} name = .ok ⟨⟩) {store : FunctionStore R}
    (fewer : forall other found, store.get? other = some found ->
      before.environment.functions.get? other = some found)
    (other : String) (found : FunctionDefinition R)
    (stored : (store.set name definition).get? other = some found) :
    validFunctionName.{0} other = .ok ⟨⟩ := by
  rw [Table.get?_set] at stored
  split at stored
  · rename_i same
    exact same ▸ named
  · exact tidy.valid other found (fewer other found stored)

omit [Scalar R] in
theorem get?_of_get?_remove {store : FunctionStore R} {other : String}
    (found : (store.remove name).get? other = some definition) :
    store.get? other = some definition := by
  rw [Table.get?_remove] at found
  split at found
  · cases found
  · exact found

theorem Tidy.withConstants (tidy : before.Tidy) (constants : Table R) :
    WritesTo IsLinePlace before (before.withConstants constants) := by
  rw [Session.withConstants]
  refine tidy.keeping (by rfl) (by rfl) (by exact fun _ => id) (by exact tidy.valid) ?_
  exact (touches_saveConstants _ _).mono (fun _ => Or.inl) fun _ => False.elim

/-- A changed registry is written to the directory of the catalog that is kept. -/
theorem Tidy.withRegistry (tidy : before.Tidy) (scopes : Scopes R) {changed : Registry R}
    (grows : forall other, other ∈ before.environment.registry.catalogs.keys ->
      other ∈ changed.catalogs.keys)
    (inForce : name ∈ changed.catalogs.keys) (whole : '/' ∉ name.toList) (catalog : Catalog R) :
    WritesTo IsOtherPlace before
      (Session.withRegistry { before with scopes } changed name catalog) := by
  rw [Session.withRegistry]
  refine tidy.keeping (by rfl) (by rfl) (by exact grows) (by exact tidy.valid) ?_
  exact touches_catalog inForce whole catalog before.tree

/-- A change of a line revises the constants, or it leaves them alone and writes elsewhere. -/
theorem Change.writesTo {line : Line} (change : Change line before after)
    (unslashed : after.Unslashed) (tidy : before.Tidy) :
    (∃ constants, Revises line before.environment.constants constants ∧
        after = before.withConstants constants) ∨
      (after.environment.constants = before.environment.constants ∧
        WritesTo IsOtherPlace before after) := by
  cases change with
  | remembered | opened | bound | clearedBindings | clearedMemory | clearedStash | clearedStack
  | dropped | putAside | restored | stopped | enabled =>
      exact Or.inr ⟨rfl, tidy.stays rfl rfl rfl rfl⟩
  | @constants constants revises => exact Or.inl ⟨constants, revises, rfl⟩
  | @unit name _ _ _ changed catalog given defined found scope =>
      have inForce : name ∈ changed.catalogs.keys :=
        (Registry.mem_keys_defineUnit defined).mpr (Or.inl rfl)
      exact Or.inr ⟨rfl, tidy.withRegistry _
        (fun other member => (Registry.mem_keys_defineUnit defined).mpr (Or.inr member))
        inForce (unslashed name inForce) catalog⟩
  | @relation name _ changed catalog defined found =>
      have inForce : name ∈ changed.catalogs.keys :=
        Table.mem_keys_of_get? (Registry.catalog_eq_ok.mp found)
      exact Or.inr ⟨rfl, tidy.withRegistry before.scopes
        (fun other member => (Registry.mem_keys_defineRelation defined).mpr member)
        inForce (unslashed name inForce) catalog⟩
  | @saved name definition functions given defined =>
      rcases FunctionStore.define_eq_ok.mp defined with ⟨named, rfl⟩
      have part := (of_validFunctionName named).1
      refine Or.inr ⟨rfl, ?_⟩
      rw [storing]
      refine tidy.keeping (by rfl) (by rfl) (by exact fun _ => id)
        (by exact tidy.valid_set named fun _ _ => id) ?_
      refine (touches_write_part _ part _).mono (fun path place => ?_) fun _ => False.elim
      rcases place with rfl | rfl
      · exact isOtherPlace_temporary part
      · exact isOtherPlace_function named
  | @reloaded _ name functions kept loaded =>
      rcases of_loadFunction loaded with ⟨content, definition, _, named, _, rfl⟩
      exact Or.inr ⟨rfl, tidy.files, rfl, fun _ => id, tidy.valid_set named fun _ _ => id, .refl _⟩
  | @renamed old new functions given defined =>
      rcases FunctionStore.of_rename defined with ⟨named, _, definition, found, rfl⟩
      have wasNamed := tidy.valid old definition found
      refine Or.inr ⟨rfl, ?_⟩
      rw [storing]
      refine tidy.keeping (by rfl) (by rfl) (by exact fun _ => id)
        (by exact tidy.valid_set named fun _ _ => get?_of_get?_remove) ?_
      refine (touches_rename_top (of_validFunctionName wasNamed).1 (of_validFunctionName named).1
        (tidy.noDirectory old)).mono (fun path place => ?_) fun _ => False.elim
      rcases place with rfl | rfl
      · exact isOtherPlace_function wasNamed
      · exact isOtherPlace_function named
  | @deleted name functions discarded =>
      rcases FunctionStore.of_discard discarded with ⟨⟨definition, found⟩, rfl⟩
      have named := tidy.valid name definition found
      refine Or.inr ⟨rfl, ?_⟩
      rw [storing]
      refine tidy.keeping (by rfl) (by rfl) (by exact fun _ => id)
        (by exact fun other found stored =>
          tidy.valid other found (get?_of_get?_remove stored)) ?_
      refine (touches_removeText_top _ (of_validFunctionName named).1).mono (fun path same => ?_)
        fun _ => False.elim
      rw [same]
      exact isOtherPlace_function named

/-- No change of a line loses what can be reopened. -/
theorem Change.filed {line : Line} (change : Change line before after)
    (unslashed : after.Unslashed) (filed : before.Filed options builtIn settled) :
    after.Filed options builtIn settled := by
  rcases change.writesTo unslashed filed.tidy with ⟨constants, _, rfl⟩ | ⟨_, writes⟩
  · exact filed.step (filed.tidy.withConstants constants)
  · exact filed.step (writes.mono fun _ => And.left)

theorem Change.grows {line : Line} (change : Change line before after)
    (member : name ∈ before.environment.registry.catalogs.keys) :
    name ∈ after.environment.registry.catalogs.keys := by
  cases change with
  | unit _ defined => exact (Registry.mem_keys_defineUnit defined).mpr (Or.inr member)
  | relation defined => exact (Registry.mem_keys_defineRelation defined).mpr member
  | _ => exact member

theorem Settling.registry (settling : Settling before after) :
    after.environment.registry = before.environment.registry := by
  cases settling with
  | kept | mode | disabled => rfl

/-- Settings that are kept are found in their place, and nothing is written elsewhere but a
temporary text. -/
theorem Tidy.keepingSettings (tidy : before.Tidy) (middle : Session R)
    (files : middle.files = before.files) (places : middle.places = before.places)
    (registry : middle.environment.registry = before.environment.registry)
    (functions : middle.environment.functions = before.environment.functions) :
    WritesTo (fun path => IsOtherPlace path ∨ path = settingsPath) before middle.keepingSettings ∧
      middle.keepingSettings.tree.get? settingsPath =
        some (.text (settingsText middle.settings)) := by
  constructor
  · refine tidy.keeping files places ?_ ?_ ?_
    · rw [registry]
      exact fun _ => id
    · rw [functions]
      exact tidy.valid
    · refine (touches_write_part _ isPart_settingsPath _).mono (fun path place => ?_)
        fun _ => False.elim
      rcases place with rfl | same
      · exact Or.inl (isOtherPlace_temporary isPart_settingsPath)
      · exact Or.inr same
  · rcases tree_keeping (files.trans tidy.files) fun tree => tree.saveSettings middle.settings
      with ⟨_, tree⟩
    rw [Session.keepingSettings, tree]
    exact get?_write_top (settingsText middle.settings) isPart_settingsPath
      isPart_settingsPath.temporary (by decide) (tidy.noDirectory_of_last (by decide))
      (tidy.noScratch settingsPath)

theorem Settling.writesTo (settling : Settling before after) (tidy : before.Tidy) :
    WritesTo (fun path => IsOtherPlace path ∨ path = settingsPath) before after ∧
      after.tree.get? settingsPath = some (.text (settingsText after.settings)) := by
  cases settling with
  | kept => exact tidy.keepingSettings before rfl rfl rfl rfl
  | mode angleMode =>
      exact tidy.keepingSettings (before.withAngleMode angleMode) rfl rfl rfl rfl
  | disabled names => exact tidy.keepingSettings (before.disabling names) rfl rfl rfl rfl

theorem Settling.filed (settling : Settling before after)
    (filed : before.Filed options builtIn settled) :
    after.Filed options builtIn (some after) := by
  rcases settling.writesTo filed.tidy with ⟨writes, settings⟩
  exact (writes.mono fun _ place => place.imp_left And.left).filed filed settings

theorem Changes.filed {line : Line} (changed : Changes line before after)
    (unslashed : after.Unslashed) (filed : before.Filed options builtIn settled) :
    after.Filed options builtIn settled := by
  induction changed with
  | refl => exact filed
  | tail _ change inductionHypothesis =>
      exact change.filed unslashed
        (inductionHypothesis fun name member => unslashed name (change.grows member))

/-- No line loses what can be reopened. -/
theorem Passes.filed {line : Line} (passes : Passes line before after)
    (unslashed : after.Unslashed) (filed : before.Filed options builtIn settled) :
    after.Filed options builtIn (if line.settles before then some after else settled) := by
  cases passes with
  | aims unsettled name same =>
      rw [unsettled, same]
      exact filed.step (filed.tidy.stays rfl rfl rfl rfl)
  | changes unsettled changed =>
      rw [unsettled]
      exact changed.filed unslashed filed
  | @settles settled middle changed settling =>
      have unslashed : middle.Unslashed := by
        rw [Unslashed, ← settling.registry]
        exact unslashed
      rw [settled]
      exact settling.filed (changed.filed unslashed filed)

theorem Passes.grows {line : Line} (passes : Passes line before after)
    (member : name ∈ before.environment.registry.catalogs.keys) :
    name ∈ after.environment.registry.catalogs.keys :=
  passes.preserves (fun change => change.grows) (fun settling member => settling.registry ▸ member)
    (fun _ => id) member

/-! ### Runs -/

/-- The settings are kept at this line of input. -/
def settles (session : Session R) (input : String) : Bool :=
  (Line.ofText (Text.trim input.toList)).settles session

/-- The session that was the last to keep its settings, before some lines or while they were
carried out. -/
def settledAfter : Option (Session R) -> Session R -> List String -> Option (Session R)
  | settled, _, [] => settled
  | settled, session, input :: rest =>
      settledAfter (if session.settles input then some (session.execute input).2 else settled)
        (session.execute input).2 rest

/-- What every line keeps of a session and of the last one to keep its settings, all lines keep. -/
theorem preserves_settledAfter {motive : Option (Session R) -> Session R -> Prop}
    (each : forall settled session input, motive settled session ->
      motive (if session.settles input then some (session.execute input).2 else settled)
        (session.execute input).2)
    {session : Session R} (holds : motive settled session) (inputs : List String) :
    motive (settledAfter settled session inputs) (session.afterLines inputs) := by
  induction inputs generalizing settled session with
  | nil => exact holds
  | cons input rest inductionHypothesis =>
      have further := inductionHypothesis (each settled session input holds)
      unfold settledAfter
      exact further

/-- Whatever the lines, what is kept can be reopened. -/
theorem Filed.afterLines {session : Session R} (filed : session.Filed options builtIn settled)
    {inputs : List String} (unslashed : (session.afterLines inputs).Unslashed) :
    (session.afterLines inputs).Filed options builtIn (settledAfter settled session inputs) := by
  have run := preserves_settledAfter
    (motive := fun settled (session : Session R) =>
      session.Unslashed -> session.Filed options builtIn settled)
    (fun settled session input (held : session.Unslashed -> _) unslashed => by
      have passes := passes_execute session input
      exact passes.filed unslashed
        (held fun name member => unslashed name (passes.grows member)))
    (fun _ => filed) inputs
  exact run unslashed

/-! ### Starts -/

/-- A session that has just started on nothing has nothing stored and nothing kept. -/
theorem nothing_of_start {session : Session R}
    (started : Session.start options (some []) = .ok session) :
    session.environment.functions = [] ∧ session.tree = [] := by
  rcases fresh_of_start started with ⟨builtIn, fresh⟩
  have files := fresh.files
  rcases start_eq_ok.mp started with ⟨parts, ⟨_, _, _, ⟨count, loaded⟩, _, _⟩, rfl⟩
  have nothing : FileTree.loadAllFunctions [] ([] : FunctionStore R) = .ok ([], 0) := rfl
  refine ⟨(Prod.mk.inj (Except.ok.inj (loaded.symm.trans nothing))).1, ?_⟩
  rw [Session.tree, files]
  rfl

theorem filed_of_start {session : Session R}
    (started : Session.start options (some []) = .ok session) :
    ∃ builtIn, session.Filed options builtIn none := by
  rcases fresh_of_start started with ⟨builtIn, fresh⟩
  rcases nothing_of_start started with ⟨functions, tree⟩
  have registry : session.environment.registry = builtIn := fresh.registry
  refine ⟨builtIn, ?_⟩
  exact
    { files := by rw [fresh.files, tree]
      places := fresh.places
      built := fresh.built
      catalogs := fun name member => registry ▸ member
      valid := by
        rw [functions]
        exact fun name definition found => nomatch found
      plain := by
        rw [tree]
        exact fun path entry found => nomatch found
      directories := by
        rw [tree]
        exact fun path found => nomatch found
      unnamed := by
        rw [tree]
        rfl
      settings := by
        rw [tree]
        rfl }

/-! ### Starting again -/

section

variable {session next : Session R}

omit [Scalar R] in
/-- What the settings are where those of a session were kept, or none. -/
def settingsOf (settled : Option (Session R)) : StoredSettings R :=
  (settled.map fun kept => StoredSettings.kept kept.environment.angleMode kept.autoEval
    (kept.enabledIn base)).getD .initial

omit [Scalar R] in
theorem angleModeOf_settingsOf (settled : Option (Session R)) :
    (settingsOf settled : StoredSettings R).angleModeOf =
      .ok ((settled.map fun kept => kept.environment.angleMode).getD .deg) := by
  cases settled with
  | none => exact StoredSettings.angleModeOf_initial
  | some kept => exact StoredSettings.angleModeOf_kept _ _ _

theorem loadSettings_of_settled (settings : session.tree.get? settingsPath =
    settled.map fun kept => .text (settingsText kept.settings)) :
    session.tree.loadSettings = .ok (settingsOf settled : StoredSettings R) := by
  rw [FileTree.loadSettings, text?, entry?_part isPart_settingsPath, settings]
  cases settled with
  | none => rfl
  | some kept => exact StoredSettings.read_settingsText _ _ _

theorem Filed.loadSettings (filed : session.Filed options builtIn settled) :
    session.tree.loadSettings = .ok (settingsOf settled : StoredSettings R) :=
  loadSettings_of_settled filed.settings

omit [Scalar R] in
theorem Tidy.isDataDirectory (tidy : session.Tidy) : session.tree.IsDataDirectory :=
  ⟨tidy.plain, tidy.noConstantsDirectory, fun name _ => tidy.noDirectory name⟩

/-- A session starts on what a tidy one keeps. -/
theorem Tidy.exists_start (tidy : session.Tidy)
    (built : Registry.empty.withBuiltIns options.places = .ok builtIn)
    (settings : session.tree.get? settingsPath =
      settled.map fun kept => .text (settingsText kept.settings)) :
    ∃ next : Session R, Session.start options session.files = .ok next := by
  have mode : ∃ angleMode,
      (settingsOf settled : StoredSettings R).startingMode options = .ok angleMode :=
    ⟨_, StoredSettings.startingMode_eq (angleModeOf_settingsOf settled) options⟩
  have enabled : forall catalogs, ∃ enabled,
      (settingsOf settled : StoredSettings R).enabledAmong catalogs = .ok enabled := by
    intro catalogs
    cases settled with
    | none => exact ⟨_, StoredSettings.enabledAmong_initial _⟩
    | some kept => exact ⟨_, StoredSettings.enabledAmong_kept _ _ _ _⟩
  rcases mode with ⟨angleMode, readMode⟩
  rcases exists_loadConstants (R := R) tidy.noConstantsDirectory with ⟨constants, readConstants, _⟩
  rcases exists_loadAllFunctions (R := R) tidy.plain (fun name _ => tidy.noDirectory name)
    (Or.inl tidy.unnamed) with ⟨functions, count, loaded, _⟩
  rcases enabled ((session.tree.loadAllCatalogs options.places builtIn).1.catalogs.keys) with
    ⟨names, readNames⟩
  rw [tidy.files]
  let parts : Parts R := ⟨settingsOf settled, constants, builtIn, functions, angleMode, names⟩
  exact ⟨_, start_eq_ok.mpr ⟨parts, ⟨loadSettings_of_settled settings, readConstants, built,
    ⟨count, loaded⟩, readMode, readNames⟩, rfl⟩⟩

theorem Filed.exists_start (filed : session.Filed options builtIn settled) :
    ∃ next : Session R, Session.start options session.files = .ok next :=
  filed.tidy.exists_start filed.built filed.settings

/-- The new session has the functions that can be read from their texts. -/
theorem Tidy.functions_of_start (tidy : session.Tidy)
    (started : Session.start options session.files = .ok next) (name : String)
    (definition : FunctionDefinition R) :
    next.environment.functions.get? name = some definition <->
      IsPart (functionPath name) ∧ session.tree.function? name = some definition := by
  rw [tidy.files] at started
  rcases start_eq_ok.mp started with ⟨parts, loaded, rfl⟩
  exact (loaded.takesOver tidy.isDataDirectory).functions name definition

/-- A session that starts on what a tidy one keeps is tidy, and keeps the same. -/
theorem Tidy.restarted (tidy : session.Tidy)
    (started : Session.start options session.files = .ok next) :
    next.Tidy ∧ next.tree = session.tree := by
  rcases fresh_of_start started with ⟨_, fresh⟩
  have tree : next.tree = session.tree := congrArg (Option.getD · []) fresh.files
  refine ⟨⟨?_, fun name definition found => ?_, ?_, ?_, ?_⟩, tree⟩
  · rw [fresh.files, tree, tidy.files]
  · rcases (tidy.functions_of_start started name definition).mp found with ⟨_, read⟩
    rcases Option.bind_eq_some_iff.mp read with ⟨content, _, outcome⟩
    rcases bind_eq_ok.mp (eq_ok_of_toOption outcome) with ⟨_, valid, _⟩
    exact valid
  · exact tree ▸ tidy.plain
  · exact tree ▸ tidy.directories
  · exact tree ▸ tidy.unnamed

/-- Every catalog of the new session is always there, or it was kept in its directory. -/
theorem Tidy.catalogs_of_start (tidy : session.Tidy)
    (started : Session.start options session.files = .ok next)
    (built : Registry.empty.withBuiltIns options.places = .ok builtIn)
    (member : name ∈ next.environment.registry.catalogs.keys) :
    name ∈ builtIn.catalogs.keys ∨
      (IsPart (catalogPath name) ∧ session.tree.get? (catalogPath name) = some .directory) := by
  rcases fresh_of_start started with ⟨found, fresh⟩
  have same : found = builtIn := Except.ok.inj (fresh.built.symm.trans built)
  rw [fresh.registry, same] at member
  refine (of_mem_keys_loadCatalogs member).imp_right ?_
  rintro ⟨directory, listed, rfl⟩
  rcases List.mem_filter.mp listed with ⟨top, isDirectory⟩
  rcases (mem_namesIn_top tidy.plain).mp (List.mem_filter.mp top).1 with ⟨part, _⟩
  rw [FileTree.isDirectory, beq_iff_eq] at isDirectory
  have there := entry?_part part ▸ isDirectory
  rcases tidy.directories directory there with ⟨name, rfl⟩
  rw [catalogNameOf_catalogPath part]
  exact ⟨part, there⟩

/-- Every catalog of the new session was there before. -/
theorem Filed.catalogs_of_start (filed : session.Filed options builtIn settled)
    (started : Session.start options session.files = .ok next)
    (member : name ∈ next.environment.registry.catalogs.keys) :
    name ∈ session.environment.registry.catalogs.keys := by
  rcases filed.tidy.catalogs_of_start started filed.built member with always | ⟨_, there⟩
  · exact filed.catalogs name always
  · rcases filed.directories _ there with ⟨other, inForce, same⟩
    rwa [(String.append_left_inj catalogEnding).mp same]

end

end

end Session
end QuantityCalculus
