import QuantityCalculus.Proofs.Storage.FunctionLines
import QuantityCalculus.Proofs.Storage.Reopening

namespace QuantityCalculus

/-!
# Functions after a restart

The functions of a session and the texts under their names stay in step: a function that is
saved has its text, one that is renamed takes its text along, and one that is deleted leaves
none behind.  What is stored is therefore found again, as far as its text can be read.
-/

variable {R : Type}

/-! ## Texts that are moved and removed -/

namespace FileTree

variable {tree : FileTree} {content : String}

theorem get?_rename_top {source target : String} (part : IsPart source) (other : IsPart target)
    (fits : isPartAllowed target = true) (found : tree.get? source = some (.text content))
    (noDirectory : tree.get? target ≠ some .directory) (path : String) :
    (tree.rename source target).1.get? path =
      if target = path then some (.text content)
      else if source = path then none else tree.get? path := by
  have inside : target.toList.head? ≠ some '/' := fun first => other.whole (List.mem_of_head? first)
  have allowed : isPathAllowed target = true := by
    rw [isPathAllowed, other.pathParts]
    simp [fits, inside]
  have free : tree.isDirectory target = false := by
    rw [isDirectory, entry?_part other]
    exact beq_eq_false_iff_ne.mpr noDirectory
  rw [rename, allowed, entry?_part part, found]
  simp only [moveText, free, Bool.false_eq_true, if_false]
  rw [plainPath_part part, plainPath_part other, Table.get?_set, Table.get?_remove]

theorem get?_removeText_top {name : String} (part : IsPart name)
    (found : tree.get? name = some (.text content)) (path : String) :
    (tree.removeText name).1.get? path = if name = path then none else tree.get? path := by
  rw [removeText, entry?_part part, found, plainPath_part part]
  exact Table.get?_remove tree name path

/-- The name of a function is not too long for its text to be kept. -/
def namesFunction (name : String) : Bool :=
  isPartAllowed (temporaryPath (functionPath name))

/-- A name that fits the temporary place of a function fits its own. -/
theorem isPartAllowed_of_namesFunction {name : String} (fits : namesFunction name = true) :
    isPartAllowed (functionPath name) = true := by
  rw [namesFunction, isPartAllowed, Bool.and_eq_true, bne_iff_ne, decide_eq_true_eq] at fits
  rw [isPartAllowed, Bool.and_eq_true, bne_iff_ne, decide_eq_true_eq]
  refine ⟨fun same => ?_, ?_⟩
  · have ends := hasEnding_append name functionEnding
    rw [← functionPath, same] at ends
    exact absurd ends (by decide)
  · have longer := fits.2
    rw [temporaryPath, String.utf8ByteSize_append] at longer
    exact Nat.le_trans (Nat.le_add_right _ _) longer

end FileTree

/-! ## Functions and their texts -/

namespace FunctionStore

open FileTree

variable [Scalar R]

/-- Every stored function has its text, or one that it was read from, and no other name has a
text. -/
structure Shelved (places : Nat) (tree : FileTree) (functions : FunctionStore R) : Prop where
  valid : forall name definition, functions.get? name = some definition ->
    validFunctionName.{0} name = .ok ⟨⟩
  stored : forall name definition, functions.get? name = some definition ->
    ∃ content, tree.get? (functionPath name) = some (.text content) ∧
      (content = definition.text places ∨ FunctionDefinition.parse name content = .ok definition)
  free : forall name, validFunctionName.{0} name = .ok ⟨⟩ -> functions.get? name = none ->
    tree.get? (functionPath name) = none

section

variable {functions : FunctionStore R} {places : Nat} {tree after : FileTree} {name : String}

theorem Shelved.congr (shelved : functions.Shelved places tree)
    (texts : forall other, IsPart (functionPath other) ->
      after.get? (functionPath other) = tree.get? (functionPath other)) :
    functions.Shelved places after where
  valid := shelved.valid
  stored := by
    intro other definition found
    rw [texts other (of_validFunctionName (shelved.valid other definition found)).1]
    exact shelved.stored other definition found
  free := by
    intro other valid none
    rw [texts other (of_validFunctionName valid).1]
    exact shelved.free other valid none

theorem Shelved.remove (shelved : functions.Shelved places tree)
    (texts : forall other, IsPart (functionPath other) -> after.get? (functionPath other) =
      if functionPath name = functionPath other then none else tree.get? (functionPath other)) :
    Shelved places after (functions.remove name) where
  valid := fun other definition found => by
    rw [Table.get?_remove, Option.ite_none_left_eq_some] at found
    exact shelved.valid other definition found.2
  stored := by
    intro other definition found
    rw [Table.get?_remove, Option.ite_none_left_eq_some] at found
    rw [texts other (of_validFunctionName (shelved.valid other definition found.2)).1,
      if_neg fun same => found.1 (functionPath_inj same)]
    exact shelved.stored other definition found.2
  free := by
    intro other valid none
    rw [texts other (of_validFunctionName valid).1]
    split
    · rfl
    · rename_i different
      rw [Table.get?_remove, if_neg fun same => different (congrArg functionPath same)] at none
      exact shelved.free other valid none

theorem Shelved.set (shelved : functions.Shelved places tree)
    (named : validFunctionName.{0} name = .ok ⟨⟩) {definition : FunctionDefinition R}
    {content : String} (same : content = definition.text places ∨
      FunctionDefinition.parse name content = .ok definition)
    (texts : forall other, IsPart (functionPath other) -> after.get? (functionPath other) =
      if functionPath name = functionPath other then some (.text content)
      else tree.get? (functionPath other)) :
    Shelved places after (functions.set name definition) := by
  have part := (of_validFunctionName named).1
  constructor
  · intro other found stored
    rw [Table.get?_set] at stored
    split at stored
    · rename_i here
      exact here ▸ named
    · exact shelved.valid other found stored
  · intro other found stored
    rw [Table.get?_set] at stored
    split at stored
    · rename_i here
      cases stored
      subst here
      exact ⟨content, (texts name part).trans (if_pos rfl), same⟩
    · rename_i elsewhere
      rw [texts other (of_validFunctionName (shelved.valid other found stored)).1,
        if_neg fun path => elsewhere (functionPath_inj path)]
      exact shelved.stored other found stored
  · intro other valid none
    rw [Table.get?_set] at none
    split at none
    · cases none
    · rename_i elsewhere
      rw [texts other (of_validFunctionName valid).1,
        if_neg fun path => elsewhere (functionPath_inj path)]
      exact shelved.free other valid none

end

end FunctionStore

/-! ## Lines -/

/-- No function that a line stores has a name that is too long. -/
def Line.namesFit (line : Line) : Bool :=
  line.givenName?.all FileTree.namesFunction

namespace Session

open FileTree

variable [Scalar R]

/-- The functions of a session and the texts that it keeps are in step. -/
def KeepsFunctions (session : Session R) : Prop :=
  session.environment.functions.Shelved session.places session.tree

section

variable {options : SessionOptions} {builtIn : Registry R} {settled : Option (Session R)}
  {before after middle : Session R} {line : Line}

theorem keepsFunctions_keeping {tree : FileTree} (files : middle.files = some tree)
    {change : FileTree -> FileTree × Bool}
    (shelved : middle.environment.functions.Shelved middle.places (change tree).1) :
    (middle.keeping change).KeepsFunctions := by
  rw [KeepsFunctions, (tree_keeping files change).2]
  exact shelved

/-- What is kept elsewhere leaves the functions in step. -/
theorem KeepsFunctions.elsewhere (keeps : before.KeepsFunctions)
    (files : middle.files = some before.tree) (places : middle.places = before.places)
    (functions : middle.environment.functions = before.environment.functions)
    {change : FileTree -> FileTree × Bool} {directories : String -> Prop}
    (touches : Touches IsElsewhere directories before.tree (change before.tree).1) :
    (middle.keeping change).KeepsFunctions := by
  refine keepsFunctions_keeping files ?_
  rw [functions, places]
  refine keeps.congr fun name part => ?_
  exact touches.others _ fun elsewhere => elsewhere.functions name part rfl

/-- No change of a line brings functions and texts out of step, as long as the names that are
given are not too long. -/
theorem Change.keepsFunctions (change : Change line before after) (fits : line.namesFit = true)
    (unslashed : after.Unslashed) (filed : before.Filed options builtIn settled)
    (keeps : before.KeepsFunctions) : after.KeepsFunctions := by
  have fits : forall name, line.givenName? = some name -> namesFunction name = true :=
    (Option.all_eq_true _ _).mp fits
  cases change with
  | remembered | opened | bound | clearedBindings | clearedMemory | clearedStash | clearedStack
  | dropped | putAside | restored | stopped | enabled => exact keeps
  | constants revises =>
      exact keeps.elsewhere filed.files rfl rfl (touches_saveConstants _ _)
  | @unit name _ _ _ changed catalog given defined found scope =>
      have whole := unslashed name ((Registry.mem_keys_defineUnit defined).mpr (Or.inl rfl))
      exact keeps.elsewhere filed.files rfl rfl ((touches_saveCatalog _ _ whole _).mono
        (fun _ place => place.isElsewhere whole) fun _ => id)
  | @relation name _ changed catalog defined found =>
      have whole := unslashed name (Table.mem_keys_of_get? (Registry.catalog_eq_ok.mp found))
      exact keeps.elsewhere filed.files rfl rfl ((touches_saveCatalog _ _ whole _).mono
        (fun _ place => place.isElsewhere whole) fun _ => id)
  | @saved name definition functions given defined =>
      rcases FunctionStore.define_eq_ok.mp defined with ⟨named, rfl⟩
      have part := (of_validFunctionName named).1
      have written := get?_write_top (definition.text before.places) part part.temporary
        (fits name given) (filed.tidy.noDirectory name)
        (filed.tidy.noScratch _)
      refine keepsFunctions_keeping (by exact filed.files)
        (keeps.set named (Or.inl rfl) fun other otherPart => ?_)
      split
      · rename_i same
        exact same ▸ written
      · rename_i different
        refine (touches_write_top before.tree part _).others _ fun touched => ?_
        exact touched.elim (fun elsewhere => elsewhere.functions other otherPart rfl)
          fun same => different same.symm
  | @reloaded tree name functions kept loaded =>
      rcases of_loadFunction loaded with ⟨content, definition, found, named, parsed, rfl⟩
      have same : tree = before.tree := Option.some.inj (kept.symm.trans filed.files)
      rw [same, entry?_part (of_validFunctionName named).1] at found
      refine FunctionStore.Shelved.set keeps named (Or.inr parsed) fun other _ => ?_
      split
      · rename_i same
        exact same ▸ found
      · rfl
  | @renamed old new functions given defined =>
      rcases FunctionStore.of_rename defined with ⟨named, free, definition, found, rfl⟩
      have wasNamed := filed.valid old definition found
      have part := (of_validFunctionName named).1
      rcases keeps.stored old definition found with ⟨content, there, same⟩
      have moved := get?_rename_top (of_validFunctionName wasNamed).1 part
        (isPartAllowed_of_namesFunction (fits new given)) there (filed.tidy.noDirectory new)
      have left : FunctionStore.Shelved before.places (before.tree.remove (functionPath old))
          (before.environment.functions.remove old) :=
        keeps.remove fun other _ => Table.get?_remove _ _ _
      refine keepsFunctions_keeping (by exact filed.files) (left.set named
        (same.imp_right (FunctionDefinition.parse_of_name new)) fun other _ => ?_)
      rw [Table.get?_remove]
      exact moved _
  | @deleted name functions discarded =>
      rcases FunctionStore.of_discard discarded with ⟨⟨definition, found⟩, rfl⟩
      have part := (of_validFunctionName (filed.valid name definition found)).1
      rcases keeps.stored name definition found with ⟨content, there, _⟩
      exact keepsFunctions_keeping (by exact filed.files)
        (keeps.remove fun other _ => get?_removeText_top part there _)

/-- The settings are kept apart from the functions. -/
theorem KeepsFunctions.keepingSettings {session : Session R} (keeps : session.KeepsFunctions)
    (files : session.files = some session.tree) : session.keepingSettings.KeepsFunctions := by
  refine keepsFunctions_keeping files (keeps.congr fun name part => ?_)
  refine (touches_write_top _ isPart_settingsPath _).others _ fun touched => ?_
  rcases touched with elsewhere | same
  · exact elsewhere.functions name part rfl
  · have last := getLast?_append name (by decide : functionEnding.toList ≠ [])
    rw [← functionPath, same] at last
    exact absurd last (by decide)

theorem Settling.keepsFunctions (settling : Settling before after)
    (filed : before.Filed options builtIn settled) (keeps : before.KeepsFunctions) :
    after.KeepsFunctions := by
  cases settling with
  | kept | mode | disabled => exact KeepsFunctions.keepingSettings (by exact keeps) filed.files

theorem Changes.keepsFunctions (changed : Changes line before after) (fits : line.namesFit = true)
    (unslashed : after.Unslashed) (filed : before.Filed options builtIn settled)
    (keeps : before.KeepsFunctions) : after.KeepsFunctions := by
  induction changed with
  | refl => exact keeps
  | tail earlier change inductionHypothesis =>
      have whole := fun name member => unslashed name (change.grows member)
      exact change.keepsFunctions fits unslashed (Changes.filed earlier whole filed)
        (inductionHypothesis whole)

/-- No line brings functions and texts out of step. -/
theorem Passes.keepsFunctions (passes : Passes line before after) (fits : line.namesFit = true)
    (unslashed : after.Unslashed) (filed : before.Filed options builtIn settled)
    (keeps : before.KeepsFunctions) : after.KeepsFunctions := by
  cases passes with
  | aims unsettled name same => exact same ▸ keeps
  | changes unsettled changed => exact changed.keepsFunctions fits unslashed filed keeps
  | @settles settled middle changed settling =>
      have whole : middle.Unslashed := by
        rw [Unslashed, ← settling.registry]
        exact unslashed
      exact settling.keepsFunctions (changed.filed whole filed)
        (changed.keepsFunctions fits whole filed keeps)

/-- Whatever the lines, functions and texts stay in step. -/
theorem KeepsFunctions.afterLines {session : Session R} (keeps : session.KeepsFunctions)
    (filed : session.Filed options builtIn settled) {inputs : List String}
    (fits : forall input, input ∈ inputs ->
      (Line.ofText (Text.trim input.toList)).namesFit = true)
    (unslashed : (session.afterLines inputs).Unslashed) :
    (session.afterLines inputs).KeepsFunctions := by
  have run := preserves_afterLines
    (motive := fun session : Session R => session.Unslashed ->
      (∃ settled, session.Filed options builtIn settled) ∧ session.KeepsFunctions)
    (fun session input member (held : session.Unslashed -> _) unslashed => by
      have passes := passes_execute session input
      rcases held fun name member => unslashed name (passes.grows member) with
        ⟨⟨settled, filed⟩, keeps⟩
      exact ⟨⟨_, passes.filed unslashed filed⟩,
        passes.keepsFunctions (fits input member) unslashed filed keeps⟩)
    (fun _ => ⟨⟨settled, filed⟩, keeps⟩)
  exact (run unslashed).2

/-! ## Restarts -/

/-- The functions of the next session are those that can be read from what was kept of the
functions of this one. -/
theorem KeepsFunctions.restarts {session next : Session R} (keeps : session.KeepsFunctions)
    (filed : session.Filed options builtIn settled)
    (again : Session.start options session.files = .ok next) (name : String) :
    (session.environment.functions.get? name = none ->
      next.environment.functions.get? name = none) ∧
    forall definition, session.environment.functions.get? name = some definition ->
      next.environment.functions.get? name = some definition ∨
        next.environment.functions.get? name =
          (FunctionDefinition.parse name (definition.text options.places)).toOption := by
  have found := filed.tidy.functions_of_start again name
  constructor
  · intro free
    refine Option.eq_none_iff_forall_ne_some.mpr fun definition stored => ?_
    rcases (found definition).mp stored with ⟨part, read⟩
    rcases Option.bind_eq_some_iff.mp read with ⟨content, there, parsed⟩
    rcases bind_eq_ok.mp (eq_ok_of_toOption parsed) with ⟨⟨⟩, valid, _⟩
    rw [text?, entry?_part part, keeps.free name valid free] at there
    cases there
  · intro definition stored
    rcases keeps.stored name definition stored with ⟨content, kept, same⟩
    have valid := keeps.valid name definition stored
    have part := (of_validFunctionName valid).1
    have read : (session.tree.function? name : Option (FunctionDefinition R)) =
        (FunctionDefinition.parse name content).toOption := by
      rw [function?, text?, entry?_part part, kept]
      exact congrArg Except.toOption (bind_eq_of_ok valid)
    have next : next.environment.functions.get? name =
        (FunctionDefinition.parse name content).toOption := by
      rw [← read]
      exact Option.ext fun definition => (found definition).trans (and_iff_right part)
    rcases same with written | parsed
    · rw [next, written, filed.places]
      exact Or.inr rfl
    · rw [next, parsed]
      exact Or.inl rfl

theorem keepsFunctions_of_start {first : Session R}
    (started : Session.start options (some []) = .ok first) : first.KeepsFunctions := by
  rcases nothing_of_start started with ⟨functions, tree⟩
  rw [KeepsFunctions, functions, tree]
  exact ⟨nofun, nofun, fun _ _ _ => rfl⟩

end

/-- A session that is started again has no functions that were not there before, and of those
that were there it has what is read from their texts.  No function is lost whose body and
defaults are keepable. -/
theorem functions_survive_restart {options : SessionOptions} {first : Session R}
    (started : Session.start options (some []) = .ok first) {inputs : List String}
    (fits : forall input, input ∈ inputs ->
      (Line.ofText (Text.trim input.toList)).namesFit = true)
    (unslashed : (first.afterLines inputs).Unslashed) :
    let session := first.afterLines inputs
    ∃ next : Session R, Session.start options session.files = .ok next ∧ forall name,
      (session.environment.functions.get? name = none ->
        next.environment.functions.get? name = none) ∧
      forall definition, session.environment.functions.get? name = some definition ->
        (next.environment.functions.get? name = some definition ∨
          next.environment.functions.get? name =
            (FunctionDefinition.parse name (definition.text options.places)).toOption) ∧
        (definition.Keepable options.places ->
          next.environment.functions.get? name = some definition ∨
            next.environment.functions.get? name = some definition.reread) := by
  rcases filed_of_start started with ⟨builtIn, begun⟩
  have filed := begun.afterLines unslashed
  have keeps := (keepsFunctions_of_start started).afterLines begun fits unslashed
  rcases filed.exists_start with ⟨next, again⟩
  refine ⟨next, again, fun name => ⟨(keeps.restarts filed again name).1, ?_⟩⟩
  intro definition stored
  have read := (keeps.restarts filed again name).2 definition stored
  refine ⟨read, fun keepable => read.imp_right fun same => ?_⟩
  rw [same, keepable.parse name]
  rfl

/-- The function `x^2+y` with a default for `y`. -/
def squareAndThree : FunctionDefinition Float :=
  ⟨.binary .add (.binary .power (.var "x") (.num 2)) (.var "y"), [("y", .num 3)]⟩

theorem squareAndThree_keepable : squareAndThree.Keepable 15 := by
  have free : IsFreeName "x" ∧ IsFreeName "y" := by
    unfold IsFreeName
    decide
  have two : ReadsBack 15 2 := ⟨by decide, by decide, by decide⟩
  have three : ReadsBack 15 3 := ⟨by decide, by decide, by decide⟩
  constructor
  · exact ⟨⟨⟨trivial, trivial⟩, trivial⟩, ⟨⟨free.1, two.literalReads⟩, free.2⟩,
      by decide, shallow_of_accepted (by decide)⟩
  · intro entry listed
    rw [List.mem_singleton.mp listed]
    decide
  · intro entry listed
    rw [List.mem_singleton.mp listed]
    exact ⟨trivial, three.literalReads, by decide, shallow_of_accepted (by decide)⟩

/-- A function that was saved and renamed is there under its new name only. -/
theorem functions_survive_restart_renamed :
    ∃ first : Session Float, Session.start ⟨none, 15, true⟩ (some []) = .ok first ∧
      let session := first.afterLines ["x^2+y", "y = 3", "save f", "rename f g"]
      session.Unslashed ∧ session.environment.functions.get? "g" = some squareAndThree ∧
        session.environment.functions.get? "f" = none ∧
        ∃ next : Session Float, Session.start ⟨none, 15, true⟩ session.files = .ok next ∧
          next.environment.functions.get? "g" = some squareAndThree ∧
          next.environment.functions.get? "f" = none := by
  have facts : ((start ⟨none, 15, true⟩ (some []) : Except LoadFault (Session Float)).toOption.any
      fun first =>
        let session := first.afterLines ["x^2+y", "y = 3", "save f", "rename f g"]
        decide (session.Unslashed ∧
          session.environment.functions.get? "g" = some squareAndThree ∧
          session.environment.functions.get? "f" = none)) = true := by
    decide +kernel
  have same : squareAndThree.reread = squareAndThree := by decide
  have fits : forall input, input ∈ ["x^2+y", "y = 3", "save f", "rename f g"] ->
      (Line.ofText (Text.trim input.toList)).namesFit = true :=
    List.all_eq_true.mp (by decide : (["x^2+y", "y = 3", "save f", "rename f g"].all
      fun input => (Line.ofText (Text.trim input.toList)).namesFit) = true)
  rcases (Option.any_eq_true _ _).mp facts with ⟨first, known, both⟩
  rcases of_decide_eq_true both with ⟨unslashed, stored, gone⟩
  have started := eq_ok_of_toOption known
  rcases functions_survive_restart started fits unslashed with ⟨next, again, names⟩
  refine ⟨first, started, unslashed, stored, gone, next, again, ?_, (names "f").1 gone⟩
  have read := ((names "g").2 squareAndThree stored).2 squareAndThree_keepable
  rwa [same, or_self] at read

/-- A solution may be written in a name that is none.  Its function is saved without complaint,
and cannot be read again. -/
theorem function_lost_by_restart :
    ∃ first next : Session Float, Session.start ⟨none, 15, true⟩ (some []) = .ok first ∧
      let session := first.afterLines ["x+y", "solve x y'", "save g"]
      Session.start ⟨none, 15, true⟩ session.files = .ok next ∧
        session.environment.functions.has "g" = true ∧
          next.environment.functions.has "g" = false := by
  have facts : ((start ⟨none, 15, true⟩ (some []) : Except LoadFault (Session Float)).toOption.any
      fun first =>
        let session := first.afterLines ["x+y", "solve x y'", "save g"]
        (start ⟨none, 15, true⟩ session.files : Except LoadFault (Session Float)).toOption.any
          fun next => session.environment.functions.has "g" &&
            !next.environment.functions.has "g") = true := by
    decide +kernel
  rcases (Option.any_eq_true _ _).mp facts with ⟨first, known, lost⟩
  rcases (Option.any_eq_true _ _).mp lost with ⟨next, again, both⟩
  rcases Bool.and_eq_true_iff.mp both with ⟨saved, missing⟩
  exact ⟨first, next, eq_ok_of_toOption known, eq_ok_of_toOption again, saved,
    Bool.not_eq_true' _ ▸ missing⟩

end Session
end QuantityCalculus
