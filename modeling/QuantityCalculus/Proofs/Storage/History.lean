import QuantityCalculus.Proofs.Session.Actions
import QuantityCalculus.Proofs.Storage.Keepable
import QuantityCalculus.Proofs.Storage.Restoring

namespace QuantityCalculus

/-!
# Sessions that define units

A history is a session that starts on an empty tree and is led on by commands that define
units and declare relations, each of which reports success.  Beside it stand its notes:
every declaration with the catalog that it was made in and the units that it named at that
time.

What a history keeps is one invariant: the notes document the registry, the tree keeps its
catalogs, and what is there from the start is still the beginning of it.
-/

variable {R : Type} [Scalar R]

namespace Action

/-! ## The commands -/

/-- The session goes on with a changed registry, one catalog of which is saved. -/
def GoesOn (session : Session R) (changed : Registry R) (name : String) (after : Session R) :
    Prop :=
  ∃ catalog, changed.catalogs.get? name = some catalog ∧ after.environment.registry = changed ∧
    after.files = session.files.map (fun tree => (tree.saveCatalog changed name catalog).1) ∧
    after.places = session.places

theorem goesOn_of_keepCatalog {session after : Session R} {name : String}
    (kept : keepCatalog name session = (.ok ⟨⟩, after)) :
    GoesOn session session.environment.registry name after := by
  rw [keepCatalog, run_get_bind] at kept
  rcases run_bind_eq_ok.mp kept with ⟨catalog, middle, found, kept⟩
  rw [run_lift] at found
  rcases Prod.mk.inj found with ⟨looked, rfl⟩
  cases kept
  exact ⟨catalog, Registry.catalog_eq_ok.mp looked, rfl, rfl, rfl⟩

theorem of_run_defineUnit {session after : Session R} {name symbol : String}
    {words lines : List String}
    (run : defineUnit (name :: symbol :: words) session = (.ok lines, after)) :
    ∃ unit changed,
      session.environment.registry.defineUnit name symbol (phrase words) = .ok (unit, changed) ∧
      GoesOn session changed name after := by
  rw [defineUnit, run_get_bind] at run
  rcases run_bind_eq_ok.mp run with ⟨⟨unit, changed⟩, middle, defined, run⟩
  rw [run_lift] at defined
  rcases Prod.mk.inj defined with ⟨accepted, rfl⟩
  rcases run_bind_eq_ok.mp run with ⟨_, first, entered, run⟩
  cases entered
  rcases run_bind_eq_ok.mp run with ⟨_, second, enabled, run⟩
  cases enabled
  rcases run_bind_eq_ok.mp run with ⟨_, third, kept, run⟩
  cases run
  exact ⟨unit, changed, accepted, goesOn_of_keepCatalog kept⟩

theorem of_run_declareRelation {session after : Session R} {name : String}
    {parts lines : List String}
    (run : declareRelation (name :: parts) session = (.ok lines, after)) :
    ∃ changed, session.environment.registry.defineRelation session.places name
        (String.join parts) = .ok changed ∧
      GoesOn session changed name after := by
  cases parts with
  | nil => cases run
  | cons first rest =>
      rw [declareRelation, run_get_bind] at run
      rcases run_bind_eq_ok.mp run with ⟨changed, middle, defined, run⟩
      rw [run_lift] at defined
      rcases Prod.mk.inj defined with ⟨accepted, rfl⟩
      rcases run_bind_eq_ok.mp run with ⟨_, next, entered, run⟩
      cases entered
      rcases run_bind_eq_ok.mp run with ⟨_, last, kept, run⟩
      cases run
      exact ⟨changed, accepted, goesOn_of_keepCatalog kept⟩

end Action

/-- Words that are joined by single spaces are a phrase, if there are any. -/
theorem isPhrase_phrase {words : List String}
    (each : forall word, word ∈ words -> Text.IsWord word.toList)
    (written : Action.phrase words ≠ "") : Text.IsPhrase (Action.phrase words).toList := by
  rw [Action.phrase, String.toList_intercalate]
  refine Text.isPhrase_intercalate (fun none => written ?_) fun letters member => ?_
  · rw [List.map_eq_nil_iff.mp none]
    rfl
  · rcases List.mem_map.mp member with ⟨word, inside, rfl⟩
    exact each word inside

/-! ## Changes of one catalog -/

namespace Registry

/-- A registry changes in one catalog only, where it may get new units and declarations. -/
structure ChangesIn (registry : Registry R) (notes : List (Note R)) (name : String)
    (changed : Registry R) (notesAfter : List (Note R)) : Prop where
  others : forall other, other ≠ name ->
    changed.catalogs.get? other = registry.catalogs.get? other
  inForce : name ∈ changed.catalogs.keys
  names : forall {other symbol unit}, other ≠ name -> registry.heldUnit? other symbol = some unit ->
    changed.nameOf unit = registry.nameOf unit
  grows : forall {symbol unit}, registry.heldUnit? name symbol = some unit ->
    ∃ new, changed.heldUnit? name symbol = some new
  kept : forall file, file.1 ≠ name ->
    Note.keptIn file (notesAfter.map Note.bare) = Note.keptIn file (notes.map Note.bare)

section

variable {places : Nat} {registry changed loaded : Registry R}
  {notes notesAfter log : List (Note R)} {name : String} {settled : List String}

omit [Scalar R] in
theorem ChangesIn.held (changes : registry.ChangesIn notes name changed notesAfter)
    {other : String} (different : other ≠ name) (symbol : String) :
    changed.heldUnit? other symbol = registry.heldUnit? other symbol := by
  rw [heldUnit?, changes.others other different, heldUnit?]

omit [Scalar R] in
/-- What is settled stays settled while other catalogs change. -/
theorem Restored.goesOn (restored : Restored registry notes settled loaded log)
    (changes : registry.ChangesIn notes name changed notesAfter) (unsettled : name ∉ settled) :
    Restored changed notesAfter settled loaded log := by
  have apart : forall other, other ∈ settled -> other ≠ name :=
    fun other member same => unsettled (same ▸ member)
  exact
    { sound := restored.sound
      distinct := restored.distinct
      known := by
        intro other member
        by_cases same : other = name
        · exact same ▸ changes.inForce
        · rcases Table.exists_of_mem_keys (restored.known other member) with ⟨_, there⟩
          exact Table.mem_keys_of_get? ((changes.others other same).trans there)
      within := by
        intro other symbol unit held
        rcases restored.within held with ⟨kept, found⟩
        by_cases same : other = name
        · subst same
          exact changes.grows found
        · exact ⟨kept, (changes.held same symbol).trans found⟩
      inForce := restored.inForce
      shown := by
        intro other member symbol
        rw [restored.shown other member symbol, shown?, shown?, changes.held (apart other member)]
        cases held : registry.heldUnit? other symbol with
        | none => rfl
        | some unit =>
            rw [Option.map_some, Option.map_some, changes.names (apart other member) held]
      tells := restored.tells
      named := restored.named
      kept := by
        intro file
        rw [restored.kept]
        split
        · rename_i member
          exact (changes.kept file (apart file.1 member)).symm
        · rfl }

omit [Scalar R] in
/-- A catalog that is settled need not count as settled. -/
theorem Restored.unsettle (restored : Restored registry notes settled loaded log) :
    Restored registry notes [] loaded [] where
  sound := restored.sound
  distinct := restored.distinct
  known := restored.known
  within := restored.within
  inForce := nofun
  shown := nofun
  tells := nofun
  named := nofun
  kept := fun _ => rfl

omit [Scalar R] in
/-- A registry agrees with itself. -/
theorem Documented.restored (documented : registry.Documented notes) :
    Restored registry notes registry.catalogs.keys registry notes where
  sound := documented.sound
  distinct := documented.distinct
  known := fun _ => id
  within := fun held => ⟨_, held⟩
  inForce := fun _ => id
  shown := fun _ _ _ => rfl
  tells := by
    intro name symbol unit _ _ key
    rw [documented.journal.tells, Note.writes_resolved]
  named := by
    intro note member unit named
    have held := documented.held (documented.names_known member named)
    exact ⟨mem_keys_of_heldUnit? held, held⟩
  kept := by
    intro file
    split
    · rfl
    · rename_i nowhere
      refine List.filter_eq_nil_iff.mpr fun note member same => nowhere ?_
      rcases List.mem_map.mp member with ⟨source, inside, rfl⟩
      exact beq_iff_eq.mp same ▸ documented.inForce source inside

omit [Scalar R] in
theorem Documented.changesIn_defineUnit (documented : registry.Documented notes)
    {symbol shown : String} {unit : UnitOfMeasure}
    (defined : registry.defineUnit name symbol shown = .ok (unit, changed)) :
    registry.ChangesIn notes name changed notes := by
  have defines := definesUnit documented.sound defined
  have isHeld : changed.heldUnit? name symbol = some unit :=
    (defines.held name symbol).trans (if_pos ⟨rfl, rfl⟩)
  have label : unit.label = ⟨name, symbol⟩ := defines.label.elim documented.label And.right
  exact
    { others := defines.others
      inForce := mem_keys_of_heldUnit? isHeld
      names := by
        intro other otherSymbol there different held
        refine defines.names there
          (documented.sound.known_of_heldUnit? held) fun same => different ?_
        have labelThere := documented.label held
        rw [same, label] at labelThere
        exact (congrArg UnitLabel.catalog labelThere).symm
      grows := by
        intro otherSymbol there held
        rw [defines.held]
        split
        · exact ⟨unit, rfl⟩
        · exact ⟨there, held⟩
      kept := fun _ _ => rfl }

omit [Scalar R] in
theorem DeclaresRelation.changesIn {note : Note R}
    (declares : registry.DeclaresRelation note.catalog note.resolved changed)
    (inForce : note.catalog ∈ changed.catalogs.keys) :
    registry.ChangesIn notes note.catalog changed (notes ++ [note]) where
  others := declares.others
  inForce := inForce
  names := fun _ _ => declares.names _
  grows := fun held => ⟨_, (declares.held _ _).trans held⟩
  kept := by
    intro file different
    have elsewhere : (note.bare.file == file) = false :=
      beq_eq_false_iff_ne.mpr fun same => different (congrArg Prod.fst same).symm
    rw [List.map_append, Note.keptIn_append, List.map_singleton, Note.keptIn, Note.keptIn,
      List.filter_singleton, elsewhere]
    exact List.append_nil _

end

end Registry

/-! ## Histories -/

/-- A session that starts on an empty tree and is led on by definitions of units and declarations
of relations that all succeed, and the notes of all its declarations. -/
inductive UnitHistory (options : SessionOptions) : Session R -> List (Note R) -> Prop
  | start {session : Session R} {notes : List (Note R)} :
      Session.start options (some []) = .ok session ->
      Registry.builtInNotes options.places = .ok notes -> UnitHistory options session notes
  | unit {session after : Session R} {notes : List (Note R)} {input catalog symbol : String}
      {words lines : List String} : UnitHistory options session notes ->
      Line.ofText (Text.trim input.toList) = .command .unit (catalog :: symbol :: words) ->
      FileTree.IsCatalogName catalog -> FileTree.IsUnitSymbol symbol ->
      (Line.command .unit (catalog :: symbol :: words)).run session = (.ok lines, after) ->
      UnitHistory options after notes
  | relation {session after : Session R} {notes : List (Note R)} {note : Note R}
      {input catalog : String} {parts lines : List String} : UnitHistory options session notes ->
      Line.ofText (Text.trim input.toList) = .command .relation (catalog :: parts) ->
      (Line.command .relation (catalog :: parts)).run session = (.ok lines, after) ->
      session.environment.registry.noteOf options.places catalog (String.join parts) = .ok note ->
      UnitHistory options after (notes ++ [note])

/-- The history that goes on with a line, if the line can and does succeed. -/
def historyAfter (options : SessionOptions) (history : Session R × List (Note R))
    (input : String) : Option (Session R × List (Note R)) :=
  match Line.ofText (Text.trim input.toList) with
  | .command .unit (catalog :: symbol :: words) =>
      match Action.defineUnit (catalog :: symbol :: words) history.1 with
      | (.ok _, after) =>
          if FileTree.IsCatalogName catalog ∧ FileTree.IsUnitSymbol symbol then
            some (after, history.2)
          else none
      | (.error _, _) => none
  | .command .relation (catalog :: parts) =>
      match Action.declareRelation (catalog :: parts) history.1,
        history.1.environment.registry.noteOf options.places catalog (String.join parts) with
      | (.ok _, after), .ok note => some (after, history.2 ++ [note])
      | _, _ => none
  | _ => none

/-- The history that goes on with some lines. -/
def historyAfterAll (options : SessionOptions) :
    Session R × List (Note R) -> List String -> Option (Session R × List (Note R))
  | history, [] => some history
  | history, input :: rest =>
      match historyAfter options history input with
      | some next => historyAfterAll options next rest
      | none => none

/-- The session that some lines lead to from a start, and the notes of its declarations. -/
def historyFrom (options : SessionOptions) (start : Except LoadFault (Session R))
    (builtIn : Except Failure (List (Note R))) (inputs : List String) :
    Option (Session R × List (Note R)) :=
  match start, builtIn with
  | .ok session, .ok notes => historyAfterAll options (session, notes) inputs
  | _, _ => none

theorem unitHistory_after {options : SessionOptions} {history next : Session R × List (Note R)}
    {input : String} (before : UnitHistory options history.1 history.2)
    (found : historyAfter options history input = some next) :
    UnitHistory options next.1 next.2 := by
  unfold historyAfter at found
  split at found
  · rename_i catalog symbol words read
    split at found
    · rename_i lines after run
      split at found
      · rename_i plain
        cases found
        exact before.unit read plain.1 plain.2 run
      · cases found
    · cases found
  · rename_i catalog parts read
    split at found
    · rename_i lines after note run noted
      cases found
      exact before.relation read run noted
    · cases found
  · cases found

theorem unitHistory_afterAll {options : SessionOptions} {inputs : List String}
    {history last : Session R × List (Note R)} (before : UnitHistory options history.1 history.2)
    (found : historyAfterAll options history inputs = some last) :
    UnitHistory options last.1 last.2 := by
  induction inputs generalizing history with
  | nil =>
      cases found
      exact before
  | cons input rest inductionHypothesis =>
      unfold historyAfterAll at found
      split at found
      · rename_i next one
        exact inductionHypothesis (unitHistory_after before one) found
      · cases found

/-- A history that is computed is one. -/
theorem unitHistory_of_historyFrom {options : SessionOptions} {inputs : List String}
    {start : Except LoadFault (Session R)} {builtIn : Except Failure (List (Note R))}
    {history : Session R × List (Note R)} (started : Session.start options (some []) = start)
    (noted : Registry.builtInNotes options.places = builtIn)
    (found : historyFrom options start builtIn inputs = some history) :
    UnitHistory options history.1 history.2 := by
  unfold historyFrom at found
  split at found
  · rename_i session notes
    have begun : UnitHistory options (session, notes).1 (session, notes).2 :=
      .start started noted
    exact unitHistory_afterAll begun found
  · cases found

/-- What a history keeps: its registry can be kept and is kept, up to catalogs that are still as
they were at the start. -/
structure Kept (options : SessionOptions) (session : Session R) (notes : List (Note R))
    (tree : FileTree) (saved settled : List String) (builtIn : Registry R)
    (log : List (Note R)) : Prop where
  places : session.places = options.places
  keepable : session.environment.registry.Keepable options.places notes
  files : session.files = some tree
  keeps : tree.Keeps session.environment.registry saved
  built : Registry.empty.withBuiltIns options.places = .ok builtIn
  restored : Registry.Restored session.environment.registry notes settled builtIn log
  everywhere : forall name, name ∈ session.environment.registry.catalogs.keys ->
    name ∈ saved ∨ name ∈ settled
  apart : forall name, name ∈ saved -> name ∉ settled
  fromStart : forall name, name ∈ settled -> name ∈ builtInCatalogs.map Prod.fst

section

variable {options : SessionOptions} {session after : Session R}
  {notes notesAfter log : List (Note R)} {tree : FileTree} {saved settled : List String}
  {builtIn changed : Registry R} {name : String}

theorem exists_kept_start (started : Session.start options (some []) = .ok session)
    (noted : Registry.builtInNotes options.places = .ok notes) :
    ∃ settled builtIn log, Kept options session notes [] [] settled builtIn log := by
  rcases Session.fresh_of_start started with ⟨builtIn, fresh⟩
  have registry : session.environment.registry = builtIn := fresh.registry
  rcases Registry.keepable_withBuiltIns fresh.built with ⟨found, notedFound, keepable, keys⟩
  cases noted.symm.trans notedFound
  refine ⟨builtIn.catalogs.keys, builtIn, notes, ?_⟩
  exact
    { places := fresh.places
      keepable := registry ▸ keepable
      files := fresh.files
      keeps := FileTree.keeps_empty _
      built := fresh.built
      restored := registry ▸ keepable.documented.restored
      everywhere := fun name member => Or.inr (registry ▸ member)
      apart := nofun
      fromStart := fun name => (keys name).mp }

/-- A session that goes on with a change of one catalog, which is saved, keeps what there is. -/
theorem Kept.goesOn (kept : Kept options session notes tree saved settled builtIn log)
    (goesOn : Action.GoesOn session changed name after)
    (changes : session.environment.registry.ChangesIn notes name changed notesAfter)
    (keepable : changed.Keepable options.places notesAfter) :
    ∃ tree settled log,
      Kept options after notesAfter tree (name :: saved) settled builtIn log := by
  rcases goesOn with ⟨catalog, found, registry, files, places⟩
  have saves : (tree.saveCatalog changed name catalog).1.Keeps changed (name :: saved) := by
    refine kept.keeps.save kept.keepable.storable keepable.storable found changes.others
      (fun other otherCatalog symbol unit different inForce held => ?_)
      fun old symbol unit inForce held => ?_
    · rw [FileTree.unitText, changes.names different (Registry.held_of_get? inForce held),
        FileTree.unitText]
    · rcases changes.grows (Registry.held_of_get? inForce held) with ⟨new, heldNow⟩
      rw [Registry.heldUnit?, found] at heldNow
      exact ⟨new, heldNow⟩
  have before : forall other, other ∈ changed.catalogs.keys -> other ≠ name ->
      other ∈ saved ∨ other ∈ settled := by
    intro other member different
    rcases Table.exists_of_mem_keys member with ⟨_, there⟩
    exact kept.everywhere other
      (Table.mem_keys_of_get? ((changes.others other different).symm.trans there))
  have afterFiles : after.files = some (tree.saveCatalog changed name catalog).1 := by
    rw [files, kept.files]
    rfl
  subst registry
  by_cases inSettled : name ∈ settled
  · -- there is one catalog at the start, so that no other one is settled
    have only : forall other, other ∈ settled -> other = name := by
      have single : forall other, other ∈ builtInCatalogs.map Prod.fst -> other = "electric" :=
        by decide
      intro other member
      rw [single other (kept.fromStart other member), single name (kept.fromStart name inSettled)]
    refine ⟨(tree.saveCatalog after.environment.registry name catalog).1, [], [], ?_⟩
    exact
      { places := places.trans kept.places
        keepable := keepable
        files := afterFiles
        keeps := saves
        built := kept.built
        restored := kept.restored.unsettle.goesOn changes List.not_mem_nil
        everywhere := by
          intro other member
          by_cases same : other = name
          · exact Or.inl (same ▸ List.mem_cons_self)
          · exact Or.inl (List.mem_cons_of_mem _ ((before other member same).resolve_right
              fun there => same (only other there)))
        apart := fun _ _ => List.not_mem_nil
        fromStart := fun _ member => absurd member List.not_mem_nil }
  · refine ⟨(tree.saveCatalog after.environment.registry name catalog).1, settled, log, ?_⟩
    exact
      { places := places.trans kept.places
        keepable := keepable
        files := afterFiles
        keeps := saves
        built := kept.built
        restored := kept.restored.goesOn changes inSettled
        everywhere := by
          intro other member
          by_cases same : other = name
          · exact Or.inl (same ▸ List.mem_cons_self)
          · exact (before other member same).imp_left (List.mem_cons_of_mem _)
        apart := by
          intro other member
          rcases List.mem_cons.mp member with rfl | there
          · exact inSettled
          · exact kept.apart other there
        fromStart := kept.fromStart }

theorem Kept.unit (kept : Kept options session notes tree saved settled builtIn log)
    {symbol : String} {words lines : List String} (isName : FileTree.IsCatalogName name)
    (isSymbol : FileTree.IsUnitSymbol symbol)
    (isWord : forall word, word ∈ words -> Text.IsWord word.toList)
    (run : Action.defineUnit (name :: symbol :: words) session = (.ok lines, after)) :
    ∃ tree settled log, Kept options after notes tree (name :: saved) settled builtIn log := by
  rcases Action.of_run_defineUnit run with ⟨unit, changed, defined, goesOn⟩
  exact kept.goesOn goesOn (kept.keepable.documented.changesIn_defineUnit defined)
    (kept.keepable.defineUnit isName isSymbol (isPhrase_phrase isWord) defined)

theorem Kept.relation (kept : Kept options session notes tree saved settled builtIn log)
    {parts lines : List String} {note : Note R}
    (run : Action.declareRelation (name :: parts) session = (.ok lines, after))
    (noted : session.environment.registry.noteOf options.places name (String.join parts) =
      .ok note) :
    ∃ tree settled log,
      Kept options after (notes ++ [note]) tree (name :: saved) settled builtIn log := by
  rcases Action.of_run_declareRelation run with ⟨changed, defined, goesOn⟩
  rw [kept.places] at defined
  rcases kept.keepable.documented.defineRelation defined with
    ⟨found, notedFound, parsed, rfl, declares, documented⟩
  have same : found = note := Except.ok.inj (notedFound.symm.trans noted)
  subst same
  have inForce : found.catalog ∈ changed.catalogs.keys :=
    documented.inForce found (List.mem_append_right _ (List.mem_singleton_self _))
  exact kept.goesOn goesOn (declares.changesIn inForce)
    (kept.keepable.declare parsed declares documented)

theorem UnitHistory.exists_kept (history : UnitHistory options session notes) :
    ∃ tree saved settled builtIn log,
      Kept options session notes tree saved settled builtIn log := by
  induction history with
  | start started noted =>
      rcases exists_kept_start started noted with ⟨settled, builtIn, log, kept⟩
      exact ⟨[], [], settled, builtIn, log, kept⟩
  | unit _ read isName isSymbol run inductionHypothesis =>
      rcases inductionHypothesis with ⟨_, saved, _, builtIn, _, kept⟩
      have isWord := Line.isWord_of_ofText read
      rcases kept.unit isName isSymbol (fun word member =>
        isWord word (List.mem_cons_of_mem _ (List.mem_cons_of_mem _ member))) run with
        ⟨tree, settled, log, further⟩
      exact ⟨tree, _, settled, builtIn, log, further⟩
  | relation _ _ run noted inductionHypothesis =>
      rcases inductionHypothesis with ⟨_, saved, _, builtIn, _, kept⟩
      rcases kept.relation run noted with ⟨tree, settled, log, further⟩
      exact ⟨tree, _, settled, builtIn, log, further⟩

/-- A declaration that succeeds can be noted. -/
theorem UnitHistory.exists_note (history : UnitHistory options session notes)
    {parts lines : List String}
    (run : (Line.command .relation (name :: parts)).run session = (.ok lines, after)) :
    ∃ note, session.environment.registry.noteOf options.places name (String.join parts) =
      .ok note := by
  rcases history.exists_kept with ⟨_, _, _, _, _, kept⟩
  rcases Action.of_run_declareRelation run with ⟨changed, defined, _⟩
  rw [kept.places] at defined
  rcases kept.keepable.documented.defineRelation defined with ⟨note, noted, _⟩
  exact ⟨note, noted⟩

end

end QuantityCalculus
