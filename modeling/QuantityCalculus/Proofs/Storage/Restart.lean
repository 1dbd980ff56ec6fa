import QuantityCalculus.Proofs.Storage.History

namespace QuantityCalculus

/-!
# Units that survive a restart

A session that starts on what a history kept holds the same catalogs, the same units under
the same names, and the same relations, for every history that lasts.

Not every history lasts.  A declaration is kept in the file of the unit that it starts
with, so it must start with a unit of its own catalog.  It is read with the units that are
there when its catalog is loaded, so the other units must be its own as well, or be found by
their symbols alone in a catalog that is loaded before.  A factor must be written as it is
read, a display name must not start a comment, and of two declarations that contradict each
other the later one must be read later, since the files are read in the order of their paths.
-/

variable {R : Type} [Scalar R]

/-! ## Sessions on a kept tree -/

namespace FileTree

section

variable {tree : FileTree} {registry : Registry R} {saved : List String}

/-- A kept tree holds nothing but directories of catalogs at the top. -/
theorem Keeps.entry?_other (keeps : tree.Keeps registry saved) (storable : registry.Storable)
    {name : String} (part : IsPart name) (other : hasEnding catalogEnding name = false) :
    tree.entry? name = none := by
  rw [entry?_part part]
  refine Option.eq_none_iff_forall_ne_some.mpr fun entry found => ?_
  rcases keeps.only found with ⟨catalog, member, rfl⟩ |
    ⟨catalog, _, symbol, unit, member, there, held, rfl⟩
  · rw [catalogPath, hasEnding_append] at other
    cases other
  · exact childPath_ne_part (storable.name there).isPart (storable.symbol there held).isPart part
      rfl

/-- A catalog of a kept tree is one of those that are saved. -/
theorem Keeps.isDirectory_catalogPath (keeps : tree.Keeps registry saved)
    (storable : registry.Storable) {name : String} (isName : IsCatalogName name) :
    tree.isDirectory (catalogPath name) = true <-> name ∈ saved := by
  rw [isDirectory, entry?_part isName.isPart, beq_iff_eq]
  constructor
  · intro found
    rcases keeps.only found with ⟨catalog, member, same⟩ |
      ⟨catalog, _, symbol, unit, member, there, held, same⟩
    · exact catalogPath_inj same ▸ member
    · exact absurd same.symm
        (unitPath_ne_catalogPath (storable.name there) (storable.symbol there held) isName)
  · exact keeps.directory

theorem Keeps.loadSettings (keeps : tree.Keeps registry saved) (storable : registry.Storable) :
    (tree.loadSettings : Except LoadFault (StoredSettings R)) = .ok .initial := by
  have part : IsPart settingsPath := ⟨by decide, by decide, by decide⟩
  rw [FileTree.loadSettings, text?, keeps.entry?_other storable part (by decide)]

theorem Keeps.loadConstants (keeps : tree.Keeps registry saved) (storable : registry.Storable) :
    (tree.loadConstants : Except LoadFault (Table R)) = .ok [] := by
  have part : IsPart constantsPath := ⟨by decide, by decide, by decide⟩
  rw [FileTree.loadConstants, keeps.entry?_other storable part (by decide)]

theorem Keeps.loadAllFunctions (keeps : tree.Keeps registry saved) (storable : registry.Storable) :
    tree.loadAllFunctions ([] : FunctionStore R) = .ok ([], 0) := by
  have none : tree.namesEnding "" functionEnding = [] := by
    rw [namesEnding, List.filter_eq_nil_iff]
    intro name member ends
    rcases (keeps.mem_namesIn_root storable).mp member with ⟨catalog, _, rfl⟩
    -- the two endings have different last letters
    have last : (catalogPath catalog).toList.getLast? = some 's' := by
      rw [catalogPath, String.toList_append, List.getLast?_append_of_ne_nil _ (by decide)]
      rfl
    rcases List.isSuffixOf_iff_suffix.mp ends with ⟨stem, same⟩
    rw [← same, List.getLast?_append_of_ne_nil _ (by decide)] at last
    exact absurd last (by decide)
  rw [FileTree.loadAllFunctions, functionNames, none]
  rfl

/-- A session starts on a kept tree with the catalogs of the tree. -/
theorem Keeps.start (keeps : tree.Keeps registry saved) (storable : registry.Storable)
    {options : SessionOptions} {builtIn : Registry R}
    (built : Registry.empty.withBuiltIns options.places = .ok builtIn) :
    ∃ next : Session R, Session.start options (some tree) = .ok next ∧
      next.environment.registry = (tree.loadAllCatalogs options.places builtIn).1 := by
  let parts : Session.Parts R := ⟨.initial, [], builtIn, [], options.angleMode.getD .deg,
    (tree.loadAllCatalogs options.places builtIn).1.catalogs.keys⟩
  have loaded : parts.LoadedFrom options (some tree) :=
    ⟨keeps.loadSettings storable, keeps.loadConstants storable, built,
      ⟨0, keeps.loadAllFunctions storable⟩, StoredSettings.startingMode_eq rfl options, rfl⟩
  exact ⟨parts.session options (some tree), Session.start_eq_ok.mpr ⟨parts, loaded, rfl⟩, rfl⟩

end

end FileTree

/-! ## Histories that last -/

/-- The catalog is kept in a directory of its own. -/
def Session.saves (session : Session R) (name : String) : Bool :=
  session.files.any fun tree => tree.isDirectory (FileTree.catalogPath name)

/-- What a history has declared is read again as it was meant. -/
@[mk_iff]
structure Lasting (session : Session R) (notes : List (Note R)) : Prop where
  names : forall unit, unit ∈ session.environment.registry.units ->
    (session.environment.registry.nameOf unit).toList.head? ≠ some '#'
  factors : forall note, note ∈ notes -> forall value,
    value ∈ note.resolved.declaration.operand.factor? -> ReadableFactor value
  agree : (notes.map Note.bare).Pairwise fun note other => note.Conflicts other ->
    note.file = other.file ∨ FileTree.ReadsBefore session.saves note.file other.file
  own : forall note, note ∈ notes -> session.saves note.catalog = true ->
    note.resolved.subject.label.catalog = note.catalog
  named : forall note, note ∈ notes -> session.saves note.catalog = true ->
    forall unit, note.resolved.Names unit -> unit.label.catalog = note.catalog ∨
      ((session.saves unit.label.catalog = false ∨
          FileTree.catalogPath unit.label.catalog < FileTree.catalogPath note.catalog) ∧
        forall other, other ∈ session.environment.registry.units ->
          other.label.symbol = unit.label.symbol -> other = unit)

instance [DecidableEq R] (session : Session R) (notes : List (Note R)) :
    Decidable (Lasting session notes) :=
  decidable_of_iff' _ (lasting_iff session notes)

section

variable {options : SessionOptions} {session : Session R} {notes log : List (Note R)}
  {tree : FileTree} {saved settled : List String} {builtIn : Registry R}

theorem Kept.saves_iff (kept : Kept options session notes tree saved settled builtIn log)
    {name : String} (inForce : name ∈ session.environment.registry.catalogs.keys) :
    session.saves name = true <-> name ∈ saved := by
  rcases Table.exists_of_mem_keys inForce with ⟨_, there⟩
  have storable := kept.keepable.storable
  rw [Session.saves, kept.files]
  exact kept.keeps.isDirectory_catalogPath storable (storable.name there)

/-- What is still as it was at the start is not saved. -/
theorem Kept.unsaved (kept : Kept options session notes tree saved settled builtIn log)
    {name : String} (member : name ∈ settled) : session.saves name = false := by
  have inForce := kept.restored.known name (kept.restored.inForce name member)
  exact Bool.eq_false_iff.mpr fun isSaved =>
    kept.apart name ((kept.saves_iff inForce).mp isSaved) member

theorem Kept.inReadingOrder (kept : Kept options session notes tree saved settled builtIn log) :
    FileTree.InReadingOrder session.saves log := by
  refine List.pairwise_of_forall_mem_list fun note before other _ reads => ?_
  have isSaved : session.saves note.catalog = true := reads.1
  rw [kept.unsaved (kept.restored.settled_of_mem before)] at isSaved
  cases isSaved

/-- A declaration of a history that lasts stays what it is when the saved catalogs are loaded. -/
theorem Kept.lasts (kept : Kept options session notes tree saved settled builtIn log)
    (lasting : Lasting session notes) {note : Note R} (member : note ∈ notes)
    (isSaved : note.catalog ∈ saved) :
    FileTree.Lasts session.environment.registry settled saved note := by
  have documented := kept.keepable.documented
  have saves := (kept.saves_iff (documented.inForce note member)).mpr isSaved
  refine ⟨lasting.own note member saves, fun unit named => ?_⟩
  refine (lasting.named note member saves unit named).imp_right ?_
  rintro ⟨before, only⟩
  refine ⟨?_, fun other different => Option.eq_none_iff_forall_ne_some.mpr fun found held => ?_⟩
  · have inForce := Registry.mem_keys_of_heldUnit?
      (documented.held (documented.names_known member named))
    rcases kept.everywhere _ inForce with there | fromStart
    · refine Or.inr ⟨there, before.resolve_left fun notSaved => ?_⟩
      rw [(kept.saves_iff inForce).mpr there] at notSaved
      cases notSaved
    · exact Or.inl fromStart
  · have label := documented.label held
    rw [only found (documented.sound.known_of_heldUnit? held) (by rw [label])] at label
    exact different (by rw [label])

/-- After a restart the units of a history that lasts are what they were. -/
theorem units_survive_restart (history : UnitHistory options session notes)
    (lasting : Lasting session notes) :
    ∃ next, Session.start options session.files = .ok next ∧
      session.environment.registry.SameUnits next.environment.registry := by
  rcases history.exists_kept with ⟨tree, saved, settled, builtIn, log, kept⟩
  have documented := kept.keepable.documented
  have storable := kept.keepable.storable
  have legible := kept.keepable.legible
    (fun _ _ _ held => lasting.names _ (documented.sound.known_of_heldUnit? held))
    fun note member value factor => lasting.factors note member value (by rw [factor]; rfl)
  rcases kept.keeps.start storable kept.built with ⟨next, started, registry⟩
  rcases kept.keeps.catalogDirectories storable with ⟨names, directories, sorted, among⟩
  have known : forall name, name ∈ names -> name ∈ saved ∧ session.saves name = true := by
    intro name member
    have isSaved := (among name).mp member
    rcases kept.keeps.known isSaved with ⟨_, there⟩
    exact ⟨isSaved, (kept.saves_iff (Table.mem_keys_of_get? there)).mpr isSaved⟩
  have lasts : forall note, note ∈ notes -> note.catalog ∈ names ->
      FileTree.Lasts session.environment.registry settled names note := fun note member inNames =>
    (kept.lasts lasting member ((among _).mp inNames)).mono fun name => (among name).mpr
  rcases kept.keeps.loadCatalogs storable legible documented kept.restored kept.inReadingOrder
    sorted known (fun name member => kept.apart name (known name member).1)
    (fun name member => Or.inl (kept.unsaved member)) lasts with
    ⟨all, more, restored, ordered, settledAll⟩
  refine ⟨next, kept.files ▸ started, ?_⟩
  rw [registry, FileTree.loadAllCatalogs, directories]
  refine restored.sameUnits documented lasting.agree ordered fun name member => ?_
  rw [settledAll, among]
  exact kept.everywhere name member

end

/-! ## Two histories -/

/-- A session with plain options. -/
def plainOptions : SessionOptions := ⟨none, 15, true⟩

/-- The session that some lines lead to from an empty tree, and the notes of its declarations. -/
def plainHistory (inputs : List String) : Option (Session Float × List (Note Float)) :=
  historyFrom plainOptions (Session.start plainOptions (some []))
    (Registry.builtInNotes plainOptions.places) inputs

theorem unitHistory_plain {inputs : List String} {history : Session Float × List (Note Float)}
    (found : plainHistory inputs = some history) :
    UnitHistory plainOptions history.1 history.2 :=
  unitHistory_of_historyFrom rfl rfl found

/-- Minutes that are sixty seconds are still that after a restart. -/
theorem units_survive_restart_minute :
    ∃ (session : Session Float) (notes : List (Note Float)),
      UnitHistory plainOptions session notes ∧ Lasting session notes ∧
      session.environment.registry.heldUnit? "t" "min" = some ⟨⟨"t", "min"⟩, 7⟩ ∧
      ∃ next, Session.start plainOptions session.files = .ok next ∧
        session.environment.registry.SameUnits next.environment.registry := by
  have facts : (plainHistory ["unit t min Minute", "relation t min*60=s"]).any (fun history =>
      decide (Lasting history.1 history.2 ∧
        history.1.environment.registry.heldUnit? "t" "min" = some ⟨⟨"t", "min"⟩, 7⟩)) = true := by
    decide +kernel
  rcases (Option.any_eq_true _ _).mp facts with ⟨⟨session, notes⟩, found, both⟩
  rcases of_decide_eq_true both with ⟨lasting, held⟩
  have history : UnitHistory plainOptions session notes := unitHistory_plain found
  exact ⟨session, notes, history, lasting, held, units_survive_restart history lasting⟩

/-- A declaration that starts with a unit of another catalog is kept nowhere: volt times second is
newton until the session ends, and nothing after a restart. -/
theorem units_lost_by_restart :
    ∃ (session : Session Float) (notes : List (Note Float)),
      UnitHistory plainOptions session notes ∧
      ∃ next, Session.start plainOptions session.files = .ok next ∧
        session.environment.registry.relation? ⟨⟨"electric", "V"⟩, 0⟩
          ⟨some ⟨"electric", "s"⟩, .times⟩ = some ⟨.times, ⟨⟨"m", "N"⟩, 7⟩, none⟩ ∧
        next.environment.registry.relation? ⟨⟨"electric", "V"⟩, 0⟩
          ⟨some ⟨"electric", "s"⟩, .times⟩ = none ∧
        ¬ session.environment.registry.SameUnits next.environment.registry := by
  have facts : (plainHistory ["unit m N", "relation m V*s=N"]).any (fun history =>
      match (Session.start plainOptions history.1.files : Except LoadFault (Session Float)) with
      | .ok next => decide (
          history.1.environment.registry.heldUnit? "electric" "V" = some ⟨⟨"electric", "V"⟩, 0⟩ ∧
          next.environment.registry.heldUnit? "electric" "V" = some ⟨⟨"electric", "V"⟩, 0⟩ ∧
          history.1.environment.registry.relation? ⟨⟨"electric", "V"⟩, 0⟩
            ⟨some ⟨"electric", "s"⟩, .times⟩ = some ⟨.times, ⟨⟨"m", "N"⟩, 7⟩, none⟩ ∧
          next.environment.registry.relation? ⟨⟨"electric", "V"⟩, 0⟩
            ⟨some ⟨"electric", "s"⟩, .times⟩ = none)
      | .error _ => false) = true := by
    decide +kernel
  rcases (Option.any_eq_true _ _).mp facts with ⟨⟨session, notes⟩, found, restarted⟩
  have history : UnitHistory plainOptions session notes := unitHistory_plain found
  revert restarted
  generalize started : (Session.start plainOptions session.files :
    Except LoadFault (Session Float)) = outcome
  intro restarted
  cases outcome with
  | error fault => cases restarted
  | ok next =>
      rcases of_decide_eq_true restarted with ⟨held, heldAgain, related, lost⟩
      refine ⟨session, notes, history, next, started, related, lost, fun same => ?_⟩
      have both := same.relations held heldAgain ⟨some ⟨"electric", "s"⟩, .times⟩
      rw [related, lost] at both
      cases both

end QuantityCalculus
