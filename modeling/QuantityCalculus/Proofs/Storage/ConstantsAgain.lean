import QuantityCalculus.Proofs.Storage.ConstantLines
import QuantityCalculus.Proofs.Storage.Keepable
import QuantityCalculus.Proofs.Storage.Reopening

namespace QuantityCalculus

/-!
# Constants after restarts

A session keeps its constants whenever one of them is set or taken away, so what is kept
always is the text of a table that agrees with the one in force.  A restart reads this text
and changes nothing that is kept.  So constants survive any number of restarts, as far as
the texts of their values are read as these values, and the constants that are always there
are never kept and never change.

The text is first written to a temporary place.  A catalog whose name has a slash lies in
further directories, and one of these may be named like the temporary place; from then on
no constant is kept any more.  Lines that make such catalogs are left out here.
-/

variable {R : Type}

/-! ## Names -/

/-- The name of a constant that is set in a line does not end in a line feed. -/
theorem unended_of_ofText {text : List Char} {name : String}
    (given : (Line.ofText text).constant? = some name) : '\n' ∉ name.toList := by
  unfold Line.constant? at given
  split at given
  · rename_i first rest line
    cases given
    intro member
    have visible := (Line.isWord_of_ofText line _ List.mem_cons_self).unblank '\n' member
    exact absurd visible (by decide)
  · cases given

/-- A line does not define a unit in a catalog whose name has a slash. -/
def Line.namesPlainCatalog (line : Line) : Bool :=
  line.catalog?.all fun name => !name.toList.contains '/'

theorem Text.isName_of_isNameLine {text : List Char} (named : isNameLine text = true)
    (unended : '\n' ∉ text) : isName text = true := by
  rw [isNameLine, Bool.or_eq_true, Bool.and_eq_true, beq_iff_eq] at named
  rcases named with whole | ⟨ended, _⟩
  · exact whole
  · exact absurd (List.mem_of_getLast? ended) unended

/-! ## Tables of constants -/

section

variable [Scalar R] {constants other : Table R} {tree : FileTree}

/-- Constants that are always there have their values, and all others have names. -/
structure IsConstantTable (constants : Table R) : Prop where
  distinct : constants.keys.Nodup
  named : forall name, name ∈ constants.keys -> builtInConstants.contains name = false ->
    Text.isName name.toList = true
  always : forall name, builtInConstants.contains name = true ->
    constants.get? name = Table.get? name builtInConstantTable

theorem keys_builtInConstantTable : (builtInConstantTable : Table R).keys = builtInConstants :=
  rfl

theorem not_mem_keys_builtInConstantTable {name : String}
    (own : builtInConstants.contains name = false) :
    name ∉ (builtInConstantTable : Table R).keys := by
  intro member
  rw [keys_builtInConstantTable] at member
  rw [List.contains_iff_mem.mpr member] at own
  cases own

theorem get?_builtInConstantTable {name : String} (own : builtInConstants.contains name = false) :
    Table.get? name (builtInConstantTable : Table R) = none :=
  (Table.get?_eq_none_iff _ _).mpr (not_mem_keys_builtInConstantTable own)

theorem isConstantTable_builtIn : IsConstantTable (builtInConstantTable : Table R) where
  distinct := by
    rw [keys_builtInConstantTable]
    decide
  named := fun _ member own => absurd member (not_mem_keys_builtInConstantTable own)
  always := fun _ _ => rfl

/-- A table with the same values is one as well. -/
theorem IsConstantTable.of_alike (isTable : IsConstantTable constants)
    (distinct : other.keys.Nodup) (alike : forall name, other.get? name = constants.get? name) :
    IsConstantTable other where
  distinct := distinct
  named := by
    intro name member own
    rcases Table.exists_of_mem_keys member with ⟨value, found⟩
    exact isTable.named name (Table.mem_keys_of_get? ((alike name).symm.trans found)) own
  always := fun name builtIn => (alike name).trans (isTable.always name builtIn)

/-- It stays one when no other value is changed than that of a constant of its own. -/
theorem IsConstantTable.of_others (isTable : IsConstantTable constants) {name : String}
    (own : builtInConstants.contains name = false) (distinct : other.keys.Nodup)
    (named : name ∈ other.keys -> Text.isName name.toList = true)
    (others : forall key, name ≠ key -> other.get? key = constants.get? key) :
    IsConstantTable other where
  distinct := distinct
  named := by
    intro key member foreign
    by_cases same : name = key
    · exact same ▸ named (same ▸ member)
    · rcases Table.exists_of_mem_keys member with ⟨value, found⟩
      rw [others key same] at found
      exact isTable.named key (Table.mem_keys_of_get? found) foreign
  always := by
    intro key builtIn
    have different : name ≠ key := by
      rintro rfl
      rw [own] at builtIn
      cases builtIn
    exact (others key different).trans (isTable.always key builtIn)

theorem IsConstantTable.revised (isTable : IsConstantTable constants) {line : Line}
    (revises : Session.Revises line constants other)
    (unended : forall name, line.constant? = some name -> '\n' ∉ name.toList) :
    IsConstantTable other := by
  cases revises with
  | @set name given bindable own value =>
      rw [Action.isBindable, Bool.and_eq_true] at bindable
      refine isTable.of_others own (Table.nodup_keys_set isTable.distinct _ _)
        (fun _ => Text.isName_of_isNameLine bindable.1 (unended name given)) fun key different => ?_
      rw [Table.get?_set, if_neg different]
  | @removed name own =>
      refine isTable.of_others own (Table.nodup_keys_remove isTable.distinct _)
        (fun member => ?_) fun key different => ?_
      · rcases Table.exists_of_mem_keys member with ⟨value, found⟩
        rw [Table.get?_remove, if_pos rfl] at found
        cases found
      · rw [Table.get?_remove, if_neg different]

/-! ## Tables that are kept -/

namespace FileTree

/-- The tree has the text of the constants, or nothing where there are no constants of its own. -/
def HoldsConstants (tree : FileTree) (constants : Table R) : Prop :=
  tree.get? constantsPath = some (.text (constantsText constants)) ∨
    (tree.get? constantsPath = none ∧ constants = builtInConstantTable)

/-- The constants that are kept are loaded again, all but those that are always there. -/
theorem HoldsConstants.load (holds : tree.HoldsConstants constants)
    (isTable : IsConstantTable constants)
    (rereads : forall name value, builtInConstants.contains name = false ->
      constants.get? name = some value -> RereadsFromLine value) :
    ∃ kept : Table R, tree.loadConstants = .ok kept ∧ kept.keys.Nodup ∧ forall name,
      kept.get? name = if builtInConstants.contains name then none else constants.get? name := by
  rcases holds with written | ⟨nothing, rfl⟩
  · refine ⟨readConstants (constantsText constants), ?_, distinct_readConstants _, ?_⟩
    · rw [loadConstants, entry?_part isPart_constantsPath, written]
    · exact get?_readConstants_constantsText isTable.distinct isTable.named rereads
  · refine ⟨[], ?_, List.nodup_nil, fun name => ?_⟩
    · rw [loadConstants, entry?_part isPart_constantsPath, nothing]
    · split
      · rfl
      · rename_i own
        exact (get?_builtInConstantTable (Bool.eq_false_iff.mpr own)).symm

end FileTree

/-! ## Sessions -/

namespace Session

open FileTree

/-- A session that keeps its constants: nothing is in their way, and what is kept are the constants
that are in force. -/
structure KeepsConstants (session : Session R) : Prop where
  tidy : session.Tidy
  unslashed : session.Unslashed
  settings : ∃ settled : Option (Session R), session.tree.get? settingsPath =
    settled.map fun kept => .text (settingsText kept.settings)
  table : IsConstantTable session.environment.constants
  holds : ∃ kept, IsConstantTable kept ∧ session.tree.HoldsConstants kept ∧
    forall name, session.environment.constants.get? name = kept.get? name

variable {line : Line} {before after session next : Session R} {options : SessionOptions}
  {builtIn : Registry R}

/-! ### Lines -/

theorem Change.unslashed (change : Change line before after)
    (plain : line.namesPlainCatalog = true) (unslashed : before.Unslashed) : after.Unslashed := by
  cases change with
  | @unit name _ _ _ _ _ given defined =>
      intro other member
      rcases (Registry.mem_keys_defineUnit defined).mp member with rfl | earlier
      · rw [Line.namesPlainCatalog, given] at plain
        simpa using plain
      · exact unslashed other earlier
  | relation defined =>
      exact fun other member =>
        unslashed other ((Registry.mem_keys_defineRelation defined).mp member)
  | _ => exact unslashed

theorem Settling.sameConstants (settling : Settling before after) :
    after.environment.constants = before.environment.constants := by
  cases settling with
  | kept | mode | disabled => rfl

/-- What is written elsewhere leaves the constants as they are kept. -/
theorem KeepsConstants.elsewhere (keeps : before.KeepsConstants)
    (writes : WritesTo (fun path => IsOtherPlace path ∨ path = settingsPath) before after)
    (same : after.environment.constants = before.environment.constants)
    (unslashed : after.Unslashed) (settings : ∃ settled : Option (Session R),
      after.tree.get? settingsPath =
        settled.map fun kept => .text (settingsText kept.settings)) : after.KeepsConstants where
  tidy := (writes.mono fun _ place => place.imp_left And.left).tidy keeps.tidy
  unslashed := unslashed
  settings := settings
  table := same ▸ keeps.table
  holds := by
    have untouched : after.tree.get? constantsPath = before.tree.get? constantsPath :=
      writes.touches.others _ fun place => place.elim (fun other => other.2 rfl) (by decide)
    rcases keeps.holds with ⟨kept, isTable, holds, alike⟩
    rw [same]
    refine ⟨kept, isTable, ?_, alike⟩
    rw [HoldsConstants, untouched]
    exact holds

/-- Constants that are changed are kept at once. -/
theorem KeepsConstants.withConstants (keeps : before.KeepsConstants) {constants : Table R}
    (isTable : IsConstantTable constants) : (before.withConstants constants).KeepsConstants := by
  have writes := keeps.tidy.withConstants constants
  rcases tree_keeping keeps.tidy.files fun tree => tree.saveConstants constants with ⟨_, tree⟩
  exact
    { tidy := (writes.mono fun _ => Or.inl).tidy keeps.tidy
      unslashed := keeps.unslashed
      settings := by
        rw [writes.touches.others _ not_isLinePlace_settingsPath]
        exact keeps.settings
      table := isTable
      holds := by
        refine ⟨constants, isTable, Or.inl ?_, fun _ => rfl⟩
        exact (congrArg (Table.get? constantsPath) tree).trans
          (get?_write_top _ isPart_constantsPath isPart_constantsPath.temporary (by decide)
            keeps.tidy.noConstantsDirectory (keeps.tidy.noScratch _)) }

theorem Change.keepsConstants (change : Change line before after)
    (plain : line.namesPlainCatalog = true)
    (unended : forall name, line.constant? = some name -> '\n' ∉ name.toList)
    (keeps : before.KeepsConstants) : after.KeepsConstants := by
  have unslashed := change.unslashed plain keeps.unslashed
  rcases change.writesTo unslashed keeps.tidy with ⟨constants, revises, rfl⟩ | ⟨same, writes⟩
  · exact keeps.withConstants (keeps.table.revised revises unended)
  · refine keeps.elsewhere (writes.mono fun _ => Or.inl) same unslashed ?_
    rw [writes.touches.others _ fun place => not_isLinePlace_settingsPath place.1]
    exact keeps.settings

/-- No line loses a constant. -/
theorem Passes.keepsConstants (passes : Passes line before after)
    (plain : line.namesPlainCatalog = true)
    (unended : forall name, line.constant? = some name -> '\n' ∉ name.toList)
    (keeps : before.KeepsConstants) : after.KeepsConstants := by
  refine passes.preserves (fun change => change.keepsConstants plain unended)
    (fun {before after} settling keeps => ?_) (fun {session} name keeps => ?_) keeps
  · rcases settling.writesTo keeps.tidy with ⟨writes, settings⟩
    refine keeps.elsewhere writes settling.sameConstants ?_ ⟨some after, settings⟩
    rw [Unslashed, settling.registry]
    exact keeps.unslashed
  · exact keeps.elsewhere (keeps.tidy.stays rfl rfl rfl rfl) rfl keeps.unslashed keeps.settings

/-! ### Restarts -/

theorem unslashed_withBuiltIns (built : Registry.empty.withBuiltIns options.places = .ok builtIn)
    {name : String} (member : name ∈ builtIn.catalogs.keys) : '/' ∉ name.toList := by
  have each : forall name, name ∈ builtInCatalogs.map Prod.fst -> '/' ∉ name.toList := by
    decide
  rcases Registry.keepable_withBuiltIns built with ⟨_, _, _, keys⟩
  exact each name ((keys name).mp member)

/-- A session that has just started on nothing keeps its constants. -/
theorem keepsConstants_of_start (started : Session.start options (some []) = .ok session) :
    session.KeepsConstants := by
  rcases fresh_of_start started with ⟨builtIn, fresh⟩
  rcases filed_of_start started with ⟨_, filed⟩
  rcases nothing_of_start started with ⟨_, tree⟩
  have registry : session.environment.registry = builtIn := fresh.registry
  have constants : session.environment.constants = builtInConstantTable := by
    rcases constantTable_of_start started with ⟨kept, loaded, same⟩
    cases loaded
    exact same
  exact
    { tidy := filed.tidy
      unslashed := by
        rw [Unslashed, registry]
        exact fun name => unslashed_withBuiltIns fresh.built
      settings := ⟨none, filed.settings⟩
      table := constants ▸ isConstantTable_builtIn
      holds := by
        refine ⟨_, isConstantTable_builtIn, Or.inr ⟨?_, rfl⟩, fun name => by rw [constants]⟩
        rw [tree]
        rfl }

/-- The constants of a session that is started again are those that it had before. -/
theorem KeepsConstants.constants_of_start (keeps : session.KeepsConstants)
    (again : Session.start options session.files = .ok next)
    (rereads : forall name value, builtInConstants.contains name = false ->
      session.environment.constants.get? name = some value -> RereadsFromLine value) :
    next.environment.constants.keys.Nodup ∧ forall name,
      next.environment.constants.get? name = session.environment.constants.get? name := by
  rcases keeps.holds with ⟨kept, isTable, holds, alike⟩
  rcases holds.load isTable fun name value own found =>
    rereads name value own ((alike name).trans found) with ⟨loaded, read, distinct, values⟩
  rcases constantTable_of_start again with ⟨reloaded, reread, constants⟩
  cases read.symm.trans reread
  rw [constants]
  refine ⟨Table.nodup_keys_update isConstantTable_builtIn.distinct _, fun name => ?_⟩
  rw [Table.get?_update _ distinct, values]
  split
  · rename_i builtIn
    exact (keeps.table.always name builtIn).symm
  · rename_i own
    rw [get?_builtInConstantTable (Bool.eq_false_iff.mpr own), Option.or_none]
    exact (alike name).symm

/-- A catalog that is loaded at a start has no slash in its name. -/
theorem Tidy.unslashed_of_start (tidy : session.Tidy)
    (again : Session.start options session.files = .ok next)
    (built : Registry.empty.withBuiltIns options.places = .ok builtIn) : next.Unslashed := by
  intro name member
  rcases tidy.catalogs_of_start again built member with always | ⟨part, _⟩
  · exact unslashed_withBuiltIns built always
  · intro slash
    refine part.whole ?_
    rw [catalogPath, String.toList_append]
    exact List.mem_append_left _ slash

/-- A session that is started again has the constants it had before, and goes on keeping them. -/
theorem KeepsConstants.restart (keeps : session.KeepsConstants)
    (built : Registry.empty.withBuiltIns options.places = .ok builtIn)
    (rereads : forall name value, builtInConstants.contains name = false ->
      session.environment.constants.get? name = some value -> RereadsFromLine value) :
    ∃ next : Session R, Session.start options session.files = .ok next ∧ next.KeepsConstants ∧
      forall name,
        next.environment.constants.get? name = session.environment.constants.get? name := by
  rcases keeps.settings with ⟨settled, settings⟩
  rcases keeps.tidy.exists_start built settings with ⟨next, again⟩
  rcases keeps.tidy.restarted again with ⟨tidy, tree⟩
  rcases keeps.holds with ⟨kept, isTable, holds, alike⟩
  rcases keeps.constants_of_start again rereads with ⟨distinct, same⟩
  refine ⟨next, again, ?_, same⟩
  exact
    { tidy
      unslashed := keeps.tidy.unslashed_of_start again built
      settings := ⟨settled, tree ▸ settings⟩
      table := keeps.table.of_alike distinct same
      holds := ⟨kept, isTable, tree ▸ holds, fun name => (same name).trans (alike name)⟩ }

/-! ### Runs with restarts -/

/-- What a program that keeps its state is given. -/
inductive Entry where
  | line (input : String)
  | restart

/-- No unit is defined in a catalog whose name has a slash. -/
def Entry.isPlain : Entry -> Bool
  | .line input => (Line.ofText (Text.trim input.toList)).namesPlainCatalog
  | .restart => true

/-- The session after some entries, unless a restart fails. -/
def afterEntries (options : SessionOptions) (session : Session R) :
    List Entry -> Except LoadFault (Session R)
  | [] => .ok session
  | .line input :: rest => afterEntries options (session.execute input).2 rest
  | .restart :: rest => do
      let next ← Session.start options session.files
      afterEntries options next rest

/-- Constants are kept throughout, by induction on the entries.  At every restart, what was reached
before it has to be read back. -/
theorem KeepsConstants.afterEntries (keeps : session.KeepsConstants)
    (built : Registry.empty.withBuiltIns options.places = .ok builtIn) {entries : List Entry}
    (plain : forall entry, entry ∈ entries -> entry.isPlain = true)
    (rereads : forall shorter, shorter <+: entries ->
      forall reached, session.afterEntries options shorter = .ok reached ->
        forall name value, builtInConstants.contains name = false ->
          reached.environment.constants.get? name = some value -> RereadsFromLine value) :
    ∃ reached, session.afterEntries options entries = .ok reached ∧ reached.KeepsConstants := by
  induction entries generalizing session with
  | nil => exact ⟨session, rfl, keeps⟩
  | cons entry rest inductionHypothesis =>
      have others : forall entry, entry ∈ rest -> entry.isPlain = true :=
        fun other member => plain other (List.mem_cons_of_mem _ member)
      cases entry with
      | line input =>
          refine inductionHypothesis ?_ others fun shorter start =>
            rereads (.line input :: shorter) (List.cons_prefix_cons.mpr ⟨rfl, start⟩)
          have plainLine := plain (.line input) List.mem_cons_self
          rw [Entry.isPlain] at plainLine
          exact (passes_execute session input).keepsConstants plainLine
            (fun _ => unended_of_ofText) keeps
      | restart =>
          rcases keeps.restart built (rereads [] List.nil_prefix session rfl) with
            ⟨next, again, keepsNext, _⟩
          have run : forall entries, session.afterEntries options (.restart :: entries) =
              next.afterEntries options entries := fun _ => bind_eq_of_ok again
          rw [run]
          refine inductionHypothesis keepsNext others fun shorter start reached => ?_
          rw [← run]
          exact rereads (.restart :: shorter) (List.cons_prefix_cons.mpr ⟨rfl, start⟩) reached

end Session

end

namespace Session

/--
Constants survive restarts.  However often a session that keeps its state is started again, and
whatever lines it is given in between, it always starts again and then has the same constants,
and those that are always there keep their values.  Infinite values and the undefined one are
among them.  Finite values are, as far as their shortest texts are read as the values; and no
line may define a unit in a catalog whose name has a slash.
-/
theorem constants_survive_restarts {options : SessionOptions} {first : Session Float}
    (started : Session.start options (some []) = .ok first) {entries : List Entry}
    (plain : forall entry, entry ∈ entries -> entry.isPlain = true)
    (inverse : forall shorter, shorter <+: entries ->
      forall session, first.afterEntries options shorter = .ok session ->
        forall name value, session.environment.constants.get? name = some value ->
          Number.isFinite value = true -> Number.read? (Scalar.shortest value) = some value) :
    ∃ session next : Session Float, first.afterEntries options entries = .ok session ∧
      Session.start options session.files = .ok next ∧
      (forall name,
        next.environment.constants.get? name = session.environment.constants.get? name) ∧
      forall name, name ∈ builtInConstants ->
        session.environment.constants.get? name = Table.get? name builtInConstantTable := by
  rcases fresh_of_start started with ⟨builtIn, fresh⟩
  have rereads : forall shorter, shorter <+: entries ->
      forall session, first.afterEntries options shorter = .ok session ->
        forall name value, builtInConstants.contains name = false ->
          session.environment.constants.get? name = some value -> RereadsFromLine value :=
    fun shorter start session reached name value _ found =>
      rereadsFromLine_of_read (inverse shorter start session reached name value found)
  rcases (keepsConstants_of_start started).afterEntries fresh.built plain rereads with
    ⟨session, reached, keeps⟩
  rcases keeps.restart fresh.built (rereads entries (List.prefix_refl _) session reached) with
    ⟨next, again, _, same⟩
  exact ⟨session, next, reached, again, same,
    fun name builtIn => keeps.table.always name (List.contains_iff_mem.mpr builtIn)⟩

/-- Five lines with a restart in between: they set a negative zero, a third, an infinite value and
the undefined one, and take the third away again. -/
def constantEntries : List Entry :=
  [.line "set z -0", .line "set k 1/3", .restart, .line "set i -1e999",
    .line "set n 1e999-1e999", .line "unset k"]

/-- Negative zero, minus infinity and the undefined value are there after another restart. -/
theorem constants_survive_restarts_undefined :
    ∃ first session next : Session Float, Session.start ⟨none, 15, true⟩ (some []) = .ok first ∧
      first.afterEntries ⟨none, 15, true⟩ constantEntries = .ok session ∧
      Session.start ⟨none, 15, true⟩ session.files = .ok next ∧
      next.environment.constants.get? "z" = some (Number.signedZero true) ∧
      next.environment.constants.get? "i" = some (Number.infinite true) ∧
      next.environment.constants.get? "n" = some Number.undefined ∧
      next.environment.constants.get? "k" = none := by
  have facts : ((start ⟨none, 15, true⟩ (some []) : Except LoadFault (Session Float)).toOption.any
      fun first =>
        (constantEntries.inits.all fun shorter =>
          (first.afterEntries ⟨none, 15, true⟩ shorter).toOption.all fun session =>
            session.environment.constants.all fun entry =>
              Number.read? (Scalar.shortest entry.2) = some entry.2) &&
        (first.afterEntries ⟨none, 15, true⟩ constantEntries).toOption.any fun session =>
          decide (session.environment.constants.get? "z" = some (Number.signedZero true) ∧
            session.environment.constants.get? "i" = some (Number.infinite true) ∧
            session.environment.constants.get? "n" = some Number.undefined ∧
            session.environment.constants.get? "k" = none)) = true := by
    decide +kernel
  rcases (Option.any_eq_true _ _).mp facts with ⟨first, known, both⟩
  rcases Bool.and_eq_true_iff.mp both with ⟨inverse, values⟩
  rcases (Option.any_eq_true _ _).mp values with ⟨session, reached, found⟩
  rcases of_decide_eq_true found with ⟨zero, infinity, undefined, gone⟩
  have started := eq_ok_of_toOption known
  have plain : forall entry, entry ∈ constantEntries -> entry.isPlain = true := by
    decide +kernel
  have reads : forall shorter, shorter <+: constantEntries ->
      forall session, first.afterEntries ⟨none, 15, true⟩ shorter = .ok session ->
        forall name value, session.environment.constants.get? name = some value ->
          Number.isFinite value = true ->
            Number.read? (Scalar.shortest value) = some value := by
    intro shorter start session reached name value found _
    have each := List.all_eq_true.mp inverse shorter ((List.mem_inits _ _).mpr start)
    rw [reached, Except.toOption, Option.all_some] at each
    have reread := List.all_eq_true.mp each (name, value) (Table.mem_of_get? found)
    rw [decide_eq_true_eq] at reread
    exact reread
  rcases constants_survive_restarts started plain reads with
    ⟨other, next, again, restarted, same, _⟩
  cases (eq_ok_of_toOption reached).symm.trans again
  exact ⟨first, session, next, started, again, restarted, (same "z").trans zero,
    (same "i").trans infinity, (same "n").trans undefined, (same "k").trans gone⟩

/-- A catalog named with a slash makes a directory where constants are written for the time being.
No constant is kept any more, and the next session has none of them. -/
theorem constants_lost_by_restart :
    ∃ first next : Session Float, Session.start ⟨none, 15, true⟩ (some []) = .ok first ∧
      let session := first.afterLines ["unit constants.vars.tmp/x a", "set k 1"]
      Session.start ⟨none, 15, true⟩ session.files = .ok next ∧
        session.environment.constants.has "k" = true ∧
        next.environment.constants.has "k" = false := by
  have facts : ((start ⟨none, 15, true⟩ (some []) : Except LoadFault (Session Float)).toOption.any
      fun first =>
        let session := first.afterLines ["unit constants.vars.tmp/x a", "set k 1"]
        (start ⟨none, 15, true⟩ session.files : Except LoadFault (Session Float)).toOption.any
          fun next => session.environment.constants.has "k" &&
            !next.environment.constants.has "k") = true := by
    decide +kernel
  rcases (Option.any_eq_true _ _).mp facts with ⟨first, known, lost⟩
  rcases (Option.any_eq_true _ _).mp lost with ⟨next, again, both⟩
  rw [Bool.and_eq_true, Bool.not_eq_true'] at both
  exact ⟨first, next, eq_ok_of_toOption known, eq_ok_of_toOption again, both⟩

end Session
end QuantityCalculus
