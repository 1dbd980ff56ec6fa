import QuantityCalculus.Proofs.Storage.Loading
import QuantityCalculus.Proofs.Units.Documented

namespace QuantityCalculus

/-!
# Registries that can be kept

A registry can be kept when all its declarations are noted, its catalogs and units have
names that a tree takes, its display names are single lines and its declarations were read
from lines.  The catalogs that are there from the start can be kept, and so can what
definitions and declarations make of a registry that can be kept.

What is kept can be read again if, besides, no display name starts a comment and every
factor reads as it is written.
-/

variable {R : Type} [Scalar R]

theorem FileTree.IsUnitSymbol.isPhrase {symbol : String} (isSymbol : FileTree.IsUnitSymbol symbol) :
    Text.IsPhrase symbol.toList := by
  have plain := isSymbol.plain
  rw [Text.isPlainName, Bool.and_eq_true, bne_iff_ne] at plain
  refine Text.IsWord.isPhrase ⟨mt String.toList_eq_nil_iff.mp plain.1, fun c inside => ?_⟩
  exact Text.isBlank_of_isWordCharacter (List.all_eq_true.mp plain.2 c inside)

namespace Registry

/-- Everything in a registry can be kept. -/
structure Keepable (places : Nat) (registry : Registry R) (notes : List (Note R)) : Prop where
  documented : registry.Documented notes
  storable : registry.Storable
  names : forall {name symbol unit}, registry.heldUnit? name symbol = some unit ->
    (registry.nameOf unit).toList.head? ≠ some '#' -> IsContentLine (registry.nameOf unit)
  parsed : forall note, note ∈ notes ->
    ∃ line, RelationDeclaration.parse places line = .ok note.resolved.declaration

section

variable {places : Nat} {registry changed : Registry R} {notes : List (Note R)}

/-- What is kept can be read again, up to comments and the spelling of factors. -/
theorem Keepable.legible (keepable : registry.Keepable places notes)
    (noComment : forall name symbol unit, registry.heldUnit? name symbol = some unit ->
      (registry.nameOf unit).toList.head? ≠ some '#')
    (factors : forall note, note ∈ notes -> forall value,
      note.resolved.declaration.operand = .factor value -> ReadableFactor value) :
    registry.Legible where
  name := fun inForce held =>
    keepable.names (held_of_get? inForce held) (noComment _ _ _ (held_of_get? inForce held))
  declaration := by
    intro place catalog declaration inForce member
    have declared := keepable.documented.declarations place
    rw [declarationsIn, inForce] at declared
    rw [show catalog.declarations = _ from declared] at member
    rcases List.mem_map.mp member with ⟨note, inside, rfl⟩
    have noted := (List.mem_filter.mp inside).1
    rcases keepable.parsed note noted with ⟨line, parsed⟩
    exact readable_of_parse parsed (factors note noted)

/-! ## Definitions and declarations -/

/-- A new unit can be kept under a plain name, with a display name that is a phrase. -/
theorem Keepable.defineUnit (keepable : registry.Keepable places notes)
    {catalog symbol name : String} {unit : UnitOfMeasure} (isName : FileTree.IsCatalogName catalog)
    (isSymbol : FileTree.IsUnitSymbol symbol) (isPhrase : name ≠ "" -> Text.IsPhrase name.toList)
    (defined : registry.defineUnit catalog symbol name = .ok (unit, changed)) :
    changed.Keepable places notes := by
  have defines := definesUnit keepable.documented.sound defined
  have known : forall {other otherSymbol there},
      registry.heldUnit? other otherSymbol = some there -> there ∈ registry.units := fun held =>
    keepable.documented.sound.known_of_heldUnit? held
  exact
    { documented := keepable.documented.defineUnit defined
      storable := by
        refine ⟨fun {other found} inForce => ?_, fun {other found otherSymbol there} inForce held =>
          ?_, defines.distinct keepable.storable.distinct⟩
        · by_cases same : other = catalog
          · exact same ▸ isName
          · exact keepable.storable.name ((defines.others other same).symm.trans inForce)
        · have held := held_of_get? inForce held
          rw [defines.held] at held
          split at held
          · rename_i same
            exact same.2 ▸ isSymbol
          · rcases Option.bind_eq_some_iff.mp held with ⟨_, before, heldBefore⟩
            exact keepable.storable.symbol before heldBefore
      names := by
        intro other otherSymbol there held noComment
        by_cases same : there = unit
        · subst same
          rw [defines.name] at noComment ⊢
          split at noComment
          · rename_i noName
            rw [if_pos noName]
            split at noComment
            · rename_i again
              rw [if_pos again]
              exact keepable.names again noComment
            · rename_i new
              rw [if_neg new]
              exact isContentLine_of_isPhrase (isSymbol.isPhrase) noComment
          · rename_i someName
            rw [if_neg someName]
            exact isContentLine_of_isPhrase (isPhrase someName) noComment
        · rw [defines.held] at held
          split at held
          · exact absurd (Option.some.inj held).symm same
          · rw [defines.names there (known held) same] at noComment ⊢
            exact keepable.names held noComment
      parsed := keepable.parsed }

/-- A declaration can be kept with its note. -/
theorem Keepable.declare (keepable : registry.Keepable places notes) {name line : String}
    {note : Note R} (parsed : RelationDeclaration.parse places line = .ok note.resolved.declaration)
    (declares : registry.DeclaresRelation name note.resolved changed)
    (documented : changed.Documented (notes ++ [note])) :
    changed.Keepable places (notes ++ [note]) where
  documented := documented
  storable := by
    refine ⟨fun {other found} inForce => ?_, fun {other found symbol there} inForce held => ?_,
      declares.distinct keepable.storable.distinct⟩
    · rcases Table.exists_of_mem_keys ((declares.inForce other).mp
        (Table.mem_keys_of_get? inForce)) with ⟨_, before⟩
      exact keepable.storable.name before
    · have held := held_of_get? inForce held
      rw [declares.held] at held
      rcases Option.bind_eq_some_iff.mp held with ⟨_, before, heldBefore⟩
      exact keepable.storable.symbol before heldBefore
  names := by
    intro other symbol there held
    rw [declares.names]
    exact keepable.names ((declares.held other symbol).symm.trans held)
  parsed := by
    intro other member
    rcases List.mem_append.mp member with before | new
    · exact keepable.parsed other before
    · rw [List.mem_singleton.mp new]
      exact ⟨line, parsed⟩

end

end Registry

/-! ## Catalogs that are installed -/

/-- What a unit file is read from: a line for the name, and a line for each declaration. -/
theorem of_parse_unitFile {places : Nat} {text : String} {file : UnitFile R}
    (parsed : UnitFile.parse places text = .ok file) :
    (contentLines text).head? = some file.name ∧
      forall declaration, declaration ∈ file.declarations ->
        ∃ line, RelationDeclaration.parse places line = .ok declaration := by
  rw [UnitFile.parse] at parsed
  split at parsed
  · cases parsed
  · rename_i name lines content
    rcases bind_eq_ok.mp parsed with ⟨sides, read, parsed⟩
    rcases bind_eq_ok.mp parsed with ⟨declarations, declared, parsed⟩
    cases parsed
    refine ⟨by rw [content]; rfl, fun declaration member => ?_⟩
    rcases of_mem_mapM declared member with ⟨⟨lhs, rhs⟩, inSides, made⟩
    rcases of_mem_mapM read inSides with ⟨line, _, sided⟩
    exact ⟨line, (bind_eq_of_ok sided).trans made⟩

/-- A unit file that can be kept under a symbol and has a display name that is a line. -/
@[mk_iff]
structure IsUnitFile (file : String × String) : Prop where
  symbol : FileTree.IsUnitSymbol file.1
  name : forall name, name ∈ (contentLines file.2).head? -> IsContentLine name

instance (file : String × String) : Decidable (IsUnitFile file) :=
  decidable_of_iff' _ (isUnitFile_iff file)

namespace UnitBatch

open Registry

/-- The batch has its units and declarations from unit files. -/
structure ReadFrom (places : Nat) (files : List (String × String)) (batch : UnitBatch R) :
    Prop where
  isOpen : batch.finished = false
  distinct : batch.units.keys.Nodup
  units : forall entry, entry ∈ batch.units ->
    ∃ file, file ∈ files ∧ file.1 = entry.1 ∧ (contentLines file.2).head? = some entry.2
  declarations : forall declaration, declaration ∈ batch.declarations ->
    ∃ line, RelationDeclaration.parse places line = .ok declaration

section

variable {places : Nat} {files : List (String × String)} {batch changed : UnitBatch R}
  {registry made : Registry R} {notes : List (Note R)}

theorem readFrom_start (name : String) : (start name true : UnitBatch R).ReadFrom places files :=
  ⟨rfl, List.nodup_nil, nofun, nofun⟩

theorem ReadFrom.addFile (readFrom : batch.ReadFrom places files) {file : String × String}
    (member : file ∈ files) (added : batch.addFile places file.2 file.1 = .ok changed) :
    changed.ReadFrom places files ∧ changed.catalog = batch.catalog := by
  rcases of_addFile added with ⟨read, parsed, _, rfl⟩
  rcases of_parse_unitFile parsed with ⟨name, lines⟩
  have someName : read.name ≠ "" := by
    have inside := (List.mem_filter.mp (List.mem_of_head? name)).2
    intro none
    rw [none] at inside
    cases inside
  refine ⟨⟨readFrom.isOpen, Table.nodup_keys_set readFrom.distinct _ _, fun entry inside => ?_,
    fun declaration inside => ?_⟩, rfl⟩
  · rw [if_neg someName] at inside
    rcases Table.mem_set inside with before | rfl
    · exact readFrom.units entry before
    · exact ⟨file, member, rfl, name⟩
  · rcases List.mem_append.mp inside with before | new
    · exact readFrom.declarations declaration before
    · exact lines declaration new

theorem ReadFrom.addFiles (readFrom : batch.ReadFrom places files)
    {rest : List (String × String)} (among : rest ⊆ files)
    (added : addFiles places rest batch = .ok changed) :
    changed.ReadFrom places files ∧ changed.catalog = batch.catalog := by
  induction rest generalizing batch with
  | nil =>
      cases added
      exact ⟨readFrom, rfl⟩
  | cons file rest inductionHypothesis =>
      rcases bind_eq_ok.mp added with ⟨middle, one, added⟩
      rcases readFrom.addFile (among List.mem_cons_self) one with ⟨further, same⟩
      rcases inductionHypothesis further (List.subset_of_cons_subset among) added with
        ⟨atEnd, sameAtEnd⟩
      exact ⟨atEnd, sameAtEnd.trans same⟩

/-- The notes of a batch that is finished in a registry. -/
def notesIn (batch : UnitBatch R) (registry : Registry R) : Except Failure (List (Note R)) := do
  let resolved ← batch.declarations.mapM
    (resolveDeclaration (batch.unitFor (createUnits batch.catalog batch.units registry).1 registry))
  .ok (resolved.map (Note.mk batch.catalog))

/-- A catalog whose unit files can be kept is installed with its notes. -/
theorem keepable_install (keepable : registry.Keepable places notes)
    (collected : batch.Collected places) (readFrom : batch.ReadFrom places files)
    (isName : FileTree.IsCatalogName batch.catalog)
    (isFile : forall file, file ∈ files -> IsUnitFile file)
    (new : batch.catalog ∉ registry.catalogs.keys) (installed : batch.install registry = .ok made) :
    ∃ more, batch.notesIn registry = .ok more ∧ made.Keepable places (notes ++ more) ∧
      forall name, name ∈ made.catalogs.keys <->
        name = batch.catalog ∨ name ∈ registry.catalogs.keys := by
  rcases documented_install keepable.documented collected readFrom.distinct new readFrom.isOpen
    installed with ⟨resolved, named, installs, documented⟩
  have sound := keepable.documented.sound
  have fromFile : forall {symbol name}, batch.units.get? symbol = some name ->
      FileTree.IsUnitSymbol symbol ∧ IsContentLine name := by
    intro symbol name found
    rcases readFrom.units _ (Table.mem_of_get? found) with ⟨file, inside, rfl, shown⟩
    exact ⟨(isFile file inside).symbol, (isFile file inside).name name shown⟩
  refine ⟨_, bind_eq_of_ok named, ?_, installs.keys⟩
  exact
    { documented := documented
      storable := by
        refine ⟨fun {other found} inForce => ?_, fun {other found symbol there} inForce held => ?_,
          fun {other found} inForce => ?_⟩
        · by_cases same : other = batch.catalog
          · exact same ▸ isName
          · exact keepable.storable.name ((installs.others other same).symm.trans inForce)
        · have held := held_of_get? inForce held
          rw [installs.held] at held
          split at held
          · rcases get?_createUnits sound collected.symbols held with ⟨_, _, _, name, inBatch, _⟩
            exact (fromFile inBatch).1
          · rcases Option.bind_eq_some_iff.mp held with ⟨_, before, heldBefore⟩
            exact keepable.storable.symbol before heldBefore
        · by_cases same : other = batch.catalog
          · subst same
            cases installs.catalog.symm.trans inForce
            rw [keys_createUnits]
            exact readFrom.distinct
          · exact keepable.storable.distinct ((installs.others other same).symm.trans inForce)
      names := by
        intro other symbol there held noComment
        rw [installs.names] at noComment ⊢
        rw [installs.held] at held
        split at held
        · rcases get?_createUnits sound collected.symbols held with ⟨_, _, _, name, inBatch, shown⟩
          have content := (fromFile inBatch).2
          rw [shown, if_neg content.written]
          exact content
        · have known := sound.known_of_heldUnit? held
          rw [nameOf, record?_createUnits known, ← nameOf] at noComment ⊢
          exact keepable.names held noComment
      parsed := by
        intro note member
        rcases List.mem_append.mp member with before | there
        · exact keepable.parsed note before
        · rcases List.mem_map.mp there with ⟨one, inside, rfl⟩
          rcases of_mem_mapM named inside with ⟨declaration, inBatch, found⟩
          rw [declaration_of_resolve found]
          exact readFrom.declarations declaration inBatch }

end

end UnitBatch

namespace Registry

open UnitBatch

/-- The notes of catalogs that are installed one after the other. -/
def notesOfAll (places : Nat) :
    List (String × List (String × String)) -> Registry R -> Except Failure (List (Note R))
  | [], _ => .ok []
  | (name, files) :: rest, registry => do
      let batch ← UnitBatch.addFiles places files (UnitBatch.start name true)
      let notes ← batch.notesIn registry
      let changed ← batch.install registry
      let more ← notesOfAll places rest changed
      .ok (notes ++ more)

/-- The notes of the catalogs that are there from the start. -/
def builtInNotes (places : Nat) : Except Failure (List (Note R)) :=
  notesOfAll places builtInCatalogs .empty

section

variable {places : Nat} {registry changed : Registry R} {notes : List (Note R)}

/-- Catalogs that are installed one after the other are installed with their notes. -/
theorem keepable_installAll {catalogs : List (String × List (String × String))}
    (keepable : registry.Keepable places notes)
    (isName : forall entry, entry ∈ catalogs -> FileTree.IsCatalogName entry.1)
    (isFile : forall entry, entry ∈ catalogs -> forall file, file ∈ entry.2 -> IsUnitFile file)
    (distinct : (catalogs.map Prod.fst).Nodup)
    (new : forall name, name ∈ catalogs.map Prod.fst -> name ∉ registry.catalogs.keys)
    (installed : registry.installAll places catalogs = .ok changed) :
    ∃ more, notesOfAll places catalogs registry = .ok more ∧
      changed.Keepable places (notes ++ more) ∧
      forall name, name ∈ changed.catalogs.keys <->
        name ∈ catalogs.map Prod.fst ∨ name ∈ registry.catalogs.keys := by
  induction catalogs generalizing registry notes with
  | nil =>
      cases installed
      refine ⟨[], rfl, ?_, fun name => (or_iff_right List.not_mem_nil).symm⟩
      rw [List.append_nil]
      exact keepable
  | cons first rest inductionHypothesis =>
      rcases first with ⟨name, files⟩
      rcases List.nodup_cons.mp distinct with ⟨notLater, restDistinct⟩
      rcases bind_eq_ok.mp installed with ⟨batch, added, installed⟩
      rcases bind_eq_ok.mp installed with ⟨middle, one, installed⟩
      rcases (readFrom_start name).addFiles (List.Subset.refl files) added with ⟨readFrom, same⟩
      have isCatalog : batch.catalog = name := same
      rcases keepable_install keepable ((Collected.start name true).addFiles added) readFrom
        (isCatalog.symm ▸ isName _ List.mem_cons_self) (isFile _ List.mem_cons_self)
        (isCatalog.symm ▸ new name List.mem_cons_self) one with ⟨more, noted, middleKept, keys⟩
      rcases inductionHypothesis middleKept
        (fun entry later => isName entry (List.mem_cons_of_mem _ later))
        (fun entry later => isFile entry (List.mem_cons_of_mem _ later)) restDistinct
        (fun other later there => by
          rcases (keys other).mp there with here | before
          · exact notLater (isCatalog ▸ here ▸ later)
          · exact new other (List.mem_cons_of_mem _ later) before) installed with
        ⟨others, notedOthers, kept, allKeys⟩
      refine ⟨more ++ others, ?_, ?_, fun other => ?_⟩
      · refine (bind_eq_of_ok added).trans ((bind_eq_of_ok noted).trans ?_)
        exact (bind_eq_of_ok one).trans (bind_eq_of_ok notedOthers)
      · rw [← List.append_assoc]
        exact kept
      · rw [allKeys, keys, List.map_cons, List.mem_cons, isCatalog]
        tauto

/-- The catalogs that are there from the start can be kept. -/
theorem keepable_withBuiltIns
    (installed : (empty : Registry R).withBuiltIns places = .ok registry) :
    ∃ notes, builtInNotes places = .ok notes ∧ registry.Keepable places notes ∧
      forall name, name ∈ registry.catalogs.keys <-> name ∈ builtInCatalogs.map Prod.fst := by
  have emptyKeepable : (empty : Registry R).Keepable places [] :=
    ⟨empty_documented, ⟨nofun, nofun, nofun⟩, nofun, nofun⟩
  have names : forall entry, entry ∈ builtInCatalogs -> FileTree.IsCatalogName entry.1 := by
    decide +kernel
  have files : forall entry, entry ∈ builtInCatalogs -> forall file, file ∈ entry.2 ->
      IsUnitFile file := by decide +kernel
  rcases keepable_installAll emptyKeepable names files
    (by decide) (fun _ _ => List.not_mem_nil) installed with ⟨notes, noted, keepable, keys⟩
  refine ⟨notes, noted, keepable, fun name => ?_⟩
  rw [keys]
  exact or_iff_left List.not_mem_nil

end

end Registry
end QuantityCalculus
