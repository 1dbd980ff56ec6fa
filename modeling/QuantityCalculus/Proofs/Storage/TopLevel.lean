import QuantityCalculus.Proofs.Storage.Saving

namespace QuantityCalculus

/-!
# The top of a file tree

Settings, constants and functions are kept in texts at the top of a tree, beside the
directories of catalogs.  Every change of a tree touches a few paths and leaves all others
as they are, and directories are made for catalogs only.  So what is kept of one kind is
not disturbed by changes of another kind, whatever the symbols of units are.

A catalog whose name has a slash in it lies deeper, and the directories around it may stand
in the place of a text.
-/

namespace Text

theorem not_mem_of_mem_piecesAfter {separator : Char} {unfinished text piece : List Char}
    (clean : separator ∉ unfinished) (member : piece ∈ piecesAfter separator unfinished text) :
    separator ∉ piece := by
  induction text generalizing unfinished with
  | nil =>
      rw [List.mem_singleton.mp member]
      exact mt List.mem_reverse.mp clean
  | cons c rest inductionHypothesis =>
      rw [piecesAfter] at member
      split at member
      · rcases List.mem_cons.mp member with rfl | later
        · exact mt List.mem_reverse.mp clean
        · exact inductionHypothesis List.not_mem_nil later
      · rename_i different
        refine inductionHypothesis (mt List.mem_cons.mp ?_) member
        exact not_or.mpr ⟨fun same => different same.symm, clean⟩

/-- The last piece of a text ends as the text does, if no separator is in that ending. -/
theorem exists_piecesAfter_append {separator : Char} (unfinished text : List Char)
    {ending : List Char} (whole : separator ∉ ending) :
    ∃ front last, piecesAfter separator unfinished (text ++ ending) =
      front ++ [last ++ ending] := by
  induction text generalizing unfinished with
  | nil => exact ⟨[], unfinished.reverse, piecesAfter_of_not_mem unfinished whole⟩
  | cons c rest inductionHypothesis =>
      rw [List.cons_append, piecesAfter]
      split
      · rcases inductionHypothesis [] with ⟨front, last, same⟩
        exact ⟨unfinished.reverse :: front, last, by rw [same, List.cons_append]⟩
      · exact inductionHypothesis (c :: unfinished)

end Text

namespace FileTree

/-! ## Plain paths -/

/-- A name with an ending is a part of a path, if neither has a slash. -/
theorem isPart_append {name ending : String} (whole : '/' ∉ name.toList)
    (noSlash : '/' ∉ ending.toList) (long : 2 <= ending.length) : IsPart (name ++ ending) := by
  have longer : 2 <= (name ++ ending).length := by
    rw [String.length_append]
    exact Nat.le_trans long (Nat.le_add_left _ _)
  refine ⟨fun none => ?_, fun point => ?_, ?_⟩
  · rw [none] at longer
    exact absurd longer (by decide)
  · rw [point] at longer
    exact absurd longer (by decide)
  · rw [String.toList_append]
    exact fun slash => (List.mem_append.mp slash).elim whole noSlash

theorem isPart_of_mem_pathParts {path part : String} (member : part ∈ pathParts path) :
    IsPart part := by
  rcases List.mem_filter.mp member with ⟨cut, leads⟩
  rw [Bool.and_eq_true, bne_iff_ne, bne_iff_ne] at leads
  rcases List.mem_map.mp cut with ⟨piece, inside, rfl⟩
  refine ⟨leads.1, leads.2, ?_⟩
  rw [String.toList_ofList]
  exact Text.not_mem_of_mem_piecesAfter List.not_mem_nil inside

/-- Parts that are put together are found again. -/
theorem pathParts_intercalate {parts : List String}
    (each : forall part, part ∈ parts -> IsPart part) :
    pathParts (String.intercalate "/" parts) = parts := by
  induction parts with
  | nil => decide
  | cons first rest inductionHypothesis =>
      have isPart := each first List.mem_cons_self
      have further := inductionHypothesis fun part member =>
        each part (List.mem_cons_of_mem _ member)
      cases rest with
      | nil => rw [String.intercalate_singleton, isPart.pathParts]
      | cons second rest =>
          rw [String.intercalate_cons_cons, pathParts_append, isPart.pathParts, further]
          rfl

theorem pathParts_plainPath (path : String) : pathParts (plainPath path) = pathParts path :=
  pathParts_intercalate fun _ => isPart_of_mem_pathParts

/-- A path that is written without parts that lead nowhere. -/
def IsPlainPath (path : String) : Prop := plainPath path = path

theorem isPlainPath_plainPath (path : String) : IsPlainPath (plainPath path) := by
  rw [IsPlainPath, plainPath, pathParts_plainPath, plainPath]

theorem IsPart.isPlainPath {name : String} (part : IsPart name) : IsPlainPath name :=
  plainPath_part part

/-- A path that lies inside a directory of the tree. -/
def IsInner (path : String) : Prop := IsPlainPath path ∧ 2 <= (pathParts path).length

theorem IsPart.not_isInner {name : String} (part : IsPart name) : ¬ IsInner name := by
  rintro ⟨_, deep⟩
  rw [part.pathParts] at deep
  exact Nat.not_succ_le_self 1 deep

/-- A name with a longer ending leads somewhere, whatever stands before the ending. -/
theorem pathParts_append_ne_nil (name : String) {ending : String} (noSlash : '/' ∉ ending.toList)
    (long : 2 <= ending.length) : pathParts (name ++ ending) ≠ [] := by
  rcases Text.exists_piecesAfter_append [] name.toList noSlash with ⟨front, last, pieces⟩
  have kept : String.ofList (last ++ ending.toList) ∈ pathParts (name ++ ending) := by
    refine List.mem_filter.mpr ⟨List.mem_map.mpr ⟨_, ?_, rfl⟩, ?_⟩
    · rw [Text.pieces, String.toList_append, pieces]
      exact List.mem_append_right _ (List.mem_singleton_self _)
    · have longer : 2 <= (String.ofList (last ++ ending.toList)).length := by
        rw [String.length_ofList, List.length_append, String.length_toList]
        exact Nat.le_trans long (Nat.le_add_left _ _)
      rw [Bool.and_eq_true, bne_iff_ne, bne_iff_ne]
      refine ⟨fun none => ?_, fun point => ?_⟩
      · rw [none] at longer
        exact absurd longer (by decide)
      · rw [point] at longer
        exact absurd longer (by decide)
  exact List.ne_nil_of_mem kept

/-- Whatever its symbol, a unit lies inside the directory of its catalog. -/
theorem isInner_unit {directory : String} (part : IsPart directory) (symbol : String)
    {ending : String} (noSlash : '/' ∉ ending.toList) (long : 2 <= ending.length) :
    IsInner (plainPath (childPath directory (symbol ++ ending))) := by
  refine ⟨isPlainPath_plainPath _, ?_⟩
  rw [pathParts_plainPath, childPath_of_part part, pathParts_append, part.pathParts,
    List.length_append]
  exact Nat.add_le_add (Nat.le_refl 1)
    (List.length_pos_of_ne_nil (pathParts_append_ne_nil symbol noSlash long))

/-! ## What a change touches -/

/-- A change leaves all paths but some as they are, and makes no directories but some. -/
structure Touches (paths directories : String -> Prop) (before after : FileTree) : Prop where
  others : forall path, ¬ paths path -> after.get? path = before.get? path
  made : forall path, after.get? path = some .directory ->
    before.get? path = some .directory ∨ directories path

section

variable {paths directories : String -> Prop} {tree first second third : FileTree}

theorem Touches.refl (tree : FileTree) : Touches paths directories tree tree :=
  ⟨fun _ _ => rfl, fun _ => Or.inl⟩

theorem Touches.trans (one : Touches paths directories first second)
    (two : Touches paths directories second third) : Touches paths directories first third where
  others := fun path untouched => (two.others path untouched).trans (one.others path untouched)
  made := fun path found => (two.made path found).elim (one.made path) Or.inr

theorem Touches.mono {more further : String -> Prop}
    (touches : Touches paths directories first second)
    (widens : forall path, paths path -> more path)
    (allows : forall path, directories path -> further path) :
    Touches more further first second where
  others := fun path untouched => touches.others path (mt (widens path) untouched)
  made := fun path found => (touches.made path found).imp_right (allows path)

theorem touches_set (tree : FileTree) (path : String) (content : String) :
    Touches (· = path) (fun _ => False) tree (tree.set path (.text content)) where
  others := fun other untouched => by
    rw [Table.get?_set, if_neg (Ne.symm untouched)]
  made := fun other found => by
    rw [Table.get?_set] at found
    split at found
    · cases found
    · exact Or.inl found

theorem touches_remove (tree : FileTree) (path : String) :
    Touches (· = path) (fun _ => False) tree (tree.remove path) where
  others := fun other untouched => by
    rw [Table.get?_remove, if_neg (Ne.symm untouched)]
  made := fun other found => by
    rw [Table.get?_remove] at found
    split at found
    · cases found
    · exact Or.inl found

theorem touches_moveText (tree : FileTree) (source target content : String) :
    Touches (fun path => path = plainPath source ∨ path = plainPath target) (fun _ => False) tree
      (tree.moveText source target content).1 := by
  rw [moveText]
  split
  · exact .refl tree
  · exact ((touches_remove tree _).mono (fun _ => Or.inl) fun _ => id).trans
      ((touches_set _ _ content).mono (fun _ => Or.inr) fun _ => id)

/-- Writing touches the path and its temporary path. -/
theorem touches_write (tree : FileTree) (path content : String) :
    Touches (fun other => other = plainPath (temporaryPath path) ∨ other = plainPath path)
      (fun _ => False) tree (tree.write path content).1 := by
  rw [write, place]
  split
  · rename_i placed run
    split at run
    · cases run
      exact ((touches_set tree _ content).mono (fun _ => Or.inl) fun _ => id).trans
        (touches_moveText _ _ _ content)
    · cases run
  · rename_i left run
    split at run
    · cases run
    · cases run
      exact .refl tree

theorem touches_removeText (tree : FileTree) (path : String) :
    Touches (· = plainPath path) (fun _ => False) tree (tree.removeText path).1 := by
  rw [removeText]
  split
  · exact touches_remove tree _
  · exact .refl tree

/-- Moving what is no directory touches the two paths. -/
theorem touches_rename {source target : String}
    (noDirectory : tree.entry? source ≠ some .directory) :
    Touches (fun path => path = plainPath source ∨ path = plainPath target) (fun _ => False) tree
      (tree.rename source target).1 := by
  rw [rename]
  split
  · exact touches_moveText tree source target _
  · rename_i there
    exact absurd there noDirectory
  · exact .refl tree

theorem touches_makeDirectory (tree : FileTree) {name : String} (part : IsPart name) :
    Touches (· = name) (· = name) tree (tree.makeDirectory name).1 := by
  have inside : name.toList.head? ≠ some '/' := fun first => part.whole (List.mem_of_head? first)
  rw [makeDirectory, if_neg inside, part.pathParts, makeDirectories]
  simp only [childPath, if_true]
  split
  · exact .refl tree
  · exact .refl tree
  · split
    · refine ⟨fun other untouched => ?_, fun other found => ?_⟩
      · rw [makeDirectories, Table.get?_set, if_neg (Ne.symm untouched)]
      · rw [makeDirectories, Table.get?_set] at found
        split at found
        · rename_i same
          exact Or.inr same.symm
        · exact Or.inl found
    · exact .refl tree

variable {R : Type} [Scalar R]

/-- Where a catalog is kept. -/
def IsCatalogPlace (name path : String) : Prop := path = catalogPath name ∨ IsInner path

theorem touches_writeUnits (registry : Registry R) (catalog : Catalog R) {name : String}
    (part : IsPart (catalogPath name)) (units : Table UnitOfMeasure) (tree : FileTree) :
    Touches (IsCatalogPlace name) (· = catalogPath name) tree
      (writeUnits registry catalog (catalogPath name) units tree).1 := by
  induction units generalizing tree with
  | nil => exact .refl tree
  | cons entry rest inductionHypothesis =>
      have written : Touches (IsCatalogPlace name) (· = catalogPath name) tree
          (tree.write (childPath (catalogPath name) (entry.1 ++ unitEnding))
            (unitText registry catalog entry.1 entry.2)).1 := by
        refine (touches_write tree _ _).mono (fun path either => Or.inr ?_) fun _ => False.elim
        have temporary : temporaryPath (childPath (catalogPath name) (entry.1 ++ unitEnding)) =
            childPath (catalogPath name) (entry.1 ++ (unitEnding ++ ".tmp")) := by
          simp [childPath_of_part part, temporaryPath, String.append_assoc]
        rcases either with rfl | rfl
        · rw [temporary]
          exact isInner_unit part entry.1 (by decide) (by decide)
        · exact isInner_unit part entry.1 (by decide) (by decide)
      unfold writeUnits
      split
      · rename_i left run
        rw [run] at written
        exact written.trans (inductionHypothesis left)
      · rename_i left run
        rw [run] at written
        exact written

/-- Keeping a catalog touches its directory and what lies in it. -/
theorem touches_saveCatalog (tree : FileTree) (registry : Registry R) {name : String}
    (whole : '/' ∉ name.toList) (catalog : Catalog R) :
    Touches (IsCatalogPlace name) (· = catalogPath name) tree
      (tree.saveCatalog registry name catalog).1 := by
  have part : IsPart (catalogPath name) := isPart_append whole (by decide) (by decide)
  have made : Touches (IsCatalogPlace name) (· = catalogPath name) tree
      (tree.makeDirectory (catalogPath name)).1 :=
    (touches_makeDirectory tree part).mono (fun _ => Or.inl) fun _ => id
  rw [saveCatalog]
  split
  · rename_i left run
    rw [run] at made
    exact made.trans (touches_writeUnits registry catalog part catalog.units left)
  · rename_i left run
    rw [run] at made
    exact made

end

/-! ## Texts at the top -/

section

variable {tree : FileTree} {name : String}

/-- A text written at the top, where no directories are in the way. -/
theorem get?_write_top (content : String) (part : IsPart name)
    (temporary : IsPart (temporaryPath name))
    (fits : isPartAllowed (temporaryPath name) = true)
    (noDirectory : tree.get? name ≠ some .directory)
    (noScratch : tree.get? (temporaryPath name) ≠ some .directory) :
    (tree.write name content).1.get? name = some (.text content) := by
  have different : temporaryPath name ≠ name := by
    simp [temporaryPath, String.ext_iff]
  have inside : (temporaryPath name).toList.head? ≠ some '/' :=
    fun first => temporary.whole (List.mem_of_head? first)
  have root : tree.isDirectory "" = true := by
    rw [isDirectory, entry?, if_pos (by decide)]
    rfl
  have placed : tree.place (temporaryPath name) content =
      (tree.set (temporaryPath name) (.text content), true) := by
    rw [FileTree.place, isPathAllowed, temporary.pathParts, directoryOf_part temporary, root,
      isDirectory, entry?_part temporary, plainPath_part temporary]
    simp [fits, inside, noScratch]
  have target : isDirectory (tree.set (temporaryPath name) (.text content)) name = false := by
    rw [isDirectory, entry?_part part, Table.get?_set, if_neg different]
    exact beq_eq_false_iff_ne.mpr noDirectory
  rw [write, placed]
  simp only [moveText, target, Bool.false_eq_true, if_false]
  rw [plainPath_part part, Table.get?_set, if_pos rfl]

/-- What lies at the top of a tree of plain paths is listed under its name. -/
theorem mem_namesIn_top
    (plain : forall path entry, tree.get? path = some entry -> IsPlainPath path) :
    name ∈ tree.namesIn "" <-> IsPart name ∧ ∃ entry, tree.get? name = some entry := by
  rw [mem_namesIn]
  constructor
  · rintro ⟨path, entry, found, listed⟩
    have root : plainPath "" = "" := by decide
    rw [nameIn?, root, Option.ite_none_right_eq_some, Bool.and_eq_true, bne_iff_ne, beq_iff_eq,
      Option.some.injEq] at listed
    rcases listed with ⟨⟨written, top⟩, rfl⟩
    have each : forall part, part ∈ pathParts path -> IsPart part :=
      fun _ => isPart_of_mem_pathParts
    have same : String.intercalate "/" (pathParts path) = path := plain path entry found
    cases parts : pathParts path with
    | nil =>
        rw [parts] at same
        exact absurd same.symm written
    | cons first rest =>
        rw [parts] at each
        have none : (first :: rest).dropLast = [] := by
          rw [← pathParts_intercalate fun part member => each part (List.dropLast_subset _ member),
            ← parts, ← directoryOf, top]
          decide
        cases rest with
        | cons second rest => cases none
        | nil =>
            have part := each first List.mem_cons_self
            rw [parts, String.intercalate_singleton] at same
            rw [← same, nameOf_part part]
            exact ⟨part, entry, same ▸ found⟩
  · rintro ⟨part, entry, found⟩
    exact ⟨name, entry, found, nameIn?_part part⟩

end

end FileTree
end QuantityCalculus
