import QuantityCalculus.FileTree
import QuantityCalculus.Proofs.SortedNames

namespace QuantityCalculus

/-!
# Names and paths in a file tree

What a tree holds is read off its paths: a path has parts, the parts before the last one
name the directory, and a directory is listed by the last parts of the paths that lie in
it.  For names that are parts by themselves (not empty, not a single point, without a
slash) the paths of one part and of two parts are all that is needed, and a text that is
written at such a path changes the tree there and nowhere else.
-/

namespace Text

/-! ## Pieces -/

theorem piecesAfter_append (separator : Char) (unfinished left right : List Char) :
    piecesAfter separator unfinished (left ++ separator :: right) =
      piecesAfter separator unfinished left ++ pieces separator right := by
  induction left generalizing unfinished with
  | nil => simp [piecesAfter, pieces]
  | cons c left inductionHypothesis =>
      rw [List.cons_append, piecesAfter, piecesAfter]
      split
      · rw [inductionHypothesis, List.cons_append]
      · exact inductionHypothesis (c :: unfinished)

theorem piecesAfter_of_not_mem {separator : Char} (unfinished : List Char) {text : List Char}
    (whole : separator ∉ text) :
    piecesAfter separator unfinished text = [unfinished.reverse ++ text] := by
  induction text generalizing unfinished with
  | nil => simp [piecesAfter]
  | cons c text inductionHypothesis =>
      rcases not_or.mp (mt List.mem_cons.mpr whole) with ⟨different, others⟩
      rw [piecesAfter, if_neg (Ne.symm different), inductionHypothesis _ others,
        List.reverse_cons, List.append_assoc, List.singleton_append]

end Text

namespace FileTree

/-! ## Paths -/

/-- A name that is one part of a path. -/
structure IsPart (name : String) : Prop where
  written : name ≠ ""
  noPoint : name ≠ "."
  whole : '/' ∉ name.toList

theorem pathParts_append (directory name : String) :
    pathParts (directory ++ "/" ++ name) = pathParts directory ++ pathParts name := by
  have cut : Text.piecesOf '/' (directory ++ "/" ++ name) =
      Text.piecesOf '/' directory ++ Text.piecesOf '/' name := by
    have text : (directory ++ "/" ++ name).toList = directory.toList ++ '/' :: name.toList := by
      simp
    rw [Text.piecesOf, text, Text.pieces, Text.piecesAfter_append, List.map_append]
    rfl
  rw [pathParts, cut, List.filter_append, pathParts, pathParts]

section

variable {directory name : String}

theorem IsPart.pathParts (part : IsPart name) : pathParts name = [name] := by
  have cut : Text.piecesOf '/' name = [name] := by
    rw [Text.piecesOf, Text.pieces, Text.piecesAfter_of_not_mem [] part.whole]
    simp
  simp [FileTree.pathParts, cut, part.written, part.noPoint]

theorem childPath_of_part (part : IsPart directory) :
    childPath directory name = directory ++ "/" ++ name :=
  if_neg part.written

theorem pathParts_child (first : IsPart directory) (second : IsPart name) :
    pathParts (childPath directory name) = [directory, name] := by
  rw [childPath_of_part first, pathParts_append, first.pathParts, second.pathParts]
  rfl

theorem plainPath_part (part : IsPart name) : plainPath name = name := by
  rw [plainPath, part.pathParts, String.intercalate_singleton]

theorem plainPath_child (first : IsPart directory) (second : IsPart name) :
    plainPath (childPath directory name) = childPath directory name := by
  rw [plainPath, pathParts_child first second, childPath_of_part first,
    String.intercalate_cons_cons, String.intercalate_singleton]

theorem directoryOf_part (part : IsPart name) : directoryOf name = "" := by
  rw [directoryOf, part.pathParts]
  rfl

theorem directoryOf_child (first : IsPart directory) (second : IsPart name) :
    directoryOf (childPath directory name) = directory := by
  rw [directoryOf, pathParts_child first second]
  exact String.intercalate_singleton

theorem nameOf_part (part : IsPart name) : nameOf name = name := by
  rw [nameOf, part.pathParts]
  rfl

theorem nameOf_child (first : IsPart directory) (second : IsPart name) :
    nameOf (childPath directory name) = name := by
  rw [nameOf, pathParts_child first second]
  rfl

/-- Paths of two parts agree when the parts do. -/
theorem childPath_inj {directory' name' : String} (first : IsPart directory)
    (second : IsPart name) (first' : IsPart directory') (second' : IsPart name')
    (same : childPath directory name = childPath directory' name') :
    directory = directory' ∧ name = name' := by
  have parts := congrArg pathParts same
  rw [pathParts_child first second, pathParts_child first' second'] at parts
  cases parts
  exact ⟨rfl, rfl⟩

/-- A path of two parts is no path of one part. -/
theorem childPath_ne_part {other : String} (first : IsPart directory) (second : IsPart name)
    (part : IsPart other) : childPath directory name ≠ other := by
  intro same
  have parts := congrArg pathParts same
  rw [pathParts_child first second, part.pathParts] at parts
  cases parts

theorem childPath_ne_empty (first : IsPart directory) (second : IsPart name) :
    childPath directory name ≠ "" := by
  intro same
  have parts := congrArg pathParts same
  rw [pathParts_child first second] at parts
  cases parts

/-! ## Entries -/

variable {tree : FileTree}

theorem entry?_part (part : IsPart name) : tree.entry? name = tree.get? name := by
  unfold entry?
  rw [plainPath_part part, if_neg part.written]

theorem entry?_child (first : IsPart directory) (second : IsPart name) :
    tree.entry? (childPath directory name) = tree.get? (childPath directory name) := by
  unfold entry?
  rw [plainPath_child first second, if_neg (childPath_ne_empty first second)]

/-- A directory of the tree itself is listed under its name. -/
theorem nameIn?_part (part : IsPart name) : nameIn? "" name = some name := by
  have root : plainPath "" = "" := by decide
  rw [nameIn?, directoryOf_part part, root, nameOf_part part]
  simp [part.written]

theorem nameIn?_child (first : IsPart directory) (second : IsPart name) (place : String) :
    nameIn? place (childPath directory name) =
      if directory = plainPath place then some name else none := by
  rw [nameIn?, directoryOf_child first second, nameOf_child first second]
  simp [childPath_ne_empty first second]

/-- A directory lists the names of the entries that lie in it. -/
theorem mem_namesIn {place : String} :
    name ∈ tree.namesIn place <->
      ∃ path entry, tree.get? path = some entry ∧ nameIn? place path = some name := by
  rw [namesIn, Text.mem_sortedNames, List.mem_filterMap]
  refine exists_congr fun path => ?_
  have known : path ∈ tree.keys <-> ∃ entry, tree.get? path = some entry := by
    rw [← Option.ne_none_iff_exists', ne_eq, Table.get?_eq_none_iff, not_not]
  rw [known, exists_and_right]

/-! ## Changes -/

/-- A directory made where nothing but a directory is. -/
theorem get?_makeDirectory (part : IsPart name) (fits : isPartAllowed name = true)
    (noText : forall content, tree.get? name ≠ some (.text content)) :
    ∃ made, tree.makeDirectory name = (made, true) ∧
      forall path, made.get? path = if name = path then some .directory else tree.get? path := by
  have inside : name.toList.head? ≠ some '/' := fun first => part.whole (List.mem_of_head? first)
  rw [makeDirectory, if_neg inside, part.pathParts, makeDirectories]
  simp only [childPath, if_true]
  cases here : tree.get? name with
  | none =>
      refine ⟨tree.set name .directory, ?_, fun path => Table.get?_set tree name path _⟩
      simp [fits, makeDirectories]
  | some entry =>
      cases entry with
      | text content => exact absurd here (noText content)
      | directory =>
          refine ⟨tree, rfl, fun path => ?_⟩
          split
          · rename_i same
            exact same ▸ here
          · rfl

/-- A text written into a directory that is there, where its temporary name is free. -/
theorem get?_write (content : String) (first : IsPart directory) (second : IsPart name)
    (temporary : IsPart (temporaryPath name)) (fitsDirectory : isPartAllowed directory = true)
    (fits : isPartAllowed (temporaryPath name) = true)
    (place : tree.get? directory = some .directory)
    (free : tree.get? (childPath directory (temporaryPath name)) = none)
    (noDirectory : tree.get? (childPath directory name) ≠ some .directory) :
    ∃ written, tree.write (childPath directory name) content = (written, true) ∧
      forall path, written.get? path =
        if childPath directory name = path then some (.text content) else tree.get? path := by
  have named : temporaryPath (childPath directory name) =
      childPath directory (temporaryPath name) := by
    rw [childPath_of_part first, childPath_of_part first, temporaryPath, temporaryPath,
      String.append_assoc]
  have different : childPath directory name ≠ childPath directory (temporaryPath name) := by
    intro same
    have endings := (childPath_inj first second first temporary same).2
    exact absurd endings (by simp [temporaryPath, String.ext_iff])
  have inside : (childPath directory (temporaryPath name)).toList.head? ≠ some '/' := by
    rw [childPath_of_part first]
    intro slash
    cases letters : directory.toList with
    | nil => exact first.written (String.toList_eq_nil_iff.mp letters)
    | cons c rest =>
        simp [letters] at slash
        exact first.whole (by simp [letters, slash])
  have placed : tree.place (childPath directory (temporaryPath name)) content =
      (tree.set (childPath directory (temporaryPath name)) (.text content), true) := by
    rw [FileTree.place, isPathAllowed, pathParts_child first temporary, isDirectory,
      directoryOf_child first temporary, entry?_part first, place, isDirectory,
      entry?_child first temporary, free, plainPath_child first temporary]
    simp [fits, fitsDirectory, inside]
  have target : isDirectory (tree.set (childPath directory (temporaryPath name)) (.text content))
      (childPath directory name) = false := by
    rw [isDirectory, entry?_child first second, Table.get?_set, if_neg different.symm]
    exact beq_eq_false_iff_ne.mpr noDirectory
  refine ⟨((tree.set (childPath directory (temporaryPath name)) (.text content)).remove
    (childPath directory (temporaryPath name))).set (childPath directory name) (.text content),
    ?_, fun path => ?_⟩
  · unfold write
    rw [named, placed]
    simp only [moveText, target, Bool.false_eq_true, if_false, plainPath_child first second,
      plainPath_child first temporary]
  · rw [Table.get?_set, Table.get?_remove, Table.get?_set]
    by_cases here : childPath directory name = path
    · rw [if_pos here, if_pos here]
    · rw [if_neg here, if_neg here]
      by_cases there : childPath directory (temporaryPath name) = path
      · rw [if_pos there, ← there, free]
      · rw [if_neg there, if_neg there]

end

end FileTree
end QuantityCalculus
