import QuantityCalculus.Table
import QuantityCalculus.Text.Blank
import QuantityCalculus.Text.Ordering

namespace QuantityCalculus

/-!
File trees: the texts that are kept between two sessions.

A tree maps paths below one directory to texts and to further directories.  A
path is written with slashes between its parts.  Writing may be refused: the
directory has to be there, a directory is never overwritten by a text, and no
part of a path is longer than 255 bytes.  A text is first written under a
temporary name and then moved to its place, so that a refused move leaves the
temporary text behind and the old text untouched.

Every change answers with the tree afterwards and with whether it was made.
-/

/-- What a path leads to. -/
inductive FileEntry where
  | text (content : String)
  | directory
deriving DecidableEq, Repr

/-- The entries below a directory by path; the directory itself is always there. -/
abbrev FileTree := Table FileEntry

namespace FileTree

/-- The path of a name in a directory. -/
def childPath (directory name : String) : String :=
  if directory = "" then name else directory ++ "/" ++ name

/-- The parts of a path that lead somewhere; empty parts and single points do not. -/
def pathParts (path : String) : List String :=
  (Text.piecesOf '/' path).filter fun part => part != "" && part != "."

/-- A part that may be created: not the way back, and not too long. -/
def isPartAllowed (part : String) : Bool :=
  part != ".." && decide (part.utf8ByteSize ≤ 255)

/-- A path that stays below the directory. -/
def isPathAllowed (path : String) : Bool :=
  path.toList.head? != some '/' && (pathParts path).all isPartAllowed

/-- The path with those parts only that lead somewhere. -/
def plainPath (path : String) : String :=
  String.intercalate "/" (pathParts path)

/-- The entry at a path. -/
def entry? (tree : FileTree) (path : String) : Option FileEntry :=
  if plainPath path = "" then some .directory else tree.get? (plainPath path)

/-- There is something at a path. -/
def contains (tree : FileTree) (path : String) : Bool :=
  (tree.entry? path).isSome

/-- There is a directory at a path. -/
def isDirectory (tree : FileTree) (path : String) : Bool :=
  tree.entry? path == some .directory

/-- The text at a path. -/
def text? (tree : FileTree) (path : String) : Option String :=
  match tree.entry? path with
  | some (.text content) => some content
  | _ => none

/-- The path of the directory that a path lies in. -/
def directoryOf (path : String) : String :=
  String.intercalate "/" (pathParts path).dropLast

/-- The name that a path ends with. -/
def nameOf (path : String) : String :=
  (pathParts path).getLastD ""

/-- The name that a path has directly in a directory, if it has one. -/
def nameIn? (directory path : String) : Option String :=
  if path != "" && directoryOf path == plainPath directory then some (nameOf path) else none

/-- The names of the entries directly in a directory, in the order of their code points. -/
def namesIn (tree : FileTree) (directory : String) : List String :=
  Text.sortedNames (tree.keys.filterMap (nameIn? directory))

/-- A name ends in an ending. -/
def hasEnding (ending name : String) : Bool :=
  ending.toList.isSuffixOf name.toList

/-- The names directly in a directory that end in an ending, in order. -/
def namesEnding (tree : FileTree) (directory ending : String) : List String :=
  (tree.namesIn directory).filter (hasEnding ending)

/-- A name without its ending; a name that is nothing but the ending keeps it. -/
def stem (ending name : String) : String :=
  if name = ending then name
  else if hasEnding ending name then
    String.ofList (name.toList.take (name.length - ending.length))
  else name

/-! ## Changes -/

/-- What a temporary text is called. -/
def temporaryPath (path : String) : String := path ++ ".tmp"

/-- A text placed at a path, where no directory is in the way and there is one to hold it. -/
def place (tree : FileTree) (path content : String) : FileTree × Bool :=
  if isPathAllowed path && tree.isDirectory (directoryOf path) && !tree.isDirectory path then
    (tree.set (plainPath path) (.text content), true)
  else (tree, false)

/-- A text moved from a path to another one, where no directory is in the way. -/
def moveText (tree : FileTree) (source target content : String) : FileTree × Bool :=
  if tree.isDirectory target then (tree, false)
  else ((tree.remove (plainPath source)).set (plainPath target) (.text content), true)

/-- A text written at a path, by way of its temporary path. -/
def write (tree : FileTree) (path content : String) : FileTree × Bool :=
  match tree.place (temporaryPath path) content with
  | (placed, true) => placed.moveText (temporaryPath path) path content
  | (tree, false) => (tree, false)

/-- A directory and those it lies in, from the outermost on. -/
def makeDirectories (tree : FileTree) : List String -> String -> FileTree × Bool
  | [], _ => (tree, true)
  | part :: rest, directory =>
      let path := childPath directory part
      match tree.get? path with
      | some .directory => makeDirectories tree rest path
      | some (.text _) => (tree, false)
      | none =>
          if isPartAllowed part then makeDirectories (tree.set path .directory) rest path
          else (tree, false)

/-- A directory made at a path, with all it lies in. -/
def makeDirectory (tree : FileTree) (path : String) : FileTree × Bool :=
  if path.toList.head? = some '/' then (tree, false) else tree.makeDirectories (pathParts path) ""

/-- The text at a path removed; a directory stays. -/
def removeText (tree : FileTree) (path : String) : FileTree × Bool :=
  match tree.entry? path with
  | some (.text _) => (tree.remove (plainPath path), true)
  | _ => (tree, false)

/-- There is something below a path. -/
def isFilled (tree : FileTree) (path : String) : Bool :=
  tree.any fun entry => (path ++ "/").toList.isPrefixOf entry.1.toList

/-- Where an entry is after a directory was moved. -/
def movedPath (source target path : String) : String :=
  if path = source || (source ++ "/").toList.isPrefixOf path.toList then
    target ++ String.ofList (path.toList.drop source.length)
  else path

/-- A directory moved with all that lies in it, where at most an empty directory is in the way. -/
def moveDirectory (tree : FileTree) (source target : String) : FileTree × Bool :=
  if (tree.text? target).isSome || tree.isFilled (plainPath target) then (tree, false)
  else
    ((tree.remove (plainPath target)).map fun entry =>
      (movedPath (plainPath source) (plainPath target) entry.1, entry.2), true)

/-- What is at a path moved to another path, if there is something. -/
def rename (tree : FileTree) (source target : String) : FileTree × Bool :=
  match isPathAllowed target, tree.entry? source with
  | true, some (.text content) => tree.moveText source target content
  | true, some .directory => tree.moveDirectory source target
  | _, _ => (tree, false)

/-- The tree with an entry at a path and the directories it lies in. -/
def add (tree : FileTree) (path content : String) : FileTree :=
  if path.toList.getLast? = some '/' then (tree.makeDirectory path).1
  else ((tree.makeDirectory (directoryOf path)).1).set (plainPath path) (.text content)

/-- The tree of some texts by path; a path that ends in a slash is a directory. -/
def ofTexts (texts : List (String × String)) : FileTree :=
  texts.foldl (fun tree entry => tree.add entry.1 entry.2) []

/-- The content of an entry as it is read, with plain line ends; none for a directory. -/
def shownContent : FileEntry -> Option String
  | .text content => some (String.ofList (Text.plainLineEnds content.toList))
  | .directory => none

/-- All entries as they are read. -/
def listing (tree : FileTree) : Table (Option String) :=
  tree.map fun entry => (entry.1, shownContent entry.2)

end FileTree
end QuantityCalculus
