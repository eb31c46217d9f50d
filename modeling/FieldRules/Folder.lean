import FieldRules.Path
import FieldRules.YamlReader

/-!
# Folders

A tree of files as it is found at some moment: for each path that is in use, the bytes of the file
there or the fact that there is a directory. Every directory on the way to a file is there, too. The
library that reads the YAML in the files comes with them.
-/

namespace FieldRules

/-- What stands at a path. -/
inductive FolderItem where
  | file (bytes : Bytes)
  | directory
deriving Repr, DecidableEq

/-- A tree of files, given by the items at paths. -/
structure Folder where
  items : Table Path FolderItem := []
  /-- What YAML is read with. -/
  yaml : YamlReader

namespace Folder

/-- Puts an item at a path. -/
def put (f : Folder) (path : Path) (item : FolderItem) : Folder :=
  { f with items := Table.put f.items path item }

/-- Puts files into a directory, which is then there even if there are none. -/
def putAll (f : Folder) (directory : Path) (files : List (String × FolderItem)) : Folder :=
  let f := if Table.has f.items directory then f else f.put directory .directory
  files.foldl (fun f e => f.put (directory.entry e.1) e.2) f

/-- A path is the start of another, longer one. -/
def isAbove (directory path : Path) : Bool :=
  directory.start == path.start && directory.names.length < path.names.length
    && directory.names.isPrefixOf path.names

/-- What stands at a path. The empty relative path is the folder itself. -/
def item? (f : Folder) (path : Path) : Option FolderItem :=
  match Table.get? f.items path with
  | some item => some item
  | none =>
    if path == {} || f.items.any fun e => isAbove path e.1 then some .directory else none

/-- The bytes of the file at a path. -/
def bytes? (f : Folder) (path : Path) : Option Bytes :=
  match f.item? path with
  | some (.file bytes) => some bytes
  | _ => none

/-- There is a directory at a path. -/
def isDirectory (f : Folder) (path : Path) : Bool := f.item? path == some .directory

/-- The names of the items in a directory, each once. -/
def namesIn (f : Folder) (directory : Path) : List String :=
  (f.items.filterMap fun e =>
    if isAbove directory e.1 then e.1.names[directory.names.length]? else none).eraseDups

end Folder

end FieldRules
