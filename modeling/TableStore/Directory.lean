import TableStore.Error
import TableStore.NameMap
import TableStore.Path
import TableStore.Text.Content

/-!
# Directories

A directory keeps the document of `n` in the file `n.json`, and takes as documents its files with
that ending. A name with slashes in it is a path, which may lead to a folder of the directory or
out of it; files that are put in such places are known, but never read. No folder is ever made, so
apart from the folders of the directory and those that lead to it there are none.
-/
namespace TableStore

/-- What a directory holds under a name. -/
inductive FileEntry where
  | file (content : Content)
  | folder

/-- Where a path leads. -/
inductive Place where
  | inside
  /-- A folder that the directory holds. -/
  | below (folder : String)
  /-- A folder that leads to the directory, by the names from the root. -/
  | above (names : List String)
  deriving DecidableEq

structure Directory where
  /-- The names that lead to the directory from the root. -/
  location : List String
  files : NameMap FileEntry
  /-- The files in other places, by their names. -/
  elsewhere : List (Place × String)

/-- What a place holds under a name. -/
inductive Occupant where
  | file
  | folder (place : Place)
  deriving DecidableEq

namespace Directory

/-- A directory with which no file was put anywhere else. -/
def holding (location : List String) (files : NameMap FileEntry) : Directory :=
  ⟨location, files, []⟩

def placeOf (d : Directory) (names : List String) : Place :=
  if names = d.location then .inside else .above names

/-- The root is its own parent. -/
def parent (d : Directory) : Place → Place
  | .inside => d.placeOf d.location.dropLast
  | .below _ => .inside
  | .above names => .above names.dropLast

def elsewhere? (d : Directory) (p : Place) (name : String) : Option Occupant :=
  if (p, name) ∈ d.elsewhere then some .file else none

def occupant? (d : Directory) (p : Place) (name : String) : Option Occupant :=
  match p with
  | .inside => (d.files.get? name).map fun
    | .file _ => .file
    | .folder => .folder (.below name)
  | .below _ => d.elsewhere? p name
  | .above names =>
    if (names ++ [name]).isPrefixOf d.location then some (.folder (d.placeOf (names ++ [name])))
    else d.elsewhere? p name

/-- The longest name of a file or folder, in bytes. -/
def longestName : Nat := 255

/-- The longest path, in bytes. -/
def longestPath : Nat := 4095

/-- One name of a path further. -/
def enter (d : Directory) (p : Place) (name : String) : Except StorageError Place :=
  if !Path.leadsOn name then .ok p
  else if name = ".." then .ok (d.parent p)
  else if longestName < name.utf8ByteSize then .error .nameTooLong
  else match d.occupant? p name with
    | some (.folder q) => .ok q
    | some .file => .error .notFolder
    | none => .error .noSuchFile

def fileName (name : String) : String := name ++ ".json"

/-- The bytes of a path, with those of the directory's own path if it starts there. -/
def pathSize (d : Directory) (path : String) : Nat :=
  if (Path.ofText path).rooted then path.utf8ByteSize
  else d.location.foldl (fun size n => size + n.utf8ByteSize + 1) 0 + 1 + path.utf8ByteSize

/-- The place and the name of the file that holds the document of a database. -/
def locate (d : Directory) (name : String) : Except StorageError (Place × String) := do
  if name.toList.contains '\x00' then throw .zeroCharacter
  if longestPath < d.pathSize (fileName name) then throw .nameTooLong
  let path := Path.ofText (fileName name)
  let place ← path.names.dropLast.foldlM d.enter (if path.rooted then d.placeOf [] else .inside)
  let file := path.names.getLast?.getD ""
  if longestName < file.utf8ByteSize then throw .nameTooLong
  return (place, file)

def put (d : Directory) (p : Place) (file document : String) : Directory :=
  match p with
  | .inside => { d with files := d.files.insert file (.file (.text document)) }
  | p => { d with elsewhere := d.elsewhere.insert (p, file) }

def take (d : Directory) (p : Place) (file : String) : Directory :=
  match p with
  | .inside => { d with files := d.files.erase file }
  | p => { d with elsewhere := d.elsewhere.filter fun e => e != (p, file) }

def save (d : Directory) (name document : String) : Except StorageError Directory := do
  let (place, file) ← d.locate name
  match d.occupant? place file with
  | some (.folder _) => throw .isFolder
  | _ => return d.put place file document

/-- A file that is not there is as good as removed. -/
def remove (d : Directory) (name : String) : Except StorageError Directory :=
  match d.locate name with
  | .error .noSuchFile => .ok d
  | .error e => .error e
  | .ok (place, file) =>
    match d.occupant? place file with
    | some (.folder _) => .error .isFolder
    | _ => .ok (d.take place file)

/-- The file name is more than the ending `.json`, and ends with it. -/
def isDocumentName (file : String) : Bool :=
  match file.toList.reverse with
  | 'n' :: 'o' :: 's' :: 'j' :: '.' :: stem => !stem.isEmpty
  | _ => false

def document? : String × FileEntry → Option String
  | (file, .file (.text s)) => if isDocumentName file then some s else none
  | _ => none

/-- The texts that are taken as documents, in the order of their file names. -/
def documents (d : Directory) : List String := d.files.entries.filterMap document?

end Directory

end TableStore
