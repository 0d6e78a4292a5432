import TableStore.Database
import TableStore.NameMap
import TableStore.Storage

/-!
# Catalogs

The databases held in memory and which of them is selected. An operation works on memory alone;
when it has to be made durable it says by which storage call.
-/
namespace TableStore

structure Catalog where
  databases : NameMap Database
  selected : Option String

/-- What an operation makes of the catalog, the call that makes it durable, and what it answers. -/
structure Change (α : Type) where
  catalog : Catalog
  call : Option StorageCall
  result : α

namespace Catalog

/-- The first database of each name, none of them selected. -/
def ofDatabases (ds : List Database) : Catalog where
  databases := ds.foldl (fun m d => if m.contains d.name then m else m.insert d.name d) .empty
  selected := none

def names (c : Catalog) : List String := c.databases.keys

def noSuchDatabase (name : String) : Error := .ofValidation (.noSuchDatabase name)

def database (c : Catalog) (name : String) : Except Error Database :=
  match c.databases.get? name with
  | some d => .ok d
  | none => .error (noSuchDatabase name)

/-- The selected database. -/
def current (c : Catalog) : Except Error Database :=
  match c.selected.bind c.databases.get? with
  | some d => .ok d
  | none => .error (.ofValidation .noSelection)

/-- The database is held under its name. -/
def put (c : Catalog) (d : Database) : Catalog :=
  { c with databases := c.databases.insert d.name d }

/-- The database takes the place of the selected one. -/
def putCurrent (c : Catalog) (d : Database) : Catalog :=
  match c.selected with
  | some name => { c with databases := c.databases.insert name d }
  | none => c

/-- The call that stores the selected database. -/
def saveCall (c : Catalog) : Option StorageCall := c.selected.map .save

/-- The name can be that of a file. -/
def isFitName (name : String) : Bool :=
  name != "." && name != ".." && !name.toList.contains '/' && !name.toList.contains '\\'

def createDatabase (c : Catalog) (name : String) : Except Error (Change String) := do
  let d ← Database.make name
  if !isFitName d.name then throw (.ofValidation (.unfitName d.name))
  if c.databases.contains d.name then throw (.ofValidation (.databaseExists d.name))
  return ⟨c.put d, some (.save d.name), d.name⟩

/-- A selected database that is dropped is no longer selected. -/
def dropDatabase (c : Catalog) (name : String) : Except Error (Change Unit) := do
  let name := Text.trim name
  let _ ← c.database name
  let selected := if c.selected = some name then none else c.selected
  return ⟨⟨c.databases.erase name, selected⟩, some (.remove name), ()⟩

def useDatabase (c : Catalog) (name : String) : Except Error (Change Unit) := do
  let name := Text.trim name
  let _ ← c.database name
  return ⟨{ c with selected := some name }, none, ()⟩

/-- A new table in the selected database, whose name is the result. -/
def createTable (c : Catalog) (name : String) (columns : List Column) :
    Except Error (Change String) := do
  let d ← c.current
  let d' ← d.createTable name columns
  return ⟨c.putCurrent d', c.saveCall, d.name⟩

/-- The names of the dropped table and of its database are the result. -/
def dropTable (c : Catalog) (name : String) : Except Error (Change (String × String)) := do
  let d ← c.current
  let (d', t) ← d.dropTable name
  return ⟨c.putCurrent d', c.saveCall, (t.name, d.name)⟩

/-- A table of the selected database takes the place of the one of its name. -/
def putTable (c : Catalog) (d : Database) (t : Table) : Catalog := c.putCurrent (d.replaceTable t)

end Catalog

end TableStore
