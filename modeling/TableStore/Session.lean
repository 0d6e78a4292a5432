import TableStore.Sql.Execution
import TableStore.Sql.Parser

/-!
# Sessions

A catalog with the storage behind it. An operation first changes the catalog and then makes its one
storage call; a call that is refused leaves the catalog ahead of the storage.
-/
namespace TableStore

structure Session where
  catalog : Catalog
  storage : Storage

namespace Session

/-- A session with every database that the storage holds. -/
def «open» (storage : Storage) : Except Error Session := do
  let ds ← storage.load
  return ⟨Catalog.ofDatabases ds, storage⟩

/-- The name of the selected database. -/
def selected (s : Session) : Option String := s.catalog.selected

/-- The session after a storage call. -/
def settle (s : Session) (r : Storage × Except Error Unit) : Session × Except Error Unit :=
  ({ s with storage := r.1 }, r.2)

/-- Stores the document of a database. -/
def save (s : Session) (name : String) : Session × Except Error Unit :=
  match s.catalog.database name with
  | .error e => (s, .error e)
  | .ok d => s.settle (s.storage.save d)

def saveSelected (s : Session) : Session × Except Error Unit :=
  match s.catalog.selected with
  | none => (s, .error (.ofValidation .noSelection))
  | some name => s.save name

def call (s : Session) : StorageCall → Session × Except Error Unit
  | .save name => s.save name
  | .remove name => s.settle (s.storage.remove name)

/-- Makes a change in memory and then durable. -/
def commit {α : Type} (s : Session) (ch : Change α) : Session × Except Error α :=
  let s := { s with catalog := ch.catalog }
  match ch.call with
  | none => (s, .ok ch.result)
  | some c =>
    let r := s.call c
    (r.1, r.2.map fun _ => ch.result)

/-- Makes the change that the catalog gives; an error changes nothing. -/
def change {α : Type} (s : Session) (plan : Catalog → Except Error (Change α)) :
    Session × Except Error α :=
  match plan s.catalog with
  | .error e => (s, .error e)
  | .ok ch => s.commit ch

/-- Runs the statement that a text is. -/
def execute (s : Session) (text : String) : Session × Except Error Reply :=
  match Sql.Statement.parse text with
  | .error e => (s, .error (.ofSyntax e))
  | .ok statement =>
    let r := s.change statement.run
    (r.1, r.2.bind id)

/-- The same, but a blank line or a comment has no reply. -/
def executeLine (s : Session) (line : String) : Session × Except Error (Option Reply) :=
  if Sql.isIgnorable line then (s, .ok none)
  else
    let r := s.execute line
    (r.1, r.2.map some)

/-- The storage and the outcome so far, after one more database is stored. -/
def flushOne (r : Storage × Except Error Unit) (d : Database) : Storage × Except Error Unit :=
  match r.1.save d with
  | (storage, .ok ()) => (storage, r.2)
  | (storage, .error e) => (storage, .error e)

/-- Stores every database, whether or not others are refused. The last refusal is the outcome. -/
def flush (s : Session) : Session × Except Error Unit :=
  s.settle (s.catalog.databases.values.foldl flushOne (s.storage, .ok ()))

end Session

end TableStore
