import TableStore.Session

/-!
# Log

What a run records beside its replies. Which of the records are shown, how they are worded and how
they are dated is left to a logger.
-/
namespace TableStore

inductive Event where
  /-- What is kept under the key cannot be read as a database. -/
  | skipped (key : String) (content : Content)
  /-- Another database of this name was read before. -/
  | ignored (database : String)
  | loaded (database : String)
  | parsed (statement : Sql.Statement)
  | databaseCreated (name : String)
  | databaseDropped (name : String)
  | tableCreated (table database : String)
  | tableDropped (table database : String)
  | rowInserted (table : String)
  | rowsUpdated (table : String) (count : Nat)
  | rowsDeleted (table : String) (count : Nat)
  /-- The file of the database was written. -/
  | written (database : String)
  | saved (database : String)
  | notSaved (database : String) (e : Error)
  deriving DecidableEq

/-- What is recorded when a statement was carried out in memory and is going to be answered. -/
def Event.ofReply? (statement : Sql.Statement) (reply : Reply) : Option Event :=
  match statement, reply with
  | _, .databaseCreated name => some (.databaseCreated name)
  | _, .databaseDropped name => some (.databaseDropped (Text.trim name))
  | _, .tableCreated table database => some (.tableCreated table database)
  | _, .tableDropped table database => some (.tableDropped table database)
  | _, .inserted table _ => some (.rowInserted table)
  | .update table _ _, .updated count => some (.rowsUpdated table count)
  | .delete table _, .deleted count => some (.rowsDeleted table count)
  | _, _ => none

namespace Store

/-- Whatever should be a document, by its key. -/
def candidates : Store → List (String × Content)
  | memory docs => docs.entries.map fun e => (e.1, .text e.2)
  | directory dir => dir.files.entries.filterMap fun
    | (file, .file content) => if Directory.isDocumentName file then some (file, content) else none
    | (_, .folder) => none

/-- One record for each candidate that is no document. -/
def loadLog (s : Store) (reader : NumeralReader) : List Event :=
  s.candidates.filterMap fun (key, content) =>
    match content with
    | .text t => if (Document.load t reader).isOk then none else some (.skipped key content)
    | .binary _ => some (.skipped key content)

end Store

/-- The databases in the order in which they are read, after those of these names. -/
def Catalog.openLog (known : List String) : List Database → List Event
  | [] => []
  | d :: ds =>
    (if d.name ∈ known then .ignored d.name else .loaded d.name) :: openLog (d.name :: known) ds

namespace Storage

def openLog (st : Storage) : List Event :=
  match st.load with
  | .error _ => []
  | .ok ds => st.store.loadLog st.reader ++ Catalog.openLog [] ds

/-- A call that was not refused; only the writing of a file is recorded. -/
def callLog (st : Storage) (call : StorageCall) : List Event :=
  match st.store, call with
  | .directory _, .save name => [.written name]
  | _, _ => []

/-- The databases are stored one after the other. -/
def flushLog (st : Storage) : List Database → List Event
  | [] => []
  | d :: ds =>
    match st.save d with
    | (st', .ok ()) => st.callLog (.save d.name) ++ .saved d.name :: flushLog st' ds
    | (st', .error e) => .notSaved d.name e :: flushLog st' ds

end Storage

namespace Session

/-- What a parsed statement records: its work in memory, and then its storage call. -/
def statementLog (s : Session) (statement : Sql.Statement) : List Event :=
  match statement.run s.catalog with
  | .error _ => []
  | .ok ch =>
    let work := match ch.result with
      | .ok reply => (Event.ofReply? statement reply).toList
      | .error _ => []
    match ch.call, (s.commit ch).2 with
    | some call, .ok _ => work ++ s.storage.callLog call
    | _, _ => work

def executeLog (s : Session) (text : String) : List Event :=
  match Sql.Statement.parse text with
  | .error _ => []
  | .ok statement => .parsed statement :: s.statementLog statement

def executeLineLog (s : Session) (line : String) : List Event :=
  if Sql.isIgnorable line then [] else s.executeLog line

def flushLog (s : Session) : List Event := s.storage.flushLog s.catalog.databases.values

end Session

structure Logger where
  /-- What is shown of a record, by the records before it. -/
  line : List Event → Event → String

namespace Logger

/-- Shows nothing. -/
def silent : Logger where
  line _ _ := ""

end Logger

end TableStore
