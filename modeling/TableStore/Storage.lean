import TableStore.Store

/-!
# Storage

A store whose calls are recorded and may be refused. A refused call leaves the store as it is.
-/
namespace TableStore

inductive StorageCall where
  | save (name : String)
  | remove (name : String)
  deriving DecidableEq

namespace StorageCall

def name : StorageCall → String
  | save n => n
  | remove n => n

def text : StorageCall → String
  | save n => "save " ++ n
  | remove n => "remove " ++ n

end StorageCall

/-- The calls that are refused, with the reason. -/
structure Faults where
  save : String → Option StorageError := fun _ => none
  remove : String → Option StorageError := fun _ => none
  load : Option StorageError := none

/-- A call that was made, and whether it was refused. -/
structure CallRecord where
  call : StorageCall
  refused : Bool
  deriving DecidableEq

structure Storage where
  store : Store
  faults : Faults := {}
  /-- How the numerals of its documents are read. -/
  reader : NumeralReader := .exact
  /-- The calls made so far. -/
  calls : List CallRecord := []

namespace Storage

/-- The storage of a directory whose place is taken by a file; it cannot be opened. -/
def blocked : Storage where
  store := .directory (.holding [] .empty)
  faults := { load := some .fileExists }

/-- The storage after a call that has this outcome for the store. -/
def settle (s : Storage) (call : StorageCall) (outcome : Except StorageError Store) :
    Storage × Except Error Unit :=
  match outcome with
  | .ok store => ({ s with store := store, calls := s.calls ++ [⟨call, false⟩] }, .ok ())
  | .error e => ({ s with calls := s.calls ++ [⟨call, true⟩] }, .error (.ofStorage e))

def save (s : Storage) (d : Database) : Storage × Except Error Unit :=
  s.settle (.save d.name)
    (match s.faults.save d.name with
    | some e => .error e
    | none => s.store.save d)

def remove (s : Storage) (name : String) : Storage × Except Error Unit :=
  s.settle (.remove name)
    (match s.faults.remove name with
    | some e => .error e
    | none => s.store.remove name)

def load (s : Storage) : Except Error (List Database) :=
  match s.faults.load with
  | some e => .error (.ofStorage e)
  | none => .ok (s.store.databases s.reader)

end Storage

end TableStore
