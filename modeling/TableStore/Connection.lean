import TableStore.Session

/-!
# Connections

A storage on which a session is open, or none. Closing a session stores every database; opening one
again starts from what is stored.
-/
namespace TableStore

inductive Connection where
  | opened (session : Session)
  | closed (storage : Storage)

namespace Connection

def session? : Connection → Option Session
  | opened s => some s
  | closed _ => none

def storage : Connection → Storage
  | opened s => s.storage
  | closed st => st

/-- The name of the database that the session has selected. -/
def selected (c : Connection) : Option String := c.session?.bind Session.selected

def setFaults (c : Connection) (faults : Faults) : Connection :=
  match c with
  | opened s => .opened { s with storage := { s.storage with faults := faults } }
  | closed st => .closed { st with faults := faults }

/-- Ends the session, which is closed whether or not all of it could be stored. -/
def shutdown (s : Session) : Connection × Except Error Unit :=
  let r := s.flush
  (.closed r.1.storage, r.2)

/-- A new session on the same storage. -/
def reopen (c : Connection) : Connection × Except Error Unit :=
  match Session.open c.storage with
  | .ok s => (.opened s, .ok ())
  | .error e => (.closed c.storage, .error e)

end Connection

end TableStore
