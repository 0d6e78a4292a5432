import TableStore.Catalog
import TableStore.Reply
import TableStore.Sql.Query

/-!
# Execution

The change that a statement makes to a catalog. All of its work in memory comes first; the one
call that makes it durable is part of the change. A statement that stops in the middle of its work
answers with an error and leaves the work done by then.
-/
namespace TableStore.Sql.Statement

/-- A change to one table of the selected database. It is stored if it is one of any rows. -/
def changeTable (c : Catalog) (name : String)
    (act : Table → Except Error (Table × Except Error Nat)) (reply : Table → Nat → Reply) :
    Except Error (Change (Except Error Reply)) := do
  let d ← c.current
  let t ← d.table name
  let (t', outcome) ← act t
  match outcome with
  | .error e => return ⟨c.putTable d t', none, .error e⟩
  | .ok count =>
    return ⟨c.putTable d t', if count = 0 then none else c.saveCall, .ok (reply t count)⟩

def run (c : Catalog) : Statement → Except Error (Change (Except Error Reply))
  | createDatabase name => do
    let ch ← c.createDatabase name
    return { ch with result := .ok (.databaseCreated ch.result) }
  | dropDatabase name => do
    let ch ← c.dropDatabase name
    return { ch with result := .ok (.databaseDropped name) }
  | useDatabase name => do
    let ch ← c.useDatabase name
    return { ch with result := .ok (.databaseSelected name) }
  | showDatabases => .ok ⟨c, none, .ok (.databases c.names)⟩
  | createTable name specs => do
    let columns ← specs.mapM fun s => Column.make s.name s.type
    let ch ← c.createTable name columns
    return { ch with result := .ok (.tableCreated name ch.result) }
  | dropTable name => do
    let ch ← c.dropTable name
    return { ch with result := .ok (.tableDropped ch.result.1 ch.result.2) }
  | showTables => do
    let d ← c.current
    return ⟨c, none, .ok (.tables d.name d.tableNames)⟩
  | insert table values =>
    changeTable c table (fun t => (t.insert values).map fun t => (t, .ok 1))
      fun t n => .inserted t.name n
  | select table columns condition => do
    let d ← c.current
    let t ← d.table table
    let (names, rows) ← t.select columns condition
    return ⟨c, none, .ok (.selected names rows)⟩
  | update table assignments condition =>
    changeTable c table (fun t => t.update assignments condition) fun _ n => .updated n
  | delete table condition =>
    changeTable c table (fun t => (t.delete condition).map fun r => (r.1, .ok r.2))
      fun _ n => .deleted n
  | help => .ok ⟨c, none, .ok .help⟩

end TableStore.Sql.Statement
