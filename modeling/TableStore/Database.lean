import TableStore.Table

/-!
# Databases

A named list of tables in the order in which they were defined. Tables are looked up by their exact
name, without the white space around it.
-/
namespace TableStore

structure Database where
  name : String
  tables : List Table
  deriving DecidableEq

namespace Database

def make (name : String) : Except Error Database := do
  let name ← properName .database name
  return ⟨name, []⟩

def tableNames (d : Database) : List String := d.tables.map Table.name

def table? (d : Database) (name : String) : Option Table :=
  d.tables.find? fun t => t.name == Text.trim name

def noSuchTable (d : Database) (name : String) : Error :=
  .ofValidation (.noSuchTable (Text.trim name) d.name)

def table (d : Database) (name : String) : Except Error Table :=
  match d.table? name with
  | some t => .ok t
  | none => .error (d.noSuchTable name)

def createTable (d : Database) (name : String) (columns : List Column) : Except Error Database := do
  let t ← Table.make name columns
  if t.name ∈ d.tableNames then throw (.ofValidation (.tableExists t.name d.name))
  return { d with tables := d.tables ++ [t] }

/-- The database without the table, and the table. -/
def dropTable (d : Database) (name : String) : Except Error (Database × Table) := do
  let t ← d.table name
  return ({ d with tables := d.tables.eraseP fun u => u.name == t.name }, t)

/-- The table takes the place of the one of its name. -/
def replaceTable (d : Database) (t : Table) : Database :=
  { d with tables := d.tables.map fun u => if u.name = t.name then t else u }

/-- The two databases are equal as comparisons of values see it. -/
def equals (d e : Database) : Bool :=
  d.name == e.name && sameLists sameTables d.tables e.tables
where
  sameLists {α : Type} (same : α → α → Bool) : List α → List α → Bool
    | [], [] => true
    | x :: xs, y :: ys => same x y && sameLists same xs ys
    | _, _ => false
  sameCells (x y : String × Value) : Bool := x.1 == y.1 && x.2.equals y.2
  sameRows (r s : Row) : Bool := sameLists sameCells r.cells s.cells
  sameTables (t u : Table) : Bool :=
    t.name == u.name && t.columns == u.columns && sameLists sameRows t.rows u.rows

end Database

end TableStore
