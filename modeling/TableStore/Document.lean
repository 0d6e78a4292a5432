import TableStore.Database
import TableStore.Json.Read
import TableStore.Json.Write
import TableStore.Number.Numeral
import TableStore.Number.NumeralReader
import TableStore.Text.Position

/-!
# Documents

A database is stored as one JSON text. A structure is an object with its fields in any order, or
an array of its fields in their order; fields that a structure does not have are passed over.
Everything is judged in the order of the text: a table when its own text ends, a database when its
does.
-/
namespace TableStore

namespace Value

/-- Numbers from `0.00001` up to below `10 ^ 16` are written without an exponent, a plus sign stands
before the others, and of two candidates equally near the even one is taken. -/
def documentLayout : NumberLayout where
  leastPlain := -5
  greatestPlain := 15
  exponentPlus := "+"
  tieGoesDown := fun n => n % 2 == 0

/-- A number that is not finite has no JSON form but null. -/
def toJson : Value → Json
  | null => .null
  | boolean b => .boolean b
  | integer i => .number (integerText i)
  | float x => if x.isFinite then .number (documentLayout.write x) else .null
  | string s => .string (some s)

/-- A numeral without point and exponent is an integer if it fits; minus zero and all others are
read as binary64 numbers, which have to be finite. -/
def ofNumeral? (reader : NumeralReader) (numeral : String) : Option Value :=
  if numeral != "-0" && numeral.toList.all fun c => c.isDigit || c == '-' then
    match Numeral.readInteger numeral with
    | .ok i => some (.integer i)
    | .error _ => float?
  else float?
where
  float? : Option Value := ((reader.read? numeral).filter Binary64.isFinite).map .float

end Value

namespace Document

def ofCell (cell : String × Value) : JsonText × Json := (some cell.1, cell.2.toJson)

def ofRow (r : Row) : Json := .object (r.cells.map ofCell)

def ofColumn (c : Column) : Json :=
  .object [(some "name", .string (some c.name)), (some "type", .string (some c.type.name))]

def ofTable (t : Table) : Json :=
  .object [(some "name", .string (some t.name)), (some "columns", .array (t.columns.map ofColumn)),
    (some "rows", .array (t.rows.map ofRow))]

def ofDatabase (d : Database) : Json :=
  .object [(some "name", .string (some d.name)),
    (some "tables", .object (d.tables.map fun t => (some t.name, ofTable t)))]

/-- The text under which a database is stored. -/
def text (d : Database) : String := (ofDatabase d).pretty

/-- Goes through the members of an object in order. -/
def foldMembers {σ : Type} (step : σ → String → Json → Except Error σ) :
    σ → List (JsonText × Json) → Except Error σ
  | s, [] => .ok s
  | s, (some k, j) :: ms => do foldMembers step (← step s k j) ms
  | _, (none, _) :: _ => .error .noDocument

/-- A field that a structure does not have only has to be JSON. -/
def passOver {σ : Type} (s : σ) (j : Json) : Except Error σ :=
  if j.isWhole then .ok s else .error .noDocument

/-- A field may be given once. -/
def once {α : Type} (old : Option α) (new : Except Error α) : Except Error (Option α) :=
  match old with
  | some _ => .error .noDocument
  | none => new.map some

/-- The last value under each key, at the place of the first. -/
def putEntry {α : Type} (key : String) (x : α) : List (String × α) → List (String × α)
  | [] => [(key, x)]
  | (k, y) :: es => if k = key then (key, x) :: es else (k, y) :: putEntry key x es

/-- The entries of an object that is read as a map. -/
def readEntries {α : Type} (value : Json → Except Error α) :
    Json → Except Error (List (String × α))
  | .object ms => foldMembers (fun es k j => do return putEntry k (← value j) es) [] ms
  | _ => .error .noDocument

def readItems {α : Type} (item : Json → Except Error α) : Json → Except Error (List α)
  | .array js => js.mapM item
  | _ => .error .noDocument

def readText : Json → Except Error String
  | .string (some s) => .ok s
  | _ => .error .noDocument

def readType : Json → Except Error DataType
  | .string (some s) | .object [(some s, .null)] =>
    match DataType.ofName? s with
    | some t => .ok t
    | none => .error .noDocument
  | _ => .error .noDocument

section Reading

variable (reader : NumeralReader)

def readValue : Json → Except Error Value
  | .null => .ok .null
  | .boolean b => .ok (.boolean b)
  | .number n =>
    match Value.ofNumeral? reader n with
    | some v => .ok v
    | none => .error .noDocument
  | .string (some s) => .ok (.string s)
  | _ => .error .noDocument

def readRow : Json → Except Error (List (String × Value)) := readEntries (readValue reader)

structure ColumnFields where
  name : Option String := none
  type : Option DataType := none

namespace ColumnFields

def set (f : ColumnFields) (key : String) (j : Json) : Except Error ColumnFields :=
  if key = "name" then do return { f with name := ← once f.name (readText j) }
  else if key = "type" then do return { f with type := ← once f.type (readType j) }
  else passOver f j

end ColumnFields

/-- A column as it is written; its name is judged with its table. -/
def readColumn : Json → Except Error (String × DataType)
  | .object ms => do
    let f ← foldMembers ColumnFields.set {} ms
    match f.name, f.type with
    | some n, some t => return (n, t)
    | _, _ => throw .noDocument
  | .array [n, t] => do return (← readText n, ← readType t)
  | _ => .error .noDocument

/-- A row in a table's column order for each list of entries. -/
def makeTable (name : String) (columns : List (String × DataType))
    (rows : List (List (String × Value))) : Except Error Table := do
  let columns ← columns.mapM fun c => Column.make c.1 c.2
  let t ← Table.make name columns
  let rows ← rows.mapM t.makeRow
  return { t with rows := rows }

structure TableFields where
  name : Option String := none
  columns : Option (List (String × DataType)) := none
  rows : Option (List (List (String × Value))) := none

namespace TableFields

def set (f : TableFields) (key : String) (j : Json) : Except Error TableFields :=
  if key = "name" then do return { f with name := ← once f.name (readText j) }
  else if key = "columns" then do
    return { f with columns := ← once f.columns (readItems readColumn j) }
  else if key = "rows" then do
    return { f with rows := ← once f.rows (readItems (readRow reader) j) }
  else passOver f j

end TableFields

def readTable : Json → Except Error Table
  | .object ms => do
    let f ← foldMembers (TableFields.set reader) {} ms
    match f.name, f.columns with
    | some n, some cs => makeTable n cs (f.rows.getD [])
    | _, _ => throw .noDocument
  | .array [n, cs] => do makeTable (← readText n) (← readItems readColumn cs) []
  | .array [n, cs, rs] => do
    makeTable (← readText n) (← readItems readColumn cs) (← readItems (readRow reader) rs)
  | _ => .error .noDocument

/-- Appends a table whose name is new. -/
def addTable (d : Database) (t : Table) : Except Error Database :=
  if t.name ∈ d.tableNames then .error (.ofValidation (.repeatedTable t.name d.name))
  else .ok { d with tables := d.tables ++ [t] }

def makeDatabase (name : String) (tables : List (String × Table)) : Except Error Database := do
  let d ← Database.make name
  tables.foldlM (fun d t => addTable d t.2) d

structure DatabaseFields where
  name : Option String := none
  tables : Option (List (String × Table)) := none

namespace DatabaseFields

def set (f : DatabaseFields) (key : String) (j : Json) : Except Error DatabaseFields :=
  if key = "name" then do return { f with name := ← once f.name (readText j) }
  else if key = "tables" then do
    return { f with tables := ← once f.tables (readEntries (readTable reader) j) }
  else passOver f j

end DatabaseFields

def readDatabase : Json → Except Error Database
  | .object ms => do
    let f ← foldMembers (DatabaseFields.set reader) {} ms
    match f.name with
    | some n => makeDatabase n (f.tables.getD [])
    | none => throw .noDocument
  | .array [n] => do makeDatabase (← readText n) []
  | .array (n :: ts :: more) => do
    let n ← readText n
    let ts ← readEntries (readTable reader) ts
    if more.isEmpty then makeDatabase n ts else throw .noDocument
  | _ => .error .noDocument

end Reading

/-- The database that is all of a text. -/
def load (text : String) (reader : NumeralReader := .exact) : Except Error Database := do
  let (j, goesOn) := Json.read text
  let d ← readDatabase reader j
  if goesOn then throw .noDocument else return d

/-- What is wrong with a text that cannot be loaded, without the place. A message that ends with a
name which ends like a position is cut there too: such an ending is taken for the place. -/
def complaint (e : Error) : String := Text.dropPosition e.text

end Document

end TableStore
