import TableStore.Convert
import TableStore.Text.Blank

/-!
# Columns, rows and tables

A table has named, typed columns and rows that hold one cell for each column, in column order.
Values are brought to their column's type on the way in.
-/
namespace TableStore

/-- A name without the white space around it; nothing may be named by white space alone. -/
def properName (kind : Named) (name : String) : Except Error String :=
  let trimmed := Text.trim name
  if trimmed.isEmpty then .error (.ofValidation (.emptyName kind)) else .ok trimmed

structure Column where
  name : String
  type : DataType
  deriving DecidableEq

namespace Column

def make (name : String) (type : DataType) : Except Error Column := do
  let name ← properName .column name
  return ⟨name, type⟩

/-- The value brought to the column's type, and checked to be admitted by it. -/
def convert (c : Column) (v : Value) : Except Error Value :=
  match c.type.convert? v with
  | none => .error (.ofConversion (.unreadable v c.type (some c.name)))
  | some w =>
    if c.type.admits w then .ok w
    else .error (.ofConversion (.notAdmitted w c.name c.type))

end Column

/-- The cells of a row, each under the name of its column. -/
structure Row where
  cells : List (String × Value)
  deriving DecidableEq

namespace Row

def columnNames (r : Row) : List String := r.cells.map Prod.fst

def get? (r : Row) (column : String) : Option Value := r.cells.lookup column

/-- The first cell under the name gets the value. -/
def setCell (column : String) (v : Value) : List (String × Value) → Option (List (String × Value))
  | [] => none
  | (name, old) :: cells =>
    if name = column then some ((name, v) :: cells)
    else (setCell column v cells).map ((name, old) :: ·)

def set (r : Row) (column : String) (v : Value) : Except Error Row :=
  match setCell column v r.cells with
  | some cells => .ok ⟨cells⟩
  | none => .error (.ofValidation (.notInRow column))

/-- The value is brought to the column's type before it is stored. -/
def update (r : Row) (column : Column) (v : Value) : Except Error Row := do
  let w ← column.convert v
  r.set column.name w

/-- The value in a column is the given one; a row without the column has no such value. -/
def holds (r : Row) (column : String) (v : Value) : Bool :=
  match r.get? column with
  | some w => w.equals v
  | none => false

end Row

structure Table where
  name : String
  columns : List Column
  rows : List Row
  deriving DecidableEq

namespace Table

/-- The first column whose name an earlier one has. -/
def repeatedName? (seen : List String) : List Column → Option String
  | [] => none
  | c :: cs => if c.name ∈ seen then some c.name else repeatedName? (seen ++ [c.name]) cs

/-- A table without rows. -/
def make (name : String) (columns : List Column) : Except Error Table := do
  let name ← properName .table name
  if columns.isEmpty then throw (.ofValidation (.noColumns name))
  match repeatedName? [] columns with
  | some c => throw (.ofValidation (.repeatedColumn c name))
  | none => return ⟨name, columns, []⟩

def columnNames (t : Table) : List String := t.columns.map Column.name

/-- The first column of that name, whatever the case of either. -/
def findColumn (t : Table) (name : String) : Except Error Column :=
  match t.columns.find? fun c => Text.lower c.name == Text.lower name with
  | some c => .ok c
  | none => .error (.ofValidation (.noSuchColumn name t.name))

/-- The cells of a new row, one for each column; a column without a value holds nothing. -/
def makeCells (values : List (String × Value)) : List Column → Except Error (List (String × Value))
  | [] => .ok []
  | c :: cs => do
    let w ← c.convert ((values.lookup c.name).getD .null)
    let cells ← makeCells values cs
    return (c.name, w) :: cells

/-- A row of the named values; each name has to be that of a column. -/
def makeRow (t : Table) (values : List (String × Value)) : Except Error Row := do
  let cells ← makeCells values t.columns
  match values.find? fun v => v.1 ∉ t.columnNames with
  | some v => throw (.ofValidation (.noSuchColumn v.1 t.name))
  | none => return ⟨cells⟩

def addRow (t : Table) (values : List (String × Value)) : Except Error Table := do
  let r ← t.makeRow values
  return { t with rows := t.rows ++ [r] }

/-- The table without the rows that the test selects. -/
def deleteRows (t : Table) (selects : Row → Bool) : Table :=
  { t with rows := t.rows.filter fun r => !selects r }

end Table

end TableStore
