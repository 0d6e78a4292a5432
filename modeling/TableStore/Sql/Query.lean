import TableStore.Sql.Statement
import TableStore.Table

/-!
# Queries

What statements do to one table. A condition selects the rows whose value equals the literal, once
the literal is brought to the column's type; reading, changing and deleting select rows in the
same way.
-/
namespace TableStore.Table

open Sql

/-- The rows that a condition selects; without one, all of them. -/
def selector (t : Table) : Option Condition → Except Error (Row → Bool)
  | none => .ok fun _ => true
  | some w => do
    let column ← t.findColumn w.column
    let v ← column.convert w.value.value
    return fun r => r.holds column.name v

/-- The names of the columns that are asked for, as the table has them. -/
def resolve (t : Table) : Option (List String) → Except Error (List String)
  | none => .ok t.columnNames
  | some names => names.mapM fun n => do return (← t.findColumn n).name

/-- The values of a row under some names; where there is no cell there is nothing. -/
def project (names : List String) (r : Row) : List Value := names.map fun n => (r.get? n).getD .null

/-- The names of the columns asked for, and their values in each selected row. -/
def select (t : Table) (columns : Option (List String)) (condition : Option Condition) :
    Except Error (List String × List (List Value)) := do
  let names ← t.resolve columns
  let selects ← t.selector condition
  return (names, (t.rows.filter selects).map (project names))

/-- Appends a row of one value for each column. -/
def insert (t : Table) (values : List Literal) : Except Error Table :=
  if values.length = t.columns.length then
    t.addRow (t.columnNames.zip (values.map Literal.value))
  else .error (.ofSyntax (.wrongValueCount t.name t.columns.length values.length))

/-- The columns and values that assignments mean, after those that are already known. -/
def resolveAssignments (t : Table) (known : List (Column × Value)) :
    List Assignment → Except Error (List (Column × Value))
  | [] => .ok known
  | a :: as => do
    let column ← t.findColumn a.column
    if known.any fun k => k.1.name == column.name then
      throw (.ofValidation (.assignedTwice column.name))
    let v ← column.convert a.value.value
    resolveAssignments t (known ++ [(column, v)]) as

/-- Every value replaces the one in its column, in order, up to a column that the row lacks. -/
def assign (r : Row) : List (Column × Value) → Row × Except Error Unit
  | [] => (r, .ok ())
  | (c, v) :: values =>
    match r.set c.name v with
    | .ok r => assign r values
    | .error e => (r, .error e)

/-- The rows after the assignments in each selected one, and the number of those. A row that lacks
a column stops the work; what is done by then stays. -/
def assignRows (selects : Row → Bool) (values : List (Column × Value)) :
    List Row → List Row × Except Error Nat
  | [] => ([], .ok 0)
  | r :: rs =>
    if selects r then
      match assign r values with
      | (r, .ok ()) =>
        let rest := assignRows selects values rs
        (r :: rest.1, rest.2.map (· + 1))
      | (r, .error e) => (r :: rs, .error e)
    else
      let rest := assignRows selects values rs
      (r :: rest.1, rest.2)

/-- The table after the assignments in each selected row, and the number of those rows. -/
def update (t : Table) (assignments : List Assignment) (condition : Option Condition) :
    Except Error (Table × Except Error Nat) := do
  let values ← t.resolveAssignments [] assignments
  let selects ← t.selector condition
  let (rows, count) := assignRows selects values t.rows
  return ({ t with rows := rows }, count)

/-- The table without the selected rows, and the number of those rows. -/
def delete (t : Table) (condition : Option Condition) : Except Error (Table × Nat) := do
  let selects ← t.selector condition
  return (t.deleteRows selects, t.rows.countP selects)

end TableStore.Table
