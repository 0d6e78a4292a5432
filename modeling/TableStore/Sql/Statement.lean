import TableStore.Value

/-!
# Statements

What a text of the language asks for. Names and literals are kept as they are written; the column
that receives a literal decides what it becomes.
-/
namespace TableStore.Sql

inductive Literal where
  | null
  | text (s : String)
  deriving DecidableEq

namespace Literal

def value : Literal → Value
  | null => .null
  | text s => .string s

end Literal

/-- The rows whose value in the column is the literal. -/
structure Condition where
  column : String
  value : Literal
  deriving DecidableEq

structure ColumnSpec where
  name : String
  type : DataType
  deriving DecidableEq

structure Assignment where
  column : String
  value : Literal
  deriving DecidableEq

inductive Statement where
  | createDatabase (name : String)
  | dropDatabase (name : String)
  | useDatabase (name : String)
  | showDatabases
  | createTable (name : String) (columns : List ColumnSpec)
  | dropTable (name : String)
  | showTables
  | insert (table : String) (values : List Literal)
  /-- Without a list of columns every column is selected. -/
  | select (table : String) (columns : Option (List String)) (condition : Option Condition)
  | update (table : String) (assignments : List Assignment) (condition : Option Condition)
  | delete (table : String) (condition : Option Condition)
  | help
  deriving DecidableEq

end TableStore.Sql
