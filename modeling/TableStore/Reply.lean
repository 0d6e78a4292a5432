import TableStore.Value

/-!
# Replies

What a statement that succeeds answers, and its text.
-/
namespace TableStore

inductive Reply where
  | databaseCreated (name : String)
  | databaseDropped (name : String)
  | databaseSelected (name : String)
  | databases (names : List String)
  | tableCreated (table database : String)
  | tableDropped (table database : String)
  | tables (database : String) (names : List String)
  | inserted (table : String) (count : Nat)
  | selected (columns : List String) (rows : List (List Value))
  | updated (count : Nat)
  | deleted (count : Nat)
  | help
  deriving DecidableEq

namespace Reply

def helpText : String :=
  "Available commands (each statement on one line, ending with ';'):\n" ++
  "  Database management:\n" ++
  "    CREATE DATABASE <name>;\n" ++
  "    DROP DATABASE <name>;\n" ++
  "    USE <name>;\n" ++
  "    SHOW DATABASES;\n" ++
  "  Table management:\n" ++
  "    CREATE TABLE <name> (<col> <type>, ...);\n" ++
  "      supported types: INTEGER, DOUBLE, STRING, BOOLEAN\n" ++
  "    DROP TABLE <name>;\n" ++
  "    SHOW TABLES;\n" ++
  "  Data manipulation:\n" ++
  "    INSERT INTO <table> VALUES (<value>, ...);\n" ++
  "      one value per column in table order; quote strings with \"...\", NULL for no value\n" ++
  "    SELECT * | <col>, ... FROM <table> [WHERE <col> = <value>];\n" ++
  "    UPDATE <table> SET <col> = <value>, ... [WHERE <col> = <value>];\n" ++
  "    DELETE FROM <table> [WHERE <col> = <value>];\n" ++
  "  Utility:\n" ++
  "    HELP;\n" ++
  "    EXIT; or QUIT;"

def countRows (n : Nat) : String := toString n ++ if n = 1 then " row" else " rows"

/-- Each name on a line of its own after the heading. -/
def listing (heading : String) (names : List String) : String :=
  heading ++ String.join (names.map ("\n" ++ ·))

/-- Cells side by side on one line. -/
def line (cells : List String) : String := "\t|\t".intercalate cells

/-- As long as the names of the columns in bytes, with room for what is between them. -/
def rule (columns : List String) : String :=
  String.join (columns.map fun c => String.ofList (List.replicate (c.utf8ByteSize + 3) '-'))

def table (columns : List String) (rows : List (List Value)) : String :=
  line columns ++ "\n" ++ rule columns ++
    if rows.isEmpty then "\n0 rows returned."
    else String.join (rows.map fun r => "\n" ++ line (r.map Value.text)) ++
      "\n(" ++ countRows rows.length ++ ")"

def affected (verb : String) (n : Nat) : String :=
  if n = 0 then "0 rows affected." else countRows n ++ " " ++ verb ++ "."

def text : Reply → String
  | databaseCreated name => "Database '" ++ name ++ "' created."
  | databaseDropped name => "Database '" ++ name ++ "' dropped."
  | databaseSelected name => "Now using database '" ++ name ++ "'."
  | databases [] => "No databases found."
  | databases names => listing "Databases:" names
  | tableCreated table database =>
    "Table '" ++ table ++ "' created in database '" ++ database ++ "'."
  | tableDropped table database =>
    "Table '" ++ table ++ "' dropped from database '" ++ database ++ "'."
  | tables database [] => "No tables found in database '" ++ database ++ "'."
  | tables database names => listing ("Tables in database '" ++ database ++ "':") names
  | inserted table count => countRows count ++ " inserted into '" ++ table ++ "'."
  | selected columns rows => table columns rows
  | updated count => affected "updated" count
  | deleted count => affected "deleted" count
  | help => helpText

end Reply

end TableStore
