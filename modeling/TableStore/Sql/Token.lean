import TableStore.Text.Letter

/-!
# Tokens

The words and signs of a statement. A word is a keyword when its capital form is one.
-/
namespace TableStore.Sql

inductive Keyword where
  | create
  | drop
  | use
  | «show»
  | help
  | database
  | databases
  | table
  | tables
  | insert
  | into
  | values
  | select
  | «from»
  | «where»
  | update
  | set
  | delete
  | null
  deriving DecidableEq

namespace Keyword

def all : List Keyword :=
  [.create, .drop, .use, .show, .help, .database, .databases, .table, .tables, .insert, .into,
   .values, .select, .from, .where, .update, .set, .delete, .null]

def spelling : Keyword → String
  | create => "CREATE"
  | drop => "DROP"
  | use => "USE"
  | «show» => "SHOW"
  | help => "HELP"
  | database => "DATABASE"
  | databases => "DATABASES"
  | table => "TABLE"
  | tables => "TABLES"
  | insert => "INSERT"
  | into => "INTO"
  | values => "VALUES"
  | select => "SELECT"
  | «from» => "FROM"
  | «where» => "WHERE"
  | update => "UPDATE"
  | set => "SET"
  | delete => "DELETE"
  | null => "NULL"

def ofWord? (word : String) : Option Keyword :=
  all.find? fun k => k.spelling == Text.upper word

end Keyword

inductive Token where
  | keyword (k : Keyword)
  | word (s : String)
  | quoted (s : String)
  | openParen
  | closeParen
  | comma
  | semicolon
  | asterisk
  | equal
  deriving DecidableEq

namespace Token

/-- A token as messages show it. -/
def text : Token → String
  | keyword k => k.spelling
  | word s => s
  | quoted s => "\"" ++ s ++ "\""
  | openParen => "("
  | closeParen => ")"
  | comma => ","
  | semicolon => ";"
  | asterisk => "*"
  | equal => "="

/-- The sign that a character is. -/
def ofSign? : Char → Option Token
  | '(' => some .openParen
  | ')' => some .closeParen
  | ',' => some .comma
  | ';' => some .semicolon
  | '*' => some .asterisk
  | '=' => some .equal
  | _ => none

def ofWord (s : String) : Token :=
  match Keyword.ofWord? s with
  | some k => .keyword k
  | none => .word s

end Token

end TableStore.Sql
