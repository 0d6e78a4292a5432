import TableStore.Number.Numeral
import TableStore.Sql.Token
import TableStore.Value

/-!
# Errors

Every way in which an operation fails, as a cause with what it is about, and the wording of each.
-/
namespace TableStore

/-- What is wrong with a statement. -/
inductive SyntaxError where
  | unterminatedString
  | endOfStatement
  | unknownCommand (got : Sql.Token)
  /-- A command is followed by no kind of object that it has. -/
  | unknownObject (command : Sql.Keyword) (got : Sql.Token)
  | expected (want got : Sql.Token)
  | expectedName (got : Sql.Token)
  | expectedValue (got : Sql.Token)
  | unexpected (got : Sql.Token)
  | unknownType (name column : String)
  | wrongValueCount (table : String) (columns values : Nat)
  deriving DecidableEq

/-- The kinds of things that have names. -/
inductive Named where
  | database
  | table
  | column
  deriving DecidableEq

inductive ValidationError where
  | emptyName (kind : Named)
  | noColumns (table : String)
  | repeatedColumn (column table : String)
  | tableExists (table database : String)
  | noSuchTable (table database : String)
  | repeatedTable (table database : String)
  | noSuchColumn (column table : String)
  | notInRow (column : String)
  | assignedTwice (column : String)
  | databaseExists (name : String)
  | noSuchDatabase (name : String)
  | unfitName (database : String)
  | noSelection
  deriving DecidableEq

inductive ConversionError where
  | badNumber (fault : NumberFault)
  | unreadable (value : Value) (type : DataType) (column : Option String)
  | notAdmitted (value : Value) (column : String) (type : DataType)
  deriving DecidableEq

/-- Why the storage refuses a call. -/
inductive StorageError where
  | refused (reason : String)
  | noSuchFile
  | fileExists
  | notFolder
  | isFolder
  | nameTooLong
  | zeroCharacter
  deriving DecidableEq

inductive Error where
  | ofSyntax (e : SyntaxError)
  | ofValidation (e : ValidationError)
  | ofConversion (e : ConversionError)
  | ofStorage (e : StorageError)
  /-- A stored text is no document. -/
  | noDocument
  deriving DecidableEq

namespace SyntaxError

/-- The kinds of object that a command has. -/
def objects : Sql.Keyword → String
  | .show => "DATABASES or TABLES"
  | _ => "DATABASE or TABLE"

def message : SyntaxError → String
  | unterminatedString => "unterminated string literal"
  | endOfStatement => "unexpected end of statement"
  | unknownCommand got => "unknown command " ++ got.text
  | unknownObject command got =>
    "expected " ++ objects command ++ " after " ++ command.spelling ++ ", got " ++ got.text
  | expected want got => "expected " ++ want.text ++ ", got " ++ got.text
  | expectedName got => "expected a name, got " ++ got.text
  | expectedValue got => "expected a value, got " ++ got.text
  | unexpected got => "unexpected token " ++ got.text
  | unknownType name column =>
    "invalid data type " ++ name ++ " for column " ++ column ++ ", supported types: " ++
      ", ".intercalate (DataType.all.map DataType.name)
  | wrongValueCount table columns values =>
    "table " ++ table ++ " has " ++ toString columns ++ " columns but " ++ toString values ++
      " values were supplied"

end SyntaxError

namespace Named

def text : Named → String
  | database => "database"
  | table => "table"
  | column => "column"

end Named

namespace ValidationError

def message : ValidationError → String
  | emptyName kind => kind.text ++ " name cannot be empty"
  | noColumns table => "table " ++ table ++ " has no columns"
  | repeatedColumn column table => "duplicate column name " ++ column ++ " in table " ++ table
  | tableExists table database =>
    "table " ++ table ++ " already exists in database " ++ database
  | noSuchTable table database =>
    "table " ++ table ++ " does not exist in database " ++ database
  | repeatedTable table database => "duplicate table " ++ table ++ " in database " ++ database
  | noSuchColumn column table => "column " ++ column ++ " not found in table " ++ table
  | notInRow column => "column " ++ column ++ " not present in row"
  | assignedTwice column => "column " ++ column ++ " assigned more than once"
  | databaseExists name => "database " ++ name ++ " already exists"
  | noSuchDatabase name => "database " ++ name ++ " does not exist"
  | unfitName database => "invalid database name " ++ database
  | noSelection => "no database selected, use 'USE <database_name>;' first"

end ValidationError

namespace ConversionError

def message : ConversionError → String
  | badNumber fault => fault.message
  | unreadable value type column =>
    "cannot convert '" ++ value.text ++ "' to " ++ type.name ++
      match column with
      | some c => " for column '" ++ c ++ "'"
      | none => ""
  | notAdmitted value column type =>
    "invalid value '" ++ value.text ++ "' for column '" ++ column ++ "' of type " ++ type.name

end ConversionError

namespace StorageError

def message : StorageError → String
  | refused reason => reason
  | noSuchFile => "No such file or directory (os error 2)"
  | fileExists => "File exists (os error 17)"
  | notFolder => "Not a directory (os error 20)"
  | isFolder => "Is a directory (os error 21)"
  | nameTooLong => "File name too long (os error 36)"
  | zeroCharacter => "file name contained an unexpected NUL byte"

end StorageError

namespace Error

/-- The text of an error: its kind, then its cause. -/
def text : Error → String
  | ofSyntax e => "syntax error: " ++ e.message
  | ofValidation e => "validation error: " ++ e.message
  | ofConversion e => "conversion error: " ++ e.message
  | ofStorage e => "io error: " ++ e.message
  | noDocument => "internal error: the text is no document"

end Error

end TableStore
