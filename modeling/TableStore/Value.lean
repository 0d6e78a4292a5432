import TableStore.Number.Shortest
import TableStore.Text.Letter

/-!
# Values and data types

What a cell holds, the types a column can have, and how both are written.
-/
namespace TableStore

inductive DataType where
  | integer
  | double
  | string
  | boolean
  deriving DecidableEq

namespace DataType

def all : List DataType := [.integer, .double, .string, .boolean]

def name : DataType → String
  | integer => "INTEGER"
  | double => "DOUBLE"
  | string => "STRING"
  | boolean => "BOOLEAN"

/-- The type whose name is exactly the text. -/
def ofName? (s : String) : Option DataType := all.find? fun t => t.name == s

/-- The type that a word in a statement names; its case does not matter. -/
def ofWord? (s : String) : Option DataType := ofName? (Text.upper s)

theorem ofName?_name (t : DataType) : ofName? t.name = some t := by cases t <;> decide

end DataType

inductive Value where
  | null
  | boolean (b : Bool)
  | integer (i : Int64)
  | float (x : Binary64)
  | string (s : String)
  deriving DecidableEq

namespace Value

/-- Numbers from `0.0001` up to below `10 ^ 16` are written without an exponent; of two candidates
equally near the greater magnitude is taken. -/
def numberLayout : NumberLayout where
  leastPlain := -4
  greatestPlain := 15
  exponentPlus := ""
  tieGoesDown := fun _ => false

def floatText (x : Binary64) : String :=
  if x.isNaN then "NaN"
  else if x.isFinite then numberLayout.write x
  else if x.isNegative then "-inf"
  else "inf"

def booleanText (b : Bool) : String := if b then "true" else "false"

def integerText (i : Int64) : String :=
  let ds := Nat.toDigits 10 i.toInt.natAbs
  String.ofList (if i.toInt < 0 then '-' :: ds else ds)

/-- The text of a value as answers show it. -/
def text : Value → String
  | null => "NULL"
  | boolean b => booleanText b
  | integer i => integerText i
  | float x => floatText x
  | string s => s

/-- Equality of values in comparisons: numbers of one kind are equal when their numeric values are,
so a NaN equals nothing; otherwise the two are the same. -/
def equals : Value → Value → Bool
  | float x, float y => x.equals y
  | v, w => v == w

end Value

namespace DataType

/-- A value that a column of the type may hold. Nothing is always allowed, and a whole number stands
for a double. -/
def admits : DataType → Value → Bool
  | _, .null => true
  | integer, .integer _ => true
  | double, .float _ => true
  | double, .integer _ => true
  | string, .string _ => true
  | boolean, .boolean _ => true
  | _, _ => false

end DataType

end TableStore
