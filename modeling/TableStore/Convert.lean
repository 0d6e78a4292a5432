import TableStore.Error
import TableStore.Number.Numeral

/-!
# Conversion

Bringing a value to a data type. Text is read as a literal, numbers are cut or widened, and
everything has a text. Nothing stays nothing.
-/
namespace TableStore.DataType

/-- A number without its fraction, if it is in the range of sixty-four bits. As a number the largest
integer is rounded up to `2 ^ 63`, the first that is out of the range. -/
def integerOfFloat? (x : Binary64) : Option Int64 :=
  let n := x.whole
  if n.lt (.ofInt Int64.maxValue.toInt) && (Binary64.ofInt Int64.minValue.toInt).le n then
    some n.toInt64
  else none

def booleanOfText? (s : String) : Option Bool :=
  if Text.lower s == "true" then some true
  else if Text.lower s == "false" then some false
  else none

def floatOfText? (s : String) : Option Binary64 :=
  (Numeral.readFloat s).toOption.filter Binary64.isFinite

def convert? : DataType → Value → Option Value
  | _, .null => some .null
  | integer, .integer i => some (.integer i)
  | integer, .float x => (integerOfFloat? x).map .integer
  | integer, .string s => (Numeral.readInteger s).toOption.map .integer
  | double, .integer i => some (.float (.ofInt i.toInt))
  | double, .float x => some (.float x)
  | double, .string s => (floatOfText? s).map .float
  | string, v => some (.string v.text)
  | boolean, .boolean b => some (.boolean b)
  | boolean, .string s => (booleanOfText? s).map .boolean
  | _, _ => none

def convert (t : DataType) (v : Value) : Except Error Value :=
  match t.convert? v with
  | some w => .ok w
  | none => .error (.ofConversion (.unreadable v t none))

end TableStore.DataType
