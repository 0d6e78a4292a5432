import TableStore.Number.Decimal

/-!
# Numerals

Texts read as a sixty-four bit integer or as a binary64 number, with the reason when they are
neither.
-/
namespace TableStore

open Natural

inductive NumberFault where
  | emptyInteger
  | badDigit
  | tooLarge
  | tooSmall
  | emptyFloat
  | badFloat
  deriving DecidableEq

namespace NumberFault

def message : NumberFault → String
  | emptyInteger => "cannot parse integer from empty string"
  | badDigit => "invalid digit found in string"
  | tooLarge => "number too large to fit in target type"
  | tooSmall => "number too small to fit in target type"
  | emptyFloat => "cannot parse float from empty string"
  | badFloat => "invalid float literal"

end NumberFault

namespace Numeral

/-- The digits appended to a number of the given sign. The leftmost fault is reported. -/
def appendDigits (negative : Bool) (n : Nat) : List Char → Except NumberFault Int64
  | [] => .ok (Int64.ofInt (if negative then -Int.ofNat n else Int.ofNat n))
  | c :: cs =>
    let m := 10 * n + (c.toNat - '0'.toNat)
    if !c.isDigit then .error .badDigit
    else if negative then
      if 2 ^ (63 : Nat) < m then .error .tooSmall else appendDigits negative m cs
    else if 2 ^ (63 : Nat) ≤ m then .error .tooLarge else appendDigits negative m cs

/-- An optional sign and at least one digit. -/
def readInteger (s : String) : Except NumberFault Int64 :=
  if s.toList.isEmpty then .error .emptyInteger
  else match Decimal.takeSign s.toList with
    | (_, []) => .error .badDigit
    | (negative, ds) => appendDigits negative 0 ds

/-- The names of the numbers that no digits denote, in any case. -/
def readNamed (negative : Bool) (cs : List Char) : Option Binary64 :=
  let name := String.ofList (cs.map Char.toLower)
  if name == "inf" || name == "infinity" then some (.infinity negative)
  else if name == "nan" then some (.nan negative)
  else none

/-- The digits of an exponent count until they make `2 ^ 16` or more; those that follow do not. -/
def exponentOfDigits (ds : List Char) : Nat :=
  ds.foldl (fun n c => if n < 2 ^ (16 : Nat) then 10 * n + (c.toNat - '0'.toNat) else n) 0

/-- A numeral or a named number, with an optional sign. -/
def readFloat (s : String) : Except NumberFault Binary64 :=
  if s.toList.isEmpty then .error .emptyFloat
  else
    let (negative, cs) := Decimal.takeSign s.toList
    match Decimal.readUnsigned exponentOfDigits negative cs with
    | some d => .ok d.toBinary64
    | none =>
      match readNamed negative cs with
      | some x => .ok x
      | none => .error .badFloat

end Numeral

end TableStore
