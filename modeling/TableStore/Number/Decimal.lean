import TableStore.Number.Binary64

/-!
# Decimals

Decimal numerals as a sign, digits and a power of ten, their binary64 value, and how they are read:
digits with an optional point among them, at least one digit, and an optional exponent.
-/
namespace TableStore

open Natural

/-- The number `± digits · 10 ^ power`. -/
structure Decimal where
  negative : Bool
  digits : Nat
  power : Int
  deriving DecidableEq

namespace Decimal

/-- The nearest binary64 number. Digits are at least one unless zero, and ten exceeds eight, so the
two guards only spare the arithmetic for numbers beyond the range. -/
def toBinary64 (d : Decimal) : Binary64 :=
  if d.digits = 0 then .zero d.negative
  else if 310 < d.power then .infinity d.negative
  else if Int.ofNat (Nat.log2 d.digits) + 1 + 3 * d.power < -1075 then .zero d.negative
  else match d.power with
    | .ofNat n => .ofRatio d.negative (d.digits * 10 ^ n) 1
    | .negSucc n => .ofRatio d.negative d.digits (10 ^ (n + 1))

/-- A sign at the front, if there is one. -/
def takeSign : List Char → Bool × List Char
  | '-' :: cs => (true, cs)
  | '+' :: cs => (false, cs)
  | cs => (false, cs)

def natOfDigits (ds : List Char) : Nat := Nat.ofDigitChars 10 ds 0

/-- The exponent that is all of the text, given what its digits mean; no text is the exponent
zero. -/
def readExponent (magnitude : List Char → Nat) : List Char → Option Int
  | [] => some 0
  | c :: cs =>
    if c = 'e' ∨ c = 'E' then
      let (negative, ds) := takeSign cs
      if !ds.isEmpty && ds.all Char.isDigit then
        let n := Int.ofNat (magnitude ds)
        some (if negative then -n else n)
      else none
    else none

/-- The digits after a point at the front, if there is one. -/
def takeFraction : List Char → List Char × List Char
  | '.' :: cs => cs.span Char.isDigit
  | cs => ([], cs)

/-- A numeral without its sign that is all of the text. -/
def readUnsigned (magnitude : List Char → Nat) (negative : Bool) (cs : List Char) :
    Option Decimal :=
  let (whole, rest) := cs.span Char.isDigit
  let (fraction, rest) := takeFraction rest
  if whole.isEmpty && fraction.isEmpty then none
  else (readExponent magnitude rest).map fun e =>
    ⟨negative, natOfDigits (whole ++ fraction), e - Int.ofNat fraction.length⟩

def read (cs : List Char) : Option Decimal :=
  let (negative, rest) := takeSign cs
  readUnsigned natOfDigits negative rest

end Decimal

end TableStore
