/-!
# Binary64 numbers

Sixty-four bit floating-point words with their exact meaning. All magnitudes are natural numbers of
units of `2 ^ -1074`, so rounding, comparison and truncation are integer arithmetic.
-/
namespace TableStore

namespace Natural

/-- The power of natural numbers that is their own, also where a theory of powers has another. -/
scoped instance (priority := 2000) pow : Pow Nat Nat := instPowNat

end Natural

open Natural

structure Binary64 where
  bits : UInt64
  deriving DecidableEq

namespace Binary64

/-- The word without its sign; larger codes are larger magnitudes. -/
def code (x : Binary64) : Nat := x.bits.toNat % 2 ^ (63 : Nat)

def isNegative (x : Binary64) : Bool := 2 ^ (63 : Nat) ≤ x.bits.toNat

/-- The code of the infinities; every code above it is a NaN. -/
def infinityCode : Nat := 2047 * 2 ^ (52 : Nat)

def isFinite (x : Binary64) : Bool := x.code < infinityCode

def isNaN (x : Binary64) : Bool := infinityCode < x.code

def ofCode (negative : Bool) (code : Nat) : Binary64 :=
  ⟨UInt64.ofNat ((if negative then 2 ^ (63 : Nat) else 0) + code)⟩

def zero (negative : Bool) : Binary64 := ofCode negative 0

def infinity (negative : Bool) : Binary64 := ofCode negative infinityCode

def nan (negative : Bool) : Binary64 := ofCode negative (infinityCode + 2 ^ (51 : Nat))

/-- How often the unit `2 ^ -1074` is doubled to make the unit of the significand. -/
def exponent (x : Binary64) : Nat := x.code / 2 ^ (52 : Nat) - 1

def significand (x : Binary64) : Nat := x.code - x.exponent * 2 ^ (52 : Nat)

/-- How many units of `2 ^ -1074` make one. -/
def unitsInOne : Nat := 2 ^ (1074 : Nat)

/-- The magnitude of a finite number in units of `2 ^ -1074`. -/
def scaled (x : Binary64) : Nat := x.significand * 2 ^ x.exponent

/-- The quotient rounded to the nearest natural number, a half to the even neighbour. -/
def roundedQuotient (num den : Nat) : Nat :=
  let q := num / den
  let r := num % den
  if 2 * r < den || (2 * r == den && q % 2 == 0) then q else q + 1

/-- The code nearest to `num / den` units. The significand has fifty-three bits unless the unit is
already the smallest; one that rounds up to `2 ^ 53` carries into the next exponent. -/
def nearestCode (num den : Nat) : Nat :=
  let e := Nat.log2 (num / den) - 52
  min (e * 2 ^ (52 : Nat) + roundedQuotient num (den * 2 ^ e)) infinityCode

/-- The number nearest to `num / den`, ties to the even significand. -/
def ofRatio (negative : Bool) (num den : Nat) : Binary64 :=
  ofCode negative (nearestCode (num * unitsInOne) den)

def ofInt (i : Int) : Binary64 := ofRatio (i < 0) i.natAbs 1

/-- A finite number without its fraction. -/
def truncate (x : Binary64) : Int :=
  let n := Int.ofNat (x.scaled / unitsInOne)
  if x.isNegative then -n else n

/-- The same as a number again, which keeps the sign. What is not finite stays as it is. -/
def whole (x : Binary64) : Binary64 :=
  if x.isFinite then ofRatio x.isNegative (x.scaled / unitsInOne) 1 else x

/-- The integer without the fraction, or the nearer end of the range of sixty-four bits; a NaN is
taken for zero. By its code an infinity is beyond every integer of the range. -/
def toInt64 (x : Binary64) : Int64 := if x.isNaN then 0 else .ofIntClamp x.truncate

/-- Numeric equality: a NaN equals nothing, and the two zeros are equal. -/
def equals (x y : Binary64) : Bool :=
  !x.isNaN && !y.isNaN && (x == y || (x.code == 0 && y.code == 0))

/-- The code with the sign, by which numbers are in order. -/
def signedCode (x : Binary64) : Int := if x.isNegative then -x.code else x.code

/-- Numeric order: a NaN is neither above nor below anything. -/
def le (x y : Binary64) : Bool := !x.isNaN && !y.isNaN && x.signedCode ≤ y.signedCode

def lt (x y : Binary64) : Bool := !x.isNaN && !y.isNaN && x.signedCode < y.signedCode

theorem code_ofCode {c : Nat} (negative : Bool) (h : c < 2 ^ (63 : Nat)) :
    (ofCode negative c).code = c := by
  simp only [ofCode, code, UInt64.toNat_ofNat']
  split <;> omega

theorem isNegative_ofCode {c : Nat} (negative : Bool) (h : c < 2 ^ (63 : Nat)) :
    (ofCode negative c).isNegative = negative := by
  cases negative <;> simp only [ofCode, isNegative, UInt64.toNat_ofNat'] <;> simp <;> omega

theorem nearestCode_le (num den : Nat) : nearestCode num den ≤ infinityCode := Nat.min_le_right _ _

end Binary64

end TableStore
