import TableStore.Number.Decimal

/-!
# Shortest decimal text

A number is written with the fewest digits that read back as the same number. A layout says where
those digits go: which magnitudes are written without an exponent, how an exponent is written, and
which of two equally near candidates is taken.
-/
namespace TableStore

open Natural

/-- How the digits of a number are laid out. -/
structure NumberLayout where
  /-- The smallest decimal exponent that is written without an exponent mark. -/
  leastPlain : Int
  /-- The largest one. -/
  greatestPlain : Int
  /-- The sign in front of an exponent that is not negative. -/
  exponentPlus : String
  /-- Whether the lower of two candidates that are equally near is taken. -/
  tieGoesDown : Nat → Bool

namespace Binary64

/-- The exponent `p` for which `10 ^ p ≤ num / den < 10 ^ (p + 1)`, as far down as `-400`. -/
def decade (num den : Nat) : Int :=
  if den ≤ num then Int.ofNat (Nat.toDigits 10 (num / den)).length - 1
  else match (List.range 400).find? fun k => den ≤ num * 10 ^ (k + 1) with
    | some k => -(Int.ofNat k + 1)
    | none => -400

/-- The numerals of the two neighbours of `num / den` among the multiples of `10 ^ power`, the
nearer one first. -/
def neighbours (tieGoesDown : Nat → Bool) (num den : Nat) (power : Int) : List Nat :=
  let (n, d) := match power with
    | .ofNat k => (num, den * 10 ^ k)
    | .negSucc k => (num * 10 ^ (k + 1), den)
  let q := n / d
  let r := n % d
  if r = 0 then [q]
  else if 2 * r < d || (2 * r == d && tieGoesDown q) then [q, q + 1]
  else [q + 1, q]

/-- The nearest candidate that reads back as the number, among the multiples of `10 ^ power`. -/
def candidate? (tieGoesDown : Nat → Bool) (x : Binary64) (power : Int) : Option Decimal :=
  ((neighbours tieGoesDown x.scaled unitsInOne power).map
    fun n => ⟨x.isNegative, n, power⟩).find? fun d => d.toBinary64 == x

/-- The exact value, whose digits end at the place `10 ^ -1074`. -/
def exactDecimal (x : Binary64) : Decimal := ⟨x.isNegative, x.scaled * 5 ^ (1074 : Nat), -1074⟩

/-- The fewest digits that read back. Seventeen always suffice; the exact value reads back too. -/
def shortest (tieGoesDown : Nat → Bool) (x : Binary64) : Decimal :=
  let p := decade x.scaled unitsInOne
  ((List.range 17).findSome? fun k => candidate? tieGoesDown x (p - Int.ofNat k)).getD
    x.exactDecimal

end Binary64

namespace NumberLayout

/-- The significant digits and the decimal exponent of the first of them. -/
def significant (d : Decimal) : List Char × Int :=
  let ds := Nat.toDigits 10 d.digits
  let kept := (ds.reverse.dropWhile (· == '0')).reverse
  (kept, d.power + Int.ofNat ds.length - 1)

def zeros (n : Nat) : List Char := List.replicate n '0'

/-- The digits without an exponent, the first of them at the place `10 ^ p`. A point always has
digits on both sides. -/
def plain (ds : List Char) (p : Int) : List Char :=
  match p with
  | .negSucc k => '0' :: '.' :: (zeros k ++ ds)
  | .ofNat k =>
    if ds.length ≤ k + 1 then ds ++ zeros (k + 1 - ds.length) ++ ['.', '0']
    else ds.take (k + 1) ++ '.' :: ds.drop (k + 1)

/-- One digit, the others after a point, and the exponent. -/
def withExponent (plus : String) (ds : List Char) (p : Int) : List Char :=
  let mantissa := match ds with
    | [] => ['0']
    | [d] => [d]
    | d :: rest => d :: '.' :: rest
  let mark := if p < 0 then ['-'] else plus.toList
  mantissa ++ 'e' :: (mark ++ Nat.toDigits 10 p.natAbs)

/-- The digits of a number whose first digit stands at the place `10 ^ p`. -/
def layOut (l : NumberLayout) (ds : List Char) (p : Int) : List Char :=
  if l.leastPlain ≤ p && p ≤ l.greatestPlain then plain ds p
  else withExponent l.exponentPlus ds p

/-- A finite number without its sign. -/
def writeUnsigned (l : NumberLayout) (x : Binary64) : List Char :=
  if x.scaled = 0 then ['0', '.', '0']
  else
    let (ds, p) := significant (x.shortest l.tieGoesDown)
    l.layOut ds p

/-- The text of a finite number. -/
def write (l : NumberLayout) (x : Binary64) : String :=
  String.ofList (if x.isNegative then '-' :: l.writeUnsigned x else l.writeUnsigned x)

end NumberLayout

end TableStore
