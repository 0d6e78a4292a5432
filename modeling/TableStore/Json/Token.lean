import TableStore.Json.Basic
import TableStore.Number.Decimal

/-!
# JSON tokens

The signs, words, numbers and strings of a JSON text, in order, up to the first place where there is
none of these.
-/
namespace TableStore.Json

inductive Token where
  | openBrace
  | closeBrace
  | openBracket
  | closeBracket
  | comma
  | colon
  | null
  | boolean (b : Bool)
  | number (numeral : String)
  | string (s : JsonText)
  | bad
  deriving DecidableEq

def isSpace (c : Char) : Bool := c == ' ' || c == '\t' || c == '\n' || c == '\r'

def isHigh (unit : Nat) : Bool := 0xD800 ≤ unit && unit ≤ 0xDBFF

def isLow (unit : Nat) : Bool := 0xDC00 ≤ unit && unit ≤ 0xDFFF

def hexDigit? (c : Char) : Option Nat :=
  if c.isDigit then some (c.toNat - '0'.toNat)
  else if 'a' ≤ c ∧ c ≤ 'f' then some (c.toNat - 'a'.toNat + 10)
  else if 'A' ≤ c ∧ c ≤ 'F' then some (c.toNat - 'A'.toNat + 10)
  else none

def hexDigits? (a b c d : Char) : Option Nat := do
  return (((← hexDigit? a) * 16 + (← hexDigit? b)) * 16 + (← hexDigit? c)) * 16 + (← hexDigit? d)

/-- The character that a backslash and a letter stand for. -/
def escaped? : Char → Option Char
  | '"' => some '"'
  | '\\' => some '\\'
  | '/' => some '/'
  | 'b' => some '\x08'
  | 'f' => some '\x0C'
  | 'n' => some '\n'
  | 'r' => some '\r'
  | 't' => some '\t'
  | _ => none

/-- The code units of a string whose opening quote is already read, and what follows its closing
quote. A character that is written plainly counts as one unit. -/
def readUnits : List Char → Option (List Nat × List Char)
  | [] => none
  | '"' :: rest => some ([], rest)
  | '\\' :: 'u' :: a :: b :: c :: d :: rest => do
    let unit ← hexDigits? a b c d
    let r ← readUnits rest
    return (unit :: r.1, r.2)
  | '\\' :: c :: rest => do
    let e ← escaped? c
    let r ← readUnits rest
    return (e.toNat :: r.1, r.2)
  | c :: rest =>
    if c.toNat < 0x20 || c == '\\' then none
    else do
      let r ← readUnits rest
      return (c.toNat :: r.1, r.2)

/-- The characters that code units stand for, unless half of one stands alone. -/
def joinUnits : List Nat → Option (List Char)
  | [] => some []
  | [unit] => if isHigh unit || isLow unit then none else some [Char.ofNat unit]
  | unit :: next :: rest =>
    if isHigh unit then
      if isLow next then
        (joinUnits rest).map
          (Char.ofNat (0x10000 + (unit - 0xD800) * 0x400 + (next - 0xDC00)) :: ·)
      else none
    else if isLow unit then none
    else (joinUnits (next :: rest)).map (Char.ofNat unit :: ·)

def isNumeralChar (c : Char) : Bool :=
  c.isDigit || c == '-' || c == '+' || c == '.' || c == 'e' || c == 'E'

/-- The digits in front of the point: a zero stands there alone. -/
def isWholePart : List Char → Bool
  | [] => false
  | ['0'] => true
  | c :: _ => c != '0'

/-- A point with digits after it, if there is a point, and an exponent, if there is one. -/
def isNumeralTail : List Char → Bool
  | '.' :: cs =>
    !(cs.takeWhile Char.isDigit).isEmpty &&
      (Decimal.readExponent Decimal.natOfDigits (cs.dropWhile Char.isDigit)).isSome
  | cs => (Decimal.readExponent Decimal.natOfDigits cs).isSome

def isUnsignedNumeral (cs : List Char) : Bool :=
  isWholePart (cs.takeWhile Char.isDigit) && isNumeralTail (cs.dropWhile Char.isDigit)

def isNumeral : List Char → Bool
  | '-' :: cs => isUnsignedNumeral cs
  | cs => isUnsignedNumeral cs

/-- The sign that a character is. -/
def ofSign? : Char → Option Token
  | '\x7b' => some .openBrace
  | '\x7d' => some .closeBrace
  | '[' => some .openBracket
  | ']' => some .closeBracket
  | ',' => some .comma
  | ':' => some .colon
  | _ => none

/-- A number is as long as the characters that numbers are made of. -/
def numberToken (run : List Char) : Token :=
  if isNumeral run then .number (String.ofList run) else .bad

/-- The token that starts with the character, and what follows it. -/
def firstToken (c : Char) (cs : List Char) : Token × List Char :=
  if c = '"' then
    match readUnits cs with
    | some (units, rest) => (.string ((joinUnits units).map String.ofList), rest)
    | none => (.bad, [])
  else if isNumeralChar c then
    (numberToken (c :: cs.takeWhile isNumeralChar), cs.dropWhile isNumeralChar)
  else match ofSign? c with
    | some t => (t, cs)
    | none =>
      match c, cs with
      | 'n', 'u' :: 'l' :: 'l' :: rest => (.null, rest)
      | 't', 'r' :: 'u' :: 'e' :: rest => (.boolean true, rest)
      | 'f', 'a' :: 'l' :: 's' :: 'e' :: rest => (.boolean false, rest)
      | _, _ => (.bad, [])

theorem length_readUnits_le {cs rest : List Char} {units : List Nat}
    (h : readUnits cs = some (units, rest)) : rest.length ≤ cs.length := by
  fun_induction readUnits cs generalizing units with
  | case1 => cases h
  | case2 => cases h; simp
  | case3 a b c d r ih =>
    simp only [Option.bind_eq_bind, Option.bind_eq_some_iff] at h
    obtain ⟨u, _, p, hp, h⟩ := h
    cases h
    have := ih hp
    simp only [List.length_cons]
    omega
  | case4 c r _ ih =>
    simp only [Option.bind_eq_bind, Option.bind_eq_some_iff] at h
    obtain ⟨u, _, p, hp, h⟩ := h
    cases h
    have := ih hp
    simp only [List.length_cons]
    omega
  | case5 => cases h
  | case6 c r _ _ _ _ ih =>
    simp only [Option.bind_eq_bind, Option.bind_eq_some_iff] at h
    obtain ⟨p, hp, h⟩ := h
    cases h
    have := ih hp
    simp only [List.length_cons]
    omega

theorem length_firstToken_le (c : Char) (cs : List Char) :
    (firstToken c cs).2.length ≤ cs.length := by
  unfold firstToken
  split
  · split
    · rename_i h
      exact length_readUnits_le h
    · simp
  · split
    · exact (List.dropWhile_sublist _).length_le
    · split
      · exact Nat.le_refl _
      · split <;> simp <;> omega

/-- The tokens of a text; the last of them is bad when the text is not all tokens. -/
def tokens (cs : List Char) : List Token :=
  match h : cs.dropWhile isSpace with
  | [] => []
  | c :: rest =>
    have : (firstToken c rest).2.length < cs.length := by
      have h1 := (List.dropWhile_sublist isSpace (l := cs)).length_le
      have h2 := length_firstToken_le c rest
      rw [h, List.length_cons] at h1
      omega
    (firstToken c rest).1 ::
      if (firstToken c rest).1 = .bad then [] else tokens (firstToken c rest).2
termination_by cs.length

end TableStore.Json
