import TableStore.Text.CaseTable

/-!
# Letter case

Capital and small forms of whole texts by the full Unicode maps. A character may become several,
and a capital sigma that ends a word gets its final small form.
-/
namespace TableStore.Text

open CaseTable

def inRanges (ranges : List (Nat × Nat)) (n : Nat) : Bool :=
  ranges.any fun r => r.1 ≤ n && n ≤ r.2

/-- The image of a character above ASCII; one that no table names stays as it is. -/
def mapChar (shifts : List Shift) (expansions : List (Nat × List Nat)) (c : Char) : List Char :=
  match expansions.lookup c.toNat with
  | some ns => ns.map Char.ofNat
  | none =>
    match shifts.find? (·.covers c.toNat) with
    | some s => [Char.ofNat (s.apply c.toNat)]
    | none => [c]

def isAscii (c : Char) : Bool := c.toNat < 128

def upperChar (c : Char) : List Char :=
  if isAscii c then [c.toUpper] else mapChar upperShifts upperExpansions c

/-- The small form of a character regardless of its neighbours. -/
def lowerChar (c : Char) : List Char :=
  if isAscii c then [c.toLower] else mapChar lowerShifts lowerExpansions c

def isCased (c : Char) : Bool :=
  if isAscii c then c.isAlpha else inRanges casedRanges c.toNat

/-- Characters that the search for a neighbouring letter passes over. -/
def isCaseIgnorable (c : Char) : Bool :=
  if isAscii c then c == '\x27' || c == '.' || c == ':' || c == '^' || c == '\x60'
  else inRanges ignorableRanges c.toNat

/-- A letter comes next, apart from characters that are passed over. -/
def meetsLetter (cs : List Char) : Bool :=
  match cs.dropWhile isCaseIgnorable with
  | [] => false
  | c :: _ => isCased c

/-- A capital sigma is final when a letter stands before it and none after it. -/
def isFinalSigma (before after : List Char) : Bool := meetsLetter before && !meetsLetter after

/-- The small form of the second list, the first holding in reverse what stands before it. -/
def lowerAfter (before : List Char) : List Char → List Char
  | [] => []
  | c :: after =>
    (if c = 'Σ' then [if isFinalSigma before after then 'ς' else 'σ'] else lowerChar c) ++
      lowerAfter (c :: before) after

def upper (s : String) : String := String.ofList (s.toList.flatMap upperChar)

def lower (s : String) : String := String.ofList (lowerAfter [] s.toList)

/-- The two texts are equal when the case of ASCII letters is ignored. -/
def sameAsciiLetters (s t : String) : Bool := s.toList.map Char.toLower == t.toList.map Char.toLower

end TableStore.Text
