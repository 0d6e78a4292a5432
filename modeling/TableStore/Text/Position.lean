import TableStore.Number.Decimal

/-!
# Positions

A message about a text may end with a position in it, as in `at line 3 column 7`. Both numbers
have sixty-four bits.
-/
namespace TableStore.Text

/-- A text without the number at its end, if it ends with one that fits. -/
def dropNumber? (cs : List Char) : Option (List Char) :=
  let ds := (cs.reverse.takeWhile Char.isDigit).reverse
  if ds.isEmpty || UInt64.size ≤ Decimal.natOfDigits ds then none
  else some (cs.reverse.dropWhile Char.isDigit).reverse

/-- A text without the position at its end, if it ends with one. -/
def dropPosition? (cs : List Char) : Option (List Char) := do
  let cs ← dropNumber? cs
  let cs ← " column ".toList.isSuffixOf? cs
  let cs ← dropNumber? cs
  " at line ".toList.isSuffixOf? cs

def dropPosition (s : String) : String :=
  match dropPosition? s.toList with
  | some cs => String.ofList cs
  | none => s

end TableStore.Text
