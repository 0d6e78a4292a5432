/-!
# JSON trees

What a JSON text holds, members and items in the order of the text. A text that stops being JSON
has a tree as well: it ends with a broken part at that place, so that what stands before it can be
judged first.
-/
namespace TableStore

/-- A string of a JSON text. There is none when an escape stands for half of a character. -/
abbrev JsonText := Option String

inductive Json where
  | null
  | boolean (b : Bool)
  /-- A number as it is written. -/
  | number (numeral : String)
  | string (s : JsonText)
  | array (items : List Json)
  | object (members : List (JsonText × Json))
  | broken

namespace Json

mutual

/-- Nothing in the tree is broken. -/
def isWhole : Json → Bool
  | array items => itemsWhole items
  | object members => membersWhole members
  | broken => false
  | _ => true

def itemsWhole : List Json → Bool
  | [] => true
  | j :: js => j.isWhole && itemsWhole js

def membersWhole : List (JsonText × Json) → Bool
  | [] => true
  | (_, j) :: ms => j.isWhole && membersWhole ms

end

end Json

end TableStore
