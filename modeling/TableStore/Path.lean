/-!
# Paths

A path by the names it leads through. Empty names and single dots lead nowhere, so paths that
differ in them alone are equal; only a dot at the start of a path that is not rooted stays.
-/
namespace TableStore

structure Path where
  rooted : Bool
  names : List String
  deriving DecidableEq

namespace Path

def leadsOn (name : String) : Bool := name != "" && name != "."

/-- The first name of a rooted path is empty. -/
def ofNames : List String → Path
  | [] => ⟨false, []⟩
  | first :: rest =>
    ⟨first = "" ∧ rest ≠ [], (if first = "" then [] else [first]) ++ rest.filter leadsOn⟩

def ofText (s : String) : Path := ofNames ((s.toList.splitOn '/').map String.ofList)

end Path

end TableStore
