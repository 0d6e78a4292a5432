/-!
# Contents

What a file or a stream holds, as text where its bytes are one, and how it falls into lines.
-/
namespace TableStore

inductive Content where
  | text (s : String)
  /-- Bytes that are no text. -/
  | binary (bytes : ByteArray)

namespace Content

-- The instance on bytes is named: libraries bring others.
instance : DecidableEq Content
  | text s, text t => decidable_of_decidable_of_eq (text.injEq s t).symm
  | binary a, binary b =>
    have := ByteArray.instDecidableEq a b
    decidable_of_decidable_of_eq (binary.injEq a b).symm
  | text _, binary _ => isFalse Content.noConfusion
  | binary _, text _ => isFalse Content.noConfusion

def ofBytes (bytes : ByteArray) : Content :=
  match String.fromUTF8? bytes with
  | some s => .text s
  | none => .binary bytes

variable {α : Type} [BEq α]

/-- Without the last element if that is the given one. -/
def dropLastIf (x : α) (xs : List α) : List α :=
  if xs.getLast? == some x then xs.dropLast else xs

/-- The lines of a list: each ends at a line feed, with a carriage return before it or not. What
stands after the last line feed is a line if it is anything. -/
def splitLines (feed ret : α) (xs : List α) : List (List α) :=
  let pieces := xs.splitOn feed
  pieces.dropLast.map (dropLastIf ret) ++
    match pieces.getLast? with
    | some (x :: rest) => [x :: rest]
    | _ => []

def linesOfText (s : String) : List String :=
  (splitLines '\n' '\r' s.toList).map String.ofList

/-- The lines, a line being nothing when its bytes are no text. -/
def lines : Content → List (Option String)
  | text s => (linesOfText s).map some
  | binary bytes =>
    (splitLines 10 13 bytes.toList).map fun line => String.fromUTF8? ⟨line.toArray⟩

end Content

end TableStore
