import TableStore.Json.Token

/-!
# Reading JSON

One pass over the tokens, with what is still open around the place that is read.
-/
namespace TableStore.Json

/-- An array or an object that is open, with what it holds so far in reverse. -/
inductive Frame where
  | items (done : List Json)
  /-- The value of the key comes next. -/
  | members (done : List (JsonText × Json)) (key : JsonText)

namespace Frame

/-- What the frame encloses, with a broken part after one more value. -/
def stop : Frame → Json → Json
  | items done, j => .array (.broken :: j :: done).reverse
  | members done key, j => .object ((none, .broken) :: (key, j) :: done).reverse

end Frame

/-- The whole tree when reading stops, the innermost frame first. -/
def abandon (frames : List Frame) (j : Json) : Json := frames.foldl (fun j f => f.stop j) j

mutual

/-- A value comes next. -/
def readValue (frames : List Frame) : List Token → Json × List Token
  | .null :: ts => readOn frames .null ts
  | .boolean b :: ts => readOn frames (.boolean b) ts
  | .number n :: ts => readOn frames (.number n) ts
  | .string s :: ts => readOn frames (.string s) ts
  | .openBracket :: .closeBracket :: ts => readOn frames (.array []) ts
  | .openBracket :: ts => readValue (.items [] :: frames) ts
  | .openBrace :: .closeBrace :: ts => readOn frames (.object []) ts
  | .openBrace :: .string key :: .colon :: ts => readValue (.members [] key :: frames) ts
  | .openBrace :: ts => (abandon frames (.object [(none, .broken)]), ts)
  | ts => (abandon frames .broken, ts)

/-- A value is complete. -/
def readOn (frames : List Frame) (j : Json) : List Token → Json × List Token
  | [] => (abandon frames j, [])
  | t :: ts =>
    match frames with
    | [] => (j, t :: ts)
    | .items done :: outer =>
      match t, ts with
      | .comma, ts => readValue (.items (j :: done) :: outer) ts
      | .closeBracket, ts => readOn outer (.array (j :: done).reverse) ts
      | _, ts => (abandon (.items done :: outer) j, ts)
    | .members done key :: outer =>
      match t, ts with
      | .comma, .string next :: .colon :: ts =>
        readValue (.members ((key, j) :: done) next :: outer) ts
      | .closeBrace, ts => readOn outer (.object ((key, j) :: done).reverse) ts
      | _, ts => (abandon (.members done key :: outer) j, ts)

end

/-- The tree of a text and whether the text goes on after it. -/
def read (text : String) : Json × Bool :=
  let r := readValue [] (tokens text.toList)
  (r.1, !r.2.isEmpty)

end TableStore.Json
