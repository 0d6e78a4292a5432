import TableStore.Sql.Scan

/-!
# Parsing

A statement is one production of the grammar, a semicolon, and nothing but white space after it.
Every reader gives the text that is left, and none gives back more than it got.
-/
namespace TableStore.Sql

def next (cs : List Char) : Except SyntaxError (Token × List Char) :=
  match next? cs with
  | .ok (some r) => .ok r
  | .ok none => .error .endOfStatement
  | .error e => .error e

def expect (want : Token) (cs : List Char) : Except SyntaxError (List Char) := do
  let (got, rest) ← next cs
  if got = want then return rest else throw (.expected want got)

/-- The text after the token if it comes next. What is no token is not the one wanted. -/
def accept? (want : Token) (cs : List Char) : Option (List Char) :=
  match next? cs with
  | .ok (some (got, rest)) => if got = want then some rest else none
  | _ => none

/-- A name, for which a keyword serves as well. -/
def name (cs : List Char) : Except SyntaxError (String × List Char) :=
  match name? cs with
  | some r => .ok r
  | none => do
    let (got, _) ← next cs
    throw (.expectedName got)

def literal (slot : Slot) (cs : List Char) : Except SyntaxError (Literal × List Char) :=
  match literal? slot cs with
  | .error e => .error e
  | .ok (some l, rest) => .ok (l, rest)
  | .ok (none, rest) => do
    let (got, _) ← next rest
    throw (.expectedValue got)

theorem length_accept?_lt {t : Token} {cs rest : List Char} (h : accept? t cs = some rest) :
    rest.length < cs.length := by
  unfold accept? at h
  split at h
  · rename_i got r hn
    split at h
    · cases h
      exact length_next?_lt hn
    · cases h
  · cases h

theorem length_next_lt {t : Token} {cs rest : List Char} (h : next cs = .ok (t, rest)) :
    rest.length < cs.length := by
  unfold next at h
  split at h
  · rename_i r hn
    cases h
    exact length_next?_lt hn
  · cases h
  · cases h

theorem expect_eq_ok {t : Token} {cs rest : List Char} (h : expect t cs = .ok rest) :
    next cs = .ok (t, rest) := by
  unfold expect at h
  cases hn : next cs with
  | error e => rw [hn] at h; cases h
  | ok p =>
    obtain ⟨got, r⟩ := p
    rw [hn] at h
    simp only [bind, Except.bind] at h
    split at h
    · rename_i hg
      cases h
      rw [hg]
    · cases h

theorem name_eq_ok {s : String} {cs rest : List Char} (h : name cs = .ok (s, rest)) :
    name? cs = some (s, rest) := by
  unfold name at h
  split at h
  · rename_i r hr
    cases h
    exact hr
  · cases hn : next cs with
    | error e => rw [hn] at h; cases h
    | ok p => rw [hn] at h; cases h

theorem length_name_le {s : String} {cs rest : List Char} (h : name cs = .ok (s, rest)) :
    rest.length ≤ cs.length :=
  length_name?_le (name_eq_ok h)

theorem literal_eq_ok {slot : Slot} {l : Literal} {cs rest : List Char}
    (h : literal slot cs = .ok (l, rest)) : literal? slot cs = .ok (some l, rest) := by
  unfold literal at h
  split at h
  · cases h
  · rename_i hl
    cases h
    exact hl
  · rename_i r hl
    cases hn : next r with
    | error e => rw [hn] at h; cases h
    | ok p => rw [hn] at h; cases h

theorem length_literal_le {slot : Slot} {l : Literal} {cs rest : List Char}
    (h : literal slot cs = .ok (l, rest)) : rest.length ≤ cs.length :=
  length_literal?_le (literal_eq_ok h)

/-- One item or more, with a comma between each and the next. -/
def commaList {α : Type} (item : List Char → Except SyntaxError (α × List Char))
    (shrinks : ∀ {cs x rest}, item cs = .ok (x, rest) → rest.length ≤ cs.length)
    (cs : List Char) : Except SyntaxError (List α × List Char) :=
  match h : item cs with
  | .error e => .error e
  | .ok (x, rest) =>
    match h' : accept? .comma rest with
    | none => .ok ([x], rest)
    | some rest' =>
      have : rest'.length < cs.length := Nat.lt_of_lt_of_le (length_accept?_lt h') (shrinks h)
      match commaList item shrinks rest' with
      | .error e => .error e
      | .ok (xs, rest'') => .ok (x :: xs, rest'')
termination_by cs.length

/-- The values of a row up to the closing parenthesis. -/
def valueList (cs : List Char) : Except SyntaxError (List Literal × List Char) :=
  match h : literal .listItem cs with
  | .error e => .error e
  | .ok (l, rest) =>
    match h' : next rest with
    | .error e => .error e
    | .ok (.closeParen, rest') => .ok ([l], rest')
    | .ok (.comma, rest') =>
      have : rest'.length < cs.length :=
        Nat.lt_of_lt_of_le (length_next_lt h') (length_literal_le h)
      match valueList rest' with
      | .error e => .error e
      | .ok (ls, rest'') => .ok (l :: ls, rest'')
    | .ok (got, _) => .error (.unexpected got)
termination_by cs.length

/-- A column with its type. -/
def columnSpec (cs : List Char) : Except SyntaxError (ColumnSpec × List Char) := do
  let (column, cs) ← name cs
  let (word, cs) ← name cs
  match DataType.ofWord? word with
  | some t => return (⟨column, t⟩, cs)
  | none => throw (.unknownType word column)

/-- A column, an equals sign and a literal. -/
def assignment (cs : List Char) : Except SyntaxError (Assignment × List Char) := do
  let (column, cs) ← name cs
  let cs ← expect .equal cs
  let (l, cs) ← literal .assignment cs
  return (⟨column, l⟩, cs)

theorem length_columnSpec_le {c : ColumnSpec} {cs rest : List Char}
    (h : columnSpec cs = .ok (c, rest)) : rest.length ≤ cs.length := by
  unfold columnSpec at h
  cases h1 : name cs with
  | error e => rw [h1] at h; cases h
  | ok p =>
    obtain ⟨column, r⟩ := p
    rw [h1] at h
    simp only [bind, Except.bind] at h
    cases h2 : name r with
    | error e => rw [h2] at h; cases h
    | ok q =>
      obtain ⟨word, r'⟩ := q
      rw [h2] at h
      simp only at h
      split at h
      · cases h
        exact Nat.le_trans (length_name_le h2) (length_name_le h1)
      · cases h

theorem length_assignment_le {a : Assignment} {cs rest : List Char}
    (h : assignment cs = .ok (a, rest)) : rest.length ≤ cs.length := by
  unfold assignment at h
  cases h1 : name cs with
  | error e => rw [h1] at h; cases h
  | ok p =>
    obtain ⟨column, r⟩ := p
    rw [h1] at h
    simp only [bind, Except.bind] at h
    cases h2 : expect .equal r with
    | error e => rw [h2] at h; cases h
    | ok r' =>
      rw [h2] at h
      simp only at h
      cases h3 : literal .assignment r' with
      | error e => rw [h3] at h; cases h
      | ok q =>
        obtain ⟨l, r''⟩ := q
        rw [h3] at h
        cases h
        exact Nat.le_trans (length_literal_le h3)
          (Nat.le_trans (Nat.le_of_lt (length_next_lt (expect_eq_ok h2))) (length_name_le h1))

/-- A condition if the keyword for it comes next. -/
def condition (cs : List Char) : Except SyntaxError (Option Condition × List Char) :=
  match accept? (.keyword .where) cs with
  | none => .ok (none, cs)
  | some cs => do
    let (column, cs) ← name cs
    let cs ← expect .equal cs
    let (l, cs) ← literal .condition cs
    return (some ⟨column, l⟩, cs)

namespace Statement

def create (cs : List Char) : Except SyntaxError (Statement × List Char) := do
  let (object, cs) ← next cs
  match object with
  | .keyword .database =>
    let (n, cs) ← name cs
    return (.createDatabase n, cs)
  | .keyword .table =>
    let (n, cs) ← name cs
    let cs ← expect .openParen cs
    let (columns, cs) ← commaList columnSpec length_columnSpec_le cs
    let cs ← expect .closeParen cs
    return (.createTable n columns, cs)
  | got => throw (.unknownObject .create got)

def drop (cs : List Char) : Except SyntaxError (Statement × List Char) := do
  let (object, cs) ← next cs
  match object with
  | .keyword .database =>
    let (n, cs) ← name cs
    return (.dropDatabase n, cs)
  | .keyword .table =>
    let (n, cs) ← name cs
    return (.dropTable n, cs)
  | got => throw (.unknownObject .drop got)

def useName (cs : List Char) : Except SyntaxError (Statement × List Char) := do
  let (n, cs) ← name cs
  return (.useDatabase n, cs)

def showObjects (cs : List Char) : Except SyntaxError (Statement × List Char) := do
  let (object, cs) ← next cs
  match object with
  | .keyword .databases => return (.showDatabases, cs)
  | .keyword .tables => return (.showTables, cs)
  | got => throw (.unknownObject .show got)

def insertInto (cs : List Char) : Except SyntaxError (Statement × List Char) := do
  let cs ← expect (.keyword .into) cs
  let (table, cs) ← name cs
  let cs ← expect (.keyword .values) cs
  let cs ← expect .openParen cs
  let (values, cs) ← valueList cs
  return (.insert table values, cs)

/-- The columns that are selected: a star, or their names. -/
def selection (cs : List Char) : Except SyntaxError (Option (List String) × List Char) :=
  match accept? .asterisk cs with
  | some cs => .ok (none, cs)
  | none => do
    let (columns, cs) ← commaList name length_name_le cs
    return (some columns, cs)

def selectFrom (cs : List Char) : Except SyntaxError (Statement × List Char) := do
  let (columns, cs) ← selection cs
  let cs ← expect (.keyword .from) cs
  let (table, cs) ← name cs
  let (c, cs) ← condition cs
  return (.select table columns c, cs)

def updateSet (cs : List Char) : Except SyntaxError (Statement × List Char) := do
  let (table, cs) ← name cs
  let cs ← expect (.keyword .set) cs
  let (assignments, cs) ← commaList assignment length_assignment_le cs
  let (c, cs) ← condition cs
  return (.update table assignments c, cs)

def deleteFrom (cs : List Char) : Except SyntaxError (Statement × List Char) := do
  let cs ← expect (.keyword .from) cs
  let (table, cs) ← name cs
  let (c, cs) ← condition cs
  return (.delete table c, cs)

/-- A statement up to its semicolon. -/
def read (cs : List Char) : Except SyntaxError (Statement × List Char) := do
  let (command, cs) ← next cs
  match command with
  | .keyword .create => create cs
  | .keyword .drop => drop cs
  | .keyword .use => useName cs
  | .keyword .show => showObjects cs
  | .keyword .insert => insertInto cs
  | .keyword .select => selectFrom cs
  | .keyword .update => updateSet cs
  | .keyword .delete => deleteFrom cs
  | .keyword .help => return (.help, cs)
  | got => throw (.unknownCommand got)

/-- The statement that is all of the text. -/
def parse (text : String) : Except SyntaxError Statement := do
  let (s, cs) ← read text.toList
  let cs ← expect .semicolon cs
  match ← next? cs with
  | some (got, _) => throw (.unexpected got)
  | none => return s

end Statement

/-- A line without a statement: nothing, or a comment. -/
def isIgnorable (line : String) : Bool :=
  match (Text.trim line).toList with
  | [] => true
  | '-' :: '-' :: _ => true
  | '/' :: '/' :: _ => true
  | _ => false

end TableStore.Sql
