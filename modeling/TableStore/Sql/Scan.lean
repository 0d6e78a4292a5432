import TableStore.Error
import TableStore.Sql.Statement
import TableStore.Text.Blank

/-!
# Scanning

Three ways of reading the same text: the next token, a name as it is written, and a literal that
runs up to where its place in the statement ends. Each gives what it read and the text that is
left.
-/
namespace TableStore.Sql

open Text

def isSign (c : Char) : Bool := (Token.ofSign? c).isSome

def isWordChar (c : Char) : Bool := !isBlank c && !isSign c && c != '"'

/-- A string whose opening quote is already read. Nothing is escaped in it. -/
def takeQuoted (cs : List Char) : Except SyntaxError (String × List Char) :=
  match cs.dropWhile (· != '"') with
  | [] => .error .unterminatedString
  | _ :: rest => .ok (String.ofList (cs.takeWhile (· != '"')), rest)

/-- The next token, or none at the end of the text. -/
def next? (cs : List Char) : Except SyntaxError (Option (Token × List Char)) :=
  match skipBlanks cs with
  | [] => .ok none
  | c :: rest =>
    if c = '"' then do
      let (s, rest) ← takeQuoted rest
      return some (.quoted s, rest)
    else match Token.ofSign? c with
      | some t => .ok (some (t, rest))
      | none =>
        .ok (some (.ofWord (String.ofList ((c :: rest).takeWhile isWordChar)),
          (c :: rest).dropWhile isWordChar))

/-- The next word as it is written, be it a keyword or not. -/
def name? (cs : List Char) : Option (String × List Char) :=
  match (skipBlanks cs).takeWhile isWordChar with
  | [] => none
  | word => some (String.ofList word, (skipBlanks cs).dropWhile isWordChar)

/-- The places in which a literal can stand. -/
inductive Slot where
  | listItem
  | assignment
  | condition
  deriving DecidableEq

namespace Slot

/-- The characters that end a literal without quotes. -/
def stopsAt : Slot → Char → Bool
  | listItem, c => c == ',' || c == ')' || c == ';'
  | assignment, c => c == ',' || c == ';'
  | condition, c => c == ';'

end Slot

/-- The text starts with a word that is the keyword. -/
def startsWithKeyword (k : Keyword) (cs : List Char) : Bool :=
  Keyword.ofWord? (String.ofList (cs.takeWhile isWordChar)) == some k

/-- The text up to the end of a literal without quotes. In an assignment the keyword that starts the
condition ends it, at the start and after white space. -/
def takeBare (slot : Slot) (wordMayStart : Bool) : List Char → List Char × List Char
  | [] => ([], [])
  | c :: cs =>
    if c == '"' || slot.stopsAt c ||
        (slot == .assignment && wordMayStart && startsWithKeyword .where (c :: cs)) then
      ([], c :: cs)
    else
      let bare := takeBare slot (isBlank c) cs
      (c :: bare.1, bare.2)

namespace Literal

/-- The literal that a text without quotes is; no text is no literal. -/
def ofBare? (raw : List Char) : Option Literal :=
  match dropTrailingBlanks raw with
  | [] => none
  | cs =>
    if sameAsciiLetters (String.ofList cs) "null" then some .null
    else some (.text (String.ofList cs))

end Literal

/-- The literal in a place, with quotes or without, or none if there is no text for one. -/
def literal? (slot : Slot) (cs : List Char) :
    Except SyntaxError (Option Literal × List Char) :=
  match skipBlanks cs with
  | [] => .ok (none, [])
  | c :: rest =>
    if c = '"' then do
      let (s, rest) ← takeQuoted rest
      return (some (.text s), rest)
    else
      let bare := takeBare slot true (c :: rest)
      .ok (Literal.ofBare? bare.1, bare.2)

theorem length_takeQuoted_lt {cs rest : List Char} {s : String}
    (h : takeQuoted cs = .ok (s, rest)) : rest.length < cs.length := by
  have hd := length_dropWhile_le (· != '"') cs
  unfold takeQuoted at h
  split at h
  · cases h
  · rename_i c r hr
    cases h
    rw [hr, List.length_cons] at hd
    omega

theorem length_next?_lt {cs rest : List Char} {t : Token}
    (h : next? cs = .ok (some (t, rest))) : rest.length < cs.length := by
  have hb := length_skipBlanks_le cs
  unfold next? at h
  split at h
  · cases h
  · rename_i c r hr
    rw [hr, List.length_cons] at hb
    split at h
    · cases hq : takeQuoted r with
      | error e => rw [hq] at h; cases h
      | ok p =>
        obtain ⟨s, q⟩ := p
        rw [hq] at h
        cases h
        have := length_takeQuoted_lt hq
        omega
    · rename_i hc
      split at h
      · cases h
        omega
      · rename_i hs
        have hw : isWordChar c = true := by
          have hnb : isBlank c = false := by
            have := List.head?_dropWhile_not isBlank cs
            rw [skipBlanks] at hr
            rw [hr] at this
            simpa using this
          simp [isWordChar, hnb, isSign, hs, hc]
        simp only [Except.ok.injEq, Option.some.injEq, Prod.mk.injEq] at h
        rw [← h.2, List.dropWhile_cons_of_pos hw]
        have := length_dropWhile_le isWordChar r
        omega

theorem length_name?_le {cs rest : List Char} {s : String} (h : name? cs = some (s, rest)) :
    rest.length ≤ cs.length := by
  have hb := length_skipBlanks_le cs
  have hw := length_dropWhile_le isWordChar (skipBlanks cs)
  unfold name? at h
  split at h
  · cases h
  · cases h
    omega

theorem takeBare_append (slot : Slot) (b : Bool) (cs : List Char) :
    (takeBare slot b cs).1 ++ (takeBare slot b cs).2 = cs := by
  induction cs generalizing b with
  | nil => rfl
  | cons c cs ih =>
    simp only [takeBare]
    split
    · rfl
    · simp [ih]

theorem length_literal?_le {slot : Slot} {cs rest : List Char} {l : Option Literal}
    (h : literal? slot cs = .ok (l, rest)) : rest.length ≤ cs.length := by
  have hb := length_skipBlanks_le cs
  unfold literal? at h
  split at h
  · cases h
    simp
  · rename_i c r hr
    rw [hr, List.length_cons] at hb
    split at h
    · cases hq : takeQuoted r with
      | error e => rw [hq] at h; cases h
      | ok p =>
        obtain ⟨s, q⟩ := p
        rw [hq] at h
        cases h
        have := length_takeQuoted_lt hq
        omega
    · have ha := congrArg List.length (takeBare_append slot true (c :: r))
      rw [List.length_append, List.length_cons] at ha
      simp only [Except.ok.injEq, Prod.mk.injEq] at h
      rw [← h.2]
      omega

end TableStore.Sql
