import TableStore.Proofs.DataModel
import TableStore.Proofs.LetterCase
import TableStore.Sql.Parser

/-!
# Grammar

The texts that are written for a statement. A statement is a list of lexemes in order; each has a
spelling, or several, and white space may stand before each. Whether a lexeme has a spelling depends
on what comes after it, since a word goes on as long as it can.
-/
namespace TableStore.Sql

open Text

def IsWord (w : List Char) : Prop := w ≠ [] ∧ ∀ c ∈ w, isWordChar c = true

instance (w : List Char) : Decidable (IsWord w) :=
  decidable_of_iff (w ≠ [] ∧ w.all isWordChar = true) (by rw [List.all_eq_true, IsWord])

/-- A word that stands before this text is at its end. -/
def EndsWord (after : List Char) : Prop := ∀ c ∈ after.head?, isWordChar c = false

instance (after : List Char) : Decidable (EndsWord after) :=
  decidable_of_iff (after.head?.all (!isWordChar ·) = true) (by cases after <;> simp [EndsWord])

/-! Statements as lexemes -/

inductive Lexeme where
  | token (t : Token)
  | type (t : DataType)
  | name (s : String)
  | literal (slot : Slot) (l : Literal)

/-- Items with a comma between each and the next. -/
def separated {α : Type} (lexemes : α → List Lexeme) (xs : List α) : List Lexeme :=
  [.token .comma].intercalate (xs.map lexemes)

def ColumnSpec.lexemes (c : ColumnSpec) : List Lexeme := [.name c.name, .type c.type]

def Assignment.lexemes (a : Assignment) : List Lexeme :=
  [.name a.column, .token .equal, .literal .assignment a.value]

def Condition.lexemes : Option Condition → List Lexeme
  | none => []
  | some w =>
    [.token (.keyword .where), .name w.column, .token .equal, .literal .condition w.value]

def selectionLexemes : Option (List String) → List Lexeme
  | none => [.token .asterisk]
  | some names => separated (fun n => [.name n]) names

def valueLexemes (values : List Literal) : List Lexeme :=
  separated (fun l => [.literal .listItem l]) values ++ [.token .closeParen]

namespace Statement

/-- The keyword that a statement starts with. -/
def command : Statement → Keyword
  | createDatabase _ | createTable _ _ => .create
  | dropDatabase _ | dropTable _ => .drop
  | useDatabase _ => .use
  | showDatabases | showTables => .show
  | insert _ _ => .insert
  | select _ _ _ => .select
  | update _ _ _ => .update
  | delete _ _ => .delete
  | help => .help

/-- What stands between the command and the semicolon. -/
def body : Statement → List Lexeme
  | createDatabase n | dropDatabase n => [.token (.keyword .database), .name n]
  | useDatabase n => [.name n]
  | showDatabases => [.token (.keyword .databases)]
  | createTable n columns =>
    [.token (.keyword .table), .name n, .token .openParen] ++
      separated ColumnSpec.lexemes columns ++ [.token .closeParen]
  | dropTable n => [.token (.keyword .table), .name n]
  | showTables => [.token (.keyword .tables)]
  | insert table values =>
    [.token (.keyword .into), .name table, .token (.keyword .values), .token .openParen] ++
      valueLexemes values
  | select table columns condition =>
    selectionLexemes columns ++ [.token (.keyword .from), .name table] ++
      Condition.lexemes condition
  | update table assignments condition =>
    [.name table, .token (.keyword .set)] ++ separated Assignment.lexemes assignments ++
      Condition.lexemes condition
  | delete table condition =>
    [.token (.keyword .from), .name table] ++ Condition.lexemes condition
  | help => []

def lexemes (s : Statement) : List Lexeme :=
  .token (.keyword s.command) :: (s.body ++ [.token .semicolon])

/-- Where a list is written there is something to write. -/
def HasItems : Statement → Prop
  | createTable _ columns => columns ≠ []
  | insert _ values => values ≠ []
  | select _ (some columns) _ => columns ≠ []
  | update _ assignments _ => assignments ≠ []
  | _ => True

end Statement

/-- Names are words, and no literal needs a quote inside its quotes. -/
def Lexeme.IsPrintable : Lexeme → Prop
  | name s => IsWord s.toList
  | literal _ (.text s) => '"' ∉ s.toList
  | _ => True

instance : DecidablePred Lexeme.IsPrintable
  | .name s => inferInstanceAs (Decidable (IsWord s.toList))
  | .literal _ (.text s) => inferInstanceAs (Decidable ('"' ∉ s.toList))
  | .literal _ .null | .token _ | .type _ => isTrue trivial

/-- Statements that can be written. -/
structure Statement.IsPrintable (s : Statement) : Prop where
  lexemes : ∀ l ∈ s.lexemes, l.IsPrintable
  items : s.HasItems

/-! Spellings -/

/-- A text that can be a literal without quotes: nothing in it ends such a literal. -/
structure Slot.Admits (slot : Slot) (w : List Char) : Prop where
  noQuote : '"' ∉ w
  noStop : ∀ c ∈ w, slot.stopsAt c = false
  noWhere : slot = .assignment → ∀ p q, w = p ++ q → (∀ c ∈ p.getLast?, isBlank c = true) →
    startsWithKeyword .where q = false

/-- The spellings of a lexeme in front of a text. -/
inductive Spells : Lexeme → List Char → List Char → Prop
  | keyword {k : Keyword} {w after : List Char} (hw : IsWord w)
    (hk : upper (String.ofList w) = k.spelling) (ha : EndsWord after) :
    Spells (.token (.keyword k)) w after
  | sign {t : Token} {c : Char} {after : List Char} (ht : Token.ofSign? c = some t) :
    Spells (.token t) [c] after
  | type {t : DataType} {w after : List Char} (hw : IsWord w)
    (ht : upper (String.ofList w) = t.name) (ha : EndsWord after) : Spells (.type t) w after
  | name {s : String} {after : List Char} (hs : IsWord s.toList) (ha : EndsWord after) :
    Spells (.name s) s.toList after
  | quoted {slot : Slot} {s : String} {after : List Char} (hs : '"' ∉ s.toList) :
    Spells (.literal slot (.text s)) ('"' :: s.toList ++ ['"']) after
  | null {slot : Slot} {w after : List Char}
    (hw : sameAsciiLetters (String.ofList w) "null" = true) (ha : EndsWord after) :
    Spells (.literal slot .null) w after
  | bare {slot : Slot} {s : String} {after : List Char} (hs : IsProper s)
    (hn : sameAsciiLetters s "null" = false) (hb : slot.Admits s.toList) (ha : EndsWord after) :
    Spells (.literal slot (.text s)) s.toList after

/-- The plain spellings: no letters but those of ASCII in keywords and types, and all literals but
`NULL` in quotes. -/
inductive SpellsPlainly : Lexeme → List Char → List Char → Prop
  | keyword {k : Keyword} {w after : List Char}
    (hw : sameAsciiLetters (String.ofList w) k.spelling = true) (ha : EndsWord after) :
    SpellsPlainly (.token (.keyword k)) w after
  | sign {t : Token} {c : Char} {after : List Char} (ht : Token.ofSign? c = some t) :
    SpellsPlainly (.token t) [c] after
  | type {t : DataType} {w after : List Char}
    (hw : sameAsciiLetters (String.ofList w) t.name = true) (ha : EndsWord after) :
    SpellsPlainly (.type t) w after
  | name {s : String} {after : List Char} (ha : EndsWord after) :
    SpellsPlainly (.name s) s.toList after
  | quoted {slot : Slot} {s : String} {after : List Char} :
    SpellsPlainly (.literal slot (.text s)) ('"' :: s.toList ++ ['"']) after
  | null {slot : Slot} {w after : List Char}
    (hw : sameAsciiLetters (String.ofList w) "null" = true) (ha : EndsWord after) :
    SpellsPlainly (.literal slot .null) w after

/-- The text consists of the lexemes, with white space or none before each, and of the rest. -/
def Laid (spells : Lexeme → List Char → List Char → Prop) :
    List Lexeme → List Char → List Char → Prop
  | [], cs, rest => cs = rest
  | l :: ls, cs, rest => ∃ blanks w after, cs = blanks ++ (w ++ after) ∧
      (∀ b ∈ blanks, isBlank b = true) ∧ spells l w after ∧ Laid spells ls after rest

/-- A lexeme comes first in the text, after white space or none. -/
def Begins (l : Lexeme) (cs after : List Char) : Prop :=
  ∃ w, skipBlanks cs = w ++ after ∧ Spells l w after

/-! Characters -/

theorem isBlank_of_isWordChar {c : Char} (h : isWordChar c = true) : isBlank c = false := by
  simp only [isWordChar, Bool.and_eq_true, Bool.not_eq_true'] at h
  exact h.1.1

theorem isWordChar_of_isBlank {c : Char} (h : isBlank c = true) : isWordChar c = false := by
  simp [isWordChar, h]

theorem isBlank_of_ofSign? {c : Char} {t : Token} (h : Token.ofSign? c = some t) :
    isBlank c = false := by
  unfold Token.ofSign? at h
  split at h
  case h_7 => cases h
  all_goals decide

theorem isWordChar_of_isAlpha {c : Char} (h : c.isAlpha = true) : isWordChar c = true := by
  have hb : isBlank c = false := isBlank_of_isAlpha h
  have hs : Token.ofSign? c = none := by
    unfold Token.ofSign?
    split
    case h_7 => rfl
    all_goals cases h
  have hq : c ≠ '"' := by
    rintro rfl
    cases h
  simp [isWordChar, isSign, hb, hs, hq]

theorem endsWord_nil : EndsWord [] := by simp [EndsWord]

theorem endsWord_cons {c : Char} {cs : List Char} : EndsWord (c :: cs) ↔ isWordChar c = false := by
  simp [EndsWord]

theorem endsWord_of_blanks {blanks : List Char} (hb : ∀ b ∈ blanks, isBlank b = true) :
    EndsWord blanks :=
  fun _ hc => isWordChar_of_isBlank (hb _ (List.mem_of_head? hc))

theorem EndsWord.append {after : List Char} (h : EndsWord after) (hne : after ≠ [])
    (more : List Char) : EndsWord (after ++ more) := by
  cases after with
  | nil => exact absurd rfl hne
  | cons c cs => exact h

/-! Words of the language -/

theorem isWord_of_sameAsciiLetters {w : List Char} {s : String}
    (hs : s.toList.all Char.isUpper = true) (hne : s ≠ "")
    (h : sameAsciiLetters (String.ofList w) s = true) :
    IsWord w ∧ upper (String.ofList w) = s := by
  obtain ⟨ha, hu⟩ := upper_of_sameAsciiLetters hs h
  rw [String.toList_ofList] at ha
  refine ⟨⟨?_, fun c hc => isWordChar_of_isAlpha (ha c hc)⟩, hu⟩
  rintro rfl
  exact hne hu.symm

theorem upper_of_null {w : List Char} (h : sameAsciiLetters (String.ofList w) "null" = true) :
    (∀ c ∈ w, c.isAlpha = true) ∧ upper (String.ofList w) = "NULL" := by
  have hn : "null".toList.map Char.toLower = "NULL".toList.map Char.toLower := by decide
  rw [sameAsciiLetters, hn] at h
  have hu := upper_of_sameAsciiLetters (s := "NULL") (by decide) h
  rwa [String.toList_ofList] at hu

theorem isWord_of_null {w : List Char} (h : sameAsciiLetters (String.ofList w) "null" = true) :
    IsWord w := by
  obtain ⟨ha, hu⟩ := upper_of_null h
  refine ⟨?_, fun c hc => isWordChar_of_isAlpha (ha c hc)⟩
  rintro rfl
  exact absurd hu (by decide)

theorem Keyword.isUpper_spelling (k : Keyword) : k.spelling.toList.all Char.isUpper = true := by
  cases k <;> rfl

theorem Keyword.spelling_ne_empty (k : Keyword) : k.spelling ≠ "" := by
  cases k <;> decide

theorem isUpper_name (t : DataType) : t.name.toList.all Char.isUpper = true := by
  cases t <;> rfl

theorem name_ne_empty (t : DataType) : t.name ≠ "" := by
  cases t <;> decide

/-! Spellings -/

theorem trim_eq_self_iff {s : String} :
    trim s = s ↔ skipBlanks s.toList = s.toList ∧ dropTrailingBlanks s.toList = s.toList := by
  rw [trim, ← String.toList_inj, String.toList_ofList]
  constructor
  · intro h
    have hs := skipBlanks_dropTrailingBlanks_skipBlanks s.toList
    have hd := dropTrailingBlanks_dropTrailingBlanks (skipBlanks s.toList)
    rw [h] at hs hd
    exact ⟨hs, hd⟩
  · rintro ⟨hs, hd⟩
    rw [hs, hd]

theorem exists_head_of_isProper {s : String} (h : IsProper s) :
    ∃ c w, s.toList = c :: w ∧ isBlank c = false := by
  have hne : s.toList ≠ [] := by simpa using h.1
  obtain ⟨c, w, hc⟩ := List.exists_cons_of_ne_nil hne
  have hs := (trim_eq_self_iff.1 h.2).1
  have hb := List.head?_dropWhile_not isBlank s.toList
  rw [← skipBlanks, hs, hc] at hb
  exact ⟨c, w, hc, hb⟩

namespace Spells

variable {l : Lexeme} {w after : List Char}

/-- No spelling is empty or starts with white space. -/
theorem exists_head (h : Spells l w after) : ∃ c w', w = c :: w' ∧ isBlank c = false := by
  have hword : ∀ {w : List Char}, IsWord w → ∃ c w', w = c :: w' ∧ isBlank c = false := by
    rintro w ⟨hne, hw⟩
    obtain ⟨c, w', rfl⟩ := List.exists_cons_of_ne_nil hne
    exact ⟨c, w', rfl, isBlank_of_isWordChar (hw c (by simp))⟩
  cases h with
  | keyword hw _ _ => exact hword hw
  | sign ht => exact ⟨_, [], rfl, isBlank_of_ofSign? ht⟩
  | type hw _ _ => exact hword hw
  | name hs _ => exact hword hs
  | quoted _ => exact ⟨_, _, rfl, by decide⟩
  | null hw _ => exact hword (isWord_of_null hw)
  | bare hs _ _ _ => exact exists_head_of_isProper hs

theorem isPrintable (h : Spells l w after) : l.IsPrintable := by
  cases h with
  | name hs _ => exact hs
  | quoted hs => exact hs
  | bare _ _ hb _ => exact hb.noQuote
  | _ => trivial

theorem append (h : Spells l w after) (hne : after ≠ []) (more : List Char) :
    Spells l w (after ++ more) := by
  cases h with
  | keyword hw hk ha => exact .keyword hw hk (ha.append hne more)
  | sign ht => exact .sign ht
  | type hw ht ha => exact .type hw ht (ha.append hne more)
  | name hs ha => exact .name hs (ha.append hne more)
  | quoted hs => exact .quoted hs
  | null hw ha => exact .null hw (ha.append hne more)
  | bare hs hn hb ha => exact .bare hs hn hb (ha.append hne more)

end Spells

/-- A plain spelling is one of the spellings. -/
theorem SpellsPlainly.spells {l : Lexeme} {w after : List Char} (hl : l.IsPrintable)
    (h : SpellsPlainly l w after) : Spells l w after := by
  cases h with
  | @keyword k _ _ hw ha =>
    obtain ⟨hw, hk⟩ := isWord_of_sameAsciiLetters k.isUpper_spelling k.spelling_ne_empty hw
    exact .keyword hw hk ha
  | sign ht => exact .sign ht
  | @type t _ _ hw ha =>
    obtain ⟨hw, ht⟩ := isWord_of_sameAsciiLetters (isUpper_name t) (name_ne_empty t) hw
    exact .type hw ht ha
  | name ha => exact .name hl ha
  | quoted => exact .quoted hl
  | null hw ha => exact .null hw ha

/-! Layouts -/

theorem skipBlanks_append_of_blanks {blanks : List Char} (h : ∀ b ∈ blanks, isBlank b = true)
    (cs : List Char) : skipBlanks (blanks ++ cs) = skipBlanks cs :=
  List.dropWhile_append_of_pos h

theorem skipBlanks_cons_of_not {c : Char} (h : isBlank c = false) (cs : List Char) :
    skipBlanks (c :: cs) = c :: cs :=
  List.dropWhile_cons_of_neg (by simp [h])

theorem skipBlanks_skipBlanks (cs : List Char) : skipBlanks (skipBlanks cs) = skipBlanks cs :=
  List.dropWhile_idempotent isBlank cs

theorem Begins.congr {l : Lexeme} {cs cs' after : List Char} (h : Begins l cs after)
    (he : skipBlanks cs = skipBlanks cs') : Begins l cs' after := by
  rwa [Begins, ← he]

namespace Laid

variable {l : Lexeme} {ls : List Lexeme} {cs rest : List Char}

theorem cons_iff :
    Laid Spells (l :: ls) cs rest ↔ ∃ after, Begins l cs after ∧ Laid Spells ls after rest := by
  constructor
  · rintro ⟨blanks, w, after, rfl, hb, hs, hl⟩
    refine ⟨after, ⟨w, ?_, hs⟩, hl⟩
    obtain ⟨c, w', rfl, hc⟩ := hs.exists_head
    rw [skipBlanks_append_of_blanks hb, List.cons_append, skipBlanks_cons_of_not hc]
  · rintro ⟨after, ⟨w, hw, hs⟩, hl⟩
    refine ⟨cs.takeWhile isBlank, w, after, ?_, fun b => List.mem_takeWhile_imp, hs, hl⟩
    rw [← hw]
    exact List.takeWhile_append_dropWhile.symm

theorem cons {after : List Char} (hb : Begins l cs after) (hl : Laid Spells ls after rest) :
    Laid Spells (l :: ls) cs rest :=
  cons_iff.2 ⟨after, hb, hl⟩

theorem congr {cs' : List Char} (h : Laid Spells (l :: ls) cs rest)
    (he : skipBlanks cs = skipBlanks cs') : Laid Spells (l :: ls) cs' rest := by
  obtain ⟨after, hb, hl⟩ := cons_iff.1 h
  exact cons_iff.2 ⟨after, hb.congr he, hl⟩

theorem isPrintable (h : Laid Spells ls cs rest) : ∀ l ∈ ls, l.IsPrintable := by
  induction ls generalizing cs with
  | nil => simp
  | cons l ls ih =>
    obtain ⟨_, _, _, _, _, hs, hl⟩ := h
    exact List.forall_mem_cons.2 ⟨hs.isPrintable, ih hl⟩

theorem spells (h : Laid SpellsPlainly ls cs rest) (hl : ∀ l ∈ ls, l.IsPrintable) :
    Laid Spells ls cs rest := by
  induction ls generalizing cs with
  | nil => exact h
  | cons l ls ih =>
    obtain ⟨blanks, w, after, hc, hb, hs, h⟩ := h
    rw [List.forall_mem_cons] at hl
    exact ⟨blanks, w, after, hc, hb, hs.spells hl.1, ih h hl.2⟩

theorem ne_nil (h : Laid Spells (l :: ls) cs rest) : cs ≠ [] := by
  obtain ⟨_, _, _, rfl, _, hs, _⟩ := h
  obtain ⟨c, w', rfl, _⟩ := hs.exists_head
  simp

/-- A text after a sign is no part of what is laid out before it. -/
theorem append_of_sign {t : Token} (ht : ∀ k, t ≠ .keyword k)
    (h : Laid Spells (ls ++ [.token t]) cs rest) (more : List Char) :
    Laid Spells (ls ++ [.token t]) (cs ++ more) (rest ++ more) := by
  induction ls generalizing cs with
  | nil =>
    obtain ⟨blanks, w, after, rfl, hb, hs, rfl⟩ := h
    cases hs with
    | keyword _ _ _ => exact absurd rfl (ht _)
    | sign hc => exact ⟨blanks, _, after ++ more, by simp, hb, .sign hc, rfl⟩
  | cons l ls ih =>
    obtain ⟨blanks, w, after, rfl, hb, hs, hl⟩ := h
    have hne : after ≠ [] := by
      cases ls <;> exact hl.ne_nil
    exact ⟨blanks, w, after ++ more, by simp, hb, hs.append hne more, ih hl⟩

theorem append (h : Laid Spells (ls ++ [.token .semicolon]) cs rest) (more : List Char) :
    Laid Spells (ls ++ [.token .semicolon]) (cs ++ more) (rest ++ more) :=
  h.append_of_sign (by simp) more

/-- Two lists of lexemes are laid out one after the other. -/
theorem append_iff {spells : Lexeme → List Char → List Char → Prop} {ls' : List Lexeme} :
    Laid spells (ls ++ ls') cs rest ↔ ∃ mid, Laid spells ls cs mid ∧ Laid spells ls' mid rest := by
  induction ls generalizing cs with
  | nil => exact ⟨fun h => ⟨cs, rfl, h⟩, fun ⟨_, h, h'⟩ => (show cs = _ from h) ▸ h'⟩
  | cons l ls ih =>
    constructor
    · rintro ⟨blanks, w, after, hc, hb, hs, hl⟩
      obtain ⟨mid, h, h'⟩ := ih.1 hl
      exact ⟨mid, ⟨blanks, w, after, hc, hb, hs, h⟩, h'⟩
    · rintro ⟨mid, ⟨blanks, w, after, hc, hb, hs, h⟩, h'⟩
      exact ⟨blanks, w, after, hc, hb, hs, ih.2 ⟨mid, h, h'⟩⟩

end Laid

end TableStore.Sql
