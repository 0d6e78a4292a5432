import TableStore.Proofs.Reading
import TableStore.Session

/-!
# Parsing

The parser accepts the texts that are written for a statement and no others, so that it undoes every
way of printing one.
-/
namespace TableStore.Sql

open Text

/-! Printing -/

/-- A lexeme as it is printed. -/
def Lexeme.text : Lexeme → List Char
  | token t => t.text.toList
  | type t => t.name.toList
  | name s => s.toList
  | literal _ .null => Keyword.null.spelling.toList
  | literal _ (.text s) => '"' :: s.toList ++ ['"']

/-- Lexemes with a space before each. -/
def spaced (ls : List Lexeme) : List Char := ls.flatMap fun l => ' ' :: l.text

/-- A statement with one space between its lexemes. -/
def Statement.print (s : Statement) : String :=
  String.ofList (s.command.spelling.toList ++ spaced (s.body ++ [.token .semicolon]))

theorem endsWord_spaced (ls : List Lexeme) : EndsWord (spaced ls) := by
  cases ls with
  | nil => exact endsWord_nil
  | cons l ls => exact endsWord_cons.2 (by decide)

/-- All lexemes but the tokens that no production asks for. -/
def Lexeme.IsFixed : Lexeme → Prop
  | token t => t.IsFixed
  | _ => True

def AreFixed (ls : List Lexeme) : Prop := ∀ l ∈ ls, l.IsFixed

theorem spellsPlainly_keyword (k : Keyword) {after : List Char} (ha : EndsWord after) :
    SpellsPlainly (.token (.keyword k)) k.spelling.toList after := by
  refine .keyword ?_ ha
  rw [String.ofList_toList, sameAsciiLetters, beq_self_eq_true]

/-- What is printed for a lexeme is a plain spelling of it. -/
theorem Lexeme.spellsPlainly_text {l : Lexeme} {after : List Char} (hl : l.IsFixed)
    (ha : EndsWord after) : SpellsPlainly l l.text after := by
  cases l with
  | token t =>
    cases t with
    | keyword k => exact spellsPlainly_keyword k ha
    | word s => exact hl.elim
    | quoted s => exact hl.elim
    | _ => exact .sign rfl
  | type t =>
    refine .type ?_ ha
    rw [text, String.ofList_toList, sameAsciiLetters, beq_self_eq_true]
  | name s => exact .name ha
  | literal slot v =>
    cases v with
    | null => exact .null (by rw [text]; decide) ha
    | text s => exact .quoted

theorem laid_spaced {ls : List Lexeme} (hl : AreFixed ls) :
    Laid SpellsPlainly ls (spaced ls) [] := by
  induction ls with
  | nil => rfl
  | cons l ls ih =>
    obtain ⟨hl, hls⟩ := List.forall_mem_cons.1 hl
    exact ⟨[' '], l.text, spaced ls, rfl, by simp [isBlank],
      Lexeme.spellsPlainly_text hl (endsWord_spaced ls), ih hls⟩

@[simp] theorem areFixed_nil : AreFixed [] := by simp [AreFixed]

@[simp] theorem areFixed_cons {l : Lexeme} {ls : List Lexeme} :
    AreFixed (l :: ls) ↔ l.IsFixed ∧ AreFixed ls :=
  List.forall_mem_cons

@[simp] theorem areFixed_append {ls ls' : List Lexeme} :
    AreFixed (ls ++ ls') ↔ AreFixed ls ∧ AreFixed ls' :=
  List.forall_mem_append

theorem areFixed_separated {α : Type} {lexemes : α → List Lexeme} (h : ∀ x, AreFixed (lexemes x))
    (xs : List α) : AreFixed (separated lexemes xs) := by
  induction xs with
  | nil => exact areFixed_nil
  | cons x xs ih =>
    by_cases hxs : xs = []
    · rw [hxs, separated_singleton]
      exact h x
    · rw [separated_cons lexemes x hxs, areFixed_append, areFixed_cons]
      exact ⟨h x, trivial, ih⟩

theorem areFixed_valueLexemes (values : List Literal) : AreFixed (valueLexemes values) := by
  rw [valueLexemes, areFixed_append]
  refine ⟨areFixed_separated (fun l => ?_) values, ?_⟩
  · simp [Lexeme.IsFixed]
  · simp [Lexeme.IsFixed, Token.IsFixed]

theorem areFixed_selectionLexemes (columns : Option (List String)) :
    AreFixed (selectionLexemes columns) := by
  cases columns with
  | none => simp [selectionLexemes, Lexeme.IsFixed, Token.IsFixed]
  | some names => exact areFixed_separated (fun n => by simp [Lexeme.IsFixed]) names

theorem Condition.areFixed (w : Option Condition) : AreFixed (lexemes w) := by
  cases w <;> simp [lexemes, Lexeme.IsFixed, Token.IsFixed]

/-! Printable lists -/

def ArePrintable (ls : List Lexeme) : Prop := ∀ l ∈ ls, l.IsPrintable

@[simp] theorem arePrintable_nil : ArePrintable [] := by simp [ArePrintable]

@[simp] theorem arePrintable_cons {l : Lexeme} {ls : List Lexeme} :
    ArePrintable (l :: ls) ↔ l.IsPrintable ∧ ArePrintable ls :=
  List.forall_mem_cons

@[simp] theorem arePrintable_append {ls ls' : List Lexeme} :
    ArePrintable (ls ++ ls') ↔ ArePrintable ls ∧ ArePrintable ls' :=
  List.forall_mem_append

@[simp] theorem arePrintable_separated {α : Type} {lexemes : α → List Lexeme} {xs : List α} :
    ArePrintable (separated lexemes xs) ↔ ∀ x ∈ xs, ArePrintable (lexemes x) := by
  induction xs with
  | nil => simp [separated]
  | cons x xs ih =>
    rw [List.forall_mem_cons]
    by_cases hxs : xs = []
    · simp [hxs, separated_singleton]
    · rw [separated_cons lexemes x hxs, arePrintable_append, arePrintable_cons, ih]
      simp [Lexeme.IsPrintable]

@[simp] theorem isPrintable_name {s : String} : (Lexeme.name s).IsPrintable ↔ IsWord s.toList :=
  .rfl

@[simp] theorem isPrintable_token {t : Token} : (Lexeme.token t).IsPrintable :=
  trivial

@[simp] theorem isPrintable_type {t : DataType} : (Lexeme.type t).IsPrintable :=
  trivial

namespace Statement

theorem areFixed_body (s : Statement) : AreFixed s.body := by
  have hc : ∀ columns, AreFixed (separated ColumnSpec.lexemes columns) :=
    areFixed_separated fun c => by simp [ColumnSpec.lexemes, Lexeme.IsFixed]
  have ha : ∀ assignments, AreFixed (separated Assignment.lexemes assignments) :=
    areFixed_separated fun a => by simp [Assignment.lexemes, Lexeme.IsFixed, Token.IsFixed]
  cases s <;>
    simp [body, Lexeme.IsFixed, Token.IsFixed, hc, ha, areFixed_valueLexemes,
      areFixed_selectionLexemes, Condition.areFixed]

theorem laid_print (s : Statement) : Laid SpellsPlainly s.lexemes s.print.toList [] := by
  have hb : AreFixed (s.body ++ [.token .semicolon]) :=
    areFixed_append.2 ⟨areFixed_body s, areFixed_cons.2 ⟨trivial, areFixed_nil⟩⟩
  rw [print, String.toList_ofList]
  exact ⟨[], s.command.spelling.toList, _, rfl, by simp,
    spellsPlainly_keyword s.command (endsWord_spaced _), laid_spaced hb⟩

/-! Parsing -/

/-- What is laid out for a statement is read as that statement, whatever comes after it. -/
theorem eq_of_parse {text : String} {s s' : Statement} {rest : List Char} (hi : s.HasItems)
    (hl : Laid Spells s.lexemes text.toList rest) (h : parse text = .ok s') :
    s' = s ∧ ∀ c ∈ rest, isBlank c = true := by
  obtain ⟨mid, hr, hl⟩ := reads_read.complete hi rfl hl
  obtain ⟨after, hb, rfl⟩ := Laid.cons_iff.1 hl
  obtain ⟨⟨s'', mid'⟩, hr', h⟩ := bind_eq_ok_iff.1 h
  cases hr.symm.trans hr'
  obtain ⟨after', he, h⟩ := bind_eq_ok_iff.1 h
  cases ((expect_eq_ok_iff (by trivial)).2 hb).symm.trans he
  obtain ⟨o, hn, h⟩ := bind_eq_ok_iff.1 h
  cases o with
  | some p => cases h
  | none =>
    cases h
    exact ⟨rfl, next?_eq_none_iff.1 hn⟩

/-- A text is parsed when it is laid out for the statement, up to white space at its end. -/
theorem parse_eq_ok_iff {text : String} {s : Statement} : parse text = .ok s ↔
    s.HasItems ∧ ∃ rest, Laid Spells s.lexemes text.toList rest ∧ ∀ c ∈ rest, isBlank c = true := by
  constructor
  · intro h
    obtain ⟨⟨s', mid⟩, hr, h⟩ := bind_eq_ok_iff.1 h
    obtain ⟨rest, he, h⟩ := bind_eq_ok_iff.1 h
    obtain ⟨o, hn, h⟩ := bind_eq_ok_iff.1 h
    cases o with
    | some p => cases h
    | none =>
      cases h
      have hend : Laid Spells [.token .semicolon] mid rest :=
        .cons ((expect_eq_ok_iff (by trivial)).1 he) rfl
      obtain ⟨hi, hl⟩ := reads_read.sound hr hend
      exact ⟨hi, rest, hl, next?_eq_none_iff.1 hn⟩
  · rintro ⟨hi, rest, hl, hb⟩
    obtain ⟨mid, hr, hl⟩ := reads_read.complete hi rfl hl
    obtain ⟨after, he, rfl⟩ := Laid.cons_iff.1 hl
    refine bind_eq_ok_iff.2 ⟨_, hr, bind_eq_ok_iff.2 ⟨_, (expect_eq_ok_iff (by trivial)).2 he, ?_⟩⟩
    exact bind_eq_ok_iff.2 ⟨_, next?_eq_none_iff.2 hb, rfl⟩

theorem isPrintable_of_parse {text : String} {s : Statement} (h : parse text = .ok s) :
    s.IsPrintable := by
  obtain ⟨hi, rest, hl, -⟩ := parse_eq_ok_iff.1 h
  exact ⟨hl.isPrintable, hi⟩

theorem parse_print {s : Statement} (hs : s.IsPrintable) : parse s.print = .ok s :=
  parse_eq_ok_iff.2 ⟨hs.items, [], (laid_print s).spells hs.lexemes, by simp⟩

/-- Some text is parsed as a statement if the statement can be written at all. -/
theorem exists_parse_iff {s : Statement} : (∃ text, parse text = .ok s) ↔ s.IsPrintable :=
  ⟨fun ⟨_, h⟩ => isPrintable_of_parse h, fun h => ⟨_, parse_print h⟩⟩

/-- Every text that is plainly written for a statement is parsed as that statement. -/
theorem parse_of_laid {text : String} {s : Statement} {rest : List Char} (hs : s.IsPrintable)
    (hl : Laid SpellsPlainly s.lexemes text.toList rest) (hr : ∀ c ∈ rest, isBlank c = true) :
    parse text = .ok s :=
  parse_eq_ok_iff.2 ⟨hs.items, rest, hl.spells hs.lexemes, hr⟩

theorem parse_of_laid_insert :
    parse "Insert INTO values\tValUES(\"a,;)\",null ) ;\n" =
      .ok (.insert "values" [.text "a,;)", .null]) := by
  have hb : ∀ {w : List Char}, w.all isBlank = true → ∀ c ∈ w, isBlank c = true :=
    List.all_eq_true.1
  refine parse_of_laid ⟨by decide, by simp [HasItems]⟩ ?_ (hb (rfl : ['\n'].all isBlank = true))
  refine ⟨[], "Insert".toList, _, rfl, hb rfl, .keyword (by decide) (by decide), ?_⟩
  refine ⟨[' '], "INTO".toList, _, rfl, hb rfl, .keyword (by decide) (by decide), ?_⟩
  refine ⟨[' '], "values".toList, _, rfl, hb rfl, .name (by decide), ?_⟩
  refine ⟨['\t'], "ValUES".toList, _, rfl, hb rfl, .keyword (by decide) (by decide), ?_⟩
  refine ⟨[], ['('], _, rfl, hb rfl, .sign rfl, ?_⟩
  refine ⟨[], "\"a,;)\"".toList, _, rfl, hb rfl, .quoted, ?_⟩
  refine ⟨[], [','], _, rfl, hb rfl, .sign rfl, ?_⟩
  refine ⟨[], "null".toList, _, rfl, hb rfl, .null (by decide) (by decide), ?_⟩
  refine ⟨[' '], [')'], _, rfl, hb rfl, .sign rfl, ?_⟩
  exact ⟨[' '], [';'], _, rfl, hb rfl, .sign rfl, rfl⟩

/-- A text that is parsed is written for the statement it is parsed as, all of it: what is printed
for the statement is parsed as it again, and nothing but white space can be added to the text. A
text that is not parsed is refused with an error of syntax. -/
theorem parse_exact (text : String) :
    (∀ s, parse text = .ok s →
      s.IsPrintable ∧
      (∃ rest, Laid Spells s.lexemes text.toList rest ∧ ∀ c ∈ rest, isBlank c = true) ∧
      parse s.print = .ok s ∧
      ∀ more : String, (∃ c ∈ more.toList, isBlank c = false) →
        ∃ e, parse (text ++ more) = .error e) ∧
    ∀ e, parse text = .error e →
      ∀ session : Session, session.execute text = (session, .error (.ofSyntax e)) := by
  constructor
  · intro s h
    have hs := isPrintable_of_parse h
    obtain ⟨hi, rest, hl, hr⟩ := parse_eq_ok_iff.1 h
    refine ⟨hs, ⟨rest, hl, hr⟩, parse_print hs, ?_⟩
    rintro more ⟨c, hc, hb⟩
    cases hp : parse (text ++ more) with
    | error e => exact ⟨e, rfl⟩
    | ok s' =>
      rw [lexemes, ← List.cons_append] at hl
      have hl := hl.append more.toList
      rw [← String.toList_append] at hl
      have hc := (eq_of_parse hi hl hp).2 c (List.mem_append_right rest hc)
      rw [hb] at hc
      cases hc
  · intro e h session
    rw [Session.execute, h]

theorem parse_exact_delete :
    parse "delete FROM a where b= x, y ;" = .ok (.delete "a" (some ⟨"b", .text "x, y"⟩)) ∧
      (∃ e, parse ("delete FROM a where b= x, y ;" ++ " help") = .error e) ∧
      (⟨.ofDatabases [], { store := .memory .empty }⟩ : Session).execute "help" =
        (⟨.ofDatabases [], { store := .memory .empty }⟩, .error (.ofSyntax .endOfStatement)) := by
  have h : parse "delete FROM a where b= x, y ;" =
      .ok (.delete "a" (some ⟨"b", .text "x, y"⟩)) := rfl
  refine ⟨h, ((parse_exact _).1 _ h).2.2.2 " help" ⟨'h', by decide, by decide⟩, ?_⟩
  exact (parse_exact "help").2 .endOfStatement rfl _

end Statement

end TableStore.Sql
